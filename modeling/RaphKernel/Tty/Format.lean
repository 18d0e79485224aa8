import RaphKernel.Libc.Strtoul

namespace Tty
open Bytes Libc Loop Numerals Nat BitVec List

structure VaList where
  slot : ℕ → BitVec 64
  str : BitVec 64 → CString

structure State where
  fmt : Option (List Byte)
  arg : ℕ
  out : List Byte

section
variable {w : ℕ}

def digits (b i : BitVec w) : ℕ :=
  if h : 1 < b.toNat ∧ b ≤ i then digits b (i / b) + 1 else 0
termination_by i.toNat
decreasing_by
  rw [BitVec.toNat_udiv]
  exact Nat.div_lt_self (Nat.lt_of_lt_of_le (Nat.zero_lt_of_lt h.1) h.2) h.1

def power (b : BitVec w) : ℕ → BitVec w
  | 0 => 1
  | k + 1 => power b k * b

def decimalChar (l : BitVec 32) : List Byte := [(l + 48).setWidth 8]

def hexChar (l : BitVec 32) : List Byte :=
  if l < 10 then [(l + 48).setWidth 8] else if l < 16 then [(l - 10 + 65).setWidth 8] else []

def emit (char : BitVec 32 → List Byte) (b : BitVec w) : ℕ → BitVec w → List Byte
  | 0, num => char ((num / power b 0).setWidth 32)
  | j + 1, num =>
    let l : BitVec 32 := (num / power b (j + 1)).setWidth 32
    char l ++ emit char b j (num - l.setWidth w * power b (j + 1))

def numeral (char : BitVec 32 → List Byte) (b num : BitVec w) : List Byte :=
  emit char b (digits b num) num

def signed (num : BitVec w) : List Byte :=
  (if num.toInt < 0 then [45] else []) ++
    numeral decimalChar 10 (if num.toInt < 0 then -num else num)

end

def copy (accuracy : BitVec 32) : List Byte → List Byte
  | [] => []
  | c :: s => if 0 < accuracy.toInt then c :: copy (accuracy - 1) s else []

def short (va : VaList) (accuracy : BitVec 32) (c : Byte) : Option (BitVec 64 → List Byte) :=
  if c = 99 then some fun v => [v.setWidth 8]
  else if c = 115 then some fun v =>
    if accuracy = 0 then (va.str v).chars else copy accuracy (va.str v).chars
  else if c = 117 then some fun v => numeral decimalChar (10 : BitVec 32) (v.setWidth 32)
  else if c = 100 then some fun v => signed (v.setWidth 32 : BitVec 32)
  else if c = 112 ∨ c = 88 ∨ c = 120 then some fun v =>
    numeral hexChar (16 : BitVec 32) (v.setWidth 32)
  else none

def longLong (c : Byte) : Option (BitVec 64 → List Byte) :=
  if c = 100 then some signed
  else if c = 117 then some (numeral decimalChar 10)
  else if c = 120 then some (numeral hexChar 16)
  else none

def skipFlag : List Byte → List Byte
  | [] => []
  | c :: r => if c = 43 ∨ c = 45 ∨ c = 35 then r else c :: r

def skipPoint : List Byte → List Byte
  | [] => []
  | c :: r => if c = 46 then r else c :: r

def precision (accuracy : BitVec 32) : List Byte → BitVec 32 × List Byte
  | [] => (accuracy,[])
  | c :: r =>
    if isDecimal c then precision (accuracy * 10 + (c.setWidth 32 - 48)) r else (accuracy,c :: r)

def deref (l : List Byte) : Byte := l.headD 0

def State.write (va : VaList) (s : State) (fmt : Option (List Byte)) (text : List Byte) :
    Option (BitVec 64 → List Byte) → State
  | some convert => ⟨fmt,s.arg + 1,s.out ++ convert (va.slot s.arg)⟩
  | none => ⟨fmt,s.arg,s.out ++ text⟩

def conversion (va : VaList) (s : State) (accuracy : BitVec 32) (c : Byte) (r : List Byte) : State :=
  if c = 108 then
    if deref r = 108 then
      s.write va r.tail.tail? [37,108,108,deref r.tail] (longLong (deref r.tail))
    else s.write va r.tail? [37,108,deref r] none
  else s.write va (some r) [37,c] (short va accuracy c)

def body (va : VaList) (s : State) : Sum State (Option (List Byte)) :=
  match s.fmt with
  | none => .inr none
  | some [] => .inr (some s.out)
  | some (c :: r) =>
    if c = 37 then
      match precision 0 (skipPoint ((skipFlag r).dropWhile isDecimal)) with
      | (_,[]) => .inr (some s.out)
      | (accuracy,c :: r) => .inl (conversion va s accuracy c r)
    else .inl ⟨some r,s.arg,s.out ++ [c]⟩

def vprintfSub (va : VaList) (fmt : CString) (out : Option (List Byte)) : Prop :=
  Returns (body va) ⟨some fmt.chars,0,[]⟩ out

section

def glyph (d : ℕ) : Byte := BitVec.ofNat 8 (if d < 10 then 48 + d else 55 + d)

def expansion (b : ℕ) : ℕ → ℕ → List ℕ
  | 0, n => [n]
  | j + 1, n => n / b ^ (j + 1) :: expansion b j (n % b ^ (j + 1))

def Spelled (b n : ℕ) (text : List Byte) : Prop :=
  ∃ ds, text = ds.map glyph ∧ (∀ d ∈ ds, d < b) ∧ (ds = [0] ∨ ds.head? ≠ some 0) ∧ value b ds = n

def Canonical (b : ℕ) (v : ℤ) (text : List Byte) : Prop :=
  ∃ ds, Spelled b v.natAbs ds ∧ text = if v < 0 then 45 :: ds else ds

def parse (b : ℕ) (text : List Byte) : ℤ :=
  if text.head? = some 45 then -(value b (text.tail.map digitOf) : ℤ)
  else value b (text.map digitOf)

inductive Conversion
  | d | u | x | lld | llu | llx

def Conversion.letters : Conversion → List Byte
  | .d => [100]
  | .u => [117]
  | .x => [120]
  | .lld => [108,108,100]
  | .llu => [108,108,117]
  | .llx => [108,108,120]

def Conversion.base : Conversion → ℕ
  | .x | .llx => 16
  | _ => 10

def Conversion.value (v : BitVec 64) : Conversion → ℤ
  | .d => (v.setWidth 32).toInt
  | .u | .x => (v.setWidth 32).toNat
  | .lld => v.toInt
  | .llu | .llx => v.toNat

variable {b j n w : ℕ}

lemma expansion_length : (expansion b j n).length = j + 1 := by
  induction j generalizing n with
  | zero => rfl
  | succ j ih => rw [expansion,length_cons,ih]

lemma expansion_below (hb : 0 < b) (hn : n < b ^ (j + 1)) : ∀ d ∈ expansion b j n, d < b := by
  induction j generalizing n with
  | zero => simpa [expansion] using hn
  | succ j ih =>
    rw [expansion,forall_mem_cons]
    exact ⟨Nat.div_lt_of_lt_mul (by rwa [← pow_succ]),ih (mod_lt _ (Nat.pow_pos hb))⟩

lemma expansion_value : value b (expansion b j n) = n := by
  induction j generalizing n with
  | zero => simp [expansion,value]
  | succ j ih =>
    rw [expansion,← singleton_append,value_append,expansion_length,ih]
    simp [value,div_add_mod']

lemma expansion_leading (hb : 0 < b) (hn : j = 0 ∨ b ^ j ≤ n) :
    expansion b j n = [0] ∨ (expansion b j n).head? ≠ some 0 := by
  cases j with
  | zero =>
    rw [expansion]
    by_cases h : n = 0
    · exact .inl (by rw [h])
    · exact .inr (by simpa using h)
  | succ j =>
    have hl := Nat.div_pos (hn.resolve_left (succ_ne_zero j)) (Nat.pow_pos hb)
    exact .inr (by simpa [expansion] using hl.ne')

section
variable {radix num : BitVec w} {char : BitVec 32 → List Byte}

structure Glyphs (char : BitVec 32 → List Byte) (radix : BitVec w) (b : ℕ) : Prop where
  base : radix.toNat = b
  least : 1 < b
  most : b ≤ 16
  char : ∀ d < b, char (BitVec.ofNat 32 d) = [glyph d]

variable (h : Glyphs char radix b)
include h

lemma digits_log (i : BitVec w) : digits radix i = log b i.toNat := by
  obtain rfl := h.base
  fun_induction digits radix i with
  | case1 i hi ih => rw [ih,toNat_udiv,← log_of_one_lt_of_le hi.1 hi.2]
  | case2 i hi =>
    exact (log_of_lt (lt_def.mp (BitVec.not_le.mp fun hle => hi ⟨h.least,hle⟩))).symm

lemma toNat_power (hj : b ^ j < 2 ^ w) : (power radix j).toNat = b ^ j := by
  induction j with
  | zero =>
    rw [pow_zero] at hj
    exact mod_eq_of_lt hj
  | succ j ih =>
    have hle := Nat.pow_le_pow_right (zero_lt_of_lt h.least) (le_succ j)
    rw [power,toNat_mul,ih (hle.trans_lt hj),h.base,← pow_succ,mod_eq_of_lt hj]

lemma quotient_digit (hj : b ^ j < 2 ^ w) :
    (num / power radix j).setWidth 32 = BitVec.ofNat 32 (num.toNat / b ^ j) := by
  apply eq_of_toNat_eq
  rw [toNat_setWidth,toNat_udiv,toNat_power h hj,toNat_ofNat]

lemma emit_expansion (hj : b ^ j < 2 ^ w) (hn : num.toNat < b ^ (j + 1)) :
    emit char radix j num = (expansion b j num.toNat).map glyph := by
  induction j generalizing num with
  | zero =>
    rw [emit,quotient_digit h hj,pow_zero,Nat.div_one,h.char _ (by simpa using hn)]
    rfl
  | succ j ih =>
    have hpo := zero_lt_of_lt h.least
    have hd := Nat.div_lt_of_lt_mul (by rwa [← pow_succ])
    have hs : num.toNat / b ^ (j + 1) < 2 ^ 32 :=
      hd.trans_le (Nat.le_trans h.most (by decide))
    have hle := div_mul_le_self num.toNat (b ^ (j + 1))
    have hp : ((BitVec.ofNat 32 (num.toNat / b ^ (j + 1))).setWidth w *
        power radix (j + 1)).toNat = num.toNat / b ^ (j + 1) * b ^ (j + 1) := by
      rw [toNat_mul,toNat_setWidth,toNat_ofNat,toNat_power h hj,mod_eq_of_lt hs,
        mod_eq_of_lt (Nat.lt_of_le_of_lt (div_le_self _ _) num.isLt),
        mod_eq_of_lt (hle.trans_lt num.isLt)]
    have hr : (num - (BitVec.ofNat 32 (num.toNat / b ^ (j + 1))).setWidth w *
        power radix (j + 1)).toNat = num.toNat % b ^ (j + 1) := by
      rw [toNat_sub_of_le (by rwa [le_def,hp]),hp,mod_eq_sub_div_mul]
    rw [emit,quotient_digit h hj,h.char _ hd,expansion,
      ih (Nat.lt_of_le_of_lt (Nat.pow_le_pow_right hpo (le_succ j)) hj)
        (hr ▸ mod_lt _ (Nat.pow_pos hpo)),hr]
    rfl

lemma numeral_spelled (num : BitVec w) : Spelled b num.toNat (numeral char radix num) := by
  have hpo := zero_lt_of_lt h.least
  have hd := digits_log h num
  have hb : num.toNat < b ^ (digits radix num + 1) := by
    rw [hd]
    exact lt_pow_succ_log_self h.least _
  have hl : digits radix num = 0 ∨ b ^ digits radix num ≤ num.toNat := by
    rw [hd]
    by_cases hz : num.toNat = 0
    · exact .inl (by rw [hz,log_zero_right])
    · exact .inr (pow_log_le_self _ hz)
  have hp : b ^ digits radix num < 2 ^ w := by
    rcases hl with hz | hle
    · rw [hz,pow_zero]
      exact Nat.lt_trans h.least (h.base ▸ radix.isLt)
    · exact hle.trans_lt num.isLt
  exact ⟨_,emit_expansion h hp hb,expansion_below hpo hb,expansion_leading hpo hl,expansion_value⟩

lemma unsigned_canonical (num : BitVec w) : Canonical b num.toNat (numeral char radix num) :=
  ⟨_,numeral_spelled h num,(if_neg (Int.not_lt.mpr (Int.natCast_nonneg _))).symm⟩

end

lemma signed_canonical (h : Glyphs decimalChar (10 : BitVec w) 10) (num : BitVec w) :
    Canonical 10 num.toInt (signed num) := by
  rw [signed]
  have ha : num.toInt.natAbs = (if num.toInt < 0 then -num else num).toNat := by
    have hlt := num.isLt
    rw [num.toInt_eq_toNat_cond]
    by_cases hs : 2 * num.toNat < 2 ^ w
    · rw [if_pos hs,if_neg (by omega),Int.natAbs_natCast]
    · rw [if_neg hs,if_pos (by omega),toNat_neg,mod_eq_of_lt (by omega)]
      omega
  refine ⟨_,ha ▸ numeral_spelled h _,?_⟩
  split <;> rfl

lemma digitOf_glyph {d : ℕ} (h : d < 16) : digitOf (glyph d) = d ∧ glyph d ≠ 45 := by
  revert d
  decide

lemma parse_canonical {v : ℤ} {text : List Byte} (hb : b ≤ 16) (h : Canonical b v text) :
    parse b text = v := by
  obtain ⟨_,⟨ds,rfl,hbe,-,hv⟩,rfl⟩ := h
  have hg := fun d hd => digitOf_glyph (Nat.lt_of_lt_of_le (hbe d hd) hb)
  have hdi : (ds.map glyph).map digitOf = ds := by
    rw [map_map]
    exact (map_congr_left fun d hd => (hg d hd).1).trans (map_id ds)
  split
  · rw [parse,if_pos head?_cons,tail_cons,hdi,hv]
    omega
  · have hh : (ds.map glyph).head? ≠ some 45 := by
      intro h
      obtain ⟨d,hd,heq⟩ := mem_map.mp (mem_of_head? h)
      exact (hg d hd).2 heq
    rw [parse,if_neg hh,hdi,hv]
    omega

theorem conversion_prints_canonical (va : VaList) (c : Conversion) (rest : List Byte) (arg : ℕ)
    (out : List Byte) :
    ∃ text, body va ⟨some (37 :: c.letters ++ rest),arg,out⟩ = .inl ⟨some rest,arg + 1,out ++ text⟩ ∧
      Canonical c.base (c.value (va.slot arg)) text ∧
      parse c.base text = c.value (va.slot arg) := by
  have hp : ∃ text, body va ⟨some (37 :: c.letters ++ rest),arg,out⟩ =
      .inl ⟨some rest,arg + 1,out ++ text⟩ ∧ Canonical c.base (c.value (va.slot arg)) text := by
    cases c with
    | d | lld => exact ⟨_,rfl,signed_canonical (by constructor <;> decide) _⟩
    | u | x | llu | llx => exact ⟨_,rfl,unsigned_canonical (by constructor <;> decide) _⟩
  obtain ⟨text,hb,hca⟩ := hp
  exact ⟨text,hb,hca,parse_canonical (by cases c <;> decide) hca⟩

end

section

def header (r : List Byte) : List Byte :=
  (skipPoint ((skipFlag r).dropWhile isDecimal)).dropWhile isDecimal

def after (c : Byte) (r : List Byte) : Option (List Byte) :=
  if c = 108 then if deref r = 108 then r.tail.tail? else r.tail? else some r

inductive Cut : List Byte → Prop
  | char {c : Byte} {r : List Byte} (hc : c ≠ 37) (h : Cut r) : Cut (c :: r)
  | here {c : Byte} {r l : List Byte} (h : header r = c :: l) (hend : after c l = none) : Cut (37 :: r)
  | later {c : Byte} {r l l' : List Byte} (h : header r = c :: l) (hmore : after c l = some l')
      (hcut : Cut l') : Cut (37 :: r)

variable {va : VaList} {s : State} {c : Byte} {r l l' : List Byte}

lemma precision_rest (a : BitVec 32) (r : List Byte) :
    (precision a r).2 = r.dropWhile isDecimal := by
  induction r generalizing a with
  | nil => rfl
  | cons c r ih =>
    rw [precision,dropWhile_cons]
    split
    · exact ih _
    · rfl

lemma header_length (r : List Byte) : (header r).length ≤ r.length := by
  have hf : (skipFlag r).length ≤ r.length := by
    fun_cases skipFlag r <;> simp
  have hp : ∀ l, (skipPoint l).length ≤ l.length := by
    intro l
    fun_cases skipPoint l <;> simp
  have hd := fun l : List Byte => (dropWhile_sublist (l := l) (p := isDecimal)).length_le
  exact (hd _).trans ((hp _).trans ((hd _).trans hf))

lemma after_length (h : after c l = some l') : l'.length ≤ l.length := by
  have ht : ∀ l l' : List Byte, l.tail? = some l' → l'.length ≤ l.length := by
    rintro (_ | ⟨_,_⟩) _ h <;> cases h
    exact le_succ _
  rw [after] at h
  split_ifs at h with _ hd
  · exact (ht _ _ h).trans (by simp)
  · exact ht _ _ h
  · rw [Option.some.inj h]

lemma conversion_fmt (a : BitVec 32) : (conversion va s a c l).fmt = after c l := by
  have hw : ∀ fmt text convert, (s.write va fmt text convert).fmt = fmt := by
    rintro _ _ (_ | _) <;> rfl
  rw [conversion,after]
  split_ifs <;> exact hw _ _ _

lemma body_percent (va : VaList) (hs : s.fmt = some (37 :: r)) :
    header r = [] ∧ body va s = .inr (some s.out) ∨
      ∃ c l t, header r = c :: l ∧ body va s = .inl t ∧ t.fmt = after c l := by
  have hr : (precision 0 (skipPoint ((skipFlag r).dropWhile isDecimal))).2 = header r :=
    precision_rest _ _
  simp only [body,hs,if_true]
  cases hp : precision 0 _ with
  | mk a l =>
    rw [hp] at hr
    cases l with
    | nil => exact .inl ⟨hr.symm,rfl⟩
    | cons c l => exact .inr ⟨c,l,_,hr.symm,rfl,conversion_fmt a⟩

lemma returns_iff_not_cut (n : ℕ) (hn : r.length < n) (hs : s.fmt = some r) :
    (∃ out, Returns (body va) s (some out)) ↔ ¬ Cut r := by
  induction n generalizing r s with
  | zero => exact absurd hn (Nat.not_lt_zero _)
  | succ n ih =>
    match r with
    | [] =>
      have hb : body va s = .inr (some s.out) := by rw [body,hs]
      exact iff_of_true ⟨_,returns_of_exit hb⟩ nofun
    | c :: r =>
      have hle := lt_of_succ_lt_succ hn
      by_cases hc : c = 37
      · subst hc
        obtain ⟨hh,hb⟩ | ⟨c,l,t,hh,hb,ht⟩ := body_percent va hs
        · refine iff_of_true ⟨_,returns_of_exit hb⟩ ?_
          intro hcut
          cases hcut <;> simp_all
        · have hl := (header_length r).trans_lt hle
          rw [hh] at hl
          simp only [returns_step_iff hb]
          cases ha : after c l with
          | none =>
            have hp : body va t = .inr none := by rw [body,ht,ha]
            exact iff_of_false (by simp [returns_exit_iff hp]) (not_not.mpr (.here hh ha))
          | some l' =>
            have hl' := after_length ha
            rw [ih (Nat.lt_of_le_of_lt (hl'.trans (le_succ _)) hl) (ht.trans ha)]
            refine not_congr ⟨.later hh ha,fun hcut => ?_⟩
            cases hcut <;> simp_all
      · have hb : body va s = .inl ⟨some r,s.arg,s.out ++ [c]⟩ := by
          rw [body,hs]
          exact if_neg hc
        simp only [returns_step_iff hb]
        rw [ih hle rfl]
        refine not_congr ⟨.char hc,fun hcut => ?_⟩
        cases hcut <;> trivial

theorem format_read_iff (va : VaList) (fmt : CString) :
    (∃ out, vprintfSub va fmt (some out)) ↔ ¬ Cut fmt.chars :=
  returns_iff_not_cut _ (Nat.lt_succ_self _) rfl

def longFormat : CString := ⟨[37,108],by decide⟩

def noArgs : VaList := ⟨fun _ => 0,fun _ => ⟨[],by decide⟩⟩

theorem format_overread : ¬ ∃ out, vprintfSub noArgs longFormat (some out) := by
  rintro ⟨out,ho⟩
  have hs : body noArgs ⟨some [37,108],0,[]⟩ = .inl ⟨none,0,[37,108,0]⟩ := rfl
  have hp : body noArgs ⟨none,0,[37,108,0]⟩ = .inr none := rfl
  cases (returns_exit_iff hp).mp ((returns_step_iff hs).mp ho)

end

end Tty
