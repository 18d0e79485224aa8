import RaphKernel.Libc
import RaphKernel.Library.Numerals

namespace Libc
open Bytes Numerals List BitVec Nat

def skipSign (nptr : ℕ → Byte) : BitVec 32 × ℕ :=
  if nptr 0 = 43 then (1,1) else if nptr 0 = 45 then (-1,1) else (1,0)

def skipBase (nptr : ℕ → Byte) (base p : ℕ) : ℕ × ℕ :=
  if base = 0 then
    if nptr p = 48 then
      if nptr (p + 1) = 120 ∨ nptr (p + 1) = 88 then (16,p + 2) else (8,p + 1)
    else (10,p)
  else if base = 16 then
    if nptr p ≠ 0 ∧ (nptr (p + 1) = 120 ∨ nptr (p + 1) = 88) then (base,p + 2) else (base,p)
  else (base,p)

def digit (base : ℕ) (c : Byte) : Option ℕ :=
  if base ≤ 10 then
    if 48 ≤ c.toNat ∧ c.toNat < 48 + base then some (c.toNat - 48) else none
  else
    if 48 ≤ c.toNat ∧ c.toNat ≤ 57 then some (c.toNat - 48)
    else if 65 ≤ c.toNat ∧ c.toNat < 65 + base - 10 then some (c.toNat - 65 + 10)
    else if 97 ≤ c.toNat ∧ c.toNat < 97 + base - 10 then some (c.toNat - 97 + 10)
    else none

def digitLoop (base : ℕ) : List Byte → ℕ → BitVec 32 → BitVec 32 × Option ℕ
  | [], _, val => (val,none)
  | c :: cs, p, val =>
    let val := val * BitVec.ofNat 32 base
    match digit base c with
    | some d => digitLoop base cs (p + 1) (val + BitVec.ofNat 32 d)
    | none => (val,some p)

def strtoul (nptr : CString) (base : ℕ) : BitVec 64 × Option ℕ :=
  let (sign,p) := skipSign nptr.mem
  let (base,p) := skipBase nptr.mem base p
  let (val,endptr) := digitLoop base (nptr.chars.drop p) p 0
  ((val * sign).signExtend 64,endptr)

inductive Sign where
  | none
  | plus
  | minus
  deriving DecidableEq, Repr

def Sign.chars : Sign → List Byte
  | .none => []
  | .plus => [43]
  | .minus => [45]

def Sign.factor : Sign → ℤ
  | .minus => -1
  | _ => 1

def alphanumeric (c : Byte) : Option ℕ :=
  if 48 ≤ c.toNat ∧ c.toNat ≤ 57 then some (c.toNat - 48)
  else if 65 ≤ c.toNat ∧ c.toNat ≤ 90 then some (c.toNat - 55)
  else if 97 ≤ c.toNat ∧ c.toNat ≤ 122 then some (c.toNat - 87)
  else none

def IsDigit (radix : ℕ) (c : Byte) : Prop := ∃ d < radix, alphanumeric c = some d

inductive Based : ℕ → List Byte → ℕ → List Byte → Prop
  | plain {base : ℕ} (digits : List Byte) : base ≠ 0 → Based base [] base digits
  | hex {base : ℕ} {x : Byte} (digits : List Byte) : base = 0 ∨ base = 16 → x = 120 ∨ x = 88 →
    Based base [48,x] 16 digits
  | octal (digits : List Byte) : Based 0 [48] 8 digits
  | decimal {digits : List Byte} : digits.head? ≠ some 48 → Based 0 [] 10 digits

structure Numeral (base : ℕ) where
  sign : Sign
  pre : List Byte
  radix : ℕ
  digits : List Byte
  based : Based base pre radix digits
  valid : ∀ c ∈ digits, IsDigit radix c

namespace Numeral
variable {base : ℕ}

def chars (n : Numeral base) : List Byte := n.sign.chars ++ (n.pre ++ n.digits)

def magnitude (n : Numeral base) : ℕ :=
  value n.radix (n.digits.map fun c => (alphanumeric c).getD 0)

def signed (n : Numeral base) : ℤ := n.sign.factor * n.magnitude

structure Longest (n : Numeral base) (s : List Byte) : Prop where
  initial : n.chars <+: s
  longest : ∀ m : Numeral base, m.chars <+: s → m.chars.length ≤ n.chars.length

end Numeral

open Numeral

def digitOf (c : Byte) : ℕ := (alphanumeric c).getD 0

section
variable {base radix p : ℕ} {c : Byte} {cs ds rest : List Byte} {val : BitVec 32}

lemma digit_valid (hr : radix ≤ 36) (h : IsDigit radix c) : digit radix c = some (digitOf c) := by
  obtain ⟨d,_,hc⟩ := h
  rw [digitOf,hc,Option.getD_some]
  unfold alphanumeric at hc
  unfold digit
  split_ifs at hc ⊢ <;> cases hc <;> first | rfl | (congr 1; omega)

lemma digit_invalid (hr : radix ≤ 36) (h : ¬ IsDigit radix c) : digit radix c = none := by
  cases hd : digit radix c with
  | none => rfl
  | some d =>
    refine absurd ⟨d,?_,?_⟩ h
    · unfold digit at hd
      split_ifs at hd <;> cases hd <;> omega
    · unfold digit at hd
      unfold alphanumeric
      split_ifs at hd ⊢ <;> cases hd <;> first | rfl | (congr 1; omega)

lemma digitLoop_valid (hr : radix ≤ 36) (h : ∀ c ∈ ds, IsDigit radix c) :
    digitLoop radix (ds ++ rest) p val = digitLoop radix rest (p + ds.length)
      (accumulate (BitVec.ofNat 32 radix) val (ds.map digitOf)) := by
  induction ds generalizing p val with
  | nil => rfl
  | cons c ds ih =>
    obtain ⟨hc,hds⟩ := forall_mem_cons.mp h
    rw [List.cons_append,digitLoop,digit_valid hr hc]
    simp only []
    rw [ih hds,length_cons,add_assoc,add_comm 1]
    rfl

lemma digitLoop_end {q : ℕ} (h : (digitLoop base cs p val).2 = some q) : p ≤ q := by
  induction cs generalizing p val with
  | nil => cases h
  | cons c cs ih =>
    rw [digitLoop] at h
    cases hd : digit base c with
    | none =>
      rw [hd] at h
      cases h
      exact le_rfl
    | some d =>
      rw [hd] at h
      exact (le_succ p).trans (ih h)

lemma Based.radix_le {pre : List Byte} (h : Based base pre radix ds) (hb : base ≤ 36) :
    radix ≤ 36 := by
  cases h with
  | plain => exact hb
  | hex => norm_num
  | octal => norm_num
  | decimal => norm_num

end

namespace Numeral
variable {base : ℕ} {n : Numeral base} {s rest : List Byte} {c x : Byte}

lemma exists_bare (base : ℕ) (sign : Sign) : ∃ m : Numeral base, m.chars = sign.chars := by
  have hn : ∀ radix, ∀ c ∈ ([] : List Byte), IsDigit radix c := fun _ c hc =>
    absurd hc not_mem_nil
  rcases eq_or_ne base 0 with rfl | hb
  · exact ⟨⟨sign,[],10,[],.decimal (by simp),hn 10⟩,append_nil _⟩
  · exact ⟨⟨sign,[],base,[],.plain [] hb,hn base⟩,append_nil _⟩

lemma exists_octal (sign : Sign) : ∃ m : Numeral 0, m.chars = sign.chars ++ [48] :=
  ⟨⟨sign,[48],8,[],.octal [],fun _ hc => absurd hc not_mem_nil⟩,rfl⟩

lemma exists_hex (hx : x = 120 ∨ x = 88) (sign : Sign) :
    ∃ m : Numeral 0, m.chars = sign.chars ++ [48,x] :=
  ⟨⟨sign,[48,x],16,[],.hex [] (.inl rfl) hx,fun _ hc => absurd hc not_mem_nil⟩,rfl⟩

lemma alphanumeric_of_isDigit {radix : ℕ} (h : IsDigit radix c) : alphanumeric c ≠ none := by
  obtain ⟨d,-,hd⟩ := h
  rw [hd]
  exact Option.some_ne_none d

lemma body_alphanumeric (n : Numeral base) (h : n.pre ++ n.digits = c :: rest) :
    alphanumeric c ≠ none := by
  obtain ⟨sign,pre,radix,digits,based,valid⟩ := n
  cases based with
  | plain | decimal =>
    obtain rfl : digits = c :: rest := h
    exact alphanumeric_of_isDigit (valid c mem_cons_self)
  | hex | octal =>
    cases h
    decide

lemma exists_longest (base : ℕ) (s : List Byte) : ∃ n : Numeral base, n.Longest s := by
  classical
  obtain ⟨bare,hb⟩ := exists_bare base .none
  let P : ℕ → Prop := fun k => ∃ m : Numeral base, m.chars <+: s ∧ m.chars.length = k
  have hP : P 0 := ⟨bare,by rw [hb]; exact ⟨s,rfl⟩,by rw [hb]; rfl⟩
  obtain ⟨n,hn,hl⟩ := findGreatest_spec (P := P) (zero_le s.length) hP
  refine ⟨n,hn,fun m hm => ?_⟩
  rw [hl]
  exact le_findGreatest hm.length_le ⟨m,hm,rfl⟩

lemma Longest.shorter (h : n.Longest s) {m : Numeral base} {cs : List Byte} (hm : m.chars = cs)
    (hcs : cs <+: s) : cs.length ≤ n.chars.length := by
  subst hm
  exact h.longest m hcs

-- a valid next character would make the numeral longer, as a digit or, after nothing, as the octal mark
lemma Longest.stops (h : n.Longest s) (hs : s = n.chars ++ c :: rest) : ¬ IsDigit n.radix c := by
  intro hc
  have hn : n.chars ++ [c] <+: s := ⟨rest,by rw [hs,List.append_assoc]; rfl⟩
  have hl : ∀ m : Numeral base, m.chars ≠ n.chars ++ [c] := by
    intro m hm
    have hle := h.shorter hm hn
    rw [length_append,length_singleton] at hle
    omega
  obtain ⟨sign,pre,radix,digits,based,valid⟩ := n
  have hv := forall_mem_append.mpr ⟨valid,forall_mem_singleton.mpr hc⟩
  have ha : ∀ pre, sign.chars ++ (pre ++ (digits ++ [c])) = sign.chars ++ (pre ++ digits) ++ [c] := by
    simp
  cases based with
  | plain _ hb => exact hl ⟨sign,[],base,_,.plain _ hb,hv⟩ (ha _)
  | hex _ hb hx => exact hl ⟨sign,_,16,_,.hex _ hb hx,hv⟩ (ha _)
  | octal => exact hl ⟨sign,_,8,_,.octal _,hv⟩ (ha _)
  | decimal hh =>
    cases digits with
    | cons d ds =>
      exact hl ⟨sign,_,10,d :: ds ++ [c],.decimal hh,hv⟩ (ha _)
    | nil =>
      by_cases hz : c = 48
      · obtain ⟨m,hm⟩ := exists_octal sign
        refine hl m (hm.trans ?_)
        rw [hz]
        simp [chars]
      · exact hl ⟨sign,_,10,_,.decimal (by simpa using hz),hv⟩ (ha _)

end Numeral

lemma mem_drop {nptr : CString} {before after : List Byte} (h : nptr.chars = before ++ after)
    (j : ℕ) : nptr.mem (before.length + j) = (after[j]?).getD 0 := by
  rw [CString.mem,h,getElem?_append_right (Nat.le_add_right _ _),Nat.add_sub_cancel_left]

structure Misread {base : ℕ} (nptr : CString) (n : Numeral base) : Prop where
  base : base = 16
  unmarked : n.pre = []
  second : ∃ c x rest, nptr.chars = n.sign.chars ++ c :: x :: rest ∧ (x = 120 ∨ x = 88)

section
variable {base : ℕ} {nptr : CString} {n : Numeral base} {c : Byte} {rest : List Byte}

lemma unsigned_start (h : n.Longest nptr.chars) (hn : n.sign = .none) (sign : Sign)
    (hs : sign.chars = [c]) (hc : c ≠ 0) (hst : alphanumeric c = none) : nptr.mem 0 ≠ c := by
  intro hme
  obtain ⟨t,ht⟩ : ∃ t, nptr.chars = c :: t := by
    cases hch : nptr.chars with
    | nil =>
      rw [CString.mem,hch] at hme
      exact absurd hme.symm hc
    | cons a t =>
      rw [CString.mem,hch] at hme
      obtain rfl : a = c := hme
      exact ⟨t,rfl⟩
  obtain ⟨m,hm⟩ := exists_bare base sign
  have hl := h.shorter (hm.trans hs) ⟨t,ht.symm⟩
  obtain ⟨rest,hr⟩ := h.initial
  have hbo : n.chars = n.pre ++ n.digits := by
    rw [chars,hn]
    rfl
  cases hb : n.pre ++ n.digits with
  | nil =>
    rw [hbo,hb] at hl
    exact absurd hl (by simp)
  | cons a body =>
    rw [hbo,hb,ht] at hr
    obtain rfl := (List.cons.inj hr).1
    exact n.body_alphanumeric hb hst

lemma skipSign_eq (h : n.Longest nptr.chars) :
    skipSign nptr.mem = (BitVec.ofInt 32 n.sign.factor,n.sign.chars.length) := by
  obtain ⟨rest,hr⟩ := h.initial
  have hme : nptr.mem 0 = ((n.chars ++ rest)[0]?).getD 0 := by
    rw [hr]
    rfl
  rw [chars] at hme
  cases hs : n.sign with
  | plus =>
    rw [hs] at hme
    have hp : nptr.mem 0 = 43 := hme
    rw [skipSign,hp]
    rfl
  | minus =>
    rw [hs] at hme
    have hm : nptr.mem 0 = 45 := hme
    rw [skipSign,hm]
    rfl
  | none =>
    rw [skipSign,if_neg (unsigned_start h hs .plus rfl (by decide) rfl),
      if_neg (unsigned_start h hs .minus rfl (by decide) rfl)]
    rfl

lemma split_chars (h : n.Longest nptr.chars) : ∃ rest, nptr.chars = n.chars ++ rest ∧
    nptr.chars = n.sign.chars ++ (n.pre ++ (n.digits ++ rest)) := by
  obtain ⟨rest,hr⟩ := h.initial
  refine ⟨rest,hr.symm,?_⟩
  rw [← hr,chars,List.append_assoc,List.append_assoc]

lemma exists_second {after : List Byte} {x : Byte} (hx : x ≠ 0) (h : (after[1]?).getD 0 = x) :
    ∃ c rest, after = c :: x :: rest := by
  cases after with
  | nil => exact absurd h.symm hx
  | cons c after =>
    cases after with
    | nil => exact absurd h.symm hx
    | cons d rest =>
      obtain rfl : d = x := h
      exact ⟨c,rest,rfl⟩

lemma mark_ne_zero {x : Byte} (hx : x = 120 ∨ x = 88) : x ≠ 0 := by
  rcases hx with rfl | rfl <;> decide

lemma mark_not_digit {x : Byte} (hx : x = 120 ∨ x = 88) {radix : ℕ} (hr : radix ≤ 16) :
    ¬ IsDigit radix x := by
  rintro ⟨d,_,hx'⟩
  have ht : alphanumeric x = some 33 := by rcases hx with rfl | rfl <;> rfl
  rw [ht] at hx'
  cases hx'
  omega

lemma octal_unmarked {m : Numeral 0} (h : m.Longest nptr.chars) (hp : m.pre = [48])
    (hr : m.radix = 8) :
    ¬ (nptr.mem (m.sign.chars.length + 1) = 120 ∨ nptr.mem (m.sign.chars.length + 1) = 88) := by
  intro hx
  obtain ⟨rest,_,hb⟩ := split_chars h
  have hm := mem_drop hb 1
  generalize hs : nptr.mem (m.sign.chars.length + 1) = x at hx hm
  rw [hp] at hm hb
  cases hd : m.digits with
  | cons d ds =>
    rw [hd] at hm
    obtain rfl : x = d := hm
    have hv := m.valid x (by rw [hd]; exact mem_cons_self)
    exact mark_not_digit hx (by omega) hv
  | nil =>
    rw [hd] at hm hb
    obtain ⟨c,t,ht⟩ := exists_second (mark_ne_zero hx) hm.symm
    rw [ht] at hb
    obtain ⟨hz,ht⟩ := List.cons.inj ht
    obtain ⟨hex,hh⟩ := exists_hex hx m.sign
    have hl := h.shorter hh ⟨t,by rw [hb,← hz,List.append_assoc]; rfl⟩
    rw [chars,hp,hd] at hl
    simp at hl

lemma decimal_start {m : Numeral 0} (h : m.Longest nptr.chars) (hp : m.pre = [])
    (hh : m.digits.head? ≠ some 48) : nptr.mem m.sign.chars.length ≠ 48 := by
  intro hz
  obtain ⟨rest,hs,hb⟩ := split_chars h
  have hm := mem_drop hb 0
  rw [hp,nil_append] at hm hb
  rw [add_zero,hz] at hm
  cases hd : m.digits with
  | cons d ds =>
    rw [hd] at hm hh
    obtain rfl : 48 = d := hm
    exact hh rfl
  | nil =>
    rw [hd] at hm hb
    cases rest with
    | nil => exact absurd hm (by decide)
    | cons d t =>
      obtain rfl : 48 = d := hm
      obtain ⟨octal,ho⟩ := exists_octal m.sign
      have hl := h.shorter ho ⟨t,by rw [hb,List.append_assoc]; rfl⟩
      rw [chars,hp,hd] at hl
      simp at hl

lemma skipBase_eq (h : n.Longest nptr.chars) (hr : ¬ Misread nptr n) :
    skipBase nptr.mem base n.sign.chars.length = (n.radix,n.sign.chars.length + n.pre.length) := by
  obtain ⟨rest,_,hbo⟩ := split_chars h
  have hm := mem_drop hbo
  obtain ⟨sign,pre,radix,digits,based,valid⟩ := n
  cases based with
  | plain _ hb =>
    rw [skipBase,if_neg hb]
    by_cases h16 : base = 16
    · rw [if_pos h16]
      refine if_neg ?_
      rintro ⟨-,hx⟩
      obtain ⟨c,t,ht⟩ := exists_second (mark_ne_zero hx) (hm 1).symm
      exact hr ⟨h16,rfl,c,_,t,hbo.trans (congrArg (sign.chars ++ ·) ht),hx⟩
    · rw [if_neg h16]
      rfl
  | @hex _ x _ hb hx =>
    have hf : nptr.mem sign.chars.length = 48 := hm 0
    have hs : nptr.mem (sign.chars.length + 1) = x := hm 1
    rw [skipBase,hf,hs]
    rcases hb with rfl | rfl
    · rw [if_pos rfl,if_pos rfl,if_pos hx]
      rfl
    · rw [if_neg (by decide),if_pos rfl,if_pos ⟨by decide,hx⟩]
      rfl
  | octal =>
    have hf : nptr.mem sign.chars.length = 48 := hm 0
    rw [skipBase,if_pos rfl,if_pos hf,if_neg (octal_unmarked h rfl rfl)]
    rfl
  | decimal hh =>
    rw [skipBase,if_pos rfl,if_neg (decimal_start h rfl hh)]
    rfl

lemma strtoul_eq (hb : base ≤ 36) (h : n.Longest nptr.chars) (hr : ¬ Misread nptr n)
    (hs : nptr.chars = n.chars ++ rest) {val : BitVec 32} {endptr : Option ℕ}
    (hl : digitLoop n.radix rest n.chars.length (BitVec.ofNat 32 n.magnitude) = (val,endptr)) :
    strtoul nptr base = ((val * BitVec.ofInt 32 n.sign.factor).signExtend 64,endptr) := by
  have hd : nptr.chars.drop (n.sign.chars.length + n.pre.length) = n.digits ++ rest := by
    rw [hs,chars,← List.append_assoc,List.append_assoc,← length_append,drop_left]
  have ha : accumulate (BitVec.ofNat 32 n.radix) 0 (n.digits.map digitOf) =
      BitVec.ofNat 32 n.magnitude := accumulate_value n.radix [] (n.digits.map digitOf)
  have hdi : digitLoop n.radix (n.digits ++ rest) (n.sign.chars.length + n.pre.length) 0 =
      (val,endptr) := by
    rw [digitLoop_valid (n.based.radix_le hb) n.valid,ha,← hl,chars,
      length_append,length_append,add_assoc]
  simp only [strtoul,skipSign_eq h,skipBase_eq h hr,hd,hdi]

lemma strtoul_stored (h : n.Longest nptr.chars) (hre : Misread nptr n) :
    (strtoul nptr base).2 ≠ some n.chars.length := by
  obtain ⟨hba,hp,c,x,t,hch,hx⟩ := hre
  subst hba
  have hr : n.radix = 16 := by
    obtain ⟨_,_,_,_,based,_⟩ := n
    cases based with
    | plain => rfl
    | hex => rfl
  have hm := mem_drop hch
  have hf : nptr.mem n.sign.chars.length = c := hm 0
  have hse : nptr.mem (n.sign.chars.length + 1) = x := hm 1
  have hc : c ≠ 0 := fun hz => nptr.nonzero (by rw [hch,hz]; simp)
  have hsk : skipBase nptr.mem 16 n.sign.chars.length = (16,n.sign.chars.length + 2) := by
    rw [skipBase,if_neg (by decide),if_pos rfl,hf,hse,if_pos ⟨hc,hx⟩]
  have hsh : n.chars.length ≤ n.sign.chars.length + 1 := by
    obtain ⟨rest,-,hb⟩ := split_chars h
    rw [hch,hp,nil_append,append_cancel_left_eq] at hb
    rw [chars,hp,nil_append,length_append]
    refine Nat.add_le_add_left (not_lt.mp fun hl => ?_) _
    have ha : (n.digits ++ rest)[1]? = n.digits[1]? := getElem?_append_left hl
    have hg : n.digits[1]? = some x := by
      rw [← ha,← hb]
      rfl
    exact mark_not_digit hx (Nat.le_of_eq hr) (n.valid x (mem_of_getElem? hg))
  intro hs
  simp only [strtoul,skipSign_eq h,hsk] at hs
  have hle := digitLoop_end hs
  omega

lemma signExtend_ofInt_iff (z y : ℤ) : (BitVec.ofInt 32 y).signExtend 64 = BitVec.ofInt 64 z ↔
      2 ^ 32 ∣ y - z ∧ (BitVec.ofInt 32 z).signExtend 64 = BitVec.ofInt 64 z := by
  have hs : ∀ x, ((BitVec.ofInt 32 x).signExtend 64).toInt = x.bmod (2 ^ 32) := by
    intro x
    rw [toInt_signExtend,toInt_ofInt]
    exact Int.bmod_bmod
  rw [← toInt_inj,← toInt_inj,hs,hs,toInt_ofInt]
  simp only [Int.bmod_def]
  omega

end

structure Converts {base : ℕ} (nptr : CString) (n : Numeral base) : Prop where
  value : n.magnitude < 2 ^ 64 → (strtoul nptr base).1 = BitVec.ofInt 64 n.signed
  stored : (strtoul nptr base).2 = some n.chars.length

theorem strtoul_converts_iff (nptr : CString) (base : ℕ) (hbase : base = 0 ∨ 2 ≤ base ∧ base ≤ 36)
    (n : Numeral base) (h : n.Longest nptr.chars) : Converts nptr n ↔
      n.chars ≠ nptr.chars ∧ ¬ Misread nptr n ∧ (n.magnitude < 2 ^ 64 →
        (2 ^ 32 : ℤ) ∣ n.signed * n.radix - n.signed ∧
          (BitVec.ofInt 32 n.signed).signExtend 64 = BitVec.ofInt 64 n.signed) := by
  have hle : base ≤ 36 := by omega
  by_cases hr : Misread nptr n
  · exact iff_of_false (fun hc => strtoul_stored h hr hc.stored) fun hc => hc.2.1 hr
  obtain ⟨rest,hs,-⟩ := split_chars h
  cases rest with
  | nil =>
    rw [append_nil] at hs
    refine iff_of_false (fun hc => ?_) fun hc => hc.1 hs.symm
    have hst := hc.stored
    rw [strtoul_eq hle h hr (hs.trans (append_nil _).symm) rfl] at hst
    cases hst
  | cons c rest =>
    have hso := digit_invalid (n.based.radix_le hle) (h.stops hs)
    have hca := strtoul_eq hle h hr hs (by rw [digitLoop,hso])
    have hm : BitVec.ofNat 32 n.magnitude * BitVec.ofNat 32 n.radix * BitVec.ofInt 32 n.sign.factor =
        BitVec.ofInt 32 (n.signed * n.radix) := by
      rw [← ofInt_natCast,← ofInt_natCast,← ofInt_mul,← ofInt_mul,Numeral.signed]
      congr 1
      ring
    have hne : n.chars ≠ nptr.chars := by
      rw [hs]
      exact fun heq => absurd (congrArg List.length heq) (by simp)
    rw [hm] at hca
    constructor
    · rintro ⟨hv,-⟩
      refine ⟨hne,hr,fun hsm => (signExtend_ofInt_iff _ _).mp ?_⟩
      rw [← hv hsm,hca]
    · rintro ⟨-,-,hv⟩
      refine ⟨fun hsm => ?_,by rw [hca]⟩
      rw [hca]
      exact (signExtend_ofInt_iff _ _).mpr (hv hsm)

def zeroLetter : CString := ⟨[48,122],by decide⟩

def zeroDigit : Numeral 10 where
  sign := .none
  pre := []
  radix := 10
  digits := [48]
  based := .plain _ (by decide)
  valid := forall_mem_singleton.mpr ⟨0,by decide,rfl⟩

lemma zeroDigit_longest : zeroDigit.Longest zeroLetter.chars := by
  refine ⟨⟨[122],rfl⟩,fun m hm => not_lt.mp fun hl => ?_⟩
  have hc := hm.eq_of_length_le hl
  obtain ⟨sign,pre,radix,digits,based,valid⟩ := m
  cases sign with
  | plus => cases hc
  | minus => cases hc
  | none =>
    cases based with
    | hex _ hb => exact absurd hb (by decide)
    | plain =>
      obtain rfl : digits = [48,122] := hc
      obtain ⟨d,hd,hle⟩ := valid 122 (by simp)
      obtain rfl := Option.some.inj hle
      exact absurd hd (by decide)

theorem strtoul_converts_iff_zero : (10 = 0 ∨ 2 ≤ 10 ∧ 10 ≤ 36) ∧
    zeroDigit.Longest zeroLetter.chars ∧ Converts zeroLetter zeroDigit := by
  refine ⟨by decide,zeroDigit_longest,?_⟩
  refine (strtoul_converts_iff zeroLetter 10 (by decide) zeroDigit zeroDigit_longest).mpr ?_
  exact ⟨by decide,fun h => absurd h.base (by decide),fun _ => ⟨by decide,by decide⟩⟩

def twelve : CString := ⟨[49,50],by decide⟩

def twelveLetter : CString := ⟨[49,50,122],by decide⟩

def twelveDigits : Numeral 10 where
  sign := .none
  pre := []
  radix := 10
  digits := [49,50]
  based := .plain _ (by decide)
  valid := forall_mem_cons.mpr ⟨⟨1,by decide,rfl⟩,forall_mem_singleton.mpr ⟨2,by decide,rfl⟩⟩

theorem strtoul_misconverts : twelveDigits.Longest twelve.chars ∧ twelveDigits.signed = 12 ∧
    strtoul twelve 10 = (12,none) ∧ strtoul twelveLetter 10 = (120,some 2) :=
  ⟨⟨⟨[],rfl⟩,fun _ hm => hm.length_le⟩,by decide,by decide,by decide⟩

end Libc
