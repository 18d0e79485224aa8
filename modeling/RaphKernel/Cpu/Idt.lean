import RaphKernel.Library.Loop
import RaphKernel.Raph

namespace Interrupt
open Raph Loop Function List

inductive EoiType where
  | kNone
  | kLapic
  | kIoapic
  deriving DecidableEq, Repr

structure IntCallback (F A : Type) where
  callback : Option F
  arg : A
  eoi : EoiType

structure Idt (F A : Type) where
  callback : ℕ → ℕ → IntCallback F A
  isGenInitialized : Bool

def kError : ℕ := 63

variable {F A : Type}

namespace Idt

def isFree (s : Idt F A) (cpu vector : ℕ) : Bool := (s.callback cpu vector).callback.isNone

def set (s : Idt F A) (cpu vector : ℕ) (entry : IntCallback F A) : Idt F A :=
  {s with callback :=
    update s.callback cpu (update (s.callback cpu) vector entry)}

def setIntCallback (s : Idt F A) (cpu : ℕ) (callback : Option F) (arg : A) (eoi : EoiType) :
    Except Panic (ℕ × Idt F A) := do
  kassert s.isGenInitialized
  match stride (s.isFree cpu) 256 1 256 64 with
  | some vector => return (vector,s.set cpu vector ⟨callback,arg,eoi⟩)
  | none => return (kError,s)

def doubling (range r : BitVec 32) : Sum (BitVec 32) (BitVec 32) :=
  if r.slt range then .inl (r * 2) else .inr r

def blockFree (s : Idt F A) (cpu n vector : ℕ) : Bool :=
  (List.range n).all fun i => s.isFree cpu (vector + i)

def fill (s : Idt F A) (cpu vector : ℕ) (entry : ℕ → IntCallback F A) (n : ℕ) : Idt F A :=
  (List.range n).foldl (fun s i => s.set cpu (vector + i) (entry i)) s

def setIntCallbackBlock (s : Idt F A) (cpu : ℕ) (callback : ℕ → Option F) (arg : ℕ → A) (n : ℕ)
    (eoi : EoiType) : ℕ × Idt F A :=
  match stride (s.blockFree cpu n) 256 n 256 (if n > 64 then n else 64) with
  | some vector => (vector,s.fill cpu vector (fun i => ⟨callback i,arg i,eoi⟩) n)
  | none => (kError,s)

def setIntCallbackRange (s : Idt F A) (fuel cpu : ℕ) (callback : ℕ → Option F) (arg : ℕ → A)
    (range : BitVec 32) (eoi : EoiType) : Option (Except Panic (ℕ × Idt F A)) :=
  if s.isGenInitialized then
    (iterate (doubling range) fuel 1).map fun r =>
      if range ≠ r then .ok (kError,s)
      else .ok (s.setIntCallbackBlock cpu callback arg range.toNat eoi)
  else some (.error .kassert)

end Idt

open Idt

section
variable {range : BitVec 32} {k : ℕ}

def power (k : ℕ) : BitVec 32 := BitVec.ofNat 32 (2 ^ k)

lemma power_succ (k : ℕ) : power k * 2 = power (k + 1) := by
  rw [power,power,Nat.pow_succ,BitVec.ofNat_mul]
  rfl

lemma two_pow_le (hk : k ≤ 30) : 2 ^ k ≤ 1073741824 :=
  le_trans (Nat.pow_le_pow_right (by decide) hk) (by decide)

lemma power_toNat (hk : k ≤ 30) : (power k).toNat = 2 ^ k := by
  have hle := two_pow_le hk
  rw [power,BitVec.toNat_ofNat]
  exact Nat.mod_eq_of_lt (hle.trans_lt (by decide))

lemma power_toInt (hk : k ≤ 30) : (power k).toInt = (2 ^ k : ℕ) := by
  have hle := two_pow_le hk
  rw [BitVec.toInt_eq_toNat_cond,power_toNat hk,if_pos (by omega)]

lemma doubling_step (h : (power k).toInt < range.toInt) :
    doubling range (power k) = .inl (power (k + 1)) := by
  rw [doubling,if_pos (BitVec.slt_iff_toInt_lt.mpr h),power_succ]

lemma doubling_exit (h : range.toInt ≤ (power k).toInt) :
    doubling range (power k) = .inr (power k) := by
  rw [doubling,if_neg]
  rw [BitVec.slt_iff_toInt_lt]
  omega

lemma doubling_returns (hr : range.toInt ≤ 2 ^ 30) : ∀ d k, k + d = 30 →
    (k = 0 ∨ (2 ^ (k - 1) : ℕ) < range.toInt) →
    ∃ j ≤ 30, Returns (doubling range) (power k) (power j) ∧ range.toInt ≤ (2 ^ j : ℕ) ∧
      (j = 0 ∨ (2 ^ (j - 1) : ℕ) < range.toInt) := by
  intro d
  induction d with
  | zero =>
    rintro k rfl hm
    refine ⟨30,le_refl _,returns_of_exit (doubling_exit ?_),by omega,hm⟩
    rw [power_toInt (le_refl 30)]
    omega
  | succ d ih =>
    intro k _ hm
    by_cases hlt : (2 ^ k : ℕ) < range.toInt
    · obtain ⟨j,hj,hre,hb⟩ := ih (k + 1) (by omega) (.inr hlt)
      have hs : doubling range (power k) = .inl (power (k + 1)) :=
        doubling_step (by rwa [power_toInt (by omega : k ≤ 30)])
      exact ⟨j,hj,(returns_step_iff hs).mpr hre,hb⟩
    · have hle : range.toInt ≤ (2 ^ k : ℕ) := by omega
      have he : doubling range (power k) = .inr (power k) :=
        doubling_exit (by rwa [power_toInt (by omega : k ≤ 30)])
      exact ⟨k,by omega,returns_of_exit he,hle,hm⟩

lemma doubling_diverges (hr : 2 ^ 30 < range.toInt) : ∀ d k, k + d = 32 → ∀ r,
    ¬ Returns (doubling range) (power k) r := by
  intro d
  induction d with
  | zero =>
    rintro k rfl r
    apply diverges_of_fixed
    rw [doubling,if_pos]
    · rfl
    · rw [BitVec.slt_iff_toInt_lt]
      exact lt_trans (by decide) hr
  | succ d ih =>
    intro k _ r hre
    have hlt : (power k).toInt < range.toInt := by
      by_cases h31 : k = 31
      · exact lt_trans (h31 ▸ by decide) hr
      · have hle := two_pow_le (by omega : k ≤ 30)
        rw [power_toInt (by omega : k ≤ 30)]
        omega
    exact ih _ (by omega) r ((returns_step_iff (doubling_step hlt)).mp hre)

def IsPow (range : BitVec 32) : Prop := ∃ k : ℕ, range.toInt = 2 ^ k

lemma rounded_eq_iff {j : ℕ} (hj : j ≤ 30) (hle : range.toInt ≤ (2 ^ j : ℕ))
    (hm : j = 0 ∨ (2 ^ (j - 1) : ℕ) < range.toInt) : range = power j ↔ IsPow range := by
  constructor
  · intro h
    exact ⟨j,by rw [h,power_toInt hj]; push_cast; rfl⟩
  · rintro ⟨k,hk⟩
    have hkn : range.toInt = (2 ^ k : ℕ) := by rw [hk]; push_cast; rfl
    have hkj : k = j := by
      rw [hkn] at hle hm
      have h1 : k ≤ j := (Nat.pow_le_pow_iff_right (by decide : 1 < 2)).mp (by exact_mod_cast hle)
      rcases hm with rfl | hm
      · omega
      · have h2 : j - 1 < k := (Nat.pow_lt_pow_iff_right (by decide : 1 < 2)).mp (by exact_mod_cast hm)
        omega
    apply BitVec.eq_of_toInt_eq
    rw [hkn,power_toInt hj,hkj]

end

section
variable {s : Idt F A} {cpu cpu' n v w : ℕ} {entry : ℕ → IntCallback F A}

structure Fits (s : Idt F A) (cpu n v : ℕ) : Prop where
  low : 64 ≤ v
  high : v + n ≤ 256
  aligned : n ∣ v
  free : ∀ i < n, s.isFree cpu (v + i) = true

lemma blockFree_iff : s.blockFree cpu n v = true ↔ ∀ i < n, s.isFree cpu (v + i) = true := by
  simp [blockFree]

lemma set_same (e : IntCallback F A) : (s.set cpu v e).callback cpu v = e := by
  simp [Idt.set]

lemma set_other (e : IntCallback F A) (h : cpu' ≠ cpu ∨ w ≠ v) :
    (s.set cpu v e).callback cpu' w = s.callback cpu' w := by
  by_cases hc : cpu' = cpu
  · subst hc
    have hw := h.resolve_left (fun hne => hne rfl)
    simp [Idt.set,update_of_ne hw]
  · simp [Idt.set,update_of_ne hc]

lemma fill_succ : s.fill cpu v entry (n + 1) = (s.fill cpu v entry n).set cpu (v + n) (entry n) := by
  simp [fill,range_succ]

lemma fill_outside : ∀ {n : ℕ}, (cpu' ≠ cpu ∨ w < v ∨ v + n ≤ w) →
    (s.fill cpu v entry n).callback cpu' w = s.callback cpu' w := by
  intro n
  induction n with
  | zero => exact fun _ => rfl
  | succ n ih =>
    intro h
    rw [fill_succ,set_other _ (by omega),ih (by omega)]

lemma fill_inside {i : ℕ} : ∀ {n : ℕ}, i < n →
    (s.fill cpu v entry n).callback cpu (v + i) = entry i := by
  intro n
  induction n with
  | zero => exact fun h => absurd h (Nat.not_lt_zero i)
  | succ n ih =>
    intro h
    rw [fill_succ]
    by_cases hi : i = n
    · rw [hi,set_same]
    · rw [set_other _ (by omega),ih (by omega)]

lemma fill_initialized : ∀ {n : ℕ},
    (s.fill cpu v entry n).isGenInitialized = s.isGenInitialized := by
  intro n
  induction n with
  | zero => rfl
  | succ n ih => rw [fill_succ]; exact ih

lemma first_dvd (k : ℕ) : 2 ^ k ∣ if 2 ^ k > 64 then 2 ^ k else 64 := by
  split_ifs with hl
  · exact Nat.dvd_refl _
  · have hk : 2 ^ k ≤ 2 ^ 6 := by omega
    exact Nat.pow_dvd_pow 2 ((Nat.pow_le_pow_iff_right (by decide)).mp hk)

lemma search_fits {k : ℕ} (h : stride (s.blockFree cpu (2 ^ k)) 256 (2 ^ k) 256
    (if 2 ^ k > 64 then 2 ^ k else 64) = some v) : Fits s cpu (2 ^ k) v := by
  obtain ⟨hf,hlt,i,hv⟩ := stride_some h
  have hl : 64 ≤ v ∧ 2 ^ k ≤ v := by
    split_ifs at hv <;> omega
  have hd : 2 ^ k ∣ v := by
    rw [hv]
    exact Nat.dvd_add (first_dvd k) (Nat.dvd_mul_left _ _)
  have hk : k ≤ 8 := by
    have hp : 2 ^ k < 2 ^ 8 := by omega
    exact ((Nat.pow_lt_pow_iff_right (by decide)).mp hp).le
  have hd' : 2 ^ k ∣ 256 := Nat.pow_dvd_pow 2 hk (n := 8)
  refine ⟨hl.1,?_,hd,blockFree_iff.mp hf⟩
  obtain ⟨x,rfl⟩ := hd
  obtain ⟨y,hy⟩ := hd'
  rw [hy] at hlt ⊢
  have hxy := Nat.lt_of_mul_lt_mul_left hlt
  calc 2 ^ k * x + 2 ^ k = 2 ^ k * (x + 1) := by ring
    _ ≤ 2 ^ k * y := Nat.mul_le_mul_left _ hxy

lemma search_none {k : ℕ} (h : stride (s.blockFree cpu (2 ^ k)) 256 (2 ^ k) 256
    (if 2 ^ k > 64 then 2 ^ k else 64) = none) (w : ℕ) : ¬ Fits s cpu (2 ^ k) w := by
  intro hf
  have hp := Nat.two_pow_pos k
  have hl := hf.low
  have hh := hf.high
  have hs : (if 2 ^ k > 64 then 2 ^ k else 64) ≤ w := by
    split_ifs
    · exact Nat.le_of_dvd (by omega) hf.aligned
    · exact hf.low
  obtain ⟨x,_⟩ := (Nat.dvd_sub hf.aligned (first_dvd k))
  have hw : w = (if 2 ^ k > 64 then 2 ^ k else 64) + x * 2 ^ k := by
    rw [Nat.mul_comm x]
    omega
  have hb := stride_none hp (by omega) h x (by omega)
  rw [← hw,blockFree_iff.mpr hf.free] at hb
  cases hb

end

inductive Call (F A : Type) where
  | one (cpu : ℕ) (callback : F) (arg : A) (eoi : EoiType)
  | many (cpu : ℕ) (callback : ℕ → F) (arg : ℕ → A) (range : BitVec 32) (eoi : EoiType)

namespace Call

def cpu : Call F A → ℕ
  | one cpu _ _ _ => cpu
  | many cpu _ _ _ _ => cpu

def range : Call F A → BitVec 32
  | one _ _ _ _ => 1
  | many _ _ _ range _ => range

def size (c : Call F A) : ℕ := c.range.toNat

def entry : Call F A → ℕ → IntCallback F A
  | one _ callback arg eoi, _ => ⟨some callback,arg,eoi⟩
  | many _ callback arg _ eoi, i => ⟨some (callback i),arg i,eoi⟩

def Answers (c : Call F A) (s : Idt F A) (v : ℕ) (s' : Idt F A) : Prop :=
  match c with
  | one cpu callback arg eoi => s.setIntCallback cpu (some callback) arg eoi = .ok (v,s')
  | many cpu callback arg range eoi =>
    ∃ fuel, s.setIntCallbackRange fuel cpu (fun i => some (callback i)) arg range eoi =
      some (.ok (v,s'))

structure Served (c : Call F A) (s : Idt F A) (v : ℕ) (s' : Idt F A) : Prop where
  error_iff : v = kError ↔ ¬ IsPow c.range ∨ ∀ w, ¬ Fits s c.cpu c.size w
  unchanged : v = kError → s' = s
  fits : v ≠ kError → Fits s c.cpu c.size v
  stored : v ≠ kError → ∀ i < c.size, s'.callback c.cpu (v + i) = c.entry i
  frame : v ≠ kError → ∀ cpu w, cpu ≠ c.cpu ∨ w < v ∨ v + c.size ≤ w →
    s'.callback cpu w = s.callback cpu w

def answer (c : Call F A) (s : Idt F A) : ℕ × Idt F A :=
  match stride (s.blockFree c.cpu c.size) 256 c.size 256 (if c.size > 64 then c.size else 64) with
  | some vector => (vector,s.fill c.cpu vector c.entry c.size)
  | none => (kError,s)

end Call

open Call

section
variable {c : Call F A} {s s' : Idt F A} {v : ℕ}

lemma answer_served {k : ℕ} (hs : c.size = 2 ^ k) (hp : IsPow c.range) :
    c.Served s (c.answer s).1 (c.answer s).2 := by
  unfold answer
  rw [hs]
  cases hfi : stride _ 256 _ 256
      (if 2 ^ k > 64 then 2 ^ k else 64) with
  | none =>
    refine ⟨?_,fun _ => rfl,absurd rfl,absurd rfl,
      absurd rfl⟩
    rw [hs]
    exact iff_of_true rfl (.inr (search_none hfi))
  | some w =>
    have hf := search_fits hfi
    have hne : w ≠ kError := fun heq => absurd hf.low (heq ▸ by decide)
    refine ⟨?_,fun heq => absurd heq hne,fun _ => hs ▸ hf,fun _ i hi => ?_, fun _ cpu w' ho => ?_⟩
    · rw [hs]
      exact iff_of_false hne (fun h => h.elim (fun hn => hn hp) (fun ha => ha w hf))
    · exact fill_inside (hs ▸ hi)
    · exact fill_outside (hs ▸ ho)

lemma error_served (hp : ¬ IsPow c.range) : c.Served s kError s :=
  ⟨iff_of_true rfl (.inl hp),fun _ => rfl,absurd rfl,absurd rfl,
    absurd rfl⟩

lemma answers_one {cpu : ℕ} {callback : F} {arg : A} {eoi : EoiType}
    (hs : s.isGenInitialized = true) : (one cpu callback arg eoi).Answers s v s' ↔
    (v,s') = (one cpu callback arg eoi).answer s := by
  have hb : s.blockFree cpu 1 = s.isFree cpu := by
    funext w
    simp [blockFree]
  have hsi : (one cpu callback arg eoi).size = 1 := rfl
  unfold Call.Answers answer setIntCallback
  simp only [hsi,hs,kassert]
  change _ ↔ _ = match stride (s.blockFree cpu 1) 256 1 256 64 with | some _ => _ | none => _
  rw [hb]
  cases stride _ 256 1 256 64 with
  | none => simp [bind,Except.bind,pure,Except.pure,eq_comm]
  | some w =>
    simp [bind,Except.bind,pure,Except.pure,eq_comm,fill,Call.entry,Call.cpu]

lemma answers_many {cpu : ℕ} {callback : ℕ → F} {arg : ℕ → A} {range : BitVec 32} {eoi : EoiType}
    (hs : s.isGenInitialized = true) : (many cpu callback arg range eoi).Answers s v s' ↔
    ∃ r, Returns (doubling range) 1 r ∧ (v,s') =
      if range = r then (many cpu callback arg range eoi).answer s else (kError,s) := by
  unfold Call.Answers setIntCallbackRange Returns
  simp only [hs,if_true,Option.map_eq_some_iff]
  constructor
  · rintro ⟨fuel,r,hr,hre⟩
    refine ⟨r,⟨fuel,hr⟩,?_⟩
    by_cases heq : range = r
    · rw [if_pos heq]
      rw [if_neg (fun hne => hne heq)] at hre
      exact (Except.ok.inj hre).symm
    · rw [if_neg heq]
      rw [if_pos heq] at hre
      exact (Except.ok.inj hre).symm
  · rintro ⟨r,⟨fuel,hr⟩,hre⟩
    refine ⟨fuel,r,hr,?_⟩
    by_cases heq : range = r
    · rw [if_pos heq] at hre
      rw [if_neg (fun hne => hne heq),hre]
      rfl
    · rw [if_neg heq] at hre
      rw [if_pos heq,hre]

lemma answers_range (h : c.Answers s v s') (hs : s.isGenInitialized = true) :
    c.range.toInt ≤ 2 ^ 30 := by
  cases c with
  | one cpu callback arg eoi => exact (by decide : (1 : BitVec 32).toInt ≤ 2 ^ 30)
  | many cpu callback arg range eoi =>
    obtain ⟨r,hr,_⟩ := (answers_many hs).mp h
    by_contra hlarge
    exact doubling_diverges (by simpa [Call.range] using hlarge) 32 0 rfl r hr

lemma answers_exists (hs : s.isGenInitialized = true) (hc : c.range.toInt ≤ 2 ^ 30) :
    ∃ v s', c.Answers s v s' := by
  cases c with
  | one cpu callback arg eoi => exact ⟨_,_,(answers_one hs).mpr rfl⟩
  | many cpu callback arg range eoi =>
    obtain ⟨j,_,hr,_⟩ := doubling_returns hc 30 0 rfl (.inl rfl)
    exact ⟨_,_,(answers_many hs).mpr ⟨power j,hr,rfl⟩⟩

lemma answers_served (hs : s.isGenInitialized = true) (h : c.Answers s v s') :
    c.Served s v s' := by
  have hc := answers_range h hs
  cases c with
  | one cpu callback arg eoi =>
    have hrt := (answers_one hs).mp h
    have hse := answer_served (c := one cpu callback arg eoi) (s := s) (k := 0) rfl ⟨0,rfl⟩
    rwa [← hrt] at hse
  | many cpu callback arg range eoi =>
    obtain ⟨j,hj,hre,hle,hm⟩ := doubling_returns hc 30 0 rfl (.inl rfl)
    obtain ⟨r,hr,hrt⟩ := (answers_many hs).mp h
    have hrj := returns_unique hr hre
    subst hrj
    have hif := rounded_eq_iff hj hle hm
    by_cases heq : range = power j
    · rw [if_pos heq] at hrt
      have hsi : (many cpu callback arg range eoi).size = 2 ^ j := by
        rw [size,Call.range,heq,power_toNat hj]
      have hse := answer_served (s := s) hsi (hif.mp heq)
      rwa [← hrt] at hse
    · rw [if_neg heq] at hrt
      obtain ⟨rfl,rfl⟩ := Prod.mk.inj hrt
      exact error_served (fun hp => heq (hif.mpr hp))

lemma answer_initialized : (c.answer s).2.isGenInitialized = s.isGenInitialized := by
  unfold answer
  split
  · exact fill_initialized
  · rfl

lemma answers_initialized (hs : s.isGenInitialized = true) (h : c.Answers s v s') :
    s'.isGenInitialized = true := by
  have hk := hs ▸ answer_initialized (c := c) (s := s)
  cases c with
  | one cpu callback arg eoi => rwa [← (answers_one hs).mp h] at hk
  | many cpu callback arg range eoi =>
    obtain ⟨r,_,hr⟩ := (answers_many hs).mp h
    split_ifs at hr
    · rwa [← hr] at hk
    · obtain ⟨_,rfl⟩ := Prod.mk.inj hr
      exact hs

lemma Call.Served.busy {cpu w : ℕ} (h : c.Served s v s') (hw : s.isFree cpu w = false) :
    s'.callback cpu w = s.callback cpu w := by
  by_cases hv : v = kError
  · rw [h.unchanged hv]
  · apply h.frame hv
    by_contra hin
    push Not at hin
    obtain ⟨rfl,hl,_⟩ := hin
    have hf := (h.fits hv).free (w - v) (by omega)
    rw [Nat.add_sub_cancel' hl,hw] at hf
    cases hf

end

structure Event (F A : Type) where
  call : Call F A
  before : Idt F A
  vector : ℕ
  after : Idt F A

def Event.Gives (e : Event F A) (cpu w : ℕ) : Prop :=
  e.vector ≠ kError ∧ cpu = e.call.cpu ∧ e.vector ≤ w ∧ w < e.vector + e.call.size

inductive Run : Idt F A → List (Event F A) → Idt F A → Prop
  | nil (s : Idt F A) : Run s [] s
  | cons {c : Call F A} {s s' t : Idt F A} {v : ℕ} {es : List (Event F A)} :
    c.Answers s v s' → Run s' es t → Run s (⟨c,s,v,s'⟩ :: es) t

structure Consistent (es : List (Event F A)) (s : Idt F A) : Prop where
  served : ∀ e ∈ es, e.call.Served e.before e.vector e.after
  once : es.Pairwise fun e e' => ∀ cpu w, ¬ (e.Gives cpu w ∧ e'.Gives cpu w)
  kept : ∀ e ∈ es, e.vector ≠ kError → ∀ i < e.call.size,
    s.callback e.call.cpu (e.vector + i) = e.call.entry i

section
variable {s t : Idt F A} {es : List (Event F A)} {cpu w : ℕ}

lemma entry_busy (c : Call F A) (i : ℕ) : (c.entry i).callback.isNone = false := by
  cases c <;> rfl

lemma served_gives_busy {c : Call F A} {s' : Idt F A} {v : ℕ} (h : c.Served s v s')
    (hg : Event.Gives ⟨c,s,v,s'⟩ cpu w) : s'.isFree cpu w = false := by
  obtain ⟨hv,rfl,hl,hh⟩ := hg
  have hs := h.stored hv (w - v) (Nat.sub_lt_left_of_lt_add hl hh)
  rw [Nat.add_sub_cancel' hl] at hs
  rw [isFree,hs,entry_busy]

lemma served_gives_free {e : Event F A} (h : e.call.Served e.before e.vector e.after)
    (hg : e.Gives cpu w) : e.before.isFree cpu w = true := by
  obtain ⟨hv,rfl,hl,hh⟩ := hg
  have hf := (h.fits hv).free (w - e.vector) (Nat.sub_lt_left_of_lt_add hl hh)
  rwa [Nat.add_sub_cancel' hl] at hf

lemma run_busy (h : Run s es t) (hs : s.isGenInitialized = true) (hw : s.isFree cpu w = false) :
    t.callback cpu w = s.callback cpu w ∧ ∀ e ∈ es, ¬ e.Gives cpu w := by
  induction h with
  | nil s => exact ⟨rfl,fun e he => absurd he not_mem_nil⟩
  | @cons c s s' t v es hc _ ih =>
    have hse := answers_served hs hc
    have hsa := hse.busy hw
    obtain ⟨hk,hr⟩ := ih (answers_initialized hs hc) (by rw [isFree,hsa]; exact hw)
    refine ⟨hk.trans hsa,fun e he hg => ?_⟩
    rcases mem_cons.mp he with rfl | he
    · have hf := served_gives_free hse hg
      rw [hw] at hf
      cases hf
    · exact hr e he hg

lemma run_consistent (h : Run s es t) (hs : s.isGenInitialized = true) : Consistent es t := by
  induction h with
  | nil s => exact ⟨fun e he => absurd he not_mem_nil,.nil,fun e he => absurd he not_mem_nil⟩
  | @cons c s s' t v es hc hru ih =>
    have hs' := answers_initialized hs hc
    have hse := answers_served hs hc
    have hr := ih hs'
    refine ⟨fun e he => ?_,.cons (fun e he cpu w hb => ?_) hr.once,fun e he hv i hi => ?_⟩
    · rcases mem_cons.mp he with rfl | he
      · exact hse
      · exact hr.served e he
    · exact (run_busy hru hs' (served_gives_busy hse hb.1)).2 e he hb.2
    · rcases mem_cons.mp he with rfl | he
      · have hbu := served_gives_busy hse ⟨hv,rfl,Nat.le_add_right v i,Nat.add_lt_add_left hi v⟩
        rw [(run_busy hru hs' hbu).1]
        exact hse.stored hv i hi
      · exact hr.kept e he hv i hi

lemma run_exists : ∀ {cs : List (Call F A)} {s : Idt F A}, s.isGenInitialized = true →
    (∀ c ∈ cs, c.range.toInt ≤ 2 ^ 30) → ∃ es t, Run s es t ∧ es.map Event.call = cs := by
  intro cs
  induction cs with
  | nil => exact fun {s} _ _ => ⟨[],s,.nil s,rfl⟩
  | cons c cs ih =>
    intro s hs ha
    obtain ⟨v,s',hc⟩ := answers_exists hs (ha c mem_cons_self)
    obtain ⟨es,t,hr,hca⟩ := ih (answers_initialized hs hc)
      (fun c' hc' => ha c' (mem_cons_of_mem c hc'))
    exact ⟨⟨c,s,v,s'⟩ :: es,t,.cons hc hr,by rw [map_cons,hca]⟩

lemma run_range (h : Run s es t) (hs : s.isGenInitialized = true) :
    ∀ e ∈ es, e.call.range.toInt ≤ 2 ^ 30 := by
  induction h with
  | nil s => exact fun e he => absurd he not_mem_nil
  | @cons c s s' t v es hc _ ih =>
    intro e he
    rcases mem_cons.mp he with rfl | he
    · exact answers_range hc hs
    · exact ih (answers_initialized hs hc) e he

theorem setIntCallback_runs (hs : s.isGenInitialized = true) (cs : List (Call F A)) :
    ((∃ es t, Run s es t ∧ es.map Event.call = cs) ∧
      ∀ es t, Run s es t → es.map Event.call = cs → Consistent es t) ↔
    ∀ c ∈ cs, c.range.toInt ≤ 2 ^ 30 := by
  constructor
  · rintro ⟨⟨es,t,hr,rfl⟩,_⟩ c hc
    obtain ⟨e,he,rfl⟩ := List.mem_map.mp hc
    exact run_range hr hs e he
  · intro ha
    exact ⟨run_exists hs ha,fun es t hr _ => run_consistent hr hs⟩

end

def generic : Idt ℕ ℕ := ⟨fun _ _ => ⟨none,0,.kNone⟩,true⟩

theorem setIntCallback_runs_generic :
    ((∃ es t, Run generic es t ∧ es.map Event.call = [.one 0 5 6 .kLapic,.many 0 id id 4 .kIoapic]) ∧
      ∀ es t, Run generic es t → es.map Event.call = [.one 0 5 6 .kLapic,.many 0 id id 4 .kIoapic] →
        Consistent es t) ↔
    ∀ c ∈ ([.one 0 5 6 .kLapic,.many 0 id id 4 .kIoapic] : List (Call ℕ ℕ)),
      c.range.toInt ≤ 2 ^ 30 :=
  setIntCallback_runs rfl _

theorem range_hangs : ¬ IsPow 0x40000001 ∧ ∀ fuel,
    generic.setIntCallbackRange fuel 0 (fun _ => some 5) id 0x40000001 .kLapic = none := by
  constructor
  · rintro ⟨k,hk⟩
    have hin : (0x40000001 : BitVec 32).toInt = ((2 ^ 30 + 1 : ℕ) : ℤ) := by decide
    rw [hin] at hk
    have hn : 2 ^ 30 + 1 = 2 ^ k := by exact_mod_cast hk
    have hl : 30 < k := (Nat.pow_lt_pow_iff_right (by decide : 1 < 2)).mp (by omega)
    have hh : k < 31 := (Nat.pow_lt_pow_iff_right (by decide : 1 < 2)).mp (by omega)
    omega
  · intro fuel
    unfold Idt.setIntCallbackRange
    cases hr : iterate (Idt.doubling 0x40000001) fuel 1 with
    | none => rfl
    | some r => exact absurd ⟨fuel,hr⟩ (doubling_diverges (by decide) 32 0 rfl r)

end Interrupt
