import Mathlib.Data.Nat.Basic
import Mathlib.Tactic.Common

namespace Loop
open Option

variable {S R : Type} (body : S → Sum S R)

def iterate : ℕ → S → Option R
  | 0, _ => none
  | n + 1, s =>
    match body s with
    | .inl t => iterate n t
    | .inr r => some r

def Returns (s : S) (r : R) : Prop := ∃ n, iterate body n s = some r

variable {body}

lemma returns_of_exit {s : S} {r : R} (h : body s = .inr r) : Returns body s r :=
  ⟨1,by simp [iterate,h]⟩

lemma returns_exit_iff {s : S} {r q : R} (h : body s = .inr r) : Returns body s q ↔ q = r := by
  constructor
  · rintro ⟨n,hn⟩
    cases n with
    | zero => simp [iterate] at hn
    | succ n => simpa [iterate,h,eq_comm] using hn
  · rintro rfl
    exact returns_of_exit h

lemma returns_step_iff {s t : S} {r : R} (h : body s = .inl t) :
    Returns body s r ↔ Returns body t r := by
  constructor
  · rintro ⟨n,hn⟩
    cases n with
    | zero => simp [iterate] at hn
    | succ n => exact ⟨n,by simpa [iterate,h] using hn⟩
  · rintro ⟨n,hn⟩
    exact ⟨n + 1,by simpa [iterate,h] using hn⟩

lemma diverges_of_fixed {s : S} (h : body s = .inl s) (r : R) : ¬ Returns body s r := by
  rintro ⟨n,hn⟩
  induction n with
  | zero => simp [iterate] at hn
  | succ n ih => exact ih (by simpa [iterate,h] using hn)

lemma returns_unique {s : S} {r q : R} (hr : Returns body s r) (hq : Returns body s q) :
    r = q := by
  obtain ⟨n,hn⟩ := hr
  induction n generalizing s with
  | zero => simp [iterate] at hn
  | succ n ih =>
    cases hb : body s with
    | inl t => exact ih ((returns_step_iff hb).mp hq) (by simpa [iterate,hb] using hn)
    | inr p =>
      have hp : p = r := by simpa [iterate,hb] using hn
      exact hp.symm.trans ((returns_exit_iff hb).mp hq).symm

lemma returns_invariant {P : S → Prop} {Q : R → Prop} (hst : ∀ s t, P s → body s = .inl t → P t)
    (he : ∀ s r, P s → body s = .inr r → Q r) {s : S} {r : R} (hs : P s)
    (h : Returns body s r) : Q r := by
  obtain ⟨n,hn⟩ := h
  induction n generalizing s with
  | zero => cases hn
  | succ n ih =>
    rw [iterate] at hn
    cases hb : body s with
    | inl t =>
      rw [hb] at hn
      exact ih (hst s t hs hb) hn
    | inr q =>
      rw [hb] at hn
      cases hn
      exact he s r hs hb

lemma iterate_mono {s : S} {r : R} {n m : ℕ} (h : iterate body n s = some r) (hle : n ≤ m) :
    iterate body m s = some r := by
  induction n generalizing s m with
  | zero => cases h
  | succ n ih =>
    obtain ⟨m,rfl⟩ := Nat.exists_eq_add_of_le' (Nat.pos_of_ne_zero (by omega : m ≠ 0))
    rw [iterate] at h ⊢
    cases hb : body s with
    | inl t =>
      rw [hb] at h
      exact ih h (by omega)
    | inr p =>
      rw [hb] at h
      exact h

def Yields (f : ℕ → Option R) (r : R) : Prop := ∀ q, (∃ n, f n = some q) ↔ q = r

variable {f : ℕ → Option R} {r q : R} {n : ℕ}

lemma Yields.returns (h : Yields f r) : ∃ n, f n = some r := (h r).mpr rfl

lemma Yields.eq (h : Yields f r) (hn : f n = some q) : q = r := (h q).mp ⟨n,hn⟩

lemma yields_of_returns {s : S} (h : Returns body s r) : Yields (fun n => iterate body n s) r := by
  intro q
  constructor
  · intro hq
    exact returns_unique hq h
  · rintro rfl
    exact h

lemma yields_const (r : R) : Yields (fun _ => some r) r := by
  intro q
  simp [eq_comm]

lemma Yields.map {Q : Type} (h : Yields f r) (g : R → Q) : Yields (fun n => (f n).map g) (g r) := by
  intro q
  constructor
  · rintro ⟨n,hn⟩
    obtain ⟨p,hp,rfl⟩ := map_eq_some_iff.mp hn
    rw [h.eq hp]
  · rintro rfl
    obtain ⟨n,hn⟩ := h.returns
    exact ⟨n,map_eq_some_iff.mpr ⟨r,hn,rfl⟩⟩

lemma Yields.next {Q : Type} {g : ℕ → Option Q} {q : Q} (h : Yields f r)
    (hno : ∀ n, f n = none → g n = none) (hs : ∀ n, f n = some r → g n = some q) : Yields g q := by
  intro p
  constructor
  · rintro ⟨n,hn⟩
    cases hf : f n with
    | none =>
      rw [hno n hf] at hn
      cases hn
    | some r' =>
      rw [h.eq hf] at hf
      exact Option.some.inj (hn.symm.trans (hs n hf))
  · rintro rfl
    obtain ⟨n,hn⟩ := h.returns
    exact ⟨n,hs n hn⟩

def Steady (f : ℕ → Option R) : Prop := ∀ n m q, f n = some q → n ≤ m → f m = some q

lemma steady_iterate (body : S → Sum S R) (s : S) : Steady fun n => iterate body n s :=
  fun _ _ _ h hle => iterate_mono h hle

lemma steady_const (r : Option R) : Steady fun _ => r := fun _ _ _ h _ => h

lemma Steady.map {Q : Type} (h : Steady f) (g : R → Q) : Steady fun n => (f n).map g := by
  intro n m q hn hle
  obtain ⟨p,hp,rfl⟩ := map_eq_some_iff.mp hn
  exact map_eq_some_iff.mpr ⟨p,h n m p hp hle,rfl⟩

lemma Yields.bind {Q : Type} {g : R → ℕ → Option Q} {q : Q} (hf : Yields f r) (hg : Yields (g r) q)
    (hfs : Steady f) (hgs : Steady (g r)) : Yields (fun n => (f n).bind fun r => g r n) q := by
  intro p
  constructor
  · rintro ⟨n,hn⟩
    obtain ⟨r',hr,hp⟩ := bind_eq_some_iff.mp hn
    obtain rfl := hf.eq hr
    exact hg.eq hp
  · rintro rfl
    obtain ⟨n,hn⟩ := hf.returns
    obtain ⟨k,hk⟩ := hg.returns
    refine ⟨max n k,bind_eq_some_iff.mpr ⟨r,?_,?_⟩⟩
    · exact hfs n _ r hn (le_max_left n k)
    · exact hgs k _ p hk (le_max_right n k)

def stride (found : ℕ → Bool) (stop step : ℕ) : ℕ → ℕ → Option ℕ
  | 0, _ => none
  | n + 1, i => if i < stop then if found i then some i else stride found stop step n (i + step) else none

variable {found : ℕ → Bool} {stop step i j : ℕ}

lemma stride_some : ∀ {n i : ℕ}, stride found stop step n i = some j →
    found j = true ∧ j < stop ∧ ∃ k, j = i + k * step := by
  intro n
  induction n with
  | zero => exact nofun
  | succ n ih =>
    intro i h
    rw [stride] at h
    split_ifs at h with hi hf
    · cases h
      exact ⟨hf,hi,0,by omega⟩
    · obtain ⟨hj,hs,k,rfl⟩ := ih h
      exact ⟨hj,hs,k + 1,by rw [Nat.add_mul]; omega⟩

lemma stride_none (hs : 0 < step) : ∀ {n i : ℕ}, stop ≤ i + n →
    stride found stop step n i = none → ∀ k, i + k * step < stop → found (i + k * step) = false := by
  intro n
  induction n with
  | zero =>
    intro i hn _ k hk
    have hle := Nat.le_add_right i (k * step)
    omega
  | succ n ih =>
    intro i _ h k hk
    rw [stride] at h
    have hi := Nat.lt_of_le_of_lt (Nat.le_add_right i (k * step)) hk
    rw [if_pos hi] at h
    cases hf : found i with
    | true => simp [hf] at h
    | false =>
      simp only [hf,Bool.false_eq_true,if_false] at h
      cases k with
      | zero => simpa using hf
      | succ k =>
        rw [Nat.add_mul,Nat.one_mul,Nat.add_comm (k * step),← Nat.add_assoc] at hk ⊢
        exact ih (by omega) h k hk

end Loop
