import Mathlib.Data.Set.Card

namespace Counting
open Function BitVec Nat Set

variable {A B : Type} {f : A → B} {p : B → Prop} {n m : ℕ} {a : A} {b : B}

def Counts (f : A → B) (p : B → Prop) (n : ℕ) : Prop := {a | p (f a)}.encard = n

lemma counts_zero : Counts f p 0 ↔ ∀ a, ¬ p (f a) := by
  unfold Counts
  rw [cast_zero,encard_eq_zero,eq_empty_iff_forall_notMem]
  rfl

lemma counts_one (h : ∀ x, p (f x) ↔ x = a) : Counts f p 1 := by
  have hs : {x | p (f x)} = {a} := ext h
  unfold Counts
  rw [hs,encard_singleton]
  rfl

section
variable (h : Counts f p n)
include h

lemma Counts.unique (h' : Counts f p m) : n = m := cast_injective (h.symm.trans h')

lemma Counts.pos (ha : p (f a)) : 0 < n := by
  rcases Nat.eq_zero_or_pos n with rfl | hp
  · exact absurd ha (counts_zero.mp h a)
  · exact hp

lemma Counts.exists (hn : n ≠ 0) : ∃ a, p (f a) := by
  by_contra hnone
  exact hn (h.unique (counts_zero.mpr fun a ha => hnone ⟨a,ha⟩))

lemma Counts.congr {k : A → B} (hk : ∀ a, p (k a) ↔ p (f a)) : Counts k p n := by
  have hs : {a | p (k a)} = {a | p (f a)} := ext hk
  unfold Counts
  rw [hs]
  exact h

lemma Counts.lt {k : A → B} (h' : Counts k p m) (hk : ∀ a, p (k a) → p (f a)) (ha : p (f a))
    (ha' : ¬ p (k a)) : m < n := by
  have hf := finite_of_encard_eq_coe h'
  have hs : {a | p (k a)} ⊂ {a | p (f a)} := ⟨hk,fun hsu => ha' (hsu ha)⟩
  have hlt := hf.encard_lt_encard hs
  unfold Counts at h h'
  rw [h,h'] at hlt
  exact_mod_cast hlt

end

variable [DecidableEq A]

lemma Counts.stay (h : Counts f p n) (hb : p b ↔ p (f a)) : Counts (update f a b) p n := by
  have hs : {x | p (update f a b x)} = {x | p (f x)} := by
    ext x
    rcases eq_or_ne x a with rfl | hx
    · simp [hb]
    · simp [hx]
  unfold Counts
  rw [hs]
  exact h

lemma Counts.enter (h : Counts f p n) (ha : ¬ p (f a)) (hb : p b) :
    Counts (update f a b) p (n + 1) := by
  have hs : {x | p (update f a b x)} = insert a {x | p (f x)} := by
    ext x
    rcases eq_or_ne x a with rfl | hx
    · simp [hb]
    · simp [hx]
  have ho : a ∉ {x | p (f x)} := ha
  unfold Counts
  rw [hs,encard_insert_of_notMem ho,h]
  rfl

lemma Counts.leave (h : Counts f p n) (ha : p (f a)) (hb : ¬ p b) :
    Counts (update f a b) p (n - 1) := by
  have hs : {x | p (f x)} = insert a {x | p (update f a b x)} := by
    ext x
    rcases eq_or_ne x a with rfl | hx
    · simp [ha]
    · simp [hx]
  have ho : a ∉ {x | p (update f a b x)} := by simpa using hb
  have hp := h.pos ha
  have hn : n = n - 1 + 1 := by omega
  unfold Counts at h ⊢
  rw [hs,encard_insert_of_notMem ho] at h
  refine ENat.add_left_injective_of_ne_top ENat.one_ne_top ?_
  change _ + 1 = _ + 1
  rw [h]
  exact_mod_cast hn

scoped instance instAtLeastTwo : Nat.AtLeastTwo 2 := ⟨le_rfl⟩

section
variable {w : ℕ} {x : BitVec w}

lemma toNat_pos (h : x ≠ 0) : 0 < x.toNat :=
  pos_of_ne_zero fun hz => h (eq_of_toNat_eq (by simpa using hz))

lemma ne_zero_of_pos (h : 0 < x.toNat) : x ≠ 0 := by
  rintro rfl
  simp at h

lemma toNat_one (h : 1 < 2 ^ w) : (1 : BitVec w).toNat = 1 := by
  rw [ofNat_eq_ofNat,toNat_ofNat]
  exact mod_eq_of_lt h

lemma toNat_dec (h : x ≠ 0) : (x - 1).toNat = x.toNat - 1 := by
  have hp := toNat_pos h
  have ho := toNat_one (lt_of_le_of_lt hp x.isLt)
  have hle : (1 : BitVec w) ≤ x := by
    rw [le_def,ho]
    exact hp
  rw [toNat_sub_of_le hle,ho]

lemma toNat_inc (h : x.toNat + 1 < 2 ^ w := by omega) : (x + 1).toNat = x.toNat + 1 := by
  have ho := toNat_one (lt_of_le_of_lt (le_add_left 1 x.toNat) h)
  rw [toNat_add_of_lt (by omega),ho]

end

end Counting
