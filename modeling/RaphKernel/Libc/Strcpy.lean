import Mathlib.Data.List.TakeWhile
import RaphKernel.Libc

namespace Libc
open Bytes Function List Nat

def Spells (m : ℕ → Byte) (start : ℕ) : List Byte → Prop
  | [] => m start = 0
  | c :: w => m start = c ∧ Spells m (start + 1) w

def strcpy (s1 : ℕ → Byte) (i : ℕ) : List Byte → ℕ → Byte
  | [] => update s1 i 0
  | c :: s2 => strcpy (update s1 i c) (i + 1) s2

def strcmp (s1 : ℕ → Byte) (start : ℕ) : List Byte → ℤ
  | [] => (s1 start).toInt - BitVec.toInt (0 : Byte)
  | c :: s2 =>
    if s1 start ≠ 0 ∧ s1 start = c then strcmp s1 (start + 1) s2 else (s1 start).toInt - c.toInt

namespace CString

def read (m : ℕ → Byte) (start size : ℕ) : CString where
  chars := text ((List.range size).map fun j => m (start + j))
  nonzero h := by simpa using mem_takeWhile_imp h

end CString

section
variable {m m' : ℕ → Byte} {start i j size : ℕ} {w v : List Byte} {c : Byte}

lemma Spells.congr (h : Spells m start w) (hm : ∀ j, start ≤ j → m' j = m j) :
    Spells m' start w := by
  induction w generalizing start with
  | nil => exact (hm start (Nat.le_refl start)).trans h
  | cons c w ih =>
    exact ⟨(hm start (Nat.le_refl start)).trans h.1,ih h.2 fun j hj => hm j (le_of_succ_le hj)⟩

lemma Spells.append (h : Spells m start w) (hl : m' (start + w.length) = c)
    (he : m' (start + w.length + 1) = 0)
    (hm : ∀ j < start + w.length, m' j = m j) : Spells m' start (w ++ [c]) := by
  induction w generalizing start with
  | nil => exact ⟨hl,he⟩
  | cons a w ih =>
    have hle : start + (a :: w).length = start + 1 + w.length := by rw [length_cons]; omega
    rw [hle] at hl he hm
    exact ⟨(hm start (by omega)).trans h.1,ih h.2 hl he hm⟩

lemma Spells.initial (h : Spells m start (w ++ v)) (he : m' (start + w.length) = 0)
    (hm : ∀ j < start + w.length, m' j = m j) : Spells m' start w := by
  induction w generalizing start with
  | nil => exact he
  | cons a w ih =>
    rw [length_cons,← Nat.add_assoc,Nat.add_right_comm] at he hm
    exact ⟨(hm start (by omega)).trans h.1,ih h.2 he hm⟩

lemma strcpy_before (s1 : ℕ → Byte) (h : j < i) (s2 : List Byte) : strcpy s1 i s2 j = s1 j := by
  induction s2 generalizing s1 i with
  | nil => exact update_of_ne h.ne 0 s1
  | cons c s2 ih =>
    exact (ih _ (lt_succ_of_lt h)).trans (update_of_ne h.ne c s1)

lemma spells_strcpy (s1 : ℕ → Byte) (i : ℕ) (s2 : List Byte) : Spells (strcpy s1 i s2) i s2 := by
  induction s2 generalizing s1 i with
  | nil => exact update_self i 0 s1
  | cons c s2 ih =>
    exact ⟨(strcpy_before _ (lt_succ_self i) s2).trans (update_self i c s1),ih _ _⟩

lemma text_eq_self (hw : 0 ∉ w) : text w = w := by
  rw [text,takeWhile_eq_self_iff]
  exact fun c hc => decide_eq_true fun hz => hw (hz ▸ hc)

lemma read_chars (h : Spells m start w) (hs : w.length < size) :
    (CString.read m start size).chars = text w := by
  change text ((List.range size).map fun j => m (start + j)) = text w
  induction w generalizing start size with
  | nil =>
    obtain ⟨size,rfl⟩ := exists_eq_add_one.mpr hs
    have hz : m start = 0 := h
    simp [text,range_succ_eq_map,hz]
  | cons c w ih =>
    obtain ⟨size,rfl⟩ := exists_eq_add_one.mpr (zero_lt_of_lt hs)
    have ht := ih h.2 (lt_of_succ_lt_succ hs)
    have hsh : (fun j => m (start + 1 + j)) = (fun j => m (start + j)) ∘ succ :=
      funext fun j => congrArg m (by rw [succ_eq_add_one]; omega)
    rw [hsh,← List.map_map] at ht
    rw [range_succ_eq_map,map_cons,text,text,takeWhile_cons,takeWhile_cons,Nat.add_zero,h.1]
    split
    · exact congrArg _ ht
    · rfl

lemma text_length (w : List Byte) : (text w).length ≤ w.length :=
  (List.takeWhile_prefix _).length_le

lemma strcmp_eq_zero (h : Spells m start w) (hw : 0 ∉ w) (hv : 0 ∉ v) :
    strcmp m start v = 0 ↔ w = v := by
  induction v generalizing start w with
  | nil =>
    cases w with
    | nil =>
      have hz : m start = 0 := h
      simp [strcmp,hz]
    | cons c w =>
      have hne : c ≠ 0 := fun hz => hw (hz ▸ mem_cons_self)
      rw [strcmp,h.1]
      refine iff_of_false (fun hz => hne ?_) (cons_ne_nil c w)
      exact BitVec.eq_of_toInt_eq (by omega)
  | cons a v ih =>
    have ha : a ≠ 0 := fun hz => hv (hz ▸ mem_cons_self)
    rw [strcmp]
    by_cases hf : m start ≠ 0 ∧ m start = a
    · rw [if_pos hf]
      cases w with
      | nil => exact absurd h hf.1
      | cons c w =>
        obtain rfl : c = a := h.1.symm.trans hf.2
        rw [ih h.2 (fun hm => hw (mem_cons_of_mem c hm))
          fun hm => hv (mem_cons_of_mem c hm),List.cons.injEq,and_iff_right rfl]
    · rw [if_neg hf]
      refine iff_of_false (fun hz => ?_) ?_
      · have heq : m start = a := BitVec.eq_of_toInt_eq (by omega)
        exact hf ⟨heq ▸ ha,heq⟩
      · rintro rfl
        exact hf ⟨h.1 ▸ ha,h.1⟩

end

end Libc
