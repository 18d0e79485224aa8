import RaphKernel.Library.Bytes
import RaphKernel.Library.Loop

namespace Libc
open Bytes Loop List Nat

structure CString where
  chars : List Byte
  nonzero : 0 ∉ chars

namespace CString

def mem (s : CString) : ℕ → Byte := fun i => (s.chars[i]?).getD 0

def strlenBody (str : ℕ → Byte) (len : ℕ) : Sum ℕ ℕ := if str len ≠ 0 then .inl (len + 1) else .inr len

def strlen (s : CString) : ℕ := s.chars.length

lemma mem_lt (s : CString) {i : ℕ} (h : i < s.strlen) : s.mem i = s.chars.get ⟨i,h⟩ := by
  have hg := List.getElem?_eq_getElem h
  rw [mem,hg]
  rfl

lemma mem_ne_zero (s : CString) {i : ℕ} (h : i < s.strlen) : s.mem i ≠ 0 := by
  rw [s.mem_lt h]
  exact fun hz => s.nonzero (hz ▸ List.get_mem ..)

lemma mem_strlen (s : CString) : s.mem s.strlen = 0 := by
  simp [mem,strlen]

lemma strlen_returns (s : CString) : Returns (strlenBody s.mem) 0 s.strlen := by
  have hl : ∀ k len, len + k = s.strlen → Returns (strlenBody s.mem) len s.strlen := by
    intro k
    induction k with
    | zero =>
      intro len hle
      obtain rfl : len = s.strlen := hle
      exact returns_of_exit (if_neg (not_not.mpr s.mem_strlen))
    | succ k ih =>
      intro len _
      have hs : strlenBody s.mem len = .inl (len + 1) := if_pos (s.mem_ne_zero (by omega))
      exact (returns_step_iff hs).mpr (ih (len + 1) (by omega))
  exact hl s.strlen 0 (Nat.zero_add _)

end CString

def strncmp : (ℕ → Byte) → (ℕ → Byte) → ℕ → ℤ
  | _, _, 0 => 0
  | s1, s2, n + 1 =>
    if s1 0 ≠ s2 0 then (s1 0).toInt - (s2 0).toInt
    else strncmp (fun i => s1 (i + 1)) (fun i => s2 (i + 1)) n

def strncpy : (ℕ → Byte) → ℕ → List Byte
  | _, 0 => []
  | s2, n + 1 => if s2 0 = 0 then 0 :: strncpy s2 n else s2 0 :: strncpy (fun i => s2 (i + 1)) n

def text (field : List Byte) : List Byte := field.takeWhile (· ≠ 0)

section
variable {s1 s2 : ℕ → Byte} {n : ℕ}

lemma strncmp_eq_zero : strncmp s1 s2 n = 0 ↔ ∀ i < n, s1 i = s2 i := by
  induction n generalizing s1 s2 with
  | zero => simp [strncmp]
  | succ n ih =>
    rw [strncmp]
    by_cases h : s1 0 = s2 0
    · rw [if_neg (not_not.mpr h),ih]
      constructor
      · intro hr i hi
        cases i with
        | zero => exact h
        | succ i => exact hr i (lt_of_succ_lt_succ hi)
      · exact fun ha i hi => ha _ (succ_lt_succ hi)
    · rw [if_pos h]
      refine iff_of_false (fun hz => h ?_) fun ha => h (ha 0 (zero_lt_succ n))
      exact BitVec.eq_of_toInt_eq (by omega)

lemma strncpy_zero (h : s2 0 = 0) (n : ℕ) : strncpy s2 (n + 1) = 0 :: strncpy s2 n := by
  rw [strncpy,if_pos h]

lemma strncpy_char (h : s2 0 ≠ 0) (n : ℕ) :
    strncpy s2 (n + 1) = s2 0 :: strncpy (fun i => s2 (i + 1)) n := by
  rw [strncpy,if_neg h]

lemma text_strncpy {t : List Byte} (ht : 0 ∉ t) (he : s2 t.length = 0) (hn : t.length < n)
    (h : ∀ i (hi : i < t.length), s2 i = t.get ⟨i,hi⟩) : text (strncpy s2 n) = t := by
  induction t generalizing s2 n with
  | nil =>
    obtain ⟨n,rfl⟩ := exists_eq_add_one.mpr hn
    rw [strncpy_zero he]
    rfl
  | cons a t ih =>
    obtain ⟨n,rfl⟩ := exists_eq_add_one.mpr (zero_lt_of_lt hn)
    have hh := h 0 (zero_lt_succ _)
    have ha : s2 0 ≠ 0 := fun hz => ht ((hh.symm.trans hz) ▸ mem_cons_self)
    have hr := ih (fun hm => ht (mem_cons_of_mem a hm)) he (lt_of_succ_lt_succ hn)
        fun i hi => h _ (succ_lt_succ hi)
    rw [strncpy_char ha,text,takeWhile_cons,if_pos (decide_eq_true ha),hh]
    exact congrArg _ hr

lemma strncpy_length {t : List Byte} (ht : 0 ∉ t)
    (h : ∀ i (hi : i < t.length), s2 i = t.get ⟨i,hi⟩) : strncpy s2 t.length = t := by
  induction t generalizing s2 with
  | nil => rfl
  | cons a t ih =>
    have hh := h 0 (zero_lt_succ _)
    have ha : s2 0 ≠ 0 := fun hz => ht ((hh.symm.trans hz) ▸ mem_cons_self)
    rw [length_cons,strncpy_char ha,hh]
    exact congrArg _ (ih (fun hm => ht (mem_cons_of_mem a hm))
      fun i hi => h (i + 1) (succ_lt_succ hi))

lemma text_compare {field : List Byte} (q : CString) :
    (∀ i < q.strlen, (field[i]?).getD 0 = q.mem i) ↔ q.chars <+: text field := by
  obtain ⟨chars,hq⟩ := q
  simp only [CString.strlen,CString.mem]
  induction chars generalizing field with
  | nil => simp
  | cons a chars ih =>
    have ha : a ≠ 0 := fun hz => hq (hz ▸ mem_cons_self)
    have hr : 0 ∉ chars := fun hm => hq (mem_cons_of_mem a hm)
    cases field with
    | nil =>
      refine iff_of_false (fun hal => ?_) (by simp [text])
      exact ha (hal 0 (zero_lt_succ _)).symm
    | cons b field =>
      by_cases hb : b = 0
      · refine iff_of_false (fun hal => ?_) (by simp [text,hb])
        exact ha ((hal 0 (zero_lt_succ _)).symm.trans hb)
      · rw [text,takeWhile_cons,if_pos (decide_eq_true hb),cons_prefix_cons,← text,← ih hr]
        constructor
        · exact fun hal => ⟨(hal 0 (zero_lt_succ _)).symm,fun i hi => hal _ (succ_lt_succ hi)⟩
        · rintro ⟨rfl,hal⟩ i hi
          cases i with
          | zero => rfl
          | succ i => exact hal i (lt_of_succ_lt_succ hi)

end

end Libc
