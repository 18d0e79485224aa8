import Mathlib.Data.List.TakeWhile

namespace Tokens
open List
variable {A : Type} (p : A → Bool) {a : A} {l : List A}

def words (l : List A) : List (List A) := (l.splitOnP p).filter (!·.isEmpty)

lemma words_nil : words p [] = [] := by simp [words]

variable {p}

lemma words_separator (ha : p a = true) : words p (a :: l) = words p l := by
  simp [words,splitOnP_cons_eq_if_modifyHead,ha]

lemma words_dropWhile (l : List A) : words p (l.dropWhile p) = words p l := by
  induction l with
  | nil => rfl
  | cons a l ih =>
    by_cases ha : p a = true
    · rw [dropWhile_cons_of_pos ha,words_separator ha,ih]
    · rw [dropWhile_cons_of_neg ha]

lemma splitOnP_first (p : A → Bool) (l : List A) : ((∀ x ∈ l, p x = false) ∧ l.splitOnP p = [l]) ∨
    ∃ w a r, l = w ++ a :: r ∧ (∀ x ∈ w, p x = false) ∧ p a = true ∧
      l.splitOnP p = w :: r.splitOnP p := by
  have hw : ∀ x ∈ l.takeWhile (!p ·), p x = false := fun x hx => by
    simpa using mem_takeWhile_imp hx
  have hs := takeWhile_append_dropWhile (p := (!p ·)) (l := l)
  cases hr : l.dropWhile (!p ·) with
  | nil =>
    rw [hr,append_nil] at hs
    rw [hs] at hw
    exact .inl ⟨hw,splitOnP_eq_singleton hw⟩
  | cons a r =>
    have ha : p a = true := by
      have hh := head?_dropWhile_not (!p ·) l
      rw [hr] at hh
      simpa using hh
    rw [hr] at hs
    refine .inr ⟨_,a,r,hs.symm,hw,ha,?_⟩
    rw [← splitOnP_append_cons_of_forall_mem hw a ha,hs]

lemma mem_splitOnP {w : List A} (h : w ∈ l.splitOnP p) {x : A} (hx : x ∈ w) :
    x ∈ l ∧ p x = false := by
  induction l generalizing w with
  | nil =>
    obtain rfl : w = [] := by simpa using h
    cases hx
  | cons a l ih =>
    rw [splitOnP_cons_eq_if_modifyHead] at h
    have hl : ∀ {v}, v ∈ l.splitOnP p → x ∈ v → x ∈ a :: l ∧ p x = false := fun hv hx =>
      ⟨mem_cons_of_mem a (ih hv hx).1,(ih hv hx).2⟩
    split at h
    · obtain rfl | h := mem_cons.mp h
      · cases hx
      · exact hl h hx
    · have ha := Bool.eq_false_iff.mpr ‹_›
      cases hs : l.splitOnP p with
      | nil => simp [hs] at h
      | cons v vs =>
        rw [hs,modifyHead_cons] at h
        rw [hs] at hl
        obtain rfl | h := mem_cons.mp h
        · obtain rfl | hx := mem_cons.mp hx
          · exact ⟨mem_cons_self,ha⟩
          · exact hl mem_cons_self hx
        · exact hl (mem_cons_of_mem v h) hx

lemma words_subset {w : List A} (h : w ∈ words p l) : w ⊆ l := fun _ hx =>
  (mem_splitOnP (mem_filter.mp h).1 hx).1

lemma words_single (h : l ≠ []) (hl : ∀ a ∈ l, p a = false) : words p l = [l] := by
  rw [words,splitOnP_eq_singleton hl,filter_cons_of_pos (by simpa using h),filter_nil]

lemma words_cons (ha : p a = false) :
    words p (a :: l) = (a :: l).takeWhile (!p ·) :: words p ((a :: l).dropWhile (!p ·)) := by
  have hw : ∀ x ∈ (a :: l).takeWhile (!p ·), p x = false := fun x hx => by
    simpa using mem_takeWhile_imp hx
  have hso : ((a :: l).takeWhile (!p ·)).isEmpty = false := by simp [ha]
  have hs := takeWhile_append_dropWhile (p := (!p ·)) (l := a :: l)
  cases hr : (a :: l).dropWhile (!p ·) with
  | nil =>
    rw [hr,append_nil] at hs
    rw [hs] at hw ⊢
    rw [words_single (cons_ne_nil _ _) hw,words_nil]
  | cons b r =>
    have hb : p b = true := by
      have hh := head?_dropWhile_not (!p ·) (a :: l)
      rw [hr] at hh
      simpa using hh
    calc words p (a :: l) = words p ((a :: l).takeWhile (!p ·) ++ b :: r) := by rw [← hr,hs]
      _ = (a :: l).takeWhile (!p ·) :: words p r := by
        rw [words,splitOnP_append_cons_of_forall_mem hw b hb,filter_cons_of_pos (hso ▸ rfl)]
        rfl
      _ = (a :: l).takeWhile (!p ·) :: words p (b :: r) := by rw [words_separator hb]

lemma words_eq_nil : words p l = [] ↔ ∀ a ∈ l, p a = true := by
  induction l with
  | nil => simp [words_nil]
  | cons a l ih =>
    cases ha : p a with
    | true => simp [words_separator ha,ih,ha]
    | false => simp [words_cons ha,ha]

end Tokens
