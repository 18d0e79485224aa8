import Mathlib.Data.List.Basic

namespace Probing
open Function

variable {I K V : Type} [DecidableEq K] {probe : I → I} {vacant x : K}
  {t : I → K × V} {n : ℕ} {i j k : I} {r : K × V}

def search (probe : I → I) (vacant : K) (t : I → K × V) (x : K) : ℕ → I → Option I
  | 0, _ => none
  | n + 1, i =>
    if (t i).1 = vacant ∨ (t i).1 = x then some i else search probe vacant t x n (probe i)

lemma search_stop (h : search probe vacant t x n i = some j) :
    (t j).1 = vacant ∨ (t j).1 = x := by
  induction n generalizing i with
  | zero => cases h
  | succ n ih =>
    rw [search] at h
    split_ifs at h with hs
    · cases h
      exact hs
    · exact ih h

variable [DecidableEq I]

lemma search_update (h : search probe vacant t x n i = some j) (hk : (t k).1 = vacant)
    (hr : k = j → r.1 = x) : search probe vacant (update t k r) x n i = some j := by
  induction n generalizing i with
  | zero => cases h
  | succ n ih =>
    rw [search] at h ⊢
    by_cases hi : i = k
    · subst hi
      rw [if_pos (.inl hk)] at h
      cases h
      rw [update_self,if_pos (.inr (hr rfl))]
    · rw [update_of_ne hi]
      split_ifs at h ⊢
      · exact h
      · exact ih h

def Stored (probe : I → I) (vacant : K) (hash : K → I) (n : ℕ) (t : I → K × V) : Prop :=
  ∀ j, (t j).1 ≠ vacant → search probe vacant t (t j).1 n (hash (t j).1) = some j

lemma Stored.update {hash : K → I} (h : Stored probe vacant hash n t)
    (hs : search probe vacant t r.1 n (hash r.1) = some k) (hk : (t k).1 = vacant) :
    Stored probe vacant hash n (update t k r) := by
  intro j hj
  by_cases hjk : j = k
  · subst hjk
    rw [update_self]
    exact search_update hs hk fun _ => rfl
  · rw [update_of_ne hjk] at hj ⊢
    exact search_update (h j hj) hk fun he => absurd he.symm hjk

end Probing
