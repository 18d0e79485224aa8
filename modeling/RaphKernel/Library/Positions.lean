import Mathlib.Data.List.Basic

namespace Positions

variable {A : Type}

lemma modify_at (pre post : List A) (a : A) (f : A → A) :
    (pre ++ a :: post).modify pre.length f = pre ++ f a :: post := by
  induction pre with
  | nil => rfl
  | cons x pre ih => simpa using congrArg (List.cons x) ih

lemma modify_after (pre post : List A) (a b : A) (f : A → A) :
    (pre ++ a :: b :: post).modify (pre.length + 1) f = pre ++ a :: f b :: post := by
  induction pre with
  | nil => rfl
  | cons x pre ih => simpa using congrArg (List.cons x) ih

lemma insertIdx_after (pre post : List A) (a x : A) :
    (pre ++ a :: post).insertIdx (pre.length + 1) x = pre ++ a :: x :: post := by
  induction pre with
  | nil => rfl
  | cons y pre ih => simpa using congrArg (List.cons y) ih

lemma eraseIdx_after (pre post : List A) (a b : A) :
    (pre ++ a :: b :: post).eraseIdx (pre.length + 1) = pre ++ a :: post := by
  induction pre with
  | nil => rfl
  | cons y pre ih => simpa using congrArg (List.cons y) ih

lemma split_at {l : List A} {i : ℕ} {a : A} (h : l[i]? = some a) :
    ∃ pre post, l = pre ++ a :: post ∧ pre.length = i := by
  obtain ⟨_,rfl⟩ := List.getElem?_eq_some_iff.mp h
  exact ⟨l.take i,l.drop (i + 1),by simp,by simp; omega⟩

lemma split_pair {l : List A} {i : ℕ} {a b : A} (ha : l[i]? = some a)
    (hb : l[i + 1]? = some b) : ∃ pre post, l = pre ++ a :: b :: post ∧ pre.length = i := by
  obtain ⟨pre,post,rfl,rfl⟩ := split_at ha
  cases post with
  | nil => simp at hb
  | cons c post =>
    have hc : c = b := by simpa using hb
    subst hc
    exact ⟨pre,post,rfl,rfl⟩

end Positions
