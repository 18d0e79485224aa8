import Mathlib.Data.List.Nodup
import Mathlib.Data.List.Count

namespace Fifo
open List

variable {A : Type}

inductive Event (A : Type) where
  | added (a : A)
  | removed (a : A)
  | taken (a : A)
  deriving DecidableEq, Repr

def added : List (Event A) → List A := filterMap fun
  | .added a => some a
  | _ => none

def removed : List (Event A) → List A := filterMap fun
  | .removed a => some a
  | _ => none

def taken : List (Event A) → List A := filterMap fun
  | .taken a => some a
  | _ => none

lemma added_append (es es' : List (Event A)) : added (es ++ es') = added es ++ added es' :=
  filterMap_append

lemma removed_append (es es' : List (Event A)) :
    removed (es ++ es') = removed es ++ removed es' := filterMap_append

lemma taken_append (es es' : List (Event A)) : taken (es ++ es') = taken es ++ taken es' :=
  filterMap_append

variable [DecidableEq A]

inductive Step : List A → Event A → List A → Prop
  | add {a : A} {l : List A} : a ∉ l → Step l (.added a) (l ++ [a])
  | remove {a : A} {l : List A} : a ∈ l → Step l (.removed a) (l.erase a)
  | take {a : A} {l : List A} : Step (a :: l) (.taken a) l

inductive Trace : List (Event A) → List A → Prop
  | nil : Trace [] []
  | snoc {es : List (Event A)} {e : Event A} {l l' : List A} :
    Trace es l → Step l e l' → Trace (es ++ [e]) l'

variable {es : List (Event A)} {l : List A}

lemma Trace.order (h : Trace es l) : Sublist (taken es ++ l) (added es) := by
  induction h with
  | nil => exact Sublist.slnil
  | snoc _ hs ih =>
    rw [taken_append,added_append]
    cases hs with
    | add _ => simpa [taken,added] using ih.append_right _
    | remove _ => simpa [taken,added] using (Sublist.append_left erase_sublist _).trans ih
    | take => simpa [taken,added] using ih

lemma Trace.count (h : Trace es l) (a : A) :
    (added es).count a = (taken es).count a + (removed es).count a + l.count a := by
  induction h with
  | nil => rfl
  | snoc _ hs ih =>
    rw [taken_append,added_append,removed_append]
    simp only [count_append,ih]
    cases hs with
    | add _ =>
      simp [taken,added,removed]
      omega
    | remove hb =>
      have he := (perm_cons_erase hb).count_eq a
      simp only [taken,added,removed,filterMap_cons,filterMap_nil,count_cons,count_nil] at he ⊢
      omega
    | take =>
      simp only [taken,added,removed,filterMap_cons,filterMap_nil,count_cons,count_nil]
      omega

end Fifo
