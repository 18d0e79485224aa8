import RaphKernel.Raph
import RaphKernel.Library.Links

namespace Container
open Raph Function List
open Links

inductive Node where
  | first
  | container (addr : ℕ)
  deriving DecidableEq, Repr

structure Queue (T : Type) where
  data : Node → T
  next : Node → Option Node
  last : Node

namespace Queue

variable {T : Type} {q q' : Queue T} {l : List Node} {c : Node} {x : T}

def new (memory : Node → T) (next : Node → Option Node) : Queue T where
  data := memory
  next := update next .first none
  last := .first

def isEmpty (q : Queue T) : Bool := decide (Node.first = q.last)

def push (q : Queue T) (c : Node) (data : T) : Except Panic (Queue T) := do
  let q := { q with
    data := update q.data c data
    next := update q.next c none }
  kassert (q.next q.last).isNone
  return { q with next := update q.next q.last (some c), last := c }

def pop (q : Queue T) : Except Panic (Option (T × Queue T)) :=
  if q.isEmpty then .ok none
  else match q.next .first with
    | none => .error .kassert
    | some c => .ok (some (q.data c,{ q with
      next := update q.next .first (q.next c)
      last := if q.last = c then .first else q.last }))

structure Ok (q : Queue T) (l : List Node) : Prop where
  linked : Sll q.next .first l
  last : q.last = final .first l

lemma ok_new (memory : Node → T) (next : Node → Option Node) : (new memory next).Ok [] := by
  refine ⟨⟨trivial,?_,nodup_singleton _⟩,rfl⟩
  change update next .first none .first = none
  rw [update_self]

lemma Ok.isEmpty_iff (h : q.Ok l) : q.isEmpty = true ↔ l = [] := by
  rw [isEmpty,decide_eq_true_iff,h.last]
  cases l with
  | nil => exact iff_of_true rfl rfl
  | cons c rest =>
    refine iff_of_false (fun hf => ?_) (cons_ne_nil _ _)
    exact (nodup_cons.mp h.linked.nodup).1 (hf ▸ final_mem c rest)

lemma Ok.push_ok (h : q.Ok l) (hc : c ∉ Node.first :: l) (x : T) :
    ∃ q', q.push c x = .ok q' ∧ q'.Ok (l ++ [c]) := by
  have hl : q.last ≠ c := by
    rw [h.last]
    rintro rfl
    exact hc (final_mem _ _)
  have hs : q.next q.last = none := h.last ▸ h.linked.stop
  have hf : (update q.next c none q.last).isNone = true := by
    rw [update_of_ne hl,hs]
    rfl
  refine ⟨_,by simp only [push,hf]; rfl,?_,(final_append Node.first l [c]).symm⟩
  refine h.linked.push hc ?_ ?_ ?_
  · rw [← h.last]
    exact update_self ..
  · exact (update_of_ne hl.symm ..).trans (update_self ..)
  · intro y hy hne
    rw [← h.last] at hne
    exact (update_of_ne hne ..).trans (update_of_ne (ne_of_mem_of_not_mem hy hc) ..)

lemma Ok.pop_nil (h : q.Ok []) : q.pop = .ok none := by
  rw [pop,if_pos (h.isEmpty_iff.mpr rfl)]

lemma Ok.pop_cons (h : q.Ok (c :: l)) : ∃ q', q.pop = .ok (some (q.data c,q')) ∧ q'.Ok l := by
  have hne : ¬ q.isEmpty = true := fun he => cons_ne_nil _ _ (h.isEmpty_iff.mp he)
  have hf : q.next .first = some c := h.linked.first
  refine ⟨_,by rw [pop,if_neg hne,hf],?_,?_⟩
  · have hl : Sll q.next .first ([] ++ c :: l) := h.linked
    refine hl.unlink ?_ fun y _ hy => update_of_ne hy ..
    change update q.next .first (q.next c) .first = _
    rw [update_self]
  · change (if q.last = c then Node.first else q.last) = _
    rw [h.last]
    cases l with
    | nil => exact if_pos rfl
    | cons d rest =>
      have hd := (nodup_cons.mp (nodup_cons.mp h.linked.nodup).2).1
      refine if_neg fun he : final d rest = c => hd ?_
      rw [← he]
      exact final_mem d rest

end Queue

end Container
