import Mathlib.Order.Interval.Set.LinearOrder
import Mathlib.Data.List.Basic
import Mathlib.Data.Set.Lattice
import Mathlib.Order.CompletePartialOrder

namespace Intervals
open List

variable {α β : Type} [LinearOrder α] (lo hi : β → α)

def Chained : List β → Prop
  | [] => True
  | [a] => lo a ≤ hi a
  | a :: b :: rest => lo a ≤ hi a ∧ hi a ≤ lo b ∧ Chained (b :: rest)

instance chainedDecidable [DecidableLE α] : (l : List β) → Decidable (Chained lo hi l)
  | [] => .isTrue trivial
  | [a] => inferInstanceAs (Decidable (lo a ≤ hi a))
  | a :: b :: rest =>
    have := chainedDecidable (b :: rest)
    inferInstanceAs (Decidable (lo a ≤ hi a ∧ hi a ≤ lo b ∧ Chained lo hi (b :: rest)))

def Ordered (l : List β) : Prop :=
  (∀ a ∈ l, lo a ≤ hi a) ∧ l.Pairwise (fun a b => hi a ≤ lo b)

def covered (l : List β) : Set α := {x | ∃ a ∈ l, x ∈ Set.Ico (lo a) (hi a)}

variable {lo hi}

lemma ordered_nil : Ordered lo hi [] := ⟨by simp,.nil⟩

lemma ordered_cons {a : β} {l : List β} :
    Ordered lo hi (a :: l) ↔ lo a ≤ hi a ∧ (∀ b ∈ l, hi a ≤ lo b) ∧ Ordered lo hi l := by
  simp only [Ordered,mem_cons,forall_eq_or_imp,pairwise_cons]
  tauto

lemma ordered_singleton {a : β} : Ordered lo hi [a] ↔ lo a ≤ hi a := by
  simp [Ordered]

lemma ordered_append {l m : List β} : Ordered lo hi (l ++ m) ↔
      Ordered lo hi l ∧ Ordered lo hi m ∧ ∀ a ∈ l, ∀ b ∈ m, hi a ≤ lo b := by
  simp only [Ordered,mem_append,pairwise_append,or_imp,forall_and]
  tauto

lemma chained_iff_ordered (l : List β) : Chained lo hi l ↔ Ordered lo hi l := by
  induction l with
  | nil => simp [Chained,ordered_nil]
  | cons a l ih =>
    cases l with
    | nil => simp [Chained,ordered_singleton]
    | cons b l =>
      rw [Chained,ih,ordered_cons (a := a)]
      constructor
      · rintro ⟨ha,hab,h⟩
        obtain ⟨hb,hbl,_⟩ := ordered_cons.mp h
        refine ⟨ha,?_,h⟩
        intro c hc
        rcases mem_cons.mp hc with rfl | hc
        · exact hab
        · exact hab.trans (hb.trans (hbl c hc))
      · rintro ⟨ha,hal,h⟩
        exact ⟨ha,hal b (by simp),h⟩

lemma ordered_splice {pre mid post : List β} {x y : α}
    (hpr : Ordered lo hi pre) (hmi : Ordered lo hi mid) (hp : Ordered lo hi post)
    (hx : ∀ a ∈ pre, hi a ≤ x) (hy : ∀ b ∈ post, y ≤ lo b)
    (hin : ∀ m ∈ mid, x ≤ lo m ∧ hi m ≤ y) (hxy : x ≤ y) :
    Ordered lo hi (pre ++ mid ++ post) := by
  rw [ordered_append,ordered_append]
  refine ⟨⟨hpr,hmi,?_⟩,hp,?_⟩
  · intro a ha m hm
    exact (hx a ha).trans (hin m hm).1
  · intro a ha b hb
    rcases mem_append.mp ha with ha | ha
    · exact (hx a ha).trans (hxy.trans (hy b hb))
    · exact (hin a ha).2.trans (hy b hb)

lemma covered_nil : covered lo hi [] = ∅ := by
  ext x; simp [covered]

lemma covered_cons (a : β) (l : List β) :
    covered lo hi (a :: l) = Set.Ico (lo a) (hi a) ∪ covered lo hi l := by
  ext x; simp [covered]

lemma covered_singleton (a : β) : covered lo hi [a] = Set.Ico (lo a) (hi a) := by
  rw [covered_cons,covered_nil,Set.union_empty]

lemma covered_append (l m : List β) :
    covered lo hi (l ++ m) = covered lo hi l ∪ covered lo hi m := by
  ext x; simp [covered,or_and_right,exists_or]

lemma covered_lt {l : List β} {y x : α} (hy : ∀ a ∈ l, hi a ≤ y)
    (hx : x ∈ covered lo hi l) : x < y := by
  obtain ⟨a,ha,hax⟩ := hx
  exact hax.2.trans_le (hy a ha)

lemma covered_ge {l : List β} {y x : α} (hy : ∀ a ∈ l, y ≤ lo a)
    (hx : x ∈ covered lo hi l) : y ≤ x := by
  obtain ⟨a,ha,hax⟩ := hx
  exact (hy a ha).trans hax.1

lemma gap_disjoint {pre post : List β} {x y : α}
    (hx : ∀ a ∈ pre, hi a ≤ x) (hy : ∀ b ∈ post, y ≤ lo b) :
    Disjoint (Set.Ico x y) (covered lo hi (pre ++ post)) := by
  rw [Set.disjoint_left,covered_append]
  rintro z hz (hc | hc)
  · exact absurd hz.1 (not_le.mpr (covered_lt hx hc))
  · exact absurd hz.2 (not_lt.mpr (covered_ge hy hc))

lemma ordered_merge {pre post : List β} {a b c : β}
    (h : Ordered lo hi (pre ++ a :: b :: post)) (hlo : lo c = lo a) (hhi : hi c = hi b) :
    Ordered lo hi (pre ++ c :: post) := by
  obtain ⟨hpr,hab,hal⟩ := ordered_append.mp h
  obtain ⟨ha,hab,hb⟩ := ordered_cons.mp hab
  obtain ⟨hbb,hbp,hp⟩ := ordered_cons.mp hb
  have hac : lo c ≤ hi c := by
    rw [hlo,hhi]
    exact ha.trans ((hab b (by simp)).trans hbb)
  have hs := ordered_splice hpr (ordered_singleton.mpr hac) hp
      (fun x hx => hlo ▸ hal x hx a (by simp)) (fun y hy => hhi ▸ hbp y hy) (by simp) hac
  simpa using hs

lemma covered_merge {pre post : List β} {a b c : β}
    (ha : lo a ≤ hi a) (hb : lo b ≤ hi b) (hab : hi a = lo b)
    (hlo : lo c = lo a) (hhi : hi c = hi b) :
    covered lo hi (pre ++ c :: post) = covered lo hi (pre ++ a :: b :: post) := by
  have hu : Set.Ico (lo a) (hi b) = Set.Ico (lo a) (hi a) ∪ Set.Ico (lo b) (hi b) := by
    rw [← hab]
    exact (Set.Ico_union_Ico_eq_Ico ha (hab ▸ hb)).symm
  rw [covered_append,covered_append,covered_cons,covered_cons,covered_cons,hlo,hhi,hu,
    Set.union_assoc]

end Intervals
