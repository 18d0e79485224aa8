import Mathlib.Data.Fintype.Card
import RaphKernel.Library.Loop

namespace Loop
open Relation

variable {S R : Type} {body : S → Sum S R} {s t u : S} {r : R}

def Steps (body : S → Sum S R) (s t : S) : Prop := body s = .inl t

def Cycles (body : S → Sum S R) (s : S) : Prop :=
  ∃ t, ReflTransGen (Steps body) s t ∧ TransGen (Steps body) t t

lemma returns_iff_reaches :
    Returns body s r ↔ ∃ t, ReflTransGen (Steps body) s t ∧ body t = .inr r := by
  constructor
  · rintro ⟨n,hn⟩
    induction n generalizing s with
    | zero => cases hn
    | succ n ih =>
      rw [iterate] at hn
      cases hs : body s with
      | inl u =>
        rw [hs] at hn
        obtain ⟨t,ht,he⟩ := ih hn
        exact ⟨t,.head hs ht,he⟩
      | inr q =>
        rw [hs] at hn
        cases hn
        exact ⟨s,.refl,hs⟩
  · rintro ⟨t,ht,he⟩
    induction ht using ReflTransGen.head_induction_on with
    | refl => exact returns_of_exit he
    | head hst _ ih => exact (returns_step_iff hst).mpr ih

lemma Cycles.step (h : Cycles body s) : ∃ t, body s = .inl t ∧ Cycles body t := by
  obtain ⟨u,hr,hc⟩ := h
  rcases hr.cases_head with rfl | ⟨t,ht,hr⟩
  · obtain ⟨t,ht,hb⟩ := TransGen.head'_iff.mp hc
    exact ⟨t,ht,t,.refl,.tail' hb ht⟩
  · exact ⟨t,ht,u,hr,hc⟩

lemma Cycles.diverges (h : Cycles body s) : ¬ Returns body s r := by
  rintro ⟨n,hn⟩
  induction n generalizing s with
  | zero => cases hn
  | succ n ih =>
    obtain ⟨t,ht,hc⟩ := h.step
    rw [iterate,ht] at hn
    exact ih hc hn

def Ahead (body : S → Sum S R) (s t u : S) : Prop :=
  ReflTransGen (Steps body) s u ∧ TransGen (Steps body) u t

lemma ahead_wellFounded [Finite S] (h : ¬ Cycles body s) : WellFounded (Ahead body s) := by
  have htr : IsTrans S (Ahead body s) := ⟨fun _ _ _ htu huv => ⟨huv.1,huv.2.trans htu.2⟩⟩
  have hir : Std.Irrefl (Ahead body s) := ⟨fun t ht => h ⟨t,ht⟩⟩
  exact Finite.wellFounded_of_trans_of_irrefl _

lemma returns_of_acyclic [Finite S] (h : ¬ Cycles body s) : ∃ r, Returns body s r := by
  have ha : ∀ t, ReflTransGen (Steps body) s t → ∃ r, Returns body t r := by
    intro t
    induction t using (ahead_wellFounded h).induction with
    | h t ih =>
      intro hre
      cases ht : body t with
      | inl u =>
        obtain ⟨r,hr⟩ := ih u ⟨hre,.single ht⟩ (hre.tail ht)
        exact ⟨r,(returns_step_iff ht).mpr hr⟩
      | inr r => exact ⟨r,returns_of_exit ht⟩
  exact ha s .refl

end Loop
