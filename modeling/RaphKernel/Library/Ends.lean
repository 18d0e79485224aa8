import Mathlib.Logic.Relation
import RaphKernel.Library.Fallible

namespace Fallible
variable {S E A B : Type} {P : E → Prop} {x : Fallible S E A} {f : A → Fallible S E B} {s t : S}
  {a : A} {e : E}

def Ends (P : E → Prop) (x : Fallible S E A) (s : S) : Prop := ∀ e, (x s).1 = .error e → P e

lemma ends_of_ok (h : x s = (.ok a,t)) : Ends P x s := by
  intro e he
  rw [h] at he
  cases he

lemma ends_of_error (h : x s = (.error e,t)) : Ends P x s ↔ P e := by
  constructor
  · exact fun hx => hx e (by rw [h])
  · intro hP e' he'
    rw [h] at he'
    cases he'
    exact hP

lemma ends_pure (a : A) : Ends P (pure a : Fallible S E A) s := ends_of_ok rfl

lemma ends_fail : Ends P (fail e : Fallible S E A) s ↔ P e := ends_of_error rfl

lemma ends_bind : Ends P (x >>= f) s ↔ Ends P x s ∧ ∀ a t, x s = (.ok a,t) → Ends P (f a) t := by
  rcases hx : x s with ⟨r,u⟩
  cases r with
  | error e =>
    rw [ends_of_error hx,ends_of_error (bind_of_error hx)]
    simp
  | ok a =>
    have hb : Ends P (x >>= f) s ↔ Ends P (f a) u := by rw [Ends,bind_of_ok hx,Ends]
    rw [hb]
    constructor
    · intro h
      refine ⟨ends_of_ok hx,fun a' t h' => ?_⟩
      cases h'
      exact h
    · exact fun h => h.2 a u rfl

lemma ends_then (hx : Ends P x s) (hf : ∀ a t, Ends P (f a) t) : Ends P (x >>= f) s :=
  ends_bind.mpr ⟨hx,fun a t _ => hf a t⟩

end Fallible

namespace Along
variable {A : Type} {r : A → A → Prop} {P : A → Prop} {a : A}

def Always (r : A → A → Prop) (P : A → Prop) (a : A) : Prop := ∀ b, Relation.ReflTransGen r a b → P b

lemma always_iff : Always r P a ↔ P a ∧ ∀ b, r a b → Always r P b := by
  constructor
  · exact fun h => ⟨h a .refl,fun b hb c hc => h c (.head hb hc)⟩
  · rintro ⟨ha,hn⟩ c hc
    rcases Relation.ReflTransGen.cases_head hc with rfl | ⟨b,hb,hbc⟩
    · exact ha
    · exact hn b hb c hbc

end Along
