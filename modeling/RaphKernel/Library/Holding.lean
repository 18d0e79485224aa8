import Mathlib.Logic.Basic

namespace Holding

variable {H : Type} {P P' : H → Prop} {o : Option H} {a b : H}

def Held (P : H → Prop) (o : Option H) : Prop := ∀ z, P z ↔ o = some z

lemma Held.holder (h : Held P o) (ha : P a) : o = some a := (h a).mp ha

lemma Held.only (h : Held P (some a)) (hb : P b) : b = a := (Option.some.inj (h.holder hb)).symm

lemma Held.stay (h : Held P o) (ha : P' a ↔ P a) (ho : ∀ z, z ≠ a → (P' z ↔ P z)) :
    Held P' o := fun z => by
  by_cases hz : z = a
  · rw [hz]
    exact ha.trans (h a)
  · exact (ho z hz).trans (h z)

lemma Held.take (h : Held P none) (ha : P' a) (ho : ∀ z, z ≠ a → (P' z ↔ P z)) :
    Held P' (some a) := fun z => by
  by_cases hz : z = a
  · rw [hz]
    exact iff_of_true ha rfl
  · refine iff_of_false (fun hin => ?_) fun he => hz (Option.some.inj he).symm
    cases h.holder ((ho z hz).mp hin)

lemma Held.drop (h : Held P (some a)) (ha : ¬ P' a) (ho : ∀ z, z ≠ a → (P' z ↔ P z)) :
    Held P' none := fun z => by
  refine iff_of_false (fun hin => ?_) nofun
  by_cases hz : z = a
  · exact ha (hz ▸ hin)
  · exact hz (h.only ((ho z hz).mp hin))

lemma Held.pass (h : Held P (some a)) (ha : ¬ P' a) (hb : P' b)
    (ho : ∀ z, z ≠ a → z ≠ b → (P' z ↔ P z)) : Held P' (some b) := fun z => by
  by_cases hz : z = b
  · rw [hz]
    exact iff_of_true hb rfl
  · refine iff_of_false (fun hin => ?_) fun he => hz (Option.some.inj he).symm
    by_cases hza : z = a
    · exact ha (hza ▸ hin)
    · exact hza (h.only ((ho z hza hz).mp hin))

end Holding
