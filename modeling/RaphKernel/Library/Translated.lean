import Mathlib.Data.Set.Basic

namespace Translated
open Function

variable {V P B : Type} {U : Set V} {tr tr' : V → Option P} {c c₀ : P → B} {log : V → Option B}
  {v : V} {p : P} {b : B}

def Faithful (U : Set V) (tr : V → Option P) : Prop :=
  ∀ v ∈ U, ∀ w ∈ U, ∀ p, tr v = some p → tr w = some p → v = w

structure Holds (U : Set V) (tr : V → Option P) (c₀ c : P → B) (log : V → Option B) : Prop where
  faithful : Faithful U tr
  touched : ∀ v b, log v = some b → v ∈ U
  written : ∀ v b, log v = some b → ∃ p, tr v = some p ∧ c p = b
  changed : ∀ p, c p ≠ c₀ p → ∃ v b, log v = some b ∧ tr v = some p

lemma Holds.initial (c : P → B) (h : Faithful U tr) : Holds U tr c c (fun _ => none) :=
  ⟨h,nofun,nofun,fun _ hne => absurd rfl hne⟩

lemma Holds.extend (h : Holds U tr c₀ c log) (hf : Faithful U tr')
    (hg : ∀ v p, tr v = some p → tr' v = some p) : Holds U tr' c₀ c log := by
  refine ⟨hf,h.touched,fun v b hl => ?_,fun p hne => ?_⟩
  · obtain ⟨p,htr,hc⟩ := h.written v b hl
    exact ⟨p,hg v p htr,hc⟩
  · obtain ⟨v,b,hl,htr⟩ := h.changed p hne
    exact ⟨v,b,hl,hg v p htr⟩

lemma Holds.write [DecidableEq V] [DecidableEq P] (h : Holds U tr c₀ c log) (hv : v ∈ U)
    (htr : tr v = some p) (b : B) :
    Holds U tr c₀ (update c p b) (update log v (some b)) := by
  refine ⟨h.faithful,fun w b' hl => ?_,fun w b' hl => ?_,fun q hne => ?_⟩
  · by_cases hw : w = v
    · exact hw ▸ hv
    · rw [update_of_ne hw] at hl
      exact h.touched w b' hl
  · by_cases hw : w = v
    · subst hw
      rw [update_self] at hl
      exact ⟨p,htr,by rw [update_self,Option.some.inj hl]⟩
    · rw [update_of_ne hw] at hl
      obtain ⟨q,hq,hc⟩ := h.written w b' hl
      have hqp : q ≠ p := fun heq => hw (h.faithful w (h.touched w b' hl) v hv p (heq ▸ hq) htr)
      exact ⟨q,hq,by rw [update_of_ne hqp,hc]⟩
  · by_cases hq : q = p
    · exact ⟨v,b,update_self .. ,hq ▸ htr⟩
    · rw [update_of_ne hq] at hne
      obtain ⟨w,b',hl,hw⟩ := h.changed q hne
      have hwv : w ≠ v := fun heq => hq (Option.some.inj (by rw [← hw,heq,htr]))
      exact ⟨w,b',by rw [update_of_ne hwv,hl],hw⟩

lemma Holds.untouched (h : Holds U tr c₀ c log) (hv : v ∈ U) (hl : log v = none)
    (htr : tr v = some p) : c p = c₀ p := by
  by_contra hne
  obtain ⟨w,b,hw,hwp⟩ := h.changed p hne
  have heq := h.faithful w (h.touched w b hw) v hv p hwp htr
  rw [heq,hl] at hw
  cases hw

end Translated
