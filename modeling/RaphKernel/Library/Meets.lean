import RaphKernel.Library.Fallible

namespace Fallible
variable {S E A B : Type} {Q R : A → S → Prop} {x y : Fallible S E A} {s t : S} {a : A} {e : E}

def Meets (Q : A → S → Prop) (x : Fallible S E A) (s : S) : Prop := ∃ a t, x s = (.ok a,t) ∧ Q a t

lemma meets_of_ok (h : x s = (.ok a,t)) : Meets Q x s ↔ Q a t := by
  constructor
  · rintro ⟨a',t',h',hQ⟩
    cases h.symm.trans h'
    exact hQ
  · exact fun hQ => ⟨a,t,h,hQ⟩

lemma meets_of_error (h : x s = (.error e,t)) : ¬ Meets Q x s := by
  rintro ⟨a,t',h',_⟩
  cases h.symm.trans h'

@[simp] lemma meets_pure : Meets Q (pure a : Fallible S E A) s ↔ Q a s := meets_of_ok rfl

@[simp] lemma meets_fail : ¬ Meets Q (fail e : Fallible S E A) s := meets_of_error rfl

@[simp] lemma meets_update {Q : Unit → S → Prop} {f : S → S} :
    Meets Q (update f : Fallible S E Unit) s ↔ Q () (f s) := meets_of_ok rfl

@[simp] lemma meets_bind {Q : B → S → Prop} {f : A → Fallible S E B} :
    Meets Q (x >>= f) s ↔ Meets (fun a t => Meets Q (f a) t) x s := by
  rcases hx : x s with ⟨r,t⟩
  cases r with
  | error e => exact iff_of_false (meets_of_error (bind_of_error hx)) (meets_of_error hx)
  | ok a =>
    rw [meets_of_ok hx,Meets,bind_of_ok hx]
    exact Iff.rfl

@[simp] lemma meets_map {Q : B → S → Prop} {f : A → B} :
    Meets Q (f <$> x) s ↔ Meets (fun a t => Q (f a) t) x s := by
  rw [map_eq_pure_bind,meets_bind]
  simp

@[simp] lemma meets_ite {c : Prop} [Decidable c] :
    Meets Q (if c then x else y) s ↔ if c then Meets Q x s else Meets Q y s := by
  split_ifs <;> exact Iff.rfl

@[simp] lemma meets_and {C : Prop} : Meets (fun a t => Q a t ∧ C) x s ↔ Meets Q x s ∧ C := by
  constructor
  · rintro ⟨a,t,h,hQ,hC⟩
    exact ⟨⟨a,t,h,hQ⟩,hC⟩
  · rintro ⟨⟨a,t,h,hQ⟩,hC⟩
    exact ⟨a,t,h,hQ,hC⟩

lemma meets_congr (h : ∀ a t, Q a t ↔ R a t) : Meets Q x s ↔ Meets R x s :=
  exists_congr fun a => exists_congr fun t => and_congr_right fun _ => h a t

end Fallible
