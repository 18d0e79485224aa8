import Mathlib.Tactic.Common

def Fallible (S E A : Type) : Type := S → Except E A × S

namespace Fallible

variable {S E A B : Type}

instance : Monad (Fallible S E) where
  pure a := fun s => (.ok a,s)
  bind x f := fun s =>
    match x s with
    | (.ok a,t) => f a t
    | (.error e,t) => (.error e,t)

def fail (e : E) : Fallible S E A := fun s => (.error e,s)

def asks (f : S → A) : Fallible S E A := fun s => (.ok (f s),s)

def update (f : S → S) : Fallible S E Unit := fun s => (.ok (),f s)

def attempt (x : Fallible S E A) : Fallible S E (Except E A) := fun s => (.ok (x s).1,(x s).2)

variable {x : Fallible S E A} {f : A → Fallible S E B} {s t u : S} {a : A} {b : B} {e : E}

lemma bind_of_ok (h : x s = (.ok a,t)) : (x >>= f) s = f a t := by
  change (match x s with | (.ok a,t) => f a t | (.error e,t) => (.error e,t)) = _
  rw [h]

lemma bind_of_error (h : x s = (.error e,t)) : (x >>= f) s = (.error e,t) := by
  change (match x s with | (.ok a,t) => f a t | (.error e,t) => (.error e,t)) = _
  rw [h]

lemma attempt_of {r : Except E A} (h : x s = (r,t)) : attempt x s = (.ok r,t) := by
  rw [attempt,h]

lemma asks_bind {g : S → A} : (asks g >>= f) s = f (g s) s := bind_of_ok rfl

lemma update_bind {g : S → S} {f : Unit → Fallible S E B} : (update g >>= f) s = f () (g s) :=
  bind_of_ok rfl

lemma bind_ok : (x >>= f) s = (.ok b,u) ↔ ∃ a t, x s = (.ok a,t) ∧ f a t = (.ok b,u) := by
  constructor
  · intro h
    rcases hx : x s with ⟨r,t⟩
    cases r with
    | error e =>
      rw [bind_of_error hx] at h
      cases h
    | ok a => exact ⟨a,t,rfl,(bind_of_ok hx).symm.trans h⟩
  · rintro ⟨a,t,hx,hf⟩
    rw [bind_of_ok hx]
    exact hf

instance : LawfulMonad (Fallible S E) := by
  refine LawfulMonad.mk' _ (fun x => ?_) (fun a f => rfl) fun x f g => ?_
  · funext s
    change (match x s with | (.ok a,t) => (.ok a,t) | (.error e,t) => (.error e,t)) = x s
    rcases x s with ⟨r,t⟩
    cases r <;> rfl
  · funext s
    rcases hx : x s with ⟨r,t⟩
    cases r with
    | error e => rw [bind_of_error (bind_of_error hx),bind_of_error hx]
    | ok a =>
      rw [bind_of_ok (f := fun a => f a >>= g) hx]
      change (match (x >>= f) s with | (.ok b,u) => g b u | (.error e,u) => (.error e,u)) = _
      rw [bind_of_ok hx]
      rfl

lemma bind_error : ((x >>= f) s).1 = .error e ↔
    (x s).1 = .error e ∨ ∃ a t, x s = (.ok a,t) ∧ (f a t).1 = .error e := by
  rcases hx : x s with ⟨r,t⟩
  cases r with
  | error e' =>
    rw [bind_of_error hx]
    simp
  | ok a =>
    rw [bind_of_ok hx]
    constructor
    · exact fun h => .inr ⟨a,t,rfl,h⟩
    · rintro (h | ⟨a',t',h,hf⟩)
      · cases h
      · cases h
        exact hf

lemma foldlM_error {f : B → A → Fallible S E B} {l : List A} {b : B} :
    (l.foldlM f b s).1 = .error e ↔ ∃ i, ∃ h, ∃ b' t,
      (l.take i).foldlM f b s = (.ok b',t) ∧ (f b' l[i] t).1 = .error e := by
  induction l generalizing b s with
  | nil =>
    constructor
    · intro h
      cases h
    · rintro ⟨i,h,_⟩
      exact absurd h (Nat.not_lt_zero i)
  | cons a l ih =>
    rw [List.foldlM_cons,bind_error]
    constructor
    · rintro (h | ⟨b',t,hb,h⟩)
      · exact ⟨0,Nat.succ_pos _,b,s,rfl,h⟩
      · obtain ⟨i,hi,b'',t',ht,hf⟩ := ih.mp h
        refine ⟨i + 1,Nat.succ_lt_succ hi,b'',t',?_,hf⟩
        rw [List.take_succ_cons,List.foldlM_cons,bind_of_ok hb]
        exact ht
    · rintro ⟨i,hi,b',t,ht,hf⟩
      cases i with
      | zero =>
        cases ht
        exact .inl hf
      | succ i =>
        rw [List.take_succ_cons,List.foldlM_cons,bind_ok] at ht
        obtain ⟨b₁,t₁,hb,ht⟩ := ht
        exact .inr ⟨b₁,t₁,hb,ih.mpr ⟨i,Nat.lt_of_succ_lt_succ hi,b',t,ht,hf⟩⟩

end Fallible
