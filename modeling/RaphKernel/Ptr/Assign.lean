import RaphKernel.Ptr.Sptr

namespace Ptr
open Counting

inductive Fault where
  | freedHelper
  | freedStorage
  deriving DecidableEq

abbrev Result := Option (Except Fault Heap)

def Result.ok (m : Heap) : Result := some (.ok m)

def Result.fault (f : Fault) : Result := some (.error f)

def Result.andThen (r : Result) (f : Heap → Result) : Result :=
  match r with
  | some (.ok m) => f m
  | some (.error e) => some (.error e)
  | none => none

lemma Result.andThen_ok {r : Result} {f : Heap → Result} {m : Heap} :
    r.andThen f = .ok m ↔ ∃ d, r = .ok d ∧ f d = .ok m := by
  constructor
  · intro h
    cases r with
    | none => cases h
    | some x =>
      cases x with
      | error e => cases h
      | ok d => exact ⟨d,rfl,h⟩
  · rintro ⟨d,rfl,h⟩
    exact h

namespace Heap

def dropWeak (m : Heap) (h : Handle) : Result :=
  if m.helperDeleted h ≠ 0 then .fault .freedHelper
  else
    let tmp := m.weakCnt h
    let m := m.setCnt .wptr h (tmp - 1)
    .ok (if tmp = 1 then m.deleteHelper h else m)

def releaseWith (destroy : List Var → Heap → Result) (members : Handle → List Var) (v : Var)
    (m : Heap) : Result :=
  match m.slot v with
  | .none => .fault .freedStorage
  | .sptr none => .ok m
  | .wptr none => .ok m
  | .wptr (some h) => m.dropWeak h
  | .sptr (some h) =>
    if m.helperDeleted h ≠ 0 then .fault .freedHelper
    else
      let tmp := m.sharedCnt h
      let m := m.setCnt .sptr h (tmp - 1)
      if tmp = 1 then
        (destroy (members h) m).andThen fun m =>
          let m := m.deleteObj h
          if m.slot v = .none then .fault .freedStorage else m.dropWeak h
      else .ok m

def destroyVars (members : Handle → List Var) : ℕ → List Var → Heap → Result
  | _, [], m => .ok m
  | 0, _ :: _, _ => none
  | fuel + 1, v :: vs, m =>
    (releaseWith (destroyVars members fuel) members v m).andThen fun m =>
      destroyVars members fuel vs (m.put v .none)

def release (members : Handle → List Var) (fuel : ℕ) (v : Var) (m : Heap) : Result :=
  releaseWith (destroyVars members fuel) members v m

def retain (m : Heap) (k : Kind) (p : Var) (h : Handle) : Result :=
  if m.helperDeleted h ≠ 0 then .fault .freedHelper
  else .ok ((m.setCnt k h (m.cnt k h + 1)).put p (k.slot (some h)))

def assign (members : Handle → List Var) (fuel : ℕ) (p q : Var) (m : Heap) : Result :=
  (m.release members fuel p).andThen fun m =>
    match m.slot q with
    | .none => .fault .freedStorage
    | .sptr none => .ok (m.put p (.sptr none))
    | .wptr none => .ok (m.put p (.wptr none))
    | .sptr (some h) => m.retain .sptr p h
    | .wptr (some h) => m.retain .wptr p h

end Heap

inductive Doomed (members : Handle → List Var) (m : Heap) (p : Var) : Handle → Prop where
  | mk {g : Handle} (home : Var → Handle) : m.sharedCnt g ≠ 0 →
    (∀ v, m.slot v = .sptr (some g) → v ≠ p → v ∈ members (home v)) →
    (∀ v, m.slot v = .sptr (some g) → v ≠ p → Doomed members m p (home v)) →
    Doomed members m p g

structure GraphOk (members : Handle → List Var) (m : Heap) : Prop where
  shared : ∀ g, Counts m.slot (· = .sptr (some g)) (m.sharedCnt g).toNat
  bounded : ∀ g, (m.sharedCnt g).toNat < 2 ^ 31
  weak : ∀ g, ∃ n, Counts m.slot (· = .wptr (some g)) n ∧
    (m.weakCnt g).toNat = n + if m.sharedCnt g ≠ 0 then 1 else 0
  obj : ∀ g, m.sharedCnt g ≠ 0 → m.objDeleted g = 0
  helper : ∀ g, m.weakCnt g ≠ 0 → m.helperDeleted g = 0
  storage : ∀ g, m.sharedCnt g ≠ 0 → ∀ v ∈ members g, m.slot v ≠ .none
  homes : ∀ g h v, v ∈ members g → v ∈ members h → g = h
  nodup : ∀ g, (members g).Nodup
  finite : ∀ g, m.used ≤ g → m.sharedCnt g = 0

structure Assigned (m m' : Heap) (p q : Var) : Prop where
  slot : m'.slot p = m.slot q
  alive : ∀ g, m.slot q = .sptr (some g) → m'.objDeleted g = 0 ∧ m'.helperDeleted g = 0
  counted : ∀ g, m.slot q = .sptr (some g) → ∃ n : ℕ, Counts m'.slot (· = .sptr (some g)) n ∧
    (m'.sharedCnt g).toInt = n

structure Rewatched (m m' : Heap) (w : Var) : Prop where
  slot : m'.slot w = m.slot w
  alive : ∀ g, m.slot w = .wptr (some g) → m'.helperDeleted g = 0
  counted : ∀ g, m.slot w = .wptr (some g) → m'.weakCnt g = m.weakCnt g

def Clear (members : Handle → List Var) (m : Heap) (p q : Var) : Prop :=
  ∀ g, Doomed members m p g → q ≠ p ∧ q ∉ members g ∧ p ∉ members g

def Room (members : Handle → List Var) (m : Heap) (p q : Var) : Prop :=
  ∀ g, m.slot q = .sptr (some g) → (m.sharedCnt g).toNat + 1 < 2 ^ 31 ∨
    ∃ v, m.slot v = .sptr (some g) ∧ (v = p ∨ ∃ h, Doomed members m p h ∧ v ∈ members h)

end Ptr
