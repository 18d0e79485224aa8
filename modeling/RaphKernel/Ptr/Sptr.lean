import RaphKernel.Library.Counting

namespace Ptr
open Function

abbrev Var := ℕ

abbrev Handle := ℕ

abbrev Cnt := BitVec 32

inductive Slot where
  | none
  | sptr (helper : Option Handle)
  | wptr (helper : Option Handle)
  deriving DecidableEq

inductive Kind where
  | sptr
  | wptr
  deriving DecidableEq

def Kind.slot : Kind → Option Handle → Slot
  | .sptr => .sptr
  | .wptr => .wptr

inductive Construct where
  | sptrOfSptr
  | sptrOfWptr
  | wptrOfWptr
  | wptrOfSptr
  deriving DecidableEq

namespace Construct

def source : Construct → Kind
  | .sptrOfSptr => .sptr
  | .sptrOfWptr => .wptr
  | .wptrOfWptr => .wptr
  | .wptrOfSptr => .sptr

def result : Construct → Kind
  | .sptrOfSptr => .sptr
  | .sptrOfWptr => .sptr
  | .wptrOfWptr => .wptr
  | .wptrOfSptr => .wptr

end Construct

def Kind.copy : Kind → Construct
  | .sptr => .sptrOfSptr
  | .wptr => .wptrOfWptr

inductive Pc where
  | idle
  | incLoad (f : Construct) (dst src : Var) (helper : Handle)
  | incCas (f : Construct) (dst src : Var) (helper : Handle) (tmp : Cnt)
  | decLoad (dst : Var) (helper : Handle) (next : Option Var)
  | decCas (dst : Var) (helper : Handle) (next : Option Var) (tmp : Cnt)
  | deleteObj (dst : Var) (helper : Handle) (next : Option Var)
  | weakLoad (k : Kind) (dst : Var) (helper : Handle) (next : Option Var)
  | weakCas (k : Kind) (dst : Var) (helper : Handle) (next : Option Var) (tmp : Cnt)
  | deleteHelper (k : Kind) (dst : Var) (helper : Handle) (next : Option Var)
  | assign (k : Kind) (dst src : Var)

namespace Pc

def vars : Pc → List Var
  | .idle => []
  | .incLoad _ d s _ => [d,s]
  | .incCas _ d s _ _ => [d,s]
  | .decLoad d _ next => d :: next.toList
  | .decCas d _ next _ => d :: next.toList
  | .deleteObj d _ next => d :: next.toList
  | .weakLoad _ d _ next => d :: next.toList
  | .weakCas _ d _ next _ => d :: next.toList
  | .deleteHelper _ d _ next => d :: next.toList
  | .assign _ d s => [d,s]

def release : Kind → Var → Handle → Option Var → Pc
  | .sptr => .decLoad
  | .wptr => .weakLoad .wptr

def released (k : Kind) (d : Var) : Option Var → Pc
  | none => .idle
  | some s => .assign k d s

end Pc

inductive Event where
  | promoted (helper : Handle) (owned : Bool)

def Construct.event (f : Construct) (helper : Handle) (owned : Bool) : Option Event :=
  if f = .sptrOfWptr then some (.promoted helper owned) else none

structure Heap where
  sharedCnt : Handle → Cnt
  weakCnt : Handle → Cnt
  slot : Var → Slot
  used : ℕ
  objDeleted : Handle → ℕ
  helperDeleted : Handle → ℕ

namespace Heap

def put (m : Heap) (v : Var) (x : Slot) : Heap := { m with slot := update m.slot v x }

lemma put_slot (m : Heap) (v : Var) (x : Slot) : (m.put v x).slot = update m.slot v x := rfl

def cnt (m : Heap) : Kind → Handle → Cnt
  | .sptr => m.sharedCnt
  | .wptr => m.weakCnt

def setCnt (m : Heap) : Kind → Handle → Cnt → Heap
  | .sptr, h, n => { m with sharedCnt := update m.sharedCnt h n }
  | .wptr, h, n => { m with weakCnt := update m.weakCnt h n }

def newHelper (m : Heap) : Heap :=
  { m with
    sharedCnt := update m.sharedCnt m.used 1
    weakCnt := update m.weakCnt m.used 1
    used := m.used + 1 }

def deleteObj (m : Heap) (h : Handle) : Heap :=
  { m with objDeleted := update m.objDeleted h (m.objDeleted h + 1) }

def deleteHelper (m : Heap) (h : Handle) : Heap :=
  { m with helperDeleted := update m.helperDeleted h (m.helperDeleted h + 1) }

end Heap

inductive Exec (m : Heap) : Pc → List Var → Option Event → Heap → Pc → Prop
  | sptrOfObj (d : Var) : m.slot d = .none →
      Exec m .idle [d] none (m.newHelper.put d (.sptr (some m.used))) .idle
  | default (k : Kind) (d : Var) : m.slot d = .none →
      Exec m .idle [d] none (m.put d (k.slot none)) .idle
  | constructNull (f : Construct) (d s : Var) : m.slot d = .none → m.slot s = f.source.slot none →
      Exec m .idle [d,s] none (m.put d (f.result.slot none)) .idle
  | construct (f : Construct) (d s : Var) (h : Handle) : m.slot d = .none →
      m.slot s = f.source.slot (some h) → Exec m .idle [d,s] none m (.incLoad f d s h)
  | destroyNull (k : Kind) (d : Var) : m.slot d = k.slot none →
      Exec m .idle [d] none (m.put d .none) .idle
  | destroy (k : Kind) (d : Var) (h : Handle) : m.slot d = k.slot (some h) →
      Exec m .idle [d] none m (.release k d h none)
  | assignNull (k : Kind) (d s : Var) (p : Option Handle) : d ≠ s → m.slot d = k.slot none →
      m.slot s = k.slot p → Exec m .idle [d,s] none (m.put d .none) (.assign k d s)
  | assign (k : Kind) (d s : Var) (h : Handle) (p : Option Handle) : d ≠ s →
      m.slot d = k.slot (some h) → m.slot s = k.slot p →
      Exec m .idle [d,s] none m (.release k d h (some s))
  | incZero (d s : Var) (h : Handle) : m.sharedCnt h = 0 →
      Exec m (.incLoad .sptrOfWptr d s h) [] (some (.promoted h false)) (m.put d (.sptr none)) .idle
  | incLoad (f : Construct) (d s : Var) (h : Handle) :
      (f = .sptrOfWptr → m.sharedCnt h ≠ 0) →
      Exec m (.incLoad f d s h) [] none m (.incCas f d s h (m.cnt f.result h))
  | incCas (f : Construct) (d s : Var) (h : Handle) (tmp : Cnt) : m.cnt f.result h = tmp →
      Exec m (.incCas f d s h tmp) [] (f.event h true)
        ((m.setCnt f.result h (tmp + 1)).put d (f.result.slot (some h))) .idle
  | incFail (f : Construct) (d s : Var) (h : Handle) (tmp : Cnt) : m.cnt f.result h ≠ tmp →
      Exec m (.incCas f d s h tmp) [] none m (.incLoad f d s h)
  | decLoad (d : Var) (h : Handle) (next : Option Var) :
      Exec m (.decLoad d h next) [] none m (.decCas d h next (m.sharedCnt h))
  | decCas (d : Var) (h : Handle) (next : Option Var) (tmp : Cnt) : m.sharedCnt h = tmp →
      Exec m (.decCas d h next tmp) [] none ((m.setCnt .sptr h (tmp - 1)).put d .none)
        (if tmp = 1 then .deleteObj d h next else .released .sptr d next)
  | decFail (d : Var) (h : Handle) (next : Option Var) (tmp : Cnt) : m.sharedCnt h ≠ tmp →
      Exec m (.decCas d h next tmp) [] none m (.decLoad d h next)
  | deleteObj (d : Var) (h : Handle) (next : Option Var) :
      Exec m (.deleteObj d h next) [] none (m.deleteObj h) (.weakLoad .sptr d h next)
  | weakLoad (k : Kind) (d : Var) (h : Handle) (next : Option Var) :
      Exec m (.weakLoad k d h next) [] none m (.weakCas k d h next (m.weakCnt h))
  | weakCas (k : Kind) (d : Var) (h : Handle) (next : Option Var) (tmp : Cnt) : m.weakCnt h = tmp →
      Exec m (.weakCas k d h next tmp) [] none ((m.setCnt .wptr h (tmp - 1)).put d .none)
        (if tmp = 1 then .deleteHelper k d h next else .released k d next)
  | weakFail (k : Kind) (d : Var) (h : Handle) (next : Option Var) (tmp : Cnt) : m.weakCnt h ≠ tmp →
      Exec m (.weakCas k d h next tmp) [] none m (.weakLoad k d h next)
  | deleteHelper (k : Kind) (d : Var) (h : Handle) (next : Option Var) :
      Exec m (.deleteHelper k d h next) [] none (m.deleteHelper h) (.released k d next)
  | copyNull (k : Kind) (d s : Var) : m.slot s = k.slot none →
      Exec m (.assign k d s) [] none (m.put d (k.slot none)) .idle
  | copy (k : Kind) (d s : Var) (h : Handle) : m.slot s = k.slot (some h) →
      Exec m (.assign k d s) [] none m (.incLoad k.copy d s h)

structure State where
  heap : Heap
  pc : ℕ → Pc

inductive Step (s : State) : Option Event → State → Prop
  | act (a : ℕ) {vs : List Var} {e : Option Event} {m : Heap} {p : Pc} :
      Exec s.heap (s.pc a) vs e m p → (∀ b, b ≠ a → ∀ v ∈ vs, v ∉ (s.pc b).vars) →
      Step s e ⟨m,update s.pc a p⟩

def boot : State :=
  ⟨⟨fun _ => 0,fun _ => 0,fun _ => .none,0,fun _ => 0,fun _ => 0⟩,fun _ => .idle⟩

end Ptr
