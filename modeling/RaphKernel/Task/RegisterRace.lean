import RaphKernel.Task.Client

namespace Tasks.RegisterRace
open Raph Function
open Links

inductive RegPc where
  | idle
  | check (cpuid : CpuId)
  | lock (cpuid : CpuId)
  | test (cpuid : CpuId)
  | clear (cpuid : CpuId)
  | mark (cpuid : CpuId)
  | own (cpuid : CpuId)
  | link (cpuid : CpuId)
  | back (cpuid : CpuId)
  | last (cpuid : CpuId)
  | unlock (cpuid : CpuId)
  | panicked
  deriving DecidableEq, Repr

inductive SchedPc where
  | idle
  | popStatus
  | popNext
  | popPrev
  | exec
  | finish
  deriving DecidableEq, Repr

def RegPc.holds : RegPc → Option CpuId
  | .test k | .clear k | .mark k | .own k | .link k | .back k | .last k | .unlock k => some k
  | _ => none

def RegPc.inside : RegPc → Bool
  | .clear _ | .mark _ | .own _ | .link _ | .back _ | .last _ => true
  | _ => false

def SchedPc.inside : SchedPc → Bool
  | .popStatus | .popNext | .popPrev | .finish => true
  | _ => false

structure State where
  ctrl : TaskCtrl
  task : ℕ
  reg : ℕ → RegPc
  sched : CpuId → SchedPc

def boot (ctrl : TaskCtrl) (task : ℕ) : State := ⟨ctrl,task,fun _ => .idle,fun _ => .idle⟩

inductive Other (t : TaskPtr) (c : TaskCtrl) : CpuId → TaskCtrl → Prop where
  | register (j : CpuId) (id : ℕ) : .task id ≠ t → Other t c j (c.enqueue j (.task id))
  | pop (j : CpuId) {u : TaskPtr} {c' : TaskCtrl} : u ≠ t → c.popTask j = .ok (some u,c') →
    Other t c j c'
  | finish (j : CpuId) (u : TaskPtr) : u ≠ t → Other t c j (c.finishTask u)
  | swap (j : CpuId) : Other t c j (c.swapQueues j).2
  | state (j : CpuId) (st : TaskQueueState) : Other t c j (c.setState j st)

namespace State

def ptr (s : State) : TaskPtr := .task s.task

def status (s : State) : Status := s.ctrl.status s.ptr

def setReg (s : State) (i : ℕ) (p : RegPc) : State := { s with reg := update s.reg i p }

def setSched (s : State) (k : CpuId) (p : SchedPc) : State :=
  { s with sched := update s.sched k p }

def setNext (s : State) (x : TaskPtr) (y : Option TaskPtr) : State :=
  { s with ctrl := { s.ctrl with next := update s.ctrl.next x y } }

def setPrev (s : State) (x : TaskPtr) (y : Option TaskPtr) : State :=
  { s with ctrl := { s.ctrl with prev := update s.ctrl.prev x y } }

def setStatus (s : State) (x : TaskPtr) (st : Status) : State :=
  { s with ctrl := { s.ctrl with status := update s.ctrl.status x st } }

def setCpuid (s : State) (x : TaskPtr) (k : CpuId) : State :=
  { s with ctrl := { s.ctrl with taskCpuid := update s.ctrl.taskCpuid x k } }

def setBottomSub (s : State) (k : CpuId) (x : TaskPtr) : State :=
  { s with ctrl := { s.ctrl with bottomSub := update s.ctrl.bottomSub k x } }

def unlink (s : State) (c : TaskCtrl) : State :=
  { s with ctrl := { c with
    status := update c.status s.ptr s.status
    next := update c.next s.ptr (s.ctrl.next s.ptr)
    prev := update c.prev s.ptr (s.ctrl.prev s.ptr) } }

def LockFree (s : State) (k : CpuId) : Prop :=
  (∀ i, (s.reg i).holds ≠ some k) ∧ (s.sched k).inside = false

end State

inductive Step (s : State) : Bool → State → Prop where
  | call (i : ℕ) (k : CpuId) : s.reg i = .idle → Step s false (s.setReg i (.check k))
  | check (i : ℕ) {k : CpuId} : s.reg i = .check k → s.status ≠ .waitingInQueue →
    Step s false (s.setReg i (.lock k))
  | panic (i : ℕ) {k : CpuId} : s.reg i = .check k → s.status = .waitingInQueue →
    Step s false (s.setReg i .panicked)
  | lock (i : ℕ) {k : CpuId} : s.reg i = .lock k → s.LockFree k →
    Step s false (s.setReg i (.test k))
  | skip (i : ℕ) {k : CpuId} : s.reg i = .test k → s.status = .waitingInQueue →
    Step s false (s.setReg i (.unlock k))
  | pass (i : ℕ) {k : CpuId} : s.reg i = .test k → s.status ≠ .waitingInQueue →
    Step s true (s.setReg i (.clear k))
  | clear (i : ℕ) {k : CpuId} : s.reg i = .clear k →
    Step s false ((s.setNext s.ptr none).setReg i (.mark k))
  | mark (i : ℕ) {k : CpuId} : s.reg i = .mark k →
    Step s false ((s.setStatus s.ptr .waitingInQueue).setReg i (.own k))
  | own (i : ℕ) {k : CpuId} : s.reg i = .own k →
    Step s false ((s.setCpuid s.ptr k).setReg i (.link k))
  | link (i : ℕ) {k : CpuId} : s.reg i = .link k →
    Step s false ((s.setNext (s.ctrl.bottomSub k) (some s.ptr)).setReg i (.back k))
  | back (i : ℕ) {k : CpuId} : s.reg i = .back k →
    Step s false ((s.setPrev s.ptr (some (s.ctrl.bottomSub k))).setReg i (.last k))
  | last (i : ℕ) {k : CpuId} : s.reg i = .last k →
    Step s false ((s.setBottomSub k s.ptr).setReg i (.unlock k))
  | unlock (i : ℕ) {k : CpuId} : s.reg i = .unlock k → Step s false (s.setReg i .idle)
  | pop (k : CpuId) {c : TaskCtrl} : s.sched k = .idle → s.LockFree k →
    s.ctrl.popTask k = .ok (some s.ptr,c) → Step s false ((s.unlink c).setSched k .popStatus)
  | popStatus (k : CpuId) : s.sched k = .popStatus →
    Step s false ((s.setStatus s.ptr .running).setSched k .popNext)
  | popNext (k : CpuId) : s.sched k = .popNext →
    Step s false ((s.setNext s.ptr none).setSched k .popPrev)
  | popPrev (k : CpuId) : s.sched k = .popPrev →
    Step s false ((s.setPrev s.ptr none).setSched k .exec)
  | finishTest (k : CpuId) : s.sched k = .exec → s.LockFree k → s.status = .running →
    Step s true (s.setSched k .finish)
  | finishSkip (k : CpuId) : s.sched k = .exec → s.LockFree k → s.status ≠ .running →
    Step s false (s.setSched k .idle)
  | finish (k : CpuId) : s.sched k = .finish →
    Step s false ((s.setStatus s.ptr .outOfQueue).setSched k .idle)
  | other (j : CpuId) {c : TaskCtrl} : s.LockFree j → Other s.ptr s.ctrl j c →
    Step s false { s with ctrl := c }

def Alone (s : State) : Prop :=
  (∀ i, (s.reg i).inside = false) ∧ ∀ k, (s.sched k).inside = false

inductive Run (s₀ : State) : State → Prop where
  | refl : Run s₀ s₀
  | step {s s' : State} {tested : Bool} : Run s₀ s → Step s tested s' →
    (tested = true → Alone s) → Run s₀ s'

section

def walk (next : TaskPtr → Option TaskPtr) : ℕ → TaskPtr → Option TaskPtr
  | 0, x => next x
  | n + 1, x => (next x).bind (walk next n)

def At (c : TaskCtrl) (t : TaskPtr) (q : QueueId) (n : ℕ) : Prop :=
  walk c.next n (c.head q) = some t

def OnQueue (c : TaskCtrl) (q : QueueId) (x : TaskPtr) : Prop := x = c.head q ∨ ∃ n, At c x q n

structure Placed (c : TaskCtrl) (t : TaskPtr) : Prop where
  once : ∀ q r m n, At c t q m → At c t r n → q = r ∧ m = n
  next : ∀ x, c.next t = some x → ∃ q, q.1 = c.taskCpuid t ∧ OnQueue c q x
  prev : ∀ x, c.prev t = some x → ∃ q, q.1 = c.taskCpuid t ∧ OnQueue c q x

lemma walk_sll {next : TaskPtr → Option TaskPtr} {head : TaskPtr} {l : List TaskPtr}
    (h : Follows next head l) (hs : next (final head l) = none) (n : ℕ) :
    walk next n head = l[n]? := by
  induction l generalizing head n with
  | nil => cases n <;> simp [walk,show next head = none from hs]
  | cons x rest ih =>
    cases n with
    | zero => simp [walk,h.1]
    | succ n => simpa [walk,h.1] using ih h.2 hs n

variable {c : TaskCtrl} {t x : TaskPtr} {queue : QueueId → List TaskPtr} {q : QueueId}

section
variable (h : ∀ q, Sll c.next (c.head q) (queue q))
include h

lemma at_iff {n : ℕ} : At c x q n ↔ (queue q)[n]? = some x := by
  rw [At,walk_sll (h q).linked (h q).stop]

lemma onQueue_of_mem (hx : x ∈ c.head q :: queue q) : OnQueue c q x := by
  rcases List.mem_cons.mp hx with rfl | hx
  · exact .inl rfl
  · obtain ⟨n,hn⟩ := List.mem_iff_getElem?.mp hx
    exact .inr ⟨n,(at_iff h).mpr hn⟩

lemma placed_of (ho : ∀ q r, t ∈ queue q → t ∈ queue r → q = r)
    (hne : ∀ x, c.next t = some x → ∃ q, q.1 = c.taskCpuid t ∧ x ∈ c.head q :: queue q)
    (hp : ∀ x, c.prev t = some x → ∃ q, q.1 = c.taskCpuid t ∧ x ∈ c.head q :: queue q) :
    Placed c t where
  once := fun q r m n hm hn => by
    rw [at_iff h] at hm hn
    obtain rfl := ho q r (List.mem_of_getElem? hm) (List.mem_of_getElem? hn)
    refine ⟨rfl,?_⟩
    have hlt : m < (queue q).length := (List.getElem?_eq_some_iff.mp hm).1
    exact (List.getElem?_inj hlt (List.nodup_cons.mp (h q).nodup).2).mp (hm.trans hn.symm)
  next := fun x hx => by
    obtain ⟨q,hq,hme⟩ := hne x hx
    exact ⟨q,hq,onQueue_of_mem h hme⟩
  prev := fun x hx => by
    obtain ⟨q,hq,hme⟩ := hp x hx
    exact ⟨q,hq,onQueue_of_mem h hme⟩

end

end

end Tasks.RegisterRace
