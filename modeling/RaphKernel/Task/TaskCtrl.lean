import RaphKernel.Library.Loop
import RaphKernel.Timer

namespace Tasks
open Raph Function
open Timer

abbrev CpuId := ℕ

inductive TaskPtr where
  | guard (cpuid : CpuId) (sub : Bool)
  | task (id : ℕ)
  deriving DecidableEq, Repr

inductive CalloutPtr where
  | guard (cpuid : CpuId)
  | callout (id : ℕ)
  deriving DecidableEq, Repr

inductive Status where
  | running
  | waitingInQueue
  | outOfQueue
  | guard
  deriving DecidableEq, Repr

inductive CalloutState where
  | calloutQueue
  | taskQueue
  | handling
  | stopped
  deriving DecidableEq, Repr

inductive TaskQueueState where
  | notStarted
  | notRunning
  | running
  | slept
  deriving DecidableEq, Repr

inductive TaskFunc where
  | empty
  | user
  | handleSub (callout : CalloutPtr)
  deriving DecidableEq, Repr

structure TaskCtrl where
  next : TaskPtr → Option TaskPtr
  prev : TaskPtr → Option TaskPtr
  taskCpuid : TaskPtr → CpuId
  status : TaskPtr → Status
  func : TaskPtr → TaskFunc
  top : CpuId → TaskPtr
  bottom : CpuId → TaskPtr
  topSub : CpuId → TaskPtr
  bottomSub : CpuId → TaskPtr
  state : CpuId → TaskQueueState
  dtop : CpuId → CalloutPtr
  calloutTask : CalloutPtr → TaskPtr
  calloutNext : CalloutPtr → Option CalloutPtr
  calloutTime : CalloutPtr → Word
  calloutCpuid : CalloutPtr → CpuId
  calloutPending : CalloutPtr → Bool
  calloutState : CalloutPtr → CalloutState

def kTaskExecutionInterval : BitVec 32 := 1000

namespace TaskCtrl

def setup (c : TaskCtrl) : TaskCtrl :=
  { c with
    next := fun _ => none
    prev := fun _ => none
    status := fun
      | .guard _ _ => .guard
      | .task _ => .outOfQueue
    top := fun cpuid => .guard cpuid false
    bottom := fun cpuid => .guard cpuid false
    topSub := fun cpuid => .guard cpuid true
    bottomSub := fun cpuid => .guard cpuid true
    state := fun _ => .notStarted
    dtop := fun cpuid => .guard cpuid
    calloutNext := fun _ => none
    calloutPending := fun _ => false
    calloutState := fun _ => .stopped }

def enqueue (c : TaskCtrl) (cpuid : CpuId) (task : TaskPtr) : TaskCtrl :=
  if c.status task = .waitingInQueue then c
  else
    let bottomSub := c.bottomSub cpuid
    { c with
      next := update (update c.next task none) bottomSub (some task)
      status := update c.status task .waitingInQueue
      taskCpuid := update c.taskCpuid task cpuid
      prev := update c.prev task (some bottomSub)
      bottomSub := update c.bottomSub cpuid task }

def register (c : TaskCtrl) (cpuid : CpuId) (task : TaskPtr) : Except Panic TaskCtrl :=
  if c.status task = .waitingInQueue then
    kernelPanic "TaskCtrl" "unable to register queued Task."
  else .ok (c.enqueue cpuid task)

def closeGap (c : TaskCtrl) (cpuid : CpuId) (task prev : TaskPtr) :
    Option TaskPtr → Except Panic TaskCtrl
  | none =>
    if task = c.bottom cpuid then .ok { c with bottom := update c.bottom cpuid prev }
    else if task = c.bottomSub cpuid then
      .ok { c with bottomSub := update c.bottomSub cpuid prev }
    else .error .kassert
  | some next => .ok { c with prev := update c.prev next (some prev) }

def dequeue (c : TaskCtrl) (cpuid : CpuId) (task : TaskPtr) : Except Panic TaskCtrl :=
  match c.status task with
  | .waitingInQueue =>
    let next := c.next task
    let prev := c.prev task
    let c := { c with
      next := update c.next task none
      prev := update c.prev task none }
    match prev with
    | none => .error .kassert
    | some prev => do
      let c := { c with next := update c.next prev next }
      let c ← c.closeGap cpuid task prev next
      return { c with
        next := update c.next prev next
        status := update c.status task .outOfQueue }
  | .running => .ok { c with status := update c.status task .outOfQueue }
  | .outOfQueue => .ok { c with status := update c.status task .outOfQueue }
  | .guard => .error .kassert

def remove (c : TaskCtrl) (cpuid : CpuId) (task : TaskPtr) : Except Panic TaskCtrl := do
  kassert (c.status task != .guard)
  if c.status task ≠ .outOfQueue then c.dequeue cpuid task else return c

def dropTop (c : TaskCtrl) (cpuid : CpuId) (tt t : TaskPtr) :
    Option TaskPtr → Except Panic TaskCtrl
  | none =>
    if c.bottom cpuid = t then .ok { c with bottom := update c.bottom cpuid tt }
    else .error .kassert
  | some n => .ok { c with prev := update c.prev n (some tt) }

def popTask (c : TaskCtrl) (cpuid : CpuId) : Except Panic (Option TaskPtr × TaskCtrl) :=
  let tt := c.top cpuid
  match c.next tt with
  | none => do
    kassert (tt == c.bottom cpuid)
    return (none,c)
  | some t => do
    let c := { c with next := update c.next tt (c.next t) }
    let c ← c.dropTop cpuid tt t (c.next t)
    kassert (c.status t == .waitingInQueue)
    return (some t,{ c with
      status := update c.status t .running
      next := update c.next t none
      prev := update c.prev t none })

def finishTask (c : TaskCtrl) (t : TaskPtr) : TaskCtrl :=
  if c.status t = .running then { c with status := update c.status t .outOfQueue } else c

def setState (c : TaskCtrl) (cpuid : CpuId) (state : TaskQueueState) : TaskCtrl :=
  { c with state := update c.state cpuid state }

def swapQueues (c : TaskCtrl) (cpuid : CpuId) : Bool × TaskCtrl :=
  if (c.next (c.top cpuid)).isNone && (c.next (c.topSub cpuid)).isNone then
    (true,c.setState cpuid .slept)
  else
    (false,{ c with
      top := update c.top cpuid (c.topSub cpuid)
      topSub := update c.topSub cpuid (c.top cpuid)
      bottom := update c.bottom cpuid (c.bottomSub cpuid)
      bottomSub := update c.bottomSub cpuid (c.bottom cpuid) })

def calloutDue (c : TaskCtrl) (cpuid : CpuId) (time : Word) : Bool :=
  match c.calloutNext (c.dtop cpuid) with
  | none => false
  | some dtt => isGreater time (c.calloutTime dtt)

def setHandler (c : TaskCtrl) (callout : CalloutPtr) (cpuid : CpuId) (time : Word) : TaskCtrl :=
  { c with
    calloutTime := update c.calloutTime callout time
    calloutPending := update c.calloutPending callout true
    calloutCpuid := update c.calloutCpuid callout cpuid
    func := update c.func (c.calloutTask callout) (.handleSub callout) }

def linkCallout (c : TaskCtrl) (callout dt : CalloutPtr) (dtt : Option CalloutPtr) : TaskCtrl :=
  { c with
    calloutState := update c.calloutState callout .calloutQueue
    calloutNext := update (update c.calloutNext callout dtt) dt (some callout) }

def insertBody (c : TaskCtrl) (callout dt : CalloutPtr) : Sum CalloutPtr TaskCtrl :=
  match c.calloutNext dt with
  | none => .inr (c.linkCallout callout dt none)
  | some dtt =>
    if isGreater (c.calloutTime dtt) (c.calloutTime callout) then
      .inr (c.linkCallout callout dt (some dtt))
    else .inl dtt

def insertCallout (fuel : ℕ) (c : TaskCtrl) (callout : CalloutPtr) (cpuid : CpuId) :
    Option TaskCtrl :=
  Loop.iterate (c.insertBody callout) fuel (c.dtop cpuid)

def registerCallout (cntClkPeriod : Word) (fuel : ℕ) (c : TaskCtrl) (callout : CalloutPtr)
    (cpuid : CpuId) (cur : Word) (us : BitVec 32) : Option (Except Panic TaskCtrl) :=
  if c.calloutState callout = .handling ∨ c.calloutState callout = .stopped then
    let c := c.setHandler callout cpuid (getCntAfterPeriod cntClkPeriod cur us)
    (c.insertCallout fuel callout (c.calloutCpuid callout)).map .ok
  else some (.error .kassert)

def registerCallout2 (cntClkPeriod : Word) (fuel : ℕ) (c : TaskCtrl) (callout : CalloutPtr)
    (caller : CpuId) (cur : Word) (us : BitVec 32) : Option (Except Panic TaskCtrl) :=
  c.registerCallout cntClkPeriod fuel callout caller cur us

def unlinkBody (c : TaskCtrl) (callout dt : CalloutPtr) : Sum CalloutPtr TaskCtrl :=
  match c.calloutNext dt with
  | none => .inr c
  | some dtt =>
    if dtt = callout then
      .inr { c with calloutNext := update c.calloutNext dt (c.calloutNext dtt) }
    else .inl dtt

def unlinkCallout (fuel : ℕ) (c : TaskCtrl) (callout : CalloutPtr) (cpuid : CpuId) :
    Option TaskCtrl :=
  (Loop.iterate (c.unlinkBody callout) fuel (c.dtop cpuid)).map
    (fun c => { c with calloutNext := update c.calloutNext callout none })

def cancel (c : TaskCtrl) (callout : CalloutPtr) : TaskCtrl :=
  { c with calloutPending := update c.calloutPending callout false }

def setStopped (c : TaskCtrl) (callout : CalloutPtr) : TaskCtrl :=
  { c with calloutState := update c.calloutState callout .stopped }

def cancelCallout (fuel : ℕ) (c : TaskCtrl) (caller : CpuId) (callout : CalloutPtr) :
    Option (Except Panic (Bool × TaskCtrl)) :=
  let c := c.cancel callout
  match c.calloutState callout with
  | .calloutQueue =>
    (c.unlinkCallout fuel callout (c.calloutCpuid callout)).map
      (fun c => .ok (true,c.setStopped callout))
  | .taskQueue =>
    some ((c.remove caller (c.calloutTask callout)).map (fun c => (true,c.setStopped callout)))
  | .handling => some (.ok (false,c.setStopped callout))
  | .stopped => some (.ok (false,c.setStopped callout))

def takeCallout (c : TaskCtrl) (dt dtt : CalloutPtr) : TaskCtrl :=
  { c with
    calloutNext := update (update c.calloutNext dt (c.calloutNext dtt)) dtt none
    calloutState := update c.calloutState dtt .taskQueue }

def moveBody (cpuid : CpuId) (time : Word) (c : TaskCtrl) :
    Sum TaskCtrl (Except Panic TaskCtrl) :=
  match c.calloutNext (c.dtop cpuid) with
  | none => .inr (.ok c)
  | some dtt =>
    if isGreater (c.calloutTime dtt) time then .inr (.ok c)
    else
      match (c.takeCallout (c.dtop cpuid) dtt).register cpuid (c.calloutTask dtt) with
      | .error e => .inr (.error e)
      | .ok c => .inl c

def moveCallouts (cntClkPeriod : Word) (fuel : ℕ) (c : TaskCtrl) (cpuid : CpuId) (cur : Word) :
    Option (Except Panic TaskCtrl) :=
  Loop.iterate (moveBody cpuid (getCntAfterPeriod cntClkPeriod cur kTaskExecutionInterval)) fuel c

def beginHandling (c : TaskCtrl) (callout : CalloutPtr) : TaskCtrl :=
  { c with
    calloutPending := update c.calloutPending callout false
    calloutState := update c.calloutState callout .handling
    func := update c.func (c.calloutTask callout) .empty }

def endHandling (c : TaskCtrl) (callout : CalloutPtr) : TaskCtrl :=
  if c.calloutState callout = .handling then c.setStopped callout else c

end TaskCtrl

end Tasks
