import RaphKernel.Task.Client

namespace Tasks.Polling
open Raph Function
variable {c : TaskCtrl} {cpu : CpuId}

inductive PollingState where
  | polling
  | stopped
  deriving DecidableEq, Repr

inductive RunPc where
  | idle
  | test
  | handle
  | check (cpuid : CpuId)
  | enqueue (cpuid : CpuId)
  | drop
  | finish
  deriving DecidableEq, Repr

def RunPc.active : RunPc → Bool
  | .idle | .finish => false
  | _ => true

structure State where
  ctrl : TaskCtrl
  task : ℕ
  pstate : PollingState
  cpuid : CpuId
  run : CpuId → RunPc
  handled : ℕ
  panicked : Bool

def boot (ctrl : TaskCtrl) (task : ℕ) (cpuid : CpuId) : State where
  ctrl := ctrl
  task := task
  pstate := .stopped
  cpuid := cpuid
  run := fun _ => .idle
  handled := 0
  panicked := false

namespace State

def status (s : State) : Status := s.ctrl.status (.task s.task)

def enqueue (s : State) (cpuid : CpuId) : State :=
  { s with ctrl := s.ctrl.enqueue cpuid (.task s.task) }

def register (s : State) (cpuid : CpuId) : State :=
  if s.status = .waitingInQueue then { s with panicked := true } else s.enqueue cpuid

def registerPolling (s : State) (cpuid : CpuId) : State :=
  match s.pstate with
  | .polling => s
  | .stopped => { s with cpuid := cpuid, pstate := .polling }.register cpuid

def removePolling (s : State) : State :=
  match s.pstate with
  | .stopped => s
  | .polling => { s with pstate := .stopped }

def setRun (s : State) (k : CpuId) (p : RunPc) : State :=
  { s with run := update s.run k p }

def pop (s : State) (k : CpuId) (ctrl : TaskCtrl) : State := { s.setRun k .test with ctrl := ctrl }

def test (s : State) (k : CpuId) : State :=
  match s.pstate with
  | .polling => s.setRun k .handle
  | .stopped => s.setRun k .drop

def handle (s : State) (k : CpuId) : State :=
  { s.setRun k (.check s.cpuid) with handled := s.handled + 1 }

def finish (s : State) (k : CpuId) : State :=
  { s.setRun k .idle with ctrl := s.ctrl.finishTask (.task s.task) }

end State

open State

inductive Move (s : State) : State → Prop where
  | remove : Move s s.removePolling
  | pop (k : CpuId) {c : TaskCtrl} : s.run k = .idle →
    s.ctrl.popTask k = .ok (some (.task s.task),c) → Move s (s.pop k c)
  | test (k : CpuId) : s.run k = .test → Move s (s.test k)
  | handle (k : CpuId) : s.run k = .handle → Move s (s.handle k)
  | check (k : CpuId) {cpuid : CpuId} : s.run k = .check cpuid → s.status ≠ .waitingInQueue →
    Move s (s.setRun k (.enqueue cpuid))
  | panic (k : CpuId) {cpuid : CpuId} : s.run k = .check cpuid → s.status = .waitingInQueue →
    Move s { s with panicked := true }
  | enqueue (k : CpuId) {cpuid : CpuId} : s.run k = .enqueue cpuid →
    Move s ((s.enqueue cpuid).setRun k .finish)
  | drop (k : CpuId) : s.run k = .drop → Move s (s.removePolling.setRun k .finish)
  | finish (k : CpuId) : s.run k = .finish → Move s (s.finish k)
  | elsewhere {c : TaskCtrl} : Elsewhere (.task s.task) s.ctrl c → Move s { s with ctrl := c }

inductive Step (s : State) : State → Prop where
  | register (cpuid : CpuId) : Step s (s.registerPolling cpuid)
  | move {s' : State} : Move s s' → Step s s'

def Free (s : State) : Prop :=
  s.status ≠ .waitingInQueue ∧ ∀ k, (s.run k).active = false

inductive Run (s₀ : State) : State → Prop where
  | refl : Run s₀ s₀
  | register {s : State} (cpuid : CpuId) : Run s₀ s → (s.pstate = .stopped → Free s) →
    Run s₀ (s.registerPolling cpuid)
  | move {s s' : State} : Run s₀ s → Move s s' → Run s₀ s'

structure Ok (s : State) : Prop where
  sound : Sound s.ctrl
  alone : ∀ k i, (s.run k).active = true → (s.run i).active = true → i = k
  apart : s.status = .waitingInQueue → ∀ k, (s.run k).active = false
  held : s.pstate = .polling → s.status = .waitingInQueue ∨ ∃ k, (s.run k).active = true
  calm : s.panicked = false

variable {s s' s₀ : State} {k i : CpuId} {p : RunPc}

lemma boot_ok {id : ℕ} (hc : Sound c) (cpu : CpuId) : Ok (boot c id cpu) where
  sound := hc
  alone := nofun
  apart := fun _ _ => rfl
  held := nofun
  calm := rfl

lemma Ok.not_waiting (h : Ok s) (ha : (s.run k).active = true) : s.status ≠ .waitingInQueue :=
  fun hw => by
    rw [h.apart hw k] at ha
    cases ha

lemma setRun_self (s : State) (k : CpuId) (p : RunPc) : (s.setRun k p).run k = p := update_self ..

lemma setRun_other (hi : i ≠ k) : (s.setRun k p).run i = s.run i := update_of_ne hi ..

lemma Ok.others (h : Ok s) (ha : (s.run k).active = true) (hi : i ≠ k) :
    (s.run i).active = false := by
  by_contra hne
  exact hi (h.alone k i ha (Bool.not_eq_false _ ▸ hne))

lemma Ok.set_alone (h : Ok s) (ha : (s.run k).active = true) (p : RunPc) (hi : i ≠ k) :
    ((s.setRun k p).run i).active = false := by
  rw [setRun_other hi]
  exact h.others ha hi

lemma only_one {run : CpuId → RunPc} (h : ∀ i, i ≠ k → (run i).active = false) (a b : CpuId)
    (ha : (run a).active = true) (hb : (run b).active = true) : b = a := by
  have hk : ∀ i, (run i).active = true → i = k := fun i hi => by
    by_contra hne
    rw [h i hne] at hi
    cases hi
  rw [hk a ha,hk b hb]

lemma setRun_ok (h : Ok s) (ha : (s.run k).active = true) (hp : p.active = true) :
    Ok (s.setRun k p) where
  sound := h.sound
  alone := only_one fun _ hi => h.set_alone ha p hi
  apart := fun hw => absurd hw (h.not_waiting ha)
  held := fun _ => .inr ⟨k,by rw [setRun_self,hp]⟩
  calm := h.calm

lemma removePolling_ok (h : Ok s) : Ok s.removePolling := by
  cases hp : s.pstate with
  | stopped =>
    simp only [removePolling,hp]
    exact h
  | polling =>
    simp only [removePolling,hp]
    exact ⟨h.sound,h.alone,h.apart,nofun,h.calm⟩

lemma removePolling_stopped (s : State) : s.removePolling.pstate = .stopped := by
  cases hp : s.pstate <;> simp only [removePolling,hp]

lemma removePolling_run (s : State) : s.removePolling.run = s.run := by
  cases hp : s.pstate <;> simp only [removePolling,hp]

lemma removePolling_handled (s : State) : s.removePolling.handled = s.handled := by
  cases hp : s.pstate <;> simp only [removePolling,hp]

section
variable (h : Ok s)
include h

lemma drop_ok (hr : s.run k = .drop) : Ok (s.removePolling.setRun k .finish) := by
  have hre := removePolling_ok h
  have ha : (s.removePolling.run k).active = true := by
    rw [removePolling_run,hr]
    rfl
  exact ⟨hre.sound,only_one fun _ => hre.set_alone ha .finish,
    fun hw => absurd hw (hre.not_waiting ha),
    fun he => (nomatch (removePolling_stopped s).symm.trans he),hre.calm⟩

lemma pop_ok (hp : s.ctrl.popTask k = .ok (some (.task s.task),c)) : Ok (s.pop k c) := by
  have hpo := popTask_popped h.sound hp
  have hwa : (s.pop k c).status ≠ .waitingInQueue := by
    change c.status (.task s.task) ≠ _
    rw [hpo.status,update_self]
    decide
  have hse : ((s.pop k c).run k).active = true := congrArg RunPc.active (setRun_self s k .test)
  refine ⟨hpo.sound,only_one (k := k) fun i hi => ?_,fun hw => absurd hw hwa,
    fun _ => .inr ⟨k,hse⟩,h.calm⟩
  exact (congrArg RunPc.active (setRun_other hi)).trans (h.apart hpo.waiting i)

lemma test_ok (hr : s.run k = .test) : Ok (s.test k) := by
  unfold test
  split <;> exact setRun_ok h (hr ▸ rfl) rfl

lemma handle_ok (hr : s.run k = .handle) : Ok (s.handle k) :=
  { setRun_ok (p := .check s.cpuid) h (hr ▸ rfl) rfl with }

lemma enqueued_ok (hid : ∀ k, (s.run k).active = false) : Ok (s.enqueue cpu) where
  sound := enqueue_sound h.sound cpu s.task
  alone := fun k _ ha => nomatch (hid k).symm.trans ha
  apart := fun _ => hid
  held := fun _ => .inl (enqueue_waiting ..)
  calm := h.calm

lemma reenqueue_ok (hr : s.run k = .enqueue cpu) : Ok ((s.enqueue cpu).setRun k .finish) := by
  have hid : ∀ i, ((s.setRun k .finish).run i).active = false := fun i => by
    by_cases hi : i = k
    · rw [hi,setRun_self]
      rfl
    · exact h.set_alone (hr ▸ rfl) .finish hi
  exact ⟨enqueue_sound h.sound cpu s.task,fun i _ hx => (nomatch (hid i).symm.trans hx),
    fun _ => hid,fun _ => .inl (enqueue_waiting ..),h.calm⟩

lemma finish_ok (hr : s.run k = .finish) : Ok (s.finish k) := by
  have ha : ∀ i, ((s.finish k).run i).active = (s.run i).active := fun i => by
    by_cases hi : i = k
    · have hse : (s.finish k).run k = .idle := setRun_self s k .idle
      rw [hi,hse,hr]
      rfl
    · exact congrArg RunPc.active (setRun_other hi)
  have hwa : (s.finish k).status = .waitingInQueue ↔ s.status = .waitingInQueue :=
    finishTask_waiting ..
  refine ⟨finishTask_sound h.sound _,fun a b => ?_,fun hw i => ?_,fun hp => ?_,h.calm⟩
  · rw [ha a,ha b]
    exact h.alone a b
  · rw [ha i]
    exact h.apart (hwa.mp hw) i
  · simp only [hwa,ha]
    exact h.held hp

lemma elsewhere_ok (hc : Elsewhere (.task s.task) s.ctrl c) : Ok { s with ctrl := c } := by
  obtain ⟨hso,hsa,-⟩ := hc.untouched h.sound
  have hst : ({ s with ctrl := c } : State).status = s.status := hsa
  refine ⟨hso,h.alone,fun hw => h.apart (hst.symm.trans hw),fun hp => ?_,h.calm⟩
  rw [hst]
  exact h.held hp

lemma move_ok (hm : Move s s') : Ok s' := by
  cases hm with
  | remove => exact removePolling_ok h
  | pop k _ hp => exact pop_ok h hp
  | test k hr => exact test_ok h hr
  | handle k hr => exact handle_ok h hr
  | check k hr _ => exact setRun_ok h (hr ▸ rfl) rfl
  | panic k hr hw => exact absurd hw (h.not_waiting (k := k) (hr ▸ rfl))
  | enqueue k hr => exact reenqueue_ok h hr
  | drop k hr => exact drop_ok h hr
  | finish k hr => exact finish_ok h hr
  | elsewhere hc => exact elsewhere_ok h hc

lemma registerPolling_ok (cpu : CpuId) (hf : s.pstate = .stopped → Free s) :
    Ok (s.registerPolling cpu) := by
  cases hp : s.pstate with
  | polling =>
    simp only [registerPolling,hp]
    exact h
  | stopped =>
    obtain ⟨hw,hid⟩ := hf hp
    simp only [registerPolling,hp,register]
    erw [if_neg hw]
    have hm : Ok (s.enqueue cpu) := enqueued_ok h hid
    exact { hm with held := fun _ => .inl (enqueue_waiting ..) }

end

lemma run_ok (h : Ok s₀) (hr : Run s₀ s) : Ok s := by
  induction hr with
  | refl => exact h
  | register cpu _ hf ih => exact registerPolling_ok ih cpu hf
  | move _ hm ih => exact move_ok ih hm

def Quiet (s : State) : Prop := ∀ k, s.run k ≠ .handle

lemma Quiet.setRun (h : Quiet s) (k : CpuId) (hp : p ≠ .handle) : Quiet (s.setRun k p) :=
  fun i => by
    by_cases hi : i = k
    · rw [hi,setRun_self]
      exact hp
    · rw [setRun_other hi]
      exact h i

structure Stays (s s' : State) : Prop where
  stopped : s'.pstate = .stopped
  handled : s'.handled = s.handled
  quiet : Quiet s → Quiet s'

lemma setRun_stays (hs : s.pstate = .stopped) (k : CpuId) (hp : p ≠ .handle := by nofun) :
    Stays s (s.setRun k p) :=
  ⟨hs,rfl,fun h => h.setRun k hp⟩

structure Handled (s s' : State) : Prop where
  stopped : s'.pstate = .stopped
  handled : s'.handled = s.handled + 1
  before : ¬ Quiet s
  after : Quiet s'

section
variable (h : Ok s) (hs : s.pstate = .stopped)
include h hs

lemma handle_handled (hr : s.run k = .handle) : Handled s (s.handle k) := by
  refine ⟨hs,rfl,fun hq => hq k hr,fun i hi => ?_⟩
  by_cases hik : i = k
  · rw [hik] at hi
    cases (setRun_self s k _).symm.trans hi
  · have ho := h.others (hr ▸ rfl) hik
    rw [(setRun_other hik).symm.trans hi] at ho
    cases ho

lemma move_stopped (hm : Move s s') : Stays s s' ∨ Handled s s' := by
  cases hm with
  | remove =>
    refine .inl ⟨removePolling_stopped s,removePolling_handled s,fun hq k => ?_⟩
    rw [removePolling_run]
    exact hq k
  | pop k _ _ =>
    exact .inl { setRun_stays hs k (p := .test) with }
  | test k _ =>
    simp only [test,hs]
    exact .inl (setRun_stays hs k)
  | handle k hr => exact .inr (handle_handled h hs hr)
  | check k _ _ => exact .inl (setRun_stays hs k)
  | panic k _ _ | elsewhere _ => exact .inl ⟨hs,rfl,fun hq => hq⟩
  | enqueue k _ =>
    exact .inl { setRun_stays hs k (p := .finish) with }
  | drop k _ =>
    have hse := setRun_stays (removePolling_stopped s) k (p := .finish)
    refine .inl ⟨hse.stopped,hse.handled.trans (removePolling_handled s),fun hq => hse.quiet ?_⟩
    intro i
    rw [removePolling_run]
    exact hq i
  | finish k _ =>
    exact .inl { setRun_stays hs k (p := .idle) with }

lemma moves_stopped (hmv : Relation.ReflTransGen Move s s') :
    Ok s' ∧ (Stays s s' ∨ Handled s s') := by
  induction hmv with
  | refl => exact ⟨h,.inl ⟨hs,rfl,fun hq => hq⟩⟩
  | tail _ hmo ih =>
    obtain ⟨hok,hse⟩ := ih
    refine ⟨move_ok hok hmo,?_⟩
    rcases hse with hse | hse
    · rcases move_stopped hok hse.stopped hmo with hm | hm
      · exact .inl ⟨hm.stopped,hm.handled.trans hse.handled,fun hq => hm.quiet (hse.quiet hq)⟩
      · exact .inr ⟨hm.stopped,hm.handled.trans (congrArg (· + 1) hse.handled),
          fun hq => hm.before (hse.quiet hq),hm.after⟩
    · rcases move_stopped hok hse.stopped hmo with hm | hm
      · exact .inr ⟨hm.stopped,hm.handled.trans hse.handled,hse.before,hm.quiet hse.after⟩
      · exact absurd hse.after hm.before

end

lemma popped_quiet (h : Ok s)
    (hp : s.ctrl.popTask k = .ok (some (.task s.task),c)) : Quiet (s.pop k c) := fun i hi => by
  have hpo := popTask_popped h.sound hp
  by_cases hik : i = k
  · rw [hik] at hi
    cases (setRun_self s k .test).symm.trans hi
  · have hid := h.apart hpo.waiting i
    rw [(setRun_other hik).symm.trans hi] at hid
    cases hid

lemma registerPolling_panics (h : s.panicked = false) (cpu : CpuId) :
    (s.registerPolling cpu).panicked = true ↔
      s.pstate = .stopped ∧ s.status = .waitingInQueue := by
  cases hp : s.pstate with
  | polling =>
    simp only [registerPolling,hp,h]
    exact iff_of_false (by decide) fun hx => nomatch hx.1
  | stopped =>
    simp only [registerPolling,hp,register]
    by_cases hw : s.status = .waitingInQueue
    · erw [if_pos hw]
      exact iff_of_true rfl ⟨trivial,hw⟩
    · rw [if_neg (show ({ s with cpuid := cpu, pstate := .polling } : State).status ≠ _ from hw)]
      exact iff_of_false (fun hx => nomatch h.symm.trans hx) fun hx => hw hx.2

lemma check_panics (hw : s.status = .waitingInQueue) (hr : s.run k = .check cpu) :
    ∃ s', Relation.ReflTransGen Step s s' ∧ s'.panicked = true :=
  ⟨_,.single (.move (.panic k hr hw)),rfl⟩

lemma handle_panics (hw : s.status = .waitingInQueue) (hr : s.run k = .handle) :
    ∃ s', Relation.ReflTransGen Step s s' ∧ s'.panicked = true := by
  have hc := setRun_self s k (.check s.cpuid)
  obtain ⟨s',hru,hp⟩ := check_panics (s := s.handle k) hw hc
  exact ⟨s',.head (.move (.handle k hr)) hru,hp⟩

lemma test_panics (hw : s.status = .waitingInQueue) (hp : s.pstate = .polling)
    (hr : s.run k = .test) : ∃ s', Relation.ReflTransGen Step s s' ∧ s'.panicked = true := by
  obtain ⟨s',hru,hpa⟩ := handle_panics (s := s.setRun k .handle) hw (setRun_self s k .handle)
  refine ⟨s',.head (.move (.test k hr)) ?_,hpa⟩
  simpa only [test,hp] using hru

def Handling (s : State) : Prop :=
  ∃ k, s.run k = .test ∨ s.run k = .handle ∨ ∃ cpuid, s.run k = .check cpuid

lemma register_handling_panics (h : Ok s) (hs : s.pstate = .stopped) (hr : Handling s)
    (cpu : CpuId) :
    ∃ s', Relation.ReflTransGen Step (s.registerPolling cpu) s' ∧ s'.panicked = true := by
  obtain ⟨k,hk⟩ := hr
  have ha : (s.run k).active = true := by
    rcases hk with hk | hk | ⟨_,hk⟩ <;> rw [hk] <;> rfl
  have hre : s.registerPolling cpu =
      ({ s with cpuid := cpu, pstate := .polling } : State).enqueue cpu := by
    simp only [registerPolling,hs,register]
    exact if_neg (h.not_waiting ha)
  have hw : (({ s with cpuid := cpu, pstate := .polling } : State).enqueue cpu).status =
      .waitingInQueue := enqueue_waiting ..
  rw [hre]
  rcases hk with hk | hk | ⟨_,hk⟩
  · exact test_panics hw rfl hk
  · exact handle_panics hw hk
  · exact check_panics hw hk

theorem polling_run {c : TaskCtrl} {id : ℕ} {cpuid : CpuId} (hc : Sound c)
    (hrun : Run (boot c id cpuid) s) :
    s.panicked = false ∧
    (s.pstate = .polling → InQueue s.ctrl (.task s.task) ∨ ∃ k, (s.run k).active = true) ∧
    (s.pstate = .stopped → ∀ s', Relation.ReflTransGen Move s s' →
      s'.pstate = .stopped ∧ s'.handled ≤ s.handled + 1 ∧
      ((∀ k, s.run k ≠ .handle) → s'.handled = s.handled)) ∧
    (s.pstate = .stopped → ∀ k c', s.ctrl.popTask k = .ok (some (.task s.task),c') →
      ∀ s', Relation.ReflTransGen Move (s.pop k c') s' → s'.handled = s.handled) ∧
    (∀ k, (s.registerPolling k).panicked = true ↔
      s.pstate = .stopped ∧ s.status = .waitingInQueue) ∧
    (s.pstate = .stopped → Handling s → ∀ k, ∃ s',
      Relation.ReflTransGen Step (s.registerPolling k) s' ∧ s'.panicked = true) := by
  have h := run_ok (boot_ok hc cpuid) hrun
  refine ⟨h.calm,fun hp => (h.held hp).imp_left h.sound.inQueue,fun hs s' hm => ?_,
    fun hs k c' hp s' hm => ?_,registerPolling_panics h.calm,register_handling_panics h⟩
  · rcases (moves_stopped h hs hm).2 with hse | hse
    · exact ⟨hse.stopped,hse.handled.le.trans (Nat.le_succ _),fun _ => hse.handled⟩
    · exact ⟨hse.stopped,hse.handled.le,fun hq => absurd hq hse.before⟩
  · rcases (moves_stopped (pop_ok h hp) hs hm).2 with hse | hse
    · exact hse.handled
    · exact absurd (popped_quiet h hp) hse.before

theorem polling_run_removed : ∃ s, Run (boot blankCtrl.setup 0 0) s ∧ s.handled = 1 ∧
    s.pstate = .stopped ∧ s.panicked = false ∧
    ∀ s', Relation.ReflTransGen Move s s' → s'.handled ≤ 2 := by
  have hr : Run (boot blankCtrl.setup 0 0) (boot blankCtrl.setup 0 0) := .refl
  have hr := hr.register 0 fun _ => ⟨(fun he => nomatch he),fun _ => rfl⟩
  have hr := hr.move (.elsewhere (.swap 0))
  have hr := hr.move (.pop 0 rfl rfl)
  have hr := hr.move (.test 0 rfl)
  have hr := hr.move (.handle 0 rfl)
  have hr := hr.move (.check 0 rfl (fun he => nomatch he))
  have hr := hr.move (.enqueue 0 rfl)
  have hr := hr.move (.finish 0 rfl)
  have hr := hr.move .remove
  obtain ⟨hc,-,hst,-⟩ := polling_run (sound_setup blankCtrl) hr
  exact ⟨_,hr,rfl,rfl,hc,fun s' hm => (hst rfl s' hm).2.1⟩

theorem registerPolling_panic : ∃ s, Relation.ReflTransGen Step (boot blankCtrl.setup 0 0) s ∧
    s.panicked = true := by
  have hr := Relation.ReflTransGen.single (Step.register (s := boot blankCtrl.setup 0 0) 0)
  have hr := hr.tail (.move .remove)
  have hr := hr.tail (.register 0)
  exact ⟨_,hr,rfl⟩

end Tasks.Polling
