import RaphKernel.Library.Fifo
import RaphKernel.Task.RunQueue

namespace Tasks
open Raph List Function TaskCtrl
open Timer
open Links

inductive Pc where
  | start
  | loopTop
  | moving (time : Word)
  | popping
  | executing (t : TaskPtr)
  | swapping
  | checking
  | afterLoop
  deriving DecidableEq, Repr

structure Machine where
  ctrl : TaskCtrl
  pc : Pc
  log : List (Fifo.Event TaskPtr)

namespace TaskCtrl

def due (c : TaskCtrl) (cpuid : CpuId) : Option CalloutPtr := c.calloutNext (c.dtop cpuid)

def withCallouts (c d : TaskCtrl) : TaskCtrl :=
  { c with
    func := d.func
    calloutNext := d.calloutNext
    calloutTime := d.calloutTime
    calloutCpuid := d.calloutCpuid
    calloutPending := d.calloutPending
    calloutState := d.calloutState }

end TaskCtrl

namespace Machine

def enterLoop (cntClkPeriod : Word) (cpuid : CpuId) (cur : Word) (s : Machine) :
    Except Panic Machine := do
  let oldstate := s.ctrl.state cpuid
  kassert (oldstate == .notRunning || oldstate == .slept)
  return { s with
    ctrl := s.ctrl.setState cpuid .running
    pc := if oldstate = .notRunning then
        .moving (getCntAfterPeriod cntClkPeriod cur kTaskExecutionInterval)
      else .popping }

def move (cpuid : CpuId) (time : Word) (s : Machine) : Except Panic Machine :=
  match s.ctrl.moveBody cpuid time with
  | .inr (.ok c) => .ok { s with ctrl := c, pc := .popping }
  | .inr (.error e) => .error e
  | .inl c =>
    .ok { s with
      ctrl := c
      log := s.log ++ ((s.ctrl.due cpuid).map (fun dtt => .added (s.ctrl.calloutTask dtt))).toList }

def pop (cpuid : CpuId) (s : Machine) : Except Panic Machine :=
  match s.ctrl.popTask cpuid with
  | .error e => .error e
  | .ok (none,c) => .ok { s with ctrl := c, pc := .swapping }
  | .ok (some t,c) => .ok { ctrl := c, pc := .executing t, log := s.log ++ [.taken t] }

def swap (cpuid : CpuId) (s : Machine) : Machine :=
  match s.ctrl.swapQueues cpuid with
  | (true,c) => { s with ctrl := c, pc := .afterLoop }
  | (false,c) => { s with ctrl := c, pc := .checking }

def check (cntClkPeriod : Word) (cpuid : CpuId) (cur : Word) (s : Machine) : Machine :=
  if s.ctrl.calloutDue cpuid (getCntAfterPeriod cntClkPeriod cur kTaskExecutionInterval) then
    { s with ctrl := s.ctrl.setState cpuid .notRunning, pc := .afterLoop }
  else { s with pc := .popping }

def sleep (cpuid : CpuId) (s : Machine) : Except Panic Machine := do
  kassert (s.ctrl.state cpuid == .slept || s.ctrl.state cpuid == .notRunning)
  return { s with
    ctrl := if s.ctrl.state cpuid = .slept ∧ s.ctrl.due cpuid ≠ none then
        s.ctrl.setState cpuid .notRunning
      else s.ctrl
    pc := .loopTop }

def run (cntClkPeriod : Word) (cpuid : CpuId) (cur : Word) (s : Machine) : Except Panic Machine :=
  match s.pc with
  | .start => .ok { s with ctrl := s.ctrl.setState cpuid .notRunning, pc := .loopTop }
  | .loopTop => s.enterLoop cntClkPeriod cpuid cur
  | .moving time => s.move cpuid time
  | .popping => s.pop cpuid
  | .executing t => .ok { s with ctrl := s.ctrl.finishTask t, pc := .popping }
  | .swapping => .ok (s.swap cpuid)
  | .checking => .ok (s.check cntClkPeriod cpuid cur)
  | .afterLoop => s.sleep cpuid

end Machine

inductive Action where
  | register (id : ℕ)
  | remove (id : ℕ)
  | callouts (d : TaskCtrl)
  | run (cur : Word)

namespace Machine

def register (cpuid : CpuId) (s : Machine) (task : TaskPtr) : Except Panic Machine :=
  (s.ctrl.register cpuid task).map
    (fun c => { s with ctrl := c, log := s.log ++ [.added task] })

def remove (cpuid : CpuId) (s : Machine) (task : TaskPtr) : Except Panic Machine :=
  (s.ctrl.remove cpuid task).map
    (fun c => { s with
      ctrl := c
      log := s.log ++ if s.ctrl.status task = .waitingInQueue then [.removed task] else [] })

def act (cntClkPeriod : Word) (cpuid : CpuId) (s : Machine) : Action → Except Panic Machine
  | .register id => s.register cpuid (.task id)
  | .remove id => s.remove cpuid (.task id)
  | .callouts d => .ok { s with ctrl := s.ctrl.withCallouts d }
  | .run cur => s.run cntClkPeriod cpuid cur

end Machine

def Pc.StateOk : Pc → TaskQueueState → Prop
  | .start, _ => True
  | .loopTop, st => st = .notRunning ∨ st = .slept
  | .afterLoop, st => st = .notRunning ∨ st = .slept
  | _, st => st = .running

structure RunOk (cpuid : CpuId) (s : Machine) (queue : QueueId → List TaskPtr) : Prop where
  queues : QueuesOk s.ctrl queue
  others : ∀ q, q.1 ≠ cpuid → queue q = []
  tasks : ∀ x, ∃ id, s.ctrl.calloutTask x = .task id
  users : ∀ id, s.ctrl.status (.task id) ≠ .guard
  state : s.pc.StateOk (s.ctrl.state cpuid)
  drained : s.pc = .swapping → queue (cpuid,false) = []
  trace : Fifo.Trace s.log (queue (cpuid,false) ++ queue (cpuid,true))

def Safe (cpuid : CpuId) : Except Panic Machine → Prop
  | .ok s => ∃ queue, RunOk cpuid s queue
  | .error e => e ≠ .kassert

variable {cpu : CpuId} {s : Machine} {queue : QueueId → List TaskPtr}

lemma others_update {l : List TaskPtr} (h : ∀ q, q.1 ≠ cpu → queue q = []) (b : Bool)
    (q : QueueId) (hq : q.1 ≠ cpu) : Function.update queue (cpu,b) l q = [] := by
  have hne : q ≠ (cpu,b) := by
    rintro rfl
    exact hq rfl
  rw [Function.update_of_ne hne,h q hq]

section
variable (h : RunOk cpu s queue)
include h

lemma RunOk.update {s' : Machine} {q' : QueueId → List TaskPtr} {t : TaskPtr} {st : Status}
    (hok : QueuesOk s'.ctrl q') (ho : ∀ q, q.1 ≠ cpu → q' q = [])
    (hr : RestKept s.ctrl s'.ctrl) (hst : st ≠ .guard)
    (hs : s'.ctrl.status = Function.update s.ctrl.status t st)
    (hsa : s'.pc.StateOk (s.ctrl.state cpu))
    (hd : s'.pc = .swapping → q' (cpu,false) = [])
    (ht : Fifo.Trace s'.log (q' (cpu,false) ++ q' (cpu,true))) :
    RunOk cpu s' q' := by
  refine ⟨hok,ho,?_,?_,?_,hd,ht⟩
  · rw [hr.calloutTask]
    exact h.tasks
  · rw [hs]
    exact users_update h.users hst t
  · rw [hr.state]
    exact hsa

lemma RunOk.register (id : ℕ) : Safe cpu (s.register cpu (.task id)) := by
  unfold Machine.register TaskCtrl.register
  by_cases hw : s.ctrl.status (.task id) = .waitingInQueue
  · rw [if_pos hw]
    exact Panic.noConfusion
  · have hr := enqueue_rest s.ctrl cpu (.task id)
    have hma : Function.update queue (cpu,true) (queue (cpu,true) ++ [.task id]) (cpu,false) =
        queue (cpu,false) := Function.update_of_ne (by simp) _ _
    have ho : TaskPtr.task id ∉ queue (cpu,false) ++ queue (cpu,true) := by
      intro hme
      rcases mem_append.mp hme with hm | hm
      · exact hw ((h.queues.members.waiting _).mpr ⟨_,hm⟩)
      · exact hw ((h.queues.members.waiting _).mpr ⟨_,hm⟩)
    rw [if_neg hw]
    refine ⟨_,h.update (enqueue_ok h.queues hw (h.users id) cpu) (others_update h.others true)
      hr (by decide) (enqueue_status ..) h.state ?_ ?_⟩
    · rw [hma]
      exact h.drained
    · rw [hma,update_self,← List.append_assoc]
      exact h.trace.snoc (.add ho)

lemma RunOk.callouts (d : TaskCtrl) :
    RunOk cpu { s with ctrl := s.ctrl.withCallouts d } queue :=
  ⟨h.queues.same rfl rfl (head_congr rfl rfl) (tail_congr rfl rfl)
    (fun _ hx => hx) h.queues.members,h.others,h.tasks,h.users,h.state,h.drained,h.trace⟩

lemma RunOk.remove (id : ℕ) : Safe cpu (s.remove cpu (.task id)) := by
  unfold Machine.remove
  by_cases hw : s.ctrl.status (.task id) = .waitingInQueue
  · obtain ⟨⟨i,b⟩,hq⟩ := (h.queues.members.waiting _).mp hw
    obtain rfl : i = cpu := by
      by_contra hne
      rw [h.others (i,b) hne] at hq
      cases hq
    obtain ⟨l₁,l₂,-,hl,he⟩ := exists_erase_eq hq
    obtain ⟨c',hc,hok,hs,hr⟩ := remove_ok ⟨h.queues,hl⟩ (.inl rfl)
    rw [← he] at hok
    rw [hc,if_pos hw]
    refine ⟨_,h.update hok (others_update h.others b) hr (by decide) hs h.state ?_ ?_⟩
    · intro hpc
      have hni := h.drained hpc
      cases b with
      | false =>
        rw [hni] at hq
        cases hq
      | true => rwa [Function.update_of_ne (by simp)]
    · have her : (queue (i,false) ++ queue (i,true)).erase (.task id) =
          Function.update queue (i,b) ((queue (i,b)).erase (.task id)) (i,false) ++
          Function.update queue (i,b) ((queue (i,b)).erase (.task id)) (i,true) := by
        cases b with
        | false =>
          rw [update_self,Function.update_of_ne (by simp),erase_append_left _ hq]
        | true =>
          have hn : TaskPtr.task id ∉ queue (i,false) := by
            intro hm
            have hb := h.queues.members.once _ _ _ hm hq
            simp at hb
          rw [update_self,Function.update_of_ne (by simp),erase_append_right _ hn]
      rw [← her]
      refine h.trace.snoc (.remove ?_)
      cases b with
      | false => exact mem_append_left _ hq
      | true => exact mem_append_right _ hq
  · obtain ⟨c',hc,hok,hs,hr⟩ := remove_idle h.queues hw (h.users id) cpu
    rw [hc,if_neg hw]
    refine ⟨queue,h.update hok h.others hr (by decide) hs h.state h.drained ?_⟩
    rw [append_nil]
    exact h.trace

lemma RunOk.setState {st : TaskQueueState} {pc : Pc} (hst : pc.StateOk st) (hpc : pc ≠ .swapping) :
    RunOk cpu { s with ctrl := s.ctrl.setState cpu st, pc := pc } queue := by
  refine ⟨setState_ok h.queues cpu st,h.others,h.tasks,h.users,?_,fun he => absurd he hpc,h.trace⟩
  simpa [TaskCtrl.setState] using hst

lemma RunOk.goto {pc : Pc} (hst : pc.StateOk (s.ctrl.state cpu))
    (hpc : pc = .swapping → queue (cpu,false) = []) : RunOk cpu { s with pc := pc } queue :=
  ⟨h.queues,h.others,h.tasks,h.users,hst,hpc,h.trace⟩

lemma RunOk.enterLoop (hpc : s.pc = .loopTop) (clk cur : Word) :
    Safe cpu (s.enterLoop clk cpu cur) := by
  have hst := h.state
  rw [hpc] at hst
  unfold Machine.enterLoop
  rcases hst with hs | hs
  · rw [hs]
    exact ⟨queue,h.setState rfl (by simp)⟩
  · rw [hs]
    exact ⟨queue,h.setState rfl (by simp)⟩

lemma RunOk.move {time : Word} (hpc : s.pc = .moving time) : Safe cpu (s.move cpu time) := by
  have hst := h.state
  rw [hpc] at hst
  have hs : Safe cpu (.ok { s with pc := .popping }) := ⟨queue,h.goto hst (by simp)⟩
  unfold Machine.move moveBody due
  cases hd : s.ctrl.calloutNext (s.ctrl.dtop cpu) with
  | none => exact hs
  | some dtt =>
    by_cases hg : isGreater (s.ctrl.calloutTime dtt) time = true
    · simp only [hg,if_true]
      exact hs
    · obtain ⟨id,hid⟩ := h.tasks dtt
      have hre := (h.callouts (s.ctrl.takeCallout (s.ctrl.dtop cpu) dtt)).register id
      rw [← hid] at hre
      change Safe cpu (((s.ctrl.takeCallout (s.ctrl.dtop cpu) dtt).register cpu
        (s.ctrl.calloutTask dtt)).map _) at hre
      simp only [hg]
      cases hr : (s.ctrl.takeCallout (s.ctrl.dtop cpu) dtt).register cpu
          (s.ctrl.calloutTask dtt) with
      | error e | ok c =>
        rw [hr] at hre
        exact hre

lemma RunOk.pop (hpc : s.pc = .popping) : Safe cpu (s.pop cpu) := by
  have hs := h.state
  rw [hpc] at hs
  unfold Machine.pop
  cases hq : queue _ with
  | nil =>
    rw [popTask_empty h.queues hq]
    exact ⟨queue,h.goto hs (fun _ => hq)⟩
  | cons t rest =>
    obtain ⟨c',hc,hok,hst,hr⟩ := popTask_front h.queues hq
    rw [hc]
    refine ⟨_,h.update hok (others_update h.others false) hr (by decide) hst hs (by simp) ?_⟩
    have ht := h.trace
    rw [hq,List.cons_append] at ht
    rw [update_self,Function.update_of_ne (by simp)]
    exact ht.snoc .take

lemma RunOk.finish {t : TaskPtr} (hpc : s.pc = .executing t) :
    RunOk cpu { s with ctrl := s.ctrl.finishTask t, pc := .popping } queue := by
  have hst := h.state
  rw [hpc] at hst
  have hok := finishTask_ok h.queues t
  unfold finishTask at hok ⊢
  split
  · rename_i hs
    rw [if_pos hs] at hok
    exact h.update hok h.others (restKept_of_queues ..) (by decide) rfl hst (by simp) h.trace
  · exact h.goto hst (by simp)

lemma RunOk.swap (hpc : s.pc = .swapping) : ∃ q', RunOk cpu (s.swap cpu) q' := by
  have hs := h.state
  rw [hpc] at hs
  have hm := h.drained hpc
  unfold Machine.swap
  by_cases hsu : queue (cpu,true) = []
  · rw [swapQueues_slept h.queues hm hsu]
    exact ⟨queue,h.setState (.inr rfl) (by simp)⟩
  · obtain ⟨c',hc,hok,hst,hr⟩ := swapQueues_ok h.queues (fun hn => hsu hn.2)
    rw [hc]
    refine ⟨_,hok,?_,?_,?_,?_,?_,?_⟩
    · intro q _
      exact h.others _ (by rwa [swapOf_cpuid])
    · rw [hr.calloutTask]
      exact h.tasks
    · rw [hst]
      exact h.users
    · rw [hr.state]
      exact hs
    · intro hb
      cases hb
    · have ht := h.trace
      rw [hm] at ht
      simpa [swapOf,hm] using ht

lemma RunOk.check (hpc : s.pc = .checking) (clk cur : Word) :
    RunOk cpu (s.check clk cpu cur) queue := by
  have hs := h.state
  rw [hpc] at hs
  unfold Machine.check
  split
  · exact h.setState (.inl rfl) (by simp)
  · exact h.goto hs (by simp)

lemma RunOk.sleep (hpc : s.pc = .afterLoop) : Safe cpu (s.sleep cpu) := by
  have hst := h.state
  rw [hpc] at hst
  have hke : RunOk cpu { s with pc := .loopTop } queue := h.goto hst (by simp)
  have hw : RunOk cpu { s with ctrl := s.ctrl.setState cpu .notRunning, pc := .loopTop }
      queue := h.setState (.inl rfl) (by simp)
  have hk : kassert (s.ctrl.state cpu == .slept || s.ctrl.state cpu == .notRunning) = .ok () := by
    rcases hst with hs | hs <;> rw [hs] <;> rfl
  unfold Machine.sleep
  rw [hk]
  refine ⟨queue,?_⟩
  split
  · exact hw
  · exact hke

lemma RunOk.act (clk : Word) (a : Action) : Safe cpu (s.act clk cpu a) := by
  cases a with
  | register id => exact h.register id
  | remove id => exact h.remove id
  | callouts d => exact ⟨queue,h.callouts d⟩
  | run cur =>
    change Safe cpu (s.run clk cpu cur)
    unfold Machine.run
    cases hpc : s.pc with
    | start => exact ⟨queue,h.setState (.inl rfl) (by simp)⟩
    | loopTop => exact h.enterLoop hpc clk cur
    | moving time => exact h.move hpc
    | popping => exact h.pop hpc
    | executing t => exact ⟨queue,h.finish hpc⟩
    | swapping => exact h.swap hpc
    | checking => exact ⟨queue,h.check hpc clk cur⟩
    | afterLoop => exact h.sleep hpc

end

def boot (c : TaskCtrl) : Machine := ⟨c.setup,.start,[]⟩

def Steps (cntClkPeriod : Word) (cpuid : CpuId) : Machine → Machine → Prop :=
  Relation.ReflTransGen (fun s s' => ∃ a, s.act cntClkPeriod cpuid a = .ok s')

lemma boot_ok {c : TaskCtrl} (hc : ∀ x, ∃ id, c.calloutTask x = .task id) (cpu : CpuId) :
    RunOk cpu (boot c) (fun _ => []) :=
  ⟨setup_ok c,fun _ _ => rfl,hc,fun _ => by simp [boot,setup],trivial,fun _ => rfl,.nil⟩

lemma steps_ok {c : TaskCtrl} {clk : Word}
    (hc : ∀ x, ∃ id, c.calloutTask x = .task id) (hr : Steps clk cpu (boot c) s) :
    ∃ queue, RunOk cpu s queue := by
  induction hr with
  | refl => exact ⟨_,boot_ok hc cpu⟩
  | tail _ hst ih =>
    obtain ⟨queue,hok⟩ := ih
    obtain ⟨a,ha⟩ := hst
    have hs := hok.act clk a
    rw [ha] at hs
    exact hs

lemma RunOk.nodup (h : RunOk cpu s queue) :
    (queue (cpu,false) ++ queue (cpu,true)).Nodup := by
  refine nodup_append.mpr ⟨?_,?_,?_⟩
  · exact (nodup_cons.mp (h.queues.dll _).forward.nodup).2
  · exact (nodup_cons.mp (h.queues.dll _).forward.nodup).2
  · rintro t hm _ hs rfl
    have hb := h.queues.members.once _ _ t hm hs
    simp at hb

lemma RunOk.waiting (h : RunOk cpu s queue) (t : TaskPtr) :
    s.ctrl.status t = .waitingInQueue ↔ t ∈ queue (cpu,false) ++ queue (cpu,true) := by
  rw [h.queues.members.waiting t,mem_append]
  constructor
  · rintro ⟨⟨i,b⟩,hq⟩
    obtain rfl : i = cpu := by
      by_contra hne
      rw [h.others (i,b) hne] at hq
      cases hq
    cases b with
    | false => exact .inl hq
    | true => exact .inr hq
  · rintro (hq | hq)
    · exact ⟨_,hq⟩
    · exact ⟨_,hq⟩

theorem run_queues (cntClkPeriod : Word) (c : TaskCtrl) (cpuid : CpuId) (s : Machine)
    (hc : ∀ x, ∃ id, c.calloutTask x = .task id) (hrun : Steps cntClkPeriod cpuid (boot c) s) :
    (∃ main sub, Dll s.ctrl.next s.ctrl.prev (s.ctrl.top cpuid) (s.ctrl.bottom cpuid) main ∧
      Dll s.ctrl.next s.ctrl.prev (s.ctrl.topSub cpuid) (s.ctrl.bottomSub cpuid) sub ∧
      s.ctrl.status (s.ctrl.top cpuid) = .guard ∧ s.ctrl.status (s.ctrl.topSub cpuid) = .guard ∧
      (main ++ sub).Nodup ∧
      (∀ t, s.ctrl.status t = .waitingInQueue ↔ t ∈ main ++ sub) ∧
      (∀ t, (Fifo.added s.log).count t =
        (Fifo.taken s.log).count t + (Fifo.removed s.log).count t + (main ++ sub).count t) ∧
      Sublist (Fifo.taken s.log ++ (main ++ sub)) (Fifo.added s.log)) ∧
    ∀ a, s.act cntClkPeriod cpuid a ≠ .error .kassert := by
  obtain ⟨queue,hok⟩ := steps_ok hc hrun
  refine ⟨⟨queue (cpuid,false),queue (cpuid,true),hok.queues.dll (cpuid,false),
    hok.queues.dll (cpuid,true),hok.queues.guard (cpuid,false),hok.queues.guard (cpuid,true),
    hok.nodup,hok.waiting,hok.trace.count,hok.trace.order⟩,?_⟩
  intro a hb
  have hs := hok.act cntClkPeriod a
  rw [hb] at hs
  exact hs rfl

lemma steps_of_foldlM {clk : Word} {s' : Machine} {as : List Action}
    (h : as.foldlM (Machine.act clk cpu) s = .ok s') :
    Steps clk cpu s s' := by
  induction as generalizing s with
  | nil =>
    obtain rfl := Except.ok.inj h
    exact .refl
  | cons a rest ih =>
    rw [foldlM_cons,bind_ok] at h
    obtain ⟨m,ha,hm⟩ := h
    exact .head ⟨a,ha⟩ (ih hm)

theorem run_queues_removed :
    ∃ s : Machine, Fifo.added s.log = [.task 7,.task 8,.task 9] ∧ Fifo.taken s.log = [.task 7,.task 9] ∧
      Fifo.removed s.log = [.task 8] ∧ ∀ a, s.act 1 0 a ≠ .error .kassert := by
  obtain ⟨s,hs,hl⟩ : ∃ s, ([.register 7,.register 8,.register 9,.run 0,.run 0,.run 0,.run 0,.run 0,
      .run 0,.run 0,.remove 8,.run 0,.run 0] : List Action).foldlM (Machine.act 1 0)
        (boot blankCtrl) = .ok s ∧
      s.log = [.added (.task 7),.added (.task 8),.added (.task 9),.taken (.task 7),
        .removed (.task 8),.taken (.task 9)] := ⟨_,rfl,rfl⟩
  refine ⟨s,by rw [hl]; rfl,by rw [hl]; rfl,by rw [hl]; rfl,?_⟩
  exact (run_queues 1 blankCtrl 0 s blankCtrl_tasks (steps_of_foldlM hs)).2

end Tasks
