import RaphKernel.Task.RunQueue

namespace Tasks
open Raph Function TaskCtrl

structure Sound (c : TaskCtrl) : Prop where
  queues : ∃ queue, QueuesOk c queue
  users : ∀ id, c.status (.task id) ≠ .guard

def InQueue (c : TaskCtrl) (t : TaskPtr) : Prop := ∃ queue q, QueuesOk c queue ∧ t ∈ queue q

inductive Elsewhere (task : TaskPtr) (c : TaskCtrl) : TaskCtrl → Prop where
  | register (cpuid : CpuId) (id : ℕ) : .task id ≠ task →
    Elsewhere task c (c.enqueue cpuid (.task id))
  | remove (cpuid : CpuId) (id : ℕ) {c' : TaskCtrl} : .task id ≠ task →
    c.dequeue cpuid (.task id) = .ok c' → Elsewhere task c c'
  | pop (cpuid : CpuId) {t : TaskPtr} {c' : TaskCtrl} : t ≠ task →
    c.popTask cpuid = .ok (some t,c') → Elsewhere task c c'
  | finish (t : TaskPtr) : t ≠ task → Elsewhere task c (c.finishTask t)
  | swap (cpuid : CpuId) : Elsewhere task c (c.swapQueues cpuid).2
  | state (cpuid : CpuId) (st : TaskQueueState) : Elsewhere task c (c.setState cpuid st)

variable {c c' : TaskCtrl} {t task : TaskPtr} {cpu : CpuId} {id : ℕ}

lemma sound_setup (c : TaskCtrl) : Sound c.setup := ⟨⟨_,setup_ok c⟩,fun _ => by simp [setup]⟩

lemma Sound.inQueue (h : Sound c) (ht : c.status t = .waitingInQueue) : InQueue c t := by
  obtain ⟨queue,hq⟩ := h.queues
  obtain ⟨q,hm⟩ := (hq.members.waiting t).mp ht
  exact ⟨queue,q,hq,hm⟩

lemma enqueue_sound (h : Sound c) (cpu : CpuId) (id : ℕ) :
    Sound (c.enqueue cpu (.task id)) := by
  obtain ⟨q,hq⟩ := h.queues
  refine ⟨enqueue_inv hq (h.users id) cpu,?_⟩
  rw [enqueue_status]
  exact users_update h.users (by decide) _

lemma enqueue_waiting (c : TaskCtrl) (cpu : CpuId) (t : TaskPtr) :
    (c.enqueue cpu t).status t = .waitingInQueue := by
  rw [enqueue_status,update_self]

lemma enqueue_cpuid (ht : c.status t ≠ .waitingInQueue) (cpu : CpuId) :
    (c.enqueue cpu t).taskCpuid = update c.taskCpuid t cpu := by
  rw [enqueue,if_neg ht]

lemma enqueue_cpuid_other (hne : task ≠ t) (cpu : CpuId) :
    (c.enqueue cpu t).taskCpuid task = c.taskCpuid task := by
  by_cases ht : c.status t = .waitingInQueue
  · rw [enqueue,if_pos ht]
  · rw [enqueue_cpuid ht,update_of_ne hne]

lemma closeGap_cpuid {prev : TaskPtr} {next : Option TaskPtr}
    (h : c.closeGap cpu t prev next = .ok c') : c'.taskCpuid = c.taskCpuid := by
  cases next with
  | none =>
    simp only [closeGap] at h
    split_ifs at h
    · cases h
      rfl
    · cases h
      rfl
  | some n =>
    cases h
    rfl

lemma dequeue_cpuid (h : c.dequeue cpu t = .ok c') : c'.taskCpuid = c.taskCpuid := by
  simp only [dequeue] at h
  cases hs : c.status t <;> simp only [hs] at h
  case waitingInQueue =>
    cases hp : c.prev t <;> simp only [hp] at h
    case none => cases h
    case some prev =>
      obtain ⟨d,hd,hok⟩ := bind_ok.mp h
      cases hok
      exact (closeGap_cpuid hd).trans rfl
  case guard => cases h
  all_goals
    cases h
    rfl

lemma dropTop_cpuid {tt : TaskPtr} {next : Option TaskPtr}
    (h : c.dropTop cpu tt t next = .ok c') : c'.taskCpuid = c.taskCpuid := by
  cases next with
  | none =>
    simp only [dropTop] at h
    split_ifs at h
    cases h
    rfl
  | some n =>
    cases h
    rfl

lemma popTask_cpuid (h : c.popTask cpu = .ok (some t,c')) : c'.taskCpuid = c.taskCpuid := by
  unfold popTask at h
  dsimp only at h
  split at h
  · obtain ⟨_,_,hok⟩ := bind_ok.mp h
    cases hok
  · obtain ⟨d,hd,hr⟩ := bind_ok.mp h
    obtain ⟨_,_,hok⟩ := bind_ok.mp hr
    cases hok
    exact (dropTop_cpuid hd).trans rfl

lemma swapQueues_cpuid (c : TaskCtrl) (cpu : CpuId) :
    (c.swapQueues cpu).2.taskCpuid = c.taskCpuid := by
  unfold swapQueues
  split <;> rfl

lemma finishTask_cpuid (c : TaskCtrl) (t : TaskPtr) : (c.finishTask t).taskCpuid = c.taskCpuid := by
  unfold finishTask
  split <;> rfl

lemma finishTask_status (c : TaskCtrl) (t : TaskPtr) : (c.finishTask t).status =
    update c.status t (if c.status t = .running then .outOfQueue else c.status t) := by
  unfold finishTask
  split
  · rfl
  · rw [update_eq_self]

lemma finishTask_waiting (c : TaskCtrl) (t : TaskPtr) :
    (c.finishTask t).status t = .waitingInQueue ↔ c.status t = .waitingInQueue := by
  rw [finishTask_status,update_self]
  split
  · next hr =>
    rw [hr]
    decide
  · rfl

lemma finishTask_sound (h : Sound c) (t : TaskPtr) : Sound (c.finishTask t) := by
  obtain ⟨q,hq⟩ := h.queues
  refine ⟨⟨q,finishTask_ok hq t⟩,fun id => ?_⟩
  unfold finishTask
  split
  · exact users_update h.users (by decide) t id
  · exact h.users id

structure Popped (c : TaskCtrl) (cpuid : CpuId) (t : TaskPtr) (c' : TaskCtrl) : Prop where
  sound : Sound c'
  waiting : c.status t = .waitingInQueue
  owner : c.taskCpuid t = cpuid
  status : c'.status = update c.status t .running
  cpuid : c'.taskCpuid = c.taskCpuid

lemma popTask_popped (h : Sound c) (hp : c.popTask cpu = .ok (some t,c')) :
    Popped c cpu t c' := by
  obtain ⟨q,hq⟩ := h.queues
  obtain ⟨hw,q',hq',-,hs,-⟩ := popTask_inv hq hp
  refine ⟨⟨⟨q',hq'⟩,?_⟩,hw,?_,hs,popTask_cpuid hp⟩
  · rw [hs]
    exact users_update h.users (by decide) t
  · cases hm : q _ with
    | nil =>
      rw [popTask_empty hq hm] at hp
      cases hp
    | cons x rest =>
      obtain ⟨d,hd,-⟩ := popTask_front hq hm
      rw [hd] at hp
      cases hp
      exact hq.members.owner _ t (by rw [hm]; exact List.mem_cons_self)

structure Untouched (task : TaskPtr) (c c' : TaskCtrl) : Prop where
  sound : Sound c'
  status : c'.status task = c.status task
  cpuid : c'.taskCpuid task = c.taskCpuid task

lemma Elsewhere.untouched (hm : Elsewhere task c c') (h : Sound c) : Untouched task c c' := by
  obtain ⟨q,hq⟩ := h.queues
  cases hm with
  | register cpu id hne =>
    refine ⟨enqueue_sound h cpu id,?_,enqueue_cpuid_other hne.symm cpu⟩
    rw [enqueue_status,update_of_ne hne.symm]
  | remove cpu id hne hok =>
    obtain ⟨q',hq',hs,-⟩ := dequeue_inv hq (h.users id) hok
    refine ⟨⟨⟨q',hq'⟩,?_⟩,?_,congrFun (dequeue_cpuid hok) task⟩
    · rw [hs]
      exact users_update h.users (by decide) _
    · rw [hs,update_of_ne hne.symm]
  | pop cpu hne hok =>
    have hp := popTask_popped h hok
    refine ⟨hp.sound,?_,congrFun hp.cpuid task⟩
    rw [hp.status,update_of_ne hne.symm]
  | finish t hne =>
    refine ⟨finishTask_sound h t,?_,congrFun (finishTask_cpuid c t) task⟩
    rw [finishTask_status,update_of_ne hne.symm]
  | swap cpu =>
    obtain ⟨q',hq',-,hs,-⟩ := swapQueues_inv hq cpu
    refine ⟨⟨⟨q',hq'⟩,?_⟩,congrFun hs task,congrFun (swapQueues_cpuid c cpu) task⟩
    rw [hs]
    exact h.users
  | state cpu st => exact ⟨⟨⟨q,setState_ok hq cpu st⟩,h.users⟩,rfl,rfl⟩

end Tasks
