import Mathlib.Data.List.Sort
import RaphKernel.Task.Callouts

namespace Tasks
open Raph Function List TaskCtrl
open Timer
open Links
variable {clk cur tm : Word} {l : List CalloutPtr} {id : ℕ} {us : BitVec 32}
  {d : TaskCtrl}

def NotAfter (c : TaskCtrl) (x y : CalloutPtr) : Prop := c.calloutTime x ≤ c.calloutTime y

instance (c : TaskCtrl) : DecidableRel (NotAfter c) :=
  fun x y => inferInstanceAs (Decidable (c.calloutTime x ≤ c.calloutTime y))

instance (c : TaskCtrl) : Std.Total (NotAfter c) :=
  ⟨fun x y => Nat.le_total (c.calloutTime x).toNat (c.calloutTime y).toNat⟩

instance (c : TaskCtrl) : IsTrans CalloutPtr (NotAfter c) :=
  ⟨fun _ _ _ hxy hyz => BitVec.le_trans hxy hyz⟩

inductive CalloutStep (cntClkPeriod : Word) (cpuid : CpuId) : TaskCtrl → TaskCtrl → Prop
  | register {c c' : TaskCtrl} (fuel id : ℕ) (cur : Word) (us : BitVec 32) :
    getCntAfterPeriod cntClkPeriod cur us ≤ wrapRegion →
    c.registerCallout cntClkPeriod fuel (.callout id) cpuid cur us = some (.ok c') →
    CalloutStep cntClkPeriod cpuid c c'
  | register2 {c c' : TaskCtrl} (fuel id : ℕ) (cur : Word) (us : BitVec 32) :
    getCntAfterPeriod cntClkPeriod cur us ≤ wrapRegion →
    c.registerCallout2 cntClkPeriod fuel (.callout id) cpuid cur us = some (.ok c') →
    CalloutStep cntClkPeriod cpuid c c'
  | cancel {c c' : TaskCtrl} (fuel id : ℕ) (flag : Bool) :
    c.cancelCallout fuel cpuid (.callout id) = some (.ok (flag,c')) →
    CalloutStep cntClkPeriod cpuid c c'
  | move {c c' : TaskCtrl} (fuel : ℕ) (cur : Word) :
    getCntAfterPeriod cntClkPeriod cur kTaskExecutionInterval ≤ wrapRegion →
    c.moveCallouts cntClkPeriod fuel cpuid cur = some (.ok c') →
    CalloutStep cntClkPeriod cpuid c c'
  | swap {c : TaskCtrl} : CalloutStep cntClkPeriod cpuid c (c.swapQueues cpuid).2
  | handle {c c' : TaskCtrl} {t : TaskPtr} {x : CalloutPtr} (cur : Word) :
    c.popTask cpuid = .ok (some t,c') → c'.func t = .handleSub x →
    isTimePassed cur (c'.calloutTime x) = true →
    CalloutStep cntClkPeriod cpuid c (c'.beginHandling x)
  | again {c c' d : TaskCtrl} {t : TaskPtr} {x : CalloutPtr} (cur : Word) :
    c.popTask cpuid = .ok (some t,c') → c'.func t = .handleSub x →
    isTimePassed cur (c'.calloutTime x) = false →
    c'.register cpuid (c'.calloutTask x) = .ok d → CalloutStep cntClkPeriod cpuid c d
  | execute {c c' : TaskCtrl} {t : TaskPtr} :
    c.popTask cpuid = .ok (some t,c') → (∀ x, c'.func t ≠ .handleSub x) →
    CalloutStep cntClkPeriod cpuid c c'
  | endHandling {c : TaskCtrl} (x : CalloutPtr) :
    CalloutStep cntClkPeriod cpuid c (c.endHandling x)
  | finish {c : TaskCtrl} (t : TaskPtr) : CalloutStep cntClkPeriod cpuid c (c.finishTask t)

structure CalloutOk (cpuid : CpuId) (c : TaskCtrl) (queue : QueueId → List TaskPtr)
    (lists : CpuId → List CalloutPtr) : Prop where
  ctrl : CtrlOk c queue lists
  others : ∀ q, q.1 ≠ cpuid → queue q = []
  single : ∀ i, i ≠ cpuid → lists i = []
  rest : ∀ x, Rest c lists x
  sorted : (lists cpuid).Pairwise (NotAfter c)

variable {cp : CpuId} {c c' : TaskCtrl} {queue q' : QueueId → List TaskPtr}
  {ls l' : CpuId → List CalloutPtr} {x : CalloutPtr} {t : TaskPtr}

lemma CalloutOk.effect {P : CalloutPtr → Prop} (h : CalloutOk cp c queue ls)
    (he : Effect c ls P c' q' l') (ho : ∀ q, q.1 ≠ cp → q' q = [])
    (hs : ∀ i, i ≠ cp → l' i = []) (hr : ∀ y, P y → Rest c' l' y)
    (hso : (l' cp).Pairwise (NotAfter c')) : CalloutOk cp c' q' l' := by
  refine ⟨he.ok,ho,hs,fun y => ?_,hso⟩
  by_cases hy : P y
  · exact hr y hy
  · exact (h.rest y).same (he.frame y hy)

lemma sorted_congr (h : l.Pairwise (NotAfter c))
    (ht : ∀ y ∈ l, c'.calloutTime y = c.calloutTime y) : l.Pairwise (NotAfter c') := by
  refine List.Pairwise.imp_of_mem (fun {y z} hy hz hyz => ?_) h
  rw [NotAfter,ht y hy,ht z hz]
  exact hyz

lemma earlier_eq (h : c.calloutTime x ≤ wrapRegion) :
    Earlier c x = fun y => decide (¬ NotAfter c x y) := by
  funext y
  rw [Earlier,decide_not]
  exact congrArg Bool.not (Bool.eq_iff_iff.mpr ((isGreater_below h).trans decide_eq_true_iff.symm))

structure Inserted (c : TaskCtrl) (lists : CpuId → List CalloutPtr) (x : CalloutPtr)
    (cpuid : CpuId) (time : CalloutPtr → Word) (c' : TaskCtrl) (queue : QueueId → List TaskPtr) :
    Prop where
  effect : Effect c lists (· = x) c' queue
    (update lists cpuid ((lists cpuid).orderedInsert (NotAfter c') x))
  state : c'.calloutState x = .calloutQueue
  task : c'.calloutTask = c.calloutTask
  status : c'.status = c.status
  time : c'.calloutTime = time

lemma insertCallout_inserted (h : CtrlOk c queue ls) (hx : ∀ i, x ∉ c.dtop i :: ls i)
    (hc : c.calloutCpuid x = cp) (ht : c.calloutTime x ≤ wrapRegion) :
    ∃ c', Loop.Yields (fun f => c.insertCallout f x cp) c' ∧
      Inserted c ls x cp c.calloutTime c' queue := by
  have hs : ls cp = (ls cp).takeWhile (Earlier c x) ++
      (ls cp).dropWhile (Earlier c x) := takeWhile_append_dropWhile.symm
  have hl := link_effect h hs hx hc
  have hy := insertCallout_yields h.lists x cp
  rw [earlier_eq ht] at hl hy
  rw [← orderedInsert_eq_take_drop] at hl
  exact ⟨_,hy,hl,update_self ..,rfl,rfl,rfl⟩

lemma registerCallout_inserted (h : CtrlOk c queue ls)
    (hs : c.calloutState (.callout id) = .handling ∨
      c.calloutState (.callout id) = .stopped) (hx : ∀ i, CalloutPtr.callout id ∉ ls i)
    (hb : getCntAfterPeriod clk cur us ≤ wrapRegion) (cu : CpuId) :
    ∃ c', Loop.Yields
        (fun f => c.registerCallout clk f (.callout id) cu cur us) (.ok c') ∧
      Inserted c ls (.callout id) cu (update c.calloutTime (.callout id)
        (getCntAfterPeriod clk cur us)) c' queue := by
  have hse := setHandler_effect h hx cu (getCntAfterPeriod clk cur us)
  have hcp : (c.setHandler (.callout id) cu
      (getCntAfterPeriod clk cur us)).calloutCpuid (.callout id) = cu :=
    update_self ..
  have ht : (c.setHandler (.callout id) cu
      (getCntAfterPeriod clk cur us)).calloutTime (.callout id) ≤ wrapRegion := by
    simpa [setHandler] using hb
  obtain ⟨c',hc,hin⟩ := insertCallout_inserted hse.ok (hse.ok.not_node hx) hcp ht
  refine ⟨c',?_,hse.trans hin.effect,hin.state,hin.task,hin.status,hin.time⟩
  simp only [registerCallout,if_pos hs,hcp]
  exact hc.map _

section
variable (h : CalloutOk cp c queue ls)
include h

lemma CalloutOk.inserted {ti : CalloutPtr → Word} (hx : ∀ i, x ∉ ls i)
    (hid : c.status (c.calloutTask x) ≠ .waitingInQueue)
    (hi : Inserted c ls x cp ti c' queue) (ht : ∀ y, y ≠ x → ti y = c.calloutTime y) :
    CalloutOk cp c' queue
      (update ls cp ((ls cp).orderedInsert (NotAfter c') x)) := by
  refine h.effect hi.effect h.others ?_ ?_ ?_
  · intro i hne
    rw [update_of_ne hne,h.single i hne]
  · rintro _ rfl
    refine ⟨iff_of_true hi.state ⟨cp,?_⟩,fun hw => ?_⟩
    · rw [update_self]
      exact (mem_orderedInsert _).mpr (.inl rfl)
    · rw [hi.task,hi.status] at hw
      exact absurd hw hid
  · rw [update_self]
    refine List.Pairwise.orderedInsert x _ (sorted_congr h.sorted (fun y hy => ?_))
    have hne : y ≠ x := by
      rintro rfl
      exact hx cp hy
    rw [hi.time,ht y hne]

lemma CalloutOk.remove (x : CalloutPtr) :
    ∃ c' q', c.remove cp (c.calloutTask x) = .ok c' ∧ QueuesOk c' q' ∧
      (∀ q, q.1 ≠ cp → q' q = []) ∧
      c'.status = update c.status (c.calloutTask x) .outOfQueue ∧ RestKept c c' := by
  by_cases hw : c.status (c.calloutTask x) = .waitingInQueue
  · obtain ⟨q,hq⟩ := (h.ctrl.queues.members.waiting _).mp hw
    have hcp : cp = q.1 := by
      by_contra hne
      rw [h.others q (Ne.symm hne)] at hq
      cases hq
    obtain ⟨l₁,l₂,hl⟩ := append_of_mem hq
    obtain ⟨c',hc,hok,hre⟩ := remove_ok ⟨h.ctrl.queues,hl⟩ (.inl hcp)
    refine ⟨c',_,hc,hok,fun r hr => ?_,hre⟩
    have hne : r ≠ q := by
      rintro rfl
      exact hr hcp.symm
    rw [update_of_ne hne,h.others r hr]
  · obtain ⟨c',hc,hok,hre⟩ := remove_idle h.ctrl.queues hw (h.ctrl.not_guard x) cp
    exact ⟨c',queue,hc,hok,h.others,hre⟩

lemma CalloutOk.stop (he : Effect c ls (· = x) d q' l')
    (ho : ∀ q, q.1 ≠ cp → q' q = []) (hs : ∀ i, i ≠ cp → l' i = [])
    (hl : Loose d l' x) (hso : (l' cp).Pairwise (NotAfter d)) :
    CalloutOk cp (d.setStopped x) q' l' := by
  have hl' : Loose (d.setStopped x) l' x := ⟨hl.unlinked,hl.idle⟩
  have hr := hl'.rest (by simp [setStopped])
  exact h.effect (he.trans (setStopped_effect he.ok x)) ho hs (fun y hy => hy ▸ hr) hso

lemma CalloutOk.unlinked (hs : c.calloutState x = .calloutQueue) :
    ∃ d l', c.calloutCpuid x = cp ∧
      Loop.Yields (fun f => c.unlinkCallout f x cp) d ∧
      CalloutOk cp (d.setStopped x) queue l' := by
  obtain ⟨i,hi⟩ := (h.rest x).linked.mp hs
  obtain rfl : i = cp := by
    by_contra hne
    rw [h.single i hne] at hi
    cases hi
  obtain ⟨l₁,l₂,hl⟩ := append_of_mem hi
  refine ⟨_,_,h.ctrl.lists.owner i x hi,unlinkCallout_yields h.ctrl.lists hl,
    h.stop (unlink_effect h.ctrl hl) h.others ?_ ⟨?_,?_⟩ ?_⟩
  · intro j hne
    rw [update_of_ne hne,h.single j hne]
  · intro j hj
    exact ((h.ctrl.lists.mem_erased hl j x).mp hj).2 rfl
  · exact (h.rest x).idle (by simp [hs])
  · have hsu : Sublist (l₁ ++ l₂) (l₁ ++ x :: l₂) := by simp
    rw [update_self]
    exact (hl ▸ h.sorted).sublist hsu

lemma CalloutOk.cancelCallout (x : CalloutPtr) :
    ∃ f c' q' l', Loop.Yields (fun k => c.cancelCallout k cp x)
        (.ok (f,c')) ∧ CalloutOk cp c' q' l' := by
  have h₀ := h.effect (cancel_effect h.ctrl x) h.others h.single (fun _ hf => hf.elim) h.sorted
  have hkept : (c.cancel x).calloutState x ≠ .calloutQueue →
      (c.cancel x).calloutState x ≠ .taskQueue →
      CalloutOk cp ((c.cancel x).setStopped x) queue ls := by
    intro hq ht
    exact h₀.stop (Effect.refl h₀.ctrl _) h₀.others h₀.single
      ⟨(h₀.rest x).unlinked hq,(h₀.rest x).idle ht⟩ h₀.sorted
  simp only [TaskCtrl.cancelCallout]
  cases hs : (c.cancel x).calloutState x with
  | calloutQueue =>
    obtain ⟨d,l',hcpu,hd,hok⟩ := h₀.unlinked hs
    rw [hcpu]
    exact ⟨true,_,_,_,hd.map _,hok⟩
  | taskQueue =>
    obtain ⟨d,q',hd,hok,hh,ha,hrest⟩ := h₀.remove x
    have he := h₀.ctrl.requeued hok hrest.toCalloutsKept (by decide) ha
    have hidle : d.status (d.calloutTask x) ≠ .waitingInQueue := by
      rw [hrest.calloutTask,ha,update_self]
      decide
    rw [hd]
    refine ⟨true,_,_,_,Loop.yields_const _,h₀.stop (he.weaken (fun y hy => h₀.ctrl.own y x hy))
      hh h₀.single ⟨(h₀.rest x).unlinked (by simp [hs]),hidle⟩ ?_⟩
    exact sorted_congr h₀.sorted (fun _ _ => by rw [hrest.calloutTime])
  | handling | stopped =>
    exact ⟨false,_,_,_,Loop.yields_const _,hkept (by simp [hs]) (by simp [hs])⟩

lemma CalloutOk.moveOne {r : List CalloutPtr} (hl : ls cp = x :: r) :
    ∃ d, (c.takeCallout (c.dtop cp) x).register cp (c.calloutTask x) = .ok d ∧
      CalloutOk cp d
        (update queue (cp,true) (queue (cp,true) ++ [c.calloutTask x]))
        (update ls cp r) ∧
      d.calloutTime = c.calloutTime ∧ d.calloutTask = c.calloutTask := by
  have hx : x ∈ ls cp := by
    rw [hl]
    exact mem_cons_self
  have hsa : c.calloutState x = .calloutQueue := (h.rest x).linked.mpr ⟨cp,hx⟩
  have hid : c.status (c.calloutTask x) ≠ .waitingInQueue := (h.rest x).idle (by simp [hsa])
  have ht := takeCallout_effect h.ctrl hl
  have hr := enqueue_rest (c.takeCallout (c.dtop cp) x) cp (c.calloutTask x)
  have hst := enqueue_status (c.takeCallout (c.dtop cp) x) cp (c.calloutTask x)
  have he := ht.ok.requeued
    (enqueue_ok ht.ok.queues hid (ht.ok.not_guard x) cp) hr.toCalloutsKept
    (by decide) hst
  refine ⟨_,if_neg hid,?_,hr.calloutTime,hr.calloutTask⟩
  refine h.effect (ht.trans (he.weaken (fun y hy => h.ctrl.own y x hy))) ?_ ?_ ?_ ?_
  · intro q hq
    have hne : q ≠ (cp,true) := by
      rintro rfl
      exact hq rfl
    rw [update_of_ne hne,h.others q hq]
  · intro i hi
    rw [update_of_ne hi,h.single i hi]
  · rintro y rfl
    have hs : (c.takeCallout (c.dtop cp) y).calloutState y = .taskQueue := update_self ..
    rw [← hr.calloutState] at hs
    refine ⟨iff_of_false (by simp [hs]) ?_,fun _ => hs⟩
    rintro ⟨i,hi⟩
    have hn : ls cp = [] ++ y :: r := hl
    exact ((h.ctrl.lists.mem_erased hn i y).mp hi).2 rfl
  · rw [update_self]
    have hso := h.sorted
    rw [hl] at hso
    exact sorted_congr (pairwise_cons.mp hso).2 (fun _ _ => by rw [hr.calloutTime]; rfl)

end

def Due (c : TaskCtrl) (time : Word) (x : CalloutPtr) : Bool := decide (c.calloutTime x < time)

lemma CalloutOk.moveNone (h : CalloutOk cp c queue ls) (hl : ls cp = l)
    (hy : ∀ y ∈ l, Due c tm y = false) :
    CalloutOk cp c
      (update queue (cp,true)
        (queue (cp,true) ++ (l.filter (Due c tm)).map c.calloutTask))
      (update ls cp (l.filter (fun x => !Due c tm x))) := by
  have hn : l.filter (Due c tm) = [] := filter_eq_nil_iff.mpr (by simpa using hy)
  have ha : l.filter (fun x => !Due c tm x) = l :=
    filter_eq_self.mpr (fun y hm => by simp [hy y hm])
  rw [hn,ha,← hl]
  simpa using h

lemma CalloutOk.moveAll (ht : tm ≤ wrapRegion)
    (h : CalloutOk cp c queue ls) (hl : ls cp = l) :
    ∃ c', Loop.Returns (TaskCtrl.moveBody cp tm) c (.ok c') ∧ CalloutOk cp c'
        (update queue (cp,true)
          (queue (cp,true) ++ (l.filter (Due c tm)).map c.calloutTask))
        (update ls cp (l.filter (fun x => !Due c tm x))) ∧
      c'.calloutTime = c.calloutTime ∧ c'.calloutTask = c.calloutTask := by
  induction l generalizing c queue ls with
  | nil =>
    refine ⟨c,Loop.returns_of_exit ?_,h.moveNone hl (by simp),rfl,rfl⟩
    rw [moveBody,h.ctrl.lists.first_eq,hl]
    rfl
  | cons x r ih =>
    have hfi : c.calloutNext (c.dtop cp) = some x := by
      rw [h.ctrl.lists.first_eq,hl]
      rfl
    by_cases hg : isGreater (c.calloutTime x) tm = true
    · refine ⟨c,Loop.returns_of_exit ?_,h.moveNone hl ?_,rfl,rfl⟩
      · simp only [moveBody,hfi,hg,if_true]
      · have hle := (isGreater_below ht).mp hg
        have hs := h.sorted
        rw [hl] at hs
        intro y hy
        rw [Due,decide_eq_false_iff_not,BitVec.not_lt]
        rcases mem_cons.mp hy with rfl | hy
        · exact hle
        · exact BitVec.le_trans hle ((pairwise_cons.mp hs).1 y hy)
    · obtain ⟨d,hd,hok,hdi,hdt⟩ := h.moveOne hl
      have hde : Due c tm x = true := by
        rw [Due,decide_eq_true_iff]
        exact BitVec.not_le.mp (fun hle => hg ((isGreater_below ht).mpr hle))
      have hst : moveBody cp tm c = .inl d := by
        simp only [moveBody,hfi,hg,hd]
        rfl
      obtain ⟨c',hr,hok',ht',hta'⟩ := ih hok (update_self ..)
      have hdu : Due d tm = Due c tm := by
        funext y
        rw [Due,Due,hdi]
      refine ⟨c',(Loop.returns_step_iff hst).mpr hr,?_,ht'.trans hdi,hta'.trans hdt⟩
      rw [hdu,hdt] at hok'
      simpa [hde,update_idem] using hok'

section
variable (h : CalloutOk cp c queue ls)
include h

lemma CalloutOk.requeuedIdle {st : Status} (hok : QueuesOk c' q')
    (ho : ∀ q, q.1 ≠ cp → q' q = queue q) (hk : CalloutsKept c c') (hg : st ≠ .guard)
    (hw : st ≠ .waitingInQueue) (hs : c'.status = update c.status t st) :
    CalloutOk cp c' q' ls := by
  refine h.effect (h.ctrl.requeued hok hk hg hs) ?_ h.single ?_ ?_
  · intro q hq
    rw [ho q hq,h.others q hq]
  · intro y _
    exact (h.rest y).mono hk.calloutState (fun hy => (waiting_of_idle hk hw hs hy).1)
  · exact sorted_congr h.sorted (fun _ _ => by rw [hk.calloutTime])

lemma CalloutOk.popTask (hp : c.popTask cp = .ok (some t,c')) :
    ∃ q', CalloutOk cp c' q' ls ∧ c.status t = .waitingInQueue ∧
      c'.status = update c.status t .running ∧ RestKept c c' := by
  obtain ⟨hw,q',hok,ho,hs,hr⟩ := popTask_inv h.ctrl.queues hp
  exact ⟨q',h.requeuedIdle hok ho hr.toCalloutsKept (by decide) (by decide) hs,hw,hs,hr⟩

section
variable (hp : c.popTask cp = .ok (some t,c')) (hf : c'.func t = .handleSub x)
include hp hf

lemma CalloutOk.popCallout :
    ∃ q', CalloutOk cp c' q' ls ∧ c'.calloutState x = .taskQueue ∧
      Loose c' ls x := by
  obtain ⟨q',hok,hw,hst,hr⟩ := h.popTask hp
  have ht := hok.ctrl.func t x hf
  have hid : c'.status (c'.calloutTask x) ≠ .waitingInQueue := by
    rw [← ht,hst,update_self]
    decide
  have hs : c'.calloutState x = .taskQueue := by
    rw [hr.calloutState]
    refine (h.rest x).waiting ?_
    rw [← hr.calloutTask,← ht]
    exact hw
  exact ⟨q',hok,hs,(hok.rest x).unlinked (by simp [hs]),hid⟩

lemma CalloutOk.handle : ∃ q', CalloutOk cp (c'.beginHandling x) q' ls := by
  obtain ⟨q',hok,_,hl⟩ := h.popCallout hp hf
  refine ⟨q',hok.effect (beginHandling_effect hok.ctrl x) hok.others hok.single ?_ hok.sorted⟩
  rintro y rfl
  have hl' : Loose (c'.beginHandling y) ls y := ⟨hl.unlinked,hl.idle⟩
  exact hl'.rest (by simp [beginHandling])

lemma CalloutOk.again (hr : c'.register cp (c'.calloutTask x) = .ok d) :
    ∃ q', CalloutOk cp d q' ls := by
  obtain ⟨q',hok,hs,hl⟩ := h.popCallout hp hf
  rw [register,if_neg hl.idle] at hr
  obtain rfl := Except.ok.inj hr
  have hre := enqueue_rest c' cp (c'.calloutTask x)
  refine ⟨_,hok.effect (hok.ctrl.requeued
    (enqueue_ok hok.ctrl.queues hl.idle (hok.ctrl.not_guard x) cp) hre.toCalloutsKept
    (by decide) (enqueue_status ..)) ?_ hok.single ?_ ?_⟩
  · intro q hq
    have hne : q ≠ (cp,true) := by
      rintro rfl
      exact hq rfl
    rw [update_of_ne hne,hok.others q hq]
  · intro y hy
    obtain rfl := hok.ctrl.own y x hy
    have hs' : (c'.enqueue cp (c'.calloutTask y)).calloutState y = .taskQueue := by
      rw [hre.calloutState,hs]
    exact ⟨iff_of_false (by simp [hs']) (fun ⟨i,hi⟩ => hl.unlinked i hi),fun _ => hs'⟩
  · exact sorted_congr hok.sorted (fun _ _ => by rw [hre.calloutTime])

end

lemma CalloutOk.endHandling (x : CalloutPtr) : CalloutOk cp (c.endHandling x) queue ls := by
  unfold TaskCtrl.endHandling
  split
  · rename_i hs
    exact h.stop (Effect.refl h.ctrl _) h.others h.single
      ⟨(h.rest x).unlinked (by simp [hs]),(h.rest x).idle (by simp [hs])⟩ h.sorted
  · exact h

lemma CalloutOk.finishTask (t : TaskPtr) : CalloutOk cp (c.finishTask t) queue ls := by
  refine h.effect (finishTask_effect h.ctrl t) h.others h.single (fun _ hf => hf.elim) ?_
  refine sorted_congr h.sorted (fun _ _ => ?_)
  rw [TaskCtrl.finishTask]
  split <;> rfl

lemma CalloutOk.swap : ∃ q', CalloutOk cp (c.swapQueues cp).2 q' ls := by
  obtain ⟨q',ho,ht,he⟩ := swapQueues_effect h.ctrl cp
  refine ⟨q',h.effect he (fun q hq => ?_) h.single (fun _ hf => hf.elim) ?_⟩
  · rw [ho q hq,h.others q hq]
  · exact sorted_congr h.sorted (fun _ _ => by rw [ht])

lemma CalloutOk.registerCallout {f : ℕ}
    (hb : getCntAfterPeriod clk cur us ≤ wrapRegion)
    (hr : c.registerCallout clk f (.callout id) cp cur us = some (.ok c')) :
    ∃ l', CalloutOk cp c' queue l' := by
  by_cases hs : c.calloutState (.callout id) = .handling ∨ c.calloutState (.callout id) = .stopped
  · have hx : ∀ i, CalloutPtr.callout id ∉ ls i :=
      (h.rest _).unlinked (by rcases hs with hs | hs <;> simp [hs])
    have hid : c.status (c.calloutTask (.callout id)) ≠ .waitingInQueue :=
      (h.rest _).idle (by rcases hs with hs | hs <;> simp [hs])
    obtain ⟨d,hd,hin⟩ := registerCallout_inserted h.ctrl hs hx hb cp
    obtain rfl := Except.ok.inj (hd.eq hr)
    exact ⟨_,h.inserted hx hid hin (fun y hy => update_of_ne hy _ _)⟩
  · rw [TaskCtrl.registerCallout,if_neg hs] at hr
    cases hr

lemma CalloutOk.moveCallouts
    (hb : getCntAfterPeriod clk cur kTaskExecutionInterval ≤ wrapRegion) :
    ∃ c', Loop.Yields (fun f => c.moveCallouts clk f cp cur) (.ok c') ∧
      CalloutOk cp c'
        (update queue (cp,true) (queue (cp,true) ++ ((ls cp).filter
          (Due c (getCntAfterPeriod clk cur kTaskExecutionInterval))).map c.calloutTask))
        (update ls cp ((ls cp).filter
          (fun x => !Due c (getCntAfterPeriod clk cur kTaskExecutionInterval) x))) := by
  obtain ⟨c',hr,hok,_⟩ := h.moveAll hb rfl
  exact ⟨c',Loop.yields_of_returns hr,hok⟩

lemma CalloutOk.step (hs : CalloutStep clk cp c c') :
    ∃ q' l', CalloutOk cp c' q' l' := by
  cases hs with
  | register f id cur us hb hr | register2 f id cur us hb hr =>
    exact ⟨queue,h.registerCallout hb hr⟩
  | cancel f id fl hr =>
    obtain ⟨f',d,q',l',hd,hok⟩ := h.cancelCallout (.callout id)
    cases hd.eq hr
    exact ⟨q',l',hok⟩
  | move f cur hb hr =>
    obtain ⟨d,hd,hok⟩ := h.moveCallouts hb
    cases hd.eq hr
    exact ⟨_,_,hok⟩
  | swap =>
    obtain ⟨q',hok⟩ := h.swap
    exact ⟨q',ls,hok⟩
  | handle cur hp hf _ =>
    obtain ⟨q',hok⟩ := h.handle hp hf
    exact ⟨q',ls,hok⟩
  | again cur hp hf _ hr =>
    obtain ⟨q',hok⟩ := h.again hp hf hr
    exact ⟨q',ls,hok⟩
  | execute hp _ =>
    obtain ⟨q',hok,_⟩ := h.popTask hp
    exact ⟨q',ls,hok⟩
  | endHandling x => exact ⟨queue,ls,h.endHandling x⟩
  | finish t => exact ⟨queue,ls,h.finishTask t⟩

end

lemma steps_calloutOk {s : TaskCtrl} (hc : FreshCallouts c)
    (hr : Relation.ReflTransGen (CalloutStep clk cp) c.setup s) :
    ∃ queue ls, CalloutOk cp s queue ls := by
  induction hr with
  | refl =>
    refine ⟨_,_,setup_ctrlOk hc,fun _ _ => rfl,fun _ _ => rfl,fun x => ⟨?_,?_⟩,List.Pairwise.nil⟩
    · simp [setup]
    · obtain ⟨id,hid⟩ := hc.tasks x
      simp [setup,hid]
  | tail _ hs ih =>
    obtain ⟨queue,ls,hok⟩ := ih
    exact hok.step hs

lemma CalloutOk.state_iff (h : CalloutOk cp c queue ls) (x : CalloutPtr) :
    c.calloutState x = .calloutQueue ↔ x ∈ ls cp := by
  rw [(h.rest x).linked]
  constructor
  · rintro ⟨i,hi⟩
    rcases eq_or_ne i cp with rfl | hne
    · exact hi
    · rw [h.single i hne] at hi
      cases hi
  · exact fun hx => ⟨cp,hx⟩

theorem callout_list_run (cntClkPeriod : Word) (c s : TaskCtrl) (cpuid : CpuId)
    (hc : FreshCallouts c)
    (hrun : Relation.ReflTransGen (CalloutStep cntClkPeriod cpuid) c.setup s) :
    ∃ list queue, Sll s.calloutNext (s.dtop cpuid) list ∧ QueuesOk s queue ∧
      list.Pairwise (fun x y => s.calloutTime x ≤ s.calloutTime y) ∧
      (∀ x, s.calloutState x = .calloutQueue ↔ x ∈ list) ∧
      ∀ cur now, now = getCntAfterPeriod cntClkPeriod cur kTaskExecutionInterval →
        now ≤ wrapRegion →
        ∃ s', Loop.Yields (fun fuel => s.moveCallouts cntClkPeriod fuel cpuid cur) (.ok s') ∧
          Sll s'.calloutNext (s'.dtop cpuid)
            (list.filter (fun x => !decide (s.calloutTime x < now))) ∧
          QueuesOk s' (update queue (cpuid,true) (queue (cpuid,true) ++
            (list.filter (fun x => decide (s.calloutTime x < now))).map s.calloutTask)) ∧
          ∀ x, s'.calloutState x = .calloutQueue ↔ x ∈ list ∧ ¬ s.calloutTime x < now := by
  obtain ⟨queue,lists,hok⟩ := steps_calloutOk hc hrun
  refine ⟨lists cpuid,queue,hok.ctrl.lists.sll cpuid,hok.ctrl.queues,hok.sorted,hok.state_iff,?_⟩
  rintro cur now rfl hb
  obtain ⟨s',hs',hok'⟩ := hok.moveCallouts hb
  have hs := hok'.ctrl.lists.sll cpuid
  rw [update_self] at hs
  refine ⟨s',hs',hs,hok'.ctrl.queues,fun x => ?_⟩
  rw [hok'.state_iff,update_self,mem_filter]
  simp [Due]

theorem callout_list_run_two : ∃ s s' : TaskCtrl, s.calloutState (.callout 0) = .calloutQueue ∧
      s.calloutState (.callout 1) = .calloutQueue ∧
      Loop.Yields (fun fuel => s.moveCallouts 1 fuel 0 2000000) (.ok s') ∧
      s'.calloutState (.callout 0) = .calloutQueue ∧
      s'.calloutState (.callout 1) ≠ .calloutQueue := by
  obtain ⟨s,hr,ht,hs⟩ : ∃ s, Relation.ReflTransGen (CalloutStep 1 0) blankCtrl.setup s ∧
      (s.calloutTime (.callout 0) = 5000000 ∧ s.calloutTime (.callout 1) = 2000000) ∧
      s.calloutState (.callout 0) = .calloutQueue ∧ s.calloutState (.callout 1) = .calloutQueue :=
    ⟨_,.tail (.tail .refl (.register 5 0 0 5000 (by decide) rfl))
      (.register2 5 1 0 2000 (by decide) rfl),⟨by decide,by decide⟩,rfl,rfl⟩
  obtain ⟨list,queue,_,_,_,hl,hm⟩ := callout_list_run 1 blankCtrl s 0 blankCtrl_fresh hr
  obtain ⟨s',hs',_,_,hif⟩ := hm 2000000 3000000 (by decide) (by decide)
  refine ⟨s,s',hs.1,hs.2,hs',(hif _).mpr ⟨(hl _).mp hs.1,?_⟩,?_⟩
  · rw [ht.1]
    decide
  · rw [Ne,hif,ht.2]
    exact fun hb => hb.2 (by decide)

end Tasks
