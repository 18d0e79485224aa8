import RaphKernel.Task.RegisterRace

namespace Tasks.RegisterRace
open Raph Function List TaskCtrl
open Links
variable {b c c' : TaskCtrl} {queue : QueueId → List TaskPtr} {x t u : TaskPtr}
  {n : Option TaskPtr} {id : ℕ} {j : CpuId}

def dropPrev (c : TaskCtrl) (j : CpuId) : Option TaskPtr → TaskPtr → Option TaskPtr
  | none => c.prev
  | some n => update c.prev n (some (c.top j))

def dropBottom (c : TaskCtrl) (j : CpuId) : Option TaskPtr → CpuId → TaskPtr
  | none => update c.bottom j (c.top j)
  | some _ => c.bottom

def popped (c : TaskCtrl) (j : CpuId) (u : TaskPtr) : TaskCtrl :=
  { c with
    next := update (update c.next (c.top j) (c.next u)) u none
    prev := update (dropPrev c j (c.next u)) u none
    bottom := dropBottom c j (c.next u)
    status := update c.status u .running }

structure Front (c : TaskCtrl) (j : CpuId) (u : TaskPtr) : Prop where
  first : c.next (c.top j) = some u
  waiting : c.status u = .waitingInQueue
  bottom : c.next u = none → c.bottom j = u

lemma dropTop_front (hb : n = none → c.bottom j = u) (next : TaskPtr → Option TaskPtr) :
    dropTop { c with next := next } j (c.top j) u n =
      .ok { c with next := next, prev := dropPrev c j n, bottom := dropBottom c j n } := by
  cases n with
  | none => exact if_pos (hb rfl)
  | some n => rfl

lemma Front.popTask (h : Front c j u) (hne : c.top j ≠ u) :
    c.popTask j = .ok (some u,popped c j u) :=
  popTask_some h.first hne (dropTop_front h.bottom _) h.waiting

lemma front_of_popTask (hne : c.top j ≠ u) (hp : c.popTask j = .ok (some u,c')) :
    Front c j u := by
  unfold popTask at hp
  dsimp only at hp
  split at hp
  · obtain ⟨_,_,hok⟩ := bind_ok.mp hp
    cases hok
  · next first hfirst =>
    obtain ⟨d,hd,hr⟩ := bind_ok.mp hp
    obtain ⟨_,hw,hok⟩ := bind_ok.mp hr
    cases hok
    rw [update_of_ne hne.symm] at hd
    cases hn : c.next u with
    | none =>
      rw [hn] at hd
      simp only [dropTop] at hd
      split_ifs at hd with hb
      cases hd
      exact ⟨hfirst,beq_iff_eq.mp (kassert_ok.mp hw),fun _ => hb⟩
    | some n =>
      rw [hn] at hd
      cases hd
      refine ⟨hfirst,beq_iff_eq.mp (kassert_ok.mp hw),fun he => ?_⟩
      cases hn.symm.trans he

structure Base (t : TaskPtr) (b : TaskCtrl) (queue : QueueId → List TaskPtr) : Prop where
  ok : QueuesOk b queue
  users : ∀ id, b.status (.task id) ≠ .guard
  user : ∃ id, t = .task id
  rest : b.status t ≠ .waitingInQueue → b.next t = none ∧ b.prev t = none

lemma Base.not_guard (h : Base t b queue) : b.status t ≠ .guard := by
  obtain ⟨id,rfl⟩ := h.user
  exact h.users id

lemma Base.not_node (h : Base t b queue) (ht : b.status t ≠ .waitingInQueue) (q : QueueId) :
    t ∉ b.head q :: queue q :=
  h.ok.not_node ht h.not_guard q

structure Kept (t : TaskPtr) (j : CpuId) (b b' : TaskCtrl) (queue queue' : QueueId → List TaskPtr) :
    Prop where
  status : b'.status t = b.status t
  cpuid : b'.taskCpuid t = b.taskCpuid t
  queue : ∀ q, q.1 ≠ j → queue' q = queue q
  head : ∀ q, q.1 ≠ j → b'.head q = b.head q
  tail : ∀ q, q.1 ≠ j → b'.tail q = b.tail q

section
variable (h : QueuesOk b queue)
include h

lemma queuesOk_first (q : QueueId) : b.next (b.head q) = (queue q).head? :=
  (h.dll q).forward.first

lemma front_mem (hf : Front b j u) : u ∈ queue (j,false) := by
  have hfi : b.next (b.head (j,false)) = some u := hf.first
  rw [queuesOk_first h] at hfi
  exact mem_of_mem_head? hfi

lemma next_mem {q : QueueId} (hu : u ∈ queue q) (hx : b.next u = some x) : x ∈ queue q := by
  obtain ⟨l₁,l₂,hs⟩ := append_of_mem hu
  have hd := (h.dll q).forward
  rw [hs] at hd
  rw [hd.next_eq] at hx
  rw [hs]
  exact mem_append_right _ (mem_cons_of_mem _ (mem_of_mem_head? hx))

lemma top_ne (hu : u ∈ queue (j,false)) : b.top j ≠ u := fun he =>
  (nodup_cons.mp (h.dll (j,false)).forward.nodup).1 (show b.head (j,false) ∈ _ from
    (show b.head (j,false) = u from he) ▸ hu)

lemma popped_popTask (hp : b.popTask j = .ok (some u,c')) : Front b j u ∧ c' = popped b j u := by
  obtain ⟨_,-⟩ := popTask_inv h hp
  cases hq : queue (j,false) with
  | nil =>
    rw [popTask_empty h hq] at hp
    cases hp
  | cons x rest =>
    obtain ⟨d,hd,-⟩ := popTask_front h hq
    cases hd.symm.trans hp
    have hne := top_ne h (by rw [hq]; exact mem_cons_self)
    have hf := front_of_popTask hne hp
    cases (hf.popTask hne).symm.trans hp
    exact ⟨hf,rfl⟩

end

lemma tail_other (hb : ∀ i, i ≠ j → c'.bottom i = c.bottom i)
    (hs : ∀ i, i ≠ j → c'.bottomSub i = c.bottomSub i) (q : QueueId) (hq : q.1 ≠ j) :
    c'.tail q = c.tail q := by
  obtain ⟨i,s⟩ := q
  cases s
  · exact hb i hq
  · exact hs i hq

lemma head_other (hb : ∀ i, i ≠ j → c'.top i = c.top i)
    (hs : ∀ i, i ≠ j → c'.topSub i = c.topSub i) (q : QueueId) (hq : q.1 ≠ j) :
    c'.head q = c.head q := by
  obtain ⟨i,s⟩ := q
  cases s
  · exact hb i hq
  · exact hs i hq

lemma register_base (h : Base t b queue) (hne : .task id ≠ t) (j : CpuId) :
    ∃ q', Base t (b.enqueue j (.task id)) q' ∧
      Kept t j b (b.enqueue j (.task id)) queue q' := by
  by_cases hw : b.status (.task id) = .waitingInQueue
  · rw [enqueue,if_pos hw]
    exact ⟨queue,h,rfl,rfl,fun _ _ => rfl,fun _ _ => rfl,fun _ _ => rfl⟩
  · have hst : (b.enqueue j (.task id)).status t = b.status t := by
      rw [enqueue_status,update_of_ne hne.symm]
    refine ⟨_,⟨enqueue_ok h.ok hw (h.users id) j,?_,h.user,fun ht => ?_⟩,hst,
      enqueue_cpuid_other hne.symm j,fun q hq => ?_,?_,?_⟩
    · rw [enqueue_status]
      exact users_update h.users (by decide) _
    · rw [hst] at ht
      have hbs : t ≠ b.bottomSub j := fun he =>
        h.not_node ht (j,true) (he ▸ (h.ok.dll (j,true)).tail_mem)
      rw [enqueue,if_neg hw]
      refine ⟨?_,?_⟩
      · exact (update_of_ne hbs ..).trans ((update_of_ne hne.symm ..).trans (h.rest ht).1)
      · exact (update_of_ne hne.symm ..).trans (h.rest ht).2
    · refine update_of_ne ?_ ..
      rintro rfl
      exact hq rfl
    · rw [enqueue,if_neg hw]
      exact head_other (fun _ _ => rfl) fun _ _ => rfl
    · rw [enqueue,if_neg hw]
      exact tail_other (fun _ _ => rfl) fun i hi => update_of_ne hi ..

lemma dropBottom_other {i : CpuId} (hi : i ≠ j) : dropBottom b j n i = b.bottom i := by
  cases n with
  | none => exact update_of_ne hi ..
  | some _ => rfl

lemma pop_base (h : Base t b queue) (hne : u ≠ t) (hp : b.popTask j = .ok (some u,c')) :
    ∃ q', Base t c' q' ∧ Kept t j b c' queue q' := by
  obtain ⟨-,q',hok,ho,hs,-⟩ := popTask_inv h.ok hp
  obtain ⟨hf,rfl⟩ := popped_popTask h.ok hp
  have hst : (popped b j u).status t = b.status t := update_of_ne hne.symm ..
  refine ⟨q',⟨hok,?_,h.user,fun ht => ?_⟩,hst,rfl,ho,head_other (fun _ _ => rfl) fun _ _ => rfl,
    tail_other (fun _ hi => dropBottom_other hi) fun _ _ => rfl⟩
  · rw [hs]
    exact users_update h.users (by decide) u
  · rw [hst] at ht
    have hno := h.not_node ht (j,false)
    have hto : t ≠ b.top j := fun he => hno (he ▸ mem_cons_self)
    have hm := front_mem h.ok hf
    refine ⟨?_,?_⟩
    · exact (update_of_ne hne.symm ..).trans ((update_of_ne hto ..).trans (h.rest ht).1)
    · refine (update_of_ne hne.symm ..).trans ?_
      cases hn : b.next u with
      | none => exact (h.rest ht).2
      | some n =>
        have hnt : t ≠ n := by
          rintro rfl
          exact hno (mem_cons_of_mem _ (next_mem h.ok hm hn))
        exact (update_of_ne hnt ..).trans (h.rest ht).2

lemma finish_base (h : Base t b queue) (hne : u ≠ t) :
    Base t (b.finishTask u) queue ∧ Kept t j b (b.finishTask u) queue queue := by
  have hst : (b.finishTask u).status t = b.status t := by
    rw [finishTask_status,update_of_ne hne.symm]
  have hr : (b.finishTask u).next = b.next ∧ (b.finishTask u).prev = b.prev := by
    unfold finishTask
    split <;> exact ⟨rfl,rfl⟩
  have hh : (b.finishTask u).head = b.head ∧ (b.finishTask u).tail = b.tail := by
    unfold finishTask
    split
    · exact ⟨head_congr rfl rfl,tail_congr rfl rfl⟩
    · exact ⟨rfl,rfl⟩
  refine ⟨⟨finishTask_ok h.ok u,(finishTask_sound ⟨⟨queue,h.ok⟩,h.users⟩ u).users,h.user,
    fun ht => ?_⟩,hst,congrFun (finishTask_cpuid b u) t,fun _ _ => rfl,
    fun q _ => congrFun hh.1 q,fun q _ => congrFun hh.2 q⟩
  rw [hst] at ht
  rw [hr.1,hr.2]
  exact h.rest ht

lemma swap_base (h : Base t b queue) (j : CpuId) :
    ∃ q', Base t (b.swapQueues j).2 q' ∧ Kept t j b (b.swapQueues j).2 queue q' := by
  obtain ⟨q',hok,ho,hs,-⟩ := swapQueues_inv h.ok j
  have hl : (b.swapQueues j).2.next = b.next ∧ (b.swapQueues j).2.prev = b.prev := by
    unfold swapQueues
    split <;> exact ⟨rfl,rfl⟩
  refine ⟨q',⟨hok,by rw [hs]; exact h.users,h.user,fun ht => ?_⟩,congrFun hs t,
    congrFun (swapQueues_cpuid b j) t,ho,?_,?_⟩
  · rw [hs] at ht
    rw [hl.1,hl.2]
    exact h.rest ht
  · unfold swapQueues
    split
    · exact fun _ _ => congrFun (head_congr rfl rfl) _
    · exact head_other (fun _ hi => update_of_ne hi ..) fun _ hi =>
        update_of_ne hi ..
  · unfold swapQueues
    split
    · exact fun _ _ => congrFun (tail_congr rfl rfl) _
    · exact tail_other (fun _ hi => update_of_ne hi ..) fun _ hi =>
        update_of_ne hi ..

lemma other_base (h : Base t b queue) (ho : Other t b j c') :
    ∃ q', Base t c' q' ∧ Kept t j b c' queue q' := by
  cases ho with
  | register id hne => exact register_base h hne j
  | pop hne hp => exact pop_base h hne hp
  | finish u hne => exact ⟨queue,finish_base h hne⟩
  | swap => exact swap_base h j
  | state st =>
    exact ⟨queue,⟨setState_ok h.ok j st,h.users,h.user,h.rest⟩,rfl,rfl,fun _ _ => rfl,
      head_other (fun _ _ => rfl) fun _ _ => rfl,tail_other (fun _ _ => rfl) fun _ _ => rfl⟩

section

structure Patch where
  node : TaskPtr
  status : Status
  cpuid : CpuId
  next : Option TaskPtr
  link : Option TaskPtr
  prev : Option TaskPtr

def Patch.onNext (v : Patch) (t : TaskPtr) (next : TaskPtr → Option TaskPtr) :
    TaskPtr → Option TaskPtr :=
  update (update next t v.next) v.node v.link

def Patch.apply (v : Patch) (t : TaskPtr) (b : TaskCtrl) : TaskCtrl :=
  { b with
    status := update b.status t v.status
    taskCpuid := update b.taskCpuid t v.cpuid
    next := v.onNext t b.next
    prev := update b.prev t v.prev }

structure Far (t : TaskPtr) (b : TaskCtrl) (queue : QueueId → List TaskPtr) (v : Patch) (j : CpuId) :
    Prop where
  idle : b.status t ≠ .waitingInQueue
  node : v.node = t ∨ ∃ q, q.1 ≠ j ∧ v.node ∈ b.head q :: queue q

variable {v : Patch}

lemma Far.task_ne (hv : Far t b queue v j) (h : Base t b queue) {s : Bool}
    (hx : x ∈ b.head (j,s) :: queue (j,s)) : x ≠ t ∧ x ≠ v.node := by
  have hxt : x ≠ t := by
    rintro rfl
    exact h.not_node hv.idle (j,s) hx
  refine ⟨hxt,?_⟩
  rcases hv.node with hn | ⟨q,hq,hm⟩
  · rw [hn]
    exact hxt
  · rintro rfl
    exact hq (congrArg Prod.fst (h.ok.node_unique hm hx))

lemma Far.user_ne (hv : Far t b queue v j) (h : Base t b queue) (hut : u ≠ t)
    (hw : b.status u ≠ .waitingInQueue) (hg : b.status u ≠ .guard) : u ≠ v.node := by
  rcases hv.node with hn | ⟨q,-,hm⟩
  · rw [hn]
    exact hut
  · rintro rfl
    exact h.ok.not_node hw hg q hm

lemma idle_patch (h : Base t b queue) (hw : b.status t ≠ .waitingInQueue) :
    Patch.apply ⟨t,b.status t,b.taskCpuid t,none,none,none⟩ t b = b := by
  obtain ⟨hn,hpr⟩ := h.rest hw
  simp only [Patch.apply,Patch.onNext,update_idem]
  rw [← hn,update_eq_self,update_eq_self,update_eq_self]
  rw [hn,← hpr,update_eq_self]

lemma patch_next (ht : x ≠ t) (hn : x ≠ v.node) : (v.apply t b).next x = b.next x :=
  (update_of_ne hn ..).trans (update_of_ne ht ..)

lemma patch_status (ht : x ≠ t) : (v.apply t b).status x = b.status x := update_of_ne ht ..

lemma onNext_update {next : TaskPtr → Option TaskPtr} (ht : x ≠ t)
    (hn : x ≠ v.node) (y : Option TaskPtr) :
    update (v.onNext t next) x y = v.onNext t (update next x y) := by
  unfold Patch.onNext
  rw [update_comm hn.symm,update_comm ht.symm]

lemma register_patch (h : Base t b queue) (hv : Far t b queue v j) (hne : .task id ≠ t) :
    (v.apply t b).enqueue j (.task id) = v.apply t (b.enqueue j (.task id)) := by
  have hst : (v.apply t b).status (.task id) = b.status (.task id) := patch_status hne
  by_cases hw : b.status (.task id) = .waitingInQueue
  · rw [enqueue,if_pos (hst.trans hw),enqueue,if_pos hw]
  · have hun := hv.user_ne h hne hw (h.users id)
    obtain ⟨hbt,hbn⟩ : b.bottomSub j ≠ t ∧ b.bottomSub j ≠ v.node :=
      hv.task_ne (s := true) h (h.ok.dll (j,true)).tail_mem
    rw [enqueue,if_neg (fun he => hw (hst.symm.trans he)),enqueue,if_neg hw]
    simp only [Patch.apply]
    rw [onNext_update hne hun,onNext_update hbt hbn,update_comm hne,update_comm hne,update_comm hne]

lemma dropPrev_patch (hn : ∀ x, n = some x → x ≠ t) :
    dropPrev (v.apply t b) j n = update (dropPrev b j n) t v.prev := by
  cases n with
  | none => rfl
  | some x => exact update_comm (hn x rfl).symm ..

lemma dropBottom_patch (n : Option TaskPtr) :
    dropBottom (v.apply t b) j n = dropBottom b j n := by
  cases n <;> rfl

section
variable (h : Base t b queue) (hv : Far t b queue v j)
  (hp : (v.apply t b).popTask j = .ok (some u,c'))
include h hv hp

lemma patch_front : (queue (j,false)).head? = some u := by
  obtain ⟨htt,htn⟩ : b.top j ≠ t ∧ b.top j ≠ v.node := hv.task_ne (s := false) h mem_cons_self
  have hf := queuesOk_first h.ok (j,false)
  have hn : (v.apply t b).next (b.top j) = b.next (b.top j) := patch_next htt htn
  unfold popTask at hp
  dsimp only at hp
  split at hp
  · obtain ⟨_,_,hok⟩ := bind_ok.mp hp
    cases hok
  · next first hx =>
    obtain ⟨d,_,hr⟩ := bind_ok.mp hp
    obtain ⟨_,_,hok⟩ := bind_ok.mp hr
    cases hok
    exact hf.symm.trans (hn.symm.trans hx)

lemma pop_patch : ∃ b', b.popTask j = .ok (some u,b') ∧ c' = v.apply t b' := by
  have hm : u ∈ queue (j,false) := mem_of_mem_head? (patch_front h hv hp)
  obtain ⟨htt,htn⟩ : b.top j ≠ t ∧ b.top j ≠ v.node := hv.task_ne (s := false) h mem_cons_self
  obtain ⟨hut,hun⟩ := hv.task_ne (s := false) h (mem_cons_of_mem _ hm)
  have hne := top_ne h.ok hm
  have hnu : (v.apply t b).next u = b.next u := patch_next hut hun
  have hf := front_of_popTask (c := v.apply t b) hne hp
  have hb : Front b j u := by
    refine ⟨(patch_next htt htn).symm.trans hf.first,(patch_status hut).symm.trans hf.waiting,?_⟩
    exact fun hn => hf.bottom (hnu.trans hn)
  have hx : ∀ x, b.next u = some x → x ≠ t := fun x hx =>
    (hv.task_ne (s := false) h (mem_cons_of_mem _ (next_mem h.ok hm hx))).1
  refine ⟨_,hb.popTask hne,?_⟩
  cases (hf.popTask hne).symm.trans hp
  simp only [popped,hnu,dropPrev_patch hx,dropBottom_patch]
  simp only [Patch.apply]
  rw [onNext_update htt htn,onNext_update hut hun,update_comm hut,update_comm hut]

end

lemma finish_patch (hut : u ≠ t) : (v.apply t b).finishTask u = v.apply t (b.finishTask u) := by
  have hst : (v.apply t b).status u = b.status u := patch_status hut
  unfold finishTask
  by_cases hr : b.status u = .running
  · rw [if_pos (hst.trans hr),if_pos hr]
    simp only [Patch.apply]
    rw [update_comm hut]
  · rw [if_neg (fun he => hr (hst.symm.trans he)),if_neg hr]

lemma swap_patch (h : Base t b queue) (hv : Far t b queue v j) :
    ((v.apply t b).swapQueues j).2 = v.apply t (b.swapQueues j).2 := by
  obtain ⟨htt,htn⟩ : b.top j ≠ t ∧ b.top j ≠ v.node := hv.task_ne (s := false) h mem_cons_self
  obtain ⟨hst,hsn⟩ : b.topSub j ≠ t ∧ b.topSub j ≠ v.node := hv.task_ne (s := true) h mem_cons_self
  have ht : (v.apply t b).next ((v.apply t b).top j) = b.next (b.top j) := patch_next htt htn
  have hs : (v.apply t b).next ((v.apply t b).topSub j) = b.next (b.topSub j) := patch_next hst hsn
  unfold swapQueues
  rw [ht,hs]
  split <;> rfl

lemma other_patch (h : Base t b queue) (hv : Far t b queue v j)
    (ho : Other t (v.apply t b) j c') : ∃ b', Other t b j b' ∧ c' = v.apply t b' := by
  cases ho with
  | register id hne => exact ⟨_,.register j id hne,register_patch h hv hne⟩
  | pop hne hp =>
    obtain ⟨b',hp',he⟩ := pop_patch h hv hp
    exact ⟨b',.pop j hne hp',he⟩
  | finish u hne => exact ⟨_,.finish j u hne,finish_patch hne⟩
  | swap => exact ⟨_,.swap j,swap_patch h hv⟩
  | state st => exact ⟨_,.state j st,rfl⟩

end

end Tasks.RegisterRace
