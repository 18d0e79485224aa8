import RaphKernel.Library.Links
import RaphKernel.Task.TaskCtrl

namespace Tasks
open Raph Function List TaskCtrl
open Links
variable {c' c : TaskCtrl} {cpu cp : CpuId} {l₁ l₂ : List TaskPtr} {status : TaskPtr → Status}
  {taskCpuid : TaskPtr → CpuId} {s : Status} {p : TaskPtr}

abbrev QueueId := CpuId × Bool

namespace TaskCtrl

def head (c : TaskCtrl) : QueueId → TaskPtr
  | (cpuid,false) => c.top cpuid
  | (cpuid,true) => c.topSub cpuid

def tail (c : TaskCtrl) : QueueId → TaskPtr
  | (cpuid,false) => c.bottom cpuid
  | (cpuid,true) => c.bottomSub cpuid

lemma head_congr (hm : c'.top = c.top) (hs : c'.topSub = c.topSub) : c'.head = c.head := by
  funext ⟨cpu,b⟩
  cases b
  · exact congrFun hm cpu
  · exact congrFun hs cpu

lemma tail_congr (hm : c'.bottom = c.bottom) (hs : c'.bottomSub = c.bottomSub) :
    c'.tail = c.tail := by
  funext ⟨cpu,b⟩
  cases b
  · exact congrFun hm cpu
  · exact congrFun hs cpu

lemma tail_main (hm : c'.bottom = update c.bottom cpu p) (hs : c'.bottomSub = c.bottomSub) :
    c'.tail = update c.tail (cpu,false) p := by
  funext ⟨i,b⟩
  cases b
  · simp only [tail,hm,update_apply,Prod.mk.injEq,and_true]
  · simp [tail,hs]

lemma tail_sub (hm : c'.bottom = c.bottom) (hs : c'.bottomSub = update c.bottomSub cpu p) :
    c'.tail = update c.tail (cpu,true) p := by
  funext ⟨i,b⟩
  cases b
  · simp [tail,hm]
  · simp only [tail,hs,update_apply,Prod.mk.injEq,and_true]

end TaskCtrl

structure Members (status : TaskPtr → Status) (taskCpuid : TaskPtr → CpuId)
    (queue : QueueId → List TaskPtr) : Prop where
  waiting : ∀ t, status t = .waitingInQueue ↔ ∃ q, t ∈ queue q
  once : ∀ q r t, t ∈ queue q → t ∈ queue r → q = r
  owner : ∀ q t, t ∈ queue q → taskCpuid t = q.1

structure QueuesOk (c : TaskCtrl) (queue : QueueId → List TaskPtr) : Prop where
  dll : ∀ q, Dll c.next c.prev (c.head q) (c.tail q) (queue q)
  heads : ∀ q r, c.head q = c.head r → q = r
  guard : ∀ q, c.status (c.head q) = .guard
  members : Members c.status c.taskCpuid queue

variable {qu : QueueId → List TaskPtr} {t : TaskPtr} {q : QueueId}

section
variable (h : Members status taskCpuid qu)
include h

lemma Members.add (ht : status t ≠ .waitingInQueue) (q : QueueId) :
    Members (update status t .waitingInQueue) (update taskCpuid t q.1)
      (update qu q (qu q ++ [t])) := by
  have hn : ∀ r, t ∉ qu r := fun r hr => ht ((h.waiting t).mpr ⟨r,hr⟩)
  have hm : ∀ r x, x ∈ update qu q (qu q ++ [t]) r ↔ x ∈ qu r ∨ r = q ∧ x = t := by
    intro r x
    rcases eq_or_ne r q with rfl | hne
    · simp
    · simp [hne]
  refine ⟨?_,?_,?_⟩
  · intro x
    simp only [hm]
    rcases eq_or_ne x t with rfl | hne
    · simp
    · simp [hne,h.waiting x]
  · intro r s x hr hs
    rw [hm] at hr hs
    rcases hr with hr | ⟨rfl,rfl⟩
    · rcases hs with hs | ⟨_,rfl⟩
      · exact h.once r s x hr hs
      · exact absurd hr (hn r)
    · rcases hs with hs | ⟨rfl,_⟩
      · exact absurd hs (hn s)
      · rfl
  · intro r x hr
    rw [hm] at hr
    rcases hr with hr | ⟨rfl,rfl⟩
    · have hne : x ≠ t := by
        rintro rfl
        exact hn r hr
      rw [update_of_ne hne,h.owner r x hr]
    · exact update_self ..

lemma Members.drop (hq : qu q = l₁ ++ t :: l₂) (hd : (l₁ ++ t :: l₂).Nodup)
    (hs : s ≠ .waitingInQueue) :
    Members (update status t s) taskCpuid (update qu q (l₁ ++ l₂)) := by
  have htq : t ∈ qu q := by rw [hq]; simp
  have ho : t ∉ l₁ ++ l₂ := (nodup_cons.mp (perm_middle.nodup_iff.mp hd)).1
  have hm : ∀ r x, x ∈ update qu q (l₁ ++ l₂) r ↔ x ∈ qu r ∧ x ≠ t := by
    intro r x
    rcases eq_or_ne r q with rfl | hne
    · rw [update_self,hq]
      constructor
      · intro hx
        refine ⟨by simp only [mem_append,mem_cons] at hx ⊢; tauto,?_⟩
        rintro rfl
        exact ho hx
      · rintro ⟨hx,hne⟩
        simp only [mem_append,mem_cons] at hx ⊢
        tauto
    · rw [update_of_ne hne]
      refine ⟨fun hx => ⟨hx,?_⟩,And.left⟩
      rintro rfl
      exact hne (h.once r q x hx htq)
  refine ⟨?_,?_,?_⟩
  · intro x
    simp only [hm]
    rcases eq_or_ne x t with rfl | hne
    · simp [hs]
    · simp [hne,h.waiting x]
  · intro r s x hr hs
    exact h.once r s x ((hm r x).mp hr).1 ((hm s x).mp hs).1
  · intro r x hr
    exact h.owner r x ((hm r x).mp hr).1

lemma Members.idle (ht : status t ≠ .waitingInQueue) (hs : s ≠ .waitingInQueue) :
    Members (update status t s) taskCpuid qu := by
  refine ⟨?_,h.once,h.owner⟩
  intro x
  rcases eq_or_ne x t with rfl | hne
  · rw [update_self,← h.waiting x]
    exact iff_of_false hs ht
  · rw [update_of_ne hne,h.waiting x]

end

section
variable (h : QueuesOk c qu)
include h

lemma QueuesOk.node_unique {q r : QueueId} {x : TaskPtr} (hq : x ∈ c.head q :: qu q)
    (hr : x ∈ c.head r :: qu r) : q = r := by
  have hg : ∀ q r, c.head q ∉ qu r := by
    intro q r hm
    have hw := (h.members.waiting _).mpr ⟨r,hm⟩
    rw [h.guard q] at hw
    cases hw
  rcases mem_cons.mp hq with rfl | hq
  · rcases mem_cons.mp hr with he | hr
    · exact h.heads q r he
    · exact absurd hr (hg q r)
  · rcases mem_cons.mp hr with rfl | hr
    · exact absurd hq (hg r q)
    · exact h.members.once q r x hq hr

lemma QueuesOk.not_node (hw : c.status t ≠ .waitingInQueue) (hg : c.status t ≠ .guard)
    (q : QueueId) : t ∉ c.head q :: qu q := by
  intro hm
  rcases mem_cons.mp hm with rfl | hm
  · exact hg (h.guard q)
  · exact hw ((h.members.waiting t).mpr ⟨q,hm⟩)

lemma QueuesOk.tail_unique {q r : QueueId} (hr : c.tail q ∈ c.head r :: qu r) : q = r :=
  h.node_unique (h.dll q).tail_mem hr

lemma QueuesOk.push (hw : c.status t ≠ .waitingInQueue) (hg : c.status t ≠ .guard) {q : QueueId}
    (hh : c'.head = c.head) (ht : c'.tail = update c.tail q t)
    (hnx : c'.next = update (update c.next t none) (c.tail q) (some t))
    (hp : c'.prev = update c.prev t (some (c.tail q)))
    (hs : c'.status = update c.status t .waitingInQueue)
    (hc : c'.taskCpuid = update c.taskCpuid t q.1) :
    QueuesOk c' (update qu q (qu q ++ [t])) := by
  have hn := h.not_node hw hg
  have hne : t ≠ c.tail q := fun he => hn q (he ▸ (h.dll q).tail_mem)
  have hx : ∀ r, ∀ x ∈ c.head r :: qu r, x ≠ t := by
    rintro r x hm rfl
    exact hn r hm
  have hk : ∀ r, ∀ x ∈ c.head r :: qu r, x ≠ c.tail q → c'.next x = c.next x := by
    intro r x hm hxq
    rw [hnx,update_of_ne hxq,update_of_ne (hx r x hm)]
  have hb : ∀ r, ∀ x ∈ qu r, c'.prev x = c.prev x := by
    intro r x hm
    rw [hp,update_of_ne (hx r x (mem_cons_of_mem _ hm))]
  refine ⟨?_,?_,?_,?_⟩
  · intro r
    rw [hh,ht]
    rcases eq_or_ne r q with rfl | hr
    · rw [update_self,update_self]
      refine (h.dll r).push (hn r) ?_ ?_ ?_ (hk r) (hb r)
      · rw [hnx,update_self]
      · rw [hnx,update_of_ne hne,update_self]
      · rw [hp,update_self]
    · rw [update_of_ne hr,update_of_ne hr]
      refine (h.dll r).congr (fun x hm => hk r x hm ?_) (hb r)
      rintro rfl
      exact hr (h.tail_unique hm).symm
  · rw [hh]
    exact h.heads
  · intro r
    rw [hh,hs,update_of_ne (hx r _ mem_cons_self),h.guard r]
  · rw [hs,hc]
    exact h.members.add hw q

lemma enqueue_ok (hw : c.status t ≠ .waitingInQueue) (hg : c.status t ≠ .guard) (cp : CpuId) :
    QueuesOk (c.enqueue cp t)
      (update qu (cp,true) (qu (cp,true) ++ [t])) := by
  rw [enqueue,if_neg hw]
  exact h.push hw hg (head_congr rfl rfl) (tail_sub rfl rfl) rfl rfl rfl rfl

lemma QueuesOk.drop (hq : qu q = l₁ ++ t :: l₂) (hs : s ≠ .waitingInQueue)
    (hh : c'.head = c.head)
    (hta : c'.tail = if l₂ = [] then update c.tail q (final (c.head q) l₁) else c.tail)
    (hl : c'.next (final (c.head q) l₁) = c.next t)
    (hnx : ∀ x, x ≠ t → x ≠ final (c.head q) l₁ → c'.next x = c.next x)
    (hb : ∀ n, c.next t = some n → c'.prev n = some (final (c.head q) l₁))
    (hpr : ∀ x, x ≠ t → c.next t ≠ some x → c'.prev x = c.prev x)
    (hst : c'.status = update c.status t s) (hc : c'.taskCpuid = c.taskCpuid) :
    QueuesOk c' (update qu q (l₁ ++ l₂)) := by
  have hd := h.dll q
  rw [hq] at hd
  have htq : t ∈ qu q := by rw [hq]; simp
  have ho := hd.forward.notMem
  have hp : final (c.head q) l₁ ∈ c.head q :: qu q := by
    rw [hq,← List.cons_append]
    exact mem_append_left _ (final_mem _ _)
  have htl : c'.tail q = if l₂ = [] then final (c.head q) l₁ else c.tail q := by
    rw [hta]
    split
    · exact update_self ..
    · rfl
  have hti : ∀ r, r ≠ q → c'.tail r = c.tail r := by
    intro r hr
    rw [hta]
    split
    · exact update_of_ne hr _ _
    · rfl
  refine ⟨?_,?_,?_,?_⟩
  · intro r
    rw [hh]
    rcases eq_or_ne r q with rfl | hr
    · rw [update_self,htl]
      exact hd.unlink hl hb (fun x hx hne => hnx x (fun he => ho (he ▸ hx)) hne)
        (fun x hx hne => hpr x (fun he => ho (he ▸ mem_cons_of_mem _ hx)) hne)
    · have hn : ∀ x ∈ c.head r :: qu r, ∀ y ∈ c.head q :: qu q, x ≠ y := by
        rintro x hx y hy rfl
        exact hr (h.node_unique hx hy)
      have ht : ∀ x ∈ c.head r :: qu r, x ≠ t := fun x hx =>
        hn x hx t (mem_cons_of_mem _ htq)
      rw [update_of_ne hr,hti r hr]
      refine (h.dll r).congr (fun x hx => hnx x (ht x hx) (hn x hx _ hp)) (fun x hx => ?_)
      refine hpr x (ht x (mem_cons_of_mem _ hx)) (fun he => ?_)
      rw [hd.forward.next_eq] at he
      refine hn x (mem_cons_of_mem _ hx) x (mem_cons_of_mem _ ?_) rfl
      rw [hq]
      exact mem_append_right _ (mem_cons_of_mem _ (mem_of_mem_head? he))
  · rw [hh]
    exact h.heads
  · intro r
    have hne : c.head r ≠ t := by
      intro he
      have hg := h.guard r
      rw [he,(h.members.waiting t).mpr ⟨q,htq⟩] at hg
      cases hg
    rw [hh,hst,update_of_ne hne,h.guard r]
  · rw [hst,hc]
    exact h.members.drop hq (nodup_cons.mp hd.forward.nodup).2 hs

end

lemma users_update (h : ∀ id, status (.task id) ≠ .guard)
    {st : Status} (hst : st ≠ .guard) (t : TaskPtr) (id : ℕ) :
    update status t st (.task id) ≠ .guard := by
  rcases eq_or_ne (TaskPtr.task id) t with he | hne
  · rwa [he,update_self]
  · rw [update_of_ne hne]
    exact h id

structure CalloutsKept (c c' : TaskCtrl) : Prop where
  func : c'.func = c.func
  dtop : c'.dtop = c.dtop
  calloutTask : c'.calloutTask = c.calloutTask
  calloutNext : c'.calloutNext = c.calloutNext
  calloutTime : c'.calloutTime = c.calloutTime
  calloutCpuid : c'.calloutCpuid = c.calloutCpuid
  calloutState : c'.calloutState = c.calloutState

structure RestKept (c c' : TaskCtrl) : Prop extends CalloutsKept c c' where
  state : c'.state = c.state

lemma restKept_of_queues (c : TaskCtrl) (next pr : TaskPtr → Option TaskPtr)
    (ts : TaskPtr → CpuId) (st : TaskPtr → Status)
    (top bt tp b : CpuId → TaskPtr) :
    RestKept c { c with
      next := next, prev := pr, taskCpuid := ts, status := st
      top := top, bottom := bt, topSub := tp, bottomSub := b } :=
  ⟨⟨rfl,rfl,rfl,rfl,rfl,rfl,rfl⟩,rfl⟩

lemma enqueue_rest (c : TaskCtrl) (cp : CpuId) (t : TaskPtr) :
    RestKept c (c.enqueue cp t) := by
  unfold enqueue
  split <;> exact restKept_of_queues ..

lemma enqueue_status (c : TaskCtrl) (cp : CpuId) (t : TaskPtr) :
    (c.enqueue cp t).status = update c.status t .waitingInQueue := by
  unfold enqueue
  split
  · rename_i hw
    exact (update_eq_self_iff.mpr hw.symm).symm
  · rfl

lemma enqueue_inv (h : QueuesOk c qu) (hg : c.status t ≠ .guard) (cp : CpuId) :
    ∃ q', QueuesOk (c.enqueue cp t) q' := by
  by_cases hw : c.status t = .waitingInQueue
  · rw [enqueue,if_pos hw]
    exact ⟨qu,h⟩
  · exact ⟨_,enqueue_ok h hw hg cp⟩

structure Queued (c : TaskCtrl) (queue : QueueId → List TaskPtr) (q : QueueId) (t : TaskPtr)
    (l₁ l₂ : List TaskPtr) : Prop where
  ok : QueuesOk c queue
  split : queue q = l₁ ++ t :: l₂

section
variable (h : Queued c qu q t l₁ l₂)
include h

lemma Queued.dll : Dll c.next c.prev (c.head q) (c.tail q) (l₁ ++ t :: l₂) := h.split ▸ h.ok.dll q

lemma Queued.waiting : c.status t = .waitingInQueue :=
  (h.ok.members.waiting t).mpr ⟨q,by rw [h.split]; simp⟩

lemma Queued.front_ne : final (c.head q) l₁ ≠ t := by
  intro he
  exact (h.dll.forward.parts).2.2 _ (final_mem _ _) (he ▸ mem_cons_self)

lemma Queued.dequeue_eq (cp : CpuId) : c.dequeue cp t = (closeGap { c with
      next := update (update c.next t none) (final (c.head q) l₁) (c.next t)
      prev := update c.prev t none } cp t (final (c.head q) l₁) (c.next t)).map
    (fun c' => { c' with
      next := update c'.next (final (c.head q) l₁) (c.next t)
      status := update c'.status t .outOfQueue }) := by
  simp only [dequeue,h.waiting,h.dll.prev_eq]
  cases closeGap _ cp t _ _ <;> rfl

lemma Queued.dropped (hh : c'.head = c.head)
    (ht : c'.tail = if l₂ = [] then update c.tail q (final (c.head q) l₁) else c.tail)
    (hn : c'.next = update (update (update c.next t none)
      (final (c.head q) l₁) (c.next t)) (final (c.head q) l₁) (c.next t))
    (hb : ∀ n, c.next t = some n → c'.prev n = some (final (c.head q) l₁))
    (hp : ∀ x, x ≠ t → c.next t ≠ some x → c'.prev x = c.prev x)
    (hs : c'.status = update c.status t .outOfQueue)
    (hc : c'.taskCpuid = c.taskCpuid) :
    QueuesOk c' (update qu q (l₁ ++ l₂)) := by
  refine h.ok.drop h.split (by decide) hh ht ?_ ?_ hb hp hs hc
  · rw [hn,update_self]
  · intro x hxt hxp
    rw [hn,update_of_ne hxp,update_of_ne hxp,update_of_ne hxt]

lemma Queued.dequeue_inner (hl : l₂ ≠ []) (cp : CpuId) :
    ∃ c', c.dequeue cp t = .ok c' ∧ QueuesOk c' (update qu q (l₁ ++ l₂)) ∧
      c'.status = update c.status t .outOfQueue ∧ RestKept c c' := by
  obtain ⟨n,r,rfl⟩ := exists_cons_of_ne_nil hl
  have hn := h.dll.forward.next_eq
  rw [h.dequeue_eq,hn]
  refine ⟨_,rfl,h.dropped (head_congr rfl rfl) ?_ (by rw [hn]) ?_ ?_ rfl rfl,rfl,
    restKept_of_queues ..⟩
  · rw [if_neg hl]
    exact tail_congr rfl rfl
  · intro m hm
    obtain rfl := Option.some.inj (hn.symm.trans hm)
    exact update_self ..
  · intro x hxt hx
    have hxn : x ≠ n := by
      rintro rfl
      exact hx hn
    exact (update_of_ne hxn _ _).trans (update_of_ne hxt _ _)

lemma Queued.tail_eq {r : QueueId} (hr : t = c.tail r) : r = q :=
  h.ok.tail_unique (hr ▸ mem_cons_of_mem _ (by rw [h.split]; simp))

end

section
variable {l : List TaskPtr} (h : Queued c qu q t l [])
include h

lemma Queued.last_next : c.next t = none := h.dll.forward.next_eq

lemma Queued.last_tail : t = c.tail q := h.dll.tail_iff.mpr rfl

lemma Queued.last_ok (hh : c'.head = c.head) (ht : c'.tail = update c.tail q (final (c.head q) l))
    (hne : c'.next = update (update (update c.next t none)
      (final (c.head q) l) (c.next t)) (final (c.head q) l) (c.next t))
    (hp : c'.prev = update c.prev t none)
    (hs : c'.status = update c.status t .outOfQueue)
    (hc : c'.taskCpuid = c.taskCpuid) :
    QueuesOk c' (update qu q (l ++ [])) := by
  refine h.dropped hh (ht.trans (if_pos rfl).symm) hne ?_ ?_ hs hc
  · intro n hn
    rw [h.last_next] at hn
    cases hn
  · intro x hxt _
    rw [hp,update_of_ne hxt]

lemma Queued.dequeue_last :
    ∃ c', c.dequeue q.1 t = .ok c' ∧ QueuesOk c' (update qu q (l ++ [])) ∧
      c'.status = update c.status t .outOfQueue ∧ RestKept c c' := by
  rw [h.dequeue_eq,h.last_next]
  obtain ⟨cp,b⟩ := q
  cases b with
  | false =>
    have hb : t = c.bottom cp := h.last_tail
    rw [closeGap,if_pos hb]
    exact ⟨_,rfl,h.last_ok (head_congr rfl rfl) (tail_main rfl rfl)
      (by rw [h.last_next]) rfl rfl rfl,rfl,restKept_of_queues ..⟩
  | true =>
    have hm : t ≠ c.bottom cp := by
      intro he
      have hq := h.tail_eq (r := (cp,false)) he
      simp at hq
    have hb : t = c.bottomSub cp := h.last_tail
    rw [closeGap,if_neg hm,if_pos hb]
    exact ⟨_,rfl,h.last_ok (head_congr rfl rfl) (tail_sub rfl rfl)
      (by rw [h.last_next]) rfl rfl rfl,rfl,restKept_of_queues ..⟩

lemma Queued.dequeue_stranger (hc : cpu ≠ q.1) : c.dequeue cpu t = .error .kassert := by
  have hm : t ≠ c.bottom cpu := by
    intro he
    exact hc (congrArg Prod.fst (h.tail_eq (r := (cpu,false)) he))
  have hs : t ≠ c.bottomSub cpu := by
    intro he
    exact hc (congrArg Prod.fst (h.tail_eq (r := (cpu,true)) he))
  rw [h.dequeue_eq,h.last_next,closeGap,if_neg hm,if_neg hs]
  rfl

end

lemma remove_queued (h : Queued c qu q t l₁ l₂) (cp : CpuId) :
    c.remove cp t = c.dequeue cp t := by
  simp only [remove,h.waiting]
  rfl

lemma dequeue_ok (h : Queued c qu q t l₁ l₂) (hc : cp = q.1 ∨ l₂ ≠ []) :
    ∃ c', c.dequeue cp t = .ok c' ∧ QueuesOk c' (update qu q (l₁ ++ l₂)) ∧
      c'.status = update c.status t .outOfQueue ∧ RestKept c c' := by
  cases l₂ with
  | nil =>
    obtain rfl := hc.resolve_right (fun hne => hne rfl)
    exact h.dequeue_last
  | cons n r => exact h.dequeue_inner (cons_ne_nil n r) cp

lemma remove_ok (h : Queued c qu q t l₁ l₂) (hc : cp = q.1 ∨ l₂ ≠ []) :
    ∃ c', c.remove cp t = .ok c' ∧ QueuesOk c' (update qu q (l₁ ++ l₂)) ∧
      c'.status = update c.status t .outOfQueue ∧ RestKept c c' := by
  rw [remove_queued h]
  exact dequeue_ok h hc

lemma QueuesOk.same (h : QueuesOk c qu) (hn : c'.next = c.next)
    (hp : c'.prev = c.prev) (hh : c'.head = c.head) (ht : c'.tail = c.tail)
    (hg : ∀ x, c.status x = .guard → c'.status x = .guard)
    (hm : Members c'.status c'.taskCpuid qu) : QueuesOk c' qu := by
  refine ⟨?_,?_,?_,hm⟩
  · rw [hn,hp,hh,ht]
    exact h.dll
  · rw [hh]
    exact h.heads
  · rw [hh]
    exact fun q => hg _ (h.guard q)

lemma QueuesOk.idle (h : QueuesOk c qu) (hw : c.status t ≠ .waitingInQueue)
    (hg : c.status t ≠ .guard) :
    QueuesOk { c with status := update c.status t .outOfQueue } qu := by
  refine h.same rfl rfl (head_congr rfl rfl) (tail_congr rfl rfl) ?_ (h.members.idle hw (by decide))
  intro x hx
  have hne : x ≠ t := by
    rintro rfl
    exact hg hx
  exact (update_of_ne hne _ _).trans hx

lemma dequeue_idle (hw : c.status t ≠ .waitingInQueue) (hg : c.status t ≠ .guard)
    (cp : CpuId) :
    c.dequeue cp t = .ok { c with status := update c.status t .outOfQueue } := by
  cases hs : c.status t with
  | waitingInQueue => exact absurd hs hw
  | guard => exact absurd hs hg
  | running | outOfQueue => simp only [dequeue,hs]

lemma remove_idle (h : QueuesOk c qu) (hw : c.status t ≠ .waitingInQueue)
    (hg : c.status t ≠ .guard) (cp : CpuId) :
    ∃ c', c.remove cp t = .ok c' ∧ QueuesOk c' qu ∧
      c'.status = update c.status t .outOfQueue ∧ RestKept c c' := by
  by_cases ho : c.status t = .outOfQueue
  · refine ⟨c,?_,h,(update_eq_self_iff.mpr ho.symm).symm,restKept_of_queues ..⟩
    simp only [remove,ho]
    rfl
  · refine ⟨_,?_,h.idle hw hg,rfl,restKept_of_queues ..⟩
    rw [← dequeue_idle hw hg cp,remove,if_pos ho]
    simp [kassert,hg,bind,Except.bind]

lemma dequeue_inv (h : QueuesOk c qu)
    (hg : c.status t ≠ .guard) (hc : c.dequeue cpu t = .ok c') :
    ∃ q', QueuesOk c' q' ∧ c'.status = update c.status t .outOfQueue ∧ RestKept c c' := by
  by_cases hw : c.status t = .waitingInQueue
  · obtain ⟨q,hq⟩ := (h.members.waiting t).mp hw
    obtain ⟨l₁,l₂,hl⟩ := append_of_mem hq
    have hqd : Queued c qu q t l₁ l₂ := ⟨h,hl⟩
    by_cases hcp : cpu = q.1 ∨ l₂ ≠ []
    · obtain ⟨d,hd,hok,hr⟩ := dequeue_ok hqd hcp
      obtain rfl := Except.ok.inj (hd.symm.trans hc)
      exact ⟨_,hok,hr⟩
    · obtain ⟨hne,hn⟩ := not_or.mp hcp
      obtain rfl := not_not.mp hn
      rw [hqd.dequeue_stranger hne] at hc
      cases hc
  · rw [dequeue_idle hw hg] at hc
    obtain rfl := Except.ok.inj hc
    exact ⟨qu,h.idle hw hg,rfl,restKept_of_queues ..⟩

lemma finishTask_ok (h : QueuesOk c qu) (t : TaskPtr) : QueuesOk (c.finishTask t) qu := by
  unfold finishTask
  split
  · rename_i hs
    exact h.idle (by simp [hs]) (by simp [hs])
  · exact h

lemma popTask_empty (h : QueuesOk c qu) (hq : qu (cpu,false) = []) :
    c.popTask cpu = .ok (none,c) := by
  have hd := h.dll (cpu,false)
  rw [hq] at hd
  have hn : c.next (c.top cpu) = none := hd.forward.stop
  have hl : c.top cpu = c.bottom cpu := hd.last
  simp only [popTask,hn,← hl,beq_self_eq_true]
  rfl

lemma popTask_some {d : TaskCtrl} (hf : c.next (c.top cpu) = some t) (hne : c.top cpu ≠ t)
    (hd : dropTop { c with next := update c.next (c.top cpu) (c.next t) }
      cpu (c.top cpu) t (c.next t) = .ok d) (hw : d.status t = .waitingInQueue) :
    c.popTask cpu = .ok (some t,{ d with
      status := update d.status t .running
      next := update d.next t none
      prev := update d.prev t none }) := by
  have hs : update c.next (c.top cpu) (c.next t) t = c.next t := update_of_ne hne.symm _ _
  simp only [popTask,hf,hs,hd,bind_ok,kassert_ok]
  exact ⟨d,rfl,(),beq_iff_eq.mpr hw,rfl⟩

section
variable {r : List TaskPtr}

lemma Queued.popped (h : Queued c qu (cp,false) t [] r) (hh : c'.head = c.head)
    (ht : c'.tail = if r = [] then update c.tail (cp,false) (c.top cp) else c.tail)
    (hn : c'.next = update (update c.next (c.top cp) (c.next t)) t none)
    (hb : ∀ n, c.next t = some n → c'.prev n = some (c.top cp))
    (hp : ∀ x, x ≠ t → c.next t ≠ some x → c'.prev x = c.prev x)
    (hs : c'.status = update c.status t .running)
    (hc : c'.taskCpuid = c.taskCpuid) :
    QueuesOk c' (update qu (cp,false) ([] ++ r)) := by
  have hne := h.front_ne
  refine h.ok.drop h.split (by decide) hh ht ?_ ?_ hb hp hs hc
  · rw [hn]
    exact (update_of_ne hne _ _).trans (update_self ..)
  · intro x hxt hxp
    rw [hn,update_of_ne hxt]
    exact update_of_ne hxp _ _

lemma Queued.popTask_last (h : Queued c qu (cp,false) t [] []) :
    ∃ c', c.popTask cp = .ok (some t,c') ∧ QueuesOk c' (update qu (cp,false) ([] ++ [])) ∧
      c'.status = update c.status t .running ∧ RestKept c c' := by
  have hf : c.next (c.top cp) = some t := h.dll.forward.linked.1
  have hb : c.bottom cp = t := h.last_tail.symm
  have hd : dropTop { c with
      next := update c.next (c.top cp) (c.next t) } cp (c.top cp) t (c.next t) =
      .ok { c with
        next := update c.next (c.top cp) (c.next t)
        bottom := update c.bottom cp (c.top cp) } := by
    rw [h.last_next]
    exact if_pos hb
  refine ⟨_,popTask_some hf h.front_ne hd h.waiting,?_,rfl,restKept_of_queues ..⟩
  refine h.popped (head_congr rfl rfl) ?_ rfl ?_ ?_ rfl rfl
  · rw [if_pos rfl]
    exact tail_main rfl rfl
  · intro n hn
    rw [h.last_next] at hn
    cases hn
  · intro x hxt _
    exact update_of_ne hxt _ _

lemma Queued.popTask_inner {n : TaskPtr} (h : Queued c qu (cp,false) t [] (n :: r)) :
    ∃ c', c.popTask cp = .ok (some t,c') ∧
      QueuesOk c' (update qu (cp,false) ([] ++ n :: r)) ∧
      c'.status = update c.status t .running ∧ RestKept c c' := by
  have hf : c.next (c.top cp) = some t := h.dll.forward.linked.1
  have hnt : c.next t = some n := h.dll.forward.next_eq
  have hne : n ≠ t := by
    rintro rfl
    exact (nodup_cons.mp (h.dll.forward.parts).2.1).1 mem_cons_self
  have hd : dropTop { c with
      next := update c.next (c.top cp) (c.next t) } cp (c.top cp) t (c.next t) =
      .ok { c with
        next := update c.next (c.top cp) (c.next t)
        prev := update c.prev n (some (c.top cp)) } := by
    rw [hnt]
    rfl
  refine ⟨_,popTask_some hf h.front_ne hd h.waiting,?_,rfl,restKept_of_queues ..⟩
  refine h.popped (head_congr rfl rfl) ?_ rfl ?_ ?_ rfl rfl
  · rw [if_neg (cons_ne_nil n r)]
    exact tail_congr rfl rfl
  · intro m hm
    obtain rfl := Option.some.inj (hnt.symm.trans hm)
    exact (update_of_ne hne _ _).trans (update_self ..)
  · intro x hxt hx
    have hxn : x ≠ n := by
      rintro rfl
      exact hx hnt
    exact (update_of_ne hxt _ _).trans (update_of_ne hxn _ _)

lemma popTask_front (h : QueuesOk c qu) (hq : qu (cp,false) = t :: r) :
    ∃ c', c.popTask cp = .ok (some t,c') ∧ QueuesOk c' (update qu (cp,false) r) ∧
      c'.status = update c.status t .running ∧ RestKept c c' := by
  have hqd : Queued c qu (cp,false) t [] r := ⟨h,hq⟩
  cases r with
  | nil => exact hqd.popTask_last
  | cons n r => exact hqd.popTask_inner

end

def swapOf (cpuid : CpuId) (q : QueueId) : QueueId := if q.1 = cpuid then (q.1,!q.2) else q

lemma swapOf_cpuid (cp : CpuId) (q : QueueId) : (swapOf cp q).1 = q.1 := by
  unfold swapOf
  split <;> rfl

lemma swapOf_swapOf (cp : CpuId) (q : QueueId) : swapOf cp (swapOf cp q) = q := by
  rcases eq_or_ne q.1 cp with h | h
  · subst h
    simp [swapOf]
  · simp [swapOf,h]

section
variable (h : QueuesOk c qu)
include h

lemma QueuesOk.relabel (cp : CpuId) (hh : ∀ q, c'.head q = c.head (swapOf cp q))
    (ht : ∀ q, c'.tail q = c.tail (swapOf cp q)) (hn : c'.next = c.next)
    (hp : c'.prev = c.prev) (hs : c'.status = c.status)
    (hc : c'.taskCpuid = c.taskCpuid) : QueuesOk c' (fun q => qu (swapOf cp q)) := by
  have hin : ∀ q r, swapOf cp q = swapOf cp r → q = r := by
    intro q r he
    rw [← swapOf_swapOf cp q,he,swapOf_swapOf]
  refine ⟨?_,?_,?_,?_,?_,?_⟩
  · intro q
    rw [hh,ht,hn,hp]
    exact h.dll _
  · intro q r he
    rw [hh,hh] at he
    exact hin q r (h.heads _ _ he)
  · intro q
    rw [hh,hs]
    exact h.guard _
  · intro t
    rw [hs,h.members.waiting t]
    constructor
    · rintro ⟨q,hq⟩
      exact ⟨swapOf cp q,(swapOf_swapOf cp q).symm ▸ hq⟩
    · rintro ⟨q,hq⟩
      exact ⟨swapOf cp q,hq⟩
  · intro q r t hq hr
    exact hin q r (h.members.once _ _ t hq hr)
  · intro q t hq
    rw [hc,h.members.owner _ t hq,swapOf_cpuid]

lemma swapQueues_slept (hm : qu (cpu,false) = []) (hs : qu (cpu,true) = []) :
    c.swapQueues cpu = (true,c.setState cpu .slept) := by
  have hto : c.next (c.top cpu) = none := by
    refine (h.dll (cpu,false)).forward.first.trans ?_
    rw [hm,head?_nil]
  have ht : c.next (c.topSub cpu) = none := by
    refine (h.dll (cpu,true)).forward.first.trans ?_
    rw [hs,head?_nil]
  simp [swapQueues,hto,ht]

lemma swapQueues_ok (hne : ¬ (qu (cp,false) = [] ∧ qu (cp,true) = [])) :
    ∃ c', c.swapQueues cp = (false,c') ∧ QueuesOk c' (fun q => qu (swapOf cp q)) ∧
      c'.status = c.status ∧ RestKept c c' := by
  have hto : c.next (c.top cp) = (qu (cp,false)).head? :=
    (h.dll (cp,false)).forward.first
  have ht : c.next (c.topSub cp) = (qu (cp,true)).head? :=
    (h.dll (cp,true)).forward.first
  have hs : ((c.next (c.top cp)).isNone && (c.next (c.topSub cp)).isNone) = false := by
    rw [hto,ht]
    simpa using hne
  rw [swapQueues,hs]
  refine ⟨_,rfl,h.relabel cp ?_ ?_ rfl rfl rfl rfl,rfl,restKept_of_queues ..⟩
  · rintro ⟨i,b⟩
    rcases eq_or_ne i cp with rfl | hi
    · cases b <;> simp [TaskCtrl.head,swapOf]
    · cases b <;> simp [TaskCtrl.head,swapOf,hi]
  · rintro ⟨i,b⟩
    rcases eq_or_ne i cp with rfl | hi
    · cases b <;> simp [TaskCtrl.tail,swapOf]
    · cases b <;> simp [TaskCtrl.tail,swapOf,hi]

lemma setState_ok (cp : CpuId) (st : TaskQueueState) : QueuesOk (c.setState cp st) qu :=
  h.same rfl rfl (head_congr rfl rfl) (tail_congr rfl rfl) (fun _ hx => hx)
    h.members

lemma swapQueues_inv (cp : CpuId) : ∃ q', QueuesOk (c.swapQueues cp).2 q' ∧
      (∀ q, q.1 ≠ cp → q' q = qu q) ∧ (c.swapQueues cp).2.status = c.status ∧
      CalloutsKept c (c.swapQueues cp).2 := by
  by_cases hn : qu (cp,false) = [] ∧ qu (cp,true) = []
  · rw [swapQueues_slept h hn.1 hn.2]
    exact ⟨qu,setState_ok h cp .slept,fun _ _ => rfl,rfl,⟨rfl,rfl,rfl,rfl,rfl,rfl,rfl⟩⟩
  · obtain ⟨c',hc,hok,hs,hr⟩ := swapQueues_ok h hn
    rw [hc]
    refine ⟨_,hok,fun q hq => ?_,hs,hr.toCalloutsKept⟩
    rw [swapOf,if_neg hq]

lemma popTask_inv (hc : c.popTask cp = .ok (some t,c')) :
    c.status t = .waitingInQueue ∧ ∃ q', QueuesOk c' q' ∧
      (∀ q, q.1 ≠ cp → q' q = qu q) ∧
      c'.status = update c.status t .running ∧ RestKept c c' := by
  cases hq : qu _ with
  | nil =>
    rw [popTask_empty h hq] at hc
    cases hc
  | cons x r =>
    obtain ⟨d,hd,hok,hr⟩ := popTask_front h hq
    rw [hd] at hc
    cases hc
    have hm : t ∈ qu (cp,false) := by
      rw [hq]
      exact mem_cons_self
    refine ⟨(h.members.waiting t).mpr ⟨_,hm⟩,_,hok,fun q hne => ?_,hr⟩
    refine update_of_ne ?_ _ _
    rintro rfl
    exact hne rfl

end

lemma setup_ok (c : TaskCtrl) : QueuesOk c.setup (fun _ => []) := by
  refine ⟨?_,?_,?_,?_,?_,?_⟩
  · rintro ⟨cp,b⟩
    cases b <;> exact ⟨⟨trivial,rfl,nodup_singleton _⟩,trivial,rfl⟩
  · rintro ⟨i,b⟩ ⟨j,d⟩ h
    cases b <;> cases d <;> cases h <;> rfl
  · rintro ⟨cp,b⟩
    cases b <;> rfl
  · intro t
    cases t <;> simp [setup]
  · simp
  · simp

theorem remove_any_cpu (c : TaskCtrl) (queue : QueueId → List TaskPtr) (cpuid : CpuId)
    (q : QueueId) (t : TaskPtr) (hok : QueuesOk c queue) (ht : t ∈ queue q) :
    ((∃ c', c.remove cpuid t = .ok c' ∧ QueuesOk c' (update queue q ((queue q).erase t))) ↔
      cpuid = q.1 ∨ c.next t ≠ none) ∧
    (¬ (cpuid = q.1 ∨ c.next t ≠ none) → c.remove cpuid t = .error .kassert) := by
  obtain ⟨l₁,l₂,-,hl,he⟩ := exists_erase_eq ht
  have h : Queued c queue q t l₁ l₂ := ⟨hok,hl⟩
  have hne : c.next t ≠ none ↔ l₂ ≠ [] := by
    rw [h.dll.forward.next_eq]
    cases l₂ <;> simp
  have hf : ¬ (cpuid = q.1 ∨ c.next t ≠ none) → c.remove cpuid t = .error .kassert := by
    intro hn
    rw [hne] at hn
    obtain ⟨hcp,hla⟩ := not_or.mp hn
    obtain rfl := not_not.mp hla
    rw [remove_queued h,h.dequeue_stranger hcp]
  refine ⟨⟨?_,?_⟩,hf⟩
  · rintro ⟨c',hc,_⟩
    by_contra hn
    rw [hf hn] at hc
    cases hc
  · intro hco
    rw [hne] at hco
    obtain ⟨c',hc,hok',_⟩ := remove_ok h hco
    exact ⟨c',hc,he ▸ hok'⟩

def blankCtrl : TaskCtrl where
  next := fun _ => none
  prev := fun _ => none
  taskCpuid := fun _ => 0
  status := fun _ => .outOfQueue
  func := fun _ => .user
  top := fun cpuid => .guard cpuid false
  bottom := fun cpuid => .guard cpuid false
  topSub := fun cpuid => .guard cpuid true
  bottomSub := fun cpuid => .guard cpuid true
  state := fun _ => .notStarted
  dtop := fun cpuid => .guard cpuid
  calloutTask := fun
    | .guard cpuid => .task (2 * cpuid)
    | .callout id => .task (2 * id + 1)
  calloutNext := fun _ => none
  calloutTime := fun _ => 0
  calloutCpuid := fun _ => 0
  calloutPending := fun _ => false
  calloutState := fun _ => .stopped

lemma blankCtrl_tasks (x : CalloutPtr) : ∃ id, blankCtrl.calloutTask x = .task id := by
  cases x <;> exact ⟨_,rfl⟩

theorem remove_any_cpu_pair :
    ∃ c', ((blankCtrl.setup.enqueue 1 (.task 0)).enqueue 1 (.task 1)).remove 0 (.task 0) = .ok c' := by
  have ho := enqueue_ok (setup_ok blankCtrl) (t := .task 0) (by decide) (by decide) 1
  have ht := enqueue_ok ho (t := .task 1) (by decide) (by decide) 1
  obtain ⟨c',hc,_⟩ := (remove_any_cpu _ _ 0 (1,true) (.task 0) ht (by simp)).1.mpr
    (.inr (by decide))
  exact ⟨c',hc⟩

theorem remove_stranger_panics : QueuesOk (blankCtrl.setup.enqueue 1 (.task 0))
      (update (fun _ => []) (1,true) ([] ++ [.task 0])) ∧
    (blankCtrl.setup.enqueue 1 (.task 0)).taskCpuid (.task 0) = 1 ∧
    (blankCtrl.setup.enqueue 1 (.task 0)).remove 0 (.task 0) = .error .kassert :=
  ⟨enqueue_ok (setup_ok blankCtrl) (by decide) (by decide) 1,rfl,rfl⟩

end Tasks
