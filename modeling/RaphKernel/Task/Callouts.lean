import RaphKernel.Task.RunQueue

namespace Tasks
open Raph Function List TaskCtrl
open Timer
open Links
variable {l₁ l₂ : List CalloutPtr} {c' c₁ c₂ : TaskCtrl} {head : CalloutPtr} {st : Status}
  {lists₁ lists₂ : CpuId → List CalloutPtr} {P : CalloutPtr → Prop}

structure ListsOk (c : TaskCtrl) (lists : CpuId → List CalloutPtr) : Prop where
  sll : ∀ i, Sll c.calloutNext (c.dtop i) (lists i)
  apart : ∀ i j x, x ∈ c.dtop i :: lists i → x ∈ c.dtop j :: lists j → i = j
  owner : ∀ i x, x ∈ lists i → c.calloutCpuid x = i

variable {c : TaskCtrl} {ls : CpuId → List CalloutPtr} {x : CalloutPtr} {cpu : CpuId}

lemma ListsOk.same (h : ListsOk c ls) (hn : c'.calloutNext = c.calloutNext)
    (hd : c'.dtop = c.dtop) (hc : ∀ i x, x ∈ ls i → c'.calloutCpuid x = c.calloutCpuid x) :
    ListsOk c' ls := by
  refine ⟨?_,?_,?_⟩
  · rw [hn,hd]
    exact h.sll
  · rw [hd]
    exact h.apart
  · intro i y hy
    rw [hc i y hy,h.owner i y hy]

lemma ListsOk.keep (h : ListsOk c ls) (hk : CalloutsKept c c') : ListsOk c' ls :=
  h.same hk.calloutNext hk.dtop (fun _ _ _ => by rw [hk.calloutCpuid])

lemma mem_inserted (hs : ls cpu = l₁ ++ l₂) (i : CpuId) (y : CalloutPtr) :
    y ∈ update ls cpu (l₁ ++ x :: l₂) i ↔ y ∈ ls i ∨ i = cpu ∧ y = x := by
  rcases eq_or_ne i cpu with rfl | hne
  · rw [update_self,hs]
    simp only [mem_append,mem_cons]
    tauto
  · simp [hne]

lemma ListsOk.link (h : ListsOk c ls)
    (hs : ls cpu = l₁ ++ l₂) (hx : ∀ i, x ∉ c.dtop i :: ls i)
    (hc : c.calloutCpuid x = cpu) :
    ListsOk (c.linkCallout x (final (c.dtop cpu) l₁) l₂.head?)
      (update ls cpu (l₁ ++ x :: l₂)) := by
  have hm := mem_inserted (x := x) hs
  have hsl := h.sll cpu
  rw [hs] at hsl
  have hp : final (c.dtop cpu) l₁ ∈ c.dtop cpu :: ls cpu := by
    rw [hs,← List.cons_append]
    exact mem_append_left _ (final_mem _ _)
  have hne : ∀ i, ∀ y ∈ c.dtop i :: ls i, y ≠ x := by
    rintro i y hy rfl
    exact hx i hy
  refine ⟨?_,?_,?_⟩
  · intro i
    rcases eq_or_ne i cpu with rfl | hi
    · rw [update_self]
      refine hsl.insert (hs ▸ hx i) (update_self ..) ?_ ?_
      · exact (update_of_ne (hne i _ hp).symm _ _).trans (update_self ..)
      · intro y hy hyp
        rw [← hs] at hy
        exact (update_of_ne hyp _ _).trans (update_of_ne (hne i y hy) _ _)
    · rw [update_of_ne hi]
      refine (h.sll i).congr (fun y hy => ?_)
      have hyp : y ≠ final (c.dtop cpu) l₁ := by
        rintro rfl
        exact hi (h.apart i cpu _ hy hp)
      exact (update_of_ne hyp _ _).trans (update_of_ne (hne i y hy) _ _)
  · have hn : ∀ i y, y ∈ c.dtop i :: update ls cpu (l₁ ++ x :: l₂) i →
        y ∈ c.dtop i :: ls i ∨ i = cpu ∧ y = x := by
      intro i y hy
      rw [mem_cons,hm] at hy
      rw [mem_cons]
      tauto
    intro i j y hi hj
    rcases hn i y hi with ho | ⟨rfl,rfl⟩
    · rcases hn j y hj with ho' | ⟨_,rfl⟩
      · exact h.apart i j y ho ho'
      · exact absurd ho (hx i)
    · rcases hn j y hj with ho' | ⟨rfl,_⟩
      · exact absurd ho' (hx j)
      · rfl
  · intro i y hy
    rcases (hm i y).mp hy with hy | ⟨rfl,rfl⟩
    · exact h.owner i y hy
    · exact hc

lemma ListsOk.mem_erased (h : ListsOk c ls)
    (hs : ls cpu = l₁ ++ x :: l₂) (i : CpuId) (y : CalloutPtr) :
    y ∈ update ls cpu (l₁ ++ l₂) i ↔ y ∈ ls i ∧ y ≠ x := by
  have hxl : x ∈ ls cpu := by
    rw [hs]
    simp
  rcases eq_or_ne i cpu with rfl | hne
  · have hsl := h.sll i
    rw [hs] at hsl
    have ho : x ∉ l₁ ++ l₂ := fun hy => hsl.notMem (mem_cons_of_mem _ hy)
    rw [update_self,hs]
    constructor
    · intro hy
      refine ⟨by simp only [mem_append,mem_cons] at hy ⊢; tauto,?_⟩
      rintro rfl
      exact ho hy
    · rintro ⟨hy,_⟩
      simp only [mem_append,mem_cons] at hy ⊢
      tauto
  · rw [update_of_ne hne]
    refine ⟨fun hy => ⟨hy,?_⟩,And.left⟩
    rintro rfl
    exact hne (h.apart i cpu y (mem_cons_of_mem _ hy) (mem_cons_of_mem _ hxl))

lemma ListsOk.unlink (h : ListsOk c ls)
    (hs : ls cpu = l₁ ++ x :: l₂) (hd : c'.dtop = c.dtop)
    (hne : c'.calloutNext = update (update c.calloutNext
      (final (c.dtop cpu) l₁) (c.calloutNext x)) x none)
    (hc : c'.calloutCpuid = c.calloutCpuid) :
    ListsOk c' (update ls cpu (l₁ ++ l₂)) := by
  have hm := h.mem_erased hs
  have hsl := h.sll cpu
  rw [hs] at hsl
  have hxl : x ∈ ls cpu := by
    rw [hs]
    simp
  have hp : final (c.dtop cpu) l₁ ∈ c.dtop cpu :: ls cpu := by
    rw [hs,← List.cons_append]
    exact mem_append_left _ (final_mem _ _)
  have hg : ∀ i, c.dtop i ≠ x := by
    intro i he
    obtain rfl := h.apart i cpu x (he ▸ mem_cons_self) (mem_cons_of_mem _ hxl)
    exact (nodup_cons.mp (h.sll i).nodup).1 (he ▸ hxl)
  have hn : ∀ i y, y ∈ c.dtop i :: update ls cpu (l₁ ++ l₂) i →
      y ∈ c.dtop i :: ls i ∧ y ≠ x := by
    intro i y hy
    rcases mem_cons.mp hy with rfl | hy
    · exact ⟨mem_cons_self,hg i⟩
    · exact ⟨mem_cons_of_mem _ ((hm i y).mp hy).1,((hm i y).mp hy).2⟩
  refine ⟨?_,?_,?_⟩
  · intro i
    rw [hne,hd]
    rcases eq_or_ne i cpu with rfl | hi
    · rw [update_self]
      refine hsl.unlink ?_ ?_
      · have hpx : final (c.dtop i) l₁ ≠ x := by
          rintro he
          exact (hsl.parts).2.2 _ (final_mem _ _) (he ▸ mem_cons_self)
        rw [update_of_ne hpx,update_self]
      · intro y hy hyp
        have hyx := (hn i y (by rwa [update_self])).2
        rw [update_of_ne hyx,update_of_ne hyp]
    · rw [update_of_ne hi]
      refine (h.sll i).congr (fun y hy => ?_)
      have hyp : y ≠ final (c.dtop cpu) l₁ := by
        rintro rfl
        exact hi (h.apart i cpu _ hy hp)
      have hyx : y ≠ x := by
        rintro rfl
        exact hi (h.apart i cpu y hy (mem_cons_of_mem _ hxl))
      rw [update_of_ne hyx,update_of_ne hyp]
  · rw [hd]
    intro i j y hi hj
    exact h.apart i j y (hn i y hi).1 (hn j y hj).1
  · intro i y hy
    rw [hc]
    exact h.owner i y ((hm i y).mp hy).1

def Earlier (c : TaskCtrl) (x y : CalloutPtr) : Bool :=
  !isGreater (c.calloutTime y) (c.calloutTime x)

lemma insert_returns (h : Sll c.calloutNext head (l₁ ++ l₂)) :
    Loop.Returns (c.insertBody x) (final head l₁)
      (c.linkCallout x (final head (l₁ ++ l₂.takeWhile (Earlier c x)))
        (l₂.dropWhile (Earlier c x)).head?) := by
  induction l₂ generalizing l₁ with
  | nil =>
    refine Loop.returns_of_exit ?_
    rw [insertBody,h.after]
    simp
  | cons y rest ih =>
    by_cases hy : isGreater (c.calloutTime y) (c.calloutTime x) = true
    · refine Loop.returns_of_exit ?_
      have he : Earlier c x y = false := by simp [Earlier,hy]
      simp [insertBody,h.after,hy,he]
    · have he : Earlier c x y = true := by simp [Earlier,hy]
      have hs : c.insertBody x (final head l₁) = .inl y := by
        simp [insertBody,h.after,hy]
      have ha : l₁ ++ y :: rest = (l₁ ++ [y]) ++ rest := by simp
      rw [ha] at h
      have hr := ih h
      rw [Loop.returns_step_iff hs]
      simpa [he,final_append,final] using hr

lemma insertCallout_yields (h : ListsOk c ls) (x : CalloutPtr) (cpu : CpuId) :
    Loop.Yields (fun fuel => c.insertCallout fuel x cpu)
      (c.linkCallout x (final (c.dtop cpu) ((ls cpu).takeWhile (Earlier c x)))
        ((ls cpu).dropWhile (Earlier c x)).head?) := by
  have hs : Sll c.calloutNext (c.dtop cpu) ([] ++ ls cpu) := h.sll cpu
  exact Loop.yields_of_returns (insert_returns hs)

lemma unlink_returns {l : List CalloutPtr} (h : Sll c.calloutNext head (l ++ (l₁ ++ x :: l₂))) :
    Loop.Returns (c.unlinkBody x) (final head l)
      { c with calloutNext := update c.calloutNext (final head (l ++ l₁)) (c.calloutNext x) } := by
  induction l₁ generalizing l with
  | nil =>
    refine Loop.returns_of_exit ?_
    simp [unlinkBody,h.after]
  | cons y rest ih =>
    have hne : y ≠ x := by
      rintro rfl
      exact (nodup_cons.mp (h.parts).2.1).1 (by simp)
    have hs : c.unlinkBody x (final head l) = .inl y := by
      simp [unlinkBody,h.after,hne]
    have ha : l ++ (y :: rest ++ x :: l₂) = (l ++ [y]) ++ (rest ++ x :: l₂) := by simp
    rw [ha] at h
    have hr := ih h
    rw [Loop.returns_step_iff hs]
    simpa [final_append,final] using hr

lemma unlinkCallout_yields (h : ListsOk c ls) (hs : ls cpu = l₁ ++ x :: l₂) :
    Loop.Yields (fun fuel => c.unlinkCallout fuel x cpu)
      { c with calloutNext := update (update c.calloutNext
        (final (c.dtop cpu) l₁) (c.calloutNext x)) x none } := by
  have hsl : Sll c.calloutNext (c.dtop cpu) ([] ++ (l₁ ++ x :: l₂)) := hs ▸ h.sll cpu
  exact (Loop.yields_of_returns (unlink_returns hsl)).map _

lemma ListsOk.first_eq (h : ListsOk c ls) (cpu : CpuId) :
    c.calloutNext (c.dtop cpu) = (ls cpu).head? :=
  (h.sll cpu).first

structure CtrlOk (c : TaskCtrl) (queue : QueueId → List TaskPtr)
    (lists : CpuId → List CalloutPtr) : Prop where
  queues : QueuesOk c queue
  lists : ListsOk c lists
  dtop : ∀ i, c.dtop i = .guard i
  tasks : ∀ x, ∃ id, c.calloutTask x = .task id
  own : ∀ x y, c.calloutTask x = c.calloutTask y → x = y
  users : ∀ id, c.status (.task id) ≠ .guard
  func : ∀ t x, c.func t = .handleSub x → t = c.calloutTask x

structure Same (c c' : TaskCtrl) (lists lists' : CpuId → List CalloutPtr) (y : CalloutPtr) :
    Prop where
  state : c'.calloutState y = c.calloutState y
  cpuid : c'.calloutCpuid y = c.calloutCpuid y
  linked : ∀ i, y ∈ lists' i ↔ y ∈ lists i
  waiting : c'.status (c'.calloutTask y) = .waitingInQueue ↔
    c.status (c.calloutTask y) = .waitingInQueue

structure Effect (c : TaskCtrl) (lists : CpuId → List CalloutPtr) (touched : CalloutPtr → Prop)
    (c' : TaskCtrl) (queue' : QueueId → List TaskPtr) (lists' : CpuId → List CalloutPtr) :
    Prop where
  ok : CtrlOk c' queue' lists'
  task : c'.calloutTask = c.calloutTask
  frame : ∀ y, ¬ touched y → Same c c' lists lists' y

structure Rest (c : TaskCtrl) (lists : CpuId → List CalloutPtr) (x : CalloutPtr) : Prop where
  linked : c.calloutState x = .calloutQueue ↔ ∃ i, x ∈ lists i
  waiting : c.status (c.calloutTask x) = .waitingInQueue → c.calloutState x = .taskQueue

structure Loose (c : TaskCtrl) (lists : CpuId → List CalloutPtr) (x : CalloutPtr) : Prop where
  unlinked : ∀ i, x ∉ lists i
  idle : c.status (c.calloutTask x) ≠ .waitingInQueue

variable {c' : TaskCtrl} {queue q' : QueueId → List TaskPtr}
  {ls' : CpuId → List CalloutPtr} {t : TaskPtr}

lemma Same.refl (c : TaskCtrl) (ls : CpuId → List CalloutPtr) (y : CalloutPtr) :
    Same c c ls ls y := ⟨rfl,rfl,fun _ => Iff.rfl,Iff.rfl⟩

lemma Rest.same (h : Rest c ls x) (hs : Same c c' ls ls' x) : Rest c' ls' x := by
  refine ⟨?_,fun hw => ?_⟩
  · rw [hs.state,h.linked]
    simp only [hs.linked]
  · rw [hs.state]
    exact h.waiting (hs.waiting.mp hw)

lemma Loose.same (h : Loose c ls x) (hs : Same c c' ls ls' x) : Loose c' ls' x :=
  ⟨fun i hx => h.unlinked i ((hs.linked i).mp hx),fun hw => h.idle (hs.waiting.mp hw)⟩

lemma Loose.rest (h : Loose c ls x) (hs : c.calloutState x ≠ .calloutQueue) : Rest c ls x :=
  ⟨iff_of_false hs (fun ⟨i,hx⟩ => h.unlinked i hx),fun hw => absurd hw h.idle⟩

lemma Rest.unlinked (h : Rest c ls x) (hs : c.calloutState x ≠ .calloutQueue) (i : CpuId) :
    x ∉ ls i := fun hx => hs (h.linked.mpr ⟨i,hx⟩)

lemma Rest.idle (h : Rest c ls x) (hs : c.calloutState x ≠ .taskQueue) :
    c.status (c.calloutTask x) ≠ .waitingInQueue := fun hw => hs (h.waiting hw)

section
variable (h : CtrlOk c queue ls)
include h

lemma CtrlOk.not_guard (x : CalloutPtr) : c.status (c.calloutTask x) ≠ .guard := by
  obtain ⟨id,hid⟩ := h.tasks x
  rw [hid]
  exact h.users id

lemma CtrlOk.not_node {id : ℕ} (hx : ∀ i, CalloutPtr.callout id ∉ ls i) (i : CpuId) :
    CalloutPtr.callout id ∉ c.dtop i :: ls i := by
  rw [h.dtop i]
  simpa using hx i

lemma CtrlOk.keep (hok : QueuesOk c' q') (hk : CalloutsKept c c')
    (hu : ∀ id, c'.status (.task id) ≠ .guard) : CtrlOk c' q' ls := by
  refine ⟨hok,h.lists.keep hk,?_,?_,?_,hu,?_⟩
  · rw [hk.dtop]
    exact h.dtop
  · rw [hk.calloutTask]
    exact h.tasks
  · rw [hk.calloutTask]
    exact h.own
  · rw [hk.func,hk.calloutTask]
    exact h.func

lemma CtrlOk.requeued (hok : QueuesOk c' q') (hk : CalloutsKept c c') (hst : st ≠ .guard)
    (hs : c'.status = update c.status t st) :
    Effect c ls (fun y => c.calloutTask y = t) c' q' ls := by
  refine ⟨h.keep hok hk (hs ▸ users_update h.users hst t),hk.calloutTask,fun y hy => ?_⟩
  refine ⟨by rw [hk.calloutState],by rw [hk.calloutCpuid],fun _ => Iff.rfl,?_⟩
  rw [hk.calloutTask,hs,update_of_ne hy]

end

lemma Rest.mono (h : Rest c ls x) (hs : c'.calloutState = c.calloutState)
    (hw : c'.status (c'.calloutTask x) = .waitingInQueue →
      c.status (c.calloutTask x) = .waitingInQueue) : Rest c' ls x :=
  ⟨by rw [hs]; exact h.linked,fun hx => by rw [hs]; exact h.waiting (hw hx)⟩

lemma waiting_of_idle (hk : CalloutsKept c c') (hst : st ≠ .waitingInQueue)
    (hs : c'.status = update c.status t st)
    (hw : c'.status (c'.calloutTask x) = .waitingInQueue) :
    c.status (c.calloutTask x) = .waitingInQueue ∧ c.calloutTask x ≠ t := by
  rw [hk.calloutTask,hs] at hw
  rcases eq_or_ne (c.calloutTask x) t with he | hne
  · rw [he,update_self] at hw
    exact absurd hw hst
  · rw [update_of_ne hne] at hw
    exact ⟨hw,hne⟩

lemma Same.trans
    (h : Same c c₁ ls lists₁ x) (h' : Same c₁ c₂ lists₁ lists₂ x) : Same c c₂ ls lists₂ x :=
  ⟨h'.state.trans h.state,h'.cpuid.trans h.cpuid,fun i => (h'.linked i).trans (h.linked i),
    h'.waiting.trans h.waiting⟩

lemma Effect.trans
    {queue₁ queue₂ : QueueId → List TaskPtr}
    (h : Effect c ls P c₁ queue₁ lists₁) (h' : Effect c₁ lists₁ P c₂ queue₂ lists₂) :
    Effect c ls P c₂ queue₂ lists₂ :=
  ⟨h'.ok,h'.task.trans h.task,fun y hy => (h.frame y hy).trans (h'.frame y hy)⟩

lemma Effect.refl (h : CtrlOk c queue ls) (P : CalloutPtr → Prop) :
    Effect c ls P c queue ls := ⟨h,rfl,fun y _ => Same.refl c ls y⟩

lemma Effect.weaken {Q : CalloutPtr → Prop} (h : Effect c ls P c' q' ls')
    (hpq : ∀ y, P y → Q y) : Effect c ls Q c' q' ls' :=
  ⟨h.ok,h.task,fun y hy => h.frame y (fun hp => hy (hpq y hp))⟩

section
variable (h : CtrlOk c queue ls)
include h

lemma CtrlOk.withState (state : CalloutPtr → CalloutState) (pending : CalloutPtr → Bool)
    {func : TaskPtr → TaskFunc} (hf : ∀ t x, func t = .handleSub x → t = c.calloutTask x) :
    CtrlOk { c with calloutState := state, calloutPending := pending, func := func } queue ls :=
  ⟨h.queues.same rfl rfl (head_congr rfl rfl) (tail_congr rfl rfl)
    (fun _ hx => hx) h.queues.members,h.lists.same rfl rfl (fun _ _ _ => rfl),h.dtop,h.tasks,h.own,
    h.users,hf⟩

lemma CtrlOk.func_update (x : CalloutPtr) {f : TaskFunc} (hf : ∀ y, f = .handleSub y → y = x)
    (t : TaskPtr) (y : CalloutPtr) (ht : update c.func (c.calloutTask x) f t = .handleSub y) :
    t = c.calloutTask y := by
  rcases eq_or_ne t (c.calloutTask x) with rfl | hne
  · rw [update_self] at ht
    rw [hf y ht]
  · rw [update_of_ne hne] at ht
    exact h.func t y ht

lemma setStopped_effect (x : CalloutPtr) : Effect c ls (· = x) (c.setStopped x) queue ls :=
  ⟨h.withState _ _ h.func,rfl,fun _ hy => ⟨update_of_ne hy _ _,rfl,fun _ => Iff.rfl,Iff.rfl⟩⟩

lemma cancel_effect (x : CalloutPtr) : Effect c ls (fun _ => False) (c.cancel x) queue ls :=
  ⟨h.withState _ _ h.func,rfl,fun _ _ => ⟨rfl,rfl,fun _ => Iff.rfl,Iff.rfl⟩⟩

lemma beginHandling_effect (x : CalloutPtr) :
    Effect c ls (· = x) (c.beginHandling x) queue ls :=
  ⟨h.withState _ _ (h.func_update x (fun _ hf => by cases hf)),rfl,
    fun _ hy => ⟨update_of_ne hy _ _,rfl,fun _ => Iff.rfl,Iff.rfl⟩⟩

lemma setHandler_effect (hx : ∀ i, x ∉ ls i) (cpu : CpuId) (time : Word) :
    Effect c ls (· = x) (c.setHandler x cpu time) queue ls := by
  refine ⟨⟨?_,?_,h.dtop,h.tasks,h.own,h.users,?_⟩,rfl,?_⟩
  · exact h.queues.same rfl rfl (head_congr rfl rfl) (tail_congr rfl rfl)
      (fun _ hx => hx) h.queues.members
  · refine h.lists.same rfl rfl (fun i y hy => update_of_ne ?_ _ _)
    rintro rfl
    exact hx i hy
  · refine h.func_update x (fun y hf => ?_)
    cases hf
    rfl
  · exact fun _ hy => ⟨rfl,update_of_ne hy _ _,fun _ => Iff.rfl,Iff.rfl⟩

lemma link_effect (hs : ls cpu = l₁ ++ l₂) (hx : ∀ i, x ∉ c.dtop i :: ls i)
    (hc : c.calloutCpuid x = cpu) :
    Effect c ls (· = x) (c.linkCallout x (final (c.dtop cpu) l₁) l₂.head?) queue
      (update ls cpu (l₁ ++ x :: l₂)) := by
  refine ⟨⟨?_,h.lists.link hs hx hc,h.dtop,h.tasks,h.own,h.users,h.func⟩,rfl,fun y hy => ?_⟩
  · exact h.queues.same rfl rfl (head_congr rfl rfl) (tail_congr rfl rfl)
      (fun _ hx => hx) h.queues.members
  · refine ⟨update_of_ne hy _ _,rfl,fun i => ?_,Iff.rfl⟩
    rw [mem_inserted hs]
    exact or_iff_left (fun hyx => hy hyx.2)

lemma unlink_effect (hs : ls cpu = l₁ ++ x :: l₂) :
    Effect c ls (· = x) { c with calloutNext := update (update c.calloutNext
        (final (c.dtop cpu) l₁) (c.calloutNext x)) x none } queue
      (update ls cpu (l₁ ++ l₂)) := by
  refine ⟨⟨?_,h.lists.unlink hs rfl rfl rfl,h.dtop,h.tasks,h.own,h.users,h.func⟩,rfl,fun y hy => ?_⟩
  · exact h.queues.same rfl rfl (head_congr rfl rfl) (tail_congr rfl rfl)
      (fun _ hx => hx) h.queues.members
  · refine ⟨rfl,rfl,fun i => ?_,Iff.rfl⟩
    rw [h.lists.mem_erased hs]
    exact and_iff_left hy

lemma takeCallout_effect {rest : List CalloutPtr} (hsp : ls cpu = x :: rest) :
    Effect c ls (· = x) (c.takeCallout (c.dtop cpu) x) queue
      (update ls cpu rest) := by
  have hn : ls cpu = [] ++ x :: rest := hsp
  have hun := unlink_effect h hn
  refine ⟨hun.ok.withState _ _ h.func,rfl,fun y hy => ?_⟩
  have hs := hun.frame y hy
  exact ⟨update_of_ne hy _ _,rfl,hs.linked,Iff.rfl⟩

lemma finishTask_effect (t : TaskPtr) :
    Effect c ls (fun _ => False) (c.finishTask t) queue ls := by
  have hok := finishTask_ok h.queues t
  unfold finishTask at hok ⊢
  split
  · rename_i hs
    rw [if_pos hs] at hok
    have hk : CalloutsKept c { c with status := update c.status t .outOfQueue } :=
      (restKept_of_queues ..).toCalloutsKept
    refine ⟨h.keep hok hk (users_update h.users (by decide) t),rfl,fun y _ => ?_⟩
    refine ⟨rfl,rfl,fun _ => Iff.rfl,⟨fun hw => ?_,fun hw => ?_⟩⟩
    · exact (waiting_of_idle hk (by decide) rfl hw).1
    · have hne : c.calloutTask y ≠ t := by
        intro he
        rw [he,hs] at hw
        cases hw
      exact (update_of_ne hne _ _).trans hw
  · exact Effect.refl h _

lemma swapQueues_effect (cpu : CpuId) : ∃ q', (∀ q, q.1 ≠ cpu → q' q = queue q) ∧
      (c.swapQueues cpu).2.calloutTime = c.calloutTime ∧
      Effect c ls (fun _ => False) (c.swapQueues cpu).2 q' ls := by
  obtain ⟨q',hok,ho,hs,hk⟩ := swapQueues_inv h.queues cpu
  refine ⟨q',ho,hk.calloutTime,h.keep hok hk (by rw [hs]; exact h.users),
    hk.calloutTask,fun y _ => ?_⟩
  exact ⟨by rw [hk.calloutState],by rw [hk.calloutCpuid],fun _ => Iff.rfl,
    by rw [hk.calloutTask,hs]⟩

end

structure FreshCallouts (c : TaskCtrl) : Prop where
  tasks : ∀ x, ∃ id, c.calloutTask x = .task id
  own : ∀ x y, c.calloutTask x = c.calloutTask y → x = y
  func : ∀ t x, c.func t ≠ .handleSub x

lemma setup_ctrlOk {c : TaskCtrl} (h : FreshCallouts c) :
    CtrlOk c.setup (fun _ => []) (fun _ => []) := by
  refine ⟨setup_ok c,⟨?_,?_,?_⟩,fun _ => rfl,h.tasks,h.own,?_,fun t x hf => absurd hf (h.func t x)⟩
  · exact fun i => ⟨trivial,rfl,nodup_singleton _⟩
  · intro i j x hi hj
    simp only [setup,mem_singleton] at hi hj
    rw [hi] at hj
    exact CalloutPtr.guard.inj hj
  · simp
  · simp [setup]

lemma blankCtrl_fresh : FreshCallouts blankCtrl := by
  refine ⟨blankCtrl_tasks,fun x y h => ?_,fun t x h => ?_⟩
  · cases x <;> cases y <;> simp only [blankCtrl,TaskPtr.task.injEq] at h
    · rw [Nat.eq_of_mul_eq_mul_left (by decide) h]
    · omega
    · omega
    · rw [Nat.eq_of_mul_eq_mul_left (by decide) (Nat.succ.inj h)]
  · cases h

end Tasks
