import RaphKernel.Task.RegisterPatch
import RaphKernel.Library.Holding

namespace Tasks.RegisterRace
open Raph Function List State
open Links
open Holding (Held)
variable {b b' c c' : TaskCtrl} {v : Patch} {queue q' : QueueId → List TaskPtr} {s₀ : State}
  {t : TaskPtr} {j k : CpuId}

inductive Party where
  | reg (i : ℕ)
  | sched (k : CpuId)
  deriving DecidableEq

def Inside (s : State) : Party → Prop
  | .reg i => (s.reg i).inside = true
  | .sched k => (s.sched k).inside = true

def regPatch (t : TaskPtr) (b : TaskCtrl) : RegPc → Patch
  | .own _ => ⟨t,.waitingInQueue,b.taskCpuid t,none,none,none⟩
  | .link k => ⟨t,.waitingInQueue,k,none,none,none⟩
  | .back k => ⟨b.bottomSub k,.waitingInQueue,k,none,some t,none⟩
  | .last k => ⟨b.bottomSub k,.waitingInQueue,k,none,some t,some (b.bottomSub k)⟩
  | _ => ⟨t,b.status t,b.taskCpuid t,none,none,none⟩

def schedPatch (t : TaskPtr) (b : TaskCtrl) (x y : Option TaskPtr) : SchedPc → Patch
  | .popStatus => ⟨t,.waitingInQueue,b.taskCpuid t,x,x,y⟩
  | .popNext => ⟨t,b.status t,b.taskCpuid t,x,x,y⟩
  | .popPrev => ⟨t,b.status t,b.taskCpuid t,none,none,y⟩
  | _ => ⟨t,b.status t,b.taskCpuid t,none,none,none⟩

def Near (t : TaskPtr) (b : TaskCtrl) (queue : QueueId → List TaskPtr) (k : CpuId)
    (x : Option TaskPtr) : Prop :=
  ∀ z, x = some z → b.taskCpuid t = k ∧ z ∈ b.head (k,false) :: queue (k,false)

def Shape (s : State) (b : TaskCtrl) (queue : QueueId → List TaskPtr) : Option Party → Prop
  | none => s.ctrl = b
  | some (.reg i) => b.status s.ptr ≠ .waitingInQueue ∧
    s.ctrl = (regPatch s.ptr b (s.reg i)).apply s.ptr b
  | some (.sched k) => b.status s.ptr = .running ∧ ∃ x y, Near s.ptr b queue k x ∧
    Near s.ptr b queue k y ∧ s.ctrl = (schedPatch s.ptr b x y (s.sched k)).apply s.ptr b

structure Ok (s : State) (b : TaskCtrl) (queue : QueueId → List TaskPtr) (o : Option Party) :
    Prop where
  base : Base s.ptr b queue
  inside : ∀ p, Inside s p ↔ o = some p
  shape : Shape s b queue o

variable {s s' : State} {o : Option Party} {i : ℕ} {p : RegPc} {r : SchedPc}

lemma inside_reg (hr : s'.reg = update s.reg i p) (hs : s'.sched = s.sched)
    (z : Party) (hz : z ≠ .reg i) : Inside s' z ↔ Inside s z := by
  cases z with
  | reg a => rw [Inside,Inside,hr,update_of_ne (fun he => hz (congrArg Party.reg he))]
  | sched k => rw [Inside,Inside,hs]

lemma inside_sched (hr : s'.reg = s.reg) (hs : s'.sched = update s.sched k r)
    (z : Party) (hz : z ≠ .sched k) : Inside s' z ↔ Inside s z := by
  cases z with
  | reg a => rw [Inside,Inside,hr]
  | sched a =>
    rw [Inside,Inside,hs,update_of_ne (fun he => hz (congrArg Party.sched he))]

lemma inside_reg_self (hr : s'.reg = update s.reg i p) :
    Inside s' (.reg i) ↔ p.inside = true := by
  rw [Inside,hr,update_self]

lemma inside_sched_self (hs : s'.sched = update s.sched k r) :
    Inside s' (.sched k) ↔ r.inside = true := by
  rw [Inside,hs,update_self]

lemma Ok.alone (h : Ok s b queue o) (ha : Alone s) : o = none := by
  cases o with
  | none => rfl
  | some z =>
    have hz := (h.inside z).mpr rfl
    cases z with
    | reg i => cases (ha.1 i).symm.trans hz
    | sched k => cases (ha.2 k).symm.trans hz

lemma quiet_reg (h : Ok s b queue o) (ho : (s.reg i).inside = false) (hp : p.inside = false) :
    Ok (s.setReg i p) b queue o := by
  have hse : Inside (s.setReg i p) (.reg i) ↔ Inside s (.reg i) := by
    rw [inside_reg_self rfl,Inside,hp,ho]
  refine ⟨h.base,Held.stay h.inside hse (inside_reg rfl rfl),?_⟩
  have hs := h.shape
  cases o with
  | none => exact hs
  | some z =>
    cases z with
    | reg a =>
      have ha : a ≠ i := by
        rintro rfl
        cases ho.symm.trans ((h.inside (.reg a)).mpr rfl)
      refine ⟨hs.1,?_⟩
      rw [show (s.setReg i p).reg a = s.reg a from update_of_ne ha ..]
      exact hs.2
    | sched k => exact hs

lemma quiet_sched (h : Ok s b queue o) (ho : (s.sched k).inside = false)
    (hr : r.inside = false) : Ok (s.setSched k r) b queue o := by
  have hse : Inside (s.setSched k r) (.sched k) ↔ Inside s (.sched k) := by
    rw [inside_sched_self rfl,Inside,hr,ho]
  refine ⟨h.base,Held.stay h.inside hse (inside_sched rfl rfl),?_⟩
  have hs := h.shape
  cases o with
  | none => exact hs
  | some z =>
    cases z with
    | reg a => exact hs
    | sched a =>
      have ha : a ≠ k := by
        rintro rfl
        cases ho.symm.trans ((h.inside (.sched a)).mpr rfl)
      obtain ⟨hst,x,y,hx,hy,hc⟩ := hs
      refine ⟨hst,x,y,hx,hy,?_⟩
      rw [show (s.setSched k r).sched a = s.sched a from update_of_ne ha ..]
      exact hc

section
variable (h : Ok s b queue o)
include h

lemma Ok.reg_ctrl (hr : s.reg i = p) (hp : p.inside = true) :
    b.status s.ptr ≠ .waitingInQueue ∧ s.ctrl = (regPatch s.ptr b p).apply s.ptr b ∧
      Held (Inside s) (some (.reg i)) := by
  have hin : Inside s (.reg i) := by
    rw [Inside,hr]
    exact hp
  obtain rfl := (h.inside _).mp hin
  rw [← hr]
  exact ⟨h.shape.1,h.shape.2,h.inside⟩

lemma move_reg (hr : s.reg i = p) (hp : p.inside = true) {p' : RegPc} (hp' : p'.inside = true)
    (hc : s.ctrl = (regPatch s.ptr b p).apply s.ptr b → c = (regPatch s.ptr b p').apply s.ptr b) :
    Ok ({ s with ctrl := c }.setReg i p') b queue (some (.reg i)) := by
  obtain ⟨hst,hct,hh⟩ := h.reg_ctrl hr hp
  have hs : Inside (setReg { s with ctrl := c } i p') (.reg i) ↔ Inside s (.reg i) := by
    rw [inside_reg_self rfl,Inside,hr,hp,hp']
  refine ⟨h.base,hh.stay hs (inside_reg rfl rfl),hst,?_⟩
  have hs : (setReg { s with ctrl := c } i p').reg i = p' := update_self ..
  rw [hs]
  exact hc hct

lemma pass_ok (ha : Alone s) (hst : s.status ≠ .waitingInQueue) :
    Ok (s.setReg i (.clear k)) b queue (some (.reg i)) := by
  obtain rfl := h.alone ha
  have hc := h.shape
  rw [status,hc] at hst
  refine ⟨h.base,Held.take h.inside ((inside_reg_self rfl).mpr rfl) (inside_reg rfl rfl),hst,?_⟩
  rw [show (s.setReg i (.clear k)).reg i = .clear k from update_self ..]
  exact hc.trans (idle_patch h.base hst).symm

lemma last_ok (hr : s.reg i = .last k) :
    Ok ((s.setBottomSub k s.ptr).setReg i (.unlock k)) (b.enqueue k s.ptr)
      (update queue (k,true) (queue (k,true) ++ [s.ptr])) none := by
  obtain ⟨hst,hc,hh⟩ := h.reg_ctrl hr rfl
  refine ⟨⟨enqueue_ok h.base.ok hst h.base.not_guard k,?_,h.base.user,fun hw => ?_⟩,
    hh.drop (fun hin => nomatch (inside_reg_self rfl).mp hin) (inside_reg rfl rfl),?_⟩
  · rw [enqueue_status]
    exact users_update h.base.users (by decide) _
  · exact absurd (enqueue_waiting ..) hw
  · change ({ s.ctrl with bottomSub := update s.ctrl.bottomSub k s.ptr } : TaskCtrl) = _
    rw [hc,TaskCtrl.enqueue,if_neg hst]
    rfl

end

lemma Ok.sched_ctrl (h : Ok s b queue o) (hr : s.sched k = r) (hin : r.inside = true) :
    b.status s.ptr = .running ∧ Held (Inside s) (some (.sched k)) ∧ ∃ x y, Near s.ptr b queue k x ∧
      Near s.ptr b queue k y ∧ s.ctrl = (schedPatch s.ptr b x y r).apply s.ptr b := by
  have hk : Inside s (.sched k) := by
    rw [Inside,hr]
    exact hin
  obtain rfl := (h.inside _).mp hk
  rw [← hr]
  exact ⟨h.shape.1,h.inside,h.shape.2⟩

lemma move_sched (h : Ok s b queue o) (hr : s.sched k = r) (hin : r.inside = true) {r' : SchedPc}
    (hin' : r'.inside = true) (hc : b.status s.ptr = .running →
      ∀ x y, s.ctrl = (schedPatch s.ptr b x y r).apply s.ptr b →
        c = (schedPatch s.ptr b x y r').apply s.ptr b) :
    Ok (setSched { s with ctrl := c } k r') b queue (some (.sched k)) := by
  obtain ⟨hst,hh,x,y,hx,hy,hct⟩ := h.sched_ctrl hr hin
  have hs : Inside (setSched { s with ctrl := c } k r') (.sched k) ↔ Inside s (.sched k) := by
    rw [inside_sched_self rfl,Inside,hr,hin,hin']
  refine ⟨h.base,hh.stay hs (inside_sched rfl rfl),hst,x,y,hx,hy,?_⟩
  have hs : (setSched { s with ctrl := c } k r').sched k = r' := update_self ..
  rw [hs]
  exact hc hst x y hct

lemma pop_front (h : Base t b queue) (hp : b.popTask k = .ok (some t,c')) :
    ∃ rs, queue (k,false) = t :: rs ∧ QueuesOk c' (update queue (k,false) rs) ∧
      c' = popped b k t ∧ Front b k t := by
  obtain ⟨hf,rfl⟩ := popped_popTask h.ok hp
  have hfi : b.next (b.head (k,false)) = some t := hf.first
  rw [queuesOk_first h.ok] at hfi
  cases hq : queue (k,false) with
  | nil =>
    rw [hq] at hfi
    cases hfi
  | cons x rs =>
    rw [hq] at hfi
    cases hfi
    obtain ⟨d,hd,hok,-⟩ := popTask_front h.ok hq
    cases hd.symm.trans hp
    exact ⟨rs,rfl,hok,rfl,hf⟩

lemma pop_idle_ok (h : Ok s b queue none) (hp : s.ctrl.popTask k = .ok (some s.ptr,c)) :
    ∃ q', Ok ((s.unlink c).setSched k .popStatus) c q' (some (.sched k)) := by
  have hb : s.ctrl = b := h.shape
  rw [hb] at hp
  obtain ⟨rs,hq,hok,hc,hf⟩ := pop_front h.base hp
  have hcp : b.taskCpuid s.ptr = k :=
    h.base.ok.members.owner (k,false) s.ptr (by rw [hq]; exact mem_cons_self)
  have hd := h.base.ok.dll (k,false)
  rw [hq] at hd
  have hne : b.top k ≠ s.ptr := top_ne h.base.ok (by rw [hq]; exact mem_cons_self)
  have hse : (popped b k s.ptr).status s.ptr = .running := update_self ..
  have hwa : s.status = .waitingInQueue := by
    rw [status,hb]
    exact hf.waiting
  subst hc
  refine ⟨_,⟨hok,users_update h.base.users (by decide) _,h.base.user,
      fun _ => ⟨update_self ..,update_self ..⟩⟩,
    Held.take h.inside ((inside_sched_self rfl).mpr rfl) (inside_sched rfl rfl),hse,
    b.next s.ptr,b.prev s.ptr,fun z hz => ⟨hcp,?_⟩,fun z hz => ⟨hcp,?_⟩,?_⟩
  · rw [update_self]
    have hs : Sll b.next (b.head (k,false)) ([] ++ s.ptr :: rs) := hd.forward
    rw [hs.next_eq] at hz
    exact mem_cons_of_mem _ (mem_of_mem_head? hz)
  · have hs : Dll b.next b.prev (b.head (k,false)) (b.tail (k,false)) ([] ++ s.ptr :: rs) := hd
    rw [hs.prev_eq] at hz
    cases hz
    exact mem_cons_self
  · have hsc : ((s.unlink (popped b k s.ptr)).setSched k .popStatus).sched k = .popStatus :=
      update_self ..
    rw [hsc]
    simp only [schedPatch,Patch.apply,Patch.onNext,update_idem,update_eq_self]
    simp only [setSched,unlink,hwa,hb]
    rfl

section
variable (h : Ok s b queue o)
include h

lemma popPrev_ok (hr : s.sched k = .popPrev) :
    Ok ((s.setPrev s.ptr none).setSched k .exec) b queue none := by
  obtain ⟨hst,hh,x,y,-,-,hc⟩ := h.sched_ctrl hr rfl
  refine ⟨h.base,hh.drop (fun hin => nomatch (inside_sched_self rfl).mp hin)
    (inside_sched rfl rfl),?_⟩
  change ({ s.ctrl with prev := update s.ctrl.prev s.ptr none } : TaskCtrl) = b
  rw [hc]
  have hid := idle_patch h.base (by rw [hst]; decide)
  simp only [schedPatch,Patch.apply,update_idem] at hid ⊢
  exact hid

lemma finishTest_ok (ha : Alone s) (hst : s.status = .running) :
    Ok (s.setSched k .finish) b queue (some (.sched k)) := by
  obtain rfl := h.alone ha
  have hc := h.shape
  rw [status,hc] at hst
  refine ⟨h.base,Held.take h.inside ((inside_sched_self rfl).mpr rfl) (inside_sched rfl rfl),hst,
    none,none,(fun z hz => nomatch hz),(fun z hz => nomatch hz),?_⟩
  rw [show (s.setSched k .finish).sched k = .finish from update_self ..]
  exact hc.trans (idle_patch h.base (by rw [hst]; decide)).symm

lemma finish_ok (hr : s.sched k = .finish) : Ok ((s.setStatus s.ptr .outOfQueue).setSched k .idle)
      { b with status := update b.status s.ptr .outOfQueue } queue none := by
  obtain ⟨hst,hh,x,y,-,-,hc⟩ := h.sched_ctrl hr rfl
  have hw : b.status s.ptr ≠ .waitingInQueue := by
    rw [hst]
    decide
  have hc := hc.trans (idle_patch h.base hw)
  refine ⟨⟨h.base.ok.idle hw h.base.not_guard,users_update h.base.users (by decide) _,h.base.user,
    fun _ => h.base.rest hw⟩,hh.drop (fun hin => nomatch (inside_sched_self rfl).mp hin)
    (inside_sched rfl rfl),?_⟩
  change ({ s.ctrl with status := update s.ctrl.status s.ptr .outOfQueue } : TaskCtrl) = _
  rw [hc]

end

lemma regPatch_node (t : TaskPtr) (b : TaskCtrl) (p : RegPc) :
    (regPatch t b p).node = t ∨ ∃ k, p.holds = some k ∧ (regPatch t b p).node = b.tail (k,true) := by
  cases p with
  | back k | last k => exact .inr ⟨k,rfl,rfl⟩
  | _ => exact .inl rfl

lemma schedPatch_node (t : TaskPtr) (b : TaskCtrl) (x y : Option TaskPtr) (r : SchedPc) :
    (schedPatch t b x y r).node = t := by
  cases r <;> rfl

lemma far_reg (h : Base t b queue) (hw : b.status t ≠ .waitingInQueue) (hp : p.holds ≠ some j) :
    Far t b queue (regPatch t b p) j := by
  refine ⟨hw,(regPatch_node t b p).imp_right ?_⟩
  rintro ⟨k,hk,hn⟩
  refine ⟨(k,true),fun he => hp (hk.trans (congrArg some he)),?_⟩
  rw [hn]
  exact (h.ok.dll (k,true)).tail_mem

lemma regPatch_kept (hk : Kept t j b b' queue q') (hp : p.holds ≠ some j) :
    regPatch t b' p = regPatch t b p := by
  have hs : ∀ k, p.holds = some k → b'.bottomSub k = b.bottomSub k := fun k hpk =>
    hk.tail (k,true) fun he => hp (hpk.trans (congrArg some he))
  cases p with
  | back k | last k => simp only [regPatch,hs k rfl]
  | _ => simp only [regPatch,hk.status,hk.cpuid]

lemma schedPatch_kept (hk : Kept t j b b' queue q') (x y : Option TaskPtr) (r : SchedPc) :
    schedPatch t b' x y r = schedPatch t b x y r := by
  cases r <;> simp only [schedPatch,hk.status,hk.cpuid]

lemma near_kept {x : Option TaskPtr}
    (hk : Kept t j b b' queue q') (hj : k ≠ j) (hx : Near t b queue k x) :
    Near t b' q' k x := fun z hz => by
  obtain ⟨hc,hm⟩ := hx z hz
  rw [hk.cpuid,hk.head (k,false) hj,hk.queue (k,false) hj]
  exact ⟨hc,hm⟩

lemma other_ok (h : Ok s b queue o) (hf : s.LockFree j)
    (ho : Other s.ptr s.ctrl j c) : ∃ b' q', Ok { s with ctrl := c } b' q' o := by
  have hs := h.shape
  cases o with
  | none =>
    rw [show s.ctrl = b from hs] at ho
    obtain ⟨q',hb',-⟩ := other_base h.base ho
    exact ⟨c,q',hb',h.inside,rfl⟩
  | some z =>
    have hz := (h.inside z).mpr rfl
    cases z with
    | reg i =>
      obtain ⟨hw,hc⟩ := hs
      rw [hc] at ho
      obtain ⟨b',ho',hc'⟩ := other_patch h.base (far_reg h.base hw (hf.1 i)) ho
      obtain ⟨q',hb',hk⟩ := other_base h.base ho'
      refine ⟨b',q',hb',h.inside,fun he => hw (hk.status.symm.trans he),?_⟩
      change c = (regPatch s.ptr b' (s.reg i)).apply s.ptr b'
      rw [regPatch_kept hk (hf.1 i)]
      exact hc'
    | sched k =>
      obtain ⟨hst,x,y,hx,hy,hc⟩ := hs
      have hkj : k ≠ j := by
        rintro rfl
        cases hf.2.symm.trans hz
      rw [hc] at ho
      obtain ⟨b',ho',hc'⟩ := other_patch h.base
        ⟨show b.status s.ptr ≠ _ by rw [hst]; decide,.inl (schedPatch_node ..)⟩ ho
      obtain ⟨q',hb',hk⟩ := other_base h.base ho'
      refine ⟨b',q',hb',h.inside,hk.status.trans hst,x,y,near_kept hk hkj hx,
        near_kept hk hkj hy,?_⟩
      change c = (schedPatch s.ptr b' x y (s.sched k)).apply s.ptr b'
      rw [schedPatch_kept hk]
      exact hc'

lemma pop_none (h : Ok s b queue o) (hf : s.LockFree k)
    (hp : s.ctrl.popTask k = .ok (some s.ptr,c)) : o = none := by
  have hs := h.shape
  cases o with
  | none => rfl
  | some z =>
    have hco : ∀ v, Far s.ptr b queue v k → s.ctrl = v.apply s.ptr b → False := fun v hv hc => by
        rw [hc] at hp
        have hm := mem_of_mem_head? (patch_front h.base hv hp)
        exact hv.idle ((h.base.ok.members.waiting s.ptr).mpr ⟨_,hm⟩)
    cases z with
    | reg i => exact (hco _ (far_reg h.base hs.1 (hf.1 i)) hs.2).elim
    | sched a =>
      obtain ⟨hst,x,y,-,-,hc⟩ := hs
      exact (hco _ ⟨show b.status s.ptr ≠ _ by rw [hst]; decide,.inl (schedPatch_node ..)⟩ hc).elim

lemma Base.placed (h : Base t b queue) : Placed b t := by
  refine placed_of (fun q => (h.ok.dll q).forward) (fun q r => h.ok.members.once q r t) ?_ ?_
  · intro x hx
    by_cases hw : b.status t = .waitingInQueue
    · obtain ⟨q,hq⟩ := (h.ok.members.waiting t).mp hw
      exact ⟨q,(h.ok.members.owner q t hq).symm,mem_cons_of_mem _ (next_mem h.ok hq hx)⟩
    · cases (h.rest hw).1.symm.trans hx
  · intro x hx
    by_cases hw : b.status t = .waitingInQueue
    · obtain ⟨q,hq⟩ := (h.ok.members.waiting t).mp hw
      refine ⟨q,(h.ok.members.owner q t hq).symm,?_⟩
      obtain ⟨l₁,l₂,hs⟩ := append_of_mem hq
      have hd := h.ok.dll q
      rw [hs] at hd
      rw [hd.prev_eq] at hx
      cases hx
      rw [hs,← List.cons_append]
      exact mem_append_left _ (final_mem _ _)
    · cases (h.rest hw).2.symm.trans hx

section
variable (h : Base t b queue) (hw : b.status t ≠ .waitingInQueue)
include h hw

lemma patch_sll (hv : v.node = t) (q : QueueId) :
    Sll (v.apply t b).next (b.head q) (queue q) := by
  refine (h.ok.dll q).forward.congr fun x hx => ?_
  have hxt : x ≠ t := by
    rintro rfl
    exact h.not_node hw q hx
  exact patch_next hxt (hv ▸ hxt)

lemma patch_placed (hv : v.node = t)
    (hl : ∀ z, v.link = some z → ∃ q, q.1 = v.cpuid ∧ z ∈ b.head q :: queue q)
    (hp : ∀ z, v.prev = some z → ∃ q, q.1 = v.cpuid ∧ z ∈ b.head q :: queue q) :
    Placed (v.apply t b) t := by
  have hc : (v.apply t b).taskCpuid t = v.cpuid := update_self ..
  have hn : (v.apply t b).next t = v.link := by
    change update (update b.next t v.next) v.node v.link t = _
    rw [hv,update_self]
  have hb : (v.apply t b).prev t = v.prev := update_self ..
  have hh : (v.apply t b).head = b.head := TaskCtrl.head_congr rfl rfl
  have hno : ∀ q, t ∉ queue q := fun q hq => h.not_node hw q (mem_cons_of_mem _ hq)
  refine placed_of (fun q => hh ▸ patch_sll h hw hv q) (fun q r hq => absurd hq (hno q)) ?_ ?_
  · rw [hc,hn,hh]
    exact hl
  · rw [hc,hb,hh]
    exact hp

lemma linked_sll (hn : v.node = b.bottomSub k) (hs : (v.apply t b).next t = none)
    (hl : (v.apply t b).next (b.bottomSub k) = some t) (q : QueueId) :
    Sll (v.apply t b).next (b.head q)
      (update queue (k,true) (queue (k,true) ++ [t]) q) := by
  have hk : ∀ x ∈ b.head q :: queue q, x ≠ b.bottomSub k → (v.apply t b).next x = b.next x := by
    intro x hx hxn
    refine patch_next ?_ (hn ▸ hxn)
    rintro rfl
    exact h.not_node hw q hx
  by_cases hq : q = (k,true)
  · subst hq
    rw [update_self]
    have hf : final (b.head (k,true)) (queue (k,true)) = b.bottomSub k := (h.ok.dll (k,true)).last
    have hb : Sll b.next (b.head (k,true)) (queue (k,true) ++ []) := by
      rw [append_nil]
      exact (h.ok.dll (k,true)).forward
    refine hb.insert ?_ (hf ▸ hl) hs ?_
    · rw [append_nil]
      exact h.not_node hw (k,true)
    · rw [append_nil,hf]
      exact hk
  · rw [update_of_ne hq]
    refine (h.ok.dll q).forward.congr fun x hx => hk x hx ?_
    rintro rfl
    exact hq (h.ok.node_unique hx (h.ok.dll (k,true)).tail_mem)

lemma linked_placed (hc : v.cpuid = k) (hn : v.node = b.bottomSub k)
    (hnx : v.next = none) (hli : v.link = some t)
    (hp : ∀ z, v.prev = some z → z = b.bottomSub k) : Placed (v.apply t b) t := by
  have hta : b.bottomSub k ∈ b.head (k,true) :: queue (k,true) := (h.ok.dll (k,true)).tail_mem
  have hne : t ≠ v.node := by
    rw [hn]
    intro he
    exact h.not_node hw (k,true) (he ▸ hta)
  have hh : (v.apply t b).head = b.head := TaskCtrl.head_congr rfl rfl
  have hs : (v.apply t b).next t = none := by
    change update (update b.next t v.next) v.node v.link t = _
    rw [update_of_ne hne,update_self,hnx]
  have hl : (v.apply t b).next (b.bottomSub k) = some t := by
    change update (update b.next t v.next) v.node v.link _ = _
    rw [← hn,update_self,hli]
  have hm : ∀ q, t ∈ update queue (k,true) (queue (k,true) ++ [t]) q → q = (k,true) := by
    intro q ht
    by_contra hq
    rw [update_of_ne hq] at ht
    exact h.not_node hw q (mem_cons_of_mem _ ht)
  refine placed_of (fun q => hh ▸ linked_sll h hw hn hs hl q)
    (fun q r hq hr => (hm q hq).trans (hm r hr).symm) ?_ ?_
  · intro x hx
    cases hs.symm.trans hx
  · intro x hx
    rw [show (v.apply t b).prev t = v.prev from update_self ..] at hx
    refine ⟨(k,true),?_,?_⟩
    · rw [show (v.apply t b).taskCpuid t = v.cpuid from update_self ..,hc]
    · rw [hp x hx,update_self,hh,← List.cons_append]
      exact mem_append_left _ hta

end

lemma Ok.placed (h : Ok s b queue o) : Placed s.ctrl s.ptr := by
  have hs := h.shape
  cases o with
  | none =>
    rw [show s.ctrl = b from hs]
    exact h.base.placed
  | some z =>
    cases z with
    | reg i =>
      obtain ⟨hw,hc⟩ := hs
      rw [hc]
      cases s.reg i with
      | back k => exact linked_placed h.base hw rfl rfl rfl rfl (fun z hz => nomatch hz)
      | last k =>
        exact linked_placed h.base hw rfl rfl rfl rfl fun z hz => (Option.some.inj hz).symm
      | _ => exact patch_placed h.base hw rfl (fun z hz => nomatch hz) fun z hz => nomatch hz
    | sched k =>
      obtain ⟨hst,x,y,hx,hy,hc⟩ := hs
      have hw : b.status s.ptr ≠ .waitingInQueue := by
        rw [hst]
        decide
      have hli : ∀ {l : Option TaskPtr}, Near s.ptr b queue k l → ∀ z, l = some z →
          ∃ q, q.1 = b.taskCpuid s.ptr ∧ z ∈ b.head q :: queue q := fun hl z hz =>
        ⟨(k,false),(hl z hz).1.symm,(hl z hz).2⟩
      rw [hc]
      cases s.sched k with
      | popStatus | popNext => exact patch_placed h.base hw rfl (hli hx) (hli hy)
      | popPrev => exact patch_placed h.base hw rfl (fun z hz => nomatch hz) (hli hy)
      | _ => exact patch_placed h.base hw rfl (fun z hz => nomatch hz) fun z hz => nomatch hz

lemma step_ok {ts : Bool} (h : Ok s b queue o) (hs : Step s ts s')
    (ha : ts = true → Alone s) : ∃ b' q' o', Ok s' b' q' o' := by
  cases hs with
  | call i k hr | check i hr _ | panic i hr _ | lock i hr _ | skip i hr _ | unlock i hr =>
    exact ⟨_,_,_,quiet_reg h (hr ▸ rfl) rfl⟩
  | pass i _ hst => exact ⟨_,_,_,pass_ok h (ha rfl) hst⟩
  | clear i hr | mark i hr | own i hr | link i hr | back i hr =>
    refine ⟨_,_,_,move_reg h hr rfl rfl fun hc => ?_⟩
    rw [hc]
    simp only [regPatch,Patch.apply,Patch.onNext,update_idem]
  | last i hr => exact ⟨_,_,_,last_ok h hr⟩
  | pop k _ hf hp =>
    obtain rfl := pop_none h hf hp
    obtain ⟨q',hok⟩ := pop_idle_ok h hp
    exact ⟨_,q',_,hok⟩
  | popStatus k hr | popNext k hr =>
    refine ⟨_,_,_,move_sched h hr rfl rfl fun hst x y hc => ?_⟩
    rw [hc]
    simp only [schedPatch,Patch.apply,Patch.onNext,update_idem,hst]
  | popPrev k hr => exact ⟨_,_,_,popPrev_ok h hr⟩
  | finishTest k _ _ hst => exact ⟨_,_,_,finishTest_ok h (ha rfl) hst⟩
  | finishSkip k hr _ _ => exact ⟨_,_,_,quiet_sched h (hr ▸ rfl) rfl⟩
  | finish k hr => exact ⟨_,_,_,finish_ok h hr⟩
  | other j hf ho =>
    obtain ⟨b',q',hok⟩ := other_ok h hf ho
    exact ⟨b',q',o,hok⟩

lemma run_ok (h : Ok s₀ b queue o) (hr : Run s₀ s) : ∃ b' q' o', Ok s b' q' o' := by
  induction hr with
  | refl => exact ⟨b,queue,o,h⟩
  | step _ hs ha ih =>
    obtain ⟨b',q',o',hok⟩ := ih
    exact step_ok hok hs ha

lemma boot_ok {id : ℕ} (h : Base (.task id) c queue) : Ok (boot c id) c queue none := by
  refine ⟨h,fun z => iff_of_false (fun hin => ?_) nofun,rfl⟩
  cases z <;> cases hin

lemma Run.steps (h : Run s₀ s) :
    Relation.ReflTransGen (fun s s' => ∃ ts, Step s ts s') s₀ s := by
  induction h with
  | refl => exact .refl
  | step _ hs _ ih => exact ih.tail ⟨_,hs⟩

lemma Run.quiet (h : Run s₀ s) (hs : Step s false s') : Run s₀ s' :=
  h.step hs nofun

lemma setup_base (c : TaskCtrl) (id : ℕ) : Base (.task id) c.setup fun _ => [] :=
  ⟨setup_ok c,(sound_setup c).users,⟨id,rfl⟩,fun _ => ⟨rfl,rfl⟩⟩

def bothLocked : State :=
  ((((((boot blankCtrl.setup 7).setReg 0 (.check 0)).setReg 1 (.check 1)).setReg 0
    (.lock 0)).setReg 1 (.lock 1)).setReg 0 (.test 0)).setReg 1 (.test 1)

lemma bothLocked_run : Run (boot blankCtrl.setup 7) bothLocked := by
  have hr : Run (boot blankCtrl.setup 7) (boot blankCtrl.setup 7) := .refl
  have hr := hr.quiet (.call 0 0 rfl)
  have hr := hr.quiet (.call 1 1 rfl)
  have hr := hr.quiet (.check 0 rfl (fun he => nomatch he))
  have hr := hr.quiet (.check 1 rfl (fun he => nomatch he))
  have hr := hr.quiet (.lock 0 rfl ⟨fun
    | 0 => nofun
    | 1 => nofun
    | _ + 2 => nofun,rfl⟩)
  exact hr.quiet (.lock 1 rfl ⟨fun
    | 0 => by decide
    | 1 => nofun
    | _ + 2 => nofun,rfl⟩)

theorem register_once {id : ℕ} (h : Base (.task id) c queue) (hrun : Run (boot c id) s) :
    Placed s.ctrl s.ptr := by
  obtain ⟨b',queue',o',hok⟩ := run_ok (boot_ok h) hrun
  exact hok.placed

theorem register_once_pair : ∃ s, Run (boot blankCtrl.setup 7) s ∧ At s.ctrl s.ptr (0,true) 0 ∧
    s.reg 1 = .unlock 1 ∧ Placed s.ctrl s.ptr := by
  have hr := bothLocked_run.step (.pass 0 rfl (fun he => nomatch he)) fun _ => ⟨fun
    | 0 => rfl
    | 1 => rfl
    | _ + 2 => rfl,fun _ => rfl⟩
  have hr := hr.quiet (.clear 0 rfl)
  have hr := hr.quiet (.mark 0 rfl)
  have hr := hr.quiet (.own 0 rfl)
  have hr := hr.quiet (.link 0 rfl)
  have hr := hr.quiet (.back 0 rfl)
  have hr := hr.quiet (.last 0 rfl)
  have hr := hr.quiet (.skip 1 rfl rfl)
  exact ⟨_,hr,rfl,rfl,register_once (setup_base blankCtrl 7) hr⟩

theorem register_twice : ∃ s, Relation.ReflTransGen (fun s s' => ∃ tested, Step s tested s')
    (boot blankCtrl.setup 7) s ∧ At s.ctrl s.ptr (0,true) 0 ∧ At s.ctrl s.ptr (1,true) 0 := by
  have hr := bothLocked_run.steps.tail ⟨_,.pass 0 rfl nofun⟩
  have hr := hr.tail ⟨_,.pass 1 rfl nofun⟩
  have hr := hr.tail ⟨_,.clear 0 rfl⟩
  have hr := hr.tail ⟨_,.mark 0 rfl⟩
  have hr := hr.tail ⟨_,.own 0 rfl⟩
  have hr := hr.tail ⟨_,.link 0 rfl⟩
  have hr := hr.tail ⟨_,.clear 1 rfl⟩
  have hr := hr.tail ⟨_,.mark 1 rfl⟩
  have hr := hr.tail ⟨_,.own 1 rfl⟩
  have hr := hr.tail ⟨_,.link 1 rfl⟩
  exact ⟨_,hr,rfl,rfl⟩

end Tasks.RegisterRace
