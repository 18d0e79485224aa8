import RaphKernel.Task.CalloutRun

namespace Tasks
open Raph Function List
open Timer
open Links

variable {c : TaskCtrl} {cur : Word} {e : CalloutPtr → ℕ} {x : CalloutPtr} {l : List CalloutPtr}
  {q : QueueId → List TaskPtr} {ls : CpuId → List CalloutPtr} {cpu : CpuId}

structure Deadline (c : TaskCtrl) (cur : Word) (e : CalloutPtr → ℕ) (x : CalloutPtr) : Prop where
  short : e x < 2 ^ 60
  time : c.calloutTime x = cur + BitVec.ofNat 64 (e x)

def Sooner (e : CalloutPtr → ℕ) (x y : CalloutPtr) : Prop := e x ≤ e y

instance (e : CalloutPtr → ℕ) : DecidableRel (Sooner e) :=
  fun x y => inferInstanceAs (Decidable (e x ≤ e y))

instance (e : CalloutPtr → ℕ) : Std.Total (Sooner e) := ⟨fun x y => Nat.le_total (e x) (e y)⟩

instance (e : CalloutPtr → ℕ) : IsTrans CalloutPtr (Sooner e) := ⟨fun _ _ _ => Nat.le_trans⟩

def InOrder (cur : Word) (e : CalloutPtr → ℕ) (x : CalloutPtr) (l : List CalloutPtr) : Prop :=
  ¬ Wraps cur (e x) ∨ ∀ y ∈ l, Wraps cur (e y)

def placed (c : TaskCtrl) (x : CalloutPtr) (l : List CalloutPtr) : List CalloutPtr :=
  l.takeWhile (Earlier c x) ++ x :: l.dropWhile (Earlier c x)

lemma placed_perm (c : TaskCtrl) (x : CalloutPtr) (l : List CalloutPtr) :
    (placed c x l).Perm (x :: l) := by
  refine perm_middle.trans ?_
  rw [takeWhile_append_dropWhile]

lemma earlier_iff {y : CalloutPtr} (hx : Deadline c cur e x) (hy : Deadline c cur e y) :
    Earlier c x y = true ↔ e y < e x ∧ (Wraps cur (e x) → Wraps cur (e y)) := by
  rw [Earlier,Bool.not_eq_true',← Bool.not_eq_true,hx.time,hy.time,
    isGreater_elapsed cur hx.short hy.short,not_or,not_and_not_right,not_le]

section
variable (hx : Deadline c cur e x) (hl : ∀ y ∈ l, Deadline c cur e y)
include hx hl

lemma placed_eq (h : InOrder cur e x l) : placed c x l = l.orderedInsert (Sooner e) x := by
  induction l with
  | nil => rfl
  | cons y l ih =>
    have hy := earlier_iff hx (hl y mem_cons_self)
    have hwr : Wraps cur (e x) → Wraps cur (e y) :=
      fun hw => h.resolve_left (not_not.mpr hw) y mem_cons_self
    have hr := h.imp_right fun ha z hz => ha z (mem_cons_of_mem y hz)
    by_cases hle : Sooner e x y
    · have hla := Bool.eq_false_iff.mpr fun he => absurd (hy.mp he).1 (not_lt.mpr hle)
      simp [placed,hla,hle]
    · have he := hy.mpr ⟨not_le.mp hle,hwr⟩
      have hih := ih (fun z hz => hl z (mem_cons_of_mem y hz)) hr
      simp only [placed] at hih
      simp [placed,he,hle,hih]

lemma placed_first (hso : l.Pairwise (Sooner e)) (h : ¬ InOrder cur e x l) :
    ∃ y rest, l = y :: rest ∧ placed c x l = x :: y :: rest ∧ e y < e x := by
  obtain ⟨hwr,z,hz,hs⟩ : Wraps cur (e x) ∧ ∃ z ∈ l, ¬ Wraps cur (e z) := by
    simpa [InOrder] using h
  cases l with
  | nil => cases hz
  | cons y rest =>
    have hyz : e y ≤ e z := by
      rcases mem_cons.mp hz with rfl | hz
      · exact le_rfl
      · exact (pairwise_cons.mp hso).1 z hz
    have hy : ¬ Wraps cur (e y) := fun hw => hs (le_trans hw (Nat.add_le_add_left hyz _))
    have hla := Bool.eq_false_iff.mpr fun he =>
        hy (((earlier_iff hx (hl y mem_cons_self)).mp he).2 hwr)
    refine ⟨y,rest,rfl,by simp [placed,hla],?_⟩
    unfold Wraps at hwr hy
    omega

lemma placed_sorted_iff (hs : l.Pairwise (Sooner e)) :
    (placed c x l).Pairwise (Sooner e) ↔ InOrder cur e x l := by
  by_cases h : InOrder cur e x l
  · rw [placed_eq hx hl h]
    exact iff_of_true (List.Pairwise.orderedInsert x l hs) h
  · obtain ⟨y,rest,_,heq,hlt⟩ := placed_first hx hl hs h
    refine iff_of_false (fun hp => ?_) h
    rw [heq] at hp
    exact absurd ((pairwise_cons.mp hp).1 y mem_cons_self) (not_le.mpr hlt)

end

section
variable {id : ℕ} {clk now : Word} {us : BitVec 32}

lemma registerCallout_placed (h : CtrlOk c q ls)
    (hs : c.calloutState (.callout id) = .handling ∨ c.calloutState (.callout id) = .stopped)
    (hx : ∀ i, CalloutPtr.callout id ∉ ls i) (cpu : CpuId) (now : Word) (us : BitVec 32) :
    ∃ c', Loop.Yields
        (fun fuel => c.registerCallout clk fuel (.callout id) cpu now us) (.ok c') ∧
      CtrlOk c' q (update ls cpu (placed (c.setHandler (.callout id) cpu
        (getCntAfterPeriod clk now us)) (.callout id) (ls cpu))) := by
  have hse := setHandler_effect h hx cpu (getCntAfterPeriod clk now us)
  have hc : (c.setHandler (.callout id) cpu
      (getCntAfterPeriod clk now us)).calloutCpuid (.callout id) = cpu :=
    update_self ..
  have hsp := takeWhile_append_dropWhile (p := Earlier (c.setHandler (.callout id) cpu
    (getCntAfterPeriod clk now us)) (.callout id)) (l := ls cpu)
  have hli := link_effect hse.ok hsp.symm (hse.ok.not_node hx) hc
  refine ⟨_,?_,hli.ok⟩
  simp only [TaskCtrl.registerCallout,if_pos hs,hc]
  exact (insertCallout_yields hse.ok.lists (.callout id) cpu).map _

structure Registrable (c : TaskCtrl) (lists : CpuId → List CalloutPtr) (cpuid : CpuId) (cur : Word)
    (e : CalloutPtr → ℕ) (id : ℕ) : Prop where
  idle : c.calloutState (.callout id) = .handling ∨ c.calloutState (.callout id) = .stopped
  free : ∀ i, CalloutPtr.callout id ∉ lists i
  short : e (.callout id) < 2 ^ 60
  queued : ∀ y ∈ lists cpuid, Deadline c cur e y
  sorted : (lists cpuid).Pairwise (Sooner e)

lemma Registrable.register (h : CtrlOk c q ls) (hq : Registrable c ls cpu cur e id)
    (hp : getCntAfterPeriod clk now us = cur + BitVec.ofNat 64 (e (.callout id))) :
    ∃ c' list, Loop.Yields
        (fun fuel => c.registerCallout clk fuel (.callout id) cpu now us) (.ok c') ∧
      CtrlOk c' q (update ls cpu list) ∧
      list.Perm (.callout id :: ls cpu) ∧
      (list.Pairwise (Sooner e) ↔ InOrder cur e (.callout id) (ls cpu)) := by
  obtain ⟨c',hyi,hok⟩ := registerCallout_placed h hq.idle hq.free cpu now us
  refine ⟨c',_,hyi,hok,placed_perm _ _ _,placed_sorted_iff ⟨hq.short,?_⟩ (fun y hy => ?_) hq.sorted⟩
  · rw [← hp]
    exact update_self ..
  · have hne : y ≠ .callout id := fun heq => hq.free cpu (heq ▸ hy)
    exact ⟨(hq.queued y hy).short,(update_of_ne hne _ _).trans (hq.queued y hy).time⟩

theorem timers_across_wrap (cur : Word) : (∀ d < 2 ^ 60, ∀ e < 2 ^ 60,
      ((isGreater (cur + BitVec.ofNat 64 e) (cur + BitVec.ofNat 64 d) = true ↔ d ≤ e) ∧
        (isTimePassed (cur + BitVec.ofNat 64 e) (cur + BitVec.ofNat 64 d) = true ↔ d ≤ e)) ↔
      ¬ Wraps cur d ∨ Wraps cur e) ∧
    ∀ (c : TaskCtrl) (queue : QueueId → List TaskPtr) (lists : CpuId → List CalloutPtr)
      (cpuid : CpuId) (e : CalloutPtr → ℕ) (id : ℕ) (cntClkPeriod now : Word) (us : BitVec 32),
      CtrlOk c queue lists → Registrable c lists cpuid cur e id →
      getCntAfterPeriod cntClkPeriod now us = cur + BitVec.ofNat 64 (e (.callout id)) →
      ∃ c' list, Loop.Yields
          (fun fuel => c.registerCallout cntClkPeriod fuel (.callout id) cpuid now us) (.ok c') ∧
        CtrlOk c' queue (update lists cpuid list) ∧
        list.Perm (.callout id :: lists cpuid) ∧
        (list.Pairwise (fun x y => e x ≤ e y) ↔
          ¬ Wraps cur (e (.callout id)) ∨ ∀ y ∈ lists cpuid, Wraps cur (e y)) := by
  refine ⟨fun d hd e he => ?_,fun c queue lists cpuid e id cntClkPeriod now us h hq hp =>
    hq.register h hp⟩
  simp only [isTimePassed,isGreater_elapsed cur hd he,and_self]
  have hlt : Wraps cur d → ¬ Wraps cur e → ¬ d ≤ e := by
    unfold Wraps
    omega
  tauto

def lateCounter : Word := 0xFFFFFFFFFFFFFA24

def wrappedCtrl : TaskCtrl := blankCtrl.setup

theorem callouts_disordered :
    isGreater (lateCounter + 1000) (lateCounter + 2000) = true ∧ ∃ s s' : TaskCtrl,
      wrappedCtrl.registerCallout 1 3 (.callout 0) 0 lateCounter 1 = some (.ok s) ∧
      s.registerCallout 1 3 (.callout 1) 0 lateCounter 2 = some (.ok s') ∧
      s'.calloutNext (s'.dtop 0) = some (.callout 1) ∧
      s'.calloutNext (.callout 1) = some (.callout 0) ∧
      s'.calloutTime (.callout 0) = lateCounter + 1000 ∧
      s'.calloutTime (.callout 1) = lateCounter + 2000 :=
  ⟨by decide,_,_,rfl,rfl,rfl,rfl,by decide,by decide⟩

def period : CalloutPtr → ℕ
  | .callout 0 => 2000
  | _ => 1000

theorem timers_across_wrap_late :
    (isGreater (lateCounter + 2000) (lateCounter + 1000) = true ↔ 1000 ≤ 2000) ∧
    ∃ s s' list, wrappedCtrl.registerCallout 1 3 (.callout 0) 0 lateCounter 2 = some (.ok s) ∧
      s.calloutNext (s.dtop 0) = some (.callout 0) ∧
      Loop.Yields (fun fuel => s.registerCallout 1 fuel (.callout 1) 0 lateCounter 1) (.ok s') ∧
      Sll s'.calloutNext (s'.dtop 0) list ∧ list.Perm [.callout 1,.callout 0] ∧
      list.Pairwise (fun x y => period x ≤ period y) := by
  obtain ⟨ht,hr⟩ := timers_across_wrap lateCounter
  obtain ⟨s,list,hs,hok,hp,_⟩ := hr wrappedCtrl _ _ 0 period 0 1 lateCounter 2
    (setup_ctrlOk blankCtrl_fresh)
    ⟨.inr rfl,fun _ => not_mem_nil,by decide,by simp,.nil⟩ (by decide)
  obtain rfl := perm_singleton.mp hp
  have hf : wrappedCtrl.registerCallout 1 3 (.callout 0) 0 lateCounter 2 = some (.ok s) := by
    cases hs.eq (n := 3) rfl
    rfl
  have hst : s.calloutState (.callout 1) = .stopped ∧
      s.calloutTime (.callout 0) = lateCounter + 2000 := by
    cases hs.eq (n := 3) rfl
    exact ⟨rfl,by decide⟩
  have hli : ∀ i, update (fun _ => []) 0 [CalloutPtr.callout 0] i = [.callout 0] ∨
      update (fun _ => []) 0 [CalloutPtr.callout 0] i = [] := by
    intro i
    rcases eq_or_ne i 0 with rfl | hi
    · exact .inl (update_self ..)
    · exact .inr (update_of_ne hi _ _)
  obtain ⟨s',list,hs',hok',hp',hso⟩ := hr s _ _ 0 period 1 1 lateCounter 1 hok
    ⟨.inr hst.1,fun i => by rcases hli i with h | h <;> simp [h],by decide,fun y hy => by
        rw [update_self,mem_singleton] at hy
        subst hy
        exact ⟨by decide,hst.2⟩,
      by rw [update_self]; exact pairwise_singleton _ _⟩ (by decide)
  rw [update_self] at hp'
  have hsl := hok'.lists.sll 0
  rw [update_self] at hsl
  refine ⟨((ht 1000 (by decide) 2000 (by decide)).mpr ?_).1,s,s',list,hf,
    (hok.lists.first_eq 0).trans (by rw [update_self]; rfl),hs',hsl,hp',hso.mpr ?_⟩
  · exact .inl (by unfold Wraps; decide)
  · exact .inl (by unfold Wraps; decide)

end

end Tasks
