import RaphKernel.Task.Callouts

namespace Tasks
variable {clk : Raph.Word} {cpu : ℕ → CpuId} {n : CalloutPtr → Bool} {owner : CpuId}
  {us : BitVec 32}
namespace Race
open Raph Function List Effect
open Timer
open Links

inductive Pc where
  | idle
  | regSet (x : CalloutPtr) (cpuid : CpuId) (us : BitVec 32)
  | regCpu (x : CalloutPtr)
  | regInsert (x : CalloutPtr) (cpuid : CpuId)
  | canRead (x : CalloutPtr)
  | canCpu (x : CalloutPtr)
  | canUnlink (x : CalloutPtr) (cpuid : CpuId)
  | canRemove (x : CalloutPtr)
  | canDequeue (x : CalloutPtr)
  | canStop (x : CalloutPtr) (flag : Bool)
  | moving (time : Word)
  | movReg (x : CalloutPtr) (time : Word)
  | movEnq (x : CalloutPtr) (time : Word)
  | exec (t : TaskPtr)
  | hsTime (x : CalloutPtr) (t : TaskPtr)
  | hsBegin (x : CalloutPtr) (t : TaskPtr)
  | hsCall (x : CalloutPtr) (t : TaskPtr)
  | hsBusy (x : CalloutPtr) (t : TaskPtr)
  | hsReg (x : CalloutPtr) (t : TaskPtr)
  | hsEnq (x : CalloutPtr) (t : TaskPtr)
  | finish (t : TaskPtr)
  deriving DecidableEq, Repr

inductive Lock where
  | dlock (cpuid : CpuId)
  | callout (x : CalloutPtr)
  deriving DecidableEq, Repr

inductive Event where
  | registered (x : CalloutPtr)
  | cancelled (x : CalloutPtr)
  | executed (x : CalloutPtr)
  deriving DecidableEq, Repr

def Pc.held (cpuid : CpuId) : Pc → List Lock
  | .moving _ => [.dlock cpuid]
  | .movReg x _ => [.dlock cpuid,.callout x]
  | .movEnq x _ => [.dlock cpuid,.callout x]
  | _ => []

inductive Section (cntClkPeriod : Word) (cpuid : CpuId) (c : TaskCtrl) :
    Pc → List Lock → Option Event → TaskCtrl → Pc → Prop
  | regAssert (id : ℕ) (owner : CpuId) (us : BitVec 32) :
    c.calloutState (.callout id) = .handling ∨ c.calloutState (.callout id) = .stopped →
    Section cntClkPeriod cpuid c .idle [] (some (.registered (.callout id))) c
      (.regSet (.callout id) owner us)
  | regSet (x : CalloutPtr) (owner : CpuId) (us : BitVec 32) (cur : Word) :
    Section cntClkPeriod cpuid c (.regSet x owner us) [.callout x] none
      (c.setHandler x owner (getCntAfterPeriod cntClkPeriod cur us)) (.regCpu x)
  | regCpu (x : CalloutPtr) :
    Section cntClkPeriod cpuid c (.regCpu x) [] none c (.regInsert x (c.calloutCpuid x))
  | regInsert (x : CalloutPtr) (owner : CpuId) (fuel : ℕ) {c' : TaskCtrl} :
    c.insertCallout fuel x owner = some c' →
    Section cntClkPeriod cpuid c (.regInsert x owner) [.dlock owner] none c' .idle
  | canPending (id : ℕ) :
    Section cntClkPeriod cpuid c .idle [.callout (.callout id)] none (c.cancel (.callout id))
      (.canRead (.callout id))
  | canQueued (x : CalloutPtr) : c.calloutState x = .calloutQueue →
    Section cntClkPeriod cpuid c (.canRead x) [] none c (.canCpu x)
  | canTask (x : CalloutPtr) : c.calloutState x = .taskQueue →
    Section cntClkPeriod cpuid c (.canRead x) [] none c (.canRemove x)
  | canNone (x : CalloutPtr) : c.calloutState x = .handling ∨ c.calloutState x = .stopped →
    Section cntClkPeriod cpuid c (.canRead x) [] none c (.canStop x false)
  | canCpu (x : CalloutPtr) :
    Section cntClkPeriod cpuid c (.canCpu x) [] none c (.canUnlink x (c.calloutCpuid x))
  | canUnlink (x : CalloutPtr) (owner : CpuId) (fuel : ℕ) {c' : TaskCtrl} :
    c.unlinkCallout fuel x owner = some c' →
    Section cntClkPeriod cpuid c (.canUnlink x owner) [.dlock owner] none c' (.canStop x true)
  | canOut (x : CalloutPtr) : c.status (c.calloutTask x) = .outOfQueue →
    Section cntClkPeriod cpuid c (.canRemove x) [] none c (.canStop x true)
  | canIn (x : CalloutPtr) : c.status (c.calloutTask x) ≠ .guard →
    c.status (c.calloutTask x) ≠ .outOfQueue →
    Section cntClkPeriod cpuid c (.canRemove x) [] none c (.canDequeue x)
  | canDequeue (x : CalloutPtr) {c' : TaskCtrl} : c.dequeue cpuid (c.calloutTask x) = .ok c' →
    Section cntClkPeriod cpuid c (.canDequeue x) [] none c' (.canStop x true)
  | canStop (x : CalloutPtr) (flag : Bool) :
    Section cntClkPeriod cpuid c (.canStop x flag) [] (if flag then some (.cancelled x) else none)
      (c.setStopped x) .idle
  | movStart (cur : Word) :
    Section cntClkPeriod cpuid c .idle [.dlock cpuid] none c
      (.moving (getCntAfterPeriod cntClkPeriod cur kTaskExecutionInterval))
  | movNull (time : Word) : c.calloutNext (c.dtop cpuid) = none →
    Section cntClkPeriod cpuid c (.moving time) [] none c .idle
  | movLater (x : CalloutPtr) (time : Word) : c.calloutNext (c.dtop cpuid) = some x →
    isGreater (c.calloutTime x) time = true →
    Section cntClkPeriod cpuid c (.moving time) [] none c .idle
  | movTake (x : CalloutPtr) (time : Word) : c.calloutNext (c.dtop cpuid) = some x →
    isGreater (c.calloutTime x) time = false →
    Section cntClkPeriod cpuid c (.moving time) [.callout x] none
      (c.takeCallout (c.dtop cpuid) x) (.movReg x time)
  | movReg (x : CalloutPtr) (time : Word) : c.status (c.calloutTask x) ≠ .waitingInQueue →
    Section cntClkPeriod cpuid c (.movReg x time) [] none c (.movEnq x time)
  | movEnq (x : CalloutPtr) (time : Word) :
    Section cntClkPeriod cpuid c (.movEnq x time) [] none (c.enqueue cpuid (c.calloutTask x))
      (.moving time)
  | pop {t : TaskPtr} {c' : TaskCtrl} : c.popTask cpuid = .ok (some t,c') →
    Section cntClkPeriod cpuid c .idle [] none c' (.exec t)
  | swap : Section cntClkPeriod cpuid c .idle [] none (c.swapQueues cpuid).2 .idle
  | execHandle {x : CalloutPtr} (t : TaskPtr) : c.func t = .handleSub x →
    Section cntClkPeriod cpuid c (.exec t) [] none c (.hsTime x t)
  | execOther (t : TaskPtr) : (∀ x, c.func t ≠ .handleSub x) →
    Section cntClkPeriod cpuid c (.exec t) [] none c (.finish t)
  | hsPassed (x : CalloutPtr) (t : TaskPtr) (cur : Word) :
    isTimePassed cur (c.calloutTime x) = true →
    Section cntClkPeriod cpuid c (.hsTime x t) [] none c (.hsBegin x t)
  | hsEarly (x : CalloutPtr) (t : TaskPtr) (cur : Word) :
    isTimePassed cur (c.calloutTime x) = false →
    Section cntClkPeriod cpuid c (.hsTime x t) [] none c (.hsReg x t)
  | hsBegin (x : CalloutPtr) (t : TaskPtr) :
    Section cntClkPeriod cpuid c (.hsBegin x t) [.callout x] none (c.beginHandling x) (.hsCall x t)
  | hsCall (x : CalloutPtr) (t : TaskPtr) :
    Section cntClkPeriod cpuid c (.hsCall x t) [] (some (.executed x)) c (.hsBusy x t)
  | hsEnd (x : CalloutPtr) (t : TaskPtr) :
    Section cntClkPeriod cpuid c (.hsBusy x t) [.callout x] none (c.endHandling x) (.finish t)
  | hsReg (x : CalloutPtr) (t : TaskPtr) : c.status (c.calloutTask x) ≠ .waitingInQueue →
    Section cntClkPeriod cpuid c (.hsReg x t) [] none c (.hsEnq x t)
  | hsEnq (x : CalloutPtr) (t : TaskPtr) :
    Section cntClkPeriod cpuid c (.hsEnq x t) [] none (c.enqueue cpuid (c.calloutTask x))
      (.finish t)
  | finish (t : TaskPtr) :
    Section cntClkPeriod cpuid c (.finish t) [] none (c.finishTask t) .idle

structure State where
  ctrl : TaskCtrl
  pc : ℕ → Pc
  cancelled : CalloutPtr → Bool

def note (cancelled : CalloutPtr → Bool) : Option Event → CalloutPtr → Bool
  | some (.cancelled x) => update cancelled x true
  | some (.registered x) => update cancelled x false
  | _ => cancelled

inductive Step (cntClkPeriod : Word) (cpu : ℕ → CpuId) (s : State) : Option Event → State → Prop
  | act (a : ℕ) {locks : List Lock} {e : Option Event} {c' : TaskCtrl} {p' : Pc} :
    Section cntClkPeriod (cpu a) s.ctrl (s.pc a) locks e c' p' →
    (∀ b, b ≠ a → ∀ k ∈ locks, k ∉ (s.pc b).held (cpu b)) →
    Step cntClkPeriod cpu s e ⟨c',update s.pc a p',note s.cancelled e⟩

def boot (c : TaskCtrl) : State := ⟨c.setup,fun _ => .idle,fun _ => false⟩

def On (c : TaskCtrl) : Pc → CalloutPtr → Prop
  | .regSet x _ _, y => y = x
  | .regCpu x, y => y = x
  | .regInsert x _, y => y = x
  | .canRead x, y => y = x
  | .canCpu x, y => y = x
  | .canUnlink x _, y => y = x
  | .canRemove x, y => y = x
  | .canDequeue x, y => y = x
  | .canStop x _, y => y = x
  | .movReg x _, y => y = x
  | .movEnq x _, y => y = x
  | .exec t, y => c.calloutTask y = t
  | .hsTime x _, y => y = x
  | .hsBegin x _, y => y = x
  | .hsCall x _, y => y = x
  | .hsReg x _, y => y = x
  | .hsEnq x _, y => y = x
  | _, _ => False

def Exclusive (s : State) : Prop :=
  ∀ a b x, On s.ctrl (s.pc a) x → On s.ctrl (s.pc b) x → a = b

def Settled (c : TaskCtrl) (x : CalloutPtr) : Prop :=
  c.calloutState x = .handling ∨ c.calloutState x = .stopped

structure Entering (c : TaskCtrl) (lists : CpuId → List CalloutPtr) (cancelled : Bool)
    (x : CalloutPtr) : Prop where
  user : ∃ id, x = .callout id
  settled : Settled c x
  loose : Loose c lists x
  active : cancelled = false

structure Moved (c : TaskCtrl) (lists : CpuId → List CalloutPtr) (cancelled : Bool)
    (x : CalloutPtr) : Prop where
  state : c.calloutState x = .taskQueue
  loose : Loose c lists x
  active : cancelled = false

def Inv (c : TaskCtrl) (lists : CpuId → List CalloutPtr) (cancelled : Bool) (x : CalloutPtr) :
    Pc → Prop
  | .regSet _ _ _ => Entering c lists cancelled x
  | .regCpu _ => Entering c lists cancelled x
  | .regInsert _ owner => Entering c lists cancelled x ∧ c.calloutCpuid x = owner
  | .canRead _ => Rest c lists x
  | .canCpu _ => Rest c lists x ∧ c.calloutState x = .calloutQueue
  | .canUnlink _ owner =>
    Rest c lists x ∧ c.calloutState x = .calloutQueue ∧ c.calloutCpuid x = owner
  | .canRemove _ => Rest c lists x ∧ c.calloutState x = .taskQueue
  | .canDequeue _ => Rest c lists x ∧ c.calloutState x = .taskQueue
  | .canStop _ true => Loose c lists x
  | .canStop _ false => Rest c lists x ∧ Settled c x
  | .hsCall _ _ => Settled c x ∧ Loose c lists x ∧ cancelled = false
  | _ => Moved c lists cancelled x

structure RaceOk (s : State) (queue : QueueId → List TaskPtr) (lists : CpuId → List CalloutPtr) :
    Prop where
  ctrl : CtrlOk s.ctrl queue lists
  rest : ∀ x, (∀ a, ¬ On s.ctrl (s.pc a) x) → Rest s.ctrl lists x
  busy : ∀ a x, On s.ctrl (s.pc a) x → Inv s.ctrl lists (s.cancelled x) x (s.pc a)
  quiet : ∀ x, s.cancelled x = true → Loose s.ctrl lists x ∧ s.ctrl.calloutState x = .stopped

variable {s : State} {c c' : TaskCtrl} {q q' : QueueId → List TaskPtr}
  {ls l' : CpuId → List CalloutPtr} {x : CalloutPtr} {a : ℕ} {p p' : Pc}
  {e : Option Event} {cc : Bool} {t : TaskPtr}

lemma Settled.same (h : Settled c x) (hs : Same c c' ls l' x) : Settled c' x := by
  rw [Settled,hs.state]
  exact h

lemma Entering.same (h : Entering c ls cc x) (hs : Same c c' ls l' x) :
    Entering c' l' cc x := ⟨h.user,h.settled.same hs,h.loose.same hs,h.active⟩

lemma Moved.same (h : Moved c ls cc x) (hs : Same c c' ls l' x) :
    Moved c' l' cc x := ⟨hs.state.trans h.state,h.loose.same hs,h.active⟩

lemma Inv.same (h : Inv c ls cc x p) (hs : Same c c' ls l' x) :
    Inv c' l' cc x p := by
  cases p with
  | regSet y owner us | regCpu y => exact Entering.same h hs
  | regInsert y owner => exact ⟨h.1.same hs,hs.cpuid.trans h.2⟩
  | canRead y => exact Rest.same h hs
  | canCpu y | canRemove y | canDequeue y => exact ⟨h.1.same hs,hs.state.trans h.2⟩
  | canUnlink y owner => exact ⟨h.1.same hs,hs.state.trans h.2.1,hs.cpuid.trans h.2.2⟩
  | canStop y f =>
    cases f with
    | true => exact Loose.same h hs
    | false => exact ⟨h.1.same hs,h.2.same hs⟩
  | hsCall y t => exact ⟨h.1.same hs,h.2.1.same hs,h.2.2⟩
  | _ => exact Moved.same h hs

lemma Settled.loose (h : Settled c x) (hr : Rest c ls x) : Loose c ls x :=
  ⟨hr.unlinked (by rcases h with h | h <;> simp [h]),hr.idle (by rcases h with h | h <;> simp [h])⟩

lemma Settled.rest (h : Settled c x) (hl : Loose c ls x) : Rest c ls x :=
  hl.rest (by rcases h with h | h <;> simp [h])

lemma stopped_settled (c : TaskCtrl) (x : CalloutPtr) : Settled (c.setStopped x) x :=
  .inr (update_self ..)

lemma Inv.stopped (h : Inv c ls cc x p) (hs : c.calloutState x = .handling) :
    Inv (c.setStopped x) ls cc x p := by
  have hse := stopped_settled c x
  have hb : ∀ {P : Prop} {st : CalloutState}, c.calloutState x = st → st ≠ .handling → P := by
    intro P st hst hne
    exact absurd (hst.symm.trans hs) hne
  have hre : Rest c ls x → Rest (c.setStopped x) ls x := by
    intro hr
    have hl := Settled.loose (.inl hs) hr
    exact hse.rest ⟨hl.unlinked,hl.idle⟩
  cases p with
  | regSet y owner us | regCpu y => exact ⟨h.user,hse,⟨h.loose.unlinked,h.loose.idle⟩,h.active⟩
  | regInsert y owner =>
    exact ⟨⟨h.1.user,hse,⟨h.1.loose.unlinked,h.1.loose.idle⟩,h.1.active⟩,h.2⟩
  | canRead y => exact hre h
  | canCpu y | canRemove y | canDequeue y => exact hb h.2 (by decide)
  | canUnlink y owner => exact hb h.2.1 (by decide)
  | canStop y f =>
    cases f with
    | true => exact ⟨h.unlinked,h.idle⟩
    | false => exact ⟨hre h.1,hse⟩
  | hsCall y t => exact ⟨hse,⟨h.2.1.unlinked,h.2.1.idle⟩,h.2.2⟩
  | _ => exact hb (Moved.state h) (by decide)

lemma On.task (ht : c'.calloutTask = c.calloutTask) : On c' p x ↔ On c p x := by
  cases p <;> simp only [On,ht]

section
variable (h : RaceOk s q ls)
include h

lemma RaceOk.frame {P : CalloutPtr → Prop} (he : Effect s.ctrl ls P c' q' l')
    (hn : ∀ y, ¬ P y → note s.cancelled e y = s.cancelled y) (hp : s.pc a = p)
    (hol : ∀ y, On s.ctrl p y → P y)
    (ho : ∀ y, P y → ∀ b, b ≠ a → On s.ctrl (s.pc b) y → Inv c' l' (note s.cancelled e y) y (s.pc b))
    (hin : ∀ y, On s.ctrl p' y → Inv c' l' (note s.cancelled e y) y p')
    (hr : ∀ y, P y → ¬ On s.ctrl p' y → (∀ b, b ≠ a → ¬ On s.ctrl (s.pc b) y) → Rest c' l' y)
    (hq : ∀ y, P y → note s.cancelled e y = true → Loose c' l' y ∧ c'.calloutState y = .stopped) :
    RaceOk ⟨c',update s.pc a p',note s.cancelled e⟩ q' l' := by
  refine ⟨he.ok,?_,?_,?_⟩
  · intro y hof
    simp only [On.task he.task] at hof
    have hse := hof a
    rw [update_self] at hse
    have hre : ∀ b, b ≠ a → ¬ On s.ctrl (s.pc b) y := by
      intro b hba
      have hb := hof b
      rwa [update_of_ne hba] at hb
    by_cases hy : P y
    · exact hr y hy hse hre
    · refine (h.rest y (fun b hb => ?_)).same (he.frame y hy)
      rcases eq_or_ne b a with rfl | hba
      · exact hy (hol y (hp ▸ hb))
      · exact hre b hba hb
  · intro b y hb
    simp only [On.task he.task] at hb
    rcases eq_or_ne b a with rfl | hba
    · simp only [update_self] at hb ⊢
      exact hin y hb
    · simp only [update_of_ne hba] at hb ⊢
      by_cases hy : P y
      · exact ho y hy b hba hb
      · rw [hn y hy]
        exact (h.busy b y hb).same (he.frame y hy)
  · intro y hc
    by_cases hy : P y
    · exact hq y hy hc
    · obtain ⟨hl,hs⟩ := h.quiet y ((hn y hy).symm.trans hc)
      exact ⟨hl.same (he.frame y hy),(he.frame y hy).state.trans hs⟩

lemma RaceOk.advance (he : Effect s.ctrl ls (· = x) c' q' l') (hp : s.pc a = p)
    (ha : ∀ b, b ≠ a → ¬ On s.ctrl (s.pc b) x)
    (hin : On s.ctrl p' x → Inv c' l' (note s.cancelled e x) x p')
    (hr : ¬ On s.ctrl p' x → Rest c' l' x)
    (hq : note s.cancelled e x = true → Loose c' l' x ∧ c'.calloutState x = .stopped)
    (hn : ∀ y, y ≠ x → note s.cancelled e y = s.cancelled y)
    (ho : ∀ y, On s.ctrl p y → y = x) (hne : ∀ y, On s.ctrl p' y → y = x) :
    RaceOk ⟨c',update s.pc a p',note s.cancelled e⟩ q' l' := by
  refine h.frame he hn hp ho ?_ ?_ ?_ ?_
  · rintro y rfl b hba hb
    exact absurd hb (ha b hba)
  · intro y hy
    obtain rfl := hne y hy
    exact hin hy
  · rintro y rfl hof _
    exact hr hof
  · rintro y rfl
    exact hq

lemma RaceOk.pass (he : Effect s.ctrl ls (fun _ => False) c' q' l') (hp : s.pc a = p)
    (ho : ∀ y, ¬ On s.ctrl p y := by exact fun _ => id)
    (hn : ∀ y, ¬ On s.ctrl p' y := by exact fun _ => id) :
    RaceOk ⟨c',update s.pc a p',note s.cancelled none⟩ q' l' :=
  h.frame he (fun _ _ => rfl) hp ho (fun _ hf => hf.elim) (fun y hy => (hn y hy).elim)
    (fun _ hf => hf.elim) (fun _ hf => hf.elim)

lemma RaceOk.inv (hp : s.pc a = p) (hon : On s.ctrl p x) :
    Inv s.ctrl ls (s.cancelled x) x p := by
  subst hp
  exact h.busy a x hon

end

lemma Exclusive.alone (hex : Exclusive s) (hp : s.pc a = p) (hon : On s.ctrl p x) (b : ℕ)
    (hb : b ≠ a) : ¬ On s.ctrl (s.pc b) x := by
  subst hp
  exact fun hbx => hb (hex b a x hbx hon)

lemma Exclusive.alone_after
    (hex : Exclusive ⟨c',update s.pc a p',n⟩) (ht : c'.calloutTask = s.ctrl.calloutTask)
    (hon : On s.ctrl p' x) (b : ℕ) (hb : b ≠ a) : ¬ On s.ctrl (s.pc b) x := by
  intro hbx
  refine hb (hex b a x ?_ ?_)
  · simp only [On.task ht,update_of_ne hb]
    exact hbx
  · simp only [On.task ht,update_self]
    exact hon

lemma RaceOk.free (h : RaceOk s q ls) (hp : s.pc a = p) (ho : ¬ On s.ctrl p x)
    (ha : ∀ b, b ≠ a → ¬ On s.ctrl (s.pc b) x) : Rest s.ctrl ls x := by
  subst hp
  refine h.rest x (fun b => ?_)
  rcases eq_or_ne b a with rfl | hb
  · exact ho
  · exact ha b hb

lemma RaceOk.proceed (h : RaceOk s q ls) (hex : Exclusive s) (hp : s.pc a = p)
    (hin : Inv s.ctrl ls (s.cancelled x) x p → Inv s.ctrl ls (s.cancelled x) x p')
    (ho : ∀ y, On s.ctrl p y ↔ y = x := by exact fun _ => Iff.rfl)
    (hne : ∀ y, On s.ctrl p' y ↔ y = x := by exact fun _ => Iff.rfl) :
    RaceOk ⟨s.ctrl,update s.pc a p',note s.cancelled none⟩ q ls := by
  have hon := (ho x).mpr rfl
  exact h.advance (refl h.ctrl _) hp (hex.alone hp hon) (fun _ => hin (h.inv hp hon))
    (fun hn => absurd ((hne x).mpr rfl) hn) (h.quiet x) (fun _ _ => rfl) (fun y => (ho y).mp)
    fun y => (hne y).mp

lemma RaceOk.active (h : RaceOk s q ls) (hx : ¬ Loose s.ctrl ls x) :
    s.cancelled x = false := by
  cases hc : s.cancelled x with
  | false => rfl
  | true => exact absurd (h.quiet x hc).1 hx

section
variable {f : ℕ}

lemma RaceOk.regAssert {id : ℕ} (h : RaceOk s q ls)
    (hp : s.pc a = .idle) (hs : Settled s.ctrl (.callout id))
    (hex : Exclusive ⟨s.ctrl,update s.pc a (.regSet (.callout id) owner us),
      note s.cancelled (some (.registered (.callout id)))⟩) :
    RaceOk ⟨s.ctrl,update s.pc a (.regSet (.callout id) owner us),
      note s.cancelled (some (.registered (.callout id)))⟩ q ls := by
  have ha := hex.alone_after rfl (x := .callout id) rfl
  have hr := h.free hp (fun hf => hf.elim) ha
  have ho : note s.cancelled (some (.registered (.callout id))) (.callout id) = false :=
    update_self ..
  refine h.advance (refl h.ctrl _) hp ha ?_ ?_ ?_ (fun y hy => update_of_ne hy _ _)
    (fun _ hf => hf.elim) fun _ hy => hy
  · exact fun _ => ⟨⟨id,rfl⟩,hs,hs.loose hr,ho⟩
  · exact absurd rfl
  · simp [ho]

lemma RaceOk.regSet (h : RaceOk s q ls)
    (hex : Exclusive s) (hp : s.pc a = .regSet x owner us) (tm : Word) :
    RaceOk ⟨s.ctrl.setHandler x owner tm,update s.pc a (.regCpu x),
      note s.cancelled none⟩ q ls := by
  have hin := h.inv hp rfl
  refine h.advance (setHandler_effect h.ctrl hin.loose.unlinked owner tm) hp
    (hex.alone hp rfl) ?_ ?_ ?_ (fun _ _ => rfl) (fun _ => id) fun _ => id
  · exact fun _ => ⟨hin.user,hin.settled,⟨hin.loose.unlinked,hin.loose.idle⟩,hin.active⟩
  · exact absurd rfl
  · simp [note,hin.active]

lemma RaceOk.regInsert (h : RaceOk s q ls) (hex : Exclusive s)
    (hp : s.pc a = .regInsert x owner) (hi : s.ctrl.insertCallout f x owner = some c') :
    ∃ l', RaceOk ⟨c',update s.pc a .idle,note s.cancelled none⟩ q l' := by
  obtain ⟨hin,hcp⟩ : Entering s.ctrl ls (s.cancelled x) x ∧ s.ctrl.calloutCpuid x = owner :=
    h.inv hp rfl
  obtain rfl := (insertCallout_yields h.ctrl.lists x owner).eq hi
  obtain ⟨id,rfl⟩ := hin.user
  have hs : ls owner = (ls owner).takeWhile (Earlier s.ctrl (.callout id)) ++
      (ls owner).dropWhile (Earlier s.ctrl (.callout id)) :=
    takeWhile_append_dropWhile.symm
  refine ⟨_,h.advance (link_effect h.ctrl hs (h.ctrl.not_node hin.loose.unlinked) hcp) hp
    (hex.alone hp rfl) (fun hf => hf.elim) ?_ ?_ (fun _ _ => rfl) (fun _ hy => hy)
    fun _ hf => hf.elim⟩
  · refine fun _ => ⟨iff_of_true (update_self ..) ⟨owner,?_⟩,?_⟩
    · exact (mem_inserted hs owner _).mpr (.inr ⟨rfl,rfl⟩)
    · exact fun hw => absurd hw hin.loose.idle
  · simp [note,hin.active]

end

section
variable {f : ℕ} {o cp : CpuId}

lemma RaceOk.canPending (h : RaceOk s q ls) (hp : s.pc a = .idle)
    (hex : Exclusive ⟨s.ctrl.cancel x,update s.pc a (.canRead x),note s.cancelled none⟩) :
    RaceOk ⟨s.ctrl.cancel x,update s.pc a (.canRead x),note s.cancelled none⟩ q
      ls := by
  have ha := hex.alone_after rfl (x := x) rfl
  have hr := h.free hp (fun hf => hf.elim) ha
  have he := cancel_effect h.ctrl x
  have hsa := he.frame x id
  refine h.advance (he.weaken (fun _ hf => hf.elim)) hp ha (fun _ => hr.same hsa) (absurd rfl)
    (fun hc => ?_) (fun _ _ => rfl) (fun _ hf => hf.elim) fun _ => id
  obtain ⟨hl,hs⟩ := h.quiet x hc
  exact ⟨hl.same hsa,hs⟩

section
variable (h : RaceOk s q ls) (hex : Exclusive s)
include h hex

lemma RaceOk.canUnlink (hp : s.pc a = .canUnlink x o)
    (hu : s.ctrl.unlinkCallout f x o = some c') :
    ∃ l', RaceOk ⟨c',update s.pc a (.canStop x true),note s.cancelled none⟩ q
      l' := by
  obtain ⟨hr,hs,hcp⟩ := h.inv hp rfl
  obtain ⟨i,hi⟩ := hr.linked.mp hs
  obtain rfl : i = o := (h.ctrl.lists.owner i x hi).symm.trans hcp
  obtain ⟨l₁,l₂,hl⟩ := append_of_mem hi
  obtain rfl := (unlinkCallout_yields h.ctrl.lists hl).eq hu
  have ha := h.active (fun hlo => hlo.unlinked i hi)
  refine ⟨_,h.advance (unlink_effect h.ctrl hl) hp (hex.alone hp rfl)
    (fun _ => ⟨fun j hj => ?_,?_⟩) (absurd rfl) ?_ (fun _ _ => rfl) (fun _ => id) fun _ => id⟩
  · exact ((h.ctrl.lists.mem_erased hl j x).mp hj).2 rfl
  · exact hr.idle (by simp [hs])
  · simp [note,ha]

lemma RaceOk.canDequeue (hp : s.pc a = .canDequeue x)
    (hd : s.ctrl.dequeue cp (s.ctrl.calloutTask x) = .ok c') :
    ∃ q', RaceOk ⟨c',update s.pc a (.canStop x true),note s.cancelled none⟩ q'
      ls := by
  obtain ⟨hr,hs⟩ := h.inv hp rfl
  obtain ⟨q',hok,hst,hk⟩ := dequeue_inv h.ctrl.queues (h.ctrl.not_guard x) hd
  have he := h.ctrl.requeued hok hk.toCalloutsKept (by decide) hst
  have hid : c'.status (c'.calloutTask x) ≠ .waitingInQueue := by
    rw [hk.calloutTask,hst,update_self]
    decide
  have hl : Loose c' ls x := ⟨hr.unlinked (by simp [hs]),hid⟩
  refine ⟨q',h.advance (he.weaken (fun y hy => h.ctrl.own y x hy)) hp (hex.alone hp rfl)
    (fun _ => hl) (absurd rfl) (fun hc => ?_) (fun _ _ => rfl) (fun _ => id) fun _ => id⟩
  have hb := (h.quiet x hc).2
  rw [hs] at hb
  cases hb

lemma RaceOk.canStop {fl : Bool} (hp : s.pc a = .canStop x fl) :
    RaceOk ⟨s.ctrl.setStopped x,update s.pc a .idle,
      note s.cancelled (if fl then some (.cancelled x) else none)⟩ q ls := by
  have hin := h.inv hp (x := x) rfl
  have hl : Loose s.ctrl ls x := by
    cases fl with
    | true => exact hin
    | false => exact Settled.loose hin.2 hin.1
  have hl' : Loose (s.ctrl.setStopped x) ls x := ⟨hl.unlinked,hl.idle⟩
  refine h.advance (setStopped_effect h.ctrl x) hp (hex.alone hp rfl) (fun hf => hf.elim)
    (fun _ => (stopped_settled s.ctrl x).rest hl') (fun _ => ⟨hl',update_self ..⟩)
    (fun y hy => ?_) (fun _ => id) fun _ hf => hf.elim
  cases fl with
  | true => exact update_of_ne hy _ _
  | false => rfl

end

end

section
variable {cp : CpuId} {tm : Word}

section
variable (h : RaceOk s q ls)
include h

lemma RaceOk.movTake (hp : s.pc a = .moving tm)
    (hx : s.ctrl.calloutNext (s.ctrl.dtop cp) = some x)
    (hex : Exclusive ⟨s.ctrl.takeCallout (s.ctrl.dtop cp) x, update s.pc a (.movReg x tm),note s.cancelled none⟩) :
    ∃ l', RaceOk ⟨s.ctrl.takeCallout (s.ctrl.dtop cp) x,
      update s.pc a (.movReg x tm),note s.cancelled none⟩ q l' := by
  have ha := hex.alone_after rfl (x := x) rfl
  have hr := h.free hp (fun hf => hf.elim) ha
  rw [h.ctrl.lists.first_eq] at hx
  obtain ⟨r,hl⟩ := head?_eq_some_iff.mp hx
  have hm : x ∈ ls cp := by
    rw [hl]
    exact mem_cons_self
  have hs := hr.linked.mpr ⟨cp,hm⟩
  have hac := h.active (fun hlo => hlo.unlinked cp hm)
  have hni : ls cp = [] ++ x :: r := hl
  refine ⟨_,h.advance (takeCallout_effect h.ctrl hl) hp ha
    (fun _ => ⟨update_self ..,⟨fun j hj => ?_,?_⟩,hac⟩) (absurd rfl) ?_ (fun _ _ => rfl)
    (fun _ hf => hf.elim) fun _ => id⟩
  · exact ((h.ctrl.lists.mem_erased hni j x).mp hj).2 rfl
  · exact hr.idle (by simp [hs])
  · simp [note,hac]

lemma RaceOk.enqueue (hex : Exclusive s) (hp : s.pc a = p) (hon : On s.ctrl p x)
    (ho : ∀ y, On s.ctrl p y → y = x) (hin : Moved s.ctrl ls (s.cancelled x) x) (cu : CpuId)
    (p' : Pc) (hn : ∀ y, ¬ On s.ctrl p' y) :
    ∃ q', RaceOk ⟨s.ctrl.enqueue cu (s.ctrl.calloutTask x),update s.pc a p',
      note s.cancelled none⟩ q' ls := by
  obtain ⟨q',hok⟩ := enqueue_inv h.ctrl.queues (h.ctrl.not_guard x) cu
  have hk := enqueue_rest s.ctrl cu (s.ctrl.calloutTask x)
  have he := h.ctrl.requeued hok hk.toCalloutsKept (by decide) (enqueue_status ..)
  have hs : (s.ctrl.enqueue cu (s.ctrl.calloutTask x)).calloutState x = .taskQueue := by
    rw [hk.calloutState,hin.state]
  refine ⟨q',h.advance (he.weaken (fun y hy => h.ctrl.own y x hy)) hp (hex.alone hp hon)
    (fun hy => (hn x hy).elim) (fun _ => ?_) ?_ (fun _ _ => rfl) ho fun y hy => (hn y hy).elim⟩
  · exact ⟨iff_of_false (by simp [hs]) (fun ⟨i,hi⟩ => hin.loose.unlinked i hi),fun _ => hs⟩
  · simp [note,hin.active]

lemma RaceOk.pop (hp : s.pc a = .idle) (hpo : s.ctrl.popTask cp = .ok (some t,c'))
    (hex : Exclusive ⟨c',update s.pc a (.exec t),note s.cancelled none⟩) :
    ∃ q', RaceOk ⟨c',update s.pc a (.exec t),note s.cancelled none⟩ q' ls := by
  obtain ⟨hw,q',hok,-,hst,hk⟩ := popTask_inv h.ctrl.queues hpo
  have he := h.ctrl.requeued hok hk.toCalloutsKept (by decide) hst
  have hm : ∀ y, s.ctrl.calloutTask y = t → Moved c' ls (s.cancelled y) y := by
    intro y hy
    have ha := hex.alone_after hk.calloutTask (x := y) hy
    have hr := h.free hp (fun hf => hf.elim) ha
    have hwy : s.ctrl.status (s.ctrl.calloutTask y) = .waitingInQueue := by rw [hy,hw]
    have hs := hr.waiting hwy
    refine ⟨by rw [hk.calloutState,hs],⟨hr.unlinked (by simp [hs]),?_⟩,?_⟩
    · rw [hk.calloutTask,hst,hy,update_self]
      decide
    · exact h.active (fun hl => hl.idle hwy)
  refine ⟨q',h.frame he (fun _ _ => rfl) hp (fun _ hf => hf.elim) ?_ hm ?_ ?_⟩
  · intro y hy b hb hon
    exact absurd hon (hex.alone_after hk.calloutTask hy b hb)
  · intro y hy ho
    exact absurd hy ho
  · intro y hy
    simp [note,(hm y hy).active]

lemma RaceOk.execOther (hex : Exclusive s) (hp : s.pc a = .exec t) :
    RaceOk ⟨s.ctrl,update s.pc a (.finish t),note s.cancelled none⟩ q ls := by
  have hmo : ∀ y, s.ctrl.calloutTask y = t → Moved s.ctrl ls (s.cancelled y) y :=
    fun y hy => h.inv hp hy
  refine h.frame (refl h.ctrl (fun y => s.ctrl.calloutTask y = t)) (fun _ _ => rfl) hp
    (fun _ hy => hy) ?_ (fun _ hf => hf.elim) ?_ (fun y _ => h.quiet y)
  · intro y hy b hb hon
    exact absurd hon (hex.alone hp hy b hb)
  · intro y hy _ _
    have hm := hmo y hy
    exact hm.loose.rest (by simp [hm.state])

lemma RaceOk.hsBegin (hex : Exclusive s) (hp : s.pc a = .hsBegin x t) :
    RaceOk ⟨s.ctrl.beginHandling x,update s.pc a (.hsCall x t),note s.cancelled none⟩
      q ls := by
  have hin := h.inv hp rfl
  refine h.advance (beginHandling_effect h.ctrl x) hp (hex.alone hp rfl) (fun _ => ?_) (absurd rfl) ?_
    (fun _ _ => rfl) (fun _ => id) fun _ => id
  · exact ⟨.inl (update_self ..),⟨hin.loose.unlinked,hin.loose.idle⟩,hin.active⟩
  · simp [note,hin.active]

lemma RaceOk.hsEnd (hp : s.pc a = .hsBusy x t) :
    RaceOk ⟨s.ctrl.endHandling x,update s.pc a (.finish t),note s.cancelled none⟩
      q ls := by
  unfold TaskCtrl.endHandling
  split
  · rename_i hs
    refine h.frame (setStopped_effect h.ctrl x) (fun _ _ => rfl) hp (fun _ hf => hf.elim) ?_
      (fun _ hf => hf.elim) ?_ ?_
    · rintro y rfl b _ hon
      exact (h.busy b y hon).stopped hs
    · rintro y rfl _ ha
      have hl := Settled.loose (.inl hs) (h.free hp (fun hf => hf.elim) ha)
      exact (stopped_settled s.ctrl y).rest ⟨hl.unlinked,hl.idle⟩
    · rintro y rfl hc
      have hb := (h.quiet y hc).2
      rw [hs] at hb
      cases hb
  · exact h.pass (refl h.ctrl _) hp

end

end

lemma RaceOk.act {cp : CpuId} {l : List Lock}
    (h : RaceOk s q ls) (hex : Exclusive s)
    (hs : Section clk cp s.ctrl (s.pc a) l e c' p')
    (hex' : Exclusive ⟨c',update s.pc a p',note s.cancelled e⟩) :
    ∃ q' l', RaceOk ⟨c',update s.pc a p',note s.cancelled e⟩ q' l' := by
  generalize hp : s.pc a = p at hs
  cases hs with
  | regAssert id owner us hst => exact ⟨q,ls,h.regAssert hp hst hex'⟩
  | regSet x owner us cr => exact ⟨q,ls,h.regSet hex hp _⟩
  | regCpu x =>
    exact ⟨q,ls,h.proceed hex hp (fun hin => ⟨hin,rfl⟩)⟩
  | regInsert x owner f hi => exact ⟨q,h.regInsert hex hp hi⟩
  | canPending id => exact ⟨q,ls,h.canPending hp hex'⟩
  | canQueued x hst | canTask x hst | canNone x hst =>
    exact ⟨q,ls,h.proceed hex hp (fun hin => ⟨hin,hst⟩)⟩
  | canCpu x =>
    exact ⟨q,ls,h.proceed hex hp (fun hin => ⟨hin.1,hin.2,rfl⟩)⟩
  | canUnlink x owner f hu => exact ⟨q,h.canUnlink hex hp hu⟩
  | canOut x hst =>
    exact ⟨q,ls,h.proceed (x := x) hex hp fun hin =>
      ⟨hin.1.unlinked (by simp [hin.2]),by simp [hst]⟩⟩
  | canIn x _ _ | movReg x tm _ | hsPassed x t cr _ | hsEarly x t cr _ | hsReg x t _ =>
    exact ⟨q,ls,h.proceed hex hp id⟩
  | canDequeue x hd =>
    obtain ⟨q',hok⟩ := h.canDequeue hex hp hd
    exact ⟨q',ls,hok⟩
  | canStop x fl => exact ⟨q,ls,h.canStop hex hp⟩
  | movStart cr | movNull tm _ | movLater x tm _ _ =>
    exact ⟨q,ls,h.pass (refl h.ctrl _) hp⟩
  | movTake x tm hx _ => exact ⟨q,h.movTake hp hx hex'⟩
  | movEnq x tm =>
    obtain ⟨q',hok⟩ := h.enqueue hex hp rfl (fun _ hy => hy) (h.inv hp rfl)
      cp (.moving tm) (fun _ hf => hf)
    exact ⟨q',ls,hok⟩
  | pop hpo =>
    obtain ⟨q',hok⟩ := h.pop hp hpo hex'
    exact ⟨q',ls,hok⟩
  | swap =>
    obtain ⟨q',-,-,he⟩ := swapQueues_effect h.ctrl cp
    exact ⟨q',ls,h.pass he hp⟩
  | @execHandle x t hf =>
    have ht := h.ctrl.func t x hf
    have ho : ∀ y, On s.ctrl (.exec t) y ↔ y = x := by
      intro y
      refine ⟨fun hy => h.ctrl.own y x (hy.trans ht),?_⟩
      rintro rfl
      exact ht.symm
    exact ⟨q,ls,h.proceed hex hp id ho⟩
  | execOther t _ => exact ⟨q,ls,h.execOther hex hp⟩
  | hsBegin x t => exact ⟨q,ls,h.hsBegin hex hp⟩
  | hsCall x t =>
    have hin := h.inv hp (x := x) rfl
    exact ⟨q,ls,h.advance (refl h.ctrl _) hp (hex.alone hp rfl) (fun hf => hf.elim)
      (fun _ => hin.1.rest hin.2.1) (h.quiet x) (fun _ _ => rfl) (fun _ => id)
      fun _ hf => hf.elim⟩
  | hsEnd x t => exact ⟨q,ls,h.hsEnd hp⟩
  | hsEnq x t =>
    obtain ⟨q',hok⟩ := h.enqueue hex hp rfl (fun _ hy => hy) (h.inv hp rfl)
      cp (.finish t) (fun _ hf => hf)
    exact ⟨q',ls,hok⟩
  | finish t =>
    exact ⟨q,ls,h.pass (finishTask_effect h.ctrl t) hp⟩

lemma RaceOk.step {s' : State}
    (h : RaceOk s q ls) (hex : Exclusive s) (hs : Step clk cpu s e s')
    (hex' : Exclusive s') : ∃ q' l', RaceOk s' q' l' := by
  cases hs with
  | act a hse _ => exact h.act hex hse hex'

lemma boot_raceOk (hc : FreshCallouts c) : RaceOk (boot c) (fun _ => []) (fun _ => []) := by
  refine ⟨setup_ctrlOk hc,fun x _ => ⟨?_,?_⟩,fun a x hf => hf.elim,fun x hf => ?_⟩
  · simp [boot,TaskCtrl.setup]
  · obtain ⟨id,hid⟩ := hc.tasks x
    simp [boot,TaskCtrl.setup,hid]
  · cases hf

lemma RaceOk.not_executed {s' : State} (h : RaceOk s q ls) (hx : s.cancelled x = true) :
    ¬ Step clk cpu s (some (.executed x)) s' := by
  intro hs
  cases hs with
  | act a hse _ =>
    generalize hp : s.pc a = p at hse
    generalize he : some (Event.executed x) = e at hse
    cases hse with
    | hsCall y t =>
      cases he
      have hin := h.inv hp (x := x) rfl
      exact absurd (hin.2.2.symm.trans hx) (by decide)
    | canStop y f => cases f <;> cases he
    | _ => cases he

theorem cancel_exclusive (cntClkPeriod : Word) (cpu : ℕ → CpuId) (c : TaskCtrl) (s : State)
    (hc : FreshCallouts c)
    (hrun : Relation.ReflTransGen
      (fun s s' => (∃ e, Step cntClkPeriod cpu s e s') ∧ Exclusive s') (boot c) s) :
    ∃ queue lists, QueuesOk s.ctrl queue ∧ ListsOk s.ctrl lists ∧ ∀ x, s.cancelled x = true →
        (∀ i, x ∉ lists i) ∧ (∀ q, s.ctrl.calloutTask x ∉ queue q) ∧
        ∀ s', ¬ Step cntClkPeriod cpu s (some (.executed x)) s' := by
  have hin : Exclusive s ∧ ∃ queue lists, RaceOk s queue lists := by
    induction hrun with
    | refl => exact ⟨fun a b x hf => hf.elim,_,_,boot_raceOk hc⟩
    | tail _ hst ih =>
      obtain ⟨hex,queue,lists,hok⟩ := ih
      obtain ⟨⟨e,hs⟩,hex'⟩ := hst
      exact ⟨hex',hok.step hex hs hex'⟩
  obtain ⟨-,queue,lists,hok⟩ := hin
  refine ⟨queue,lists,hok.ctrl.queues,hok.ctrl.lists,fun x hx => ?_⟩
  have hl := (hok.quiet x hx).1
  refine ⟨hl.unlinked,fun q hq => ?_,fun s' => hok.not_executed hx⟩
  exact hl.idle ((hok.ctrl.queues.members.waiting _).mpr ⟨q,hq⟩)

def State.ofList (c : TaskCtrl) (ps : List Pc) (n : CalloutPtr → Bool) : State :=
  ⟨c,fun a => ps.getD a .idle,n⟩

lemma getD_held {ps : List Pc} {k : Lock} (hk : ∀ q ∈ ps.set a .idle, ∀ i, k ∉ q.held i) (b : ℕ)
    (hb : b ≠ a) (cp : CpuId) : k ∉ (ps.getD b .idle).held cp := by
  have hs : ps.getD b .idle = (ps.set a .idle).getD b .idle := by
    simp [getD_eq_getElem?_getD,getElem?_set_ne hb.symm]
  rw [hs,getD_eq_getElem?_getD]
  cases hq : (ps.set a .idle)[b]? with
  | none => exact not_mem_nil
  | some q => exact hk q (mem_of_getElem? hq) cp

lemma step_ofList {ps : List Pc}
    {l : List Lock} (a : ℕ)
    (hs : Section clk (cpu a) c (ps.getD a .idle) l e c' p')
    (ha : a < ps.length := by decide)
    (hl : ∀ k ∈ l, ∀ q ∈ ps.set a .idle, ∀ i, k ∉ q.held i := by simp [Pc.held]) :
    Step clk cpu (.ofList c ps n) e (.ofList c' (ps.set a p') (note n e)) := by
  have hpc : (fun b => (ps.set a p').getD b .idle) = update (fun b => ps.getD b .idle) a p' := by
    funext b
    rcases eq_or_ne b a with rfl | hb
    · simp [getD_eq_getElem?_getD,ha]
    · simp [getD_eq_getElem?_getD,getElem?_set_ne hb.symm,hb]
  have hst : Step clk cpu (.ofList c ps n) e _ :=
    .act a hs (fun b hb k hk => getD_held (hl k hk) b hb _)
  have heq : State.ofList c' (ps.set a p') (note n e) =
      ⟨c',update (fun b => ps.getD b .idle) a p',note n e⟩ := by
    rw [State.ofList,hpc]
  rw [heq]
  exact hst

lemma boot_ofList (c : TaskCtrl) : boot c = .ofList c.setup [.idle,.idle] (fun _ => false) := by
  rw [boot,State.ofList]
  congr
  funext a
  match a with
  | 0 => rfl
  | 1 => rfl
  | _ + 2 => rfl

lemma exclusive_solo (c : TaskCtrl) (p : Pc) (n : CalloutPtr → Bool) :
    Exclusive (.ofList c [p,.idle] n) := by
  have hz : ∀ b x, On c ([p,.idle].getD b .idle) x → b = 0 := by
    intro b x hon
    match b with
    | 0 => rfl
    | 1 => exact hon.elim
    | _ + 2 => exact hon.elim
  intro a b x ha hb
  rw [hz a x ha,hz b x hb]

lemma step_solo
    {l : List Lock} (hs : Section clk (cpu 0) c p l e c' p') :
    (∃ e', Step clk cpu (.ofList c [p,.idle] n) e' (.ofList c' [p',.idle] (note n e))) ∧
      Exclusive (.ofList c' [p',.idle] (note n e)) :=
  ⟨⟨e,step_ofList 0 hs (by simp)⟩,exclusive_solo c' p' _⟩

theorem cancel_exclusive_solo : ∃ s : State, s.cancelled (.callout 0) = true ∧
      ∃ queue lists, QueuesOk s.ctrl queue ∧ ListsOk s.ctrl lists ∧
        (∀ i, .callout 0 ∉ lists i) ∧ ∀ q, s.ctrl.calloutTask (.callout 0) ∉ queue q := by
  obtain ⟨s,hr,hc⟩ : ∃ s, Relation.ReflTransGen
      (fun s s' => (∃ e, Step 1 (fun _ => 0) s e s') ∧ Exclusive s') (boot blankCtrl) s ∧
      s.cancelled (.callout 0) = true := by
    rw [boot_ofList]
    have hr := Relation.ReflTransGen.refl.tail
      (r := fun s s' => (∃ e, Step 1 (fun _ => 0) s e s') ∧ Exclusive s')
      (a := .ofList blankCtrl.setup [.idle,.idle] (fun _ => false))
      (step_solo (.regAssert 0 0 5000 (.inr rfl)))
    have hr := hr.tail (step_solo (.regSet _ _ _ 0))
    have hr := hr.tail (step_solo (.regCpu _))
    have hr := hr.tail (step_solo (.regInsert _ _ 1 rfl))
    have hr := hr.tail (step_solo (.canPending 0))
    have hr := hr.tail (step_solo (.canQueued _ rfl))
    have hr := hr.tail (step_solo (.canCpu _))
    have hr := hr.tail (step_solo (.canUnlink _ _ 1 rfl))
    have hr := hr.tail (step_solo (.canStop _ true))
    exact ⟨_,hr,rfl⟩
  obtain ⟨queue,lists,hq,hl,hx⟩ := cancel_exclusive 1 (fun _ => 0) blankCtrl s blankCtrl_fresh hr
  exact ⟨s,hc,queue,lists,hq,hl,(hx _ hc).1,(hx _ hc).2.1⟩

def crossCpu : ℕ → CpuId
  | 0 => 1
  | _ => 0

theorem cancel_races : ∃ s : State,
      Relation.ReflTransGen (fun s s' => ∃ e, Step 1 crossCpu s e s') (boot blankCtrl) s ∧
      s.cancelled (.callout 0) = true ∧
      s.ctrl.status (s.ctrl.calloutTask (.callout 0)) = .waitingInQueue ∧
      ∃ s₁, Relation.ReflTransGen (fun s s' => ∃ e, Step 1 crossCpu s e s') s s₁ ∧
        s₁.cancelled (.callout 0) = true ∧
        ∃ s₂, Step 1 crossCpu s₁ (some (.executed (.callout 0))) s₂ := by
  rw [boot_ofList]
  have hr := Relation.ReflTransGen.refl.tail (r := fun s s' => ∃ e, Step 1 crossCpu s e s')
    (a := .ofList blankCtrl.setup [.idle,.idle] (fun _ => false))
    ⟨_,step_ofList 0 (.regAssert 0 0 0 (.inr rfl))⟩
  have hr := hr.tail ⟨_,step_ofList 0 (.regSet _ _ _ 0)⟩
  have hr := hr.tail ⟨_,step_ofList 0 (.regCpu _)⟩
  have hr := hr.tail ⟨_,step_ofList 0 (.regInsert _ _ 1 rfl)⟩
  have hr := hr.tail ⟨_,step_ofList 0 (.canPending 0)⟩
  have hr := hr.tail ⟨_,step_ofList 0 (.canQueued _ rfl)⟩
  have hr := hr.tail ⟨_,step_ofList 0 (.canCpu _)⟩
  have hr := hr.tail ⟨_,step_ofList 1 (.movStart 0)⟩
  have hr := hr.tail ⟨_,step_ofList 1 (.movTake (.callout 0) _ rfl (by decide))⟩
  have hr := hr.tail ⟨_,step_ofList 1 (.movReg _ _ (by decide))⟩
  have hr := hr.tail ⟨_,step_ofList 1 (.movEnq _ _)⟩
  have hr := hr.tail ⟨_,step_ofList 1 (.movNull _ rfl)⟩
  have hr := hr.tail ⟨_,step_ofList 0 (.canUnlink _ _ 1 rfl)⟩
  have hr := hr.tail ⟨_,step_ofList 0 (.canStop _ true)⟩
  refine ⟨_,hr,rfl,rfl,_,.tail (.tail (.tail (.tail (.tail .refl
    ⟨_,step_ofList 1 .swap⟩)
    ⟨_,step_ofList 1 (.pop rfl)⟩)
    ⟨_,step_ofList 1 (.execHandle _ rfl)⟩)
    ⟨_,step_ofList 1 (.hsPassed _ _ 0 (by decide))⟩)
    ⟨_,step_ofList 1 (.hsBegin _ _)⟩,rfl,
    _,step_ofList 1 (.hsCall _ _)⟩

end Race
end Tasks
