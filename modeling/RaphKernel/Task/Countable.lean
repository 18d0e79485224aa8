import RaphKernel.Task.Client
import RaphKernel.Library.Counting

namespace Tasks.Countable
open Raph Function Counting

inductive Agent where
  | caller
  | handler (cpuid : CpuId)
  deriving DecidableEq, Repr

inductive Sec where
  | count
  | test
  | check
  | enqueue
  | unlock
  deriving DecidableEq, Repr

inductive RunPc where
  | idle
  | func
  | acquire
  | inside
  | finish
  deriving DecidableEq, Repr

structure State where
  ctrl : TaskCtrl
  task : ℕ
  cpuid : CpuId
  cnt : BitVec 32
  sect : Option (Agent × Sec)
  run : CpuId → RunPc
  incs : ℕ
  done : ℕ
  executed : ℕ
  panicked : Bool

def boot (ctrl : TaskCtrl) (cpuid : CpuId) (task : ℕ) : State where
  ctrl := ctrl
  task := task
  cpuid := cpuid
  cnt := 0
  sect := none
  run := fun _ => .idle
  incs := 0
  done := 0
  executed := 0
  panicked := false

def registers (cnt : BitVec 32) : Agent → Bool
  | .caller => cnt == 1
  | .handler _ => cnt != 0

namespace State

def status (s : State) : Status := s.ctrl.status (.task s.task)

def move (s : State) (a : Agent) (p : Sec) : State := { s with sect := some (a,p) }

def goto (s : State) (k : CpuId) (p : RunPc) : State :=
  { s with run := update s.run k p }

def count (s : State) : Agent → State
  | .caller => { s with cnt := s.cnt + 1, incs := s.incs + 1 }
  | .handler _ => { s with cnt := s.cnt - 1, done := s.done + 1 }

def enqueue (s : State) : State := { s with ctrl := s.ctrl.enqueue s.cpuid (.task s.task) }

def unlock (s : State) : Agent → State
  | .caller => { s with sect := none }
  | .handler k => { s.goto k .finish with sect := none }

def pop (s : State) (k : CpuId) (ctrl : TaskCtrl) : State := { s.goto k .func with ctrl := ctrl }

def exec (s : State) (k : CpuId) : State := { s.goto k .acquire with executed := s.executed + 1 }

def finish (s : State) (k : CpuId) : State :=
  { s.goto k .idle with ctrl := s.ctrl.finishTask (.task s.task) }

end State

inductive Step (s : State) : State → Prop where
  | inc : s.sect = none → Step s (s.move .caller .count)
  | handle (k : CpuId) : s.run k = .acquire → s.sect = none →
    Step s ((s.goto k .inside).move (.handler k) .count)
  | count (a : Agent) : s.sect = some (a,.count) → Step s ((s.count a).move a .test)
  | test (a : Agent) : s.sect = some (a,.test) →
    Step s (s.move a (if registers s.cnt a then .check else .unlock))
  | check (a : Agent) : s.sect = some (a,.check) → s.status ≠ .waitingInQueue →
    Step s (s.move a .enqueue)
  | panic (a : Agent) : s.sect = some (a,.check) → s.status = .waitingInQueue →
    Step s { s with panicked := true }
  | enqueue (a : Agent) : s.sect = some (a,.enqueue) → Step s (s.enqueue.move a .unlock)
  | unlock (a : Agent) : s.sect = some (a,.unlock) → Step s (s.unlock a)
  | pop (k : CpuId) {c : TaskCtrl} : s.run k = .idle →
    s.ctrl.popTask k = .ok (some (.task s.task),c) → Step s (s.pop k c)
  | exec (k : CpuId) : s.run k = .func → Step s (s.exec k)
  | finish (k : CpuId) : s.run k = .finish → Step s (s.finish k)
  | elsewhere {c : TaskCtrl} : Elsewhere (.task s.task) s.ctrl c → Step s { s with ctrl := c }

inductive Run (s₀ : State) : State → Prop where
  | refl : Run s₀ s₀
  | step {s s' : State} : Run s₀ s → Step s s' → s'.incs < s'.done + 2 ^ 31 → Run s₀ s'

def Quiescent (s : State) : Prop :=
  s.sect = none ∧ (∀ k, s.run k = .idle) ∧ s.status ≠ .waitingInQueue

def Busy (s : State) : Prop :=
  s.status = .waitingInQueue ∨ s.run s.cpuid = .func ∨ s.run s.cpuid = .acquire

def Table (cnt : BitVec 32) (busy : Prop) : Option (Agent × Sec) → Prop
  | none => busy ↔ cnt ≠ 0
  | some (.caller,.count) => busy ↔ cnt ≠ 0
  | some (.caller,.test) => cnt ≠ 0 ∧ (busy ↔ cnt ≠ 1)
  | some (.handler _,.count) => ¬ busy ∧ cnt ≠ 0
  | some (.handler _,.test) => ¬ busy
  | some (_,.check) => ¬ busy ∧ cnt ≠ 0
  | some (_,.enqueue) => ¬ busy ∧ cnt ≠ 0
  | some (_,.unlock) => busy ↔ cnt ≠ 0

def Uncounted (s : State) : Prop :=
  s.run s.cpuid = .acquire ∨ s.sect = some (.handler s.cpuid,.count)

structure Ok (s : State) : Prop where
  sound : Sound s.ctrl
  owner : s.status = .waitingInQueue → s.ctrl.taskCpuid (.task s.task) = s.cpuid
  alone : ∀ k, s.run k ≠ .idle → k = s.cpuid
  inside : ∀ k, s.run k = .inside ↔ ∃ p, s.sect = some (.handler k,p)
  running : s.run s.cpuid = .func ∨ s.run s.cpuid = .acquire → s.status = .running
  total : s.incs = s.done + s.cnt.toNat
  uncounted : Uncounted s → s.executed = s.done + 1
  settled : ¬ Uncounted s → s.executed = s.done
  table : Table s.cnt (Busy s) s.sect
  calm : s.panicked = false

variable {s s' s₀ : State} {k : CpuId}

lemma boot_ok {c : TaskCtrl} (hc : Sound c) {id : ℕ} (cpuid : CpuId)
    (ho : c.status (.task id) = .outOfQueue) : Ok (boot c cpuid id) where
  sound := hc
  owner := fun h => absurd (ho.symm.trans h) (by decide)
  alone := fun k h => absurd rfl h
  inside := fun k => ⟨nofun,fun ⟨_,h⟩ => (nomatch h)⟩
  running := fun h => by rcases h with h | h <;> cases h
  total := rfl
  uncounted := fun h => by rcases h with h | h <;> cases h
  settled := fun _ => rfl
  table := by
    refine ⟨fun h => ?_,absurd rfl⟩
    rcases h with h | h | h
    · exact absurd (ho.symm.trans h) (by decide)
    · cases h
    · cases h
  calm := rfl

section
variable (h : Ok s)
include h

lemma Ok.free_outside (hs : s.sect = none) (k : CpuId) : s.run k ≠ .inside := fun hr => by
    obtain ⟨q,hq⟩ := (h.inside k).mp hr
    rw [hs] at hq
    cases hq

lemma Ok.handler_cpuid {p : Sec} (hs : s.sect = some (.handler k,p)) :
    k = s.cpuid ∧ s.run s.cpuid = .inside := by
  have hr := (h.inside k).mpr ⟨p,hs⟩
  have hk := h.alone k (by rw [hr]; decide)
  exact ⟨hk,hk ▸ hr⟩

lemma Ok.at {x : Option (Agent × Sec)} (hs : s.sect = x) : Table s.cnt (Busy s) x := hs ▸ h.table

lemma table_move {a : Agent} {p q : Sec} (hs : s.sect = some (a,p)) (hco : p ≠ .count)
    (hco' : q ≠ .count) (ht : Table s.cnt (Busy s) (some (a,q))) : Ok (s.move a q) :=
  { h with
    inside := fun k => by
      rw [show (s.move a q).run k = s.run k from rfl,h.inside k,hs]
      constructor <;>
      · rintro ⟨r,hr⟩
        cases hr
        exact ⟨_,rfl⟩
    uncounted := fun hc => h.uncounted (hc.imp_right fun hx =>
      absurd (Prod.mk.inj (Option.some.inj hx)).2 hco')
    settled := fun hc => h.settled fun hx => hc (hx.imp_right fun hy => by
      rw [hs] at hy
      cases hy
      exact absurd rfl hco)
    table := ht }

lemma Ok.caller {x : Option (Agent × Sec)} {c : BitVec 32} {n : ℕ}
    (hs : ∀ k p, s.sect ≠ some (.handler k,p)) (hx : ∀ k p, x ≠ some (.handler k,p))
    (hn : n = s.done + c.toNat) (ht : Table c (Busy s) x) :
    Ok { s with sect := x, cnt := c, incs := n } :=
  { h with
    inside := fun k =>
      iff_of_false (fun hr => ((h.inside k).mp hr).elim (hs k)) fun ⟨p,hp⟩ => hx k p hp
    total := hn
    uncounted := fun hc => h.uncounted (hc.imp_right fun he => absurd he (hx _ _))
    settled := fun hc => h.settled fun he => hc (he.imp_right fun he => absurd he (hs _ _))
    table := ht }

lemma handle_ok (hr : s.run k = .acquire) (hs : s.sect = none) :
    Ok ((s.goto k .inside).move (.handler k) .count) := by
  obtain rfl : k = s.cpuid := h.alone k (by rw [hr]; decide)
  have hru := h.running (.inr hr)
  have hse : ((s.goto s.cpuid .inside).move (.handler s.cpuid) .count).run s.cpuid = .inside :=
    update_self ..
  have ht := h.at hs
  refine ⟨h.sound,h.owner,fun k hk => ?_,fun k => ?_,fun hx => ?_,h.total,
    fun _ => h.uncounted (.inl hr),fun hc => absurd (.inr rfl) hc,⟨?_,ht.mp (.inr (.inr hr))⟩,h.calm⟩
  · by_contra hne
    exact hk ((update_of_ne hne ..).trans (by_contra fun hi => hne (h.alone k hi)))
  · constructor
    · intro hi
      by_cases hk : k = s.cpuid
      · exact ⟨.count,by rw [hk]; rfl⟩
      · exact absurd ((update_of_ne hk ..).symm.trans hi) (h.free_outside hs k)
    · rintro ⟨p,hp⟩
      cases hp
      exact hse
  · rcases hx with hx | hx <;> cases hse.symm.trans hx
  · rintro (hw | hw | hw)
    · exact absurd (hru.symm.trans hw) (by decide)
    · cases hse.symm.trans hw
    · cases hse.symm.trans hw

lemma Ok.cnt_inc (hlt : s.incs + 1 < s.done + 2 ^ 31) : (s.cnt + 1).toNat = s.cnt.toNat + 1 := by
  have ht := h.total
  exact toNat_inc

lemma Ok.inc_eq_one (hlt : s.incs + 1 < s.done + 2 ^ 31) : s.cnt + 1 = 1 ↔ s.cnt = 0 := by
  have hin := h.cnt_inc hlt
  constructor
  · intro ho
    rw [ho] at hin
    exact BitVec.eq_of_toNat_eq (by simpa using hin)
  · rintro hz
    rw [hz]
    rfl

lemma count_caller_ok (hs : s.sect = some (.caller,.count)) (hlt : s.incs + 1 < s.done + 2 ^ 31) :
    Ok ((s.count .caller).move .caller .test) := by
  have ht := h.total
  have hc := h.cnt_inc hlt
  exact h.caller (c := s.cnt + 1) (n := s.incs + 1) (by simp [hs]) (by simp) (by omega)
    ⟨ne_zero_of_pos (by omega),(h.at hs).trans (not_congr (h.inc_eq_one hlt)).symm⟩

lemma count_handler_ok (hs : s.sect = some (.handler k,.count)) :
    Ok ((s.count (.handler k)).move (.handler k) .test) := by
  obtain ⟨rfl,hr⟩ := h.handler_cpuid hs
  have ht := h.at hs
  have he := h.uncounted (.inr hs)
  refine ⟨h.sound,h.owner,h.alone,fun k => ?_,h.running,?_,fun hc => ?_,fun _ => he,ht.1,h.calm⟩
  · rw [show ((s.count (.handler s.cpuid)).move (.handler s.cpuid) .test).run k = s.run k from rfl,
      h.inside k,hs]
    constructor <;>
    · rintro ⟨p,hp⟩
      cases hp
      exact ⟨_,rfl⟩
  · have hn := h.total
    have hpo := toNat_pos ht.2
    change s.incs = s.done + 1 + (s.cnt - 1).toNat
    rw [toNat_dec ht.2]
    omega
  · rcases hc with hc | hc
    · cases hr.symm.trans hc
    · cases hc

lemma test_ok {a : Agent} (hs : s.sect = some (a,.test)) :
    Ok (s.move a (if registers s.cnt a then .check else .unlock)) := by
  have ht := h.at hs
  refine table_move h hs (by decide) (by split <;> decide) ?_
  cases a with
  | caller =>
    by_cases ho : s.cnt = 1
    · rw [if_pos (show registers s.cnt .caller from beq_iff_eq.mpr ho)]
      exact ⟨fun hb => ht.2.mp hb ho,ht.1⟩
    · rw [if_neg (show ¬ registers s.cnt .caller from fun hb => ho (beq_iff_eq.mp hb))]
      exact ⟨fun _ => ht.1,fun _ => ht.2.mpr ho⟩
  | handler k =>
    by_cases hz : s.cnt = 0
    · rw [if_neg (show ¬ registers s.cnt (.handler k) from fun hb => bne_iff_ne.mp hb hz)]
      exact ⟨fun hb => absurd hb ht,absurd hz⟩
    · rw [if_pos (show registers s.cnt (.handler k) from bne_iff_ne.mpr hz)]
      exact ⟨ht,hz⟩

lemma Ok.check_clear {a : Agent} (hs : s.sect = some (a,.check)) :
    s.status ≠ .waitingInQueue := fun hw => by
  have ht := h.at hs
  cases a <;> exact ht.1 (.inl hw)

lemma check_ok {a : Agent} (hs : s.sect = some (a,.check)) : Ok (s.move a .enqueue) := by
  have ht := h.at hs
  refine table_move h hs (by decide) (by decide) ?_
  cases a <;> exact ht

lemma registered_ok {a : Agent} (hs : s.sect = some (a,.enqueue)) :
    Ok (s.enqueue.move a .unlock) := by
  have ht := h.at hs
  have hid : ¬ Busy s ∧ s.cnt ≠ 0 := by cases a <;> exact ht
  have hw : s.status ≠ .waitingInQueue := fun hw => hid.1 (.inl hw)
  have hwa : s.enqueue.status = .waitingInQueue := enqueue_waiting ..
  have hcp : s.enqueue.ctrl.taskCpuid (.task s.task) = s.cpuid := by
    change (s.ctrl.enqueue s.cpuid (.task s.task)).taskCpuid _ = _
    rw [enqueue_cpuid hw,update_self]
  refine ⟨enqueue_sound h.sound s.cpuid s.task,fun _ => hcp,h.alone,fun k => ?_,
    fun hr => absurd (.inr hr) hid.1,h.total,fun hc => ?_,fun hc => ?_,?_,h.calm⟩
  · rw [show (s.enqueue.move a .unlock).run k = s.run k from rfl,h.inside k,hs]
    constructor <;>
    · rintro ⟨p,hp⟩
      cases hp
      exact ⟨_,rfl⟩
  · refine h.uncounted (hc.imp_right fun hx => ?_)
    cases (Prod.mk.inj (Option.some.inj hx)).2
  · refine h.settled fun hx => hc (hx.imp_right fun hy => ?_)
    rw [hs] at hy
    cases (Prod.mk.inj (Option.some.inj hy)).2
  · cases a <;> exact ⟨fun _ => hid.2,fun _ => .inl hwa⟩

lemma goto_alone (p : RunPc) : ∀ k, (s.goto s.cpuid p).run k ≠ .idle → k = s.cpuid :=
  fun k hk => by
    by_contra hne
    exact hk ((update_of_ne hne ..).trans (by_contra fun hi => hne (h.alone k hi)))

lemma goto_inside {p : RunPc} (hr : s.run s.cpuid ≠ .inside) (hp : p ≠ .inside) :
    ∀ k, (s.goto s.cpuid p).run k = .inside ↔ ∃ q, s.sect = some (.handler k,q) := fun k => by
  have hs : (s.goto s.cpuid p).run s.cpuid = p := update_self ..
  rw [← h.inside k]
  by_cases hk : k = s.cpuid
  · rw [hk,hs]
    exact ⟨fun hx => absurd hx hp,fun hx => absurd hx hr⟩
  · rw [show (s.goto s.cpuid p).run k = s.run k from update_of_ne hk ..]

lemma unlock_handler_ok (hs : s.sect = some (.handler k,.unlock)) :
    Ok (s.unlock (.handler k)) := by
  obtain ⟨rfl,hr⟩ := h.handler_cpuid hs
  have hse : (s.unlock (.handler s.cpuid)).run s.cpuid = .finish := update_self ..
  have ht := h.at hs
  refine ⟨h.sound,h.owner,goto_alone h _,fun k => ⟨fun hi => ?_,fun ⟨_,hp⟩ => (nomatch hp)⟩,
    fun hx => ?_,h.total,fun hc => ?_,fun _ => h.settled fun hx => ?_,?_,h.calm⟩
  · by_cases hk : k = s.cpuid
    · rw [hk] at hi
      cases hse.symm.trans hi
    · have hru := (update_of_ne hk ..).symm.trans hi
      exact absurd (h.alone k (by rw [hru]; decide)) hk
  · rcases hx with hx | hx <;> cases hse.symm.trans hx
  · rcases hc with hc | hc
    · cases hse.symm.trans hc
    · cases hc
  · rcases hx with hx | hx
    · cases hr.symm.trans hx
    · rw [hs] at hx
      cases hx
  · have hb : Busy (s.unlock (.handler s.cpuid)) ↔ Busy s := by
      constructor
      · rintro (hw | hw | hw)
        · exact .inl hw
        · cases hse.symm.trans hw
        · cases hse.symm.trans hw
      · rintro (hw | hw | hw)
        · exact .inl hw
        · cases hr.symm.trans hw
        · cases hr.symm.trans hw
    exact hb.trans ht

end

lemma Table.congr {cnt : BitVec 32} {b b' : Prop} {sect : Option (Agent × Sec)}
    (ht : Table cnt b sect) (hb : b' ↔ b) : Table cnt b' sect := by
  rw [propext hb]
  exact ht

lemma pop_ok {c : TaskCtrl} (h : Ok s) (hi : s.run k = .idle)
    (hp : s.ctrl.popTask k = .ok (some (.task s.task),c)) : Ok (s.pop k c) := by
  have hpo := popTask_popped h.sound hp
  obtain rfl : s.cpuid = k := (h.owner hpo.waiting).symm.trans hpo.owner
  have hs : (s.goto s.cpuid .func).run s.cpuid = .func := update_self ..
  have hr : c.status (.task s.task) = .running := by rw [hpo.status,update_self]
  refine ⟨hpo.sound,fun hw => absurd (hr.symm.trans hw) (by decide),goto_alone h _,
    goto_inside h (by rw [hi]; decide) (by decide),fun _ => hr,h.total,fun hc => ?_,fun hc => ?_,?_,
    h.calm⟩
  · rcases hc with hc | hc
    · cases hs.symm.trans hc
    · exact h.uncounted (.inr hc)
  · refine h.settled fun hx => hc ?_
    rcases hx with hx | hx
    · cases hi.symm.trans hx
    · exact .inr hx
  · exact h.table.congr ⟨fun _ => .inl hpo.waiting,fun _ => .inr (.inl hs)⟩

lemma exec_ok (h : Ok s) (hf : s.run k = .func) : Ok (s.exec k) := by
  obtain rfl : k = s.cpuid := h.alone k (by rw [hf]; decide)
  have hs : (s.exec s.cpuid).run s.cpuid = .acquire := update_self ..
  have hn : ¬ Uncounted s := by
    rintro (hx | hx)
    · cases hf.symm.trans hx
    · cases hf.symm.trans (h.handler_cpuid hx).2
  refine ⟨h.sound,h.owner,goto_alone h _,goto_inside h (by rw [hf]; decide) (by decide),
    fun _ => h.running (.inl hf),h.total,fun _ => congrArg _ (h.settled hn),
    fun hc => absurd (.inl hs) hc,?_,h.calm⟩
  exact h.table.congr ⟨fun _ => .inr (.inl hf),fun _ => .inr (.inr hs)⟩

lemma finish_waiting (s : State) (k : CpuId) :
    (s.finish k).status = .waitingInQueue ↔ s.status = .waitingInQueue :=
  finishTask_waiting s.ctrl (.task s.task)

lemma finish_ok (h : Ok s) (hf : s.run k = .finish) : Ok (s.finish k) := by
  obtain rfl : k = s.cpuid := h.alone k (by rw [hf]; decide)
  have hs : (s.finish s.cpuid).run s.cpuid = .idle := update_self ..
  refine ⟨finishTask_sound h.sound _,fun hw => ?_,goto_alone h _,
    goto_inside h (by rw [hf]; decide) (by decide),fun hx => ?_,h.total,fun hc => ?_,
    fun hc => h.settled fun hx => ?_,?_,h.calm⟩
  · exact (congrFun (finishTask_cpuid ..) _).trans (h.owner ((finish_waiting s _).mp hw))
  · rcases hx with hx | hx <;> cases hs.symm.trans hx
  · rcases hc with hc | hc
    · cases hs.symm.trans hc
    · exact h.uncounted (.inr hc)
  · rcases hx with hx | hx
    · cases hf.symm.trans hx
    · exact hc (.inr hx)
  · refine h.table.congr (or_congr (finish_waiting s _) ?_)
    rw [show (s.finish s.cpuid).run (s.finish s.cpuid).cpuid = .idle from hs,hf]
    decide

lemma elsewhere_ok {c : TaskCtrl} (h : Ok s) (hc : Elsewhere (.task s.task) s.ctrl c) :
    Ok { s with ctrl := c } := by
  obtain ⟨hs,hsa,hcp⟩ := hc.untouched h.sound
  have hst : ({ s with ctrl := c } : State).status = s.status := hsa
  refine ⟨hs,fun hw => hcp.trans (h.owner (hst.symm.trans hw)),h.alone,h.inside,
    fun hr => hst.trans (h.running hr),h.total,h.uncounted,h.settled,?_,h.calm⟩
  refine h.table.congr (or_congr ?_ Iff.rfl)
  rw [hst]

lemma step_ok (h : Ok s) (hst : Step s s') (hlt : s'.incs < s'.done + 2 ^ 31) : Ok s' := by
  cases hst with
  | inc hs =>
    have ht := h.at hs
    exact h.caller (by simp [hs]) (by simp) h.total ht
  | handle k hr hs => exact handle_ok h hr hs
  | count a hs =>
    cases a with
    | caller => exact count_caller_ok h hs hlt
    | handler k => exact count_handler_ok h hs
  | test a hs => exact test_ok h hs
  | check a hs _ => exact check_ok h hs
  | panic a hs hw => exact absurd hw (h.check_clear hs)
  | enqueue a hs => exact registered_ok h hs
  | unlock a hs =>
    cases a with
    | caller =>
      have ht := h.at hs
      exact h.caller (by simp [hs]) (by simp) h.total ht
    | handler k => exact unlock_handler_ok h hs
  | pop k hi hp => exact pop_ok h hi hp
  | exec k hf => exact exec_ok h hf
  | finish k hf => exact finish_ok h hf
  | elsewhere hc => exact elsewhere_ok h hc

lemma run_ok (h : Ok s₀) (hr : Run s₀ s) : Ok s := by
  induction hr with
  | refl => exact h
  | step _ hs hlt ih => exact step_ok ih hs hlt

lemma Ok.quiescent (h : Ok s) (hq : Quiescent s) : s.executed = s.incs := by
  obtain ⟨hs,hid,hw⟩ := hq
  have hn : ¬ Uncounted s := by
    rintro (hx | hx)
    · cases (hid _).symm.trans hx
    · rw [hs] at hx
      cases hx
  have ht := h.at hs
  have hz : s.cnt = 0 := by
    by_contra hne
    rcases ht.mpr hne with hb | hb | hb
    · exact hw hb
    · cases (hid _).symm.trans hb
    · cases (hid _).symm.trans hb
  have hto := h.total
  rw [hz] at hto
  exact (h.settled hn).trans hto.symm

lemma Ok.cnt_int (h : Ok s) (hlt : s.incs < s.done + 2 ^ 31) :
    s.cnt.toInt = (s.incs : ℤ) - s.done := by
  have ht := h.total
  rw [BitVec.toInt_eq_toNat_of_lt (by omega)]
  omega

lemma run_bound (hlt : s₀.incs < s₀.done + 2 ^ 31) (hr : Run s₀ s) :
    s.incs < s.done + 2 ^ 31 := by
  cases hr with
  | refl => exact hlt
  | step _ _ h => exact h

theorem countable_run {c : TaskCtrl} {cpuid : CpuId} {id : ℕ} (hc : Sound c)
    (hout : c.status (.task id) = .outOfQueue) (hrun : Run (boot c cpuid id) s) :
    s.cnt.toInt = (s.incs : ℤ) - s.done ∧
    (0 < s.cnt.toInt → s.sect = none → InQueue s.ctrl (.task s.task) ∨ s.status = .running) ∧
    (∀ a, s.sect = some (a,.check) → s.status ≠ .waitingInQueue) ∧
    s.panicked = false ∧
    (Quiescent s → s.executed = s.incs) := by
  have h := run_ok (boot_ok hc cpuid hout) hrun
  have hlt := run_bound (by change 0 < 0 + 2 ^ 31; decide) hrun
  refine ⟨h.cnt_int hlt,fun hp hs => ?_,fun a hs => h.check_clear hs,h.calm,h.quiescent⟩
  have ht := h.at hs
  have hne : s.cnt ≠ 0 := by
    intro hz
    rw [hz] at hp
    exact absurd hp (by decide)
  rcases ht.mpr hne with hw | hr
  · exact .inl (h.sound.inQueue hw)
  · exact .inr (h.running hr)

theorem countable_run_single : ∃ s, Run (boot blankCtrl.setup 0 0) s ∧ s.incs = 1 ∧ Quiescent s ∧
    s.cnt.toInt = 0 ∧ s.executed = 1 := by
  have hr : Run (boot blankCtrl.setup 0 0) (boot blankCtrl.setup 0 0) := .refl
  have hr := hr.step (.inc rfl) (by decide)
  have hr := hr.step (.count .caller rfl) (by decide)
  have hr := hr.step (.test .caller rfl) (by decide)
  have hr := hr.step (.check .caller rfl (by decide)) (by decide)
  have hr := hr.step (.enqueue .caller rfl) (by decide)
  have hr := hr.step (.unlock .caller rfl) (by decide)
  have hr := hr.step (.elsewhere (.swap 0)) (by decide)
  have hr := hr.step (.pop 0 rfl rfl) (by decide)
  have hr := hr.step (.exec 0 rfl) (by decide)
  have hr := hr.step (.handle 0 rfl rfl) (by decide)
  have hr := hr.step (.count (.handler 0) rfl) (by decide)
  have hr := hr.step (.test (.handler 0) rfl) (by decide)
  have hr := hr.step (.unlock (.handler 0) rfl) (by decide)
  have hr := hr.step (.finish 0 rfl) (by decide)
  obtain ⟨hc,-,-,-,he⟩ := countable_run (sound_setup blankCtrl) rfl hr
  have hid : ∀ k, update (update (update (update
      (update (fun _ => RunPc.idle) 0 .func) 0 .acquire) 0 .inside) 0 .finish) 0 .idle k =
      .idle := by
    intro k
    by_cases hk : k = 0
    · rw [hk,update_self]
    · simp only [update_of_ne hk]
  exact ⟨_,hr,rfl,⟨rfl,hid,by decide⟩,hc,he ⟨rfl,hid,by decide⟩⟩

lemma inc_first (hs : s.sect = none) (hz : s.cnt = 0) (hw : s.status ≠ .waitingInQueue) :
    ∃ s', Relation.ReflTransGen Step s s' ∧ s'.sect = none ∧ s'.cnt = 1 ∧ s'.incs = s.incs + 1 ∧
      s'.done = s.done := by
  have ho : s.cnt + 1 = 1 := by
    rw [hz]
    rfl
  have hr := Relation.ReflTransGen.single (Step.inc hs)
  have hr := hr.tail (.count .caller rfl)
  have hr := hr.tail (.test .caller rfl)
  rw [show registers ((s.move .caller .count).count .caller |>.move .caller .test).cnt .caller = true
    from beq_iff_eq.mpr ho] at hr
  have hr := hr.tail (.check .caller rfl hw)
  have hr := hr.tail (.enqueue .caller rfl)
  exact ⟨_,hr.tail (.unlock .caller rfl),rfl,ho,rfl,rfl⟩

lemma inc_again (hs : s.sect = none) (hne : s.cnt + 1 ≠ 1) :
    ∃ s', Relation.ReflTransGen Step s s' ∧ s'.sect = none ∧ s'.cnt = s.cnt + 1 ∧
      s'.incs = s.incs + 1 ∧ s'.done = s.done := by
  have hr := Relation.ReflTransGen.single (Step.inc hs)
  have hr := hr.tail (.count .caller rfl)
  have hr := hr.tail (.test .caller rfl)
  rw [show registers ((s.move .caller .count).count .caller |>.move .caller .test).cnt .caller = false
    from beq_eq_false_iff_ne.mpr hne] at hr
  exact ⟨_,hr.tail (.unlock .caller rfl),rfl,rfl,rfl,rfl⟩

lemma many_incs (n : ℕ) (hn : n < 2 ^ 31) :
    ∃ s, Relation.ReflTransGen Step (boot blankCtrl.setup 0 0) s ∧ s.sect = none ∧
      s.cnt = BitVec.ofNat 32 (n + 1) ∧ s.incs = n + 1 ∧ s.done = 0 := by
  induction n with
  | zero => exact inc_first rfl rfl (by decide)
  | succ n ih =>
    obtain ⟨s,hr,hs,hc,hin,hd⟩ := ih (by omega)
    have hnx : s.cnt + 1 = BitVec.ofNat 32 (n + 1 + 1) := by
      rw [hc,BitVec.ofNat_add (n + 1) 1]
      rfl
    have hne : s.cnt + 1 ≠ 1 := by
      rw [hnx]
      intro hx
      have hx := congrArg BitVec.toNat hx
      rw [BitVec.toNat_ofNat,toNat_one (by decide)] at hx
      omega
    obtain ⟨s',hr',hs',hc',hin',hd'⟩ := inc_again hs hne
    exact ⟨s',hr.trans hr',hs',hc'.trans hnx,by rw [hin',hin],hd'.trans hd⟩

theorem cnt_overflow : ∃ s, Relation.ReflTransGen Step (boot blankCtrl.setup 0 0) s ∧
    s.sect = none ∧ (s.incs : ℤ) - s.done = 2 ^ 31 ∧ s.cnt.toInt = - 2 ^ 31 := by
  obtain ⟨s,hr,hs,hc,hin,hd⟩ := many_incs (2 ^ 31 - 1) (by decide)
  refine ⟨s,hr,hs,?_,?_⟩
  · rw [hin,hd]
    rfl
  · rw [hc]
    decide

end Tasks.Countable
