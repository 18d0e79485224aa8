import RaphKernel.Task.Client
import RaphKernel.Dev.RingBuffer
import RaphKernel.Container.Queue
import RaphKernel.Library.Holding

namespace Tasks.Functional
open Raph Function
open Holding (Held)
open Dev (RingBuffer)
open Container (Queue Node)

structure Buffer (B : Type) where
  isEmpty : B → Bool
  Push : B → B → Prop
  Pop : B → B → Prop
  Ok : B → Prop
  push_ok : ∀ {b b'}, Ok b → Push b b' → Ok b'
  pop_ok : ∀ {b b'}, Ok b → Pop b b' → Ok b'
  pop_nonempty : ∀ {b b'}, Pop b b' → isEmpty b = false

inductive FunctionState where
  | functioning
  | notFunctioning
  deriving DecidableEq, Repr

inductive PushPc where
  | idle
  | valid
  | wake
  | check
  | enqueue
  deriving DecidableEq, Repr

inductive RunPc where
  | idle
  | loop (i : ℕ)
  | exec (i : ℕ)
  | assert
  | acquire
  | decide
  | store (flag : Bool)
  | check
  | enqueue
  | finish
  deriving DecidableEq, Repr

def PushPc.late : PushPc → Bool
  | .valid | .wake => true
  | _ => false

def PushPc.claims : PushPc → Bool
  | .check | .enqueue => true
  | _ => false

def RunPc.active : RunPc → Bool
  | .idle | .finish => false
  | _ => true

def RunPc.locked : RunPc → Bool
  | .decide | .store _ => true
  | _ => false

structure State (B : Type) where
  ctrl : TaskCtrl
  task : ℕ
  cpuid : Option CpuId
  fstate : FunctionState
  buf : B
  push : ℕ → PushPc
  run : CpuId → RunPc
  panicked : Bool
  asserted : Bool

variable {B : Type}

def boot (ctrl : TaskCtrl) (task : ℕ) (buf : B) : State B where
  ctrl := ctrl
  task := task
  cpuid := none
  fstate := .notFunctioning
  buf := buf
  push := fun _ => .idle
  run := fun _ => .idle
  panicked := false
  asserted := false

namespace State

def status (s : State B) : Status := s.ctrl.status (.task s.task)

def setPush (s : State B) (j : ℕ) (p : PushPc) : State B :=
  { s with push := update s.push j p }

def setRun (s : State B) (k : CpuId) (p : RunPc) : State B :=
  { s with run := update s.run k p }

def enqueue (s : State B) (cpuid : CpuId) : State B :=
  { s with ctrl := s.ctrl.enqueue cpuid (.task s.task) }

def Unlocked (s : State B) : Prop := ∀ k, (s.run k).locked = false

def wakeup (s : State B) (j : ℕ) : State B :=
  match s.fstate with
  | .notFunctioning => { s.setPush j .check with fstate := .functioning }
  | .functioning => s.setPush j .idle

def store (s : State B) (k : CpuId) : Bool → State B
  | true => { s.setRun k .check with fstate := .functioning }
  | false => { s.setRun k .finish with fstate := .notFunctioning }

end State

inductive Step (O : Buffer B) (s : State B) : State B → Prop where
  | setFunction (cpuid : CpuId) : s.cpuid = none → O.isEmpty s.buf = true →
    Step O s { s with cpuid := some cpuid }
  | push (j : ℕ) {b : B} : s.push j = .idle → O.Push s.buf b →
    Step O s { s.setPush j .valid with buf := b }
  | valid (j : ℕ) : s.push j = .valid →
    Step O s (s.setPush j (if s.cpuid.isSome then .wake else .idle))
  | wake (j : ℕ) : s.push j = .wake → s.Unlocked → Step O s (s.wakeup j)
  | pushCheck (j : ℕ) : s.push j = .check → s.status ≠ .waitingInQueue →
    Step O s (s.setPush j .enqueue)
  | pushPanic (j : ℕ) : s.push j = .check → s.status = .waitingInQueue →
    Step O s { s with panicked := true }
  | pushEnqueue (j : ℕ) {cpuid : CpuId} : s.push j = .enqueue → s.cpuid = some cpuid →
    Step O s ((s.enqueue cpuid).setPush j .idle)
  | take {b : B} : O.Pop s.buf b → Step O s { s with buf := b }
  | pop (k : CpuId) {c : TaskCtrl} : s.run k = .idle →
    s.ctrl.popTask k = .ok (some (.task s.task),c) →
    Step O s { s.setRun k (.loop 0) with ctrl := c }
  | loop (k : CpuId) {i : ℕ} : s.run k = .loop i →
    Step O s (s.setRun k (if i < 10 ∧ O.isEmpty s.buf = false then .exec i else .assert))
  | exec (k : CpuId) {i : ℕ} : s.run k = .exec i → Step O s (s.setRun k (.loop (i + 1)))
  | assert (k : CpuId) : s.run k = .assert → s.fstate = .functioning →
    Step O s (s.setRun k .acquire)
  | assertFail (k : CpuId) : s.run k = .assert → s.fstate ≠ .functioning →
    Step O s { s with asserted := true }
  | acquire (k : CpuId) : s.run k = .acquire → s.Unlocked → Step O s (s.setRun k .decide)
  | decide (k : CpuId) : s.run k = .decide → Step O s (s.setRun k (.store (!O.isEmpty s.buf)))
  | store (k : CpuId) {flag : Bool} : s.run k = .store flag → Step O s (s.store k flag)
  | runCheck (k : CpuId) : s.run k = .check → s.status ≠ .waitingInQueue →
    Step O s (s.setRun k .enqueue)
  | runPanic (k : CpuId) : s.run k = .check → s.status = .waitingInQueue →
    Step O s { s with panicked := true }
  | runEnqueue (k : CpuId) {cpuid : CpuId} : s.run k = .enqueue → s.cpuid = some cpuid →
    Step O s ((s.enqueue cpuid).setRun k .finish)
  | finish (k : CpuId) : s.run k = .finish →
    Step O s { s.setRun k .idle with ctrl := s.ctrl.finishTask (.task s.task) }
  | elsewhere {c : TaskCtrl} : Elsewhere (.task s.task) s.ctrl c → Step O s { s with ctrl := c }

inductive Holder where
  | pusher (j : ℕ)
  | queue
  | cpu (k : CpuId)
  deriving DecidableEq

def Holds (s : State B) : Holder → Prop
  | .pusher j => (s.push j).claims = true
  | .queue => s.status = .waitingInQueue
  | .cpu k => (s.run k).active = true

def Token (s : State B) (o : Option Holder) : Prop := ∀ z, Holds s z ↔ o = some z

section
variable {s s' : State B} {o : Option Holder} {j : ℕ} {k : CpuId}

lemma Token.congr (h : Token s o) (hp : ∀ j, (s'.push j).claims = (s.push j).claims)
    (hs : s'.status = .waitingInQueue ↔ s.status = .waitingInQueue)
    (hr : ∀ k, (s'.run k).active = (s.run k).active) : Token s' o := fun z => by
  rw [← h z]
  cases z with
  | pusher j => simp only [Holds,hp]
  | queue => exact hs
  | cpu k => simp only [Holds,hr]

lemma claims_update {ps : ℕ → PushPc} {p : PushPc} (hp : p.claims = (ps j).claims) (i : ℕ) :
    (update ps j p i).claims = (ps i).claims := by
  by_cases hi : i = j
  · rw [hi,update_self,hp]
  · rw [update_of_ne hi]

lemma active_update {r : CpuId → RunPc} {p : RunPc} (hp : p.active = (r k).active)
    (i : CpuId) : (update r k p i).active = (r i).active := by
  by_cases hi : i = k
  · rw [hi,update_self,hp]
  · rw [update_of_ne hi]

lemma holds_frame {z : Holder} (hp : ∀ i, z = .pusher i → s'.push i = s.push i)
    (hs : z = .queue → s'.status = s.status) (hr : ∀ i, z = .cpu i → s'.run i = s.run i) :
    Holds s' z ↔ Holds s z := by
  cases z with
  | pusher i => rw [Holds,Holds,hp i rfl]
  | queue => rw [Holds,Holds,hs rfl]
  | cpu i => rw [Holds,Holds,hr i rfl]

lemma holds_pusher {p : PushPc} (hpush : s'.push = update s.push j p) :
    Holds s' (.pusher j) ↔ p.claims = true := by
  rw [Holds,hpush,update_self]

lemma holds_cpu {p : RunPc} (hr : s'.run = update s.run k p) :
    Holds s' (.cpu k) ↔ p.active = true := by
  rw [Holds,hr,update_self]

lemma holds_other_pusher {p : PushPc} (hpush : s'.push = update s.push j p)
    (hr : s'.run = s.run) {z : Holder} (hz : z ≠ .pusher j) (hs : z = .queue → s'.status = s.status) :
    Holds s' z ↔ Holds s z := by
  refine holds_frame (fun i hi => ?_) hs fun i _ => congrFun hr i
  rw [hpush]
  exact update_of_ne (fun he => hz (hi.trans (congrArg Holder.pusher he))) ..

lemma holds_other_cpu {p : RunPc} (hpush : s'.push = s.push)
    (hr : s'.run = update s.run k p) {z : Holder} (hz : z ≠ .cpu k)
    (hs : z = .queue → s'.status = s.status) : Holds s' z ↔ Holds s z := by
  refine holds_frame (fun i _ => congrFun hpush i) hs fun i hi => ?_
  rw [hr]
  exact update_of_ne (fun he => hz (hi.trans (congrArg Holder.cpu he))) ..

lemma Token.pusher (h : Token s none) {p : PushPc} (hp : p.claims = true)
    (hpush : s'.push = update s.push j p) (hs : s'.status = s.status)
    (hr : s'.run = s.run) : Token s' (some (.pusher j)) :=
  Held.take h ((holds_pusher hpush).mpr hp) fun _ hz => holds_other_pusher hpush hr hz fun _ => hs

lemma Token.push_queue (h : Token s (some (.pusher j)))
    (hpush : s'.push = update s.push j .idle) (hs : s'.status = .waitingInQueue)
    (hr : s'.run = s.run) : Token s' (some .queue) :=
  Held.pass h (fun hz => nomatch (holds_pusher hpush).mp hz) hs fun _ hz hq =>
    holds_other_pusher hpush hr hz fun he => absurd he hq

lemma Token.run_queue (h : Token s (some (.cpu k))) (hpush : s'.push = s.push) {p : RunPc}
    (hr : s'.run = update s.run k p) (hp : p.active = false)
    (hs : s'.status = .waitingInQueue) : Token s' (some .queue) :=
  Held.pass h (fun hz => nomatch hp.symm.trans ((holds_cpu hr).mp hz)) hs fun _ hz hq =>
    holds_other_cpu hpush hr hz fun he => absurd he hq

lemma Token.run_drop (h : Token s (some (.cpu k))) (hpush : s'.push = s.push) {p : RunPc}
    (hr : s'.run = update s.run k p) (hp : p.active = false)
    (hs : s'.status = s.status) : Token s' none :=
  Held.drop h (fun hz => nomatch hp.symm.trans ((holds_cpu hr).mp hz)) fun _ hz =>
    holds_other_cpu hpush hr hz fun _ => hs

lemma Token.queue_run (h : Token s (some .queue)) (hpush : s'.push = s.push) {p : RunPc}
    (hr : s'.run = update s.run k p) (hp : p.active = true)
    (hs : s'.status ≠ .waitingInQueue) : Token s' (some (.cpu k)) :=
  Held.pass h hs ((holds_cpu hr).mpr hp) fun _ hq hz =>
    holds_other_cpu hpush hr hz fun he => absurd he hq

end

structure Ok (O : Buffer B) (s : State B) : Prop where
  sound : Sound s.ctrl
  buffer : O.Ok s.buf
  owner : s.status = .waitingInQueue → s.cpuid = some (s.ctrl.taskCpuid (.task s.task))
  alone : ∀ k, s.run k ≠ .idle → s.cpuid = some k
  running : ∀ k, (s.run k).active = true → s.status = .running
  token : ∃ o, Token s o ∧ (o.isSome = true ↔ s.fstate = .functioning)
  awake : s.cpuid.isSome = true → O.isEmpty s.buf = false →
    s.fstate = .functioning ∨ ∃ j, (s.push j).late = true
  storing : ∀ k, s.run k = .store false → O.isEmpty s.buf = false →
    ∃ j, (s.push j).late = true
  calm : s.panicked = false
  firm : s.asserted = false

variable {O : Buffer B} {s s' : State B} {j : ℕ} {k : CpuId}

lemma boot_ok {c : TaskCtrl} {id : ℕ} {b : B} (hc : Sound c) (hb : O.Ok b)
    (ho : c.status (.task id) = .outOfQueue) : Ok O (boot c id b) where
  sound := hc
  buffer := hb
  owner := fun h => absurd (ho.symm.trans h) (by decide)
  alone := fun k h => absurd rfl h
  running := fun k h => nomatch h
  token := by
    refine ⟨none,fun z => iff_of_false (fun hz => ?_) nofun,
      iff_of_false (by decide) nofun⟩
    cases z with
    | pusher j => cases hz
    | queue => exact absurd (ho.symm.trans hz) (by decide)
    | cpu k => cases hz
  awake := nofun
  storing := fun k h => nomatch h
  calm := rfl
  firm := rfl

section
variable (h : Ok O s)
include h

lemma Ok.holder {z : Holder} (hz : Holds s z) : Token s (some z) ∧ s.fstate = .functioning := by
  obtain ⟨o,ht,hf⟩ := h.token
  obtain rfl := (ht z).mp hz
  exact ⟨ht,hf.mp rfl⟩

lemma Ok.free (hf : s.fstate = .notFunctioning) : Token s none := by
  obtain ⟨o,ht,hif⟩ := h.token
  cases o with
  | none => exact ht
  | some z => cases (hif.mp rfl).symm.trans hf

lemma Ok.same {i : CpuId} (hk : s.run k ≠ .idle) (hi : s.run i ≠ .idle) : i = k :=
  Option.some.inj ((h.alone i hi).symm.trans (h.alone k hk))

lemma Ok.others (hk : s.run k ≠ .idle) {i : CpuId} (hi : i ≠ k) : s.run i = .idle := by
  by_contra hne
  exact hi (h.same hk hne)

lemma Ok.set_alone (hk : s.run k ≠ .idle) (p : RunPc) (i : CpuId)
    (hi : update s.run k p i ≠ .idle) : s.cpuid = some i := by
  by_cases he : i = k
  · rw [he]
    exact h.alone k hk
  · rw [update_of_ne he] at hi
    exact h.alone i hi

lemma Ok.store_cpuid (hs : s.run k = .store false) : s.cpuid.isSome = true := by
  rw [h.alone k (by rw [hs]; exact nofun)]
  rfl

lemma Ok.check_push (hp : (s.push j).claims = true) : s.status ≠ .waitingInQueue := fun hw => by
  have ht := (h.holder (z := .pusher j) hp).1
  cases (ht .queue).mp hw

lemma Ok.check_run (hr : (s.run k).active = true) : s.status ≠ .waitingInQueue := fun hw => by
  have ht := (h.holder (z := .cpu k) hr).1
  cases (ht .queue).mp hw

lemma setPush_ok {p : PushPc} (hc : p.claims = (s.push j).claims)
    (hl : s.cpuid.isSome = true → (∃ i, (s.push i).late = true) →
      ∃ i, ((s.setPush j p).push i).late = true) : Ok O (s.setPush j p) :=
  { h with
    token := by
      obtain ⟨o,ht,hf⟩ := h.token
      exact ⟨o,ht.congr (claims_update hc) Iff.rfl fun _ => rfl,hf⟩
    awake := fun hs hb => (h.awake hs hb).imp_right (hl hs)
    storing := fun k hs hb => hl (h.store_cpuid hs) (h.storing k hs hb) }

omit h in
lemma late_kept {p : PushPc} (hl : (s.push j).late = true → p.late = true)
    (h : ∃ i, (s.push i).late = true) : ∃ i, ((s.setPush j p).push i).late = true := by
  obtain ⟨i,hi⟩ := h
  by_cases hij : i = j
  · refine ⟨j,?_⟩
    change (update s.push j p j).late = true
    rw [update_self]
    exact hl (hij ▸ hi)
  · refine ⟨i,?_⟩
    change (update s.push j p i).late = true
    rw [update_of_ne hij]
    exact hi

lemma push_ok {b : B} (hj : s.push j = .idle) (hb : O.Push s.buf b) :
    Ok O { s.setPush j .valid with buf := b } := by
  have hla : ∃ i, ((s.setPush j .valid).push i).late = true := by
    refine ⟨j,?_⟩
    change (update s.push j .valid j).late = true
    rw [update_self]
    rfl
  have hs := setPush_ok (p := .valid) h (hj ▸ rfl) (fun _ _ => hla)
  exact { hs with
    buffer := O.push_ok h.buffer hb
    awake := fun _ _ => .inr hla
    storing := fun _ _ _ => hla }

lemma valid_ok (hj : s.push j = .valid) :
    Ok O (s.setPush j (if s.cpuid.isSome then .wake else .idle)) := by
  by_cases hc : s.cpuid.isSome = true
  · rw [if_pos hc]
    exact setPush_ok h (hj ▸ rfl) fun _ => late_kept fun _ => rfl
  · rw [if_neg hc]
    exact setPush_ok h (hj ▸ rfl) fun hs => absurd hs hc

lemma wake_ok (hj : s.push j = .wake) (hu : s.Unlocked) : Ok O (s.wakeup j) := by
  have hs : ∀ k, s.run k ≠ .store false := fun k hk => by
    have hlo := hu k
    rw [hk] at hlo
    cases hlo
  cases hf : s.fstate with
  | notFunctioning =>
    simp only [State.wakeup,hf]
    exact ⟨h.sound,h.buffer,h.owner,h.alone,h.running,
      ⟨_,(h.free hf).pusher (j := j) (p := .check) rfl rfl rfl rfl,iff_of_true rfl rfl⟩,
      fun _ _ => .inl rfl,fun k hk => absurd hk (hs k),h.calm,h.firm⟩
  | functioning =>
    simp only [State.wakeup,hf]
    obtain ⟨o,ht,hif⟩ := h.token
    exact ⟨h.sound,h.buffer,h.owner,h.alone,h.running,
      ⟨o,ht.congr (claims_update (hj ▸ rfl)) Iff.rfl fun _ => rfl,hif⟩,
      fun _ _ => .inl hf,fun k hk => absurd hk (hs k),h.calm,h.firm⟩

lemma pushCheck_ok (hj : s.push j = .check) : Ok O (s.setPush j .enqueue) :=
  setPush_ok h (hj ▸ rfl) fun _ => late_kept fun hl => by
    rw [hj] at hl
    cases hl

lemma pushEnqueue_ok {c : CpuId} (hj : s.push j = .enqueue)
    (hc : s.cpuid = some c) : Ok O ((s.enqueue c).setPush j .idle) := by
  have hcl : (s.push j).claims = true := by
    rw [hj]
    rfl
  obtain ⟨ht,hf⟩ := h.holder (z := .pusher j) hcl
  have hla := late_kept (s := s) (j := j) (p := .idle) fun hl => by
    rw [hj] at hl
    cases hl
  have hw : ((s.enqueue c).setPush j .idle).status = .waitingInQueue := enqueue_waiting ..
  refine ⟨enqueue_sound h.sound c s.task,h.buffer,fun _ => hc.trans (congrArg some ?_),h.alone,
    fun k hk => absurd ((ht (.cpu k)).mp hk) (by simp),⟨_,ht.push_queue rfl hw rfl,iff_of_true rfl hf⟩,
    fun hs hb => (h.awake hs hb).imp_right hla,fun k hk hb => hla (h.storing k hk hb),
    h.calm,h.firm⟩
  change c = (s.ctrl.enqueue c (.task s.task)).taskCpuid (.task s.task)
  rw [enqueue_cpuid (h.check_push hcl),update_self]

lemma Ok.set_storing {p : RunPc} (hp : p = .store false → O.isEmpty s.buf = true) (i : CpuId)
    (hi : update s.run k p i = .store false) (hb : O.isEmpty s.buf = false) :
    ∃ j, (s.push j).late = true := by
  by_cases he : i = k
  · rw [he,update_self] at hi
    cases (hp hi).symm.trans hb
  · rw [update_of_ne he] at hi
    exact h.storing i hi hb

lemma setRun_ok {p : RunPc} (ha : (s.run k).active = true) (hp : p.active = true)
    (hs : p = .store false → O.isEmpty s.buf = true) : Ok O (s.setRun k p) :=
  { h with
    alone := h.set_alone (fun hi => by rw [hi] at ha; cases ha) p
    running := fun _ _ => h.running k ha
    token := by
      obtain ⟨o,ht,hf⟩ := h.token
      exact ⟨o,ht.congr (fun _ => rfl) Iff.rfl (active_update (hp.trans ha.symm)),hf⟩
    storing := h.set_storing hs }

lemma pop_ok {c : TaskCtrl} (hp : s.ctrl.popTask k = .ok (some (.task s.task),c)) :
    Ok O { s.setRun k (.loop 0) with ctrl := c } := by
  have hpop := popTask_popped h.sound hp
  have hc : s.cpuid = some k := hpop.owner ▸ h.owner hpop.waiting
  obtain ⟨ht,hf⟩ := h.holder (z := .queue) hpop.waiting
  have hr : c.status (.task s.task) = .running := by rw [hpop.status,update_self]
  have hwa : c.status (.task s.task) ≠ .waitingInQueue := by
    rw [hr]
    decide
  refine ⟨hpop.sound,h.buffer,fun hw => absurd hw hwa,fun i hne => ?_,fun _ _ => hr,
    ⟨_,ht.queue_run (k := k) (p := .loop 0) rfl rfl rfl hwa,iff_of_true rfl hf⟩,h.awake,
    h.set_storing nofun,h.calm,h.firm⟩
  by_cases he : i = k
  · rw [he]
    exact hc
  · exact h.alone i fun hx => hne ((update_of_ne he ..).trans hx)

lemma store_ok {f : Bool} (hr : s.run k = .store f) :
    Ok O (s.store k f) := by
  have hac : (s.run k).active = true := by
    rw [hr]
    rfl
  have hne : s.run k ≠ .idle := fun hi => by
    rw [hi] at hac
    cases hac
  obtain ⟨ht,hf⟩ := h.holder (z := .cpu k) hac
  cases f with
  | true =>
    have hs := setRun_ok (p := .check) h hac rfl nofun
    exact ⟨hs.sound,hs.buffer,hs.owner,hs.alone,hs.running,
      ⟨_,ht.congr (fun _ => rfl) Iff.rfl (active_update hac.symm),iff_of_true rfl rfl⟩,
      fun _ _ => .inl rfl,hs.storing,h.calm,h.firm⟩
  | false =>
    have hfr : Token (s.store k false) none := ht.run_drop rfl rfl rfl rfl
    exact ⟨h.sound,h.buffer,h.owner,h.set_alone hne .finish,
      (fun i hi => nomatch (hfr (.cpu i)).mp hi),⟨none,hfr,by simp [State.store]⟩,
      fun _ hb => .inr (h.storing k hr hb),fun i hi hb => h.storing k hr hb,h.calm,h.firm⟩

lemma runEnqueue_ok {c : CpuId} (hr : s.run k = .enqueue)
    (hc : s.cpuid = some c) : Ok O ((s.enqueue c).setRun k .finish) := by
  have hac : (s.run k).active = true := by
    rw [hr]
    rfl
  have hne : s.run k ≠ .idle := by
    rw [hr]
    exact nofun
  obtain ⟨ht,hf⟩ := h.holder (z := .cpu k) hac
  have hw : ((s.enqueue c).setRun k .finish).status = .waitingInQueue := enqueue_waiting ..
  have hq : Token ((s.enqueue c).setRun k .finish) (some .queue) := ht.run_queue rfl rfl rfl hw
  refine ⟨enqueue_sound h.sound c s.task,h.buffer,fun _ => hc.trans (congrArg some ?_),
    h.set_alone hne .finish,(fun i hi => nomatch (hq (.cpu i)).mp hi),
    ⟨_,hq,iff_of_true rfl hf⟩,h.awake,h.set_storing nofun,h.calm,h.firm⟩
  change c = (s.ctrl.enqueue c (.task s.task)).taskCpuid (.task s.task)
  rw [enqueue_cpuid (h.check_run hac),update_self]

lemma finish_ok (hr : s.run k = .finish) :
    Ok O { s.setRun k .idle with ctrl := s.ctrl.finishTask (.task s.task) } := by
  have hne : s.run k ≠ .idle := by
    rw [hr]
    exact nofun
  have hid : ∀ i, update s.run k .idle i = .idle := fun i => by
    by_cases he : i = k
    · rw [he,update_self]
    · rw [update_of_ne he,h.others hne he]
  have hwa := finishTask_waiting s.ctrl (.task s.task)
  obtain ⟨o,ht,hf⟩ := h.token
  refine ⟨finishTask_sound h.sound _,h.buffer,fun hw => ?_,fun i hi => absurd (hid i) hi,
    fun i hi => ?_,⟨o,ht.congr (fun _ => rfl) hwa (active_update (hr ▸ rfl)),hf⟩,h.awake,
    fun i hs => ?_,h.calm,h.firm⟩
  · exact (h.owner (hwa.mp hw)).trans
      (congrArg some (congrFun (finishTask_cpuid s.ctrl (.task s.task)).symm _))
  · change (update s.run k .idle i).active = true at hi
    rw [hid i] at hi
    cases hi
  · cases (hid i).symm.trans hs

lemma elsewhere_ok {c : TaskCtrl} (hc : Elsewhere (.task s.task) s.ctrl c) :
    Ok O { s with ctrl := c } := by
  obtain ⟨hs,hsa,hcp⟩ := hc.untouched h.sound
  have hst : ({ s with ctrl := c } : State B).status = s.status := hsa
  obtain ⟨o,ht,hf⟩ := h.token
  exact { h with
    sound := hs
    owner := fun hw => (h.owner (hst.symm.trans hw)).trans (congrArg some hcp.symm)
    running := fun k hk => hst.trans (h.running k hk)
    token := ⟨o,ht.congr (fun _ => rfl) (by rw [hst]) fun _ => rfl,hf⟩ }

lemma take_ok {b : B} (hb : O.Pop s.buf b) : Ok O { s with buf := b } :=
  { h with
    buffer := O.pop_ok h.buffer hb
    awake := fun hs _ => h.awake hs (O.pop_nonempty hb)
    storing := fun k hk _ => h.storing k hk (O.pop_nonempty hb) }

lemma setFunction_ok (c : CpuId) (hn : s.cpuid = none)
    (he : O.isEmpty s.buf = true) : Ok O { s with cpuid := some c } := by
  refine { h with owner := fun hw => ?_, alone := fun k hk => ?_, awake := fun _ hb => ?_ }
  · cases hn.symm.trans (h.owner hw)
  · cases hn.symm.trans (h.alone k hk)
  · cases he.symm.trans hb

lemma step_ok (hs : Step O s s') : Ok O s' := by
  cases hs with
  | setFunction c hn he => exact setFunction_ok h c hn he
  | push j hj hb => exact push_ok h hj hb
  | valid j hj => exact valid_ok h hj
  | wake j hj hu => exact wake_ok h hj hu
  | pushCheck j hj _ => exact pushCheck_ok h hj
  | pushPanic j hj hw => exact absurd hw (h.check_push (by rw [hj]; rfl))
  | pushEnqueue j hj hc => exact pushEnqueue_ok h hj hc
  | take hb => exact take_ok h hb
  | pop k _ hp => exact pop_ok h hp
  | loop k hr =>
    refine setRun_ok h (hr ▸ rfl) (by split <;> rfl) fun he => ?_
    split at he <;> cases he
  | exec k hr | assert k hr _ | acquire k hr _ | runCheck k hr _ =>
    exact setRun_ok h (hr ▸ rfl) rfl nofun
  | assertFail k hr hf => exact absurd (h.holder (z := .cpu k) (by rw [Holds,hr]; rfl)).2 hf
  | decide k hr =>
    refine setRun_ok h (hr ▸ rfl) rfl fun he => ?_
    simpa using he
  | store k hr => exact store_ok h hr
  | runPanic k hr hw => exact absurd hw (h.check_run (k := k) (hr ▸ rfl))
  | runEnqueue k hr hc => exact runEnqueue_ok h hr hc
  | finish k hr => exact finish_ok h hr
  | elsewhere hc => exact elsewhere_ok h hc

end

lemma run_ok (h : Ok O s) (hr : Relation.ReflTransGen (Step O) s s') : Ok O s' := by
  induction hr with
  | refl => exact h
  | tail _ hs ih => exact step_ok ih hs

structure Safe (O : Buffer B) (s : State B) : Prop where
  served : s.cpuid.isSome = true → O.isEmpty s.buf = false → (∀ j, s.push j = .idle) →
    InQueue s.ctrl (.task s.task) ∨ s.status = .running
  pushClear : ∀ j, s.push j = .check → s.status ≠ .waitingInQueue
  runClear : ∀ k, s.run k = .check → s.status ≠ .waitingInQueue
  calm : s.panicked = false
  firm : s.asserted = false

lemma Ok.safe (h : Ok O s) : Safe O s := by
  refine ⟨fun hs hb hid => ?_,fun j hj => h.check_push (by rw [hj]; rfl),
    fun k hk => h.check_run (by rw [hk]; rfl),h.calm,h.firm⟩
  have hf : s.fstate = .functioning := by
    rcases h.awake hs hb with hf | ⟨j,hj⟩
    · exact hf
    · rw [hid j] at hj
      cases hj
  obtain ⟨o,ht,hif⟩ := h.token
  obtain ⟨z,rfl⟩ := Option.isSome_iff_exists.mp (hif.mpr hf)
  have hz : Holds s z := (ht z).mpr rfl
  cases z with
  | pusher j =>
    change (s.push j).claims = true at hz
    rw [hid j] at hz
    cases hz
  | queue => exact .inl (h.sound.inQueue hz)
  | cpu k => exact .inr (h.running k hz)

def ringBuffer (T : Type) (S : ℕ) : Buffer (RingBuffer T S) where
  isEmpty := RingBuffer.isEmpty
  Push b b' := ∃ x, b' = (b.push x).2
  Pop b b' := ∃ x, b.pop = some (x,b')
  Ok _ := True
  push_ok _ _ := trivial
  pop_ok _ _ := trivial
  pop_nonempty := fun {b b'} ⟨x,hx⟩ => by
    unfold RingBuffer.pop at hx
    split at hx
    · next hne => exact decide_eq_false hne.symm
    · cases hx

def linkedQueue (T : Type) : Buffer (Queue T) where
  isEmpty := Queue.isEmpty
  Push q q' := ∃ l a x, q.Ok l ∧ Node.container a ∉ l ∧ q.push (.container a) x = .ok q'
  Pop q q' := ∃ x, q.pop = .ok (some (x,q'))
  Ok q := ∃ l, q.Ok l
  push_ok := fun {q q'} _ ⟨l,a,x,hl,ha,hpush⟩ => by
    obtain ⟨q'',hok,hl'⟩ := hl.push_ok (c := .container a) (by simpa using ha) x
    cases hok.symm.trans hpush
    exact ⟨_,hl'⟩
  pop_ok := fun {q q'} ⟨l,hl⟩ ⟨x,hpop⟩ => by
    cases l with
    | nil => cases hl.pop_nil.symm.trans hpop
    | cons c rest =>
      obtain ⟨q'',hok,hl'⟩ := hl.pop_cons
      cases hok.symm.trans hpop
      exact ⟨_,hl'⟩
  pop_nonempty := fun {q q'} ⟨x,hpop⟩ => by
    unfold Queue.pop at hpop
    split at hpop
    · cases hpop
    · next hne => exact Bool.eq_false_iff.mpr hne

lemma one_push {b b' : B} (O : Buffer B) (he : O.isEmpty b = true) (hb : O.Push b b') :
    ∃ s, Relation.ReflTransGen (Step O) (boot blankCtrl.setup 0 b) s ∧ s.buf = b' ∧
      s.cpuid = some 0 ∧ (∀ j, s.push j = .idle) ∧ s.task = 0 ∧ s.status ≠ .running := by
  have hr := Relation.ReflTransGen.single
    (Step.setFunction (O := O) (s := boot blankCtrl.setup 0 b) 0 rfl he)
  have hr := hr.tail (.push 0 rfl hb)
  have hr := hr.tail (.valid 0 rfl)
  have hr := hr.tail (.wake 0 rfl fun _ => rfl)
  have hr := hr.tail (.pushCheck 0 rfl (fun he => nomatch he))
  have hr := hr.tail (.pushEnqueue 0 rfl rfl)
  refine ⟨_,hr,rfl,rfl,fun j => ?_,rfl,nofun⟩
  by_cases hj : j = 0
  · rw [hj]
    rfl
  · simp only [State.setPush,State.enqueue,State.wakeup,boot,update_of_ne hj]

theorem functional_run {c : TaskCtrl} {id : ℕ} (hc : Sound c)
    (hout : c.status (.task id) = .outOfQueue) :
    (∀ (T : Type) (S : ℕ) (b : RingBuffer T S) (s : State (RingBuffer T S)),
      Relation.ReflTransGen (Step (ringBuffer T S)) (boot c id b) s → Safe (ringBuffer T S) s) ∧
    (∀ (T : Type) (q : Queue T) (l : List Node) (s : State (Queue T)), q.Ok l →
      Relation.ReflTransGen (Step (linkedQueue T)) (boot c id q) s → Safe (linkedQueue T) s) :=
  ⟨fun _ _ _ _ hr => (run_ok (boot_ok hc trivial hout) hr).safe,
    fun T _ l _ hl hr => (run_ok (boot_ok (O := linkedQueue T) hc ⟨l,hl⟩ hout) hr).safe⟩

theorem functional_run_pushed : (∃ s : State (RingBuffer Bool 1), s.buf.contents = [true] ∧
      InQueue s.ctrl (.task 0) ∧ s.panicked = false ∧ s.asserted = false) ∧
    ∃ s : State (Queue Bool), s.buf.Ok [.container 5] ∧
      InQueue s.ctrl (.task 0) ∧ s.panicked = false ∧ s.asserted = false := by
  have ho : blankCtrl.setup.status (.task 0) = .outOfQueue := rfl
  obtain ⟨hr,hqu⟩ := functional_run (sound_setup blankCtrl) ho
  constructor
  · obtain ⟨s,hru,hb,hc,hid,ht,hst⟩ := one_push (ringBuffer Bool 1)
      (b := .new fun _ => false) rfl ⟨true,rfl⟩
    have hs := hr Bool 1 _ s hru
    have hse := hs.served (hc ▸ rfl) (hb ▸ rfl) hid
    rw [ht] at hse
    exact ⟨s,by rw [hb]; rfl,hse.resolve_right hst,hs.calm,hs.firm⟩
  · have hn := Queue.ok_new (fun _ => false) (fun _ => none)
    obtain ⟨q,hpush,hq⟩ := hn.push_ok (c := .container 5) (by decide) true
    obtain ⟨s,hru,hb,hc,hid,ht,hst⟩ := one_push (linkedQueue Bool)
      (b := .new (fun _ => false) fun _ => none) rfl ⟨[],5,true,hn,by decide,hpush⟩
    have hs := hqu Bool _ [] s hn hru
    have hf := Bool.eq_false_iff.mpr fun he => List.cons_ne_nil _ _ (hq.isEmpty_iff.mp he)
    have hse := hs.served (hc ▸ rfl) (by rw [hb]; exact hf) hid
    rw [ht] at hse
    exact ⟨s,by rw [hb]; exact hq,hse.resolve_right hst,hs.calm,hs.firm⟩

end Tasks.Functional
