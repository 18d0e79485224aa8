import Mathlib.Data.BitVec

namespace Sync
open Function Option

variable {C : Type} [DecidableEq C]

abbrev Word32 := BitVec 32

structure SpinLock (C : Type) where
  flag : Word32
  cpuid : Option C
  didStopInterrupt : Bool
  deriving DecidableEq, Repr

def SpinLock.new : SpinLock C := ⟨0,none,false⟩

def isOdd (flag : Word32) : Bool := decide (flag % 2 = 1)

inductive Pc where
  | idle
  | lockFlag
  | lockCpuid
  | selfLock
  | lockRead
  | lockTest (flag : Word32)
  | lockSwap (flag : Word32) (iflag : Bool)
  | lockStop (iflag : Bool)
  | lockOwner
  | lockWarn
  | tryRead
  | tryTest (flag : Word32)
  | trySwap (flag : Word32) (iflag : Bool)
  | tryStop (iflag : Bool)
  | tryOwner
  | unlockCheck
  | unlockOwner
  | unlockRead
  | unlockWrite (flag : Word32)
  | unlockIntr
  | asserted
  deriving DecidableEq, Repr

structure Cpu where
  pc : Pc
  holds : Bool
  intr : Bool
  warned : Bool
  deriving DecidableEq, Repr

def enableInterrupt (intr flag : Bool) : Bool := intr || flag

def setFlag (l : SpinLock C) (oldFlag newFlag : Word32) : Bool × SpinLock C :=
  if l.flag = oldFlag then (true,{l with flag := newFlag}) else (false,l)

def advance (c : C) (timeout : Bool) (l : SpinLock C) (p : Cpu) : SpinLock C × Cpu :=
  match p.pc with
  | .idle => (l,p)
  | .selfLock => (l,p)
  | .asserted => (l,p)
  | .lockFlag => (l,{p with pc := if isOdd l.flag then .lockCpuid else .lockRead, warned := false})
  | .lockCpuid => (l,{p with pc := if l.cpuid = some c then .selfLock else .lockRead})
  | .lockRead => (l,{p with pc := .lockTest l.flag})
  | .lockTest flag =>
    if isOdd flag then (l,{p with pc := .lockWarn})
    else (l,{p with pc := .lockSwap flag p.intr, intr := false})
  | .lockSwap flag iflag =>
    match setFlag l flag (flag + 1) with
    | (true,l) => (l,{p with pc := .lockStop iflag, holds := true})
    | (false,l) => (l,{p with pc := .lockWarn, intr := enableInterrupt p.intr iflag})
  | .lockStop iflag => ({l with didStopInterrupt := iflag},{p with pc := .lockOwner})
  | .lockOwner => ({l with cpuid := some c},{p with pc := .idle})
  | .lockWarn =>
    if timeout && !p.warned then
      (l,{p with pc := if l.cpuid.isSome then .lockRead else .asserted, warned := true})
    else (l,{p with pc := .lockRead})
  | .tryRead => (l,{p with pc := .tryTest l.flag})
  | .tryTest flag =>
    if isOdd flag then (l,{p with pc := .idle})
    else (l,{p with pc := .trySwap flag p.intr, intr := false})
  | .trySwap flag iflag =>
    match setFlag l flag (flag + 1) with
    | (true,l) => (l,{p with pc := .tryStop iflag, holds := true})
    | (false,l) => (l,{p with pc := .idle, intr := enableInterrupt p.intr iflag})
  | .tryStop iflag => ({l with didStopInterrupt := iflag},{p with pc := .tryOwner})
  | .tryOwner => ({l with cpuid := some c},{p with pc := .idle})
  | .unlockCheck => (l,{p with pc := if isOdd l.flag then .unlockOwner else .asserted})
  | .unlockOwner => ({l with cpuid := none},{p with pc := .unlockRead})
  | .unlockRead => (l,{p with pc := .unlockWrite l.flag})
  | .unlockWrite flag => ({l with flag := flag + 1},{p with pc := .unlockIntr, holds := false})
  | .unlockIntr => (l,{p with pc := .idle, intr := enableInterrupt p.intr l.didStopInterrupt})

structure State (C : Type) where
  lock : SpinLock C
  cpu : C → Cpu

def State.set (s : State C) (c : C) (l : SpinLock C) (p : Cpu) : State C :=
  ⟨l,update s.cpu c p⟩

lemma State.set_here (s : State C) (c : C) (l : SpinLock C) (p : Cpu) : (s.set c l p).cpu c = p :=
  update_self ..

lemma State.set_other (s : State C) {a c : C} (h : a ≠ c) (l : SpinLock C) (p : Cpu) :
    (s.set c l p).cpu a = s.cpu a := update_of_ne h ..

lemma State.set_lock (s : State C) (c : C) (l : SpinLock C) (p : Cpu) : (s.set c l p).lock = l := rfl

inductive Step (s : State C) (c : C) : State C → Prop where
  | lock : (s.cpu c).pc = .idle → Step s c (s.set c s.lock {s.cpu c with pc := .lockFlag})
  | trylock : (s.cpu c).pc = .idle → Step s c (s.set c s.lock {s.cpu c with pc := .tryRead})
  | unlock : (s.cpu c).pc = .idle → (s.cpu c).holds = true →
    Step s c (s.set c s.lock {s.cpu c with pc := .unlockCheck})
  | advance (timeout : Bool) :
    Step s c (s.set c (advance c timeout s.lock (s.cpu c)).1 (advance c timeout s.lock (s.cpu c)).2)

def Reach (s s' : State C) : Prop := Relation.ReflTransGen (fun s s' => ∃ c, Step s c s') s s'

def State.boot (intr : C → Bool) : State C := ⟨.new,fun c => ⟨.idle,false,intr c,false⟩⟩

def window : Pc → Bool
  | .lockStop _ => true
  | .lockOwner => true
  | .tryStop _ => true
  | .tryOwner => true
  | .unlockRead => true
  | .unlockWrite _ => true
  | _ => false

def Cpu.Wf (p : Cpu) (flag : Word32) : Prop :=
  match p.pc with
  | .selfLock => p.holds = true
  | .lockRead => p.holds = false
  | .lockTest _ => p.holds = false
  | .lockSwap f _ => p.holds = false ∧ isOdd f = false
  | .lockStop _ => p.holds = true
  | .lockOwner => p.holds = true
  | .lockWarn => p.holds = false
  | .trySwap f _ => isOdd f = false
  | .tryStop _ => p.holds = true
  | .tryOwner => p.holds = true
  | .unlockCheck => p.holds = true
  | .unlockOwner => p.holds = true
  | .unlockRead => p.holds = true
  | .unlockWrite f => p.holds = true ∧ f = flag
  | .unlockIntr => p.holds = false
  | _ => True

lemma isOdd_succ (flag : Word32) : isOdd (flag + 1) = !isOdd flag := by
  have hlt := flag.isLt
  have ho : ∀ f, isOdd f = decide (f.toNat % 2 = 1) := by
    intro f
    rw [isOdd,decide_eq_decide,← BitVec.toNat_inj,BitVec.toNat_umod]
    rfl
  rw [ho,ho,BitVec.toNat_add,← decide_not,decide_eq_decide,show (1 : Word32).toNat = 1 from rfl]
  omega

inductive Effect (c : C) (l : SpinLock C) (p : Cpu) (l' : SpinLock C) (p' : Cpu) : Prop where
  | quiet (hflag : l'.flag = l.flag) (hcpuid : l'.cpuid = l.cpuid) (hholds : p'.holds = p.holds)
    (hwindow : p.holds = true → window p'.pc = window p.pc)
  | win (hfree : isOdd l.flag = false) (hflag : l'.flag = l.flag + 1) (hcpuid : l'.cpuid = l.cpuid)
    (hholds : p'.holds = true) (hwindow : window p'.pc = true)
  | record (hholder : p.holds = true) (hflag : l'.flag = l.flag) (hcpuid : l'.cpuid = some c)
    (hholds : p'.holds = true) (hwindow : window p'.pc = false)
  | clear (hholder : p.holds = true) (hflag : l'.flag = l.flag) (hcpuid : l'.cpuid = none)
    (hholds : p'.holds = true) (hwindow : window p'.pc = true)
  | release (hholder : p.holds = true) (hinside : window p.pc = true) (hflag : l'.flag = l.flag + 1)
    (hcpuid : l'.cpuid = l.cpuid) (hholds : p'.holds = false)

section
variable {c : C} {l : SpinLock C} {p : Cpu}

structure Local (c : C) (l : SpinLock C) (p : Cpu) : Prop where
  wf : p.Wf l.flag
  odd : p.holds = true → isOdd l.flag = true
  owner : l.cpuid = some c ↔ p.holds = true ∧ window p.pc = false

omit [DecidableEq C] in
lemma advance_quiet {l' : SpinLock C} {p' : Cpu} (hwf : p'.Wf l'.flag)
    (h : (l'.flag,l'.cpuid,p'.holds,window p'.pc) = (l.flag,l.cpuid,p.holds,window p.pc)) :
    Effect c l p l' p' ∧ p'.Wf l'.flag := by
  simp only [Prod.mk.injEq] at h
  exact ⟨.quiet h.1 h.2.1 h.2.2.1 fun _ => h.2.2.2,hwf⟩

lemma advance_effect (h : Local c l p) (timeout : Bool) :
    Effect c l p (advance c timeout l p).1 (advance c timeout l p).2 ∧
      (advance c timeout l p).2.Wf (advance c timeout l p).1.flag := by
  obtain ⟨hwf,hod,ho⟩ := h
  obtain ⟨pc,holds,intr,warned⟩ := p
  cases pc with
  | idle | asserted | tryRead | unlockIntr => exact advance_quiet trivial rfl
  | selfLock | lockRead | lockStop iflag | tryStop iflag => exact advance_quiet hwf rfl
  | lockFlag =>
    cases hflag : isOdd l.flag with
    | true => simp only [advance,hflag]; exact advance_quiet trivial rfl
    | false =>
      have hfree : holds = false := by
        cases holds with
        | false => rfl
        | true => rw [hod rfl] at hflag; cases hflag
      simp only [advance,hflag]
      exact advance_quiet hfree rfl
  | lockCpuid =>
    by_cases hse : l.cpuid = some c
    · simp only [advance,if_pos hse]
      exact advance_quiet (ho.mp hse).1 rfl
    · have hfree : holds = false := by
        cases holds with
        | false => rfl
        | true => exact absurd (ho.mpr ⟨rfl,rfl⟩) hse
      simp only [advance,if_neg hse]
      exact advance_quiet hfree rfl
  | lockTest flag =>
    cases hflag : isOdd flag with
    | true =>
      simp only [advance,hflag,if_true]
      exact advance_quiet hwf rfl
    | false =>
      simp only [advance,hflag]
      exact advance_quiet ⟨hwf,hflag⟩ rfl
  | lockSwap flag iflag =>
    obtain ⟨hfree,he⟩ := hwf
    by_cases hs : l.flag = flag
    · simp only [advance,setFlag,if_pos hs]
      exact ⟨.win (by rw [hs,he]) (by rw [hs]) rfl rfl rfl,rfl⟩
    · simp only [advance,setFlag,if_neg hs]
      exact advance_quiet hfree rfl
  | lockOwner | tryOwner => exact ⟨.record hwf rfl rfl hwf rfl,trivial⟩
  | lockWarn =>
    simp only [advance]
    split_ifs
    · exact advance_quiet hwf rfl
    · exact advance_quiet trivial rfl
    · exact advance_quiet hwf rfl
  | tryTest flag =>
    cases hflag : isOdd flag with
    | true =>
      simp only [advance,hflag,if_true]
      exact advance_quiet trivial rfl
    | false =>
      simp only [advance,hflag]
      exact advance_quiet hflag rfl
  | trySwap flag iflag =>
    by_cases hs : l.flag = flag
    · simp only [advance,setFlag,if_pos hs]
      exact ⟨.win (by rw [hs]; exact hwf) (by rw [hs]) rfl rfl rfl,rfl⟩
    · simp only [advance,setFlag,if_neg hs]
      exact advance_quiet trivial rfl
  | unlockCheck =>
    have hflag := hod hwf
    simp only [advance,hflag,if_true]
    exact advance_quiet hwf rfl
  | unlockOwner => exact ⟨.clear hwf rfl rfl hwf rfl,hwf⟩
  | unlockRead => exact advance_quiet ⟨hwf,rfl⟩ rfl
  | unlockWrite flag =>
    obtain ⟨hholder,rfl⟩ := hwf
    exact ⟨.release hholder rfl rfl rfl rfl,rfl⟩

end

structure Inv (holder : Option C) (s : State C) : Prop where
  odd : isOdd s.lock.flag = holder.isSome
  holds : ∀ c, (s.cpu c).holds = true ↔ holder = some c
  owner : ∀ c, s.lock.cpuid = some c ↔ (s.cpu c).holds = true ∧ window (s.cpu c).pc = false
  wf : ∀ c, (s.cpu c).Wf s.lock.flag

lemma Cpu.Wf.of_free {p : Cpu} {flag flag' : Word32} (h : p.Wf flag) (hfree : ¬ p.holds = true) :
    p.Wf flag' := by
  obtain ⟨pc,_,intr,warned⟩ := p
  cases pc with
  | unlockWrite f => exact absurd h.1 hfree
  | _ => exact h

omit [DecidableEq C] in
lemma Inv.local {holder : Option C} {s : State C} (h : Inv holder s) (c : C) :
    Local c s.lock (s.cpu c) := by
  refine ⟨h.wf c,fun hholds => ?_,h.owner c⟩
  rw [h.odd,(h.holds c).mp hholds]
  rfl

omit [DecidableEq C] in
lemma Inv.other {s : State C} {a c : C} (h : Inv (some c) s) (hne : a ≠ c) : ¬ (s.cpu a).holds = true :=
  fun ha => hne (some.inj ((h.holds a).mp ha)).symm

omit [DecidableEq C] in
lemma inv_boot (intr : C → Bool) : Inv none (State.boot intr) :=
  ⟨rfl,fun _ => ⟨Bool.noConfusion,nofun⟩,
    fun _ => ⟨nofun,fun h => Bool.noConfusion h.1⟩,fun _ => trivial⟩

section
variable {holder : Option C} {s s' : State C} {c : C} {l' : SpinLock C} {p' : Cpu}

lemma Inv.set (hod : isOdd l'.flag = holder.isSome) (hwf : p'.Wf l'.flag)
    (hh : (p'.holds = true ↔ holder = some c) ∧
      (l'.cpuid = some c ↔ p'.holds = true ∧ window p'.pc = false))
    (ho : ∀ a, a ≠ c → ((s.cpu a).holds = true ↔ holder = some a) ∧
      (l'.cpuid = some a ↔ (s.cpu a).holds = true ∧ window (s.cpu a).pc = false) ∧
      (s.cpu a).Wf l'.flag) : Inv holder (s.set c l' p') := by
  refine ⟨hod,fun a => ?_,fun a => ?_,fun a => ?_⟩ <;> rcases eq_or_ne a c with rfl | hne
  · rw [State.set_here,hh.1]
  · rw [State.set_other _ hne,(ho a hne).1]
  · rw [State.set_here,State.set_lock,hh.2]
  · rw [State.set_other _ hne,State.set_lock,(ho a hne).2.1]
  · rwa [State.set_here]
  · rw [State.set_other _ hne]
    exact (ho a hne).2.2

lemma Inv.quiet (h : Inv holder s) (hflag : l'.flag = s.lock.flag) (hcpuid : l'.cpuid = s.lock.cpuid)
    (hholds : p'.holds = (s.cpu c).holds)
    (hwindow : (s.cpu c).holds = true → window p'.pc = window (s.cpu c).pc) (hwf : p'.Wf l'.flag) :
    Inv holder (s.set c l' p') := by
  refine .set (by rw [hflag,h.odd]) hwf ⟨by rw [hholds,h.holds],?_⟩ fun a _ => ?_
  · rw [hcpuid,h.owner,hholds]
    exact and_congr_right fun ho => by rw [hwindow ho]
  · rw [hcpuid,hflag]
    exact ⟨h.holds a,h.owner a,h.wf a⟩

lemma Inv.win (h : Inv holder s) (hfree : isOdd s.lock.flag = false)
    (hflag : l'.flag = s.lock.flag + 1) (hcpuid : l'.cpuid = s.lock.cpuid) (hholds : p'.holds = true)
    (hwindow : window p'.pc = true) (hwf : p'.Wf l'.flag) :
    Inv (some c) (s.set c l' p') := by
  obtain rfl : holder = none := by
    rw [h.odd] at hfree
    exact isSome_eq_false_iff.mp hfree |> isNone_iff_eq_none.mp
  have hn : ∀ a, ¬ (s.cpu a).holds = true := fun a ha => nomatch (h.holds a).mp ha
  refine .set (by rw [hflag,isOdd_succ,hfree]; rfl) hwf ⟨iff_of_true hholds rfl,?_⟩ fun a hne => ?_
  · rw [hcpuid,h.owner,hwindow]
    exact iff_of_false (fun ha => hn c ha.1) fun ha => Bool.noConfusion ha.2
  · rw [hcpuid]
    exact ⟨iff_of_false (hn a) fun ha => hne (some.inj ha).symm,h.owner a,
      (h.wf a).of_free (hn a)⟩

lemma Inv.owned (h : Inv (some c) s) (hflag : l'.flag = s.lock.flag) (hholds : p'.holds = true)
    (hcpuid : ∀ a, l'.cpuid = some a ↔ a = c ∧ window p'.pc = false) (hwf : p'.Wf l'.flag) :
    Inv (some c) (s.set c l' p') := by
  refine .set (by rw [hflag,h.odd]) hwf ⟨iff_of_true hholds rfl,?_⟩ fun a hne => ?_
  · rw [hcpuid,and_iff_right rfl,and_iff_right hholds]
  · rw [hcpuid,hflag]
    exact ⟨h.holds a,iff_of_false (fun ha => hne ha.1) fun ha => h.other hne ha.1,h.wf a⟩

lemma Inv.release (h : Inv (some c) s) (hinside : window (s.cpu c).pc = true)
    (hflag : l'.flag = s.lock.flag + 1) (hcpuid : l'.cpuid = s.lock.cpuid)
    (hholds : p'.holds = false) (hwf : p'.Wf l'.flag) :
    Inv none (s.set c l' p') := by
  have ho : ¬ p'.holds = true := by rw [hholds]; decide
  refine .set (by rw [hflag,isOdd_succ,h.odd]; rfl) hwf ⟨iff_of_false ho nofun,?_⟩ fun a hne => ?_
  · rw [hcpuid,h.owner,hinside]
    exact iff_of_false (fun ha => Bool.noConfusion ha.2) fun ha => ho ha.1
  · rw [hcpuid]
    exact ⟨iff_of_false (h.other hne) nofun,h.owner a,(h.wf a).of_free (h.other hne)⟩

lemma Inv.effect (h : Inv holder s) (he : Effect c s.lock (s.cpu c) l' p') (hwf : p'.Wf l'.flag) :
    ∃ holder', Inv holder' (s.set c l' p') := by
  cases he with
  | quiet hflag hcpuid hholds hwindow => exact ⟨holder,h.quiet hflag hcpuid hholds hwindow hwf⟩
  | win hfree hflag hcpuid hholds hwindow =>
    exact ⟨some c,h.win hfree hflag hcpuid hholds hwindow hwf⟩
  | record hholder hflag hcpuid hholds hwindow =>
    obtain rfl := (h.holds c).mp hholder
    refine ⟨some c,h.owned hflag hholds (fun a => ?_) hwf⟩
    rw [hcpuid,hwindow]
    exact ⟨fun ha => ⟨(some.inj ha).symm,rfl⟩,fun ha => by rw [ha.1]⟩
  | clear hholder hflag hcpuid hholds hwindow =>
    obtain rfl := (h.holds c).mp hholder
    refine ⟨some c,h.owned hflag hholds (fun a => ?_) hwf⟩
    rw [hcpuid,hwindow]
    exact ⟨nofun,fun ha => Bool.noConfusion ha.2⟩
  | release hholder hinside hflag hcpuid hholds =>
    obtain rfl := (h.holds c).mp hholder
    exact ⟨none,h.release hinside hflag hcpuid hholds hwf⟩

lemma Inv.call (h : Inv holder s) {pc : Pc} (hid : (s.cpu c).pc = .idle) (hpc : window pc = false)
    (hwf : Cpu.Wf {s.cpu c with pc} s.lock.flag) :
    Inv holder (s.set c s.lock {s.cpu c with pc}) :=
  h.quiet rfl rfl rfl (fun _ => by rw [hid,hpc]; rfl) hwf

lemma Inv.step (h : Inv holder s) (hs : Step s c s') : ∃ holder', Inv holder' s' := by
  cases hs with
  | lock hid | trylock hid => exact ⟨holder,h.call hid rfl trivial⟩
  | unlock hid hholds => exact ⟨holder,h.call hid rfl hholds⟩
  | advance timeout =>
    obtain ⟨he,hwf⟩ := advance_effect (h.local c) timeout
    exact h.effect he hwf

lemma inv_reach {intr : C → Bool} (h : Reach (.boot intr) s) : ∃ holder, Inv holder s := by
  induction h with
  | refl => exact ⟨none,inv_boot intr⟩
  | tail _ hs ih =>
    obtain ⟨c,hs⟩ := hs
    obtain ⟨_,hin⟩ := ih
    exact hin.step hs

def checking (pc : Pc) : Prop := pc = .lockFlag ∨ pc = .lockCpuid

instance (pc : Pc) : Decidable (checking pc) := inferInstanceAs (Decidable (_ ∨ _))

lemma Inv.decision (h : Inv holder s) (hst : Step s c s') (hc : checking (s.cpu c).pc)
    (hd : ¬ checking (s'.cpu c).pc) : (s'.cpu c).pc = .selfLock ↔ (s.cpu c).holds = true := by
  have hl := h.local c
  have hb : (s.cpu c).pc ≠ .idle := by
    rcases hc with hpc | hpc <;> rw [hpc] <;> exact Pc.noConfusion
  cases hst with
  | lock hid | trylock hid | unlock hid _ => exact absurd hid hb
  | advance timeout =>
    rw [State.set_here] at hd ⊢
    rcases hc with hpc | hpc
    · cases hflag : isOdd s.lock.flag with
      | true =>
        simp only [advance,hpc,hflag,if_true] at hd
        exact absurd (.inr rfl) hd
      | false =>
        simp only [advance,hpc,hflag]
        refine ⟨nofun,fun hholds => ?_⟩
        rw [hl.odd hholds] at hflag
        cases hflag
    · have ho := hl.owner
      rw [hpc] at ho
      by_cases hs : s.lock.cpuid = some c
      · simp only [advance,hpc,if_pos hs,true_iff]
        exact (ho.mp hs).1
      · simp only [advance,hpc,if_neg hs]
        exact ⟨nofun,fun hholds => absurd (ho.mpr ⟨hholds,rfl⟩) hs⟩

theorem spinlock_safe (intr : C → Bool) (s : State C) (h : Reach (.boot intr) s) :
    (∀ c c', (s.cpu c).holds = true → (s.cpu c').holds = true → c = c') ∧
    (isOdd s.lock.flag = true ↔ ∃ c, (s.cpu c).holds = true) ∧
    (∀ c, (s.cpu c).pc = .selfLock → (s.cpu c).holds = true) ∧
    ∀ c s', Step s c s' → checking (s.cpu c).pc → ¬ checking (s'.cpu c).pc →
      ((s'.cpu c).pc = .selfLock ↔ (s.cpu c).holds = true) := by
  obtain ⟨_,hin⟩ := inv_reach h
  refine ⟨fun c c' hc hc' => ?_,?_,fun c hse => ?_,fun c s' hs => hin.decision hs⟩
  · exact some.inj (((hin.holds c).mp hc).symm.trans ((hin.holds c').mp hc'))
  · rw [hin.odd,isSome_iff_exists]
    exact exists_congr fun c => (hin.holds c).symm
  · have hwf := hin.wf c
    rw [Cpu.Wf,hse] at hwf
    exact hwf

end

def entered (s : State C) (c : C) : State C := s.set c s.lock {s.cpu c with pc := .lockFlag}

def advanced (c : C) (s : State C) : State C :=
  s.set c (advance c false s.lock (s.cpu c)).1 (advance c false s.lock (s.cpu c)).2

lemma reach_entered {s s' : State C} {c : C} (n : ℕ) (h : Reach s s')
    (hid : (s'.cpu c).pc = .idle) : Reach s ((advanced c)^[n] (entered s' c)) := by
  induction n with
  | zero => exact h.tail ⟨c,.lock hid⟩
  | succ n ih =>
    rw [iterate_succ_apply']
    exact ih.tail ⟨c,.advance false⟩

def ready : State Bool := .boot fun _ => true

def locked : State Bool := (advanced true)^[6] (entered ready true)

def relocked : State Bool := (advanced true)^[1] (entered locked true)

theorem spinlock_safe_relocked : Reach ready relocked ∧ (locked.cpu true).holds = true ∧
    (relocked.cpu true).pc = .lockCpuid ∧ isOdd relocked.lock.flag = true ∧
    ((advanced true relocked).cpu true).pc = .selfLock ∧
    (∀ c c', (relocked.cpu c).holds = true → (relocked.cpu c').holds = true → c = c') := by
  have hl : Reach ready locked := reach_entered 6 .refl rfl
  have hr : Reach ready relocked := reach_entered 1 hl rfl
  obtain ⟨hsi,ho,_,hd⟩ := spinlock_safe (fun _ => true) relocked hr
  have hs := hd true (advanced true relocked) (.advance false) (.inr rfl) (by decide)
  exact ⟨hr,rfl,rfl,ho.mpr ⟨true,rfl⟩,hs.mpr rfl,hsi⟩

end Sync
