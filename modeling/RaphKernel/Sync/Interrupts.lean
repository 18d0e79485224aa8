import RaphKernel.Sync.SpinLock

namespace Sync
open Function

variable {C : Type} [DecidableEq C]

def swapping : Pc → Option Bool
  | .lockSwap _ iflag => some iflag
  | .trySwap _ iflag => some iflag
  | _ => none

def storing : Pc → Option Bool
  | .lockStop iflag => some iflag
  | .tryStop iflag => some iflag
  | _ => none

structure Watched (C : Type) where
  state : State C
  before : C → Bool

def recalled (p p' : Cpu) (before : Bool) : Bool :=
  if (swapping p'.pc).isSome then p.intr else before

def Watched.next (w : Watched C) (c : C) (s' : State C) : Watched C :=
  ⟨s',update w.before c (recalled (w.state.cpu c) (s'.cpu c) (w.before c))⟩

def Watched.boot (intr : C → Bool) : Watched C := ⟨.boot intr,intr⟩

def Restores (w : Watched C) : Prop :=
  ∀ c timeout, (w.state.cpu c).pc = .unlockIntr →
    (advance c timeout w.state.lock (w.state.cpu c)).2.intr = w.before c

def Undisturbed (s : State C) (c : C) : Prop :=
  ∀ iflag, storing (s.cpu c).pc = some iflag →
    iflag = s.lock.didStopInterrupt ∨ ∀ a, a ≠ c → (s.cpu a).pc ≠ .unlockIntr

inductive Watch (intr : C → Bool) : Watched C → Prop where
  | boot : Watch intr (.boot intr)
  | step {w : Watched C} {c : C} {s' : State C} :
    Watch intr w → Step w.state c s' → Undisturbed w.state c → Watch intr (w.next c s')

structure Cpu.Saved (p : Cpu) (didStop before : Bool) : Prop where
  swap : ∀ iflag, swapping p.pc = some iflag → p.holds = false ∧ iflag = before ∧ p.intr = false
  store : ∀ iflag, storing p.pc = some iflag → iflag = before ∧ p.intr = false
  held : p.holds = true → storing p.pc = none → didStop = before ∧ p.intr = false
  leave : p.pc = .unlockIntr → didStop = before ∧ p.intr = false
  test : ∀ flag, p.pc = .tryTest flag → p.holds = true → isOdd flag = true

def plain : Pc → Bool
  | .lockSwap _ _ => false
  | .trySwap _ _ => false
  | .lockStop _ => false
  | .tryStop _ => false
  | .unlockIntr => false
  | .tryTest _ => false
  | _ => true

lemma plain_swapping {pc : Pc} (h : plain pc = true) : swapping pc = none := by
  cases pc <;> first | rfl | cases h

lemma plain_storing {pc : Pc} (h : plain pc = true) : storing pc = none := by
  cases pc <;> first | rfl | cases h

lemma swapping_storing {pc : Pc} {iflag : Bool} (h : swapping pc = some iflag) :
    storing pc = none := by
  cases pc <;> first | rfl | cases h

lemma storing_swapping {pc : Pc} {iflag : Bool} (h : storing pc = some iflag) :
    swapping pc = none := by
  cases pc <;> first | rfl | cases h

section
variable {c : C} {l : SpinLock C} {p p' : Cpu} {didStop before : Bool}

lemma Cpu.Saved.of_plain (hpc : plain p'.pc = true)
    (hhe : p'.holds = true → didStop = before ∧ p'.intr = false) : p'.Saved didStop before := by
  have hsw := plain_swapping hpc
  have hst := plain_storing hpc
  refine ⟨fun iflag hs => ?_,fun iflag hs => ?_,fun hh _ => hhe hh,fun hs => ?_,fun flag hs => ?_⟩
  · rw [hsw] at hs
    cases hs
  · rw [hst] at hs
    cases hs
  · rw [hs] at hpc
    cases hpc
  · rw [hs] at hpc
    cases hpc

lemma Cpu.Saved.moved (h : p.Saved didStop before) (hpc : storing p.pc = none)
    (hpc' : plain p'.pc = true) (hho : p'.holds = p.holds) (hin : p'.intr = p.intr) :
    p'.Saved didStop before := by
  refine .of_plain hpc' fun hh => ?_
  rw [hin]
  exact h.held (hho ▸ hh) hpc

lemma Cpu.Saved.free (hpc' : plain p'.pc = true) (hf : p'.holds = false) :
    p'.Saved didStop before := by
  refine .of_plain hpc' fun hh => ?_
  rw [hf] at hh
  cases hh

lemma Cpu.Saved.begin {iflag : Bool} (hpc : swapping p'.pc = some iflag) (hf : p'.holds = false)
    (hin : p'.intr = false) : p'.Saved didStop iflag := by
  have hst := swapping_storing hpc
  refine ⟨fun f hs => ?_,fun f hs => ?_,fun hh => ?_,fun hs => ?_,fun flag hs => ?_⟩
  · rw [hpc] at hs
    exact ⟨hf,(Option.some.inj hs).symm,hin⟩
  · rw [hst] at hs
    cases hs
  · rw [hf] at hh
    cases hh
  · rw [hs] at hpc
    cases hpc
  · rw [hs] at hpc
    cases hpc

lemma Cpu.Saved.won {iflag : Bool} (hpc : storing p'.pc = some iflag) (hb : iflag = before)
    (hin : p'.intr = false) : p'.Saved didStop before := by
  have hsw := storing_swapping hpc
  refine ⟨fun f hs => ?_,fun f hs => ?_,fun _ hs => ?_,fun hs => ?_,fun flag hs => ?_⟩
  · rw [hsw] at hs
    cases hs
  · rw [hpc] at hs
    exact ⟨(Option.some.inj hs).symm.trans hb,hin⟩
  · rw [hpc] at hs
    cases hs
  · rw [hs] at hpc
    cases hpc
  · rw [hs] at hpc
    cases hpc

lemma advance_saved (h : Local c l p) (hs : p.Saved l.didStopInterrupt before) (timeout : Bool) :
    (advance c timeout l p).2.Saved (advance c timeout l p).1.didStopInterrupt
      (recalled p (advance c timeout l p).2 before) := by
  obtain ⟨hwf,hod,_⟩ := h
  obtain ⟨pc,holds,intr,warned⟩ := p
  cases pc with
  | idle => exact hs
  | selfLock => exact hs
  | asserted => exact hs
  | lockFlag =>
    cases hfl : isOdd l.flag with
    | true | false => simp only [advance,hfl]; exact hs.moved rfl rfl rfl rfl
  | lockCpuid =>
    by_cases hse : l.cpuid = some c
    · simp only [advance,if_pos hse]; exact hs.moved rfl rfl rfl rfl
    · simp only [advance,if_neg hse]; exact hs.moved rfl rfl rfl rfl
  | lockRead | lockOwner | tryOwner | unlockOwner | unlockRead => exact hs.moved rfl rfl rfl rfl
  | lockTest flag =>
    cases hfl : isOdd flag with
    | true =>
      simp only [advance,hfl,if_true]
      exact hs.moved rfl rfl rfl rfl
    | false =>
      simp only [advance,hfl]
      exact .begin rfl hwf rfl
  | lockSwap flag iflag | trySwap flag iflag =>
    obtain ⟨hfr,hb,hin⟩ := hs.swap iflag rfl
    by_cases hsa : l.flag = flag
    · simp only [advance,setFlag,if_pos hsa]
      exact .won rfl hb hin
    · simp only [advance,setFlag,if_neg hsa]
      exact .free rfl hfr
  | lockStop iflag | tryStop iflag =>
    obtain ⟨hb,hin⟩ := hs.store iflag rfl
    exact .of_plain rfl fun _ => ⟨hb,hin⟩
  | lockWarn =>
    simp only [advance]
    split_ifs
    · exact hs.moved rfl rfl rfl rfl
    · exact hs.moved rfl rfl rfl rfl
    · exact hs.moved rfl rfl rfl rfl
  | tryRead =>
    refine ⟨fun _ hx => ?_,fun _ hx => ?_,fun hh _ => hs.held hh rfl,fun hx => ?_,
      fun flag hf hh => ?_⟩
    · cases hx
    · cases hx
    · cases hx
    · obtain rfl : l.flag = flag := Pc.tryTest.inj hf
      exact hod hh
  | tryTest flag =>
    cases hfl : isOdd flag with
    | true =>
      simp only [advance,hfl,if_true]
      exact hs.moved rfl rfl rfl rfl
    | false =>
      have hfr : holds = false := by
        cases holds with
        | false => rfl
        | true => rw [hs.test flag rfl rfl] at hfl; cases hfl
      simp only [advance,hfl]
      exact .begin rfl hfr rfl
  | unlockCheck =>
    have hfl := hod hwf
    simp only [advance,hfl,if_true]
    exact hs.moved rfl rfl rfl rfl
  | unlockWrite flag =>
    refine ⟨fun _ hx => ?_,fun _ hx => ?_,fun hx => ?_,fun _ => hs.held hwf.1 rfl,fun _ hx => ?_⟩
    · cases hx
    · cases hx
    · cases hx
    · cases hx
  | unlockIntr => exact .free rfl hwf

lemma advance_didStop (timeout : Bool) (hpc : storing p.pc = none) :
    (advance c timeout l p).1.didStopInterrupt = l.didStopInterrupt := by
  obtain ⟨pc,_,intr,warned⟩ := p
  cases pc with
  | lockStop iflag => cases hpc
  | tryStop iflag => cases hpc
  | lockTest flag | lockWarn | tryTest flag => simp only [advance]; split_ifs <;> rfl
  | lockSwap flag iflag | trySwap flag iflag =>
    simp only [advance,setFlag]; by_cases hs : l.flag = flag <;> simp [hs]
  | _ => rfl

lemma advance_stored (timeout : Bool) {iflag : Bool} (hpc : storing p.pc = some iflag) :
    (advance c timeout l p).1.didStopInterrupt = iflag := by
  obtain ⟨pc,_,intr,warned⟩ := p
  cases pc with
  | lockStop f | tryStop f => exact Option.some.inj hpc
  | _ => cases hpc

lemma advance_unlockIntr (timeout : Bool) (hpc : p.pc = .unlockIntr) :
    (advance c timeout l p).2.intr = enableInterrupt p.intr l.didStopInterrupt := by
  simp only [advance,hpc]

lemma Cpu.Saved.other {didStop' : Bool} (h : p.Saved didStop before) (hf : ¬ p.holds = true)
    (hl : p.pc = .unlockIntr → didStop' = didStop) : p.Saved didStop' before := by
  refine ⟨h.swap,h.store,fun hh => absurd hh hf,fun hpc => ?_,h.test⟩
  rw [hl hpc]
  exact h.leave hpc

lemma storing_holds {flag : Word32} {iflag : Bool} (hwf : p.Wf flag)
    (hpc : storing p.pc = some iflag) : p.holds = true := by
  obtain ⟨pc,_,intr,warned⟩ := p
  cases pc with
  | lockStop f => exact hwf
  | tryStop f => exact hwf
  | _ => cases hpc

lemma Cpu.Saved.restores (h : p.Saved l.didStopInterrupt before) (hpc : p.pc = .unlockIntr)
    (timeout : Bool) : (advance c timeout l p).2.intr = before := by
  obtain ⟨hd,hin⟩ := h.leave hpc
  rw [advance_unlockIntr timeout hpc,hin,hd]
  rfl

end

structure WatchOk (w : Watched C) : Prop where
  inv : ∃ holder, Inv holder w.state
  saved : ∀ c, (w.state.cpu c).Saved w.state.lock.didStopInterrupt (w.before c)

section
variable {w : Watched C} {c : C} {s' : State C} {intr : C → Bool}

omit [DecidableEq C] in
lemma watchOk_boot (intr : C → Bool) : WatchOk (.boot intr) :=
  ⟨⟨none,inv_boot intr⟩,fun _ => .free rfl rfl⟩

lemma WatchOk.restores (h : WatchOk w) : Restores w :=
  fun c timeout hpc => (h.saved c).restores hpc timeout

lemma watchOk_set {l' : SpinLock C} {p' : Cpu} (hin : ∃ holder, Inv holder (w.state.set c l' p'))
    (hh : p'.Saved l'.didStopInterrupt (recalled (w.state.cpu c) p' (w.before c)))
    (ho : ∀ a, a ≠ c → (w.state.cpu a).Saved l'.didStopInterrupt (w.before a)) :
    WatchOk (w.next c (w.state.set c l' p')) := by
  refine ⟨hin,fun a => ?_⟩
  rcases eq_or_ne a c with rfl | hne
  · simpa [Watched.next,State.set] using hh
  · simpa [Watched.next,State.set,hne] using ho a hne

lemma WatchOk.call (h : WatchOk w) {pc : Pc} (hid : (w.state.cpu c).pc = .idle)
    (hpc : plain pc = true) (hs : Step w.state c (w.state.set c w.state.lock {w.state.cpu c with pc})) :
    WatchOk (w.next c (w.state.set c w.state.lock {w.state.cpu c with pc})) := by
  obtain ⟨_,hin⟩ := h.inv
  refine watchOk_set (hin.step hs) ?_ fun a _ => h.saved a
  have hn := plain_swapping hpc
  have hst : storing (w.state.cpu c).pc = none := by rw [hid]; rfl
  simp only [recalled,hn]
  exact (h.saved c).moved hst hpc rfl rfl

lemma WatchOk.others (h : WatchOk w) (hun : Undisturbed w.state c) (timeout : Bool) {a : C}
    (hne : a ≠ c) : (w.state.cpu a).Saved
      (advance c timeout w.state.lock (w.state.cpu c)).1.didStopInterrupt (w.before a) := by
  obtain ⟨_,hin⟩ := h.inv
  cases hs : storing (w.state.cpu c).pc with
  | none =>
    rw [advance_didStop timeout hs]
    exact h.saved a
  | some iflag =>
    obtain rfl := (hin.holds c).mp (storing_holds (hin.wf c) hs)
    rw [advance_stored timeout hs]
    refine (h.saved a).other (hin.other hne) fun hpc => ?_
    exact (hun iflag hs).resolve_right fun ha => ha a hne hpc

lemma WatchOk.step (h : WatchOk w) (hs : Step w.state c s') (hun : Undisturbed w.state c) :
    WatchOk (w.next c s') := by
  cases hs with
  | lock hid => exact h.call hid rfl (.lock hid)
  | trylock hid => exact h.call hid rfl (.trylock hid)
  | unlock hid hh => exact h.call hid rfl (.unlock hid hh)
  | advance timeout =>
    obtain ⟨_,hin⟩ := h.inv
    exact watchOk_set (hin.step (.advance timeout)) (advance_saved (hin.local c) (h.saved c) timeout)
      fun a hne => h.others hun timeout hne

lemma watch_ok (h : Watch intr w) : WatchOk w := by
  induction h with
  | boot => exact watchOk_boot intr
  | step _ hs hun ih => exact ih.step hs hun

lemma WatchOk.undisturbed (h : WatchOk w) (hst : Step w.state c s')
    (hr : Restores (w.next c s')) : Undisturbed w.state c := by
  intro iflag hs
  by_contra hbad
  obtain ⟨hd,hal⟩ := not_or.mp hbad
  push Not at hal
  obtain ⟨a,hne,hpc⟩ := hal
  have hb : (w.state.cpu c).pc ≠ .idle := by
    intro hid
    rw [hid] at hs
    cases hs
  cases hst with
  | lock hid | trylock hid | unlock hid _ => exact hb hid
  | advance timeout =>
    obtain ⟨hdi,hin⟩ := (h.saved a).leave hpc
    have ha := hr a false
    simp only [Watched.next,State.set,update_of_ne hne] at ha
    have hl := ha hpc
    rw [advance_unlockIntr false hpc,hin,advance_stored timeout hs] at hl
    exact hd (hl.trans hdi.symm)

theorem unlock_restores_interrupts (intr : C → Bool) (w : Watched C) (h : Watch intr w) :
    Restores w ∧
    ∀ c s', Step w.state c s' → (Restores (w.next c s') ↔ Undisturbed w.state c) := by
  have hok := watch_ok h
  refine ⟨hok.restores,fun c s' hs => ⟨hok.undisturbed hs,fun hun => ?_⟩⟩
  exact (hok.step hs hun).restores

end

section
variable {w w' : Watched C} {c : C} {intr : C → Bool}

def Watches : Watched C → Watched C → Prop :=
  Relation.ReflTransGen fun w w' => ∃ c s', Step w.state c s' ∧ w' = w.next c s'

def Watched.advanced (c : C) (w : Watched C) : Watched C := w.next c (Sync.advanced c w.state)

def Watched.entered (w : Watched C) (c : C) : Watched C := w.next c (Sync.entered w.state c)

def Watched.leaving (w : Watched C) (c : C) : Watched C :=
  w.next c (w.state.set c w.state.lock {w.state.cpu c with pc := .unlockCheck})

lemma watches_advanced (n : ℕ) (h : Watches w w') : Watches w ((Watched.advanced c)^[n] w') := by
  induction n with
  | zero => exact h
  | succ n ih =>
    rw [iterate_succ_apply']
    exact ih.tail ⟨c,_,.advance false,rfl⟩

def alone (w : Watched C) (c : C) : Prop := ∀ a, a ≠ c → (w.state.cpu a).pc ≠ .unlockIntr

lemma watch_alone (h : Watch intr w) (ha : alone w c) {l' : SpinLock C} {p' : Cpu}
    (hs : Step w.state c (w.state.set c l' p')) :
    Watch intr (w.next c (w.state.set c l' p')) ∧ alone (w.next c (w.state.set c l' p')) c := by
  refine ⟨.step h hs fun _ _ => .inr ha,fun a hne => ?_⟩
  have hsa : ((w.next c (w.state.set c l' p')).state.cpu a) = w.state.cpu a :=
    State.set_other _ hne _ _
  rw [hsa]
  exact ha a hne

lemma watch_advanced (n : ℕ) (h : Watch intr w ∧ alone w c) :
    Watch intr ((Watched.advanced c)^[n] w) ∧ alone ((Watched.advanced c)^[n] w) c := by
  induction n with
  | zero => exact h
  | succ n ih =>
    rw [iterate_succ_apply']
    exact watch_alone ih.1 ih.2 (.advance false)

def armed : Watched Bool := .boot id

def taken : Watched Bool := (Watched.advanced true)^[6] (armed.entered true)

def returned : Watched Bool := (Watched.advanced true)^[4] (taken.leaving true)

def crossed : Watched Bool := (Watched.advanced false)^[5] (returned.entered false)

theorem unlock_restores_interrupts_returned : (returned.state.cpu true).pc = .unlockIntr ∧
    (armed.state.cpu true).intr = true ∧ (returned.state.cpu true).intr = false ∧
    (advance true false returned.state.lock (returned.state.cpu true)).2.intr = true := by
  have hb : Watch id armed ∧ alone armed true := ⟨.boot,fun _ _ => nofun⟩
  have ht := watch_advanced 6 (watch_alone hb.1 hb.2 (.lock rfl))
  have hr := watch_advanced 4 (watch_alone ht.1 ht.2 (.unlock rfl rfl))
  exact ⟨rfl,rfl,rfl,(unlock_restores_interrupts id returned hr.1).1 true false rfl⟩

theorem unlock_loses_interrupts : Watches armed crossed ∧ (armed.state.cpu true).intr = true ∧
    crossed.before true = true ∧ (crossed.state.cpu true).pc = .unlockIntr ∧
    (advance true false crossed.state.lock (crossed.state.cpu true)).2.intr = false := by
  have ht : Watches armed taken := watches_advanced 6 (.tail .refl ⟨true,_,.lock rfl,rfl⟩)
  have hr : Watches armed returned := watches_advanced 4 (ht.tail ⟨true,_,.unlock rfl rfl,rfl⟩)
  have hc : Watches armed crossed := watches_advanced 5 (hr.tail ⟨false,_,.lock rfl,rfl⟩)
  exact ⟨hc,rfl,rfl,rfl,rfl⟩

end

end Sync
