import RaphKernel.Raph

namespace AcpiOs
open Raph List

structure Semaphore where
  max : ℕ
  cur : ℕ

namespace Semaphore

def create (max cur : ℕ) : Except Panic Semaphore := do
  kassert (max ≥ cur)
  return ⟨max,cur⟩

def acquire (s : Semaphore) : Option Semaphore :=
  if s.cur > 0 then some { s with cur := s.cur - 1 } else none

def tryacquire (s : Semaphore) : Bool × Semaphore :=
  if s.cur = 0 then (false,s) else (true,{ s with cur := s.cur - 1 })

def release (s : Semaphore) : Except Panic Semaphore := do
  kassert (s.cur < s.max)
  return { s with cur := s.cur + 1 }

def poll (s : Semaphore) : ℕ → Bool × Semaphore
  | 0 => (false,s)
  | n + 1 => if s.tryacquire.1 then s.tryacquire else poll s.tryacquire.2 n

def wait (s : Semaphore) (_units timeout polls : ℕ) : Option (Bool × Semaphore) :=
  if timeout = 0 then some s.tryacquire
  else if timeout > 0 then some (s.poll polls)
  else s.acquire.map (true,·)

def signal (s : Semaphore) : ℕ → Except Panic Semaphore
  | 0 => .ok s
  | units + 1 => do signal (← s.release) units

abbrev Free (s : Semaphore) (timeout polls : ℕ) : Prop := s.cur > 0 ∧ (timeout = 0 ∨ polls > 0)

lemma poll_eq (s : Semaphore) (n : ℕ) : s.poll n = if n = 0 then (false,s) else s.tryacquire := by
  induction n with
  | zero => rfl
  | succ n ih =>
    by_cases hc : s.cur = 0
    · have ht : s.tryacquire = (false,s) := if_pos hc
      simp [poll,ht,ih]
    · simp [poll,tryacquire,hc]

lemma wait_eq (s : Semaphore) (units timeout polls : ℕ) :
    s.wait units timeout polls = some (if s.Free timeout polls
      then (true,{ s with cur := s.cur - 1 }) else (false,s)) := by
  by_cases hz : timeout = 0
  · by_cases hc : s.cur = 0 <;> simp [wait,Free,tryacquire,hz,hc,Nat.pos_iff_ne_zero]
  · rw [wait,if_neg hz,if_pos (Nat.pos_of_ne_zero hz),poll_eq]
    by_cases hc : s.cur = 0 <;> by_cases hp : polls = 0 <;>
      simp [Free,tryacquire,hz,hc,hp,Nat.pos_iff_ne_zero]

lemma signal_eq {s : Semaphore} {units : ℕ} (h : s.cur + units ≤ s.max) :
    s.signal units = .ok { s with cur := s.cur + units } := by
  induction units generalizing s with
  | zero => rfl
  | succ n ih =>
    have hr : s.release = .ok { s with cur := s.cur + 1 } := by
      simp [release,kassert,bind,Except.bind,pure,Except.pure,show s.cur < s.max by omega]
    have hs := ih (s := { s with cur := s.cur + 1 }) (by simp only; omega)
    rw [signal,hr]
    refine hs.trans ?_
    simp only [Except.ok.injEq,mk.injEq,true_and]
    omega

end Semaphore

inductive Call where
  | wait (units timeout polls : ℕ)
  | signal (units : ℕ)

structure Session where
  semaphore : Semaphore
  held : ℕ

namespace Session

def step (s : Session) : Call → Option Session
  | .wait units timeout polls => (s.semaphore.wait units timeout polls).map fun (ok,semaphore) =>
    ⟨semaphore,if ok then s.held + units else s.held⟩
  | .signal units => match s.semaphore.signal units with
    | .ok semaphore => some ⟨semaphore,s.held - units⟩
    | .error _ => none

def Permitted (s : Session) : Call → Prop
  | .wait .. => True
  | .signal units => units ≤ s.held

def Counted (s : Session) : Call → Prop
  | .wait units timeout polls => ∃ ok t, s.semaphore.wait units timeout polls = some (ok,t) ∧
    t.cur + (if ok then units else 0) = s.semaphore.cur ∧ (timeout = 0xFFFF → ok = true)
  | .signal units => ∃ t, s.semaphore.signal units = .ok t ∧ t.cur = s.semaphore.cur + units

def Single (s : Session) : Call → Prop
  | .wait units timeout polls => (s.semaphore.Free timeout polls → units = 1) ∧
    (timeout = 0xFFFF → s.semaphore.Free timeout polls)
  | .signal _ => True

def Steps (s t : Session) : Prop := ∃ c, s.Permitted c ∧ s.Single c ∧ s.step c = some t

def Conserved (initial : ℕ) (s : Session) : Prop :=
  s.semaphore.cur + s.held = initial ∧ initial ≤ s.semaphore.max

variable {s t : Session} {initial : ℕ} {c : Call}

lemma Conserved.signal {units : ℕ} (h : s.Conserved initial) (hu : units ≤ s.held) :
    s.semaphore.signal units = .ok { s.semaphore with cur := s.semaphore.cur + units } :=
  Semaphore.signal_eq (by unfold Conserved at h; omega)

lemma Conserved.counted_iff (h : s.Conserved initial) (hc : s.Permitted c) :
    s.Counted c ↔ s.Single c := by
  cases c with
  | signal units => exact iff_of_true ⟨_,h.signal hc,rfl⟩ trivial
  | wait units timeout polls =>
    simp only [Counted,Single,Semaphore.wait_eq]
    by_cases hf : s.semaphore.Free timeout polls
    · have hp := hf.1
      rw [if_pos hf]
      simp
      omega
    · simp [hf]

lemma Conserved.step (h : s.Conserved initial) (hs : s.Steps t) : t.Conserved initial := by
  obtain ⟨c,hc,hi,hs⟩ := hs
  cases c with
  | signal units =>
    simp only [Session.step,h.signal hc,Option.some.injEq] at hs
    subst hs
    unfold Conserved Permitted at *
    simp only
    omega
  | wait units timeout polls =>
    simp only [Session.step,Semaphore.wait_eq,Option.map_some,Option.some.injEq] at hs
    subst hs
    unfold Single Conserved at *
    split
    · rename_i hf
      have hp := hf.1
      have hu := hi.1 hf
      simp only [if_true]
      omega
    · exact h

end Session

theorem semaphore_counted {max initial : ℕ} {b : Semaphore} (hb : Semaphore.create max initial = .ok b)
    {s : Session} (hr : Relation.ReflTransGen Session.Steps ⟨b,0⟩ s) :
    s.semaphore.cur + s.held = initial ∧ ∀ c, s.Permitted c → (s.Counted c ↔ s.Single c) := by
  obtain ⟨hm,hb⟩ := kassert_bind_ok.mp hb
  cases hb
  have h : s.Conserved initial := by
    induction hr with
    | refl => exact ⟨rfl,of_decide_eq_true hm⟩
    | tail _ hs ih => exact ih.step hs
  exact ⟨h.1,fun c hc => h.counted_iff hc⟩

theorem semaphore_counted_single : Semaphore.create 1 1 = .ok ⟨1,1⟩ ∧
    Session.Counted ⟨⟨1,0⟩,1⟩ (.signal 1) := by
  have hs : Session.Steps ⟨⟨1,1⟩,0⟩ ⟨⟨1,0⟩,1⟩ :=
    ⟨.wait 1 0 0,trivial,⟨fun _ => rfl,by simp⟩,rfl⟩
  have hb : Semaphore.create 1 1 = .ok ⟨1,1⟩ := rfl
  exact ⟨hb,((semaphore_counted hb (.single hs)).2 (.signal 1) le_rfl).mpr trivial⟩

theorem semaphore_miscounts : ∃ s, Semaphore.create 2 2 = .ok ⟨2,2⟩ ∧
    Session.step ⟨⟨2,2⟩,0⟩ (.wait 2 0 0) = some s ∧ s.semaphore.cur = 1 ∧ s.held = 2 ∧
    s.semaphore.signal 2 = .error .kassert ∧
    Semaphore.wait ⟨1,0⟩ 1 0xFFFF 3 = some (false,⟨1,0⟩) :=
  ⟨⟨⟨2,1⟩,2⟩,rfl,rfl,rfl,rfl,rfl,rfl⟩

section
variable {H : Type}

structure AcpiIntHandler (H : Type) where
  func : Option H
  vector : ℤ

abbrev Handlers (H : Type) := List (AcpiIntHandler H)

def acpiOsInitialize (handler : Handlers H) : Handlers H :=
  handler.map fun slot => { slot with func := none }

def boot : Handlers H := acpiOsInitialize (replicate 10 ⟨none,0⟩)

def Handlers.installInterruptHandler (handler : Handlers H) (call : H × ℤ) : Handlers H :=
  handler.map fun slot => if slot.func.isNone then ⟨some call.1,call.2⟩ else slot

def Handlers.handlerSub (handler : Handlers H) (n : ℤ) : Option (Option H) :=
  (handler.find? fun slot => n = slot.vector).map (·.func)

def installed (calls : List (H × ℤ)) : Handlers H := calls.foldl Handlers.installInterruptHandler boot

def OneSlot (handler : Handlers H) (call : H × ℤ) : Prop :=
  ∃ i vector, handler[i]? = some ⟨none,vector⟩ ∧
    handler.installInterruptHandler call = handler.set i ⟨some call.1,call.2⟩

def Separate (calls : List (H × ℤ)) : Prop :=
  ∀ pre call, pre ++ [call] <+: calls → OneSlot (installed pre) call

def Dispatched (calls : List (H × ℤ)) : Prop :=
  ∀ call ∈ calls, (installed calls).handlerSub call.2 = some (some call.1)

lemma installed_cons (call : H × ℤ) (calls : List (H × ℤ)) :
    installed (call :: calls) = replicate 10 ⟨some call.1,call.2⟩ := by
  have hf (c : List (H × ℤ)) : c.foldl Handlers.installInterruptHandler (replicate 10 ⟨some call.1,call.2⟩) =
      replicate 10 ⟨some call.1,call.2⟩ := by
    induction c with
    | nil => rfl
    | cons c cs ih => exact ih
  exact hf calls

lemma not_oneSlot (call : H × ℤ) : ¬ OneSlot boot call := by
  rintro ⟨i,v,-,h⟩
  cases i with
  | zero => cases congrArg (·[1]?) h
  | succ i => cases congrArg (·[0]?) h

theorem handlers_installed_iff (calls : List (H × ℤ)) :
    (Separate calls ∧ Dispatched calls ↔ calls = []) ∧
    (Dispatched calls ↔ ∀ call ∈ calls, calls.head? = some call) := by
  cases calls with
  | nil => simp [Separate,Dispatched]
  | cons c cs =>
    refine ⟨iff_of_false (fun h => not_oneSlot c (h.1 [] c ⟨cs,rfl⟩)) (cons_ne_nil c cs),?_⟩
    unfold Dispatched
    refine forall₂_congr fun call _ => ?_
    rw [installed_cons]
    by_cases hv : call.2 = c.2
    · rw [Handlers.handlerSub,find?_replicate_of_length_pos (by decide)]
      simp [hv,Prod.ext_iff]
    · simp [Handlers.handlerSub,replicate_succ,hv,Prod.ext_iff,Ne.symm hv]

theorem handlers_overwritten :
    let handler : Handlers ℕ := installed [(1,64),(2,65)]
    ¬ OneSlot boot (1,64) ∧ handler = replicate 10 ⟨some 1,64⟩ ∧ handler.handlerSub 65 = none :=
  ⟨not_oneSlot _,rfl,rfl⟩

end
end AcpiOs
