import Mathlib.Data.List.Range
import RaphKernel.Task.RunQueue

namespace Tasks
open Raph List

structure Lapic where
  ncpu : ℕ
  apicInfo : ℕ → BitVec 32

structure Caller where
  perCpu : Option CpuId
  apicId : BitVec 32

structure Wakeup where
  inspected : List ℤ
  ipis : List (BitVec 32)
  deriving DecidableEq, Repr

namespace Lapic

def getCpuIdFromApicId (l : Lapic) (apicId : BitVec 32) : Option CpuId :=
  (List.range l.ncpu).find? (fun n => apicId == l.apicInfo n)

def getApicIdFromCpuId (l : Lapic) (cpuid : CpuId) : Except Panic (BitVec 32) := do
  kassert (decide (cpuid < l.ncpu))
  return l.apicInfo cpuid

def getCpuId (l : Lapic) (k : Caller) : Except Panic CpuId :=
  match k.perCpu with
  | some cpuid => .ok cpuid
  | none =>
    match l.getCpuIdFromApicId k.apicId with
    | some cpuid => .ok cpuid
    | none => kernelPanic "CpuId" "Invalid ID"

def forceWakeup (l : Lapic) (state : ℤ → TaskQueueState) (k : Caller) (cpuid : CpuId) :
    Except Panic Wakeup := do
  let apicId ← l.getApicIdFromCpuId cpuid
  let rawCpuid := apicId.toInt
  if state rawCpuid = .slept then
    let cur ← l.getCpuId k
    return ⟨[rawCpuid],if (cur : ℤ) ≠ rawCpuid then [BitVec.ofInt 32 rawCpuid] else []⟩
  else
    return ⟨[rawCpuid],[]⟩

def taskStates (l : Lapic) (c : TaskCtrl) (stray : ℤ → TaskQueueState) (i : ℤ) : TaskQueueState :=
  if 0 ≤ i ∧ i < l.ncpu then c.state i.toNat else stray i

variable {l : Lapic} {k : Caller} {caller cpu : ℕ} {state : ℤ → TaskQueueState}

lemma getCpuId_of_unique (hc : caller < l.ncpu) (hno : k.perCpu = none)
    (hid : k.apicId = l.apicInfo caller)
    (hu : ∀ n < l.ncpu, l.apicInfo n = l.apicInfo caller → n = caller) :
    l.getCpuId k = .ok caller := by
  have hf : l.getCpuIdFromApicId k.apicId = some caller := by
    rw [getCpuIdFromApicId,hid,find?_eq_some_iff_append]
    refine ⟨by simp,range caller,(range (l.ncpu - caller - 1)).map (caller + 1 + ·),?_,?_⟩
    · have hs : l.ncpu = caller + (1 + (l.ncpu - caller - 1)) := by omega
      conv_lhs => rw [hs]
      rw [range_add,range_add]
      simp [Function.comp_def,Nat.add_assoc]
    · intro n hn
      have hlt := mem_range.mp hn
      have hne : l.apicInfo n ≠ l.apicInfo caller := fun he =>
        Nat.ne_of_lt hlt (hu n (hlt.trans hc) he)
      simpa using hne.symm
  rw [getCpuId,hno]
  simp only [hf]

lemma forceWakeup_eq (hc : cpu < l.ncpu) (hk : l.getCpuId k = .ok caller) :
    l.forceWakeup state k cpu = .ok ⟨[(l.apicInfo cpu).toInt],
      if state (l.apicInfo cpu).toInt = .slept ∧ (caller : ℤ) ≠ (l.apicInfo cpu).toInt then
        [l.apicInfo cpu] else []⟩ := by
  have hg : l.getApicIdFromCpuId cpu = .ok (l.apicInfo cpu) := by
    rw [getApicIdFromCpuId,decide_eq_true hc]
    rfl
  by_cases hs : state (l.apicInfo cpu).toInt = .slept
  · simp only [forceWakeup,hg,hk,bind,Except.bind,hs,true_and,BitVec.ofInt_toInt]
    rfl
  · simp only [forceWakeup,hg,bind,Except.bind,hs,false_and,if_false]
    rfl

structure WakesOnly (l : Lapic) (c : TaskCtrl) (caller cpuid : CpuId) (w : Wakeup) : Prop where
  inspected : w.inspected = [(cpuid : ℤ)]
  inside : ∀ i ∈ w.inspected, 0 ≤ i ∧ i < l.ncpu
  ipis : w.ipis = if c.state cpuid = .slept ∧ caller ≠ cpuid then [l.apicInfo cpuid] else []

theorem forceWakeup_iff (l : Lapic) (c : TaskCtrl) (stray : ℤ → TaskQueueState) (k : Caller)
    (caller cpuid : ℕ) (hcpu : cpuid < l.ncpu) (hk : l.getCpuId k = .ok caller) :
    (∃ w, l.forceWakeup (l.taskStates c stray) k cpuid = .ok w ∧ WakesOnly l c caller cpuid w) ↔
      (l.apicInfo cpuid).toInt = cpuid := by
  rw [forceWakeup_eq hcpu hk]
  constructor
  · rintro ⟨w,hw,ho⟩
    obtain rfl := Except.ok.inj hw
    exact singleton_inj.mp ho.inspected
  · intro hid
    have hin : (0 : ℤ) ≤ cpuid ∧ (cpuid : ℤ) < l.ncpu := by omega
    have hs : l.taskStates c stray cpuid = c.state cpuid := by
      rw [taskStates,if_pos hin,Int.toNat_natCast]
    refine ⟨_,rfl,⟨by rw [hid],fun i hi => ?_,?_⟩⟩
    · rw [mem_singleton.mp hi,hid]
      exact hin
    · simp only [hid,hs,ne_eq,Nat.cast_inj]

def spread : Lapic := ⟨2,fun n => if n = 0 then 0 else 2⟩

def sleepers : TaskCtrl := (blankCtrl.setup.setState 0 .slept).setState 1 .slept

lemma spread_boot : spread.getCpuId ⟨none,0⟩ = .ok 0 :=
  getCpuId_of_unique (by decide) rfl rfl (by decide)

theorem forceWakeup_iff_spread :
    ∃ w, spread.forceWakeup (spread.taskStates sleepers fun _ => .notStarted) ⟨some 1,2⟩ 0 = .ok w ∧
      WakesOnly spread sleepers 1 0 w :=
  (forceWakeup_iff spread sleepers (fun _ => .notStarted) ⟨some 1,2⟩ 1 0 (by decide) rfl).mpr
    (by decide)

theorem forceWakeup_outside : spread.getCpuId ⟨none,0⟩ = .ok 0 ∧ sleepers.state 1 = .slept ∧
    spread.forceWakeup (spread.taskStates sleepers fun _ => .notStarted) ⟨none,0⟩ 1 =
      .ok ⟨[2],[]⟩ ∧ ¬ (2 : ℤ) < spread.ncpu :=
  ⟨spread_boot,rfl,rfl,by decide⟩

end Lapic

end Tasks
