import RaphKernel.Library.Counting
import RaphKernel.Raph

namespace Cpu
open Raph Function List Counting

inductive CpuPurpose where
  | none
  | lowPriority
  | generalPurpose
  | highPerformance
  | cpuPurposesNum
  deriving DecidableEq, Repr

structure CpuCtrl where
  ncpu : ℕ
  purpose : ℕ → CpuPurpose
  count : ℕ → BitVec 32

def kCpuIdBootProcessor : ℕ := 0

namespace CpuCtrl

def init (ncpu : ℕ) : CpuCtrl :=
  ⟨ncpu,fun i => if i = 0 then .lowPriority else .none,fun _ => 0⟩

def cpuId (c : CpuCtrl) (newid : ℕ) : Except Panic ℕ :=
  if newid < c.ncpu then .ok newid else kernelPanic "CpuId" "Invalid ID"

def getCpuIdNotAssigned (c : CpuCtrl) : Option ℕ :=
  (List.range c.ncpu).find? fun i => c.purpose i == .none

def lessAssigned (c : CpuCtrl) (p : CpuPurpose) (acc : ℤ × Option ℕ) (i : ℕ) : ℤ × Option ℕ :=
  if c.purpose i = p ∧ (acc.1 = -1 ∨ (c.count i).toInt < acc.1) then ((c.count i).toInt,some i)
  else acc

def getCpuIdLessAssignedFor (c : CpuCtrl) (p : CpuPurpose) : Option ℕ :=
  ((List.range c.ncpu).foldl (c.lessAssigned p) (-1,Option.none)).2

def retainCpuId (c : CpuCtrl) (cpuid : ℕ) (p : CpuPurpose) : CpuCtrl :=
  let c := if c.purpose cpuid ≠ p then
      { c with
        purpose := update c.purpose cpuid p
        count := update c.count cpuid 0 }
    else c
  { c with count := update c.count cpuid (c.count cpuid + 1) }

def retainCpuIdForPurpose (c : CpuCtrl) (p : CpuPurpose) : Except Panic (ℕ × CpuCtrl) :=
  if p = .lowPriority then (c.cpuId kCpuIdBootProcessor).map fun id => (id,c)
  else
    match c.getCpuIdNotAssigned with
    | some cpuid => (c.cpuId cpuid).map fun id => (id,c.retainCpuId cpuid p)
    | Option.none =>
      match c.getCpuIdLessAssignedFor p with
      | some cpuid => (c.cpuId cpuid).map fun id => (id,c.retainCpuId cpuid p)
      | Option.none => (c.cpuId kCpuIdBootProcessor).map fun id => (id,c)

def releaseCpuId (c : CpuCtrl) (cpuid : ℕ) : Except Panic CpuCtrl :=
  (c.cpuId cpuid).map fun id =>
    let c := if 0 < (c.count id).toInt then
        { c with count := update c.count id (c.count id - 1) }
      else c
    if c.count id = 0 then { c with purpose := update c.purpose id .none } else c

def assignCpu (c : CpuCtrl) (i : ℕ) : CpuCtrl :=
  if c.purpose i = .none then c.retainCpuId i .generalPurpose else c

def assignCpusNotAssignedToGeneralPurpose (c : CpuCtrl) : CpuCtrl :=
  (List.range c.ncpu).foldl assignCpu c

end CpuCtrl

open CpuCtrl

structure Retain where
  cpuid : ℕ
  purpose : CpuPurpose
  deriving DecidableEq, Repr

structure System where
  ctrl : CpuCtrl
  held : List Retain
  assigned : List ℕ

namespace System

def retainers (s : System) (i : ℕ) : ℕ := s.held.countP (·.cpuid = i) + s.assigned.count i

def unassigned (s : System) : List ℕ :=
  (List.range s.ctrl.ncpu).filter fun i => s.ctrl.purpose i = .none

end System

open Cpu.System

inductive Action where
  | retain (p : CpuPurpose)
  | release (r : Retain)
  | assign
  deriving DecidableEq, Repr

inductive Step (s : System) : Action → System → Prop where
  | retain (p : CpuPurpose) {id : ℕ} {c' : CpuCtrl} :
    s.ctrl.retainCpuIdForPurpose p = .ok (id,c') →
    Step s (.retain p) ⟨c',⟨id,c'.purpose id⟩ :: s.held,s.assigned⟩
  | release (r : Retain) {c' : CpuCtrl} : r ∈ s.held → s.ctrl.releaseCpuId r.cpuid = .ok c' →
    Step s (.release r) ⟨c',s.held.erase r,s.assigned⟩
  | assign : Step s .assign
    ⟨s.ctrl.assignCpusNotAssignedToGeneralPurpose,s.held,s.unassigned ++ s.assigned⟩

def Sensible (s : System) : Action → Prop
  | .retain p => p ≠ .none ∧ ∀ i < s.ctrl.ncpu, (s.ctrl.count i).toNat + 1 < 2 ^ 31
  | .release r => r.cpuid ≠ kCpuIdBootProcessor
  | .assign => True

inductive Run (ncpu : ℕ) : System → Prop where
  | init : Run ncpu ⟨.init ncpu,[],[]⟩
  | step {s s' : System} {a : Action} : Run ncpu s → Step s a s' → Sensible s a → Run ncpu s'

section
variable {c c' : CpuCtrl} {p : CpuPurpose} {i id : ℕ}

lemma retainCpuId_eq (c : CpuCtrl) (i : ℕ) (p : CpuPurpose) : c.retainCpuId i p =
    { c with
      purpose := update c.purpose i p
      count := update c.count i (if c.purpose i ≠ p then 1 else c.count i + 1) } := by
  by_cases hp : c.purpose i = p
  · have hsame : update c.purpose i p = c.purpose := by
      rw [← hp,update_eq_self]
    simp [retainCpuId,hp,hsame]
  · simp [retainCpuId,hp]

lemma notAssigned_some (h : c.getCpuIdNotAssigned = some i) : i < c.ncpu ∧ c.purpose i = .none := by
  have hm := mem_of_find?_eq_some h
  have hnone := find?_some h
  exact ⟨mem_range.mp hm,beq_iff_eq.mp hnone⟩

lemma notAssigned_none (h : c.getCpuIdNotAssigned = Option.none) :
    ∀ i < c.ncpu, c.purpose i ≠ .none := by
  intro i hi hp
  have hall := find?_eq_none.mp h i (mem_range.mpr hi)
  rw [hp] at hall
  exact hall rfl

structure Least (c : CpuCtrl) (p : CpuPurpose) (k : ℕ) (acc : ℤ × Option ℕ) : Prop where
  missing : acc.2 = Option.none → acc.1 = -1 ∧ ∀ i < k, c.purpose i ≠ p
  found : ∀ i, acc.2 = some i → i < k ∧ c.purpose i = p

lemma Least.step {k : ℕ} {a : ℤ × Option ℕ} (h : Least c p k a) :
    Least c p (k + 1) (c.lessAssigned p a k) := by
  unfold lessAssigned
  split
  · rename_i hk
    refine ⟨nofun,fun i hi => ?_⟩
    obtain rfl : k = i := Option.some.inj hi
    exact ⟨Nat.lt_succ_self k,hk.1⟩
  · rename_i hk
    refine ⟨fun hnone => ?_,fun i hi => ?_⟩
    · obtain ⟨hm,hall⟩ := h.missing hnone
      refine ⟨hm,fun i hi hp => ?_⟩
      rcases Nat.lt_succ_iff_lt_or_eq.mp hi with hlt | rfl
      · exact hall i hlt hp
      · exact hk ⟨hp,.inl hm⟩
    · obtain ⟨hlt,hp⟩ := h.found i hi
      exact ⟨hlt.trans (Nat.lt_succ_self k),hp⟩

lemma least_fold (c : CpuCtrl) (p : CpuPurpose) (k : ℕ) :
    Least c p k ((List.range k).foldl (c.lessAssigned p) (-1,Option.none)) := by
  induction k with
  | zero => exact ⟨fun _ => ⟨rfl,nofun⟩,nofun⟩
  | succ k ih =>
    rw [List.range_succ,foldl_append]
    exact ih.step

lemma lessAssigned_some (h : c.getCpuIdLessAssignedFor p = some i) :
    i < c.ncpu ∧ c.purpose i = p := (least_fold c p c.ncpu).found i h

lemma lessAssigned_none (h : c.getCpuIdLessAssignedFor p = Option.none) :
    ∀ i < c.ncpu, c.purpose i ≠ p := ((least_fold c p c.ncpu).missing h).2

lemma cpuId_ok (hi : i < c.ncpu) : c.cpuId i = .ok i := if_pos hi

inductive Retained (c : CpuCtrl) (p : CpuPurpose) : ℕ → CpuCtrl → Prop where
  | boot (hboot : p = .lowPriority ∨ ∀ i < c.ncpu, c.purpose i ≠ .none ∧ c.purpose i ≠ p) :
    Retained c p kCpuIdBootProcessor c
  | fresh {i : ℕ} (hi : i < c.ncpu) (hp : p ≠ .lowPriority) (hnone : c.purpose i = .none) :
    Retained c p i (c.retainCpuId i p)
  | shared {i : ℕ} (hi : i < c.ncpu) (hp : p ≠ .lowPriority)
    (hall : ∀ j < c.ncpu, c.purpose j ≠ .none) (hsame : c.purpose i = p) :
    Retained c p i (c.retainCpuId i p)

lemma retain_retained (hpo : 0 < c.ncpu) (p : CpuPurpose) :
    ∃ id c', c.retainCpuIdForPurpose p = .ok (id,c') ∧ Retained c p id c' := by
  have hboot : c.cpuId kCpuIdBootProcessor = .ok kCpuIdBootProcessor := cpuId_ok hpo
  unfold retainCpuIdForPurpose
  by_cases hp : p = .lowPriority
  · rw [if_pos hp,hboot]
    exact ⟨_,_,rfl,.boot (.inl hp)⟩
  · rw [if_neg hp]
    cases hf : c.getCpuIdNotAssigned with
    | some i =>
      obtain ⟨hi,hnone⟩ := notAssigned_some hf
      simp only [cpuId_ok hi]
      exact ⟨_,_,rfl,.fresh hi hp hnone⟩
    | none =>
      have hall := notAssigned_none hf
      cases hl : c.getCpuIdLessAssignedFor p with
      | some i =>
        obtain ⟨hi,hsame⟩ := lessAssigned_some hl
        simp only [cpuId_ok hi]
        exact ⟨_,_,rfl,.shared hi hp hall hsame⟩
      | none =>
        simp only [hboot]
        exact ⟨_,_,rfl,.boot (.inr fun i hi => ⟨hall i hi,lessAssigned_none hl i hi⟩)⟩

lemma retained_of_ok (hpo : 0 < c.ncpu) (h : c.retainCpuIdForPurpose p = .ok (id,c')) :
    Retained c p id c' := by
  obtain ⟨i,d,hd,hr⟩ := retain_retained hpo p
  rw [h] at hd
  cases hd
  exact hr

lemma assignCpu_eq (c : CpuCtrl) (i : ℕ) : c.assignCpu i =
    { c with
      purpose := fun j => if j = i ∧ c.purpose j = .none then .generalPurpose else c.purpose j
      count := fun j => if j = i ∧ c.purpose j = .none then 1 else c.count j } := by
  unfold assignCpu
  split
  · rename_i hnone
    rw [retainCpuId_eq]
    congr 1
    · funext j
      rcases eq_or_ne j i with rfl | hj
      · simp [hnone]
      · simp [hj]
    · funext j
      rcases eq_or_ne j i with rfl | hj
      · simp [hnone]
      · simp [hj]
  · rename_i hs
    have hn : ∀ j, ¬ (j = i ∧ c.purpose j = .none) := by
      rintro j ⟨rfl,hj⟩
      exact hs hj
    simp only [hn,if_false]

lemma assign_fold (c : CpuCtrl) (k : ℕ) : (List.range k).foldl assignCpu c =
    { c with
      purpose := fun j => if j < k ∧ c.purpose j = .none then .generalPurpose else c.purpose j
      count := fun j => if j < k ∧ c.purpose j = .none then 1 else c.count j } := by
  induction k with
  | zero => simp
  | succ k ih =>
    rw [List.range_succ,foldl_append,ih,foldl_cons,foldl_nil,assignCpu_eq]
    congr 1
    · funext j
      rcases Nat.lt_trichotomy j k with hj | rfl | hj
      · simp [hj,hj.ne,Nat.lt_succ_of_lt hj]
      · simp
      · simp [hj.ne',Nat.not_lt_of_lt hj,Nat.not_lt_of_le hj]
    · funext j
      rcases Nat.lt_trichotomy j k with hj | rfl | hj
      · simp [hj,hj.ne,Nat.lt_succ_of_lt hj]
      · simp
      · simp [hj.ne',Nat.not_lt_of_lt hj,Nat.not_lt_of_le hj]

end

structure Ok (s : System) : Prop where
  pos : 0 < s.ctrl.ncpu
  boot : s.ctrl.purpose 0 = .lowPriority
  bootCount : s.ctrl.count 0 = 0
  counts : ∀ i < s.ctrl.ncpu, i ≠ 0 → (s.ctrl.count i).toNat = s.retainers i
  small : ∀ i < s.ctrl.ncpu, (s.ctrl.count i).toNat < 2 ^ 31
  held : ∀ r ∈ s.held, r.cpuid < s.ctrl.ncpu ∧ s.ctrl.purpose r.cpuid = r.purpose ∧ r.purpose ≠ .none
  assigned : ∀ i ∈ s.assigned, s.ctrl.purpose i = .generalPurpose

section
variable {s s' : System} {a : Action} {p : CpuPurpose} {i id : ℕ} {c' : CpuCtrl}

lemma ok_init {n : ℕ} (h : 0 < n) : Ok ⟨.init n,[],[]⟩ :=
  ⟨h,rfl,rfl,fun _ _ _ => rfl,fun _ _ => Nat.two_pow_pos 31,nofun,nofun⟩

lemma Ok.ne_boot (h : Ok s) (hp : s.ctrl.purpose i ≠ .lowPriority) : i ≠ 0 := by
  rintro rfl
  exact hp h.boot

section
variable (h : Ok s) (hi : s.ctrl.purpose i = .none)
include h hi

lemma Ok.unheld : ∀ r ∈ s.held, r.cpuid ≠ i := by
  rintro r hr rfl
  obtain ⟨-,hsame,hne⟩ := h.held r hr
  exact hne (hsame.symm.trans hi)

lemma Ok.unassigned : i ∉ s.assigned := by
  intro hm
  rw [h.assigned i hm] at hi
  cases hi

lemma Ok.retainers_zero : s.retainers i = 0 := by
  have hh : s.held.countP (·.cpuid = i) = 0 := by
    rw [countP_eq_zero]
    intro r hr
    simpa using h.unheld hi r hr
  rw [retainers,hh,List.count_eq_zero.mpr (h.unassigned hi)]

end

lemma retainers_cons (s : System) (c : CpuCtrl) (r : Retain) (i : ℕ) :
    (⟨c,r :: s.held,s.assigned⟩ : System).retainers i =
      s.retainers i + if r.cpuid = i then 1 else 0 := by
  simp only [retainers,countP_cons,decide_eq_true_eq]
  omega

lemma Ok.uncounted (h : Ok s) : Ok ⟨s.ctrl,⟨0,s.ctrl.purpose 0⟩ :: s.held,s.assigned⟩ := by
  refine ⟨h.pos,h.boot,h.bootCount,fun i hi hne => ?_,h.small,?_,h.assigned⟩
  · rw [retainers_cons,if_neg (Ne.symm hne),Nat.add_zero]
    exact h.counts i hi hne
  · intro r hr
    rcases mem_cons.mp hr with rfl | hr
    · exact ⟨h.pos,rfl,by rw [h.boot]; decide⟩
    · exact h.held r hr

lemma Ok.counted (h : Ok s) (hi : i < s.ctrl.ncpu) (hne : i ≠ 0) (hp : p ≠ .none)
    (hf : s.ctrl.purpose i = .none ∨ s.ctrl.purpose i = p)
    (hro : (s.ctrl.count i).toNat + 1 < 2 ^ 31) :
    Ok ⟨s.ctrl.retainCpuId i p,⟨i,p⟩ :: s.held,s.assigned⟩ := by
  have hn : (if s.ctrl.purpose i ≠ p then 1 else s.ctrl.count i + 1).toNat = s.retainers i + 1 := by
    by_cases hsame : s.ctrl.purpose i = p
    · rw [if_neg (not_not.mpr hsame),toNat_inc,h.counts i hi hne]
    · rw [if_pos hsame,h.retainers_zero (hf.resolve_right hsame)]
      rfl
  have hk : ∀ j, s.ctrl.purpose j ≠ .none → update s.ctrl.purpose i p j = s.ctrl.purpose j := by
    intro j hj
    rcases eq_or_ne j i with rfl | hji
    · rw [update_self,hf.resolve_left hj]
    · rw [update_of_ne hji]
  rw [retainCpuId_eq]
  refine ⟨h.pos,?_,?_,fun j hj hj0 => ?_,fun j hj => ?_,?_,?_⟩
  · exact (update_of_ne hne.symm _ _).trans h.boot
  · exact (update_of_ne hne.symm _ _).trans h.bootCount
  · rw [retainers_cons]
    change (update s.ctrl.count i _ j).toNat = _
    rcases eq_or_ne j i with rfl | hji
    · rw [if_pos rfl,update_self,hn]
    · rw [if_neg hji.symm,update_of_ne hji,h.counts j hj hj0,Nat.add_zero]
  · change (update s.ctrl.count i _ j).toNat < _
    rcases eq_or_ne j i with rfl | hji
    · rw [update_self,hn,← h.counts j hi hne]
      exact hro
    · rw [update_of_ne hji]
      exact h.small j hj
  · intro r hr
    rcases mem_cons.mp hr with rfl | hr
    · exact ⟨hi,update_self ..,hp⟩
    · obtain ⟨hlt,hsame,hnone⟩ := h.held r hr
      refine ⟨hlt,?_,hnone⟩
      exact (hk _ (by rw [hsame]; exact hnone)).trans hsame
  · intro j hj
    have hg := h.assigned j hj
    exact (hk j (by rw [hg]; decide)).trans hg

lemma Ok.retain (h : Ok s) (hre : Retained s.ctrl p id c') (hp : p ≠ .none)
    (hr : ∀ i < s.ctrl.ncpu, (s.ctrl.count i).toNat + 1 < 2 ^ 31) :
    Ok ⟨c',⟨id,c'.purpose id⟩ :: s.held,s.assigned⟩ := by
  have hpu : ∀ i, (s.ctrl.retainCpuId i p).purpose i = p := by
    intro i
    rw [retainCpuId_eq]
    exact update_self ..
  cases hre with
  | boot _ => exact h.uncounted
  | fresh hi hl hnone =>
    rw [hpu]
    exact h.counted hi (h.ne_boot (by rw [hnone]; decide)) hp (.inl hnone) (hr _ hi)
  | shared hi hl hall hsame =>
    rw [hpu]
    exact h.counted hi (h.ne_boot (by rw [hsame]; exact hl)) hp (.inr hsame) (hr _ hi)

lemma releaseCpuId_eq {c : CpuCtrl} (hi : i < c.ncpu) (hs : (c.count i).toNat < 2 ^ 31)
    (hne : c.count i ≠ 0) : c.releaseCpuId i = .ok
      { c with
        count := update c.count i (c.count i - 1)
        purpose := if c.count i - 1 = 0 then update c.purpose i .none else c.purpose } := by
  have hpo : 0 < (c.count i).toInt := by
    rw [BitVec.toInt_eq_toNat_of_lt (by omega)]
    exact_mod_cast toNat_pos hne
  rw [releaseCpuId,cpuId_ok hi]
  simp only [Except.map,if_pos hpo,update_self]
  split <;> rfl

lemma releaseCpuId_zero {c : CpuCtrl} (hi : i < c.ncpu) (hz : c.count i = 0) :
    c.releaseCpuId i = .ok { c with purpose := update c.purpose i .none } := by
  have hpo : ¬ 0 < (c.count i).toInt := by
    rw [hz]
    decide
  rw [releaseCpuId,cpuId_ok hi]
  simp only [Except.map,if_neg hpo,if_pos hz]

lemma retainers_erase {r : Retain} (hr : r ∈ s.held) (c : CpuCtrl) (i : ℕ) :
    (⟨c,s.held.erase r,s.assigned⟩ : System).retainers i =
      s.retainers i - if r.cpuid = i then 1 else 0 := by
  have hpo : r.cpuid = i → 0 < s.held.countP (·.cpuid = i) := by
    rintro rfl
    exact countP_pos_iff.mpr ⟨r,hr,by simp⟩
  simp only [retainers,countP_erase,hr,true_and,decide_eq_true_eq]
  split
  · rename_i he
    have hgt := hpo he
    omega
  · rfl

lemma Ok.count_pos (h : Ok s) {r : Retain} (hr : r ∈ s.held) (hne : r.cpuid ≠ 0) :
    s.ctrl.count r.cpuid ≠ 0 := by
  obtain ⟨hi,-,-⟩ := h.held r hr
  refine ne_zero_of_pos ?_
  rw [h.counts _ hi hne,retainers]
  have hpo : 0 < s.held.countP (·.cpuid = r.cpuid) := countP_pos_iff.mpr ⟨r,hr,by simp⟩
  omega

lemma Ok.release (h : Ok s) {r : Retain} (hr : r ∈ s.held) (hne : r.cpuid ≠ 0) :
    ∃ c', s.ctrl.releaseCpuId r.cpuid = .ok c' ∧ Ok ⟨c',s.held.erase r,s.assigned⟩ := by
  obtain ⟨hi,hsame,-⟩ := h.held r hr
  have hcn := h.count_pos hr hne
  have hd : (s.ctrl.count r.cpuid - 1).toNat = s.retainers r.cpuid - 1 := by
    rw [toNat_dec hcn,h.counts _ hi hne]
  refine ⟨_,releaseCpuId_eq hi (h.small _ hi) hcn,?_⟩
  have hk : ∀ j, (j = r.cpuid → 1 < s.retainers j) →
      (if s.ctrl.count r.cpuid - 1 = 0 then update s.ctrl.purpose r.cpuid .none
        else s.ctrl.purpose) j = s.ctrl.purpose j := by
    intro j hj
    split
    · rename_i hz
      refine update_of_ne ?_ _ _
      rintro rfl
      have hm := hj rfl
      rw [hz] at hd
      change 0 = _ at hd
      omega
    · rfl
  refine ⟨h.pos,?_,?_,fun j hj hj0 => ?_,fun j hj => ?_,fun x hx => ?_,fun j hj => ?_⟩
  · exact (hk 0 fun he => absurd he hne.symm).trans h.boot
  · exact (update_of_ne hne.symm _ _).trans h.bootCount
  · rw [retainers_erase hr]
    change (update s.ctrl.count r.cpuid _ j).toNat = _
    rcases eq_or_ne j r.cpuid with rfl | hji
    · rw [if_pos rfl,update_self,hd]
    · rw [if_neg hji.symm,update_of_ne hji,h.counts j hj hj0,Nat.sub_zero]
  · have hs := h.small j hj
    change (update s.ctrl.count r.cpuid _ j).toNat < _
    rcases eq_or_ne j r.cpuid with rfl | hji
    · rw [update_self,toNat_dec hcn]
      omega
    · rwa [update_of_ne hji]
  · obtain ⟨hlt,hpu,hnone⟩ := h.held x (mem_of_mem_erase hx)
    refine ⟨hlt,(hk _ fun he => ?_).trans hpu,hnone⟩
    have hl : 0 < (s.held.erase r).countP (·.cpuid = r.cpuid) :=
      countP_pos_iff.mpr ⟨x,hx,by simp [he]⟩
    have her := retainers_erase hr s.ctrl r.cpuid
    rw [if_pos rfl] at her
    have hge : 0 < (⟨s.ctrl,s.held.erase r,s.assigned⟩ : System).retainers r.cpuid :=
      Nat.add_pos_left hl _
    rw [he]
    omega
  · have hg := h.assigned j hj
    refine (hk j fun he => ?_).trans hg
    have hc : 0 < s.assigned.count j := count_pos_iff.mpr hj
    have hh : 0 < s.held.countP (·.cpuid = j) := countP_pos_iff.mpr ⟨r,hr,by simp [he]⟩
    rw [retainers]
    omega

lemma Ok.assign (h : Ok s) :
    Ok ⟨s.ctrl.assignCpusNotAssignedToGeneralPurpose,s.held,s.unassigned ++ s.assigned⟩ := by
  have hf : ∀ i, s.ctrl.purpose i ≠ .none → ¬ (i < s.ctrl.ncpu ∧ s.ctrl.purpose i = .none) :=
    fun i hi hb => hi hb.2
  have hboot := hf 0 (by rw [h.boot]; decide)
  rw [assignCpusNotAssignedToGeneralPurpose,assign_fold]
  refine ⟨h.pos,?_,?_,fun i hi hne => ?_,fun i hi => ?_,fun r hr => ?_,fun i hi => ?_⟩
  · exact (if_neg hboot).trans h.boot
  · exact (if_neg hboot).trans h.bootCount
  · have hs : (⟨s.ctrl,s.held,s.unassigned ++ s.assigned⟩ : System).retainers i =
        s.retainers i + s.unassigned.count i := by
      simp only [retainers,count_append]
      omega
    refine Eq.trans ?_ hs.symm
    by_cases hnone : s.ctrl.purpose i = .none
    · have ho : s.unassigned.count i = 1 := by
        rw [System.unassigned,count_filter (by simpa using hnone)]
        exact count_eq_one_of_mem nodup_range (mem_range.mpr hi)
      rw [ho,h.retainers_zero hnone]
      exact congrArg BitVec.toNat (if_pos ⟨hi,hnone⟩)
    · have hz : s.unassigned.count i = 0 := by
        rw [List.count_eq_zero,System.unassigned,mem_filter]
        rintro ⟨-,hb⟩
        exact hnone (by simpa using hb)
      rw [hz,Nat.add_zero,← h.counts i hi hne]
      exact congrArg BitVec.toNat (if_neg (hf i hnone))
  · change (if _ then _ else _ : BitVec 32).toNat < _
    split
    · decide
    · exact h.small i hi
  · obtain ⟨hlt,hsame,hne⟩ := h.held r hr
    refine ⟨hlt,(if_neg (hf _ ?_)).trans hsame,hne⟩
    rw [hsame]
    exact hne
  · rcases mem_append.mp hi with hi | hi
    · obtain ⟨hlt,hnone⟩ := mem_filter.mp hi
      exact if_pos ⟨mem_range.mp hlt,by simpa using hnone⟩
    · have hg := h.assigned i hi
      exact (if_neg (hf i (by rw [hg]; decide))).trans hg

lemma Ok.step (h : Ok s) (hst : Step s a s') (hs : Sensible s a) : Ok s' := by
  cases hst with
  | retain p hok => exact h.retain (retained_of_ok h.pos hok) hs.1 hs.2
  | release r hr hok =>
    obtain ⟨c',hc,hre⟩ := h.release hr hs
    rw [hok] at hc
    cases hc
    exact hre
  | assign => exact h.assign

lemma ok_run {n : ℕ} (hn : 0 < n) (h : Run n s) : Ok s ∧ s.ctrl.ncpu = n := by
  induction h with
  | init => exact ⟨ok_init hn,rfl⟩
  | step _ hs hsa ih =>
    refine ⟨ih.1.step hs hsa,?_⟩
    cases hs with
    | retain p hok =>
      cases retained_of_ok ih.1.pos hok with
      | boot _ => exact ih.2
      | fresh _ _ _ | shared _ _ _ _ => exact (congrArg CpuCtrl.ncpu (retainCpuId_eq ..)).trans ih.2
    | release r hr hok =>
      obtain ⟨hi,-,-⟩ := ih.1.held r hr
      rw [releaseCpuId_eq hi (ih.1.small _ hi) (ih.1.count_pos hr hsa)] at hok
      exact (congrArg CpuCtrl.ncpu (Except.ok.inj hok)).symm.trans ih.2
    | assign => exact (congrArg CpuCtrl.ncpu (assign_fold ..)).trans ih.2

lemma Ok.high (h : Ok s) (hok : s.ctrl.retainCpuIdForPurpose .highPerformance = .ok (id,c'))
    (hf : ∃ i < s.ctrl.ncpu, s.ctrl.purpose i = .none) :
    s.ctrl.purpose id = .none ∧ c'.purpose id = .highPerformance ∧ ∀ r ∈ s.held, r.cpuid ≠ id := by
  obtain ⟨i,hi,hnone⟩ := hf
  cases retained_of_ok h.pos hok with
  | boot hboot =>
    exact absurd hnone (hboot.resolve_left CpuPurpose.noConfusion i hi).1
  | fresh _ _ hid =>
    refine ⟨hid,?_,h.unheld hid⟩
    rw [retainCpuId_eq]
    exact update_self ..
  | shared _ _ hall _ => exact absurd hnone (hall i hi)

lemma Ok.retain_valid (h : Ok s) (p : CpuPurpose) :
    ∃ id c', s.ctrl.retainCpuIdForPurpose p = .ok (id,c') ∧ id < s.ctrl.ncpu ∧
      (c'.purpose id = p ∨ id = kCpuIdBootProcessor ∧
        ∀ i < s.ctrl.ncpu, s.ctrl.purpose i ≠ .none ∧ s.ctrl.purpose i ≠ p) := by
  obtain ⟨id,c',hok,hr⟩ := retain_retained h.pos p
  refine ⟨id,c',hok,?_⟩
  cases hr with
  | boot hboot =>
    refine ⟨h.pos,?_⟩
    rcases hboot with rfl | hnone
    · exact .inl h.boot
    · exact .inr ⟨rfl,hnone⟩
  | fresh hi _ _ | shared hi _ _ _ =>
    rw [retainCpuId_eq]
    exact ⟨hi,.inl (update_self ..)⟩

lemma Ok.release_boot (h : Ok s) {r : Retain} (hr : r ∈ s.held)
    (hok : s.ctrl.releaseCpuId r.cpuid = .ok c') :
    c'.purpose kCpuIdBootProcessor = .lowPriority ↔ r.cpuid ≠ kCpuIdBootProcessor := by
  constructor
  · intro hl hboot
    have hz : s.ctrl.releaseCpuId kCpuIdBootProcessor = _ := releaseCpuId_zero h.pos h.bootCount
    rw [hboot,hz] at hok
    obtain rfl := Except.ok.inj hok
    have hnone : update s.ctrl.purpose 0 .none 0 = .none := update_self ..
    cases hnone.symm.trans hl
  · intro hne
    obtain ⟨d,hd,hre⟩ := h.release hr hne
    rw [hok] at hd
    cases hd
    exact hre.boot

theorem cpuCtrl_run (ncpu : ℕ) (s : System) (hn : 0 < ncpu) (h : Run ncpu s) :
    s.ctrl.purpose kCpuIdBootProcessor = .lowPriority ∧
    (∀ r ∈ s.held, r.cpuid < ncpu ∧ s.ctrl.purpose r.cpuid = r.purpose) ∧
    (∀ i ∈ s.assigned, s.ctrl.purpose i = .generalPurpose) ∧
    (∀ p, ∃ id c', s.ctrl.retainCpuIdForPurpose p = .ok (id,c') ∧ id < ncpu ∧
      (c'.purpose id = p ∨ id = kCpuIdBootProcessor ∧
        ∀ i < ncpu, s.ctrl.purpose i ≠ .none ∧ s.ctrl.purpose i ≠ p)) ∧
    (∀ id c', s.ctrl.retainCpuIdForPurpose .highPerformance = .ok (id,c') →
      (∃ i < ncpu, s.ctrl.purpose i = .none) →
      s.ctrl.purpose id = .none ∧ c'.purpose id = .highPerformance ∧ ∀ r ∈ s.held, r.cpuid ≠ id) ∧
    ∀ r ∈ s.held, ∀ c', s.ctrl.releaseCpuId r.cpuid = .ok c' →
      (c'.purpose kCpuIdBootProcessor = .lowPriority ↔ r.cpuid ≠ kCpuIdBootProcessor) := by
  obtain ⟨hok,rfl⟩ := ok_run hn h
  refine ⟨hok.boot,fun r hr => ?_,hok.assigned,hok.retain_valid,fun id c' => hok.high,
    fun r hr c' => hok.release_boot hr⟩
  obtain ⟨hi,hsame,-⟩ := hok.held r hr
  exact ⟨hi,hsame⟩

end

theorem cpuCtrl_run_pair : ∃ s, Run 2 s ∧ s.held = [⟨1,.highPerformance⟩] ∧
    s.ctrl.purpose kCpuIdBootProcessor = .lowPriority ∧ s.ctrl.purpose 1 = .highPerformance := by
  have hr : Run 2 ⟨(CpuCtrl.init 2).retainCpuId 1 .highPerformance,[⟨1,.highPerformance⟩],[]⟩ :=
    .step .init (.retain .highPerformance rfl) ⟨by decide,fun _ _ => show 0 + 1 < 2 ^ 31 by decide⟩
  obtain ⟨hboot,hh,-⟩ := cpuCtrl_run 2 _ (by decide) hr
  exact ⟨_,hr,rfl,hboot,(hh _ mem_cons_self).2⟩

theorem releaseCpuId_boot_lost : ∃ s s' : System,
    Step ⟨.init 2,[],[]⟩ (.retain .lowPriority) s ∧ s.held = [⟨kCpuIdBootProcessor,.lowPriority⟩] ∧
    Step s (.release ⟨kCpuIdBootProcessor,.lowPriority⟩) s' ∧
    s'.ctrl.purpose kCpuIdBootProcessor = .none :=
  ⟨_,_,.retain .lowPriority rfl,rfl,.release _ (by simp [CpuCtrl.init,kCpuIdBootProcessor]) rfl,rfl⟩

end Cpu
