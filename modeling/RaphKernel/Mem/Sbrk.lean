import RaphKernel.Mem.AddressSpace

namespace Sbrk
open Raph Physmem AddressSpace BitVec Nat

def kLinearAddrOffset : Word := 0xffffffff80000000

def kHeapEndAddr : Word := 0xfffffffff0000000

structure VirtmemCtrl where
  heapLimit : Word
  brkEnd : Word
  heapAllocatedEnd : Word
  table : Table

def VirtmemCtrl.new (physMemoryEnd : Word) (table : Table) : Except Panic VirtmemCtrl := do
  let brkEnd := kLinearAddrOffset + physMemoryEnd
  let heapAllocatedEnd := kLinearAddrOffset + 0x600000
  kassert (decide (brkEnd < heapAllocatedEnd))
  return ⟨kHeapEndAddr,brkEnd,heapAllocatedEnd,table⟩

def VirtmemCtrl.sbrk (v : VirtmemCtrl) (increment : Word) (paddr : Except Panic Word) :
    Except Panic (Word × VirtmemCtrl) :=
  let brkEnd := v.brkEnd + increment
  if v.heapAllocatedEnd < brkEnd then
    let newHeapAllocatedEnd := alignUp brkEnd kPageSize
    if newHeapAllocatedEnd ≤ v.heapLimit then do
      kassert (v.heapAllocatedEnd == align v.heapAllocatedEnd kPageSize)
      let psize := newHeapAllocatedEnd - v.heapAllocatedEnd
      let addr ← paddr
      let (flag,table) ← mapPhysAddrToVirtAddr v.table v.heapAllocatedEnd addr psize
      kassert flag
      return (v.brkEnd,⟨v.heapLimit,brkEnd,newHeapAllocatedEnd,table⟩)
    else .error .kassert
  else .ok (v.brkEnd,{v with brkEnd})

structure Sound (start : Word) (v : VirtmemCtrl) : Prop where
  brk : v.brkEnd ≤ v.heapAllocatedEnd
  limit : v.heapAllocatedEnd ≤ v.heapLimit
  mapped : ∀ a, start ≤ a → a < v.heapAllocatedEnd → Mapped v.table a

def Granted (v v' : VirtmemCtrl) (increment : Word) : Prop :=
  0 < increment.toInt → v.brkEnd.toNat + increment.toNat ≤ v.heapLimit.toNat ∧
    ∀ a, v.brkEnd ≤ a → a.toNat < v.brkEnd.toNat + increment.toNat → Mapped v'.table a

def Stays (start : Word) (v : VirtmemCtrl) (increment : Word) : Prop :=
  (v.heapAllocatedEnd < v.brkEnd + increment → (v.brkEnd + increment).toNat ≤ 2 ^ 64 - 4096) ∧
  (0 < increment.toInt → v.brkEnd.toNat + increment.toNat < 2 ^ 64 ∧
    ∀ a, v.brkEnd ≤ a → a < start → a.toNat < v.brkEnd.toNat + increment.toNat → Mapped v.table a)

structure Call where
  increment : Word
  paddr : Except Panic Word

def Holds (start : Word) : VirtmemCtrl → List Call → Prop
  | v, [] => Sound start v
  | v, call :: calls => Sound start v ∧ ∀ old v', v.sbrk call.increment call.paddr = .ok (old,v') →
    old = v.brkEnd ∧ Granted v v' call.increment ∧ Holds start v' calls

def Within (start : Word) : VirtmemCtrl → List Call → Prop
  | _, [] => True
  | v, call :: calls => ∀ old v', v.sbrk call.increment call.paddr = .ok (old,v') →
    Stays start v call.increment ∧ Within start v' calls

section
variable {v v' : VirtmemCtrl} {start inc old : Word} {paddr : Except Panic Word}

inductive Outcome (v : VirtmemCtrl) (increment : Word) (v' : VirtmemCtrl) : Prop where
  | kept (hbrk : v.brkEnd + increment ≤ v.heapAllocatedEnd)
    (hv' : v' = {v with brkEnd := v.brkEnd + increment})
  | grown (table : Table) (addr : Word) (hbrk : v.heapAllocatedEnd < v.brkEnd + increment)
    (hlimit : alignUp (v.brkEnd + increment) kPageSize ≤ v.heapLimit)
    (haligned : 4096 ∣ v.heapAllocatedEnd.toNat)
    (hmap : mapPhysAddrToVirtAddr v.table v.heapAllocatedEnd addr
      (alignUp (v.brkEnd + increment) kPageSize - v.heapAllocatedEnd) = .ok (true,table))
    (hv' : v' = ⟨v.heapLimit,v.brkEnd + increment,alignUp (v.brkEnd + increment) kPageSize,table⟩)

lemma sbrk_outcome (h : v.sbrk inc paddr = .ok (old,v')) :
    old = v.brkEnd ∧ Outcome v inc v' := by
  unfold VirtmemCtrl.sbrk at h
  by_cases hbrk : v.heapAllocatedEnd < v.brkEnd + inc
  · by_cases hlimit : alignUp (v.brkEnd + inc) kPageSize ≤ v.heapLimit
    · simp only [if_pos hbrk,if_pos hlimit,bind_ok,kassert_ok,aligned_iff] at h
      obtain ⟨_,haligned,addr,_,⟨flag,table⟩,hmap,_,rfl,hr⟩ := h
      cases hr
      exact ⟨rfl,.grown table addr hbrk hlimit haligned hmap rfl⟩
    · simp [hbrk,hlimit] at h
  · simp only [if_neg hbrk] at h
    cases h
    exact ⟨rfl,.kept (BitVec.not_lt.mp hbrk) rfl⟩

lemma newEnd_toNat {brk : Word} (h : brk.toNat ≤ 2 ^ 64 - 4096) :
    brk.toNat ≤ (alignUp brk kPageSize).toNat ∧ 4096 ∣ (alignUp brk kPageSize).toNat := by
  have hd : 2 ^ 12 ∣ 2 ^ 64 - 4096 := ⟨2 ^ 52 - 1,by norm_num⟩
  have hle := roundUp_le_of_dvd (Nat.two_pow_pos 12) h hd
  have hlt : roundUp brk.toNat (2 ^ 12) < 2 ^ 64 := by omega
  have heq : (alignUp brk kPageSize).toNat = roundUp brk.toNat (2 ^ 12) :=
    alignUp_toNat (k := 12) (by norm_num) hlt
  rw [heq]
  exact ⟨roundUp_ge _ _,roundUp_dvd _ _⟩

lemma newEnd_overflow {brk : Word} (h : ¬ brk.toNat ≤ 2 ^ 64 - 4096) : alignUp brk kPageSize = 0 := by
  refine alignUp_overflow (k := 12) (by norm_num) ?_
  have hge := roundUp_ge brk.toNat (2 ^ 12)
  have hd : 4096 ∣ roundUp brk.toNat (2 ^ 12) := roundUp_dvd _ _
  omega

lemma grown_mapped {table : Table} {addr lo hi : Word} (hlo : 4096 ∣ lo.toNat)
    (hhi : 4096 ∣ hi.toNat) (hle : lo ≤ hi)
    (hmap : mapPhysAddrToVirtAddr v.table lo addr (hi - lo) = .ok (true,table)) (a : Word) :
    (lo ≤ a → a < hi → Mapped table a) ∧ (a < lo → (Mapped table a ↔ Mapped v.table a)) := by
  obtain ⟨_,_,hl⟩ := mapPhysAddr_true hmap
  have hs := toNat_sub_of_le hle
  have hh := hi.isLt
  rw [le_def] at hle
  have hf := mapLoop_true hlo (by omega) hl
  have hp : pageOf lo + (hi - lo).toNat / 4096 = pageOf hi := by
    unfold pageOf
    omega
  rw [le_def,lt_def,lt_def]
  refine ⟨fun h1 h2 => ?_,fun h1 => ?_⟩
  · have hin := hf.inside (pageOf a) (Nat.div_le_div_right h1) (by rw [hp]; unfold pageOf; omega)
    rw [Mapped,hin]
    rfl
  · have ho := hf.outside (pageOf a) (.inl (by unfold pageOf; omega))
    rw [Mapped,Mapped,ho]

lemma brk_toNat (h : v.brkEnd.toNat + inc.toNat < 2 ^ 64) :
    (v.brkEnd + inc).toNat = v.brkEnd.toNat + inc.toNat := by
  rw [toNat_add,mod_eq_of_lt h]

lemma Stays.of_granted (hs : start ≤ v.heapAllocatedEnd)
    (ho : Outcome v inc v') (hg : Granted v v' inc) (hs' : Sound start v') :
    Stays start v inc := by
  have hlimit := v.heapLimit.isLt
  cases ho with
  | kept hbrk hv' =>
    subst hv'
    refine ⟨fun hgr => absurd hbrk (BitVec.not_le.mpr hgr),fun hp => ?_⟩
    obtain ⟨he,hm⟩ := hg hp
    exact ⟨by omega,fun a hlo _ hhi => hm a hlo hhi⟩
  | grown table addr hbrk _ haligned hmap hv' =>
    subst hv'
    have hf : (v.brkEnd + inc).toNat ≤ 2 ^ 64 - 4096 := by
      by_contra hover
      have hbr' := hs'.brk
      simp only [newEnd_overflow hover] at hbr'
      exact hover (Nat.le_trans hbr' (Nat.zero_le _))
    refine ⟨fun _ => hf,fun hp => ?_⟩
    obtain ⟨_,hm⟩ := hg hp
    obtain ⟨_,hd⟩ := newEnd_toNat hf
    have hle : v.heapAllocatedEnd ≤ alignUp (v.brkEnd + inc) kPageSize := by
      rw [lt_def] at hbrk
      rw [le_def]
      omega
    refine ⟨by omega,fun a hlo hb hhi => ?_⟩
    exact ((grown_mapped haligned hd hle hmap a).2 (Nat.lt_of_lt_of_le hb hs)).mp (hm a hlo hhi)

lemma Stays.sound (hs : Sound start v) (hst : start ≤ v.heapAllocatedEnd)
    (ho : Outcome v inc v') (hc : Stays start v inc) :
    Granted v v' inc ∧ Sound start v' ∧ start ≤ v'.heapAllocatedEnd := by
  cases ho with
  | kept hbrk hv' =>
    subst hv'
    refine ⟨fun hp => ?_,⟨hbrk,hs.limit,hs.mapped⟩,hst⟩
    obtain ⟨hf,hb⟩ := hc.2 hp
    have hlimit := hs.limit
    have hn := brk_toNat hf
    rw [le_def] at hbrk hlimit
    refine ⟨by omega,fun a hlo hhi => ?_⟩
    rcases lt_or_ge a.toNat start.toNat with hl | hh
    · exact hb a hlo hl hhi
    · exact hs.mapped a hh (lt_def.mpr (by omega))
  | grown table addr hbrk hlimit haligned hmap hv' =>
    subst hv'
    obtain ⟨hge,hd⟩ := newEnd_toNat (hc.1 hbrk)
    have hg : v.heapAllocatedEnd ≤ alignUp (v.brkEnd + inc) kPageSize := by
      rw [lt_def] at hbrk
      rw [le_def]
      omega
    have hm := grown_mapped haligned hd hg hmap
    have hso : ∀ a, start ≤ a → a < alignUp (v.brkEnd + inc) kPageSize → Mapped table a := by
      intro a hlo hhi
      rcases lt_or_ge a.toNat v.heapAllocatedEnd.toNat with hol | hne
      · exact ((hm a).2 hol).mpr (hs.mapped a hlo hol)
      · exact (hm a).1 hne hhi
    refine ⟨fun hp => ?_,⟨le_def.mpr hge,hlimit,hso⟩,BitVec.le_trans hst hg⟩
    obtain ⟨hf,hb⟩ := hc.2 hp
    have hn := brk_toNat hf
    rw [le_def] at hlimit
    refine ⟨by omega,fun a hlo hhi => ?_⟩
    rcases lt_or_ge a.toNat start.toNat with hl | hh
    · exact ((hm a).2 (hl.trans_le hst)).mpr (hb a hlo hl hhi)
    · exact hso a hh (lt_def.mpr (by omega))

lemma holds_iff (start : Word) (calls : List Call) : ∀ {v : VirtmemCtrl}, Sound start v →
    start ≤ v.heapAllocatedEnd → (Holds start v calls ↔ Within start v calls) := by
  induction calls with
  | nil => exact fun hs _ => ⟨fun _ => trivial,fun _ => hs⟩
  | cons call calls ih =>
    intro v hs hst
    constructor
    · rintro ⟨_,ha⟩ old v' hc
      obtain ⟨_,hg,hr⟩ := ha old v' hc
      have hs' : Sound start v' := by
        cases calls with
        | nil => exact hr
        | cons _ _ => exact hr.1
      have hsa := Stays.of_granted hst (sbrk_outcome hc).2 hg hs'
      exact ⟨hsa,(ih hs' (hsa.sound hs hst (sbrk_outcome hc).2).2.2).mp hr⟩
    · intro ha
      refine ⟨hs,fun old v' hc => ?_⟩
      obtain ⟨hol,ho⟩ := sbrk_outcome hc
      obtain ⟨hsa,hr⟩ := ha old v' hc
      obtain ⟨hg,hs',hst'⟩ := hsa.sound hs hst ho
      exact ⟨hol,hg,(ih hs' hst').mpr hr⟩

end

section
variable {top : Word} {table : Table} {v : VirtmemCtrl}

lemma new_sound (hn : VirtmemCtrl.new top table = .ok v)
    (hb : ∀ a, v.brkEnd ≤ a → a < kLinearAddrOffset + 0x600000 → Mapped table a) :
    Sound v.brkEnd v ∧ v.brkEnd ≤ v.heapAllocatedEnd := by
  simp only [VirtmemCtrl.new,kassert_bind_ok,decide_eq_true_eq] at hn
  obtain ⟨hlt,hr⟩ := hn
  cases hr
  have hlimit : kLinearAddrOffset + 0x600000 ≤ kHeapEndAddr := by decide
  exact ⟨⟨BitVec.le_of_lt hlt,hlimit,hb⟩,BitVec.le_of_lt hlt⟩

theorem sbrk_run (physMemoryEnd : Word) (table : Table) (v : VirtmemCtrl)
    (hnew : VirtmemCtrl.new physMemoryEnd table = .ok v)
    (hboot : ∀ a, v.brkEnd ≤ a → a < kLinearAddrOffset + 0x600000 → Mapped table a)
    (calls : List Call) : Holds v.brkEnd v calls ↔ Within v.brkEnd v calls :=
  holds_iff v.brkEnd calls (new_sound hnew hboot).1 (new_sound hnew hboot).2

end

def bootTable : Table := fun p =>
  if 0xffffffff80000 ≤ p ∧ p < 0xffffffff80600 then some (p - 0xffffffff80000) else none

def bootVirtmem : VirtmemCtrl := ⟨kHeapEndAddr,0xffffffff80400000,0xffffffff80600000,bootTable⟩

lemma bootTable_mapped (a : Word) (hlo : bootVirtmem.brkEnd ≤ a)
    (hhi : a < kLinearAddrOffset + 0x600000) : Mapped bootTable a := by
  have hlo' : 0xffffffff80400000 ≤ a.toNat := hlo
  have hhi' : a.toNat < 0xffffffff80600000 := hhi
  have hp : 0xffffffff80000 ≤ pageOf a ∧ pageOf a < 0xffffffff80600 := by
    unfold pageOf
    omega
  rw [Mapped,bootTable,if_pos hp]
  rfl

def heapCalls : List Call := [⟨0x200000,.ok 0x600000⟩,⟨0x1000,.ok 0x600000⟩,⟨-0x1000,.ok 0x600000⟩]

theorem sbrk_run_boot : VirtmemCtrl.new 0x400000 bootTable = .ok bootVirtmem ∧
    (∀ a, bootVirtmem.brkEnd ≤ a → a < kLinearAddrOffset + 0x600000 → Mapped bootTable a) ∧
    (Holds bootVirtmem.brkEnd bootVirtmem heapCalls ↔
      Within bootVirtmem.brkEnd bootVirtmem heapCalls) :=
  ⟨rfl,bootTable_mapped,sbrk_run 0x400000 bootTable bootVirtmem rfl bootTable_mapped heapCalls⟩

theorem sbrk_wraps : VirtmemCtrl.new 0x400000 bootTable = .ok bootVirtmem ∧
    bootVirtmem.sbrk 0x7fc00000 (.ok 0x600000) =
      .ok (0xffffffff80400000,{bootVirtmem with brkEnd := 0}) ∧
    (0x7fc00000 : Word).toInt = 0x7fc00000 ∧ bootTable (pageOf 0xffffffff80600000) = none ∧
    ¬ Holds bootVirtmem.brkEnd bootVirtmem [⟨0x7fc00000,.ok 0x600000⟩] := by
  refine ⟨rfl,rfl,by decide,by decide,?_⟩
  rintro ⟨_,hc⟩
  obtain ⟨_,hg,_⟩ := hc _ _ rfl
  exact absurd (hg (by decide)).1 (by decide)

end Sbrk
