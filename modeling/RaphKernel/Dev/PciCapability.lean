import Mathlib.Data.Fintype.EquivFin
import RaphKernel.Library.Bytes
import RaphKernel.Library.LoopReach
import RaphKernel.Raph

namespace Pci
open Raph Bytes Loop Relation BitVec

abbrev ConfigSpace := ℕ → Byte

def readPciReg8 (cfg : ConfigSpace) (reg : BitVec 16) : Byte := cfg (reg &&& 0xfff).toNat

def readPciReg16 (cfg : ConfigSpace) (reg : BitVec 16) : BitVec 16 :=
  cfg ((reg &&& 0xfff).toNat + 1) ++ cfg (reg &&& 0xfff).toNat

def kMsi : Byte := 0x05

def kPcie : Byte := 0x10

def kStatusReg : BitVec 16 := 0x06

def kHeaderTypeReg : BitVec 16 := 0x0E

def kCapPtrReg : BitVec 16 := 0x34

def kCapRegId : BitVec 16 := 0x0

def kCapRegNext : BitVec 16 := 0x1

def kStatusRegFlagCapListAvailable : BitVec 16 := 1 <<< 4

def kHeaderTypeRegMaskDeviceType : Byte := 0x7f

def kHeaderTypeRegValueDeviceTypeNormal : Byte := 0x00

def kHeaderTypeRegValueDeviceTypeBridge : Byte := 0x01

def capId (cfg : ConfigSpace) (ptr : Byte) : Byte := readPciReg8 cfg (ptr.setWidth 16 + kCapRegId)

def capNext (cfg : ConfigSpace) (ptr : Byte) : Byte :=
  readPciReg8 cfg (ptr.setWidth 16 + kCapRegNext)

def capBody (cfg : ConfigSpace) (id ptr : Byte) : Sum Byte (BitVec 16) :=
  if ptr = 0 then .inr 0
  else if capId cfg ptr = id then .inr (ptr.setWidth 16)
  else .inl (capNext cfg ptr)

def deviceType (cfg : ConfigSpace) : Byte :=
  readPciReg8 cfg kHeaderTypeReg &&& kHeaderTypeRegMaskDeviceType

def NormalOrBridge (cfg : ConfigSpace) : Prop :=
  deviceType cfg = kHeaderTypeRegValueDeviceTypeNormal ∨
  deviceType cfg = kHeaderTypeRegValueDeviceTypeBridge

instance (cfg : ConfigSpace) : Decidable (NormalOrBridge cfg) :=
  inferInstanceAs (Decidable (_ ∨ _))

def findCapability (fuel : ℕ) (cfg : ConfigSpace) (id : Byte) : Option (Except Panic (BitVec 16)) :=
  if readPciReg16 cfg kStatusReg ||| kStatusRegFlagCapListAvailable = 0 then some (.ok 0)
  else if NormalOrBridge cfg then
    (iterate (capBody cfg id) fuel (readPciReg8 cfg kCapPtrReg)).map .ok
  else some (.error .kassert)

def CapListAvailable (cfg : ConfigSpace) : Prop :=
  readPciReg16 cfg kStatusReg &&& kStatusRegFlagCapListAvailable ≠ 0

def Follows (cfg : ConfigSpace) (p q : Byte) : Prop := p ≠ 0 ∧ capNext cfg p = q

def Reachable (cfg : ConfigSpace) (p : Byte) : Prop :=
  p ≠ 0 ∧ ReflTransGen (Follows cfg) (readPciReg8 cfg kCapPtrReg) p

def Passes (cfg : ConfigSpace) (id p q : Byte) : Prop := Follows cfg p q ∧ capId cfg p ≠ id

structure First (cfg : ConfigSpace) (id p : Byte) : Prop where
  nonzero : p ≠ 0
  match_id : capId cfg p = id
  passed : ReflTransGen (Passes cfg id) (readPciReg8 cfg kCapPtrReg) p

def Circular (cfg : ConfigSpace) (id : Byte) : Prop :=
  ∃ p, ReflTransGen (Passes cfg id) (readPciReg8 cfg kCapPtrReg) p ∧ TransGen (Passes cfg id) p p

def Absent (cfg : ConfigSpace) (id : Byte) : Prop := ∀ p, Reachable cfg p → capId cfg p ≠ id

structure Finds (cfg : ConfigSpace) (id : Byte) (r : BitVec 16) : Prop where
  zero_iff : r = 0 ↔ ¬ CapListAvailable cfg ∨ Absent cfg id
  first : r ≠ 0 → ∃ p, First cfg id p ∧ r = p.setWidth 16

section
variable {cfg : ConfigSpace} {id p q : Byte} {r : BitVec 16}

lemma steps_eq (cfg : ConfigSpace) (id : Byte) : Steps (capBody cfg id) = Passes cfg id := by
  funext p q
  simp only [Steps,capBody,Passes,Follows]
  split_ifs <;> simp_all

lemma cycles_iff : Cycles (capBody cfg id) (readPciReg8 cfg kCapPtrReg) ↔ Circular cfg id := by
  rw [Cycles,Circular,steps_eq]

lemma setWidth_eq_zero : p.setWidth 16 = (0 : BitVec 16) ↔ p = 0 := by
  constructor
  · intro h
    have hlt := p.isLt
    have hz : p.toNat % 2 ^ 16 = 0 := by simpa using congrArg BitVec.toNat h
    apply BitVec.eq_of_toNat_eq
    rwa [Nat.mod_eq_of_lt (by omega)] at hz
  · rintro rfl
    rfl

lemma loop_returns_iff : Returns (capBody cfg id) (readPciReg8 cfg kCapPtrReg) r ↔
    r = 0 ∧ ReflTransGen (Passes cfg id) (readPciReg8 cfg kCapPtrReg) 0 ∨
      ∃ p, First cfg id p ∧ r = p.setWidth 16 := by
  rw [returns_iff_reaches,steps_eq]
  constructor
  · rintro ⟨p,hp,he⟩
    unfold capBody at he
    split_ifs at he with hz hid
    · exact .inl ⟨(Sum.inr.inj he).symm,hz ▸ hp⟩
    · exact .inr ⟨p,⟨hz,hid,hp⟩,(Sum.inr.inj he).symm⟩
  · rintro (⟨rfl,hp⟩ | ⟨p,hp,rfl⟩)
    · exact ⟨0,hp,rfl⟩
    · exact ⟨p,hp.passed,by rw [capBody,if_neg hp.nonzero,if_pos hp.match_id]⟩

lemma First.reachable (h : First cfg id p) : Reachable cfg p :=
  ⟨h.nonzero,ReflTransGen.mono (fun _ _ => And.left) _ _ h.passed⟩

lemma passed_absent (h : ReflTransGen (Passes cfg id) q 0) :
    ∀ p, p ≠ 0 → ReflTransGen (Follows cfg) q p → capId cfg p ≠ id := by
  induction h using ReflTransGen.head_induction_on with
  | refl =>
    intro p hp hr
    rcases hr.cases_head with rfl | ⟨_,hs,_⟩
    · exact absurd rfl hp
    · exact absurd rfl hs.1
  | head hs _ ih =>
    intro p hp hr
    rcases hr.cases_head with rfl | ⟨_,hn,hr⟩
    · exact hs.2
    · rw [← hn.2,hs.1.2] at hr
      exact ih p hp hr

lemma loop_zero_iff (h : Returns (capBody cfg id) (readPciReg8 cfg kCapPtrReg) r) :
    r = 0 ↔ Absent cfg id := by
  rcases loop_returns_iff.mp h with ⟨hr,hpa⟩ | ⟨p,hp,hr⟩
  · exact iff_of_true hr fun p hp => passed_absent hpa p hp.1 hp.2
  · refine iff_of_false (fun hz => ?_) fun ha => ha p hp.reachable hp.match_id
    exact hp.nonzero (setWidth_eq_zero.mp (hr.symm.trans hz))

end

section
variable {cfg : ConfigSpace} {id : Byte} {r : BitVec 16}

lemma status_nonzero (cfg : ConfigSpace) :
    readPciReg16 cfg kStatusReg ||| kStatusRegFlagCapListAvailable ≠ 0 := by
  intro h
  have hb := congrArg (fun x : BitVec 16 => x.getLsbD 4) h
  rw [getLsbD_or] at hb
  exact absurd (Bool.or_eq_false_iff.mp hb).2 (by decide)

lemma findCapability_yields (hd : NormalOrBridge cfg) :
    Yields (fun fuel => findCapability fuel cfg id) (.ok r) ↔
      Returns (capBody cfg id) (readPciReg8 cfg kCapPtrReg) r := by
  have hf : (fun fuel => findCapability fuel cfg id) = fun fuel =>
      (iterate (capBody cfg id) fuel (readPciReg8 cfg kCapPtrReg)).map Except.ok := by
    funext fuel
    rw [findCapability,if_neg (status_nonzero cfg),if_pos hd]
  rw [hf]
  constructor
  · intro h
    obtain ⟨n,hn⟩ := h.returns
    obtain ⟨q,hq,heq⟩ := Option.map_eq_some_iff.mp hn
    cases heq
    exact ⟨n,hq⟩
  · exact fun h => (yields_of_returns h).map Except.ok

lemma byte_finite : Finite Byte := Finite.of_injective toFin fun _ _ => eq_of_toFin_eq

theorem findCapability_finds_iff (cfg : ConfigSpace) (id : Byte) (hdevice : NormalOrBridge cfg) :
    (∃ r, Yields (fun fuel => findCapability fuel cfg id) (.ok r) ∧ Finds cfg id r) ↔
      ¬ Circular cfg id ∧ (CapListAvailable cfg ∨ Absent cfg id) := by
  simp only [findCapability_yields hdevice]
  constructor
  · rintro ⟨r,hr,hf⟩
    refine ⟨fun hc => (cycles_iff.mpr hc).diverges hr,?_⟩
    have hif := hf.zero_iff.symm.trans (loop_zero_iff hr)
    tauto
  · rintro ⟨ha,_⟩
    have hfi := byte_finite
    obtain ⟨r,hr⟩ := returns_of_acyclic (mt cycles_iff.mp ha)
    refine ⟨r,hr,?_,fun hne => ?_⟩
    · rw [loop_zero_iff hr]
      tauto
    · exact (loop_returns_iff.mp hr).resolve_left fun hz => hne hz.1

def msiDevice (status next : Byte) : ConfigSpace
  | 0x06 => status
  | 0x34 => 0x40
  | 0x40 => kPcie
  | 0x41 => next
  | 0x50 => kMsi
  | _ => 0

theorem findCapability_misses :
    NormalOrBridge (msiDevice 0x10 0x40) ∧ NormalOrBridge (msiDevice 0 0x50) ∧
    (∀ fuel, findCapability fuel (msiDevice 0x10 0x40) kMsi = none) ∧
    ¬ CapListAvailable (msiDevice 0 0x50) ∧
    findCapability 2 (msiDevice 0 0x50) kMsi = some (.ok 0x50) := by
  have hd : NormalOrBridge (msiDevice 0x10 0x40) := .inl rfl
  have hf : capBody (msiDevice 0x10 0x40) kMsi 0x40 = .inl 0x40 := rfl
  refine ⟨hd,.inl rfl,fun fuel => ?_,fun h => h rfl,rfl⟩
  rw [findCapability,if_neg (status_nonzero _),if_pos hd,Option.map_eq_none_iff]
  cases hr : iterate _ fuel
      (readPciReg8 _ kCapPtrReg) with
  | none => rfl
  | some r => exact absurd ⟨fuel,hr⟩ (diverges_of_fixed hf r)

theorem findCapability_finds_msi : NormalOrBridge (msiDevice 0x10 0x50) ∧
    ∃ r, Yields (fun fuel => findCapability fuel (msiDevice 0x10 0x50) kMsi) (.ok r) ∧
      Finds (msiDevice 0x10 0x50) kMsi r := by
  have hr : Returns (capBody (msiDevice 0x10 0x50) kMsi)
      (readPciReg8 (msiDevice 0x10 0x50) kCapPtrReg) 0x50 := ⟨2,rfl⟩
  have ha : ¬ Circular (msiDevice 0x10 0x50) kMsi := fun hc => (cycles_iff.mpr hc).diverges hr
  exact ⟨.inl rfl,(findCapability_finds_iff _ kMsi (.inl rfl)).mpr
    ⟨ha,.inl (by unfold CapListAvailable; decide)⟩⟩

end

end Pci
