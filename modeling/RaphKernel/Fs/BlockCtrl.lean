import Mathlib.Order.CompletePartialOrder
import RaphKernel.Fs.V6fs

namespace Fs.BlockCtrl
open Bytes Fallible BitVec Nat List

def bitmapByte (sb : SuperBlock) (b : ℕ) : ℕ := sb.bmapstart.toNat * 512 + b / 8

def InUse (sb : SuperBlock) (m : ℕ → Byte) (b : ℕ) : Prop :=
  (m (bitmapByte sb b)).getLsbD (b % 8) = true

def imageSize (sb : SuperBlock) : ℕ := 512 * sb.size.toNat

def bitmap (sb : SuperBlock) : Set ℕ :=
  Set.Ico (sb.bmapstart.toNat * 512) (sb.bmapstart.toNat * 512 + (sb.size.toNat + 7) / 8)

def Consistent (sb : SuperBlock) : Prop :=
  sb.bmapstart.toNat * 512 + (sb.size.toNat + 7) / 8 ≤ imageSize sb

instance (sb : SuperBlock) : Decidable (Consistent sb) := inferInstanceAs (Decidable (_ ≤ _))

instance (sb : SuperBlock) (m : ℕ → Byte) (b : ℕ) : Decidable (InUse sb m b) :=
  inferInstanceAs (Decidable (_ = _))

def block (b : ℕ) : Set ℕ := Set.Ico (512 * b) (512 * b + 512)

def cleared (k : ℕ) : Set ℕ :=
  Set.Ico (blockOffset (BitVec.ofNat 32 (8 * k))) (blockOffset (BitVec.ofNat 32 (8 * k)) + 2048)

structure Granted (sb : SuperBlock) (m m' : ℕ → Byte) (b : ℕ) : Prop where
  below : b < sb.size.toNat
  free : ¬ InUse sb m b
  bit : m' (bitmapByte sb b) = m (bitmapByte sb b) ||| twoPow 8 (b % 8)
  zeroed : ∀ i ∈ block b, m' i = 0
  frame : ∀ i < imageSize sb, i ∉ block b → i ≠ bitmapByte sb b → m' i = m i

def AllocGood (sb : SuperBlock) (m : ℕ → Byte) (r : Except Failure Word32) (m' : ℕ → Byte) : Prop :=
  (∃ b, r = .ok b ∧ Granted sb m m' b.toNat) ∨
    r = .error (.state .errNoHwResource) ∧ (∀ b < sb.size.toNat, InUse sb m b) ∧
      ∀ i < imageSize sb, m' i = m i

structure FirstByte (sb : SuperBlock) (m : ℕ → Byte) (k : ℕ) : Prop where
  below : 8 * k < sb.size.toNat
  full : ∀ j < k, m (sb.bmapstart.toNat * 512 + j) = 0xff
  bit : ¬ InUse sb m (8 * k)
  address : bitmapByte sb (8 * k) < 2 ^ 32
  apart : bitmapByte sb (8 * k) ∉ cleared k ∪ block (8 * k)
  zero : ∀ i < imageSize sb, i ∈ symmDiff (cleared k) (block (8 * k)) → m i = 0

def flagAt (sb : SuperBlock) (m : ℕ → Byte) (k : ℕ) : Byte :=
  m (bitmapOffset sb (BitVec.ofNat 32 (8 * k)))

structure AllFull (sb : SuperBlock) (m : ℕ → Byte) : Prop where
  size : sb.size.toNat ≤ 2 ^ 32 - 8
  full : ∀ k, 8 * k < sb.size.toNat → flagAt sb m k = 0xff
  used : ∀ b < sb.size.toNat, InUse sb m b

def Allocatable (sb : SuperBlock) (m : ℕ → Byte) : Prop := (∃ k, FirstByte sb m k) ∨ AllFull sb m

lemma firstClear_none {flag : Byte} : firstClear flag = none ↔ flag = 0xff := by
  revert flag
  decide +kernel

lemma firstClear_zero {flag : Byte} (h : flag.getLsbD 0 = false) : firstClear flag = some 0 := by
  revert flag
  decide +kernel

section
variable {sb : SuperBlock} {st : Storage} {fuel k n bi : ℕ}

lemma ofNat_lt (hk : 8 * k < sb.size.toNat) : BitVec.ofNat 32 (8 * k) < sb.size := by
  have hs := sb.size.isLt
  rw [lt_def,toNat_ofNat,mod_eq_of_lt (by omega)]
  exact hk

lemma ofNat_next (k : ℕ) : BitVec.ofNat 32 (8 * k) + 8 = BitVec.ofNat 32 (8 * (k + 1)) := by
  rw [Nat.mul_add,ofNat_add]
  rfl

lemma clearBlock_ok (hw : st.Working) (index : Word32) : clearBlock index st =
    (.ok (),(st.put (blockOffset index) (List.replicate (4 * blockSize) 0)).tick) :=
  Storage.write_ok (hw ..)

section
variable (hw : st.Working) (hk : 8 * k < sb.size.toNat)
include hw hk

lemma allocLoop_read : allocLoop sb (fuel + 1) (BitVec.ofNat 32 (8 * k)) st =
      (match firstClear (flagAt sb st.bytes k) with
      | some bi => do
        Storage.write (bitmapOffset sb (BitVec.ofNat 32 (8 * k)))
          [flagAt sb st.bytes k ||| (1 : Byte) <<< bi]
        clearBlock (BitVec.ofNat 32 (8 * k))
        pure (BitVec.ofNat 32 (8 * k))
      | none => allocLoop sb fuel (BitVec.ofNat 32 (8 * k) + 8) : Io Word32) st.tick := by
  rw [allocLoop,if_pos (ofNat_lt hk),bind_of_ok (Storage.read_ok (hw ..))]
  rfl

lemma allocLoop_skip (hf : flagAt sb st.bytes k = 0xff) :
    allocLoop sb (fuel + 1) (BitVec.ofNat 32 (8 * k)) st =
      allocLoop sb fuel (BitVec.ofNat 32 (8 * (k + 1))) st.tick := by
  rw [allocLoop_read hw hk,firstClear_none.mpr hf,ofNat_next]

lemma allocLoop_take (hb : firstClear (flagAt sb st.bytes k) = some bi) :
    allocLoop sb (fuel + 1) (BitVec.ofNat 32 (8 * k)) st = (.ok (BitVec.ofNat 32 (8 * k)),
      ((st.tick.put (bitmapOffset sb (BitVec.ofNat 32 (8 * k)))
        [flagAt sb st.bytes k ||| (1 : Byte) <<< bi]).tick.put (blockOffset (BitVec.ofNat 32 (8 * k)))
        (List.replicate (4 * blockSize) 0)).tick) := by
  rw [allocLoop_read hw hk,hb]
  dsimp only
  rw [bind_of_ok (Storage.write_ok (hw.tick ..)),bind_of_ok (clearBlock_ok hw.tick.put.tick _)]
  rfl

end

lemma allocLoop_found (hw : st.Working) (hn : 8 * n < sb.size.toNat)
    (hb : firstClear (flagAt sb st.bytes n) = some bi) {d : ℕ} (hd : k + d = n)
    (hf : ∀ j, k ≤ j → j < n → flagAt sb st.bytes j = 0xff) (hfuel : d < fuel) :
    ∃ st', allocLoop sb fuel (BitVec.ofNat 32 (8 * k)) st =
      (.ok (BitVec.ofNat 32 (8 * n)),st') ∧ st'.status = st.status ∧
      st'.bytes = overwrite (overwrite st.bytes (bitmapOffset sb (BitVec.ofNat 32 (8 * n)))
        [flagAt sb st.bytes n ||| (1 : Byte) <<< bi]) (blockOffset (BitVec.ofNat 32 (8 * n)))
        (List.replicate (4 * blockSize) 0) := by
  induction d generalizing k fuel st with
  | zero =>
    obtain ⟨fuel,rfl⟩ := exists_eq_succ_of_ne_zero hfuel.ne'
    obtain rfl : k = n := hd
    exact ⟨_,allocLoop_take hw hn hb,rfl,rfl⟩
  | succ d ih =>
    obtain ⟨fuel,rfl⟩ := exists_eq_succ_of_ne_zero (Nat.ne_of_gt (zero_lt_of_lt hfuel))
    rw [allocLoop_skip hw (by omega) (hf k le_rfl (by omega))]
    exact ih hw.tick hb (by omega) (fun j hj => hf j (by omega)) (by omega)

lemma allocLoop_end (hs : sb.size.toNat ≤ 2 ^ 32 - 8) (hl : 8 * k < sb.size.toNat + 8)
    (hk : sb.size.toNat ≤ 8 * k) : allocLoop sb (fuel + 1) (BitVec.ofNat 32 (8 * k)) st =
      (.error (.state .errNoHwResource),st) := by
  rw [allocLoop,if_neg]
  · rfl
  · rw [lt_def,toNat_ofNat,mod_eq_of_lt (by omega)]
    omega

lemma allocLoop_full (hw : st.Working) (hs : sb.size.toNat ≤ 2 ^ 32 - 8) {d : ℕ}
    (hf : ∀ j, 8 * j < sb.size.toNat → flagAt sb st.bytes j = 0xff)
    (hd : sb.size.toNat ≤ 8 * (k + d)) (hl : 8 * k < sb.size.toNat + 8) (hfuel : d < fuel) :
    ∃ st', allocLoop sb fuel (BitVec.ofNat 32 (8 * k)) st =
      (.error (.state .errNoHwResource),st') ∧ st'.status = st.status ∧ st'.bytes = st.bytes := by
  induction fuel generalizing k st d with
  | zero => exact absurd hfuel (not_lt_zero d)
  | succ fuel ih =>
    by_cases hk : 8 * k < sb.size.toNat
    · rw [allocLoop_skip hw hk (hf k hk)]
      exact ih (d := d - 1) hw.tick hf (by omega) (by omega) (by omega)
    · exact ⟨st,allocLoop_end hs hl (by omega),rfl,rfl⟩

lemma allocLoop_spin (hw : st.Working) (hs : 2 ^ 32 - 8 < sb.size.toNat)
    (hf : ∀ j, 8 * j < sb.size.toNat → flagAt sb st.bytes j = 0xff)
    (hk : 8 * k < sb.size.toNat) :
    ∃ st', allocLoop sb fuel (BitVec.ofNat 32 (8 * k)) st = (.error .spin,st') := by
  have hlt := sb.size.isLt
  induction fuel generalizing k st with
  | zero => exact ⟨st,rfl⟩
  | succ fuel ih =>
    rw [allocLoop_skip hw hk (hf k hk)]
    by_cases hn : 8 * (k + 1) < sb.size.toNat
    · exact ih hw.tick hf hn
    · have hwr : 8 * (k + 1) = 2 ^ 32 := by omega
      have hz : BitVec.ofNat 32 (8 * (k + 1)) = BitVec.ofNat 32 (8 * 0) := by
        rw [hwr]
        rfl
      rw [hz]
      exact ih hw.tick hf (by omega)

end

section
variable {sb : SuperBlock} {st : Storage} {m : ℕ → Byte} {fuel k n bi i : ℕ}

lemma div_eight (hk : 8 * k < 2 ^ 32) : BitVec.ofNat 32 (8 * k) / 8 = BitVec.ofNat 32 k := by
  apply eq_of_toNat_eq
  rw [toNat_udiv,toNat_ofNat,toNat_ofNat,mod_eq_of_lt hk,mod_eq_of_lt (by omega)]
  exact Nat.mul_div_cancel_left k (by decide)

lemma bitmapOffset_eq (hk : 8 * k < 2 ^ 32) :
    bitmapOffset sb (BitVec.ofNat 32 (8 * k)) = (sb.bmapstart.toNat * 512 + k) % 2 ^ 32 := by
  rw [bitmapOffset,div_eight hk,toNat_add,toNat_mul,toNat_ofNat]
  simp

lemma bitmapByte_eight (k : ℕ) : bitmapByte sb (8 * k) = sb.bmapstart.toNat * 512 + k := by
  rw [bitmapByte,Nat.mul_div_cancel_left k (by decide)]

lemma flagAt_eq (hk : 8 * k < sb.size.toNat) (ha : sb.bmapstart.toNat * 512 + k < 2 ^ 32) :
    flagAt sb m k = m (sb.bmapstart.toNat * 512 + k) := by
  have hs := sb.size.isLt
  rw [flagAt,bitmapOffset_eq (by omega),mod_eq_of_lt ha]

def allocated (sb : SuperBlock) (m : ℕ → Byte) (n bi : ℕ) : ℕ → Byte :=
  overwrite (overwrite m (bitmapOffset sb (BitVec.ofNat 32 (8 * n)))
    [flagAt sb m n ||| (1 : Byte) <<< bi]) (blockOffset (BitVec.ofNat 32 (8 * n)))
    (List.replicate (4 * blockSize) 0)

lemma allocated_cleared (h : i ∈ cleared n) : allocated sb m n bi i = 0 := by
  obtain ⟨j,rfl⟩ := Nat.exists_eq_add_of_le h.1
  have hj : j < (List.replicate (4 * blockSize) (0 : Byte)).length := by
    have hlt := h.2
    rw [List.length_replicate]
    unfold blockSize
    omega
  rw [allocated,overwrite_inside _ _ hj,List.getElem_replicate]

lemma outside_cleared (h : i ∉ cleared n) : i < blockOffset (BitVec.ofNat 32 (8 * n)) ∨
    blockOffset (BitVec.ofNat 32 (8 * n)) + (List.replicate (4 * blockSize) (0 : Byte)).length ≤ i := by
  rw [cleared,Set.mem_Ico] at h
  rw [length_replicate]
  unfold blockSize
  omega

lemma allocated_flag (h : bitmapOffset sb (BitVec.ofNat 32 (8 * n)) ∉ cleared n) :
    allocated sb m n bi (bitmapOffset sb (BitVec.ofNat 32 (8 * n))) =
      flagAt sb m n ||| (1 : Byte) <<< bi := by
  rw [allocated,overwrite_outside _ (outside_cleared h)]
  exact overwrite_inside m _ (i := 0) (by simp)

lemma allocated_other (h : i ∉ cleared n) (hne : i ≠ bitmapOffset sb (BitVec.ofNat 32 (8 * n))) :
    allocated sb m n bi i = m i := by
  rw [allocated,overwrite_outside _ (outside_cleared h)]
  refine overwrite_outside m ?_
  rw [length_singleton]
  omega

lemma eight_mod (k : ℕ) : 8 * k % 8 = 0 := mul_mod_right 8 k

lemma or_bit_ne (x : Byte) (h : x.getLsbD 0 = false) : x ||| twoPow 8 0 ≠ x := by
  intro heq
  have hb := congrArg (fun y => getLsbD y 0) heq
  rw [h] at hb
  simp at hb

lemma or_bit_ne_zero (x : Byte) : x ||| twoPow 8 0 ≠ 0 := by
  intro heq
  have hb := congrArg (fun y => getLsbD y 0) heq
  simp at hb

lemma not_inUse_eight : ¬ InUse sb m (8 * k) ↔
    (m (sb.bmapstart.toNat * 512 + k)).getLsbD 0 = false := by
  rw [InUse,bitmapByte_eight,eight_mod]
  simp

lemma firstByte_flag (h : FirstByte sb m k) : firstClear (flagAt sb m k) = some 0 := by
  have ha := h.address
  rw [bitmapByte_eight] at ha
  rw [flagAt_eq h.below ha]
  exact firstClear_zero (not_inUse_eight.mp h.bit)

lemma firstByte_before (h : FirstByte sb m k) {j : ℕ} (hj : j < k) : flagAt sb m j = 0xff := by
  have ha := h.address
  have hb := h.below
  rw [bitmapByte_eight] at ha
  rw [flagAt_eq (by omega) (by omega)]
  exact h.full j hj

lemma granted_firstByte (hn : 8 * n < sb.size.toNat) (hfu : ∀ j < n, flagAt sb m j = 0xff)
    (h : Granted sb m (allocated sb m n bi) (8 * n)) : FirstByte sb m n := by
  have hs := sb.size.isLt
  have hf := not_inUse_eight.mp h.free
  have hbi := h.bit
  rw [bitmapByte_eight,eight_mod] at hbi
  have hcl : sb.bmapstart.toNat * 512 + n ∉ cleared n := by
    intro hc
    rw [allocated_cleared hc] at hbi
    exact or_bit_ne_zero _ hbi.symm
  have ho : sb.bmapstart.toNat * 512 + n = bitmapOffset sb (BitVec.ofNat 32 (8 * n)) := by
    by_contra hne
    rw [allocated_other hcl hne] at hbi
    exact or_bit_ne _ hf hbi.symm
  have ha : sb.bmapstart.toNat * 512 + n < 2 ^ 32 := by
    rw [ho]
    exact isLt _
  have hbl : sb.bmapstart.toNat * 512 + n ∉ block (8 * n) := by
    intro hb
    rw [h.zeroed _ hb] at hbi
    exact or_bit_ne_zero _ hbi.symm
  refine ⟨hn,?_,h.free,?_,?_,?_⟩
  · intro j hj
    have heq : flagAt sb m j = m (sb.bmapstart.toNat * 512 + j) := flagAt_eq (by omega) (by omega)
    exact heq.symm.trans (hfu j hj)
  · rw [bitmapByte_eight]
    exact ha
  · rw [bitmapByte_eight]
    exact fun hu => hu.elim hcl hbl
  · rintro i hi (⟨hc,hb⟩ | ⟨hb,hc⟩)
    · rw [← h.frame i hi hb (fun he => hcl (by rw [← bitmapByte_eight,← he]; exact hc)),
        allocated_cleared hc]
    · have hne : i ≠ bitmapOffset sb (BitVec.ofNat 32 (8 * n)) :=
        fun he => hbl (by rw [ho,← he]; exact hb)
      exact (allocated_other hc hne).symm.trans (h.zeroed i hb)

lemma firstByte_granted (h : FirstByte sb m n) : Granted sb m (allocated sb m n 0) (8 * n) := by
  have hs := sb.size.isLt
  have hbe := h.below
  have had := h.address
  have ha := h.apart
  rw [bitmapByte_eight] at had ha
  have hof : bitmapOffset sb (BitVec.ofNat 32 (8 * n)) = sb.bmapstart.toNat * 512 + n := by
    rw [bitmapOffset_eq (by omega),mod_eq_of_lt had]
  have ho : ∀ i, i ∉ cleared n → i ≠ sb.bmapstart.toNat * 512 + n →
      allocated sb m n 0 i = m i := fun i hc hne => allocated_other hc (hof ▸ hne)
  refine ⟨hbe,h.bit,?_,?_,?_⟩
  · rw [bitmapByte_eight,eight_mod,← hof,allocated_flag (hof ▸ fun hc => ha (.inl hc)),flagAt]
    rfl
  · intro i hb
    by_cases hc : i ∈ cleared n
    · exact allocated_cleared hc
    · have hi : i < imageSize sb := by
        have hlt := hb.2
        unfold imageSize
        omega
      rw [ho i hc (fun he => ha (.inr (he ▸ hb)))]
      exact h.zero i hi (.inr ⟨hb,hc⟩)
  · intro i hi hb hne
    rw [bitmapByte_eight] at hne
    by_cases hc : i ∈ cleared n
    · rw [allocated_cleared hc,h.zero i hi (.inl ⟨hc,hb⟩)]
    · exact ho i hc hne

lemma ofNat_toNat_eight (hn : 8 * n < sb.size.toNat) : (BitVec.ofNat 32 (8 * n)).toNat = 8 * n := by
  have hs := sb.size.isLt
  rw [toNat_ofNat,mod_eq_of_lt (by omega)]

lemma not_firstByte (ha : ∀ j, 8 * j < sb.size.toNat → flagAt sb m j = 0xff) :
    ¬ FirstByte sb m k := by
  intro h
  have hf := firstByte_flag h
  rw [firstClear_none.mpr (ha k h.below)] at hf
  cases hf

section
variable (hw : st.Working) (hfuel : 2 ^ 29 < fuel)
include hw hfuel

lemma alloc_full (ha : ∀ j, 8 * j < sb.size.toNat → flagAt sb st.bytes j = 0xff) :
    AllocGood sb st.bytes (alloc sb fuel st).1 (alloc sb fuel st).2.bytes ↔
      Allocatable sb st.bytes := by
  have hlt := sb.size.isLt
  have hno : Allocatable sb st.bytes ↔ AllFull sb st.bytes :=
    ⟨fun h => h.resolve_left fun ⟨k,hk⟩ => not_firstByte ha hk,.inr⟩
  rw [hno]
  by_cases hs : sb.size.toNat ≤ 2 ^ 32 - 8
  · obtain ⟨st',hr,_,hby⟩ := allocLoop_full (k := 0) (d := 2 ^ 29) hw hs ha (by omega)
      (by omega) hfuel
    have hc : alloc sb fuel st = (.error (.state .errNoHwResource),st') := hr
    rw [hc]
    constructor
    · rintro (⟨b,hb,_⟩ | ⟨_,hu,_⟩)
      · cases hb
      · exact ⟨hs,ha,hu⟩
    · intro h
      exact .inr ⟨rfl,h.used,fun i _ => congrFun hby i⟩
  · obtain ⟨st',hc⟩ : ∃ st', alloc sb fuel st = (.error .spin,st') :=
      allocLoop_spin (k := 0) hw (by omega) ha (by omega)
    rw [hc]
    constructor
    · rintro (⟨b,hb,_⟩ | ⟨hb,_⟩)
      · cases hb
      · cases hb
    · intro h
      exact absurd h.size hs

lemma alloc_found (hn : 8 * n < sb.size.toNat) (hbi : firstClear (flagAt sb st.bytes n) = some bi)
    (hfu : ∀ j < n, flagAt sb st.bytes j = 0xff) :
    AllocGood sb st.bytes (alloc sb fuel st).1 (alloc sb fuel st).2.bytes ↔
      Allocatable sb st.bytes := by
  have hlt := sb.size.isLt
  obtain ⟨st',hr,_,hby⟩ := allocLoop_found (k := 0) (d := n) hw hn hbi (by omega)
    (fun j _ hj => hfu j hj) (by omega : n < fuel)
  have hc : alloc sb fuel st = (.ok (BitVec.ofNat 32 (8 * n)),st') := hr
  have hne : st'.bytes = allocated sb st.bytes n bi := hby
  have hna := ofNat_toNat_eight hn
  rw [hc]
  dsimp only
  rw [hne]
  constructor
  · rintro (⟨b,hb,hg⟩ | ⟨hb,_⟩)
    · cases hb
      rw [hna] at hg
      exact .inl ⟨n,granted_firstByte hn hfu hg⟩
    · cases hb
  · rintro (⟨k,hk⟩ | hk)
    · have hf := firstByte_flag hk
      obtain rfl : k = n := by
        rcases Nat.lt_trichotomy k n with hlt | heq | hgt
        · rw [firstClear_none.mpr (hfu k hlt)] at hf
          cases hf
        · exact heq
        · rw [firstClear_none.mpr (firstByte_before hk hgt)] at hbi
          cases hbi
      obtain rfl := Option.some.inj (hf.symm.trans hbi)
      refine .inl ⟨_,rfl,?_⟩
      rw [hna]
      exact firstByte_granted hk
    · rw [firstClear_none.mpr (hk.full n hn)] at hbi
      cases hbi

lemma alloc_good_iff : AllocGood sb st.bytes (alloc sb fuel st).1 (alloc sb fuel st).2.bytes ↔
      Allocatable sb st.bytes := by
  by_cases ha : ∀ j, 8 * j < sb.size.toNat → flagAt sb st.bytes j = 0xff
  · exact alloc_full hw hfuel ha
  · have hex : ∃ j, 8 * j < sb.size.toNat ∧ flagAt sb st.bytes j ≠ 0xff := by
      push Not at ha
      exact ha
    classical
    obtain ⟨hn,hne⟩ := Nat.find_spec hex
    obtain ⟨bi,hbi⟩ := Option.ne_none_iff_exists'.mp (mt firstClear_none.mp hne)
    refine alloc_found hw hfuel hn hbi fun j hj => ?_
    by_contra hj'
    exact Nat.find_min hex hj ⟨by omega,hj'⟩

end

end

structure Session where
  storage : Storage
  granted : List ℕ

def Session.call (sb : SuperBlock) (fuel : ℕ) (s : Session) : Session :=
  match alloc sb fuel s.storage with
  | (.ok b,st) => ⟨st,b.toNat :: s.granted⟩
  | (.error _,st) => ⟨st,s.granted⟩

def Steps (sb : SuperBlock) (fuel : ℕ) (s t : Session) : Prop :=
  Allocatable sb s.storage.bytes ∧ t = s.call sb fuel

structure SelfMarked (sb : SuperBlock) (m : ℕ → Byte) : Prop where
  bitmap : ∀ b < sb.size.toNat, ¬ Disjoint (block b) (bitmap sb) → InUse sb m b

section
variable {sb : SuperBlock} {st : Storage} {m m' : ℕ → Byte} {fuel b c : ℕ}

lemma bitmapByte_mem (hb : b < sb.size.toNat) : bitmapByte sb b ∈ bitmap sb := by
  unfold bitmapByte bitmap
  rw [Set.mem_Ico]
  omega

lemma InUse.granted (hc : Consistent sb) (hs : SelfMarked sb m) (h : Granted sb m m' b)
    (hlt : c < sb.size.toNat) (hu : InUse sb m c) : InUse sb m' c := by
  have hm := bitmapByte_mem hlt
  have ho : bitmapByte sb c ∉ block b := by
    intro hb
    refine h.free (hs.bitmap b h.below ?_)
    exact Set.not_disjoint_iff.mpr ⟨_,hb,hm⟩
  have hin := lt_of_lt_of_le hm.2 hc
  unfold InUse at hu ⊢
  by_cases heq : bitmapByte sb c = bitmapByte sb b
  · rw [heq] at hu ⊢
    rw [h.bit,getLsbD_or,hu]
    rfl
  · rw [h.frame _ hin ho heq]
    exact hu

lemma Granted.used (h : Granted sb m m' b) : InUse sb m' b := by
  have hlt := mod_lt b (by decide : 0 < 8)
  rw [InUse,h.bit,getLsbD_or,getLsbD_twoPow]
  simp [hlt]

lemma InUse.kept (hc : Consistent sb) (hm : ∀ i < imageSize sb, m' i = m i)
    (hlt : c < sb.size.toNat) (hu : InUse sb m c) : InUse sb m' c := by
  have hin := lt_of_lt_of_le (bitmapByte_mem hlt).2 hc
  rw [InUse,hm _ hin]
  exact hu

structure SessionOk (sb : SuperBlock) (s : Session) : Prop where
  working : s.storage.Working
  marked : SelfMarked sb s.storage.bytes
  used : ∀ b ∈ s.granted, b < sb.size.toNat ∧ InUse sb s.storage.bytes b
  nodup : s.granted.Nodup

lemma steady_allocLoop (n : ℕ) (b : Word32) : Steady (allocLoop sb n b) := by
  induction n generalizing b with
  | zero => exact steady_fail _
  | succ n ih =>
    rw [allocLoop]
    split_ifs with hb
    · refine steady_bind (steady_read _ _) fun data => ?_
      dsimp only
      split
      · refine steady_bind (steady_write _ _) fun _ => ?_
        exact steady_bind (steady_write _ _) steady_pure
      · exact ih _
    · exact steady_fail _

lemma SessionOk.call {s : Session} (hs : SessionOk sb s) (hc : Consistent sb)
    (hfuel : 2 ^ 29 < fuel) (ha : Allocatable sb s.storage.bytes) :
    SessionOk sb (s.call sb fuel) := by
  have hgo := (alloc_good_iff hs.working hfuel).mpr ha
  have hwo : (alloc sb fuel s.storage).2.Working := (steady_allocLoop fuel 0).working hs.working
  rcases hca : alloc sb fuel s.storage with ⟨r,st⟩
  rw [hca] at hgo hwo
  have hke : (∀ c < sb.size.toNat, InUse sb s.storage.bytes c → InUse sb st.bytes c) →
      SelfMarked sb st.bytes := fun h => ⟨fun b hb hd => h b hb (hs.marked.bitmap b hb hd)⟩
  rcases hgo with ⟨b,rfl,hg⟩ | ⟨rfl,_,hsa⟩
  · have hm : ∀ c < sb.size.toNat, InUse sb s.storage.bytes c → InUse sb st.bytes c :=
      fun c hlt hu => hu.granted hc hs.marked hg hlt
    have heq : s.call sb fuel = ⟨st,b.toNat :: s.granted⟩ := by rw [Session.call,hca]
    rw [heq]
    refine ⟨hwo,hke hm,?_,nodup_cons.mpr ⟨?_,hs.nodup⟩⟩
    · intro c hcm
      rcases mem_cons.mp hcm with rfl | hcm
      · exact ⟨hg.below,hg.used⟩
      · obtain ⟨hlt,hu⟩ := hs.used c hcm
        exact ⟨hlt,hm c hlt hu⟩
    · intro hme
      exact hg.free (hs.used _ hme).2
  · have hm : ∀ c < sb.size.toNat, InUse sb s.storage.bytes c → InUse sb st.bytes c :=
      fun c hlt hu => hu.kept hc hsa hlt
    have heq : s.call sb fuel = ⟨st,s.granted⟩ := by rw [Session.call,hca]
    rw [heq]
    refine ⟨hwo,hke hm,?_,hs.nodup⟩
    intro c hcm
    obtain ⟨hlt,hu⟩ := hs.used c hcm
    exact ⟨hlt,hm c hlt hu⟩

lemma SessionOk.run {s t : Session} (hs : SessionOk sb s) (hc : Consistent sb)
    (hfuel : 2 ^ 29 < fuel) (hr : Relation.ReflTransGen (Steps sb fuel) s t) : SessionOk sb t := by
  induction hr with
  | refl => exact hs
  | tail _ hst ih =>
    obtain ⟨ha,rfl⟩ := hst
    exact ih.call hc hfuel ha

theorem alloc_run {s : Session} (hw : st.Working) (hc : Consistent sb)
    (hself : SelfMarked sb st.bytes) (hfuel : 2 ^ 29 < fuel)
    (hrun : Relation.ReflTransGen (Steps sb fuel) ⟨st,[]⟩ s) :
    s.granted.Nodup ∧ (∀ b ∈ s.granted, b < sb.size.toNat ∧ InUse sb s.storage.bytes b) ∧
      (AllocGood sb s.storage.bytes (alloc sb fuel s.storage).1 (alloc sb fuel s.storage).2.bytes ↔
        Allocatable sb s.storage.bytes) := by
  have hs := SessionOk.run ⟨hw,hself,by simp,nodup_nil⟩ hc hfuel hrun
  exact ⟨hs.nodup,hs.used,alloc_good_iff hs.working hfuel⟩

end

def smallBlock : SuperBlock := ⟨8,1,8,0,2,2,7⟩

def smallStorage (flag : Byte) : Storage := ⟨fun i => if i = 3584 then flag else 0,fun _ _ _ => .ok,0⟩

lemma small_byte {b : ℕ} (hb : b < 8) : bitmapByte smallBlock b = 3584 := by
  change 7 * 512 + b / 8 = 3584
  omega

lemma small_marked {flag : Byte} (hf : flag.getLsbD 7 = true) :
    SelfMarked smallBlock (smallStorage flag).bytes := by
  constructor
  intro b hb hd
  have hb8 : b < 8 := hb
  obtain ⟨i,hib,him⟩ := Set.not_disjoint_iff.mp hd
  have hi : 3584 ≤ i ∧ i < 3585 := him
  have hr : 512 * b ≤ i ∧ i < 512 * b + 512 := hib
  obtain rfl : b = 7 := by omega
  rw [InUse,small_byte hb]
  exact hf

lemma small_allocatable : Allocatable smallBlock (smallStorage 0x80).bytes := by
  refine .inl ⟨0,by decide,fun j hj => absurd hj (not_lt_zero j),?_,by decide,?_,?_⟩
  · decide
  · rw [small_byte (by decide)]
    rintro (h | h)
    · exact absurd h.2 (by decide)
    · exact absurd h.2 (by decide)
  · intro i _ hi
    have hlt : i < 2048 := by
      rcases hi with ⟨⟨_,h⟩,_⟩ | ⟨⟨_,h⟩,_⟩
      · exact h
      · exact lt_trans h (by decide)
    exact if_neg (by omega)

theorem alloc_run_small : Steps smallBlock (2 ^ 29 + 1) ⟨smallStorage 0x80,[]⟩
      (Session.call smallBlock (2 ^ 29 + 1) ⟨smallStorage 0x80,[]⟩) ∧
    (Session.call smallBlock (2 ^ 29 + 1) ⟨smallStorage 0x80,[]⟩).granted.Nodup := by
  have hs : Steps smallBlock (2 ^ 29 + 1) ⟨smallStorage 0x80,[]⟩ _ := ⟨small_allocatable,rfl⟩
  exact ⟨hs,(alloc_run (fun _ _ _ => rfl) (by decide) (small_marked (by decide)) (by decide)
    (.single hs)).1⟩

theorem alloc_returns_used : InUse smallBlock (smallStorage 0x81).bytes 0 ∧
    (alloc smallBlock (2 ^ 29 + 1) (smallStorage 0x81)).1 = .ok 0 := by
  exact ⟨by decide,by decide⟩

end Fs.BlockCtrl
