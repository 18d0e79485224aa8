import Mathlib.Algebra.BigOperators.Group.Finset.Basic
import RaphKernel.Fs.MkfsAppend

namespace Fs.Mkfs
open Bytes Fallible BlockCtrl Function Finset Set InodeStruct
variable {inum : Word32} {x : ℕ} {s : InodeStruct} {grown : Set ℕ}

structure FileAt (m : ℕ → Byte) (i : ℕ) (type : BitVec 16) (data : List Byte) (own : Set ℕ) : Prop where
  type : (inodeAt superblock m i).type = type
  size : (inodeAt superblock m i).size.toNat = data.length
  holds : Holds m (inodeAt superblock m i) (blocks data.length) own data

def kind (i : ℕ) : BitVec 16 := if i = 1 then 1 else 2

def total (count : ℕ) (data : ℕ → List Byte) : ℕ :=
  ∑ i ∈ Finset.range count, used (blocks (data i).length)

structure Built (h : Host) (count : ℕ) (data : ℕ → List Byte) (own : ℕ → Set ℕ) : Prop where
  ready : ∀ i, Ready h (own i)
  inodes : h.freeinode.toNat = count
  most : count ≤ 216
  super : slice h.image 512 28 = serialize superblock
  file : ∀ i, 1 ≤ i → i < count → FileAt h.image i (kind i) (data i) (own i)
  disjoint : ∀ i j, i ≠ j → Disjoint (own i) (own j)
  free : h.freeblock.toNat = 59 + total count data

section
variable {m m' : ℕ → Byte} {i : ℕ} {own : Set ℕ} {data : List Byte} {s : InodeStruct}

lemma inodeOffset_eq (i : ℕ) : inodeOffset superblock i = 16384 + 64 * i := by
  have hs : (superblock.inodestart * 512).toNat = 16384 := by decide
  rw [inodeOffset,hs]

lemma inodeBytes_bounds (hi : i < 216) (hx : x ∈ inodeBytes superblock i) :
    16384 ≤ x ∧ x < 30208 := by
  have hlo := hx.1
  have hhi := hx.2
  rw [inodeOffset_eq] at hlo hhi
  omega

lemma inodeBytes_outside {b : ℕ} (hi : i < 216) (hx : x ∈ inodeBytes superblock i)
    (hb : 59 ≤ b) : x ∉ block b := by
  intro hxb
  have hlt := (inodeBytes_bounds hi hx).2
  have hlo := hxb.1
  omega

lemma FileAt.congr {type : BitVec 16} (h : FileAt m i type data own)
    (hin : ∀ x ∈ inodeBytes superblock i, m' x = m x)
    (hbl : ∀ b ∈ own, ∀ x ∈ block b, m' x = m x) : FileAt m' i type data own := by
  have heq := inodeAt_congr hin
  refine ⟨?_,?_,?_⟩
  · rw [heq]
    exact h.type
  · rw [heq]
    exact h.size
  · rw [heq]
    exact h.holds.congr hbl

lemma Holds.resize {n : ℕ} (h : Holds m s n own data) (size : Word32) :
    Holds m { s with size := size } n own data :=
  ⟨⟨h.layout.mapped,h.layout.within,h.layout.holder,h.layout.indirect,h.layout.apart,h.layout.inj,
    h.layout.small⟩,h.fits,h.bytes⟩

def Host.inode (h : Host) (i : ℕ) (din : InodeStruct) : Host :=
  h.put (inodeOffset superblock i) din.serialize

lemma inode_outside (h : Host) (din : InodeStruct) (hx : x ∉ inodeBytes superblock i) :
    (h.inode i din).image x = h.image x := by
  refine overwrite_outside h.image ?_
  rw [InodeStruct.length_serialize]
  by_contra hin
  exact hx ⟨by omega,by omega⟩

lemma inode_at (h : Host) (din : InodeStruct) :
    inodeAt superblock (h.inode i din).image i = din := by
  have hs := slice_overwrite h.image (inodeOffset superblock i) din.serialize
  rw [InodeStruct.length_serialize] at hs
  have him : (h.inode i din).image =
      overwrite h.image (inodeOffset superblock i) din.serialize := rfl
  rw [inodeAt,him,hs,InodeStruct.parse_serialize]

lemma Ready.inode {h : Host} (hr : Ready h own) (hi : i < 216) (din : InodeStruct) :
    Ready (h.inode i din) own := by
  have hl := hr.low
  refine ⟨hr.length,hr.low,hr.room,hr.range,fun x hx => ?_⟩
  rw [inode_outside h din fun hx' => ?_]
  · exact hr.clean x hx
  · have hlt := (inodeBytes_bounds hi hx').2
    have hx'' : 512 * h.freeblock.toNat ≤ x := hx
    omega

end

section
variable {h h' : Host} {count i : ℕ} {data : ℕ → List Byte} {own : ℕ → Set ℕ} {p : List Byte}

lemma total_update (data : ℕ → List Byte) (hi : i < count) (q : List Byte) :
    total count (update data i q) + used (blocks (data i).length) =
      total count data + used (blocks q.length) := by
  have hm := mem_range.mpr hi
  have hr : ∑ k ∈ (range count).erase i, used (blocks (update data i q k).length) =
        ∑ k ∈ (range count).erase i, used (blocks (data k).length) := by
    refine sum_congr rfl fun k hk => ?_
    rw [update_of_ne (ne_of_mem_erase hk)]
  unfold total
  rw [← add_sum_erase _ _ hm,← add_sum_erase _
    (fun k => used _) hm,hr,update_self]
  omega

lemma Built.stage (hb : Built h count data own) (h1 : 1 ≤ i) (hi : i < count) :
    Stage h (inodeAt superblock h.image i) (own i) (data i) :=
  ⟨hb.ready i,(hb.file i h1 hi).holds⟩

lemma Built.apart (hb : Built h count data own) {s' : InodeStruct} {j : ℕ}
    (he : Extends h s (own i) h' s' grown) (hij : i ≠ j) : Disjoint grown (own j) := by
  rw [Set.disjoint_left]
  intro b hg ho
  rcases he.fresh b hg with hb' | hb'
  · exact Set.disjoint_left.mp (hb.disjoint i j hij) hb' ho
  · have hlt := ((hb.ready j).range b ho).2
    omega

lemma disjoint_update (ho : ∀ j k, j ≠ k → Disjoint (own j) (own k))
    (hg : ∀ j, i ≠ j → Disjoint grown (own j)) (j k : ℕ) (hjk : j ≠ k) :
    Disjoint (update own i grown j) (update own i grown k) := by
  rcases eq_or_ne j i with rfl | hji
  · rw [update_self,update_of_ne hjk.symm]
    exact hg k hjk
  · rw [update_of_ne hji]
    rcases eq_or_ne k i with rfl | hki
    · rw [update_self]
      exact (hg j hji.symm).symm
    · rw [update_of_ne hki]
      exact ho j k hjk

lemma Built.extend (hb : Built h count data own) (h1 : 1 ≤ i) (hi : i < count) {q : List Byte}
    {size : Word32} (hsi : size.toNat = q.length)
    (he : Extends h (inodeAt superblock h.image i) (own i) h' s grown)
    (hs : Stage h' s grown q) (hfr : h'.freeblock.toNat + used (blocks (data i).length) =
      h.freeblock.toNat + used (blocks q.length)) :
    Built (h'.inode i { s with size := size }) count (update data i q)
      (update own i grown) := by
  have hi216 : i < 216 := hi.trans_le hb.most
  have hr := hs.ready.range
  have hsa : ∀ x, (∀ b ∈ grown, x ∉ block b) → x ∉ inodeBytes superblock i →
      (h'.inode i { s with size := size }).image x = h.image x := fun x hx hx' =>
    (inode_outside h' _ hx').trans (he.outside x hx)
  refine ⟨fun j => ?_,he.freeinode ▸ hb.inodes,hb.most,?_,fun j hj1 hj => ?_,
    disjoint_update hb.disjoint fun j => hb.apart he,?_⟩
  · refine Ready.inode ?_ hi216 _
    revert j
    refine (forall_update_iff own fun _ => Ready h').mpr ⟨hs.ready,fun j _ => ?_⟩
    refine ⟨hs.ready.length,hs.ready.low,hs.ready.room,fun b hb' => ?_,hs.ready.clean⟩
    have hlt := (hb.ready j).range b hb'
    exact ⟨hlt.1,hlt.2.trans_le he.mono⟩
  · rw [← hb.super]
    refine slice_congr fun x hlo hhi => hsa x (fun b hb' hxb => ?_) fun hx => ?_
    · have hb59 := (hr b hb').1
      have hxl := hxb.1
      omega
    · have hx16 := (inodeBytes_bounds hi216 hx).1
      omega
  · by_cases hij : j = i
    · subst hij
      rw [update_self,update_self]
      have hf := hb.file j h1 hi
      refine ⟨?_,?_,?_⟩
      · rw [inode_at]
        exact he.type.trans hf.type
      · rw [inode_at]
        exact hsi
      · rw [inode_at]
        refine Holds.resize (hs.holds.congr fun b hb' x hx => inode_outside h' _ fun hx' => ?_) size
        exact inodeBytes_outside hi216 hx' (hr b hb').1 hx
    · rw [update_of_ne hij,update_of_ne hij]
      refine (hb.file j hj1 hj).congr (fun x hx => hsa x (fun b hb' => ?_) fun hx' => ?_)
        fun b hb' x hx => hsa x (fun c hc hxc => ?_) fun hx' => ?_
      · exact inodeBytes_outside (hj.trans_le hb.most) hx (hr b hb').1
      · exact disjoint_left.mp (inodeBytes_disjoint hij) hx hx'
      · rw [block_eq hxc hx] at hc
        exact disjoint_left.mp (hb.apart he (Ne.symm hij)) hc hb'
      · exact inodeBytes_outside hi216 hx' ((hb.ready j).range b hb').1 hx
  · have ht := total_update data hi q
    have hbf := hb.free
    change h'.freeblock.toNat = _
    omega

lemma Built.rinode (hb : Built h count data own) (hi : i < count)
    (hinum : inum.toNat = i) : rinode inum h = (.ok (inodeAt superblock h.image i),h) := by
  have hm := hb.most
  rw [rinode_ok (hb.ready i).length (by omega),hinum]

section
variable (hb : Built h count data own) (h1 : 1 ≤ i) (hi : i < count) (hinum : inum.toNat = i)
include hb h1 hi hinum

lemma iappend_ok (hft : Fits h (data i).length p.length) :
    ∃ h' own', iappend inum p h = (.ok (),h') ∧
      Built h' count (update data i (data i ++ p)) own' := by
  have hm := hb.most
  have hfa := hft.far
  have hfi := hb.file i h1 hi
  obtain ⟨h',s,grown,hc,he,hs,hf⟩ := iappendLoop_ok (hb.stage h1 hi) hft
  have hw : ∀ din, winode inum din h' = (.ok (),h'.inode i din) := fun din => by
    rw [winode_ok hs.ready.length (by omega),hinum]
    rfl
  have hsi : (BitVec.ofNat 32 ((data i).length + p.length)).toNat = (data i ++ p).length := by
    rw [List.length_append,BitVec.toNat_ofNat]
    omega
  rw [← List.length_append] at hf
  refine ⟨_,_,?_,hb.extend h1 hi hsi he hs hf⟩
  rw [iappend,bind_of_ok (hb.rinode hi hinum),hfi.size,bind_of_ok hc]
  exact hw _

lemma iappend_full (hf : ¬ Fits h (data i).length p.length) :
    ∃ e h', iappend inum p h = (.error e,h') := by
  obtain ⟨e,h',hc⟩ := iappendLoop_full (hb.stage h1 hi) hf
  refine ⟨e,h',?_⟩
  rw [iappend,bind_of_ok (hb.rinode hi hinum),(hb.file i h1 hi).size,bind_of_error hc]

lemma iappend_built {u : Unit} (hc : iappend inum p h = (.ok u,h')) :
    ∃ own', Built h' count (update data i (data i ++ p)) own' := by
  by_cases hf : Fits h (data i).length p.length
  · obtain ⟨h'',own',hc',hb'⟩ := iappend_ok hb h1 hi hinum hf
    rw [hc'] at hc
    cases hc
    exact ⟨own',hb'⟩
  · obtain ⟨e,_,hc'⟩ := iappend_full hb h1 hi hinum hf
    rw [hc'] at hc
    cases hc

end

lemma holds_empty (m : ℕ → Byte) (hs : ∀ k, s.addrs k = 0) : Holds m s 0 ∅ [] := by
  have he : ∀ k, s.entry m k = 0 := by
    intro k
    rcases lt_or_ge k 12 with hk | hk
    · rw [entry_direct hk,hs]
    · exact entry_null hk (hs 12)
  refine ⟨⟨fun k => ?_,fun k hk => ?_,?_,fun h0 => ?_,fun k hk => ?_,fun j hj => ?_,fun b hb => ?_⟩,
    le_rfl,rfl⟩
  · exact iff_of_false (not_not.mpr (he k)) (Nat.not_lt_zero k)
  · exact absurd hk (Nat.not_lt_zero k)
  · exact iff_of_false (not_not.mpr (hs 12)) (by norm_num)
  · exact absurd (hs 12) h0
  · exact absurd hk (Nat.not_lt_zero k)
  · exact absurd hj (Nat.not_lt_zero j)
  · exact absurd hb (notMem_empty b)

lemma ialloc_ok (hb : Built h count data own) (h1 : 1 ≤ count) (hc : count < 216) :
    ∃ h' own', ialloc (kind count) h = (.ok h.freeinode,h') ∧
      Built h' (count + 1) (update data count []) own' := by
  have hinum := hb.inodes
  have hn : (h.freeinode + 1).toNat = count + 1 := by
    rw [BitVec.toNat_add_of_lt (by simp; omega),hinum]
    rfl
  have hre : ∀ i, Ready { h with freeinode := h.freeinode + 1 } (own i) := fun i =>
    ⟨(hb.ready i).length,(hb.ready i).low,(hb.ready i).room,(hb.ready i).range,(hb.ready i).clean⟩
  have hw : winode h.freeinode ⟨kind count,0,0,1,0,fun _ => 0⟩
      { h with freeinode := h.freeinode + 1 } = (.ok (),Host.inode
        { h with freeinode := h.freeinode + 1 } count ⟨kind count,0,0,1,0,fun _ => 0⟩) := by
    rw [winode_ok (hre 0).length (by omega),hinum]
    rfl
  have hca : ialloc (kind count) h = (.ok h.freeinode,Host.inode
      { h with freeinode := h.freeinode + 1 } count ⟨kind count,0,0,1,0,fun _ => 0⟩) := by
    rw [ialloc,asks_bind,update_bind]
    exact bind_of_ok hw
  refine ⟨_,update own count ∅,hca,fun i => ?_,hn,hc,?_,fun i hi1 hi => ?_,
    disjoint_update hb.disjoint fun _ _ => empty_disjoint _,?_⟩
  · refine Ready.inode ?_ hc _
    have hr := hre count
    revert i
    exact (forall_update_iff own fun _ => Ready _).mpr
      ⟨⟨hr.length,hr.low,hr.room,fun b hb' => absurd hb' (notMem_empty b),hr.clean⟩,
        fun i _ => hre i⟩
  · rw [← hb.super]
    refine slice_congr fun x hlo hhi => inode_outside _ _ fun hx => ?_
    have hx16 := (inodeBytes_bounds hc hx).1
    omega
  · by_cases hic : i = count
    · subst hic
      rw [update_self,update_self]
      refine ⟨by rw [inode_at],by rw [inode_at]; rfl,?_⟩
      rw [inode_at]
      exact holds_empty _ fun _ => rfl
    · rw [update_of_ne hic,update_of_ne hic]
      refine (hb.file i hi1 (by omega)).congr (fun x hx => ?_) fun b hb' x hx => ?_
      · exact inode_outside _ _ (disjoint_left.mp (inodeBytes_disjoint hic) hx)
      · exact inode_outside _ _ fun hx' =>
          inodeBytes_outside hc hx' ((hb.ready i).range b hb').1 hx
  · have ho : ∑ k ∈ range count, used (blocks (update data count [] k).length) =
        ∑ k ∈ range count, used (blocks (data k).length) := by
      refine sum_congr rfl fun k hk => ?_
      rw [update_of_ne (mem_range.mp hk).ne]
    have hf := hb.free
    unfold total at hf ⊢
    rw [sum_range_succ,ho,update_self]
    exact hf

end

end Fs.Mkfs
