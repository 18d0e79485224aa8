import RaphKernel.Fs.MkfsLayout

namespace Fs.Mkfs
open Bytes Fallible BlockCtrl List InodeStruct
variable {im a : Word32} {A : Type} {i : Fin 13} {n b : ℕ}

structure Ready (h : Host) (own : Set ℕ) : Prop where
  length : h.length = 512000
  low : 59 ≤ h.freeblock.toNat
  room : h.freeblock.toNat ≤ 1000
  range : ∀ b ∈ own, 59 ≤ b ∧ b < h.freeblock.toNat
  clean : ∀ i, 512 * h.freeblock.toNat ≤ i → h.image i = 0

structure Extends (h : Host) (s : InodeStruct) (own : Set ℕ) (h' : Host) (s' : InodeStruct)
    (own' : Set ℕ) : Prop where
  length : h'.length = h.length
  freeinode : h'.freeinode = h.freeinode
  mono : h.freeblock.toNat ≤ h'.freeblock.toNat
  grows : own ⊆ own'
  fresh : ∀ b ∈ own', b ∈ own ∨ h.freeblock.toNat ≤ b ∧ b < h'.freeblock.toNat
  outside : ∀ i, (∀ b ∈ own', i ∉ block b) → h'.image i = h.image i
  type : s'.type = s.type

section
variable {h h' h'' : Host} {s s' s'' : InodeStruct} {o o' o'' : Set ℕ}

lemma Extends.refl (h : Host) (s : InodeStruct) (ow : Set ℕ) : Extends h s ow h s ow :=
  ⟨rfl,rfl,le_rfl,subset_rfl,fun _ hb => .inl hb,fun _ _ => rfl,rfl⟩

lemma Extends.trans (h₁ : Extends h s o h' s' o') (h₂ : Extends h' s' o' h'' s'' o'') :
    Extends h s o h'' s'' o'' := by
  refine ⟨h₂.length.trans h₁.length,h₂.freeinode.trans h₁.freeinode,h₁.mono.trans h₂.mono,
    h₁.grows.trans h₂.grows,fun b hb => ?_,fun i hi => ?_,h₂.type.trans h₁.type⟩
  · have hm := h₁.mono
    have hm' := h₂.mono
    rcases h₂.fresh b hb with hb | hb
    · exact (h₁.fresh b hb).imp_right fun hlt => ⟨hlt.1,by omega⟩
    · exact .inr ⟨by omega,hb.2⟩
  · rw [h₂.outside i hi]
    exact h₁.outside i fun b hb => hi b (h₂.grows hb)

lemma Ready.extend (hr : Ready h o) (he : Extends h s o h' s' o')
    (hro : h'.freeblock.toNat ≤ 1000) : Ready h' o' := by
  have hl := hr.low
  have hm := he.mono
  have hra : ∀ b ∈ o', 59 ≤ b ∧ b < h'.freeblock.toNat := by
    intro b hb
    rcases he.fresh b hb with hb | hb
    · have hlt := hr.range b hb
      exact ⟨hlt.1,by omega⟩
    · exact ⟨by omega,hb.2⟩
  refine ⟨he.length.trans hr.length,by omega,hro,hra,fun i hi => ?_⟩
  rw [he.outside i fun b hb hib => ?_]
  · exact hr.clean i (by omega)
  · have hlt := (hra b hb).2
    have hhi := hib.2
    omega

end

def Host.put (h : Host) (start : ℕ) (data : List Byte) : Host :=
  { h with image := overwrite h.image start data }

section
variable {h : Host} {x : Word32} {bf d : List Byte} {p : ℕ}

section
variable (hlen : h.length = 512000)
include hlen

lemma rsect_ok (hx : x.toNat < 1000) :
    rsect x h = (.ok (slice h.image (512 * x.toNat) 512),h) := by
  have ho : blockOffset x = 512 * x.toNat := blockOffset_eq (by omega)
  have hle : blockOffset x + blockSize ≤ h.length := by
    rw [ho,hlen,blockSize]
    omega
  rw [rsect,if_pos hle,ho]
  rfl

lemma rsect_full (hx : 1000 ≤ x.toNat) (hx' : x.toNat < 2 ^ 23 := by omega) :
    rsect x h = (.error .exit,h) := by
  have hgt : ¬ blockOffset x + blockSize ≤ h.length := by
    rw [blockOffset_eq hx',hlen,blockSize]
    omega
  rw [rsect,if_neg hgt]

lemma wsect_ok (hx : x.toNat < 1000) : wsect x bf h = (.ok (),h.put (512 * x.toNat) bf) := by
  have ho : blockOffset x = 512 * x.toNat := blockOffset_eq (by omega)
  have hm : max h.length (blockOffset x + blockSize) = h.length := by
    rw [ho,hlen,blockSize]
    omega
  rw [wsect,update,hm,ho]
  rfl

lemma wsect_patch (hx : x.toNat < 1000) (hf : p + d.length ≤ 512) :
    wsect x (patch (slice h.image (512 * x.toNat) 512) p d) h =
      (.ok (),h.put (512 * x.toNat + p) d) := by
  rw [wsect_ok hlen hx,Host.put,overwrite_patch h.image _ hf]
  rfl

end

lemma iblock_toNat (hi : im.toNat < 216) : (iblock im).toNat = 32 + im.toNat / 8 := by
  have hd : (im / 8).toNat = im.toNat / 8 := BitVec.toNat_udiv
  have hs : superblock.inodestart.toNat = 32 := by decide
  rw [iblock,BitVec.toNat_add_of_lt (by omega),hd,hs,Nat.add_comm]

lemma inode_start (hi : im.toNat < 216) :
    512 * (iblock im).toNat + slot im = inodeOffset superblock im.toNat := by
  have hs : (superblock.inodestart * 512).toNat = 16384 := by decide
  have hip : ipb = 8 := by decide
  rw [iblock_toNat hi,slot,inodeOffset,hs,hip]
  omega

lemma slot_lt (iu : Word32) : slot iu + 64 ≤ 512 := by
  have hip : ipb = 8 := by decide
  rw [slot,hip]
  omega

lemma winode_ok {din : InodeStruct} (hlen : h.length = 512000) (hi : im.toNat < 216) :
    winode im din h = (.ok (),h.put (inodeOffset superblock im.toNat) din.serialize) := by
  have hs : (iblock im).toNat < 1000 := by
    rw [iblock_toNat hi]
    omega
  have hf : slot im + din.serialize.length ≤ 512 := by
    rw [InodeStruct.length_serialize]
    exact slot_lt im
  rw [winode,bind_of_ok (rsect_ok hlen hs),wsect_patch hlen hs hf,inode_start hi]

lemma rinode_ok (hlen : h.length = 512000) (hi : im.toNat < 216) :
    rinode im h = (.ok (inodeAt superblock h.image im.toNat),h) := by
  have hs : (iblock im).toNat < 1000 := by
    rw [iblock_toNat hi]
    omega
  rw [rinode,bind_of_ok (rsect_ok hlen hs),slice_slice _ _ (slot_lt im),inode_start hi]
  rfl

end

section
variable {h : Host} {s : InodeStruct} {o : Set ℕ} {n k : ℕ}

def Host.taken (h : Host) : Host := { h with freeblock := h.freeblock + 1 }

lemma taken_free (hro : h.freeblock.toNat ≤ 1001 := by omega) :
    h.taken.freeblock.toNat = h.freeblock.toNat + 1 := BitVec.toNat_add_of_lt (by simp; omega)

lemma directBlock_known (h0 : s.addrs i ≠ 0) : directBlock s i h = (.ok (s.addrs i,s),h) := by
  rw [directBlock,if_neg h0]
  rfl

lemma directBlock_new (h0 : s.addrs i = 0) :
    directBlock s i h = (.ok (h.freeblock,setAddr s i h.freeblock),h.taken) := by
  rw [directBlock,if_pos h0]
  rfl

lemma field_indirect (m : ℕ → Byte) (ha : a.toNat < 2 ^ 23) {j : ℕ} (hj : j < 128) :
    field 4 (slice m (512 * a.toNat) 512) (4 * j) = indirectEntry m a j := by
  have ht : (slice m (512 * a.toNat + 4 * j) 4).take 4 = slice m (512 * a.toNat + 4 * j) 4 :=
    take_of_length_le (length_slice ..).le
  rw [field,slice_slice m _ (by omega),indirectEntry,entryOffset,blockOffset_eq ha,Nat.mul_comm j 4,
    field,drop_zero,ht]

lemma entryBlock_known (hlen : h.length = 512000) (ha : a.toNat < 1000)
    (hk : k < 128) (h0 : indirectEntry h.image a k ≠ 0) :
    entryBlock a k h = (.ok (indirectEntry h.image a k),h) := by
  rw [entryBlock,bind_of_ok (rsect_ok hlen ha),field_indirect _ (by omega) hk,if_neg h0]
  rfl

lemma entryBlock_new (hlen : h.length = 512000) (ha : a.toNat < 1000)
    (hk : k < 128) (h0 : indirectEntry h.image a k = 0) : entryBlock a k h =
      (.ok h.freeblock,h.taken.put (512 * a.toNat + 4 * k) (encode 4 h.freeblock.toNat)) := by
  have ht : takeBlock h = (.ok h.freeblock,h.taken) := rfl
  have hf : 4 * k + (encode 4 h.freeblock.toNat).length ≤ 512 := by
    rw [length_encode]
    omega
  have hw := wsect_patch (h := h.taken) (x := a) hlen ha hf
  rw [entryBlock,bind_of_ok (rsect_ok hlen ha),field_indirect _ (by omega) hk,if_pos h0,
    bind_of_ok ht]
  exact bind_of_ok hw

lemma fileBlock_direct (hk : k < 12) : fileBlock k s = directBlock s (Fin.ofNat 13 k) := if_pos hk

lemma fileBlock_indirect (hk : 12 ≤ k) : fileBlock k s = directBlock s 12 >>= fun r =>
    entryBlock r.1 (k - 12) >>= fun x => pure (x,r.2) := if_neg hk.not_gt

lemma fileBlock_known (hr : Ready h o) (hl : Layout h.image s n o) (hk : k < n) :
    fileBlock k s h = (.ok (s.entry h.image k,s),h) := by
  have h0 := (hl.mapped k).mpr hk
  have hf := hl.below
  rcases lt_or_ge k 12 with hk12 | hk12
  · rw [entry_direct hk12] at h0 ⊢
    rw [fileBlock_direct hk12,directBlock_known h0]
  · have ha := hl.holder.mpr (by omega)
    have he := entry_indirect (m := h.image) hk12 (by omega) ha
    rw [he] at h0 ⊢
    rw [fileBlock_indirect hk12,bind_of_ok (directBlock_known ha),
      bind_of_ok (entryBlock_known hr.length (hl.small _ (hl.indirect ha)) (by omega) h0)]
    rfl

structure Claimed (h : Host) (s : InodeStruct) (n : ℕ) (own : Set ℕ) (h' : Host) (s' : InodeStruct)
    (x : Word32) : Prop where
  grown : Grown h.image s n own h'.image s' (claimed own h.freeblock.toNat n) x
  length : h'.length = h.length
  freeinode : h'.freeinode = h.freeinode
  free : h'.freeblock.toNat = h.freeblock.toNat + cost n
  outside : ∀ i, (∀ b ∈ claimed own h.freeblock.toNat n, i ∉ block b) → h'.image i = h.image i
  type : s'.type = s.type

section
variable (hr : Ready h o)
include hr

lemma fileBlock_claim_direct (hl : Layout h.image s n o) (hn : n < 12)
    (hro : h.freeblock.toNat + cost n ≤ 1000) :
    ∃ s' h' x, fileBlock n s h = (.ok (x,s'),h') ∧ Claimed h s n o h' s' x := by
  have hlo := hr.low
  have h0 : s.addrs (Fin.ofNat 13 n) = 0 := by
    rw [← entry_direct (m := h.image) hn]
    exact hl.unmapped le_rfl
  have hc : cost n = 1 := if_neg (by omega)
  have hca : fileBlock n s h =
      (.ok (h.freeblock,setAddr s (Fin.ofNat 13 n) h.freeblock),h.taken) := by
    rw [fileBlock_direct hn,directBlock_new h0]
  refine ⟨_,_,_,hca,?_,rfl,rfl,?_,fun _ _ => rfl,rfl⟩
  · exact grown_direct hl hn (by omega) (fun b hb => (hr.range b hb).2) hro hr.clean
  · rw [hc]
    exact taken_free

lemma fileBlock_claim_entry (hl : Layout h.image s n o) (hn : 12 < n) (hf : n < 140)
    (hro : h.freeblock.toNat + cost n ≤ 1000) :
    ∃ s' h' x, fileBlock n s h = (.ok (x,s'),h') ∧ Claimed h s n o h' s' x := by
  have hlo := hr.low
  have ha := hl.holder.mpr hn
  have hm := hl.indirect ha
  have hs := hl.small _ hm
  have hlt := (hr.range _ hm).2
  have hid : ∀ k, 12 ≤ k → k < 140 → indirectEntry h.image (s.addrs 12) (k - 12) = s.entry h.image k :=
    fun k hk hk' => (entry_indirect hk hk' ha).symm
  have h0 : indirectEntry h.image (s.addrs 12) (n - 12) = 0 := by
    rw [hid n hn.le hf]
    exact hl.unmapped le_rfl
  have hc : cost n = 1 := if_neg (by omega)
  have hne : s.addrs 12 ≠ h.freeblock := fun heq => by
    rw [heq] at hlt
    exact lt_irrefl _ hlt
  have hin : (s.addrs 12).toNat ∈ claimed o h.freeblock.toNat n := .inl hm
  have hca : fileBlock n s h = (.ok (h.freeblock,s),
      h.taken.put (512 * (s.addrs 12).toNat + 4 * (n - 12)) (encode 4 h.freeblock.toNat)) := by
    rw [fileBlock_indirect hn.le,bind_of_ok (directBlock_known ha),
      bind_of_ok (entryBlock_new hr.length hs (by omega) h0)]
    rfl
  refine ⟨_,_,_,hca,?_,rfl,rfl,?_,fun i hi => ?_,rfl⟩
  · exact grown_indirect hl hn.le hf (fun _ _ => rfl) rfl ha hid hl.apart hin hne
      (by rw [hc]) (fun b hb => (hr.range b hb).2) (by omega) hro hr.clean
  · rw [hc]
    exact taken_free
  · refine overwrite_block h.image ?_ (hi _ hin)
    rw [length_encode]
    omega

lemma fileBlock_claim_holder (hl : Layout h.image s 12 o)
    (hro : h.freeblock.toNat + cost 12 ≤ 1000) :
    ∃ s' h' x, fileBlock 12 s h = (.ok (x,s'),h') ∧ Claimed h s 12 o h' s' x := by
  have hlo := hr.low
  have hco : cost 12 = 2 := rfl
  have h12 := hl.unheld le_rfl
  have hf : h.taken.freeblock.toNat = h.freeblock.toNat + 1 := taken_free
  have hz : ∀ j < 128, indirectEntry h.image h.freeblock j = 0 := fun j hj =>
    indirectEntry_zero (by omega) hj fun i hi => hr.clean i hi.1
  have hne : h.freeblock ≠ h.taken.freeblock := fun heq => by
    rw [← heq] at hf
    omega
  have hf0 : h.freeblock ≠ 0 := fun heq => by
    rw [heq] at hlo
    exact absurd hlo (by decide)
  have hin : h.freeblock.toNat ∈ claimed o h.freeblock.toNat 12 := .inr ⟨le_rfl,by omega⟩
  have hid : ∀ k, 12 ≤ k → k < 140 →
      indirectEntry h.image h.freeblock (k - 12) = s.entry h.image k := by
    intro k hk _
    rw [hz _ (by omega),entry_null hk h12]
  have ha : ∀ k < 12, s.entry h.image k ≠ h.freeblock := by
    intro k hk heq
    have hlt := (hr.range _ (hl.within k hk)).2
    rw [heq] at hlt
    exact lt_irrefl _ hlt
  have hc : fileBlock 12 s h = (.ok (h.taken.freeblock,setAddr s 12 h.freeblock),
      h.taken.taken.put (512 * h.freeblock.toNat + 4 * (12 - 12))
        (encode 4 h.taken.freeblock.toNat)) := by
    rw [fileBlock_indirect le_rfl,bind_of_ok (directBlock_new h12),
      bind_of_ok (entryBlock_new (h := h.taken) hr.length (by omega) (by norm_num)
        (hz 0 (by norm_num)))]
    rfl
  refine ⟨_,_,_,hc,?_,rfl,rfl,?_,fun i hi => ?_,rfl⟩
  · have hs : (setAddr s 12 h.freeblock).addrs 12 = h.freeblock := by simp [setAddr]
    refine grown_indirect hl le_rfl (by norm_num) (fun k hk => Function.update_of_ne hk _ _) hs hf0
      hid ha hin hne (by omega) (fun b hb => (hr.range b hb).2) (by omega) hro hr.clean
  · have hf' : h.taken.taken.freeblock.toNat = h.taken.freeblock.toNat + 1 := taken_free
    rw [hco]
    exact hf'.trans (by rw [hf])
  · refine overwrite_block h.image ?_ (hi _ hin)
    rw [length_encode]
    norm_num

lemma fileBlock_claim (hl : Layout h.image s n o) (hf : n < 140)
    (hro : h.freeblock.toNat + cost n ≤ 1000) :
    ∃ s' h' x, fileBlock n s h = (.ok (x,s'),h') ∧ Claimed h s n o h' s' x := by
  rcases lt_trichotomy n 12 with hn | rfl | hn
  · exact fileBlock_claim_direct hr hl hn hro
  · exact fileBlock_claim_holder hr hl hro
  · exact fileBlock_claim_entry hr hl hn hf hro

lemma fileBlock_full_direct {f : Word32 × InodeStruct → List Byte → Build A}
    (hl : Layout h.image s n o) (hn : n < 12) (hro : 1000 < h.freeblock.toNat + cost n) :
    ∃ h', (fileBlock n s >>= fun r => rsect r.1 >>= f r) h = (.error .exit,h') := by
  have hle := hr.room
  have hc : cost n = 1 := if_neg (by omega)
  have h0 := hl.unmapped (le_refl n)
  rw [entry_direct hn] at h0
  have hre : rsect h.freeblock h.taken = (.error .exit,h.taken) :=
    rsect_full hr.length (by omega)
  refine ⟨h.taken,?_⟩
  rw [fileBlock_direct hn,bind_of_ok (directBlock_new h0),bind_of_error hre]

lemma fileBlock_full_holder {f : Word32 × InodeStruct → List Byte → Build A}
    (hl : Layout h.image s 12 o) (hro : 1000 < h.freeblock.toNat + cost 12) :
    ∃ h', (fileBlock 12 s >>= fun r => rsect r.1 >>= f r) h = (.error .exit,h') := by
  have hco : cost 12 = 2 := rfl
  have hn : directBlock s 12 h = _ := directBlock_new (hl.unheld le_rfl)
  rw [fileBlock_indirect le_rfl]
  -- with one free block left the block of addresses is written and only the block it should name is missing
  rcases hr.room.lt_or_eq with hlt | _
  · have hf : h.taken.freeblock.toNat = h.freeblock.toNat + 1 := taken_free
    have hz : indirectEntry h.taken.image h.freeblock 0 = 0 :=
      indirectEntry_zero (by omega) (by norm_num) fun i hi => hr.clean i hi.1
    have he : entryBlock h.freeblock (12 - 12) h.taken = _ :=
      entryBlock_new hr.length hlt (by norm_num) hz
    have hc : (directBlock s 12 >>= fun r => entryBlock r.1 (12 - 12) >>= fun x =>
        pure (x,r.2)) h = _ := (bind_of_ok hn).trans (bind_of_ok he)
    have hre : ∀ start data, rsect h.taken.freeblock (h.taken.taken.put start data) =
        (.error .exit,h.taken.taken.put start data) := fun _ _ =>
      rsect_full hr.length (by omega)
    exact ⟨_,(bind_of_ok hc).trans (bind_of_error (hre _ _))⟩
  · have hre : rsect h.freeblock h.taken = (.error .exit,h.taken) :=
      rsect_full hr.length (by omega)
    have he : entryBlock h.freeblock (12 - 12) h.taken = (.error .exit,h.taken) := bind_of_error hre
    have hc : (directBlock s 12 >>= fun r => entryBlock r.1 (12 - 12) >>= fun x =>
        pure (x,r.2)) h = (.error .exit,h.taken) := (bind_of_ok hn).trans (bind_of_error he)
    exact ⟨_,bind_of_error hc⟩

lemma fileBlock_full_entry {f : Word32 × InodeStruct → List Byte → Build A}
    (hl : Layout h.image s n o) (hn : 12 < n) (hf : n < 140)
    (hro : 1000 < h.freeblock.toNat + cost n) :
    ∃ h', (fileBlock n s >>= fun r => rsect r.1 >>= f r) h = (.error .exit,h') := by
  have hle := hr.room
  have hco : cost n = 1 := if_neg (by omega)
  have ha := hl.holder.mpr hn
  have h0 := hl.unmapped (le_refl n)
  rw [entry_indirect hn.le hf ha] at h0
  have he := entryBlock_new hr.length (hl.small _ (hl.indirect ha)) (by omega) h0
  have hc : (directBlock s 12 >>= fun r => entryBlock r.1 (n - 12) >>= fun x =>
      pure (x,r.2)) h = _ := (bind_of_ok (directBlock_known ha)).trans (bind_of_ok he)
  have hre : ∀ start data, rsect h.freeblock (h.taken.put start data) =
      (.error .exit,h.taken.put start data) := fun _ _ =>
    rsect_full hr.length (by omega)
  rw [fileBlock_indirect hn.le]
  exact ⟨_,(bind_of_ok hc).trans (bind_of_error (hre _ _))⟩

lemma fileBlock_full {f : Word32 × InodeStruct → List Byte → Build A}
    (hl : Layout h.image s n o) (hf : n < 140) (hro : 1000 < h.freeblock.toNat + cost n) :
    ∃ h', (fileBlock n s >>= fun r => rsect r.1 >>= f r) h = (.error .exit,h') := by
  rcases lt_trichotomy n 12 with hn | rfl | hn
  · exact fileBlock_full_direct hr hl hn hro
  · exact fileBlock_full_holder hr hl hro
  · exact fileBlock_full_entry hr hl hn hf hro

end

end

def blocks (len : ℕ) : ℕ := (len + 511) / 512

def used (n : ℕ) : ℕ := n + if 12 < n then 1 else 0

lemma used_succ (n : ℕ) : used (n + 1) = used n + cost n := by
  unfold used cost
  split_ifs <;> omega

lemma used_mono {k : ℕ} (h : n ≤ k) : used n ≤ used k := by
  unfold used
  split_ifs <;> omega

structure Stage (h : Host) (s : InodeStruct) (own : Set ℕ) (data : List Byte) : Prop where
  ready : Ready h own
  holds : Holds h.image s (blocks data.length) own data

section
variable {h : Host} {s : InodeStruct} {o : Set ℕ} {d p : List Byte}

lemma Claimed.extends {h' : Host} {s' : InodeStruct} {x : Word32}
    (hc : Claimed h s n o h' s' x) :
    Extends h s o h' s' (claimed o h.freeblock.toNat n) := by
  have hf := hc.free
  refine ⟨hc.length,hc.freeinode,by omega,Set.subset_union_left,fun b hb => ?_,hc.outside,hc.type⟩
  exact hb.imp_right fun hb => ⟨hb.1,by rw [hf]; exact hb.2⟩

lemma Extends.put {pos : ℕ} (hb : b ∈ o) (hf : pos + d.length ≤ 512) :
    Extends h s o (h.put (512 * b + pos) d) s o :=
  ⟨rfl,rfl,le_rfl,subset_rfl,fun _ hb => .inl hb,fun _ hi => overwrite_block h.image hf (hi b hb),
    rfl⟩

lemma fileBlock_ok (hs : Stage h s o d) (hfa : d.length / 512 < 140)
    (hro : h.freeblock.toNat + used (d.length / 512 + 1) ≤ 1000 + used (blocks d.length)) :
    ∃ s' h' own', fileBlock (d.length / 512) s h =
        (.ok (s'.entry h'.image (d.length / 512),s'),h') ∧ Extends h s o h' s' own' ∧
      Ready h' own' ∧ Holds h'.image s' (d.length / 512 + 1) own' d ∧
      h'.freeblock.toNat + used (blocks d.length) =
        h.freeblock.toNat + used (d.length / 512 + 1) := by
  have hh := hs.holds
  by_cases hfu : d.length % 512 = 0
  · have hn : blocks d.length = d.length / 512 := by
      unfold blocks
      omega
    rw [hn] at hh hro ⊢
    rw [used_succ] at hro ⊢
    obtain ⟨s',h',x,hca,hc⟩ := fileBlock_claim hs.ready hh.layout hfa (by omega)
    have hf := hc.free
    have he := hc.extends
    rw [← hc.grown.new] at hca
    refine ⟨s',h',_,hca,he,hs.ready.extend he (by omega),hh.grow hc.grown,by omega⟩
  · have hn : blocks d.length = d.length / 512 + 1 := by
      unfold blocks
      omega
    rw [hn] at hh ⊢
    exact ⟨s,h,o,fileBlock_known hs.ready hh.layout (Nat.lt_succ_self _),.refl ..,hs.ready,hh,rfl⟩

lemma part_le (p : List Byte) (of : ℕ) : part p of ≤ 512 - of % 512 := by
  unfold part
  omega

lemma length_take_part (p : List Byte) (of : ℕ) : (p.take (part p of)).length = part p of := by
  rw [length_take]
  unfold part
  omega

lemma blocks_part {of : ℕ} (hp : p ≠ []) : blocks (of + part p of) = of / 512 + 1 := by
  have hpo := part_pos of hp
  have hle := part_le p of
  unfold blocks
  omega

lemma iappendLoop_step (hs : Stage h s o d) (hp : p ≠ []) (hfa : d.length / 512 < 140)
    (hro : h.freeblock.toNat + used (blocks (d.length + part p d.length)) ≤
      1000 + used (blocks d.length)) :
    ∃ h' s' own', iappendLoop p d.length s h = iappendLoop (p.drop (part p d.length))
        (d.length + part p d.length) s' h' ∧ Extends h s o h' s' own' ∧
      Stage h' s' own' (d ++ p.take (part p d.length)) ∧
      h'.freeblock.toNat + used (blocks d.length) =
        h.freeblock.toNat + used (blocks (d.length + part p d.length)) := by
  rw [blocks_part hp] at hro ⊢
  obtain ⟨s',h',own',hca,he,hre,hh,hf⟩ := fileBlock_ok hs hfa hro
  have hk : d.length / 512 < d.length / 512 + 1 := Nat.lt_succ_self _
  have hm := hh.layout.within _ hk
  have hsm := hh.layout.small _ hm
  have hpo : d.length - d.length / 512 * 512 = d.length % 512 := by omega
  have hc : (p.take (part p d.length)).length ≤ 512 - d.length % 512 := by
    rw [length_take_part]
    exact part_le p _
  have hfi : d.length % 512 + (p.take (part p d.length)).length ≤ 512 := by omega
  have hpu := Extends.put (h := h') (s := s') hm hfi
  refine ⟨_,s',own',?_,he.trans hpu,⟨hre.extend hpu hre.room,?_⟩,hf⟩
  · rw [iappendLoop,dif_neg hp,if_pos hfa,bind_of_ok hca,bind_of_ok (rsect_ok hre.length hsm),
      hpo,bind_of_ok (wsect_patch hre.length hsm hfi)]
  · rw [length_append,length_take_part,blocks_part hp]
    exact hh.write hk hc

structure Fits (h : Host) (len more : ℕ) : Prop where
  far : len + more ≤ 71680
  room : h.freeblock.toNat + used (blocks (len + more)) ≤ 1000 + used (blocks len)

lemma blocks_mono {a : ℕ} (hab : a ≤ b) : blocks a ≤ blocks b := by
  unfold blocks
  omega

lemma length_append_part (x p : List Byte) :
    (x ++ p.take (part p x.length)).length = x.length + part p x.length := by
  rw [length_append,length_take_part]

lemma part_le_length (p : List Byte) (of : ℕ) : part p of ≤ p.length := min_le_left ..

lemma iappendLoop_ok (hs : Stage h s o d) (hf : Fits h d.length p.length) :
    ∃ h' s' own', iappendLoop p d.length s h = (.ok (d.length + p.length,s'),h') ∧
      Extends h s o h' s' own' ∧ Stage h' s' own' (d ++ p) ∧
      h'.freeblock.toNat + used (blocks d.length) =
        h.freeblock.toNat + used (blocks (d.length + p.length)) := by
  induction hlen : p.length using Nat.strong_induction_on generalizing p d h s o with
  | h n ih =>
    subst hlen
    by_cases hp : p = []
    · subst hp
      refine ⟨h,s,o,?_,.refl ..,?_,rfl⟩
      · rw [iappendLoop,dif_pos rfl]
        rfl
      · rw [append_nil]
        exact hs
    · have hpo := part_pos d.length hp
      have hpl := part_le_length p d.length
      have hfa := hf.far
      have hro := hf.room
      have hm := used_mono (blocks_mono (Nat.add_le_add_left hpl d.length))
      obtain ⟨h₁,s₁,own₁,hcall₁,hext₁,hs₁,_⟩ := iappendLoop_step hs hp
        (by have hlp := length_pos_of_ne_nil hp; omega) (by omega)
      have hlen₁ := length_append_part d p
      have hd : (p.drop (part p d.length)).length = p.length - part p d.length := length_drop
      have ht : d.length + part p d.length + (p.length - part p d.length) =
          d.length + p.length := by omega
      have hfit₁ : Fits h₁ (d ++ p.take (part p d.length)).length
          (p.drop (part p d.length)).length := by
        rw [hlen₁,hd]
        refine ⟨by omega,?_⟩
        rw [ht]
        omega
      obtain ⟨h₂,s₂,own₂,hcall₂,hext₂,hs₂,hfree₂⟩ := ih _ (by omega) hs₁ hfit₁ rfl
      rw [hlen₁,hd,ht] at hcall₂ hfree₂
      rw [List.append_assoc,take_append_drop] at hs₂
      exact ⟨h₂,s₂,own₂,hcall₁.trans hcall₂,hext₁.trans hext₂,hs₂,by omega⟩

lemma Stage.length_le (hs : Stage h s o d) : d.length ≤ 71680 := by
  have hb := hs.holds.layout.below
  have hf := hs.holds.fits
  omega

lemma iappendLoop_full (hs : Stage h s o d) (hfi : ¬ Fits h d.length p.length) :
    ∃ e h', iappendLoop p d.length s h = (.error e,h') := by
  induction hlen : p.length using Nat.strong_induction_on generalizing p d h s o with
  | h n ih =>
    subst hlen
    by_cases hp : p = []
    · subst hp
      have hro := hs.ready.room
      exact absurd ⟨hs.length_le,by simp; omega⟩ hfi
    · by_cases hf : d.length / 512 < 140
      · by_cases hro : h.freeblock.toNat + used (blocks (d.length + part p d.length)) ≤
            1000 + used (blocks d.length)
        · obtain ⟨_,s₁,own₁,hcall₁,_,hs₁,_⟩ := iappendLoop_step hs hp hf hro
          have hpo := part_pos d.length hp
          have hpl := part_le_length p d.length
          have hlen₁ := length_append_part d p
          have hd : (p.drop (part p d.length)).length = p.length - part p d.length :=
            length_drop
          have ht : d.length + part p d.length + (p.length - part p d.length) =
              d.length + p.length := by omega
          rw [hcall₁,← hlen₁]
          refine ih _ (by omega) hs₁ (fun hfit₁ => hfi ?_) rfl
          have hfar₁ := hfit₁.far
          have hroom₁ := hfit₁.room
          rw [hlen₁,hd,ht] at hfar₁ hroom₁
          exact ⟨hfar₁,by omega⟩
        · have hre := hs.ready.room
          rw [blocks_part hp] at hro
          have hn : blocks d.length = d.length / 512 := by
            by_contra hne
            have hn : blocks d.length = d.length / 512 + 1 := by
              unfold blocks at hne ⊢
              omega
            rw [hn] at hro
            omega
          have hl := hs.holds.layout
          rw [hn] at hl hro
          rw [used_succ] at hro
          rw [iappendLoop,dif_neg hp,if_pos hf]
          exact ⟨_,fileBlock_full hs.ready hl hf (by omega)⟩
      · rw [iappendLoop,dif_neg hp,if_neg hf]
        exact ⟨_,_,rfl⟩

end

end Fs.Mkfs
