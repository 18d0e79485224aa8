import RaphKernel.Fs.BlockCtrl

namespace Fs
open Bytes Fallible BlockCtrl Storage

def indirectEntry (m : ℕ → Byte) (addr : Word32) (k : ℕ) : Word32 :=
  field 4 (slice m (entryOffset addr k) 4) 0

def InodeStruct.entry (s : InodeStruct) (m : ℕ → Byte) (i : ℕ) : Word32 :=
  if i < numOfDirectBlocks then s.addrs (Fin.ofNat 13 i)
  else if i < 140 ∧ s.addrs 12 ≠ 0 then indirectEntry m (s.addrs 12) (i - numOfDirectBlocks)
  else 0

namespace InodeStruct
variable {s : InodeStruct} {m : ℕ → Byte} {i : ℕ}

lemma entry_direct (hi : i < 12) : s.entry m i = s.addrs (Fin.ofNat 13 i) := if_pos hi

lemma entry_indirect (h12 : 12 ≤ i) (hi : i < 140) (h0 : s.addrs 12 ≠ 0) :
    s.entry m i = indirectEntry m (s.addrs 12) (i - 12) :=
  (if_neg h12.not_gt).trans (if_pos ⟨hi,h0⟩)

lemma entry_null (h12 : 12 ≤ i) (h0 : s.addrs 12 = 0) : s.entry m i = 0 :=
  (if_neg h12.not_gt).trans (if_neg fun h => h.2 h0)

lemma entry_far (hi : 140 ≤ i) : s.entry m i = 0 :=
  (if_neg (by omega : ¬ i < 12)).trans (if_neg fun h => hi.not_gt h.1)

end InodeStruct

lemma blockOffset_eq {addr : Word32} (h : addr.toNat < 2 ^ 23) :
    blockOffset addr = 512 * addr.toNat := by
  have hm : (addr * 512).toNat = addr.toNat * 512 % 2 ^ 32 := BitVec.toNat_mul addr 512
  rw [blockOffset,hm,Nat.mod_eq_of_lt (by omega),Nat.mul_comm]

section
variable {A : Type} {x : Io A} {d : Disk} {st' : Storage} {a : A} {e : Failure}

lemma onStorage_ok (h : x d.storage = (.ok a,st')) :
    onStorage x d = (.ok a,{ d with storage := st' }) := by
  rw [onStorage,h]

lemma onStorage_error (h : x d.storage = (.error e,st')) :
    onStorage x d = (.error e,{ d with storage := st' }) := by
  rw [onStorage,h]

end

section
variable {sb : SuperBlock} {alloc : Io Word32} {d : Disk} {st' : Storage} {i : ℕ} {k : Fin 13}
  {b a : Word32} {e : Failure}

lemma mapBlock_direct (hi : i < 12) :
    mapBlock sb alloc i = mapDirect sb alloc (Fin.ofNat 13 i) := if_pos hi

lemma mapBlock_indirect (h12 : 12 ≤ i) (hi : i < 140) :
    mapBlock sb alloc i = mapIndirect alloc >>= mapEntry alloc (i - 12) := by
  have h128 : i - 12 < 128 := by omega
  exact (if_neg h12.not_gt).trans (if_pos h128)

lemma mapBlock_far (hi : 140 ≤ i) : mapBlock sb alloc i d = (.error (.state .errInvalid),d) := by
  have h12 : ¬ i < 12 := by omega
  have h128 : ¬ i - 12 < 128 := by omega
  have heq : mapBlock sb alloc i = fail (.state .errInvalid) := (if_neg h12).trans (if_neg h128)
  rw [heq]
  rfl

lemma mapDirect_known (he : d.inode.st.addrs k ≠ 0) :
    mapDirect sb alloc k d = (.ok (d.inode.st.addrs k),d) := by
  rw [mapDirect,asks_bind,if_neg he]
  rfl

lemma mapDirect_error (he : d.inode.st.addrs k = 0) (ha : alloc d.storage = (.error e,st')) :
    mapDirect sb alloc k d = (.error e,{ d with storage := st' }) := by
  rw [mapDirect,asks_bind,if_pos he,bind_of_error (onStorage_error ha)]

def recorded (sb : SuperBlock) (d : Disk) (k : Fin 13) (b : Word32) (st : Storage) : Disk where
  inode := (d.setAddr k b).inode
  storage := (st.put (inodeOffset sb d.inode.index) (d.setAddr k b).inode.st.serialize).tick

lemma mapDirect_new (he : d.inode.st.addrs k = 0) (ha : alloc d.storage = (.ok b,st'))
    (hw : st'.Working) : mapDirect sb alloc k d = (.ok b,recorded sb d k b st') := by
  rw [mapDirect,asks_bind,if_pos he,bind_of_ok (onStorage_ok ha),update_bind]
  refine bind_of_ok (a := ()) ?_
  rw [writeInode,asks_bind]
  exact onStorage_ok (write_ok (hw ..))

lemma mapIndirect_known (ha : d.inode.st.addrs 12 ≠ 0) :
    mapIndirect alloc d = (.ok (d.inode.st.addrs 12),d) := by
  rw [mapIndirect,asks_bind,if_neg ha]
  rfl

lemma mapIndirect_new (h0 : d.inode.st.addrs 12 = 0) (ha : alloc d.storage = (.ok a,st')) :
    mapIndirect alloc d = (.ok a,Disk.setAddr 12 a { d with storage := st' }) := by
  rw [mapIndirect,asks_bind,if_pos h0,bind_of_ok (onStorage_ok ha),update_bind]
  rfl

lemma mapIndirect_error (h0 : d.inode.st.addrs 12 = 0) (ha : alloc d.storage = (.error e,st')) :
    mapIndirect alloc d = (.error e,{ d with storage := st' }) := by
  rw [mapIndirect,asks_bind,if_pos h0,bind_of_error (onStorage_error ha)]

lemma mapEntry_fault (hs : d.storage.status d.storage.clock (entryOffset a i) 4 ≠ .ok) :
    mapEntry alloc i a d = (.error (.state (d.storage.status d.storage.clock (entryOffset a i) 4)),
      { d with storage := d.storage.tick }) := by
  rw [mapEntry,bind_of_error (onStorage_error (read_error hs))]

lemma mapEntry_known (hs : d.storage.status d.storage.clock (entryOffset a i) 4 = .ok)
    (he : indirectEntry d.storage.bytes a i ≠ 0) :
    mapEntry alloc i a d = (.ok (indirectEntry d.storage.bytes a i),
      { d with storage := d.storage.tick }) := by
  unfold indirectEntry at he
  rw [mapEntry,bind_of_ok (onStorage_ok (read_ok hs)),if_neg he]
  rfl

lemma mapEntry_error (hw : d.storage.Working) (he : indirectEntry d.storage.bytes a i = 0)
    (ha : alloc d.storage.tick = (.error e,st')) :
    mapEntry alloc i a d = (.error e,{ d with storage := st' }) := by
  unfold indirectEntry at he
  rw [mapEntry,bind_of_ok (onStorage_ok (read_ok (hw ..))),if_pos he,
    bind_of_error (onStorage_error ha)]

lemma mapEntry_new (hw : d.storage.Working) (he : indirectEntry d.storage.bytes a i = 0)
    (ha : alloc d.storage.tick = (.ok b,st')) (hw' : st'.Working) :
    mapEntry alloc i a d = (.ok b,{ d with
      storage := (st'.put (entryOffset b i) (encode 4 0)).tick }) := by
  unfold indirectEntry at he
  rw [mapEntry,bind_of_ok (onStorage_ok (read_ok (hw ..))),if_pos he,
    bind_of_ok (onStorage_ok ha),he]
  exact bind_of_ok (onStorage_ok (write_ok (hw' ..)))

end

end Fs
