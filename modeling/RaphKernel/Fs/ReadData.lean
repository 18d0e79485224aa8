import RaphKernel.Fs.MapBlock

namespace Fs
open Bytes Fallible Storage Nat InodeStruct

def fileByte (s : InodeStruct) (m : ℕ → Byte) (x : ℕ) : Byte :=
  m (512 * (s.entry m (x / 512)).toNat + x % 512)

structure Mapped (s : InodeStruct) (m : ℕ → Byte) (k : ℕ) : Prop where
  nonzero : s.entry m k ≠ 0
  small : (s.entry m k).toNat < 2 ^ 23

def Storage.after (st : Storage) (n : ℕ) : Storage := { st with clock := st.clock + n }

lemma Storage.after_after (st : Storage) (j k : ℕ) : (st.after j).after k = st.after (j + k) := by
  unfold after
  rw [add_assoc]

def requests (k : ℕ) : ℕ := if k < 12 then 1 else 2

def answerAt (s : InodeStruct) (st : Storage) (p c : ℕ) : IoReturnState :=
  if p / 512 < 12 then st.status st.clock (512 * (s.entry st.bytes (p / 512)).toNat + p % 512) c
  else
    match st.status st.clock (entryOffset (s.addrs 12) (p / 512 - 12)) 4 with
    | .ok => st.status (st.clock + 1) (512 * (s.entry st.bytes (p / 512)).toNat + p % 512) c
    | e => e

section
variable {sb : SuperBlock} {a : Io Word32} {s : InodeStruct} {st : Storage} {n k p c : ℕ}

lemma entry_below {m : ℕ → Byte} (h : s.entry m k ≠ 0) : k < 140 := by
  by_contra hk
  exact h (entry_far (by omega))

lemma entry_linked {m : ℕ → Byte} (h : s.entry m k ≠ 0) (hk : 12 ≤ k) : s.addrs 12 ≠ 0 :=
  fun h0 => h (entry_null hk h0)

lemma mapBlock_entry (h : s.entry st.bytes k ≠ 0)
    (hs : 12 ≤ k → st.status st.clock (entryOffset (s.addrs 12) (k - 12)) 4 = .ok) :
    mapBlock sb a k ⟨⟨n,s⟩,st⟩ =
      (.ok (s.entry st.bytes k),⟨⟨n,s⟩,st.after (requests k - 1)⟩) := by
  by_cases hk : k < 12
  · have he := entry_direct (s := s) (m := st.bytes) hk
    have h0 : s.addrs (Fin.ofNat 13 k) ≠ 0 := he ▸ h
    have hn : st.after (requests k - 1) = st := by
      rw [requests,if_pos hk]
      rfl
    rw [mapBlock_direct hk,he,hn]
    exact mapDirect_known h0
  · have hk12 : 12 ≤ k := by omega
    have hin := entry_linked h hk12
    have he := entry_indirect (m := st.bytes) hk12 (entry_below h) hin
    have ho : st.after (requests k - 1) = st.tick := by
      rw [requests,if_neg hk]
      rfl
    rw [mapBlock_indirect hk12 (entry_below h),bind_of_ok (mapIndirect_known hin),he,ho]
    exact mapEntry_known (hs hk12) (he ▸ h)

lemma mapBlock_mapped (h : Mapped s st.bytes k)
    (hs : 12 ≤ k → st.status st.clock (entryOffset (s.addrs 12) (k - 12)) 4 = .ok) :
    mapBlock sb a k ⟨⟨n,s⟩,st⟩ =
      (.ok (s.entry st.bytes k),⟨⟨n,s⟩,st.after (requests k - 1)⟩) := mapBlock_entry h.nonzero hs

lemma mapBlock_fault (h : s.entry st.bytes k ≠ 0) (hk : 12 ≤ k)
    (hs : st.status st.clock (entryOffset (s.addrs 12) (k - 12)) 4 ≠ .ok) :
    mapBlock sb a k ⟨⟨n,s⟩,st⟩ =
      (.error (.state (st.status st.clock (entryOffset (s.addrs 12) (k - 12)) 4)),
        ⟨⟨n,s⟩,st.tick⟩) := by
  rw [mapBlock_indirect hk (entry_below h),bind_of_ok (mapIndirect_known (entry_linked h hk))]
  exact mapEntry_fault hs

lemma slice_fileByte (m : ℕ → Byte) (hc : c ≤ 512 - p % 512) :
    slice m (512 * (s.entry m (p / 512)).toNat + p % 512) c = slice (fileByte s m) p c := by
  refine List.map_congr_left fun i hi => ?_
  have hlt := List.mem_range.mp hi
  have hd : (p + i) / 512 = p / 512 := by omega
  have hm : (p + i) % 512 = p % 512 + i := by omega
  rw [fileByte,hd,hm,add_assoc]

lemma answerAt_requests (ha : answerAt s st p c = .ok) :
    (12 ≤ p / 512 → st.status st.clock (entryOffset (s.addrs 12) (p / 512 - 12)) 4 = .ok) ∧
      st.status (st.after (requests (p / 512) - 1)).clock
        (512 * (s.entry st.bytes (p / 512)).toNat + p % 512) c = .ok := by
  unfold answerAt at ha
  unfold requests
  split_ifs at ha ⊢ with hk
  · exact ⟨fun h => absurd hk h.not_gt,ha⟩
  · split at ha
    · rename_i hs
      exact ⟨fun _ => hs,ha⟩
    · rename_i hs
      exact absurd ha hs

lemma readBlock_eq (sb : SuperBlock) (v : Io Word32) (p c : ℕ) : readBlock sb v p c =
    mapBlock sb v (p / 512) >>= fun ad =>
      onStorage (Storage.read (blockOffset ad + p % 512) c) := rfl

lemma readBlock_ok (h : Mapped s st.bytes (p / 512)) (hc : c ≤ 512 - p % 512)
    (ha : answerAt s st p c = .ok) : readBlock sb a p c ⟨⟨n,s⟩,st⟩ =
      (.ok (slice (fileByte s st.bytes) p c),⟨⟨n,s⟩,st.after (requests (p / 512))⟩) := by
  obtain ⟨he,hd⟩ := answerAt_requests ha
  have hcl : (st.after (requests (p / 512) - 1)).tick = st.after (requests (p / 512)) := by
    have hp : 0 < requests (p / 512) := by
      unfold requests
      split_ifs <;> omega
    unfold after tick
    dsimp only
    rw [Nat.add_assoc,Nat.sub_add_cancel hp]
  have hmap : mapBlock sb a (p / 512) ⟨⟨n,s⟩,st⟩ = _ := mapBlock_mapped h he
  rw [readBlock_eq,bind_of_ok hmap,blockOffset_eq h.small,← hcl,← slice_fileByte st.bytes hc]
  exact onStorage_ok (read_ok hd)

lemma readBlock_fault (h : Mapped s st.bytes (p / 512)) (ha : answerAt s st p c ≠ .ok) :
    ∃ k, readBlock sb a p c ⟨⟨n,s⟩,st⟩ =
      (.error (.state (answerAt s st p c)),⟨⟨n,s⟩,st.after k⟩) := by
  by_cases hs : 12 ≤ p / 512 ∧ st.status st.clock (entryOffset (s.addrs 12) (p / 512 - 12)) 4 ≠ .ok
  · obtain ⟨hk,hs⟩ := hs
    have hmap : mapBlock sb a (p / 512) ⟨⟨n,s⟩,st⟩ = _ := mapBlock_fault h.nonzero hk hs
    have han : answerAt s st p c =
        st.status st.clock (entryOffset (s.addrs 12) (p / 512 - 12)) 4 := by
      rw [answerAt,if_neg hk.not_gt]
      split
      · contradiction
      · rfl
    refine ⟨1,?_⟩
    rw [readBlock_eq,bind_of_error hmap,han]
    rfl
  · have he : 12 ≤ p / 512 → st.status st.clock (entryOffset (s.addrs 12) (p / 512 - 12)) 4 = .ok :=
      fun hk => not_not.mp fun hne => hs ⟨hk,hne⟩
    have hmap : mapBlock sb a (p / 512) ⟨⟨n,s⟩,st⟩ = _ := mapBlock_mapped h he
    have han : answerAt s st p c = st.status (st.after (requests (p / 512) - 1)).clock
        (512 * (s.entry st.bytes (p / 512)).toNat + p % 512) c := by
      unfold answerAt requests
      split_ifs with hk
      · rfl
      · rw [he (by omega)]
        rfl
    rw [han] at ha ⊢
    refine ⟨requests (p / 512) - 1 + 1,?_⟩
    rw [readBlock_eq,bind_of_ok hmap,blockOffset_eq h.small]
    exact onStorage_error (read_error ha)

end

def position (offset size j : ℕ) : ℕ := min (max offset (512 * (offset / 512 + j))) (offset + size)

def requestsBefore (offset : ℕ) : ℕ → ℕ
  | 0 => 0
  | j + 1 => requestsBefore offset j + requests (offset / 512 + j)

def partSize (offset size j : ℕ) : ℕ :=
  curSize (position offset size j) (size - (position offset size j - offset))

def blockAnswer (s : InodeStruct) (st : Storage) (offset size j : ℕ) : IoReturnState :=
  answerAt s (st.after (requestsBefore offset j)) (position offset size j) (partSize offset size j)

section
variable {sb : SuperBlock} {a : Io Word32} {s : InodeStruct} {st : Storage} {n o sz j : ℕ}

lemma position_zero (of si : ℕ) : position of si 0 = of := by
  unfold position
  omega

lemma position_block (h : position o sz j < o + sz) :
    position o sz j / 512 = o / 512 + j := by
  unfold position at h ⊢
  omega

lemma position_succ (h : position o sz j < o + sz) :
    position o sz j + partSize o sz j = position o sz (j + 1) := by
  unfold partSize curSize
  unfold position at h ⊢
  omega

lemma position_ge (of si j : ℕ) : of ≤ position of si j := by
  unfold position
  omega

lemma position_end (of si : ℕ) : position of si (si + 1) = of + si := by
  unfold position
  omega

def loopAt (sb : SuperBlock) (alloc : Io Word32) (n : ℕ) (s : InodeStruct) (st : Storage)
    (offset size j : ℕ) : Except Failure ReadResult × Disk :=
  readLoop sb alloc size (position offset size j) (position offset size j - offset)
    (slice (fileByte s st.bytes) offset (position offset size j - offset))
    ⟨⟨n,s⟩,st.after (requestsBefore offset j)⟩

def Covered (s : InodeStruct) (m : ℕ → Byte) (offset size : ℕ) : Prop :=
  ∀ k, offset / 512 ≤ k → 512 * k < offset + size → Mapped s m k

lemma Covered.block (hmap : Covered s st.bytes o sz)
    (hj : position o sz j < o + sz) :
    Mapped s st.bytes (position o sz j / 512) := by
  rw [position_block hj]
  refine hmap _ (le_add_right _ _) ?_
  unfold position at hj
  omega

lemma loopAt_read (hmap : Mapped s st.bytes (position o sz j / 512))
    (hj : position o sz j < o + sz) (ha : blockAnswer s st o sz j = .ok) :
    readBlock sb a (position o sz j) (partSize o sz j)
      ⟨⟨n,s⟩,st.after (requestsBefore o j)⟩ =
      (.ok (slice (fileByte s st.bytes) (position o sz j) (partSize o sz j)),
        ⟨⟨n,s⟩,st.after (requestsBefore o (j + 1))⟩) := by
  have hp : partSize o sz j ≤ 512 - position o sz j % 512 := min_le_left ..
  have hr : readBlock sb a (position o sz j) (partSize o sz j)
      ⟨⟨n,s⟩,st.after (requestsBefore o j)⟩ = _ := readBlock_ok hmap hp ha
  rw [hr,position_block hj,after_after]
  rfl

def afterPart (sb : SuperBlock) (alloc : Io Word32) (buf : List Byte) (offset size j : ℕ) :
    Except Failure (List Byte) → Fallible Disk Failure ReadResult
  | .ok data => readLoop sb alloc size (position offset size j + partSize offset size j)
      (position offset size j - offset + partSize offset size j) (buf ++ data)
  | .error (.state e) => pure ⟨e,position offset size j - offset,buf⟩
  | .error e => fail e

lemma loopAt_unfold (hj : position o sz j < o + sz)
    {r : Except Failure (List Byte)} {d : Disk}
    (hr : readBlock sb a (position o sz j) (partSize o sz j)
      ⟨⟨n,s⟩,st.after (requestsBefore o j)⟩ = (r,d)) :
    loopAt sb a n s st o sz j = afterPart sb a
      (slice (fileByte s st.bytes) o (position o sz j - o)) o sz j r d := by
  have hge := position_ge o sz j
  have hs : curSize (position o sz j) (sz - (position o sz j - o)) =
      partSize o sz j := rfl
  rw [loopAt,readLoop,dif_pos (by omega : position o sz j - o < sz),hs,
    bind_of_ok (attempt_of hr)]
  rfl

section
variable (hmap : Mapped s st.bytes (position o sz j / 512))
  (hj : position o sz j < o + sz)
include hmap hj

lemma loopAt_next (ha : blockAnswer s st o sz j = .ok) :
    loopAt sb a n s st o sz j = loopAt sb a n s st o sz (j + 1) := by
  have hge := position_ge o sz j
  have hs := position_succ hj
  have ht : position o sz j - o + partSize o sz j =
      position o sz (j + 1) - o := by omega
  have hb : slice (fileByte s st.bytes) o (position o sz j - o) ++
      slice (fileByte s st.bytes) (position o sz j) (partSize o sz j) =
      slice (fileByte s st.bytes) o (position o sz (j + 1) - o) := by
    rw [← ht,slice_append]
    congr 2
    omega
  rw [loopAt_unfold hj (loopAt_read hmap hj ha),afterPart,hs,ht,hb]
  rfl

lemma loopAt_fault (ha : blockAnswer s st o sz j ≠ .ok) :
    ∃ k, loopAt sb a n s st o sz j =
      (.ok ⟨blockAnswer s st o sz j,position o sz j - o,
        slice (fileByte s st.bytes) o (position o sz j - o)⟩,
        ⟨⟨n,s⟩,st.after k⟩) := by
  obtain ⟨k,hr⟩ : ∃ k, readBlock sb a (position o sz j) (partSize o sz j)
      ⟨⟨n,s⟩,st.after (requestsBefore o j)⟩ = (.error (.state (blockAnswer s st o sz j)),
        ⟨⟨n,s⟩,(st.after (requestsBefore o j)).after k⟩) :=
    readBlock_fault hmap ha
  refine ⟨requestsBefore o j + k,?_⟩
  rw [loopAt_unfold hj hr,after_after]
  rfl

end

lemma loopAt_end (hj : position o sz j = o + sz) :
    loopAt sb a n s st o sz j = (.ok ⟨.ok,sz,slice (fileByte s st.bytes) o sz⟩,
      ⟨⟨n,s⟩,st.after (requestsBefore o j)⟩) := by
  have ht : o + sz - o = sz := by omega
  rw [loopAt,readLoop,hj,ht,dif_neg (lt_irrefl sz)]
  rfl

lemma loopAt_upto (hj : ∀ i < j, position o sz i < o + sz ∧
      Mapped s st.bytes (position o sz i / 512) ∧ blockAnswer s st o sz i = .ok) :
    loopAt sb a n s st o sz 0 = loopAt sb a n s st o sz j := by
  induction j with
  | zero => rfl
  | succ j ih =>
    obtain ⟨hlt,hmap,ha⟩ := hj j (lt_succ_self j)
    rw [ih fun i hi => hj i (lt_succ_of_lt hi),loopAt_next hmap hlt ha]

lemma loopAt_start : readLoop sb a sz o 0 [] ⟨⟨n,s⟩,st⟩ =
    loopAt sb a n s st o sz 0 := by
  rw [loopAt,position_zero,Nat.sub_self]
  rfl

lemma position_mono {i : ℕ} (h : i ≤ j) : position o sz i ≤ position o sz j := by
  unfold position
  omega

lemma readLoop_ok (hmap : Covered s st.bytes o sz)
    (ha : ∀ j, position o sz j < o + sz → blockAnswer s st o sz j = .ok) :
    ∃ k, readLoop sb a sz o 0 [] ⟨⟨n,s⟩,st⟩ =
      (.ok ⟨.ok,sz,slice (fileByte s st.bytes) o sz⟩,⟨⟨n,s⟩,st.after k⟩) := by
  classical
  have hex : ∃ j, position o sz j = o + sz := ⟨sz + 1,position_end o sz⟩
  have hb : ∀ i < Nat.find hex, position o sz i < o + sz := fun i hi =>
    lt_of_le_of_ne (min_le_right ..) (Nat.find_min hex hi)
  have hs : readLoop sb a sz o 0 [] ⟨⟨n,s⟩,st⟩ =
      loopAt sb a n s st o sz 0 := loopAt_start
  rw [hs,loopAt_upto fun i hi =>
    ⟨hb i hi,hmap.block (hb i hi),ha i (hb i hi)⟩,loopAt_end (Nat.find_spec hex)]
  exact ⟨_,rfl⟩

lemma readLoop_fault (hmap : Covered s st.bytes o sz)
    (hj : position o sz j < o + sz)
    (hb : ∀ i < j, blockAnswer s st o sz i = .ok)
    (ha : blockAnswer s st o sz j ≠ .ok) :
    ∃ k, readLoop sb a sz o 0 [] ⟨⟨n,s⟩,st⟩ =
      (.ok ⟨blockAnswer s st o sz j,position o sz j - o,
        slice (fileByte s st.bytes) o (position o sz j - o)⟩,
        ⟨⟨n,s⟩,st.after k⟩) := by
  have hs : readLoop sb a sz o 0 [] ⟨⟨n,s⟩,st⟩ =
      loopAt sb a n s st o sz 0 := loopAt_start
  have hlt : ∀ i < j, position o sz i < o + sz := fun i hi =>
    lt_of_le_of_lt (position_mono hi.le) hj
  rw [hs,loopAt_upto fun i hi => ⟨hlt i hi,hmap.block (hlt i hi),hb i hi⟩]
  exact loopAt_fault (hmap.block hj) hj ha

end

def Rejected (s : InodeStruct) (offset size : Raph.Word) : Prop :=
  s.size.toNat < offset.toNat ∨ 2 ^ 64 ≤ offset.toNat + size.toNat

def available (s : InodeStruct) (offset size : Raph.Word) : ℕ :=
  min size.toNat (s.size.toNat - offset.toNat)

section
variable {sb : SuperBlock} {a : Io Word32} {s : InodeStruct} {st : Storage} {n : ℕ}
  {o sz : Raph.Word}

lemma wraps_iff : o + sz < o ↔ 2 ^ 64 ≤ o.toNat + sz.toNat := by
  have ho := o.isLt
  have hs := sz.isLt
  rw [BitVec.lt_def,BitVec.toNat_add]
  constructor
  · intro h
    by_contra hlt
    rw [mod_eq_of_lt (by omega)] at h
    omega
  · intro h
    rw [mod_eq_sub_mod h,mod_eq_of_lt (by omega)]
    omega

lemma readDataFromInode_rejected (h : Rejected s o sz) :
    readDataFromInode sb a o sz ⟨⟨n,s⟩,st⟩ =
      (.ok ⟨.errInvalid,sz.toNat,[]⟩,⟨⟨n,s⟩,st⟩) := by
  rw [readDataFromInode,asks_bind,if_pos (h.imp_right wraps_iff.mpr)]
  rfl

lemma readDataFromInode_accepted (h : ¬ Rejected s o sz) :
    readDataFromInode sb a o sz ⟨⟨n,s⟩,st⟩ =
      readLoop sb a (available s o sz) o.toNat 0 [] ⟨⟨n,s⟩,st⟩ := by
  rw [readDataFromInode,asks_bind,if_neg fun h' => h (h'.imp_right wraps_iff.mp)]
  obtain ⟨_,_⟩ := not_or.mp h
  unfold available
  split_ifs with hc
  · have hm : min sz.toNat (s.size.toNat - o.toNat) = s.size.toNat - o.toNat := by
      dsimp only at hc
      omega
    rw [hm]
  · have hm : min sz.toNat (s.size.toNat - o.toNat) = sz.toNat := by
      dsimp only at hc
      omega
    rw [hm]

lemma answerAt_cases (s : InodeStruct) (st : Storage) (p c : ℕ) :
    ∃ k o z, answerAt s st p c = st.status k o z := by
  unfold answerAt
  split_ifs
  · exact ⟨_,_,_,rfl⟩
  · split
    · exact ⟨_,_,_,rfl⟩
    · exact ⟨_,_,_,rfl⟩

end

structure ReadCorrect (sb : SuperBlock) (alloc : Io Word32) (n : ℕ) (s : InodeStruct) (st : Storage)
    (offset size : Raph.Word) : Prop where
  rejected : Rejected s offset size → readDataFromInode sb alloc offset size ⟨⟨n,s⟩,st⟩ =
    (.ok ⟨.errInvalid,size.toNat,[]⟩,⟨⟨n,s⟩,st⟩)
  complete : ¬ Rejected s offset size →
    (∀ j, position offset.toNat (available s offset size) j <
      offset.toNat + available s offset size →
      blockAnswer s st offset.toNat (available s offset size) j = .ok) →
    ∃ k, readDataFromInode sb alloc offset size ⟨⟨n,s⟩,st⟩ =
      (.ok ⟨.ok,available s offset size,
        slice (fileByte s st.bytes) offset.toNat (available s offset size)⟩,⟨⟨n,s⟩,st.after k⟩)
  fault : ¬ Rejected s offset size → ∀ j, position offset.toNat (available s offset size) j <
      offset.toNat + available s offset size →
    (∀ i < j, blockAnswer s st offset.toNat (available s offset size) i = .ok) →
    blockAnswer s st offset.toNat (available s offset size) j ≠ .ok →
    ∃ k, readDataFromInode sb alloc offset size ⟨⟨n,s⟩,st⟩ =
      (.ok ⟨blockAnswer s st offset.toNat (available s offset size) j,
        position offset.toNat (available s offset size) j - offset.toNat,
        slice (fileByte s st.bytes) offset.toNat
          (position offset.toNat (available s offset size) j - offset.toNat)⟩,⟨⟨n,s⟩,st.after k⟩)
  invalid : (∀ k o z, st.status k o z ≠ .errInvalid) → ((∃ r d,
      readDataFromInode sb alloc offset size ⟨⟨n,s⟩,st⟩ = (.ok r,d) ∧ r.state = .errInvalid) ↔
    Rejected s offset size)
  pieces : st.Working → ∀ more : Raph.Word, offset.toNat + size.toNat ≤ s.size.toNat →
    offset.toNat + size.toNat + more.toNat < 2 ^ 64 → ∃ a b c d e f,
      readDataFromInode sb alloc offset size ⟨⟨n,s⟩,st⟩ = (.ok a,d) ∧
      readDataFromInode sb alloc (offset + size) more d = (.ok b,e) ∧
      readDataFromInode sb alloc offset (size + more) ⟨⟨n,s⟩,st⟩ = (.ok c,f) ∧
      a.state = .ok ∧ b.state = .ok ∧ c.state = .ok ∧ a.data ++ b.data = c.data ∧
      a.size + b.size = c.size

section
variable {sb : SuperBlock} {alloc : Io Word32} {s : InodeStruct} {st : Storage} {n : ℕ}
  {of sz : Raph.Word}

lemma covered_available (hmap : ∀ k, 512 * k < s.size.toNat → Mapped s st.bytes k)
    (h : ¬ Rejected s of sz) :
    Covered s st.bytes of.toNat (available s of sz) := by
  intro k _ hk
  refine hmap k ?_
  obtain ⟨_,_⟩ := not_or.mp h
  unfold available at hk
  omega

lemma blockAnswer_working (hw : st.Working) (off si j : ℕ) :
    blockAnswer s st off si j = .ok := by
  obtain ⟨k,o,z,heq⟩ := answerAt_cases s _
    (position off si j) _
  rw [blockAnswer,heq]
  exact hw k o z

lemma read_working (sb : SuperBlock) (a : Io Word32) (n : ℕ)
    (hmap : ∀ k, 512 * k < s.size.toNat → Mapped s st.bytes k) (hw : st.Working)
    (h : ¬ Rejected s of sz) : ∃ k, readDataFromInode sb a of sz ⟨⟨n,s⟩,st⟩ =
      (.ok ⟨.ok,available s of sz,
        slice (fileByte s st.bytes) of.toNat (available s of sz)⟩,⟨⟨n,s⟩,st.after k⟩) := by
  rw [readDataFromInode_accepted h]
  exact readLoop_ok (covered_available hmap h) fun j _ => blockAnswer_working hw _ _ j

lemma read_pieces (hmap : ∀ k, 512 * k < s.size.toNat → Mapped s st.bytes k)
    (hw : st.Working) (m : Raph.Word) (hfi : of.toNat + sz.toNat ≤ s.size.toNat)
    (hwr : of.toNat + sz.toNat + m.toNat < 2 ^ 64) : ∃ a b c d e f,
      readDataFromInode sb alloc of sz ⟨⟨n,s⟩,st⟩ = (.ok a,d) ∧
      readDataFromInode sb alloc (of + sz) m d = (.ok b,e) ∧
      readDataFromInode sb alloc of (sz + m) ⟨⟨n,s⟩,st⟩ = (.ok c,f) ∧
      a.state = .ok ∧ b.state = .ok ∧ c.state = .ok ∧ a.data ++ b.data = c.data ∧
      a.size + b.size = c.size := by
  have hsu : (of + sz).toNat = of.toNat + sz.toNat := BitVec.toNat_add_of_lt (by omega)
  have hm : (sz + m).toNat = sz.toNat + m.toNat := BitVec.toNat_add_of_lt (by omega)
  have hf : ¬ Rejected s of sz := by
    rintro (h | h) <;> omega
  have hs : ¬ Rejected s (of + sz) m := by
    unfold Rejected
    rw [hsu]
    omega
  have hwh : ¬ Rejected s of (sz + m) := by
    unfold Rejected
    rw [hm]
    omega
  have ha : available s of sz = sz.toNat := by
    unfold available
    omega
  have hc : available s of (sz + m) = sz.toNat + available s (of + sz) m := by
    unfold available
    rw [hsu,hm]
    omega
  obtain ⟨j,hj⟩ := read_working sb alloc n hmap hw hf
  have hma' : ∀ k, 512 * k < s.size.toNat → Mapped s (st.after j).bytes k := hmap
  have hw' : (st.after j).Working := hw
  obtain ⟨k,hk⟩ := read_working sb alloc n hma' hw' hs
  obtain ⟨l,hl⟩ := read_working sb alloc n hmap hw hwh
  refine ⟨_,_,_,_,_,_,hj,hk,hl,rfl,rfl,rfl,?_,?_⟩
  · dsimp only
    rw [hc,slice_append,ha,hsu]
    rfl
  · dsimp only
    rw [hc,ha]

lemma read_state (sb : SuperBlock) (v : Io Word32) (n : ℕ)
    (hmap : ∀ k, 512 * k < s.size.toNat → Mapped s st.bytes k) (h : ¬ Rejected s of sz) :
    ∃ r d, readDataFromInode sb v of sz ⟨⟨n,s⟩,st⟩ = (.ok r,d) ∧
      (r.state = .ok ∨ ∃ k o z, r.state = st.status k o z) := by
  have hc := covered_available hmap h
  rw [readDataFromInode_accepted h]
  by_cases ha : ∀ j, position of.toNat (available s of sz) j <
      of.toNat + available s of sz →
      blockAnswer s st of.toNat (available s of sz) j = .ok
  · obtain ⟨k,hk⟩ := readLoop_ok hc ha
    exact ⟨_,_,hk,.inl rfl⟩
  · push Not at ha
    classical
    obtain ⟨hlt,hne⟩ := Nat.find_spec ha
    have hb : ∀ i < Nat.find ha,
        blockAnswer s st of.toNat (available s of sz) i = .ok := by
      intro i hi
      by_contra hi'
      exact Nat.find_min ha hi ⟨lt_of_le_of_lt (position_mono hi.le) hlt,hi'⟩
    obtain ⟨k,hk⟩ := readLoop_fault hc hlt hb hne
    exact ⟨_,_,hk,.inr (answerAt_cases s _ _ _)⟩

theorem readDataFromInode_correct
    (hmap : ∀ k, 512 * k < s.size.toNat → Mapped s st.bytes k) (offset size : Raph.Word) :
    ReadCorrect sb alloc n s st offset size := by
  refine ⟨readDataFromInode_rejected,?_,?_,?_,read_pieces hmap⟩
  · intro h hal
    rw [readDataFromInode_accepted h]
    exact readLoop_ok (covered_available hmap h) hal
  · intro h j hj hb ha
    rw [readDataFromInode_accepted h]
    exact readLoop_fault (covered_available hmap h) hj hb ha
  · intro hst
    constructor
    · rintro ⟨r,d,hc,hs⟩
      by_contra h
      obtain ⟨r',d',hc',hs'⟩ := read_state sb alloc n hmap h
      obtain ⟨rfl,rfl⟩ : r = r' ∧ d = d' := by
        rw [hc] at hc'
        cases hc'
        exact ⟨rfl,rfl⟩
      rcases hs' with hok | ⟨k,o,z,hk⟩
      · rw [hs] at hok
        cases hok
      · exact hst k o z (hk.symm.trans hs)
    · intro h
      exact ⟨_,_,readDataFromInode_rejected h,rfl⟩

end

def shortInode : InodeStruct := ⟨2,0,0,1,3,fun k => if k = 0 then 5 else 0⟩

def shortStorage : Storage := ⟨fun x => BitVec.ofNat 8 x,fun k _ _ => if k = 0 then .ok else .errHardware,0⟩

lemma shortInode_mapped (k : ℕ) (hk : 512 * k < shortInode.size.toNat) :
    Mapped shortInode shortStorage.bytes k := by
  have hk3 : 512 * k < 3 := hk
  obtain rfl : k = 0 := by omega
  exact ⟨by decide,by decide⟩

theorem readDataFromInode_short : (∀ k, 512 * k < shortInode.size.toNat →
      Mapped shortInode shortStorage.bytes k) ∧
    ReadCorrect BlockCtrl.smallBlock (fail .spin) 1 shortInode shortStorage 1 7 :=
  ⟨shortInode_mapped,readDataFromInode_correct shortInode_mapped 1 7⟩

end Fs
