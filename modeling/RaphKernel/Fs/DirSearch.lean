import RaphKernel.Fs.ReadData
import RaphKernel.Fs.Vfs

namespace Fs
open Bytes Fallible List Nat
variable {d d' : Disk} {data : List Byte} {r : ReadResult}

def strcmp : List Byte → (ℕ → Byte) → ℤ
  | [], s2 => 0 - (s2 0).toInt
  | c :: s1, s2 => if c = s2 0 then strcmp s1 fun j => s2 (j + 1) else c.toInt - (s2 0).toInt

def memory (field : List Byte) (tail : ℕ → Byte) : ℕ → Byte := fun j =>
  (field[j]?).getD (tail (j - field.length))

def searchLoop (sb : SuperBlock) (alloc : Io Word32) (tail : ℕ → ℕ → Byte) (name : List Byte)
    (size i : ℕ) : Fallible Disk Failure (ℕ × BitVec 16) :=
  if h : i < size then do
    let r ← readDataFromInode sb alloc (BitVec.ofNat 64 i) 16
    if r.state ≠ .ok then fail (.state r.state)
    else if r.size ≠ 16 then fail (.state .errInvalid)
    else if (DirEntry.parse r.data).inum = 0 then searchLoop sb alloc tail name size (i + 16)
    else if strcmp name (memory (DirEntry.parse r.data).name (tail i)) = 0 then
      pure (i,(DirEntry.parse r.data).inum)
    else searchLoop sb alloc tail name size (i + 16)
  else fail (.state .errNotFound)
termination_by size - i

def searchDir (sb : SuperBlock) (alloc : Io Word32) (tail : ℕ → ℕ → Byte) (name : List Byte) :
    Fallible Disk Failure (ℕ × BitVec 16) := do
  let inode ← asks fun d => d.inode.st
  if inode.type ≠ 1 then fail (.state .errInvalid)
  else searchLoop sb alloc tail name inode.size.toNat 0

def v6Searching (sb : SuperBlock) (alloc : Io Word32) (tail : ℕ → ℕ → Byte) :
    DiskFileSystem Storage where
  rootInodeNum := 1
  getStatOfInode := (v6FileSystem sb alloc).getStatOfInode
  readDataFromInode := (v6FileSystem sb alloc).readDataFromInode
  dirLookup inum name := do
    let found ← withInode sb inum (searchDir sb alloc tail name)
    pure (found.1,found.2.setWidth 32)

section
variable {name field : List Byte} {tail : ℕ → Byte}

lemma memory_cons (b : Byte) (field : List Byte) (tail : ℕ → Byte) :
    (fun j => memory (b :: field) tail (j + 1)) = memory field tail := by
  funext j
  simp [memory]

lemma byte_sub {b c : Byte} : b.toInt - c.toInt = 0 ↔ b = c := by
  rw [sub_eq_zero,BitVec.toInt_inj]

lemma cstring_cons (b : Byte) (field : List Byte) :
    cstring (b :: field) = if b = 0 then [] else b :: cstring field := by
  unfold cstring
  split_ifs with hb
  · exact takeWhile_cons_of_neg (by simp [hb])
  · exact takeWhile_cons_of_pos (by simpa using hb)

lemma strcmp_eq_zero (htext : 0 ∉ name) (hlen : name.length ≤ field.length) :
    strcmp name (memory field tail) = 0 ↔
      cstring field = name ∧ (name.length = field.length → tail 0 = 0) := by
  induction name generalizing field with
  | nil =>
    have hz : strcmp [] (memory field tail) = 0 ↔ memory field tail 0 = 0 :=
      (byte_sub (b := 0)).trans eq_comm
    rw [hz]
    cases field with
    | nil => simp [memory,cstring]
    | cons b field => by_cases hb : b = 0 <;> simp [memory,cstring_cons,hb]
  | cons c name ih =>
    cases field with
    | nil => exact absurd hlen (by simp)
    | cons b field =>
      obtain ⟨hc,hr⟩ := not_or.mp fun h => htext (mem_cons.mpr h)
      have hh : memory (b :: field) tail 0 = b := rfl
      rw [strcmp,hh,memory_cons,cstring_cons]
      by_cases hcb : c = b
      · subst hcb
        rw [if_pos rfl,if_neg (Ne.symm hc),ih hr (le_of_succ_le_succ hlen)]
        simp
      · rw [if_neg hcb,byte_sub]
        refine iff_of_false hcb fun h => ?_
        have hcs := h.1
        split_ifs at hcs
        exact hcb (cons.inj hcs).1.symm

end

section
variable {sb : SuperBlock} {alloc : Io Word32} {offset size total : ℕ} {buf : List Byte}

lemma readBlock_length (h : readBlock sb alloc offset size d = (.ok data,d')) :
    data.length = size := by
  obtain ⟨addr,d₁,_,hr⟩ := bind_ok.mp h
  by_cases hs : d₁.storage.status d₁.storage.clock (blockOffset addr + offset % blockSize) size = .ok
  · rw [onStorage,Storage.read_ok hs] at hr
    cases hr
    exact length_slice ..
  · rw [onStorage,Storage.read_error hs] at hr
    cases hr

lemma readLoop_length (hb : buf.length = total) (ht : total ≤ size)
    (h : readLoop sb alloc size offset total buf d = (.ok r,d')) : r.data.length = r.size := by
  induction hn : size - total using Nat.strong_induction_on generalizing offset total buf d with
  | _ n ih =>
    rw [readLoop] at h
    split_ifs at h with hlt
    · obtain ⟨result,d₁,ha,hm⟩ := bind_ok.mp h
      have hp := curSize_pos offset (Nat.sub_pos_of_lt hlt)
      have hc : curSize offset (size - total) ≤ size - total := Nat.min_le_right ..
      cases ha
      rcases hx : readBlock sb alloc offset (curSize offset (size - total)) d with ⟨x,d₁⟩
      rw [hx] at hm
      cases x with
      | ok data =>
        have hl := readBlock_length hx
        exact ih _ (by omega) (by rw [length_append,hb,hl]) (by omega) hm rfl
      | error e =>
        cases e <;> cases hm
        exact hb
    · cases h
      exact hb.trans (ht.antisymm (not_lt.mp hlt))

lemma readData_length {offset size : Raph.Word} (hr : r.state = .ok)
    (h : readDataFromInode sb alloc offset size d = (.ok r,d')) : r.data.length = r.size := by
  rw [readDataFromInode,asks_bind] at h
  split_ifs at h
  · cases h
    cases hr
  all_goals exact readLoop_length length_nil (Nat.zero_le _) h

-- the byte behind the entry decides only about names that fill their field
variable {name : List Byte} {tail : ℕ → ℕ → Byte} (htext : 0 ∉ name) (hlen : name.length ≤ 14)
  (htail : name.length = 14 → ∀ i, tail i 0 = 0)
include htext hlen htail

lemma searchLoop_dirLoop (i : ℕ) :
    searchLoop sb alloc tail name size i = dirLoop sb alloc name size i := by
  induction hn : size - i using Nat.strong_induction_on generalizing i with
  | _ n ih =>
    rw [searchLoop,dirLoop]
    split_ifs with hlt
    · funext d
      rcases hr : readDataFromInode sb alloc (BitVec.ofNat 64 i) 16 d with ⟨x,d'⟩
      cases x with
      | error e => rw [bind_of_error hr,bind_of_error hr]
      | ok r =>
        rw [bind_of_ok hr,bind_of_ok hr,ih _ (by omega) _ rfl]
        by_cases hs : r.state = .ok ∧ r.size = 16
        · have hf : (DirEntry.parse r.data).name.length = 14 := by
            have hl := readData_length hs.1 hr
            simp only [DirEntry.parse,length_take,length_drop,hl,hs.2]
            rfl
          have hc : strcmp name (memory (DirEntry.parse r.data).name (tail i)) = 0 ↔
              name = cstring (DirEntry.parse r.data).name := by
            rw [strcmp_eq_zero htext (by omega),hf]
            exact (and_iff_left fun h => htail h i).trans eq_comm
          simp only [hc]
        · rw [not_and_or] at hs
          rcases hs with hs | hs <;> simp only [ne_eq,hs,not_false_eq_true,if_true]
    · rfl

lemma searchDir_dirLookup : searchDir sb alloc tail name = dirLookup sb alloc name := by
  unfold searchDir dirLookup
  simp only [searchLoop_dirLoop htext hlen htail]

end

def direntAt (s : InodeStruct) (m : ℕ → Byte) (j : ℕ) : DirEntry :=
  .parse (slice m (blockOffset (s.entry m (j / 32)) + 16 * (j % 32)) 16)

def Named (s : InodeStruct) (m : ℕ → Byte) (name : List Byte) (j : ℕ) : Prop :=
  (direntAt s m j).inum ≠ 0 ∧ cstring (direntAt s m j).name = name

instance (s : InodeStruct) (m : ℕ → Byte) (name : List Byte) (j : ℕ) : Decidable (Named s m name j) :=
  inferInstanceAs (Decidable (_ ∧ _))

structure First (s : InodeStruct) (m : ℕ → Byte) (name : List Byte) (j : ℕ) : Prop where
  inside : 16 * (j + 1) ≤ s.size.toNat
  named : Named s m name j
  before : ∀ i < j, ¬ Named s m name i

structure Finds (s : InodeStruct) (m : ℕ → Byte) (name : List Byte)
    (r : Except Failure (ℕ × BitVec 16)) : Prop where
  found : ∀ j, First s m name j → r = .ok (16 * j,(direntAt s m j).inum)
  missing : r = .error (.state .errNotFound) ↔
    ∀ j, 16 * (j + 1) ≤ s.size.toNat → ¬ Named s m name j

structure Confined (s : InodeStruct) (m : ℕ → Byte) (name : List Byte) : Prop where
  terminated : name.length = 14 → ∀ j, 16 * (j + 1) ≤ s.size.toNat → ¬ Named s m name j
  whole : s.size.toNat % 16 = 0 ∨ ∃ j, 16 * (j + 1) ≤ s.size.toNat ∧ Named s m name j

def Linked (s : InodeStruct) (m : ℕ → Byte) : Prop :=
  ∀ k, 512 * k < s.size.toNat → s.entry m k ≠ 0

section
variable {sb : SuperBlock} {alloc : Io Word32} {s : InodeStruct} {st : Storage} {n p c : ℕ}
  {tail : ℕ → ℕ → Byte} {name : List Byte} {i j t : ℕ} {m : ℕ → Byte}

lemma readBlock_entry (hw : st.Working) (h : s.entry st.bytes (p / 512) ≠ 0) :
    ∃ k, readBlock sb alloc p c ⟨⟨n,s⟩,st⟩ =
      (.ok (slice st.bytes (blockOffset (s.entry st.bytes (p / 512)) + p % 512) c),
        ⟨⟨n,s⟩,st.after k⟩) := by
  have hm : mapBlock sb alloc (p / 512) ⟨⟨n,s⟩,st⟩ = _ := mapBlock_entry h fun _ => hw ..
  refine ⟨requests (p / 512) - 1 + 1,?_⟩
  rw [readBlock_eq,bind_of_ok hm]
  exact onStorage_ok (Storage.read_ok (hw ..))

lemma readLoop_single (hc : 0 < c) (hf : p % 512 + c ≤ 512)
    (hr : readBlock sb alloc p c d = (.ok data,d')) :
    readLoop sb alloc c p 0 [] d = (.ok ⟨.ok,c,data⟩,d') := by
  have hcu : curSize p (c - 0) = c := by
    unfold curSize
    omega
  rw [readLoop,dif_pos hc,hcu,bind_of_ok (attempt_of hr)]
  dsimp only
  rw [zero_add,readLoop,dif_neg (lt_irrefl c),nil_append]
  rfl

lemma readLoop_error {e : Failure} (hc : 0 < c) (hf : p % 512 + c ≤ 512)
    (hr : readBlock sb alloc p c d = (.error e,d')) :
    readLoop sb alloc c p 0 [] d = (match e with
        | .state x => .ok ⟨x,0,[]⟩
        | e => .error e,d') := by
  have hcu : curSize p (c - 0) = c := by
    unfold curSize
    omega
  rw [readLoop,dif_pos hc,hcu,bind_of_ok (attempt_of hr)]
  cases e <;> rfl

lemma read_inside (hp : p < s.size.toNat) :
    readDataFromInode sb alloc (BitVec.ofNat 64 p) 16 ⟨⟨n,s⟩,st⟩ =
      readLoop sb alloc (min 16 (s.size.toNat - p)) p 0 [] ⟨⟨n,s⟩,st⟩ := by
  have hs := s.size.isLt
  have ho : (BitVec.ofNat 64 p).toNat = p := by
    rw [BitVec.toNat_ofNat]
    omega
  have h16 : (16 : Raph.Word).toNat = 16 := rfl
  have ha : ¬ Rejected s (BitVec.ofNat 64 p) 16 := by
    unfold Rejected
    omega
  rw [readDataFromInode_accepted ha,available,ho,h16]

lemma read_within (hw : st.Working) (hlink : s.entry st.bytes (p / 512) ≠ 0)
    (hp : p < s.size.toNat) (h16 : p % 16 = 0) : ∃ k,
      readDataFromInode sb alloc (BitVec.ofNat 64 p) 16 ⟨⟨n,s⟩,st⟩ =
        (.ok ⟨.ok,min 16 (s.size.toNat - p),
          slice st.bytes (blockOffset (s.entry st.bytes (p / 512)) + p % 512)
            (min 16 (s.size.toNat - p))⟩,⟨⟨n,s⟩,st.after k⟩) := by
  obtain ⟨k,hr⟩ := readBlock_entry hw hlink
  exact ⟨k,(read_inside hp).trans (readLoop_single (by omega) (by omega) hr)⟩

def Hit (s : InodeStruct) (m : ℕ → Byte) (tail : ℕ → ℕ → Byte) (name : List Byte) (j : ℕ) : Prop :=
  (direntAt s m j).inum ≠ 0 ∧ strcmp name (memory (direntAt s m j).name (tail (16 * j))) = 0

lemma length_direntAt (s : InodeStruct) (m : ℕ → Byte) (j : ℕ) :
    (direntAt s m j).name.length = 14 := by
  simp [direntAt,DirEntry.parse]

lemma hit_iff (htext : 0 ∉ name) (hlen : name.length ≤ 14) :
    Hit s m tail name j ↔ Named s m name j ∧ (name.length = 14 → tail (16 * j) 0 = 0) := by
  have hf := length_direntAt s m j
  rw [Hit,strcmp_eq_zero htext (by omega),hf,Named,and_assoc]

lemma searchLoop_direntAt (hw : st.Working) (hlink : s.entry st.bytes (j / 32) ≠ 0)
    (hin : 16 * (j + 1) ≤ s.size.toNat) : ∃ k, (Hit s st.bytes tail name j →
        searchLoop sb alloc tail name s.size.toNat (16 * j) ⟨⟨n,s⟩,st⟩ =
          (.ok (16 * j,(direntAt s st.bytes j).inum),⟨⟨n,s⟩,st.after k⟩)) ∧
      (¬ Hit s st.bytes tail name j →
        searchLoop sb alloc tail name s.size.toNat (16 * j) ⟨⟨n,s⟩,st⟩ =
          searchLoop sb alloc tail name s.size.toNat (16 * (j + 1)) ⟨⟨n,s⟩,st.after k⟩) := by
  have hd : 16 * j / 512 = j / 32 := by omega
  have hmo : 16 * j % 512 = 16 * (j % 32) := by omega
  have hmi : min 16 (s.size.toNat - 16 * j) = 16 := by omega
  obtain ⟨k,hr⟩ : ∃ k, readDataFromInode sb alloc (BitVec.ofNat 64 (16 * j)) 16 ⟨⟨n,s⟩,st⟩ =
      (.ok _,⟨⟨n,s⟩,st.after k⟩) := read_within hw (hd.symm ▸ hlink) (by omega) (by omega)
  rw [hd,hmo,hmi] at hr
  have hre : DirEntry.parse (slice st.bytes (blockOffset (s.entry st.bytes (j / 32)) +
    16 * (j % 32)) 16) = direntAt s st.bytes j := rfl
  refine ⟨k,fun hh => ?_,fun hm => ?_⟩
  · rw [searchLoop,dif_pos (by omega),bind_of_ok hr]
    dsimp only
    rw [hre,if_neg (not_not.mpr rfl),if_neg (not_not.mpr rfl),if_neg hh.1,if_pos hh.2]
    rfl
  · rw [searchLoop,dif_pos (by omega),bind_of_ok hr]
    dsimp only
    rw [hre,if_neg (not_not.mpr rfl),if_neg (not_not.mpr rfl),mul_succ]
    by_cases h0 : (direntAt s st.bytes j).inum = 0
    · rw [if_pos h0]
    · rw [if_neg h0,if_neg fun hc => hm ⟨h0,hc⟩]

lemma searchLoop_upto (hw : st.Working) (hlink : ∀ k, 512 * k < 16 * t → s.entry st.bytes k ≠ 0)
    (hit : i ≤ t) (hin : 16 * t ≤ s.size.toNat)
    (hm : ∀ j, i ≤ j → j < t → ¬ Hit s st.bytes tail name j) :
    ∃ k, searchLoop sb alloc tail name s.size.toNat (16 * i) ⟨⟨n,s⟩,st⟩ =
      searchLoop sb alloc tail name s.size.toNat (16 * t) ⟨⟨n,s⟩,st.after k⟩ := by
  induction hd : t - i generalizing i st with
  | zero =>
    obtain rfl : i = t := by omega
    exact ⟨0,rfl⟩
  | succ d ih =>
    obtain ⟨k,_,hn⟩ := searchLoop_direntAt (j := i) hw (hlink _ (by omega)) (by omega)
    have hw' : (st.after k).Working := hw
    have hli' : ∀ l, 512 * l < 16 * t → s.entry (st.after k).bytes l ≠ 0 := hlink
    have hm' : ∀ j, i + 1 ≤ j → j < t → ¬ Hit s (st.after k).bytes tail name j :=
      fun j hj => hm j (by omega)
    obtain ⟨l,hl⟩ := ih hw' hli' (by omega) hm' (by omega)
    rw [hn (hm i le_rfl (by omega)),hl,Storage.after_after]
    exact ⟨_,rfl⟩

lemma search_hit (hw : st.Working) (hlink : ∀ k, 512 * k < 16 * (t + 1) → s.entry st.bytes k ≠ 0)
    (hin : 16 * (t + 1) ≤ s.size.toNat) (hm : ∀ j < t, ¬ Hit s st.bytes tail name j)
    (hh : Hit s st.bytes tail name t) :
    ∃ k, searchLoop sb alloc tail name s.size.toNat 0 ⟨⟨n,s⟩,st⟩ =
      (.ok (16 * t,(direntAt s st.bytes t).inum),⟨⟨n,s⟩,st.after k⟩) := by
  obtain ⟨k,hk⟩ :=
    searchLoop_upto hw (fun k hk => hlink k (by omega)) (zero_le t) (by omega) fun j _ => hm j
  have hw' : (st.after k).Working := hw
  have hl' : s.entry (st.after k).bytes (t / 32) ≠ 0 := hlink _ (by omega)
  obtain ⟨l,hf,_⟩ := searchLoop_direntAt hw' hl' hin
  refine ⟨k + l,hk.trans ((hf hh).trans ?_)⟩
  rw [Storage.after_after]
  rfl

section
variable (hw : st.Working) (hlink : Linked s st.bytes)
include hw hlink

lemma search_none (hm : ∀ j, 16 * (j + 1) ≤ s.size.toNat → ¬ Hit s st.bytes tail name j) :
    ∃ k, searchLoop sb alloc tail name s.size.toNat 0 ⟨⟨n,s⟩,st⟩ =
      (.error (.state (if s.size.toNat % 16 = 0 then .errNotFound else .errInvalid)),
        ⟨⟨n,s⟩,st.after k⟩) := by
  obtain ⟨k,hk⟩ : ∃ k, searchLoop sb alloc tail name s.size.toNat (16 * 0) ⟨⟨n,s⟩,st⟩ =
      searchLoop sb alloc tail name s.size.toNat (16 * (s.size.toNat / 16)) ⟨⟨n,s⟩,st.after k⟩ :=
    searchLoop_upto hw (fun k hk => hlink k (by omega)) (zero_le _) (by omega)
      fun j _ hj => hm j (by omega)
  split_ifs with h16
  · refine ⟨k,hk.trans ?_⟩
    rw [searchLoop,dif_neg (by omega)]
    rfl
  · have hw' : (st.after k).Working := hw
    obtain ⟨l,hr⟩ : ∃ l, readDataFromInode sb alloc (BitVec.ofNat 64 (16 * (s.size.toNat / 16))) 16
        ⟨⟨n,s⟩,st.after k⟩ = (.ok _,⟨⟨n,s⟩,(st.after k).after l⟩) :=
      read_within hw' (hlink _ (by omega)) (by omega) (by omega)
    refine ⟨k + l,hk.trans ?_⟩
    rw [searchLoop,dif_pos (by omega),bind_of_ok hr]
    dsimp only
    rw [if_neg (not_not.mpr rfl),if_pos (by omega),Storage.after_after]
    rfl

lemma searchLoop_bytes (h16 : s.size.toNat % 16 = 0) :
    (searchLoop sb alloc tail name s.size.toNat (16 * i) ⟨⟨n,s⟩,st⟩).2.storage.bytes = st.bytes := by
  induction hd : s.size.toNat / 16 - i generalizing i st with
  | zero =>
    rw [searchLoop,dif_neg (by omega)]
    rfl
  | succ d ih =>
    obtain ⟨k,hf,hn⟩ := searchLoop_direntAt (j := i) hw (hlink _ (by omega)) (by omega)
    by_cases hh : Hit s st.bytes tail name i
    · rw [hf hh]
      rfl
    · have hw' : (st.after k).Working := hw
      have hl' : Linked s (st.after k).bytes := hlink
      rw [hn hh,ih hw' hl' (by omega)]
      rfl

end

end

section
variable (sb : SuperBlock) (alloc : Io Word32) (n : ℕ) {s : InodeStruct} {st : Storage}
  {tail : ℕ → ℕ → Byte} {name : List Byte} {m : ℕ → Byte} {j t : ℕ}

lemma searchDir_loop (htype : s.type = 1) : searchDir sb alloc tail name ⟨⟨n,s⟩,st⟩ =
    searchLoop sb alloc tail name s.size.toNat 0 ⟨⟨n,s⟩,st⟩ := by
  rw [searchDir,asks_bind,if_neg (not_not.mpr htype)]

section
variable (htype : s.type = 1) (hlink : Linked s st.bytes) (hw : st.Working) (htext : 0 ∉ name)
  (hlen : name.length ≤ 14)
include htype hlink hw htext hlen

lemma searchDir_finds (h : First s st.bytes name t)
    (ht : name.length = 14 → tail (16 * t) 0 = 0) : ∃ k, searchDir sb alloc tail name ⟨⟨n,s⟩,st⟩ =
        (.ok (16 * t,(direntAt s st.bytes t).inum),⟨⟨n,s⟩,st.after k⟩) := by
  rw [searchDir_loop sb alloc n htype]
  have hin := h.inside
  refine search_hit hw (fun k hk => hlink k (by omega)) hin (fun j hj hh => ?_) ((hit_iff htext hlen).mpr ⟨h.named,ht⟩)
  exact h.before j hj ((hit_iff htext hlen).mp hh).1

lemma searchDir_none
    (h : ∀ j, 16 * (j + 1) ≤ s.size.toNat → Named s st.bytes name j → ¬ (name.length = 14 → tail (16 * j) 0 = 0)) :
    ∃ k, searchDir sb alloc tail name ⟨⟨n,s⟩,st⟩ =
        (.error (.state (if s.size.toNat % 16 = 0 then .errNotFound else .errInvalid)),
          ⟨⟨n,s⟩,st.after k⟩) := by
  rw [searchDir_loop sb alloc n htype]
  refine search_none hw hlink fun j hj hh => ?_
  obtain ⟨hn,ht⟩ := (hit_iff htext hlen).mp hh
  exact h j hj hn ht

end

lemma exists_first (hin : 16 * (j + 1) ≤ s.size.toNat) (hn : Named s m name j) :
    ∃ t, First s m name t := by
  have hex : ∃ t, Named s m name t := ⟨j,hn⟩
  have hle := Nat.find_min' hex hn
  exact ⟨Nat.find hex,by omega,Nat.find_spec hex,fun i hi => Nat.find_min hex hi⟩

lemma First.unique (h : First s m name j) (h' : First s m name t) : j = t := by
  rcases lt_trichotomy j t with hlt | heq | hlt
  · exact absurd h.named (h'.before j hlt)
  · exact heq
  · exact absurd h'.named (h.before t hlt)

lemma Confined.finds (h : Confined s st.bytes name) (htype : s.type = 1)
    (hlink : Linked s st.bytes) (hw : st.Working) (htext : 0 ∉ name) (hlen : name.length ≤ 14) :
    Finds s st.bytes name (searchDir sb alloc tail name ⟨⟨n,s⟩,st⟩).1 := by
  by_cases hex : ∃ j, 16 * (j + 1) ≤ s.size.toNat ∧ Named s st.bytes name j
  · obtain ⟨j,hin,hn⟩ := hex
    obtain ⟨t,hf⟩ := exists_first hin hn
    have hs : name.length = 14 → tail (16 * t) 0 = 0 :=
      fun h14 => absurd hf.named (h.terminated h14 t hf.inside)
    obtain ⟨k,hk⟩ := searchDir_finds sb alloc n htype hlink hw htext hlen hf hs
    rw [hk]
    refine ⟨fun i hi => by rw [hi.unique hf],⟨fun he => ?_,fun ha => ?_⟩⟩
    · cases he
    · exact absurd hn (ha j hin)
  · have ha : ∀ j, 16 * (j + 1) ≤ s.size.toNat → ¬ Named s st.bytes name j :=
      fun j hin hn => hex ⟨j,hin,hn⟩
    have h16 := h.whole.resolve_right hex
    obtain ⟨k,hk⟩ := searchDir_none sb alloc n htype hlink hw htext hlen fun j hin hn =>
        absurd hn (ha j hin)
    rw [hk,if_pos h16]
    exact ⟨fun i hi => absurd hi.named (ha i hi.inside),⟨fun _ => ha,fun _ => rfl⟩⟩

end

theorem searchDir_exact (sb : SuperBlock) (alloc : Io Word32) (n : ℕ) {s : InodeStruct}
    {st : Storage} {name : List Byte} (htype : s.type = 1) (hlink : Linked s st.bytes)
    (hw : st.Working) (htext : 0 ∉ name) (hlen : name.length ≤ 14) :
    (∀ tail, Finds s st.bytes name (searchDir sb alloc tail name ⟨⟨n,s⟩,st⟩).1) ↔
      Confined s st.bytes name := by
  refine ⟨fun h => ⟨fun h14 j hin hn => ?_,?_⟩,
    fun h tail => h.finds sb alloc n htype hlink hw htext hlen⟩
  · -- a non-zero byte behind the entry hides every name of 14 characters
    obtain ⟨t,hfi⟩ := exists_first hin hn
    have hf := (h fun _ _ => 1).found t hfi
    obtain ⟨k,hk⟩ : ∃ k, searchDir sb alloc (fun _ _ => 1) name ⟨⟨n,s⟩,st⟩ = (.error _,_) :=
      searchDir_none sb alloc n htype hlink hw htext hlen fun i _ _ ho =>
        absurd (ho h14) (by decide)
    rw [hk] at hf
    cases hf
  · by_contra hnone
    obtain ⟨h16,hex⟩ := not_or.mp hnone
    have ha : ∀ j, 16 * (j + 1) ≤ s.size.toNat → ¬ Named s st.bytes name j :=
      fun j hin hn => hex ⟨j,hin,hn⟩
    have hm := (h fun _ _ => 0).missing.mpr ha
    obtain ⟨k,hk⟩ := searchDir_none sb alloc n htype hlink hw htext hlen fun i hi hn =>
        absurd hn (ha i hi)
    rw [hk,if_neg h16] at hm
    cases hm

def soleDirectory : InodeStruct := ⟨1,0,0,1,16,fun k => if k = 0 then 5 else 0⟩

def soleStorage (name : List Byte) : Storage :=
  ⟨overwrite (fun _ => 0) 2560 (1 :: 0 :: name),fun _ _ _ => .ok,0⟩

lemma soleDirectory_linked (m : ℕ → Byte) : Linked soleDirectory m := by
  intro k _
  obtain rfl : k = 0 := by
    have hs : soleDirectory.size.toNat = 16 := rfl
    omega
  exact (by decide : (5 : Word32) ≠ 0)

theorem searchDir_exact_sole : Named soleDirectory (soleStorage [97]).bytes [97] 0 ∧
    ∀ tail, Finds soleDirectory (soleStorage [97]).bytes [97]
      (searchDir ⟨64,0,3,0,0,32,58⟩ (fail .spin) tail [97] ⟨⟨1,soleDirectory⟩,soleStorage [97]⟩).1 := by
  have hn : Named soleDirectory (soleStorage [97]).bytes [97] 0 := by decide
  have hc : Confined soleDirectory (soleStorage [97]).bytes [97] :=
    ⟨fun h14 => absurd h14 (by decide),.inr ⟨0,by decide,hn⟩⟩
  exact ⟨hn,(searchDir_exact ⟨64,0,3,0,0,32,58⟩ _ 1 rfl (soleDirectory_linked _)
    (fun _ _ _ => rfl) (by decide) (by decide)).mpr hc⟩

theorem long_name_hidden :
    First soleDirectory (soleStorage (List.replicate 14 97)).bytes (List.replicate 14 97) 0 ∧
    (searchDir ⟨64,0,3,0,0,32,58⟩ (fail .spin) (fun _ _ => 1) (List.replicate 14 97)
      ⟨⟨1,soleDirectory⟩,soleStorage (List.replicate 14 97)⟩).1 = .error (.state .errNotFound) := by
  refine ⟨⟨by decide,by decide,fun i hi => absurd hi (not_lt_zero i)⟩,?_⟩
  obtain ⟨k,hk⟩ : ∃ k, searchDir ⟨64,0,3,0,0,32,58⟩ (fail .spin) (fun _ _ => 1)
      (replicate 14 97) ⟨⟨1,soleDirectory⟩,soleStorage (replicate 14 97)⟩ =
        (.error (.state (if soleDirectory.size.toNat % 16 = 0 then .errNotFound else .errInvalid)),
          ⟨⟨1,soleDirectory⟩,(soleStorage (replicate 14 97)).after k⟩) :=
    searchDir_none _ _ 1 rfl (soleDirectory_linked _) (fun _ _ _ => rfl) (by decide) (by decide)
      fun j _ _ hz => absurd (hz (by decide)) (by decide)
  rw [hk]
  rfl

end Fs
