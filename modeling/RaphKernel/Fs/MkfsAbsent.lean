import RaphKernel.Fs.LookupSafety
import RaphKernel.Fs.MkfsRoundTrip
import RaphKernel.Fs.NameBuffer

namespace Fs.Mkfs
open Bytes Fallible BlockCtrl InodeRefs List

structure PathName (name : List Byte) : Prop where
  nonempty : name ≠ []
  plain : slash ∉ name
  text : 0 ∉ name

def Absent (files : List HostFile) (name : List Byte) : Prop :=
  ∀ e ∈ entries files, cstring (strncpy e.2) ≠ name

-- The image is unchanged, and nothing is written behind the array the name is copied to.
def Refused (fuel : ℕ) (m : ℕ → Byte) (name : List Byte) : Prop :=
  ∀ st : Storage, st.Working → st.bytes = m → ∀ (tail : ℕ → ℕ → Byte) (tmp c : ℕ), tmp ≠ c →
    ∃ sb st₁ v, mount st = (.ok sb,st₁) ∧
      (∀ i ∈ lookupWrites (kernelFs sb fuel tail) tmp c (slash :: name) false
        ((fresh st₁).construct c), i < nameLength) ∧
      lookupInodeFromPath (kernelFs sb fuel tail) tmp c (slash :: name) false
        ((fresh st₁).construct c) = (.error (.state .errNotFound),v) ∧ v.disk.bytes = m

-- Inode 216, of file number 215, lies in the first block of the root directory.
structure Fitting (files : List HostFile) (name : List Byte) : Prop where
  few : files.length ≤ 214
  short : name.length ≤ 13
  ragged : (files.length + 2) % 32 ≠ 0

structure Scannable (sb : SuperBlock) (m : ℕ → Byte) (name : List Byte) : Prop where
  super : SuperBlock.parse (slice m 512 28) = sb
  inodes : 1 < sb.ninodes
  directory : (inodeAt sb m 1).type = 1
  linked : Linked (inodeAt sb m 1) m
  whole : (inodeAt sb m 1).size.toNat % 16 = 0
  absent : ∀ j, 16 * (j + 1) ≤ (inodeAt sb m 1).size.toNat → ¬ Named (inodeAt sb m 1) m name j

section
variable {sb : SuperBlock} {fuel tmp c : ℕ} {tail : ℕ → ℕ → Byte} {name : List Byte} {st : Storage}
  {m : ℕ → Byte}

lemma lookup_root {r : Except Failure (ℕ × BitVec 16)} {d : Disk} (hw : st.Working)
    (hin : 1 < sb.ninodes) (ht : (inodeAt sb st.bytes 1).type = 1) (hn : PathName name)
    (hne : tmp ≠ c) (hse : searchDir sb (BlockCtrl.alloc sb fuel) tail
      (name.take maxDirectoryNameLength) ⟨⟨1,inodeAt sb st.bytes 1⟩,st.after 2⟩ = (r,d)) :
    ∃ v, lookupInodeFromPath (kernelFs sb fuel tail) tmp c (slash :: name) false
      ((fresh st).construct c) = (r.map fun _ => (),v) ∧ v.disk = d.storage := by
  have hw' : (st.after 1).Working := hw
  have ho : (inodeAt sb st.bytes (1 : Word32).toNat).type = 1 := ht
  obtain ⟨stat,hs,hdi⟩ := stat_ok (BlockCtrl.alloc sb fuel) hw hin (by rw [ho]; decide)
    (by rw [ho]; rfl : convType _ = .ok .directory)
  have hwi := withInode_ok hw' hin hse
  have hl : (kernelFs sb fuel tail).dirLookup 1 (name.take maxDirectoryNameLength) (st.after 1) =
      (r.map fun found => (found.1,found.2.setWidth 32),d.storage) := by
    cases r with
    | error e => exact bind_of_error hwi
    | ok found => exact bind_of_ok hwi
  have hr : (kernelFs sb fuel tail).getStatOfInode (kernelFs sb fuel tail).rootInodeNum st =
    (.ok stat,st.after 1) := hs
  obtain ⟨v,hv,hd,_⟩ := lookup_single hne hn.nonempty hn.plain hr hdi hl
  refine ⟨v,hv.trans ?_,hd⟩
  cases r <;> rfl

lemma writes_short (fs : DiskFileSystem Storage) (hna : PathName name) (hl : name.length ≤ 13)
    (v : Vfs Storage) : ∀ i ∈ lookupWrites fs tmp c (slash :: name) false v, i < nameLength := by
  intro i hi
  obtain ⟨_,n,hn,hle⟩ := mem_lookupWrites hi
  rw [pathComponents_single hna.nonempty hna.plain,mem_singleton] at hn
  rw [hn,length_take] at hle
  unfold nameLength maxDirectoryNameLength
  omega

lemma writes_long (fs : DiskFileSystem Storage) (disk : Storage) (hna : PathName name)
    (hl : 14 ≤ name.length) :
    nameLength ∈ lookupWrites fs tmp c (slash :: name) false ((fresh disk).construct c) := by
  have hn := pathComponents_single hna.nonempty hna.plain
  rw [← pathNames_eq] at hn
  cases hne : getNextPathNameFromPath _ with
  | none =>
    rw [pathNames_none hne] at hn
    cases hn
  | some next =>
    obtain ⟨first,rest⟩ := next
    rw [pathNames_some hne] at hn
    have hf : first.length = nameLength := by
      rw [(List.cons.inj hn).1,length_take]
      unfold nameLength maxDirectoryNameLength
      omega
    exact hf ▸ first_written fs tmp c disk false rfl hne

lemma Scannable.refused (h : Scannable sb m name) (hn : PathName name) (hl : name.length ≤ 13)
    (fuel : ℕ) : Refused fuel m name := by
  intro st hw hm tail tmp c hne
  subst hm
  have hw' : (st.after 1).Working := hw
  have hw'' : ((st.after 1).after 2).Working := hw
  have ht : name.take maxDirectoryNameLength = name :=
    take_of_length_le (by unfold maxDirectoryNameLength; omega)
  have hmo : mount st = (.ok sb,st.after 1) := by
    rw [mount_working hw,h.super]
    rfl
  obtain ⟨k,hs⟩ : ∃ k, searchDir sb (BlockCtrl.alloc sb fuel) tail name
      ⟨⟨1,inodeAt sb st.bytes 1⟩,(st.after 1).after 2⟩ = (.error _,_) :=
    searchDir_none sb _ 1 h.directory h.linked hw'' hn.text (by omega)
      fun j hj hna => absurd hna (h.absent j hj)
  rw [if_pos h.whole] at hs
  obtain ⟨v,hv,hd⟩ := lookup_root hw' h.inodes h.directory hn hne (ht.symm ▸ hs)
  exact ⟨sb,_,v,hmo,writes_short _ hn hl _,hv,by rw [hd]; rfl⟩

end

section
variable {files : List HostFile} {own : ℕ → Set ℕ} {m : ℕ → Byte} {name : List Byte} {fuel j : ℕ}

lemma entry_absent {s : InodeStruct} {own : Set ℕ}
    (hr : Holds m s (blocks (directory files).length) own (directory files))
    (ha : Absent files name) (hj : 16 * (j + 1) ≤ 512 * blocks (directory files).length) :
    ¬ Named s m name j := by
  have hl := length_directory files
  have hd : 16 * j / 512 = j / 32 := by omega
  have hm : 16 * j % 512 = 16 * (j % 32) := by omega
  have hsm : (s.entry m (j / 32)).toNat < 2 ^ 23 := (hr.mapped (by omega)).small
  have hs : slice m (blockOffset (s.entry m (j / 32)) + 16 * (j % 32)) 16 =
      slice (fileByte s m) (16 * j) 16 := by
    rw [blockOffset_eq hsm,← hd,← hm]
    exact slice_fileByte m (by omega)
  by_cases he : j < files.length + 2
  · have hlt : j < (entries files).length := by rwa [length_entries]
    have hc := chunk_flatMap (f := fun e : BitVec 16 × List Byte => dirent e.1 e.2)
      (fun _ => length_dirent _ _) hlt
    rw [← directory_entries] at hc
    have hpa : direntAt s m j = ⟨(entries files)[j].1,strncpy (entries files)[j].2⟩ := by
      rw [direntAt,hs,hr.part (by omega),hc,parse_dirent]
    intro hn
    rw [Named,hpa] at hn
    exact ha _ (getElem_mem hlt) hn.2
  · have hz : slice (fileByte s m) (16 * j) 16 = List.replicate 16 0 := by
      have hp : 16 * j + 16 ≤ 512 * blocks (directory files).length := hj
      have hre := slice_slice (fileByte s m) 0 hp
      rw [hr.bytes,Nat.zero_add] at hre
      rw [← hre,drop_append,drop_of_length_le (by omega),nil_append,
        drop_replicate,take_replicate,Nat.min_eq_left (by omega)]
    intro hn
    rw [Named,direntAt,hs,hz] at hn
    exact hn.1 rfl

lemma Finished.scannable (hf : Finished m files own) (ha : Absent files name)
    (h32 : (files.length + 2) % 32 ≠ 0) : Scannable superblock m name := by
  have hb := root_blocks h32
  have hr := hf.root
  refine ⟨hf.super,by decide,hf.rootType,fun k hk => ?_,?_,fun j hj => ?_⟩
  · rw [hf.rootSize] at hk
    exact (hr.mapped (by omega)).nonzero
  · rw [hf.rootSize]
    omega
  · rw [hf.rootSize] at hj
    exact entry_absent hr ha (by omega)

section
variable {s : InodeStruct} {st st' : Storage} {tail : ℕ → ℕ → Byte} {alloc : Io Word32}

lemma entry_accepted (hs : s.size.toNat = 512 * (j + 1)) :
    readDataFromInode superblock alloc (BitVec.ofNat 64 (16 * (32 * j))) 16 ⟨⟨1,s⟩,st⟩ =
      readLoop superblock alloc 16 (512 * j) 0 [] ⟨⟨1,s⟩,st⟩ := by
  have hf : 16 * (32 * j) = 512 * j := by omega
  have ha : min 16 (s.size.toNat - 512 * j) = 16 := by omega
  rw [hf,read_inside (by omega),ha]

lemma setAddr_linked (hj : j < 12) (hsi : s.size.toNat = 512 * (j + 1)) {b : Word32} (hb : b ≠ 0)
    (hm : ∀ k < j, Mapped s m k) (m' : ℕ → Byte) : Linked (s.setAddr (Fin.ofNat 13 j) b) m' := by
  intro k hk
  have hkj : k ≤ j := by
    have hlt : 512 * k < s.size.toNat := hk
    omega
  rw [InodeStruct.entry_direct (by omega),InodeStruct.setAddr]
  dsimp only
  by_cases heq : k = j
  · subst heq
    rw [Function.update_self]
    exact hb
  · have hs : Fin.ofNat 13 k ≠ Fin.ofNat 13 j := by
      rw [Ne,Fin.ext_iff,Fin.val_ofNat,Fin.val_ofNat]
      omega
    rw [Function.update_of_ne hs,← InodeStruct.entry_direct (by omega)]
    exact (hm k (by omega)).nonzero

lemma gap_read (hj : j < 12) (hs : s.size.toNat = 512 * (j + 1))
    (h0 : s.addrs (Fin.ofNat 13 j) = 0) {b : Word32} (ha : alloc st = (.ok b,st'))
    (hw : st'.Working) : ∃ data st₁,
      readDataFromInode superblock alloc (BitVec.ofNat 64 (16 * (32 * j))) 16 ⟨⟨1,s⟩,st⟩ =
        (.ok ⟨.ok,16,data⟩,⟨⟨1,s.setAddr (Fin.ofNat 13 j) b⟩,st₁⟩) ∧ st₁.Working ∧
      (inodeAt superblock st₁.bytes 1).addrs (Fin.ofNat 13 j) = b := by
  have hm : mapDirect superblock alloc (Fin.ofNat 13 j) ⟨⟨1,s⟩,st⟩ = _ := mapDirect_new h0 ha hw
  have hd : onStorage (Storage.read (blockOffset b + 0) 16) (recorded superblock
      ⟨⟨1,s⟩,st⟩ (Fin.ofNat 13 j) b st') = _ := onStorage_ok (Storage.read_ok (hw ..))
  have hb := (congrFun (readBlock_direct hj) _).trans ((bind_of_ok hm).trans hd)
  exact ⟨_,_,(entry_accepted hs).trans (readLoop_single (by omega) (by omega) hb),hw,
    recorded_addr ⟨⟨1,s⟩,st⟩ _ b st'⟩

lemma gap_search (hw : st.Working) (hf : st.bytes 29696 = 0xff) (hj : j < 12)
    (hsi : s.size.toNat = 512 * (j + 1)) (hmp : ∀ k < j, Mapped s st.bytes k)
    (h0 : s.addrs (Fin.ofNat 13 j) = 0) (hro : inodeAt superblock st.bytes 1 = s)
    (hm : ∀ i < 32 * j, ¬ Hit s st.bytes tail name i) {d : Disk}
    (hse : searchLoop superblock (BlockCtrl.alloc superblock fuel) tail name s.size.toNat 0
      ⟨⟨1,s⟩,st⟩ = (.error (.state .errNotFound),d)) : d.storage.bytes ≠ st.bytes := by
  intro hby
  obtain ⟨k,hu⟩ :=
    searchLoop_upto hw (fun l hl => (hmp l (by omega)).nonzero) (Nat.zero_le _) (by omega)
      fun i _ hi => hm i hi
  have hw' : (st.after k).Working := hw
  have hs := hu.symm.trans hse
  rw [searchLoop,dif_pos (by omega)] at hs
  rcases alloc_outcome hw' hf fuel with ⟨b,st',ha,hb⟩ | ⟨e,st',ha,he⟩
  · have hst : (BlockCtrl.alloc superblock fuel (st.after k)).2.Working :=
      (steady_allocLoop fuel 0).working hw
    rw [ha] at hst
    obtain ⟨data,st₁,hr,hw₁,had⟩ := gap_read hj hsi h0 ha hst
    -- Whatever the new block holds, the rest of the scan writes nothing back.
    have hla : searchLoop superblock (BlockCtrl.alloc superblock fuel) tail name s.size.toNat
        (16 * (32 * j + 1)) ⟨⟨1,s.setAddr (Fin.ofNat 13 j) b⟩,st₁⟩ ≠
          (.error (.state .errNotFound),d) := by
      intro hre
      have hk : (searchLoop superblock (BlockCtrl.alloc superblock fuel) tail name s.size.toNat
          (16 * (32 * j + 1)) ⟨⟨1,s.setAddr (Fin.ofNat 13 j) b⟩,st₁⟩).2.storage.bytes = st₁.bytes :=
        searchLoop_bytes hw₁ (setAddr_linked hj hsi hb hmp _) (hsi.symm ▸ by omega)
      rw [hre] at hk
      rw [← hk,hby,hro,h0] at had
      exact hb had.symm
    rw [bind_of_ok hr] at hs
    dsimp only at hs
    rw [if_neg (not_not.mpr rfl),if_neg (not_not.mpr rfl)] at hs
    split_ifs at hs
    · exact hla hs
    · cases hs
    · exact hla hs
  · have hma : mapDirect superblock (BlockCtrl.alloc superblock fuel) (Fin.ofNat 13 j)
      ⟨⟨1,s⟩,st.after k⟩ = _ := mapDirect_error h0 ha
    have hbl := (congrFun (readBlock_direct (c := 16) hj) _).trans (bind_of_error hma)
    have hr := (entry_accepted hsi).trans (readLoop_error (by omega) (by omega) hbl)
    rcases he with rfl | rfl
    · rw [bind_of_error hr] at hs
      cases hs
    · rw [bind_of_ok hr] at hs
      cases hs

end

lemma Finished.refused_iff (hf : Finished m files own) (hc : files.length ≤ 214)
    (ha : Absent files name) (hn : PathName name) :
    Refused fuel m name ↔ Fitting files name := by
  refine ⟨fun h => ?_,fun h => (hf.scannable ha h.ragged).refused hn h.short fuel⟩
  have hw : (⟨m,fun _ _ _ => .ok,0⟩ : Storage).Working := fun _ _ _ => rfl
  have hm : mount ⟨m,fun _ _ _ => .ok,0⟩ = (.ok superblock,_) := mount_ok hf hw
  obtain ⟨sb,st₁,v,hm',hwr,hl,hb⟩ := h _ hw rfl (fun _ _ => 0) 1 0 Nat.one_ne_zero
  rw [hm] at hm'
  cases hm'
  have hle : name.length ≤ 13 := by
    by_contra hlong
    exact lt_irrefl _ (hwr _ (writes_long _ _ hn (by omega)))
  refine ⟨hc,hle,fun h32 => ?_⟩
  obtain ⟨j,hj,hsi,hma,h0⟩ := root_gap hf hc h32
  have ht : name.take maxDirectoryNameLength = name :=
    take_of_length_le (by unfold maxDirectoryNameLength; omega)
  have hw' : (⟨m,fun _ _ _ => .ok,1⟩ : Storage).Working := fun _ _ _ => rfl
  have hw'' : (⟨m,fun _ _ _ => .ok,3⟩ : Storage).Working := fun _ _ _ => rfl
  rcases hs : searchDir superblock _ (fun _ _ => 0) name
    ⟨⟨1,inodeAt superblock m 1⟩,⟨m,fun _ _ _ => .ok,3⟩⟩ with ⟨r,d⟩
  obtain ⟨v',hv,hd⟩ : ∃ v', lookupInodeFromPath (kernelFs superblock fuel fun _ _ => 0) 1 0
      (slash :: name) false ((fresh ⟨m,fun _ _ _ => .ok,1⟩).construct 0) = (r.map fun _ => (),v') ∧
        v'.disk = d.storage :=
    lookup_root hw' (by decide) hf.rootType hn Nat.one_ne_zero (ht.symm ▸ hs)
  obtain ⟨hr,rfl⟩ := Prod.mk.inj (hv.symm.trans hl)
  cases r with
  | ok found => cases hr
  | error e =>
    cases hr
    rw [searchDir_loop superblock _ 1 hf.rootType] at hs
    refine gap_search hw'' hf.marked hj hsi hma h0 rfl (fun i hi hh => ?_) hs ?_
    · refine entry_absent hf.root ha ?_ ((hit_iff hn.text (by omega)).mp hh).1
      rw [hf.rootSize] at hsi
      rw [length_directory]
      unfold blocks
      omega
    · rw [← hd]
      exact hb

end

theorem absent_refused {files : List HostFile} {h : Host} (hbuilt : main files truncated = (.ok (),h))
    {name : List Byte} (hname : PathName name) (fuel : ℕ) :
    (Absent files name → Fitting files name → Refused fuel h.image name) ∧
      (Absent files name → files.length ≤ 214 → Refused fuel h.image name → Fitting files name) ∧
      ∀ sb, Scannable sb h.image name → name.length ≤ 13 → Refused fuel h.image name := by
  have hi : Absent files name → files.length ≤ 214 →
      (Refused fuel h.image name ↔ Fitting files name) := by
    intro ha hc
    obtain ⟨own,hf⟩ := main_finished hc hbuilt
    exact hf.refused_iff hc ha hname
  exact ⟨fun ha hfi => (hi ha hfi.few).mpr hfi,fun ha hc => (hi ha hc).mp,
    fun sb hs hl => hs.refused hname hl fuel⟩

lemma absent_of_names {files : List HostFile} {name : List Byte}
    (hn : ∀ f ∈ files, ValidName f.name) (hp : ¬ Reserved name)
    (hf : ∀ f ∈ files, f.name ≠ name) : Absent files name := by
  obtain ⟨hdo,hd⟩ := not_or.mp hp
  intro e he
  rcases mem_cons.mp he with rfl | he
  · rw [cstring_strncpy dot_valid]
    exact Ne.symm hdo
  · rcases mem_cons.mp he with rfl | he
    · rw [cstring_strncpy dotdot_valid]
      exact Ne.symm hd
    · obtain ⟨k,hk,rfl⟩ := mem_mapIdx.mp he
      rw [cstring_strncpy (hn _ (getElem_mem hk))]
      exact hf _ (getElem_mem hk)

theorem absent_refused_greeting : ∃ h, main greeting truncated = (.ok (),h) ∧
    Refused 0 h.image [98] := by
  obtain ⟨h,hb⟩ := main_ok ⟨by decide,by decide,by decide,greeting_room⟩
  have hn : PathName [98] := ⟨by decide,by decide,by decide⟩
  have ha : Absent greeting [98] := by
    refine absent_of_names (fun f hf => ?_) (by decide) fun f hf => ?_
    · rw [mem_singleton.mp hf]
      exact ⟨by decide,by decide,by decide,by decide⟩
    · rw [mem_singleton.mp hf]
      decide
  exact ⟨h,hb,(absent_refused hb hn 0).1 ha ⟨by decide,by decide,by decide⟩⟩

theorem full_block_written : ∃ h, main (ranks 30) truncated = (.ok (),h) ∧ Absent (ranks 30) [98] ∧
    ∀ fuel, ¬ Refused fuel h.image [98] := by
  obtain ⟨h,hb⟩ := ranks_built (n := 30) (by omega)
  have hn : PathName [98] := ⟨by decide,by decide,by decide⟩
  have hc := length_ranks 30
  have ha : Absent (ranks 30) [98] := by
    refine absent_of_names (ranks_valid (by omega)) (by decide) fun f hf => ?_
    obtain ⟨k,_,rfl⟩ := ranks_mem hf
    rw [letters_name (by omega)]
    exact fun heq => absurd (congrArg List.length heq) (by decide : 2 ≠ 1)
  obtain ⟨own,hf⟩ := main_finished (by omega) hb
  refine ⟨h,hb,ha,fun fuel hr => ?_⟩
  have h32 := ((hf.refused_iff (by omega) ha hn).mp hr).ragged
  omega

end Fs.Mkfs
