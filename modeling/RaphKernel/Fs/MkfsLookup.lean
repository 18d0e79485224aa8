import RaphKernel.Fs.MkfsImage
import RaphKernel.Fs.PathNames

namespace Fs.Mkfs
open Bytes Fallible BlockCtrl InodeRefs List
variable {e : BitVec 16 × List Byte} {files : List HostFile} {t k c j : ℕ} {sb : SuperBlock}

def entries (files : List HostFile) : List (BitVec 16 × List Byte) :=
  (1,dot) :: (1,dotdot) :: files.mapIdx fun k f => (BitVec.ofNat 16 (k + 2),f.name)

lemma directory_entries (files : List HostFile) :
    directory files = (entries files).flatMap fun e => dirent e.1 e.2 := by
  have hm : (files.mapIdx fun k f => dirent (BitVec.ofNat 16 (k + 2)) f.name) =
      (files.mapIdx fun k f => ((BitVec.ofNat 16 (k + 2),f.name) : BitVec 16 × List Byte)).map
        fun e => dirent e.1 e.2 := ext_getElem (by simp) fun i _ _ => by simp
  rw [directory,entries,flatMap_cons,flatMap_cons,flatMap_def,hm]

lemma length_entries (files : List HostFile) : (entries files).length = files.length + 2 := by
  simp [entries]

lemma entries_file (hk : k < files.length) :
    (entries files)[k + 2]? = some (BitVec.ofNat 16 (k + 2),files[k].name) := by
  simp [entries,hk]

structure ValidName (name : List Byte) : Prop where
  nonempty : name ≠ []
  short : name.length ≤ 13
  plain : slash ∉ name
  text : 0 ∉ name

lemma dot_valid : ValidName dot := ⟨by decide,by decide,by decide,by decide⟩

lemma dotdot_valid : ValidName dotdot := ⟨by decide,by decide,by decide,by decide⟩

lemma cstring_strncpy {name : List Byte} (h : ValidName name) : cstring (strncpy name) = name := by
  have hs := h.short
  have hte : ∀ b ∈ name, decide (b ≠ 0) = true := by
    intro b hb
    exact decide_eq_true fun h0 => h.text (h0 ▸ hb)
  obtain ⟨r,hr⟩ : ∃ r, 14 - name.length = r + 1 := ⟨13 - name.length,by omega⟩
  rw [strncpy,take_of_length_le (by omega),cstring,takeWhile_append_of_pos hte,hr,
    List.replicate_succ,takeWhile_cons_of_neg (by simp),append_nil]

lemma parse_dirent (inum : BitVec 16) (name : List Byte) :
    DirEntry.parse (dirent inum name) = ⟨inum,strncpy name⟩ := by
  have hl : (strncpy name).length = 14 := by
    simp only [strncpy,length_append,length_take,length_replicate]
    omega
  have hin : field 2 (encode 2 inum.toNat ++ strncpy name) 0 = inum := field_encode (w := 2) inum _
  rw [DirEntry.parse,dirent,hin,drop_left' (length_encode 2 _),take_of_length_le hl.le]

section
variable {m : ℕ → Byte} {s : InodeStruct} {n : ℕ} {own : Set ℕ} {data : List Byte} {st : Storage}

lemma Holds.mapped (h : Holds m s n own data) (hk : k < n) : Mapped s m k :=
  ⟨(h.layout.mapped k).mpr hk,h.layout.small_entry hk⟩

lemma Holds.covered (h : Holds m s (blocks data.length) own data) {x : ℕ}
    (hx : x + c ≤ data.length) : Covered s m x c := by
  intro k _ _
  refine h.mapped ?_
  unfold blocks
  omega

lemma Holds.read (alloc : Io Word32) (h : Holds st.bytes s (blocks data.length) own data)
    (hw : st.Working) (i : ℕ)
    {offset size : Raph.Word} (hfi : offset.toNat + size.toNat ≤ data.length)
    (hsi : data.length ≤ s.size.toNat) : ∃ k,
      readDataFromInode superblock alloc offset size ⟨⟨i,s⟩,st⟩ =
        (.ok ⟨.ok,size.toNat,(data.drop offset.toNat).take size.toNat⟩,⟨⟨i,s⟩,st.after k⟩) := by
  have hs := s.size.isLt
  have ha : ¬ Rejected s offset size := by
    rintro (hr | hr) <;> omega
  have hav : available s offset size = size.toNat := by
    unfold available
    omega
  rw [readDataFromInode_accepted ha,hav,← h.part hfi]
  exact readLoop_ok (h.covered hfi) fun j _ => blockAnswer_working hw _ _ j

lemma entry_read (alloc : Io Word32)
    (h : Holds st.bytes s (blocks (directory files).length) own (directory files))
    (hw : st.Working) (hs : (directory files).length ≤ s.size.toNat)
    (hj : (entries files)[j]? = some e) : ∃ k,
      readDataFromInode superblock alloc (BitVec.ofNat 64 (16 * j)) 16 ⟨⟨1,s⟩,st⟩ =
        (.ok ⟨.ok,16,dirent e.1 e.2⟩,⟨⟨1,s⟩,st.after k⟩) := by
  obtain ⟨hlt,he⟩ := List.getElem?_eq_some_iff.mp hj
  have hsm := s.size.isLt
  have hl := length_directory files
  rw [length_entries] at hlt
  have ho : (BitVec.ofNat 64 (16 * j)).toNat = 16 * j := by
    rw [BitVec.toNat_ofNat,Nat.mod_eq_of_lt (by omega)]
  have h16 : (16 : Raph.Word).toNat = 16 := rfl
  have hfi : (BitVec.ofNat 64 (16 * j)).toNat + (16 : Raph.Word).toNat ≤ (directory files).length := by
    rw [ho,h16,hl]
    omega
  obtain ⟨k,hk⟩ := Holds.read alloc h hw 1 hfi hs
  refine ⟨k,?_⟩
  have hc := chunk_flatMap (f := fun e : BitVec 16 × List Byte => dirent e.1 e.2)
    (fun _ => length_dirent _ _) (by rw [length_entries]; exact hlt)
  rw [← directory_entries,he] at hc
  rw [hk,ho,h16,hc]

lemma dirLoop_entry (alloc : Io Word32)
    (name : List Byte) (hall : ∀ e ∈ entries files, e.1 ≠ 0 ∧ ValidName e.2)
    (h : Holds st.bytes s (blocks (directory files).length) own (directory files))
    (hw : st.Working) (hs : (directory files).length ≤ s.size.toNat)
    (hj : (entries files)[j]? = some e) : ∃ k,
      dirLoop superblock alloc name s.size.toNat (16 * j) ⟨⟨1,s⟩,st⟩ =
        if name = e.2 then (.ok (16 * j,e.1),⟨⟨1,s⟩,st.after k⟩)
        else dirLoop superblock alloc name s.size.toNat (16 * (j + 1)) ⟨⟨1,s⟩,st.after k⟩ := by
  obtain ⟨k,hr⟩ := entry_read alloc h hw hs hj
  obtain ⟨h0,hv⟩ := hall e (mem_of_getElem? hj)
  have hl := (List.getElem?_eq_some_iff.mp hj).1
  have hle := length_directory files
  rw [length_entries] at hl
  refine ⟨k,?_⟩
  have hp := parse_dirent e.1 e.2
  rw [dirLoop,dif_pos (by omega),bind_of_ok hr]
  dsimp only
  rw [hp]
  dsimp only
  rw [if_neg (not_not.mpr rfl),if_neg (not_not.mpr rfl),if_neg h0,cstring_strncpy hv]
  split_ifs
  · rfl
  · rfl

lemma dirLoop_finds (alloc : Io Word32) {i : ℕ}
    (hall : ∀ e ∈ entries files, e.1 ≠ 0 ∧ ValidName e.2)
    (h : Holds st.bytes s (blocks (directory files).length) own (directory files))
    (hw : st.Working) (hs : (directory files).length ≤ s.size.toNat) (hit : i ≤ t)
    (hbefore : ∀ j, i ≤ j → j < t → ∀ e', (entries files)[j]? = some e' → e.2 ≠ e'.2)
    (ht : (entries files)[t]? = some e) : ∃ k,
      dirLoop superblock alloc e.2 s.size.toNat (16 * i) ⟨⟨1,s⟩,st⟩ =
        (.ok (16 * t,e.1),⟨⟨1,s⟩,st.after k⟩) := by
  have hla := (List.getElem?_eq_some_iff.mp ht).1
  induction hd : t - i generalizing i st with
  | zero =>
    obtain rfl : i = t := by omega
    obtain ⟨k,hk⟩ := dirLoop_entry alloc e.2 hall h hw hs ht
    rw [if_pos rfl] at hk
    exact ⟨k,hk⟩
  | succ d ih =>
    obtain ⟨e',he'⟩ : ∃ e', (entries files)[i]? = some e' := ⟨_,List.getElem?_eq_getElem (by omega)⟩
    obtain ⟨k,hk⟩ := dirLoop_entry alloc e.2 hall h hw hs he'
    rw [if_neg (hbefore i le_rfl (by omega) e' he')] at hk
    have hn : Holds (st.after k).bytes s (blocks (directory files).length) own
        (directory files) := h
    have hwn : (st.after k).Working := hw
    obtain ⟨l,hl⟩ := ih (i := i + 1) hn hwn (by omega) (fun j hij => hbefore j (by omega))
      (by omega)
    rw [Storage.after_after] at hl
    exact ⟨k + l,hk.trans hl⟩

end

section
variable {files : List HostFile} {own : ℕ → Set ℕ} {st : Storage} {inum : Word32}

lemma mount_ok (hf : Finished st.bytes files own) (hw : st.Working) :
    mount st = (.ok superblock,st.after 1) := by
  rw [mount_working hw,hf.super]
  rfl

lemma ninodes_toNat : superblock.ninodes.toNat = 200 := by decide

lemma below_ninodes (hi : inum.toNat < 200) : inum < superblock.ninodes := by
  rw [BitVec.lt_def,ninodes_toNat]
  exact hi

lemma loadInode_panic (hi : 200 ≤ inum.toNat) :
    loadInode superblock inum st = (.error (.panic .kassert),st) := by
  have hge : ¬ inum < superblock.ninodes := by
    rw [BitVec.lt_def,ninodes_toNat]
    omega
  rw [loadInode,if_neg hge]
  rfl

lemma stat_ok (alloc : Io Word32) (hw : st.Working) (hi : inum < sb.ninodes)
    {type : FileType} (h0 : (inodeAt sb st.bytes inum.toNat).type ≠ 0)
    (hty : convType (inodeAt sb st.bytes inum.toNat).type = .ok type) :
    ∃ stat, (v6FileSystem sb alloc).getStatOfInode inum st =
      (.ok stat,st.after 1) ∧ stat.type = type := by
  have hs : (inodeAt sb st.bytes inum.toNat).stat inum =
      .ok ⟨type,inum,(inodeAt sb st.bytes inum.toNat).nlink,
        (inodeAt sb st.bytes inum.toNat).size⟩ := by
    rw [InodeStruct.stat,if_neg h0,hty]
  refine ⟨⟨type,inum,(inodeAt sb st.bytes inum.toNat).nlink,
    (inodeAt sb st.bytes inum.toNat).size⟩,?_,rfl⟩
  refine (bind_of_ok (loadInode_working hw hi)).trans ?_
  dsimp only
  rw [hs]
  rfl

lemma stat_panic (alloc : Io Word32) (hi : 200 ≤ inum.toNat) :
    (v6FileSystem superblock alloc).getStatOfInode inum st = (.error (.panic .kassert),st) :=
  bind_of_error (loadInode_panic hi)

lemma withInode_ok {A : Type} {x : Fallible Disk Failure A} {r : Except Failure A}
    {d : Disk} (hw : st.Working) (hi : inum < sb.ninodes)
    (hx : x ⟨⟨inum.toNat,inodeAt sb st.bytes inum.toNat⟩,st.after 1⟩ = (r,d)) :
    withInode sb inum x st = (r,d.storage) := by
  have hl : loadInode sb inum st = (.ok ⟨inum.toNat,inodeAt sb st.bytes inum.toNat⟩,st.after 1) :=
    loadInode_working hw hi
  refine (bind_of_ok hl).trans ?_
  rw [hx]

lemma Finished.size_le (hf : Finished st.bytes files own) :
    (directory files).length ≤ (inodeAt superblock st.bytes 1).size.toNat := by
  rw [hf.rootSize,length_directory]
  omega

section
variable (hf : Finished st.bytes files own) (hw : st.Working) (alloc : Io Word32)
  (hall : ∀ e ∈ entries files, e.1 ≠ 0 ∧ ValidName e.2)
  (hbefore : ∀ j < t, ∀ e', (entries files)[j]? = some e' → e.2 ≠ e'.2)
  (ht : (entries files)[t]? = some e)
include hf hw alloc hall hbefore ht

lemma dirLookup_finds : ∃ k, (v6FileSystem superblock alloc).dirLookup 1 e.2 st =
        (.ok (16 * t,e.1.setWidth 32),st.after k) := by
  have ho : (1 : Word32).toNat = 1 := rfl
  have hr : Holds (st.after 1).bytes (inodeAt superblock st.bytes 1)
      (blocks (directory files).length) (own 1) (directory files) := hf.root
  have hw' : (st.after 1).Working := hw
  obtain ⟨k,hk⟩ := dirLoop_finds alloc hall hr hw' hf.size_le (Nat.zero_le t)
    (fun j _ => hbefore j) ht
  have hl : dirLookup superblock alloc e.2
      ⟨⟨(1 : Word32).toNat,inodeAt superblock st.bytes (1 : Word32).toNat⟩,st.after 1⟩ =
        (.ok (16 * t,e.1),⟨⟨1,inodeAt superblock st.bytes 1⟩,(st.after 1).after k⟩) := by
    rw [ho,dirLookup,asks_bind,if_neg (not_not.mpr hf.rootType)]
    exact hk
  refine ⟨1 + k,?_⟩
  rw [← Storage.after_after]
  exact bind_of_ok (withInode_ok hw (by decide) hl)

lemma lookup_finds {tmp : ℕ} (hne : tmp ≠ c) : ∃ v k n,
      lookupInodeFromPath (v6FileSystem superblock alloc) tmp c (slash :: e.2) false
        ((fresh st).construct c) = (.ok (),v) ∧ v.disk = st.after n ∧ v.slot c = some (some k) ∧
        (v.nodes k).inum = e.1.setWidth 32 := by
  have hva := (hall e (mem_of_getElem? ht)).2
  have hsh := hva.short
  have ho : (1 : Word32).toNat = 1 := rfl
  have hdi : convType (inodeAt superblock st.bytes (1 : Word32).toNat).type = .ok .directory := by
    rw [ho,hf.rootType]
    rfl
  have hn : (inodeAt superblock st.bytes (1 : Word32).toNat).type ≠ 0 := by
    rw [ho,hf.rootType]
    decide
  obtain ⟨stat,hs,hty⟩ := stat_ok alloc hw (by decide) hn hdi
  have hf' : Finished (st.after 1).bytes files own := hf
  have hw' : (st.after 1).Working := hw
  obtain ⟨n,hl⟩ := dirLookup_finds hf' hw' alloc hall hbefore ht
  have hta : e.2.take maxDirectoryNameLength = e.2 :=
    take_of_length_le (by unfold maxDirectoryNameLength; omega)
  obtain ⟨v,hv,hd,hfo⟩ := lookup_single hne hva.nonempty hva.plain hs hty (hta.symm ▸ hl)
  obtain ⟨k,hsl,hin⟩ := hfo _ rfl
  rw [Storage.after_after] at hd
  exact ⟨v,k,_,hv,hd,hsl,hin⟩

end

end

end Fs.Mkfs
