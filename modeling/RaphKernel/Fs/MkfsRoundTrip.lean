import RaphKernel.Fs.MkfsLookup

namespace Fs.Mkfs
open Bytes Fallible BlockCtrl InodeRefs List BitVec HostFile Nat
variable {st : Storage} {k j c : ℕ} {inum : Word32} {d : Disk} {data : List Byte}
  {r : Except Failure ReadResult} {files : List HostFile}

structure Accepted (files : List HostFile) (h : Host) : Prop where
  names : ∀ f ∈ files, ValidName f.name
  distinct : (files.map HostFile.name).Nodup
  built : main files truncated = (.ok (),h)

def kernel (fuel : ℕ) (sb : SuperBlock) : DiskFileSystem Storage :=
  v6FileSystem sb (BlockCtrl.alloc sb fuel)

structure Returned (m : ℕ → Byte) (contents : List Byte) (size : Raph.Word)
    (r : Except Failure ReadResult) (st : Storage) : Prop where
  result : r = .ok ⟨.ok,min size.toNat contents.length,contents.take size.toNat⟩
  image : st.bytes = m

def Served (fuel : ℕ) (m : ℕ → Byte) (f : HostFile) : Prop :=
  ∀ st : Storage, st.Working → st.bytes = m → ∀ tmp c : ℕ, tmp ≠ c → ∀ size : Raph.Word,
    ∃ sb st₁ v r w, mount st = (.ok sb,st₁) ∧
      lookupInodeFromPath (kernel fuel sb) tmp c (slash :: f.name) false ((fresh st₁).construct c) =
        (.ok (),v) ∧
      readDataFromContainer (kernel fuel sb) c 0 size v = (r,w) ∧
      Returned m f.contents size r w.disk

def Reserved (name : List Byte) : Prop := name = dot ∨ name = dotdot

instance (name : List Byte) : Decidable (Reserved name) :=
  inferInstanceAs (Decidable (name = dot ∨ name = dotdot))

def padded (files : List HostFile) : List Byte :=
  directory files ++ List.replicate (512 * ((files.length + 2) / 32 + 1) - 16 * (files.length + 2)) 0

def Readable (files : List HostFile) (k : ℕ) (f : HostFile) : Prop :=
  if Reserved f.name then (files.length + 2) % 32 ≠ 0 ∧ f.contents = padded files else k < 198

def target (k : ℕ) (name : List Byte) : ℕ := if Reserved name then 1 else k + 2

section
variable {files : List HostFile}

lemma entries_valid (hc : files.length ≤ 214) (hn : ∀ f ∈ files, ValidName f.name) :
    ∀ e ∈ entries files, e.1 ≠ 0 ∧ ValidName e.2 := by
  intro e he
  rcases mem_cons.mp he with rfl | he
  · exact ⟨by decide,dot_valid⟩
  · rcases mem_cons.mp he with rfl | he
    · exact ⟨by decide,dotdot_valid⟩
    · obtain ⟨k,hk,rfl⟩ := mem_mapIdx.mp he
      refine ⟨fun h0 => ?_,hn _ (getElem_mem hk)⟩
      have hna := congrArg BitVec.toNat h0
      rw [toNat_ofNat,mod_eq_of_lt (by omega)] at hna
      exact absurd hna (by simp)

lemma inum_toNat (hk : k ≤ 214) : ((BitVec.ofNat 16 (k + 2)).setWidth 32).toNat = k + 2 := by
  rw [toNat_setWidth,toNat_ofNat]
  omega

lemma name_inj (hd : (files.map name).Nodup) (hj : j < files.length)
    (hk : k < files.length) (heq : files[j].name = files[k].name) : j = k := by
  have hg : (files.map name)[j]? = (files.map name)[k]? := by
    rw [getElem?_map,getElem?_map,List.getElem?_eq_getElem hj,List.getElem?_eq_getElem hk]
    exact congrArg some heq
  exact (getElem?_inj (by rw [length_map]; exact hj) hd).mp hg

lemma entry_target (hc : files.length ≤ 214) (hdi : (files.map name).Nodup)
    (hk : k < files.length) : ∃ (t : ℕ) (e : BitVec 16 × List Byte),
      (entries files)[t]? = some e ∧ e.2 = files[k].name ∧
      (∀ j < t, ∀ e', (entries files)[j]? = some e' → e.2 ≠ e'.2) ∧
      (e.1.setWidth 32).toNat = target k files[k].name := by
  by_cases hdo : files[k].name = dot
  · refine ⟨0,(1,dot),rfl,hdo.symm,fun j hj => absurd hj (not_lt_zero j),?_⟩
    rw [target,if_pos (.inl hdo)]
    rfl
  · by_cases hd : files[k].name = dotdot
    · refine ⟨1,(1,dotdot),rfl,hd.symm,fun j hj e' he' => ?_,?_⟩
      · obtain rfl : j = 0 := by omega
        cases he'
        exact (by decide : dotdot ≠ dot)
      · rw [target,if_pos (.inr hd)]
        rfl
    · refine ⟨k + 2,_,entries_file hk,rfl,fun j hj e' he' => ?_,?_⟩
      · match j with
        | 0 =>
          cases he'
          exact hdo
        | 1 =>
          cases he'
          exact hd
        | i + 2 =>
          have hi : i < files.length := by omega
          rw [entries_file hi] at he'
          cases he'
          intro heq
          have hki := name_inj hdi hk hi heq
          omega
      · have hp : ¬ Reserved files[k].name := not_or.mpr ⟨hdo,hd⟩
        rw [target,if_neg hp]
        exact inum_toNat (by omega)

end

def readInode (fs : DiskFileSystem Storage) (inum : Word32) (size : Raph.Word) : Io ReadResult := do
  let st ← fs.getStatOfInode inum
  if st.type = .device then fail (.panic (.kernelPanic "VFS" "needs implementation!"))
  else fs.readDataFromInode inum 0 size

lemma readDataFromContainer_node {fs : DiskFileSystem Storage} {v : Vfs Storage} {k : Node}
    (hs : v.slot c = some (some k)) (size : Raph.Word) :
    readDataFromContainer fs c 0 size v = onDisk (readInode fs (v.nodes k).inum size) v := by
  rcases hst : fs.getStatOfInode (v.nodes k).inum v.disk with ⟨e | st,d⟩
  · rw [readDataFromContainer_error hs hst,onDisk,readInode,bind_of_error hst]
  · by_cases hd : st.type = .device
    · have hst' : withNode c fs.getStatOfInode v = (.ok st,{ v with disk := d }) :=
        withNode_ok hs hst
      rw [readDataFromContainer,bind_of_ok hst',onDisk,readInode,bind_of_ok hst,if_pos hd,if_pos hd]
      rfl
    · rcases hr : fs.readDataFromInode (v.nodes k).inum 0 size d with ⟨r,d'⟩
      rw [readDataFromContainer_ok hs hst hd hr,onDisk,readInode,bind_of_ok hst,if_neg hd,hr]

section
variable {files : List HostFile} {own : ℕ → Set ℕ} {m : ℕ → Byte} {fuel k : ℕ}

structure Image (m : ℕ → Byte) (files : List HostFile) (own : ℕ → Set ℕ) : Prop where
  finished : Finished m files own
  count : files.length ≤ 214
  names : ∀ f ∈ files, ValidName f.name
  distinct : (files.map HostFile.name).Nodup

lemma Image.lookup (hi : Image m files own) (fuel : ℕ) (hk : k < files.length)
    (hw : st.Working) (hm : st.bytes = m) {tmp : ℕ} (hne : tmp ≠ c) : ∃ v l n,
      mount st = (.ok superblock,st.after 1) ∧
      lookupInodeFromPath (kernel fuel superblock) tmp c (slash :: files[k].name) false
        ((fresh (st.after 1)).construct c) = (.ok (),v) ∧ v.disk = st.after n ∧
      v.slot c = some (some l) ∧ (v.nodes l).inum.toNat = target k files[k].name := by
  subst hm
  have hf' : Finished (st.after 1).bytes files own := hi.finished
  have hw' : (st.after 1).Working := hw
  obtain ⟨t,e,ht,hn,hb,hta⟩ := entry_target hi.count hi.distinct hk
  obtain ⟨v,l,n,hl,hd,hs,hin⟩ := lookup_finds hf' hw' _
    (entries_valid hi.count hi.names) hb ht hne
  rw [hn] at hl
  rw [Storage.after_after] at hd
  exact ⟨v,l,_,mount_ok hi.finished hw,hl,hd,hs,by rw [hin,hta]⟩

lemma served_of_read (hi : Image m files own) (hk : k < files.length)
    (hr : ∀ st, st.Working → st.bytes = m → ∀ inum,
      inum.toNat = target k files[k].name → ∀ size,
      Returned m files[k].contents size (readInode (kernel fuel superblock) inum size st).1
        (readInode (kernel fuel superblock) inum size st).2) : Served fuel m files[k] := by
  intro st hw hm tmp c hne size
  obtain ⟨v,l,n,hmo,hl,hd,hs,hin⟩ := hi.lookup fuel hk hw hm hne
  have hw' : (st.after n).Working := hw
  have hm' : (st.after n).bytes = m := hm
  have hre := hr v.disk (hd ▸ hw') (hd ▸ hm') _ hin size
  exact ⟨_,_,v,_,_,hmo,hl,readDataFromContainer_node hs size,hre⟩

lemma Served.read (hi : Image m files own) (hk : k < files.length) (hs : Served fuel m files[k])
    (size : Raph.Word) : ∃ st inum, st.Working ∧ st.bytes = m ∧
      inum.toNat = target k files[k].name ∧
      Returned m files[k].contents size (readInode (kernel fuel superblock) inum size st).1
        (readInode (kernel fuel superblock) inum size st).2 := by
  have hw : (⟨m,fun _ _ _ => .ok,0⟩ : Storage).Working := fun _ _ _ => rfl
  obtain ⟨v,l,n,hm,hl,hd,hsl,hin⟩ := hi.lookup fuel hk hw rfl zero_ne_one
  obtain ⟨sb,st₁,v',r,w,hm',hl',hr,hre⟩ := hs _ hw rfl 0 1 zero_ne_one size
  rw [hm] at hm'
  cases hm'
  rw [hl] at hl'
  cases hl'
  rw [readDataFromContainer_node hsl size] at hr
  cases hr
  refine ⟨v.disk,(v.nodes l).inum,?_,?_,hin,hre⟩
  · rw [hd]
    exact hw
  · rw [hd]
    rfl

lemma readInode_ok {size : Raph.Word} {type : FileType} (hw : st.Working) (hi : inum.toNat < 200)
    (h0 : (inodeAt superblock st.bytes inum.toNat).type ≠ 0)
    (ht : convType (inodeAt superblock st.bytes inum.toNat).type = .ok type) (hd : type ≠ .device)
    (hr : readDataFromInode superblock (BlockCtrl.alloc superblock fuel) 0 size
      ⟨⟨inum.toNat,inodeAt superblock st.bytes inum.toNat⟩,st.after 2⟩ = (r,d)) :
    readInode (kernel fuel superblock) inum size st = (r,d.storage) := by
  obtain ⟨stat,hs,hst⟩ := stat_ok (BlockCtrl.alloc superblock fuel) hw (below_ninodes hi) h0 ht
  have hs' : (kernel fuel superblock).getStatOfInode inum st = (.ok stat,st.after 1) := hs
  have hw' : (st.after 1).Working := hw
  rw [readInode,bind_of_ok hs',if_neg (hst ▸ hd)]
  exact withInode_ok hw' (below_ninodes hi) hr

lemma read_whole {s : InodeStruct} (alloc : Io Word32)
    (hmap : ∀ k, 512 * k < s.size.toNat → Mapped s st.bytes k)
    (hb : slice (fileByte s st.bytes) 0 s.size.toNat = data) (hw : st.Working) (i : ℕ)
    (size : Raph.Word) : ∃ k, readDataFromInode superblock alloc 0 size ⟨⟨i,s⟩,st⟩ =
      (.ok ⟨.ok,min size.toNat data.length,data.take size.toNat⟩,⟨⟨i,s⟩,st.after k⟩) := by
  have hz : (0 : Raph.Word).toNat = 0 := rfl
  have hlt := size.isLt
  have hl : data.length = s.size.toNat := by
    rw [← hb,length_slice]
  have ha : ¬ Rejected s 0 size := by
    rintro (hr | hr)
    · exact absurd hr (Nat.not_lt_zero _)
    · omega
  have hav : available s 0 size = min size.toNat data.length := by
    rw [available,hz,Nat.sub_zero,hl]
  have hs : slice (fileByte s st.bytes) 0 (min size.toNat data.length) = data.take size.toNat := by
    have hp := slice_slice (fileByte s st.bytes) 0
      (by omega : 0 + min size.toNat data.length ≤ s.size.toNat)
    rw [hb,drop_zero,Nat.zero_add] at hp
    rw [← hp]
    rcases le_total size.toNat data.length with hle | hle
    · rw [min_eq_left hle]
    · rw [min_eq_right hle,take_of_length_le hle,take_length]
  obtain ⟨k,hk⟩ := read_working superblock alloc i hmap hw ha
  rw [hav,hz,hs] at hk
  exact ⟨k,hk⟩

lemma returned_of_whole (fuel : ℕ) (type : FileType) (hw : st.Working) (hi : inum.toNat < 200)
    (h0 : (inodeAt superblock st.bytes inum.toNat).type ≠ 0)
    (ht : convType (inodeAt superblock st.bytes inum.toNat).type = .ok type) (hd : type ≠ .device)
    (hmap : ∀ k, 512 * k < (inodeAt superblock st.bytes inum.toNat).size.toNat →
      Mapped (inodeAt superblock st.bytes inum.toNat) st.bytes k)
    (hb : slice (fileByte (inodeAt superblock st.bytes inum.toNat) st.bytes) 0
      (inodeAt superblock st.bytes inum.toNat).size.toNat = data) (size : Raph.Word) :
    Returned st.bytes data size (readInode (kernel fuel superblock) inum size st).1
      (readInode (kernel fuel superblock) inum size st).2 := by
  have hw' : (st.after 2).Working := hw
  have hm' : ∀ k, 512 * k < (inodeAt superblock st.bytes inum.toNat).size.toNat →
      Mapped (inodeAt superblock st.bytes inum.toNat) (st.after 2).bytes k := hmap
  obtain ⟨k,hk⟩ := read_whole _ hm' hb hw' inum.toNat size
  rw [readInode_ok hw hi h0 ht hd hk]
  exact ⟨rfl,rfl⟩

lemma file_returned (hi : Image m files own) (hk : k < files.length) (hk' : k < 198)
    (fuel : ℕ) (hw : st.Working) (hm : st.bytes = m) (hin : inum.toNat = k + 2)
    (size : Raph.Word) :
    Returned m files[k].contents size (readInode (kernel fuel superblock) inum size st).1
      (readInode (kernel fuel superblock) inum size st).2 := by
  subst hm
  have hf := hi.finished.file k hk (by omega)
  rw [← hin] at hf
  refine returned_of_whole fuel .file hw (by omega) ?_ ?_ (by decide) (fun j hj => ?_) ?_ size
  · rw [hf.type]
    decide
  · rw [hf.type]
    rfl
  · rw [hf.size] at hj
    refine hf.holds.mapped ?_
    unfold blocks
    omega
  · rw [hf.size,hf.holds.part (by omega),drop_zero,take_length]

lemma root_blocks (h32 : (files.length + 2) % 32 ≠ 0) :
    blocks (directory files).length = (files.length + 2) / 32 + 1 := by
  rw [length_directory]
  unfold blocks
  omega

lemma length_padded (files : List HostFile) :
    (padded files).length = 512 * ((files.length + 2) / 32 + 1) := by
  rw [padded,length_append,length_directory,length_replicate]
  omega

lemma root_returned (hi : Image m files own) (h32 : (files.length + 2) % 32 ≠ 0)
    (fuel : ℕ) (hw : st.Working) (hm : st.bytes = m) (hin : inum.toNat = 1)
    (size : Raph.Word) :
    Returned m (padded files) size (readInode (kernel fuel superblock) inum size st).1
      (readInode (kernel fuel superblock) inum size st).2 := by
  subst hm
  have hf := hi.finished
  have hn : inodeAt superblock st.bytes inum.toNat = inodeAt superblock st.bytes 1 := by rw [hin]
  have hr := hf.root
  have hs := hf.rootSize
  have ht := hf.rootType
  rw [← hn] at hr hs ht
  refine returned_of_whole fuel .directory hw (by omega) ?_ ?_ (by decide) (fun j hj => ?_) ?_ size
  · rw [ht]
    decide
  · rw [ht]
    rfl
  · rw [hs] at hj
    refine hr.mapped ?_
    rw [root_blocks h32]
    omega
  · have hb := hr.bytes
    rw [root_blocks h32,length_directory] at hb
    rw [hs,hb]
    rfl

lemma allocLoop_outcome (hw : st.Working) (fuel : ℕ) (hj : 0 < j)
    (hl : 8 * j < superblock.size.toNat + 8) :
    (∃ b st', allocLoop superblock fuel (BitVec.ofNat 32 (8 * j)) st = (.ok b,st') ∧ b ≠ 0) ∨
      ∃ e st', allocLoop superblock fuel (BitVec.ofNat 32 (8 * j)) st = (.error e,st') ∧
        (e = .spin ∨ e = .state .errNoHwResource) := by
  have hs : superblock.size.toNat = 1000 := by decide
  induction fuel generalizing j st with
  | zero => exact .inr ⟨.spin,st,rfl,.inl rfl⟩
  | succ fuel ih =>
    by_cases hlt : 8 * j < superblock.size.toNat
    · cases hb : firstClear _ with
      | none =>
        rw [allocLoop_skip hw hlt (firstClear_none.mp hb)]
        exact ih hw.tick (succ_pos j) (by omega)
      | some bi =>
        refine .inl ⟨_,_,allocLoop_take hw hlt hb,fun h0 => ?_⟩
        have hn := congrArg BitVec.toNat h0
        rw [toNat_ofNat,mod_eq_of_lt (by omega)] at hn
        have hz : (0 : Word32).toNat = 0 := rfl
        omega
    · exact .inr ⟨_,_,allocLoop_end (by omega) hl (by omega),.inr rfl⟩

lemma alloc_outcome (hw : st.Working) (hfi : st.bytes 29696 = 0xff) (fuel : ℕ) :
    (∃ b st', BlockCtrl.alloc superblock fuel st = (.ok b,st') ∧ b ≠ 0) ∨
      ∃ e st', BlockCtrl.alloc superblock fuel st = (.error e,st') ∧
        (e = .spin ∨ e = .state .errNoHwResource) := by
  have hsi : superblock.size.toNat = 1000 := by decide
  cases fuel with
  | zero => exact .inr ⟨.spin,st,rfl,.inl rfl⟩
  | succ fuel =>
    have hf : flagAt superblock st.bytes 0 = 0xff := by
      rw [flagAt_eq (by omega) (by decide)]
      exact hfi
    have hs : BlockCtrl.alloc superblock (fuel + 1) st =
        allocLoop superblock fuel (BitVec.ofNat 32 (8 * (0 + 1))) st.tick :=
      allocLoop_skip hw (by omega) hf
    rw [hs]
    exact allocLoop_outcome hw.tick fuel one_pos (by omega)

lemma position_root (R j : ℕ) (hj : 512 * j ≤ R) : position 0 R j = 512 * j := by
  unfold position
  omega

lemma readBlock_direct {alloc : Io Word32} (hj : j < 12) :
    readBlock superblock alloc (512 * j) c = mapDirect superblock alloc (Fin.ofNat 13 j) >>=
      fun addr => onStorage (Storage.read (blockOffset addr + 0) c) := by
  have hd : 512 * j / 512 = j := by omega
  have hm : 512 * j % 512 = 0 := by omega
  rw [readBlock_eq,hd,hm,mapBlock_direct hj]

section
variable {s : InodeStruct} {st st' : Storage} {alloc : Io Word32} {j : ℕ}

lemma readLoop_reaches (hw : st.Working) (hmap : ∀ k < j, Mapped s st.bytes k)
    {r : Except Failure (List Byte)} (hr : readBlock superblock alloc (512 * j) 512
      ⟨⟨1,s⟩,st.after (requestsBefore 0 j)⟩ = (r,d)) :
    readLoop superblock alloc (512 * (j + 1)) 0 0 [] ⟨⟨1,s⟩,st⟩ = afterPart superblock alloc
      (slice (fileByte s st.bytes) 0 (512 * j)) 0 (512 * (j + 1)) j r d := by
  have hat : ∀ i ≤ j, position 0 (512 * (j + 1)) i = 512 * i := fun i hi => position_root _ _ (by omega)
  have hp : partSize 0 (512 * (j + 1)) j = 512 := by
    unfold partSize curSize
    rw [hat j le_rfl]
    omega
  have hup : ∀ i < j, position 0 (512 * (j + 1)) i < 0 + 512 * (j + 1) ∧
      Mapped s st.bytes (position 0 (512 * (j + 1)) i / 512) ∧
      blockAnswer s st 0 (512 * (j + 1)) i = .ok := by
    intro i hi
    rw [hat i hi.le]
    refine ⟨by omega,?_,blockAnswer_working hw _ _ i⟩
    rw [Nat.mul_div_cancel_left i (by norm_num)]
    exact hmap i hi
  have hlt : position 0 (512 * (j + 1)) j < 0 + 512 * (j + 1) := by
    rw [hat j le_rfl]
    omega
  have hr' : readBlock superblock alloc (position 0 (512 * (j + 1)) j)
      (partSize 0 (512 * (j + 1)) j) ⟨⟨1,s⟩,st.after (requestsBefore 0 j)⟩ = (r,d) := by
    rw [hat j le_rfl,hp]
    exact hr
  have hu := loopAt_unfold hlt hr'
  rw [hat j le_rfl] at hu
  exact loopAt_start.trans ((loopAt_upto hup).trans hu)

lemma afterPart_last (buf data : List Byte) (d : Disk) :
    afterPart superblock alloc buf 0 (512 * (j + 1)) j (.ok data) d =
      (.ok ⟨.ok,512 * (j + 1),buf ++ data⟩,d) := by
  have hat := position_root (512 * (j + 1)) j (by omega)
  have hd : position 0 (512 * (j + 1)) j - 0 + partSize 0 (512 * (j + 1)) j = 512 * (j + 1) := by
    unfold partSize curSize
    omega
  rw [afterPart,hd,readLoop,dif_neg (lt_irrefl _)]
  rfl

lemma recorded_addr (d : Disk) (k : Fin 13) (b : Word32) (st : Storage) :
    (inodeAt superblock (recorded superblock d k b st).storage.bytes d.inode.index).addrs k = b := by
  have hs := slice_overwrite st.bytes (inodeOffset superblock d.inode.index)
    (d.setAddr k b).inode.st.serialize
  rw [InodeStruct.length_serialize] at hs
  change (InodeStruct.parse (slice (overwrite st.bytes _ _) _ 64)).addrs _ = b
  rw [hs,InodeStruct.parse_serialize]
  exact Function.update_self ..

section
variable (hw : st.Working) (hmap : ∀ k < j, Mapped s st.bytes k) (hj : j < 12)
  (h0 : s.addrs (Fin.ofNat 13 j) = 0)
include hw hmap hj h0

lemma readLoop_claims {b : Word32} (ha : alloc (st.after (requestsBefore 0 j)) = (.ok b,st'))
    (hw' : st'.Working) :
    ∃ r d, readLoop superblock alloc (512 * (j + 1)) 0 0 [] ⟨⟨1,s⟩,st⟩ = (.ok r,d) ∧
      (inodeAt superblock d.storage.bytes 1).addrs (Fin.ofNat 13 j) = b := by
  have hm : mapDirect superblock alloc (Fin.ofNat 13 j) ⟨⟨1,s⟩,st.after (requestsBefore 0 j)⟩ = _ :=
    mapDirect_new h0 ha hw'
  have hd : onStorage (Storage.read (blockOffset b + 0) 512) (recorded superblock
      ⟨⟨1,s⟩,st.after (requestsBefore 0 j)⟩ (Fin.ofNat 13 j) b st') = _ :=
    onStorage_ok (Storage.read_ok (hw' ..))
  have hb := (congrFun (readBlock_direct hj) _).trans ((bind_of_ok hm).trans hd)
  exact ⟨_,_,(readLoop_reaches hw hmap hb).trans (afterPart_last ..),recorded_addr ..⟩

lemma readLoop_refused {e : Failure} (he : e ≠ .state .ok)
    (ha : alloc (st.after (requestsBefore 0 j)) = (.error e,st')) {r : ReadResult}
    (hr : readLoop superblock alloc (512 * (j + 1)) 0 0 [] ⟨⟨1,s⟩,st⟩ = (.ok r,d)) :
    r.state ≠ .ok := by
  have hm : mapDirect superblock alloc (Fin.ofNat 13 j) ⟨⟨1,s⟩,st.after (requestsBefore 0 j)⟩ = _ :=
    mapDirect_error h0 ha
  have hb := (congrFun (readBlock_direct (c := 512) hj) _).trans (bind_of_error hm)
  rw [readLoop_reaches hw hmap hb] at hr
  cases e with
  | state x =>
    cases hr
    exact fun hx => he (congrArg Failure.state hx)
  | panic p => cases hr
  | spin => cases hr

end

end

lemma root_gap (hf : Finished m files own) (hc : files.length ≤ 214)
    (h32 : (files.length + 2) % 32 = 0) : ∃ j < 12,
    (inodeAt superblock m 1).size.toNat = 512 * (j + 1) ∧
      (∀ k < j, Mapped (inodeAt superblock m 1) m k) ∧
      (inodeAt superblock m 1).addrs (Fin.ofNat 13 j) = 0 := by
  have hr := hf.root
  have hb : blocks (directory files).length = (files.length + 2) / 32 := by
    rw [length_directory]
    unfold blocks
    omega
  rw [hb] at hr
  refine ⟨_,by omega,hf.rootSize,fun k hk => hr.mapped hk,by_contra fun hne => ?_⟩
  have he : (inodeAt superblock m 1).entry m ((files.length + 2) / 32) ≠ 0 := by
    rw [InodeStruct.entry,if_pos (by unfold numOfDirectBlocks; omega)]
    exact hne
  exact lt_irrefl _ ((hr.layout.mapped _).mp he)

lemma root_unreadable (hi : Image m files own) (h32 : (files.length + 2) % 32 = 0)
    (fuel : ℕ) (hw : st.Working) (hm : st.bytes = m) (hin : inum.toNat = 1)
    (cs : List Byte) : ¬ Returned m cs (-1)
      (readInode (kernel fuel superblock) inum (-1) st).1
      (readInode (kernel fuel superblock) inum (-1) st).2 := by
  subst hm
  obtain ⟨j,hj,_,hmap,h0⟩ := root_gap hi.finished hi.count h32
  have ht := hi.finished.rootType
  have hal : (-1 : Raph.Word).toNat = 2 ^ 64 - 1 := rfl
  have hz : (0 : Raph.Word).toNat = 0 := rfl
  have hac : ¬ Rejected (inodeAt superblock st.bytes 1) 0 (-1) := by
    unfold Rejected
    omega
  have hav : available (inodeAt superblock st.bytes 1) 0 (-1) = 512 * (j + 1) := by
    unfold available
    omega
  rcases hr : readDataFromInode superblock _ 0 (-1)
    ⟨⟨1,inodeAt superblock st.bytes 1⟩,st.after 2⟩ with ⟨x,d⟩
  have hr' := hr
  rw [← hin] at hr'
  rw [readInode_ok hw (by omega) (by rw [hin,ht]; decide) (by rw [hin,ht]; rfl)
    (by decide : FileType.directory ≠ .device) hr']
  rintro ⟨rfl,him⟩
  rw [readDataFromInode_accepted hac,hav,hz] at hr
  have hw' : (st.after 2).Working := hw
  have hs : (BlockCtrl.alloc superblock fuel ((st.after 2).after (requestsBefore 0 j))).2.Working :=
    (steady_allocLoop fuel 0).working hw
  have hw'' : ((st.after 2).after (requestsBefore 0 j)).Working := hw
  rcases alloc_outcome hw'' hi.finished.marked fuel with
    ⟨b,st',ha,hb⟩ | ⟨e,st',ha,he⟩
  · rw [ha] at hs
    obtain ⟨r,d',hl,had⟩ := readLoop_claims hw' hmap hj h0 ha hs
    rw [hr] at hl
    cases hl
    rw [him,h0] at had
    exact hb had.symm
  · have hne : e ≠ .state .ok := by rcases he with rfl | rfl <;> simp
    exact readLoop_refused hw' hmap hj h0 hne ha hr rfl

lemma Returned.unique {data' : List Byte}
    (h : Returned m data (-1) r st) (h' : Returned m data' (-1) r st)
    (hl : data'.length < 2 ^ 64 - 1) : data = data' := by
  have ha : (-1 : Raph.Word).toNat = 2 ^ 64 - 1 := rfl
  have heq := h.result.symm.trans h'.result
  rw [ha] at heq
  injection heq with heq
  injection heq with _ hs hd
  rwa [take_of_length_le (by omega),take_of_length_le (by omega)] at hd

lemma readable_of_served (hi : Image m files own) (hk : k < files.length)
    (hs : Served fuel m files[k]) : Readable files k files[k] := by
  obtain ⟨st,inum,hw,hm,hin,hre⟩ := hs.read hi hk (-1)
  have hc := hi.count
  rw [target] at hin
  rw [Readable]
  split_ifs at hin ⊢ with hrs
  · have h32 : (files.length + 2) % 32 ≠ 0 := fun h32 => root_unreadable hi h32 fuel hw hm hin _ hre
    refine ⟨h32,hre.unique (root_returned hi h32 fuel hw hm hin (-1)) ?_⟩
    rw [length_padded]
    omega
  · by_contra hlt
    have hst : (kernel fuel superblock).getStatOfInode inum st = (.error (.panic .kassert),st) :=
      stat_panic _ (by omega)
    have hr := hre.result
    rw [readInode,bind_of_error hst] at hr
    cases hr

lemma served_of_readable (hi : Image m files own) (hk : k < files.length)
    (hr : Readable files k files[k]) : Served fuel m files[k] := by
  refine served_of_read hi hk fun st hw hm inum hin size => ?_
  rw [target] at hin
  rw [Readable] at hr
  split_ifs at hin hr with hre
  · rw [hr.2]
    exact root_returned hi hr.1 fuel hw hm hin size
  · exact file_returned hi hk hr fuel hw hm hin size

end

lemma Accepted.image {h : Host} (ha : Accepted files h)
    (hc : files.length ≤ 214) : ∃ own, Image h.image files own := by
  obtain ⟨own,hf⟩ := main_finished hc ha.built
  exact ⟨own,hf,hc,ha.names,ha.distinct⟩

lemma count_of_readable (hd : (files.map name).Nodup)
    (hr : ∀ k (hk : k < files.length), Readable files k files[k]) : files.length ≤ 200 := by
  by_contra hlt
  have hre : ∀ k (hk : k < files.length), 198 ≤ k → Reserved files[k].name := by
    intro k hk _
    have h := hr k hk
    rw [Readable] at h
    by_contra hplain
    rw [if_neg hplain] at h
    omega
  have hne : ∀ j k (hj : j < files.length) (hk : k < files.length), j ≠ k →
      files[j].name ≠ files[k].name := fun j k hj hk hjk heq => hjk (name_inj hd hj hk heq)
  have hab := hne 198 199 (by omega) (by omega) (by omega)
  have hac := hne 198 200 (by omega) (by omega) (by omega)
  have hbc := hne 199 200 (by omega) (by omega) (by omega)
  have ha := hre 198 (by omega) le_rfl
  have hb := hre 199 (by omega) (by omega)
  have hc := hre 200 (by omega) (by omega)
  unfold Reserved at ha hb hc
  grind

theorem round_trip {files : List HostFile} {h : Host} (hacc : Accepted files h) (fuel : ℕ) :
    ((∀ k (hk : k < files.length), Readable files k files[k]) →
      ∀ f ∈ files, Served fuel h.image f) ∧
    (files.length ≤ 214 → (∀ f ∈ files, Served fuel h.image f) →
      ∀ k (hk : k < files.length), Readable files k files[k]) := by
  constructor
  · intro hr f hf
    obtain ⟨own,hi⟩ := hacc.image ((count_of_readable hacc.distinct hr).trans (by omega))
    obtain ⟨k,hk,rfl⟩ := mem_iff_getElem.mp hf
    exact served_of_readable hi hk (hr k hk)
  · intro hc hs k hk
    obtain ⟨own,hi⟩ := hacc.image hc
    exact readable_of_served hi hk (hs _ (getElem_mem hk))

def greeting : List HostFile := [⟨[95,97],[104,105]⟩]

lemma greeting_room : total (greeting.length + 2) (tree greeting) ≤ 941 := by decide

theorem round_trip_greeting : ∃ h, Accepted greeting h ∧ ∀ f ∈ greeting, Served 0 h.image f := by
  obtain ⟨h,hb⟩ := main_ok ⟨by decide,by decide,by decide,greeting_room⟩
  have ha : Accepted greeting h := by
    refine ⟨fun f hf => ?_,by decide,hb⟩
    rw [mem_singleton.mp hf]
    exact ⟨by decide,by decide,by decide,by decide⟩
  refine ⟨h,ha,(round_trip ha 0).1 fun k hk => ?_⟩
  obtain rfl : k = 0 := lt_one_iff.mp hk
  have hp : ¬ Reserved [97] := by decide
  exact (if_neg hp).mpr (by norm_num)

def letters (k : ℕ) : List Byte := [BitVec.ofNat 8 (65 + k / 16),BitVec.ofNat 8 (65 + k % 16)]

def crowd : List HostFile := (List.range 199).map fun k => ⟨letters k,[]⟩

lemma letter_toNat (hk : k < 16 := by omega) : (BitVec.ofNat 8 (65 + k)).toNat = 65 + k := by
  rw [toNat_ofNat]
  omega

lemma letters_inj (hj : j < 199) (hk : k < 199) (h : letters j = letters k) : j = k := by
  injection h with hh hl
  injection hl with hl
  have hh' := congrArg BitVec.toNat hh
  have hl' := congrArg BitVec.toNat hl
  rw [letter_toNat,letter_toNat] at hh' hl'
  omega

lemma letters_fresh (hk : k < 199) {b : Byte} (hb : b.toNat < 65 := by decide) : b ∉ letters k := by
  intro hm
  rcases mem_cons.mp hm with rfl | hm
  · rw [letter_toNat] at hb
    omega
  · rw [mem_singleton.mp hm,letter_toNat] at hb
    omega

lemma letters_name (hk : k < 199) (cs : List Byte) :
    name ⟨letters k,cs⟩ = letters k := by
  refine if_neg fun hh => ?_
  injection hh with hh
  have hn := congrArg BitVec.toNat hh
  have hu : underscore.toNat = 95 := rfl
  rw [letter_toNat] at hn
  omega

lemma letters_valid (hk : k < 199) : ValidName (letters k) :=
  ⟨cons_ne_nil _ _,(by norm_num : 2 ≤ 13),letters_fresh hk,letters_fresh hk⟩

lemma letters_plain (hk : k < 199) : ¬ Reserved (letters k) := by
  have hd : (46 : Byte) ∉ letters k := letters_fresh hk
  rintro (h | h) <;> exact hd (h ▸ mem_cons_self)

def ranks (n : ℕ) : List HostFile := (List.range n).map fun k => ⟨letters k,[]⟩

section
variable {n : ℕ}

lemma ranks_mem {f : HostFile} (hf : f ∈ ranks n) : ∃ k < n, f = ⟨letters k,[]⟩ := by
  obtain ⟨k,hk,rfl⟩ := List.mem_map.mp hf
  exact ⟨k,mem_range.mp hk,rfl⟩

lemma length_ranks (n : ℕ) : (ranks n).length = n := by
  rw [ranks,length_map,length_range]

lemma ranks_valid (hn : n ≤ 199) : ∀ f ∈ ranks n, ValidName f.name := by
  intro f hf
  obtain ⟨k,_,rfl⟩ := ranks_mem hf
  rw [letters_name (by omega)]
  exact letters_valid (by omega)

lemma ranks_distinct (hn : n ≤ 199) : ((ranks n).map name).Nodup := by
  have hlt : ∀ k ∈ List.range n, k < 199 := fun k hk => (mem_range.mp hk).trans_le hn
  have hna : (ranks n).map name = (List.range n).map letters := by
    rw [ranks,List.map_map]
    exact map_congr_left fun k hk => letters_name (hlt k hk) []
  rw [hna]
  exact Nodup.map_on (fun j hj k hk => letters_inj (hlt j hj) (hlt k hk)) nodup_range

lemma ranks_room (hn : n ≤ 199) : total ((ranks n).length + 2) (tree (ranks n)) ≤ 941 := by
  have ht : ∀ i ∈ Finset.range ((ranks n).length + 2),
      used (blocks (tree (ranks n) i).length) ≤ if i = 1 then 7 else 0 := by
    intro i _
    match i with
    | 0 => exact (by decide : used (blocks 0) ≤ 0)
    | 1 =>
      rw [tree,length_directory,length_ranks,if_pos rfl]
      unfold used blocks
      split_ifs <;> omega
    | k + 2 =>
      have he : tree (ranks n) (k + 2) = [] := by
        rw [tree]
        cases hg : (ranks n)[k]? with
        | none => rfl
        | some f =>
          obtain ⟨j,_,rfl⟩ := ranks_mem (mem_of_getElem? hg)
          rfl
      rw [he]
      exact zero_le _
  refine (Finset.sum_le_sum ht).trans ?_
  rw [Finset.sum_ite_eq']
  split_ifs <;> omega

lemma ranks_built (hn : n ≤ 199) : ∃ h, main (ranks n) truncated = (.ok (),h) := by
  refine main_ok ⟨(length_ranks n).trans_le (by omega),fun f hf => ?_,fun f hf => ?_,ranks_room hn⟩
  · obtain ⟨k,hk,rfl⟩ := ranks_mem hf
    exact letters_fresh (by omega)
  · obtain ⟨k,_,rfl⟩ := ranks_mem hf
    exact zero_le _

end

theorem crowd_unserved : ∃ h, Accepted crowd h ∧ ∀ fuel, ¬ ∀ f ∈ crowd, Served fuel h.image f := by
  have hc : crowd = ranks 199 := rfl
  have hl : 198 < crowd.length := by rw [hc,length_ranks]; omega
  obtain ⟨h,hb⟩ := ranks_built (n := 199) le_rfl
  have ha : Accepted crowd h := ⟨ranks_valid le_rfl,ranks_distinct le_rfl,hb⟩
  obtain ⟨own,hi⟩ := ha.image (by rw [hc,length_ranks]; omega)
  refine ⟨h,ha,fun fuel hs => ?_⟩
  have hr := readable_of_served hi hl (hs _ (getElem_mem hl))
  obtain ⟨k,hk,hf⟩ := ranks_mem (n := 199) (getElem_mem hl)
  rw [hf,Readable,letters_name hk,if_neg (letters_plain hk)] at hr
  omega

end Fs.Mkfs
