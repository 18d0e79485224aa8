import Mathlib.Data.Fin.Basic
import RaphKernel.Fs.Storage

namespace Fs
open Bytes Fallible

abbrev Word32 := BitVec 32

def blockSize : ℕ := 512

def numOfDirectBlocks : ℕ := 12

def numEntriesOfIndirectBlock : ℕ := blockSize / 4

structure SuperBlock where
  size : Word32
  nblocks : Word32
  ninodes : Word32
  nlog : Word32
  logstart : Word32
  inodestart : Word32
  bmapstart : Word32

def SuperBlock.parse (data : List Byte) : SuperBlock where
  size := field 4 data 0
  nblocks := field 4 data 4
  ninodes := field 4 data 8
  nlog := field 4 data 12
  logstart := field 4 data 16
  inodestart := field 4 data 20
  bmapstart := field 4 data 24

def mount : Io SuperBlock := fun st =>
  match Storage.read blockSize 28 st with
  | (.ok data,st') => (.ok (.parse data),st')
  | (.error _,st') => (.error (.panic (.kernelPanic "V6FS" "storage error")),st')

instance instNeZeroAddrs : NeZero 13 := ⟨Nat.succ_ne_zero 12⟩

structure InodeStruct where
  type : BitVec 16
  major : BitVec 16
  minor : BitVec 16
  nlink : BitVec 16
  size : Word32
  addrs : Fin 13 → Word32

def InodeStruct.parse (data : List Byte) : InodeStruct where
  type := field 2 data 0
  major := field 2 data 2
  minor := field 2 data 4
  nlink := field 2 data 6
  size := field 4 data 8
  addrs := fun k => field 4 data (12 + 4 * k)

def InodeStruct.header (s : InodeStruct) : List Byte :=
  encode 2 s.type.toNat ++ (encode 2 s.major.toNat ++ (encode 2 s.minor.toNat ++
    (encode 2 s.nlink.toNat ++ encode 4 s.size.toNat)))

def InodeStruct.serialize (s : InodeStruct) : List Byte :=
  s.header ++ (List.ofFn s.addrs).flatMap fun a => encode 4 a.toNat

namespace InodeStruct

lemma length_header (s : InodeStruct) : s.header.length = 12 := by simp [header]

@[simp]
lemma length_serialize (s : InodeStruct) : s.serialize.length = 64 := by
  simp [serialize,length_header]

lemma field_addrs (s : InodeStruct) (k : Fin 13) : field 4 s.serialize (12 + 4 * k) = s.addrs k := by
  have hk : 12 + 4 * k.val - s.header.length = 4 * k := by
    rw [length_header]
    omega
  rw [serialize,field_append_right (by rw [length_header]; omega),hk,field_flatMap (by simp)]
  exact List.getElem_ofFn _

lemma parse_serialize (s : InodeStruct) : parse s.serialize = s := by
  have ha := funext (field_addrs s)
  obtain ⟨type,major,minor,nlink,size,addrs⟩ := s
  rw [parse,InodeStruct.mk.injEq]
  refine ⟨?_,?_,?_,?_,?_,ha⟩
  all_goals simp only [serialize,header,List.append_assoc]
  · exact field_encode (w := 2) type _
  · rw [field_append_right]
    exact field_encode (w := 2) major _
  · rw [field_append_right,field_append_right]
    exact field_encode (w := 2) minor _
  · rw [field_append_right,field_append_right,field_append_right]
    exact field_encode (w := 2) nlink _
  · rw [field_append_right,field_append_right,field_append_right,
      field_append_right]
    exact field_encode (w := 4) size _

end InodeStruct

def blockOffset (addr : Word32) : ℕ := (addr * 512).toNat

def inodeOffset (sb : SuperBlock) (index : ℕ) : ℕ := (sb.inodestart * 512).toNat + 64 * index

structure V6fsInode where
  index : ℕ
  st : InodeStruct

structure Disk where
  inode : V6fsInode
  storage : Storage

def onStorage {A : Type} (x : Io A) : Fallible Disk Failure A := fun d =>
  ((x d.storage).1,{ d with storage := (x d.storage).2 })

def V6fsInode.read (sb : SuperBlock) (index : ℕ) : Io V6fsInode := do
  let data ← Storage.read (inodeOffset sb index) 64
  pure ⟨index,.parse data⟩

def V6fsInode.write (sb : SuperBlock) (inode : V6fsInode) : Io Unit :=
  Storage.write (inodeOffset sb inode.index) inode.st.serialize

def Disk.setAddr (k : Fin 13) (addr : Word32) (d : Disk) : Disk :=
  { d with inode := ⟨d.inode.index,
    { d.inode.st with addrs := Function.update d.inode.st.addrs k addr }⟩ }

def writeInode (sb : SuperBlock) : Fallible Disk Failure Unit := do
  let inode ← asks Disk.inode
  onStorage (inode.write sb)

namespace BlockCtrl

def bitmapOffset (sb : SuperBlock) (b : Word32) : ℕ := (sb.bmapstart * 512 + b / 8).toNat

def firstClear (flag : Byte) : Option ℕ :=
  (List.range 8).find? fun bi => flag &&& (1 : Byte) <<< bi == 0

def clearBlock (index : Word32) : Io Unit :=
  Storage.write (blockOffset index) (List.replicate (4 * blockSize) 0)

def allocLoop (sb : SuperBlock) : ℕ → Word32 → Io Word32
  | 0, _ => fail .spin
  | fuel + 1, b =>
    if b < sb.size then do
      let data ← Storage.read (bitmapOffset sb b) 1
      let flag := data.headD 0
      match firstClear flag with
      | some bi => do
        Storage.write (bitmapOffset sb b) [flag ||| (1 : Byte) <<< bi]
        clearBlock b
        pure b
      | none => allocLoop sb fuel (b + 8)
    else fail (.state .errNoHwResource)

def alloc (sb : SuperBlock) (fuel : ℕ) : Io Word32 := allocLoop sb fuel 0

end BlockCtrl

def entryOffset (addr : Word32) (index : ℕ) : ℕ := blockOffset addr + index * 4

def mapIndirect (alloc : Io Word32) : Fallible Disk Failure Word32 := do
  let addr ← asks fun d => d.inode.st.addrs 12
  if addr = 0 then do
    let addr ← onStorage alloc
    update (Disk.setAddr 12 addr)
    pure addr
  else pure addr

def mapDirect (sb : SuperBlock) (alloc : Io Word32) (k : Fin 13) : Fallible Disk Failure Word32 := do
  let addr ← asks fun d => d.inode.st.addrs k
  if addr = 0 then do
    let addr ← onStorage alloc
    update (Disk.setAddr k addr)
    writeInode sb
    pure addr
  else pure addr

def mapEntry (alloc : Io Word32) (index : ℕ) (indirect : Word32) : Fallible Disk Failure Word32 := do
  let data ← onStorage (Storage.read (entryOffset indirect index) 4)
  let entry : Word32 := field 4 data 0
  if entry = 0 then do
    let addr ← onStorage alloc
    onStorage (Storage.write (entryOffset addr index) (encode 4 entry.toNat))
    pure addr
  else pure entry

def mapBlock (sb : SuperBlock) (alloc : Io Word32) (index : ℕ) : Fallible Disk Failure Word32 :=
  if index < numOfDirectBlocks then mapDirect sb alloc (Fin.ofNat 13 index)
  else if index - numOfDirectBlocks < numEntriesOfIndirectBlock then
    mapIndirect alloc >>= mapEntry alloc (index - numOfDirectBlocks)
  else fail (.state .errInvalid)

structure ReadResult where
  state : IoReturnState
  size : ℕ
  data : List Byte

def readBlock (sb : SuperBlock) (alloc : Io Word32) (offset curSize : ℕ) :
    Fallible Disk Failure (List Byte) := do
  let addr ← mapBlock sb alloc (offset / blockSize)
  onStorage (Storage.read (blockOffset addr + offset % blockSize) curSize)

def curSize (offset remaining : ℕ) : ℕ := min (512 - offset % 512) remaining

lemma curSize_pos (offset : ℕ) {remaining : ℕ} (h : 0 < remaining) :
    0 < curSize offset remaining := by
  unfold curSize
  omega

def readLoop (sb : SuperBlock) (alloc : Io Word32) (size offset total : ℕ) (buf : List Byte) :
    Fallible Disk Failure ReadResult :=
  if _ : total < size then do
    let data ← attempt (readBlock sb alloc offset (curSize offset (size - total)))
    match data with
    | .ok data =>
      readLoop sb alloc size (offset + curSize offset (size - total))
        (total + curSize offset (size - total)) (buf ++ data)
    | .error (.state s) => pure ⟨s,total,buf⟩
    | .error e => fail e
  else pure ⟨.ok,size,buf⟩
termination_by size - total
decreasing_by
  have hpos := curSize_pos offset (Nat.sub_pos_of_lt ‹_›)
  omega

def readDataFromInode (sb : SuperBlock) (alloc : Io Word32) (offset size : Raph.Word) :
    Fallible Disk Failure ReadResult := do
  let fileSize ← asks fun d => d.inode.st.size.toNat
  if fileSize < offset.toNat ∨ offset + size < offset then
    pure ⟨.errInvalid,size.toNat,[]⟩
  else if fileSize < offset.toNat + size.toNat then
    readLoop sb alloc (fileSize - offset.toNat) offset.toNat 0 []
  else readLoop sb alloc size.toNat offset.toNat 0 []

structure DirEntry where
  inum : BitVec 16
  name : List Byte

def DirEntry.parse (data : List Byte) : DirEntry := ⟨field 2 data 0,(data.drop 2).take 14⟩

def cstring (data : List Byte) : List Byte := data.takeWhile (· ≠ 0)

def dirLoop (sb : SuperBlock) (alloc : Io Word32) (name : List Byte) (size i : ℕ) :
    Fallible Disk Failure (ℕ × BitVec 16) :=
  if h : i < size then do
    let r ← readDataFromInode sb alloc (BitVec.ofNat 64 i) 16
    if r.state ≠ .ok then fail (.state r.state)
    else if r.size ≠ 16 then fail (.state .errInvalid)
    else if (DirEntry.parse r.data).inum = 0 then dirLoop sb alloc name size (i + 16)
    else if name = cstring (DirEntry.parse r.data).name then pure (i,(DirEntry.parse r.data).inum)
    else dirLoop sb alloc name size (i + 16)
  else fail (.state .errNotFound)
termination_by size - i

def dirLookup (sb : SuperBlock) (alloc : Io Word32) (name : List Byte) :
    Fallible Disk Failure (ℕ × BitVec 16) := do
  let inode ← asks fun d => d.inode.st
  if inode.type ≠ 1 then fail (.state .errInvalid)
  else dirLoop sb alloc name inode.size.toNat 0

inductive FileType where
  | directory
  | file
  | device
  deriving DecidableEq, Repr

structure Stat where
  type : FileType
  ino : Word32
  nlink : BitVec 16
  size : Word32

def convType (type : BitVec 16) : Except Failure FileType :=
  if type = 1 then .ok .directory
  else if type = 2 then .ok .file
  else if type = 3 then .ok .device
  else .error (.panic .kassert)

def InodeStruct.stat (s : InodeStruct) (inum : Word32) : Except Failure Stat :=
  if s.type = 0 then .error (.state .errNotFound)
  else
    match convType s.type with
    | .ok type => .ok ⟨type,inum,s.nlink,s.size⟩
    | .error e => .error e

def loadInode (sb : SuperBlock) (inum : Word32) : Io V6fsInode :=
  if inum < sb.ninodes then V6fsInode.read sb inum.toNat else fail (.panic .kassert)

def withInode {A : Type} (sb : SuperBlock) (inum : Word32) (x : Fallible Disk Failure A) : Io A := do
  let inode ← loadInode sb inum
  fun st => ((x ⟨inode,st⟩).1,(x ⟨inode,st⟩).2.storage)

end Fs
