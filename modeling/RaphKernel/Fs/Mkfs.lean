import RaphKernel.Fs.MapBlock
import RaphKernel.Fs.Vfs

namespace Fs.Mkfs
open Bytes Fallible

inductive Abort where
  | exit
  | assertion
  deriving DecidableEq, Repr

structure Host where
  image : ℕ → Byte
  length : ℕ
  freeinode : Word32
  freeblock : Word32

abbrev Build := Fallible Host Abort

def fssize : ℕ := 1000

def nlog : ℕ := 30

def ninodes : ℕ := 200

def ipb : ℕ := blockSize / 64

def nbitmap : ℕ := fssize / (blockSize * 8) + 1

def ninodeblocks : ℕ := ninodes / ipb + 1

def nmeta : ℕ := 2 + nlog + ninodeblocks + nbitmap

def superblock : SuperBlock where
  size := BitVec.ofNat 32 fssize
  nblocks := BitVec.ofNat 32 (fssize - nmeta)
  ninodes := BitVec.ofNat 32 ninodes
  nlog := BitVec.ofNat 32 nlog
  logstart := 2
  inodestart := BitVec.ofNat 32 (2 + nlog)
  bmapstart := BitVec.ofNat 32 (2 + nlog + ninodeblocks)

def words (sb : SuperBlock) : List Word32 :=
  [sb.size,sb.nblocks,sb.ninodes,sb.nlog,sb.logstart,sb.inodestart,sb.bmapstart]

def serialize (sb : SuperBlock) : List Byte := (words sb).flatMap fun x => encode 4 x.toNat

lemma parse_serialize (sb : SuperBlock) : SuperBlock.parse (serialize sb) = sb := by
  have hw : ∀ k : Fin 7, field 4 (serialize sb) (4 * k) = (words sb).get k :=
    fun k => field_flatMap k.isLt
  rw [SuperBlock.parse,SuperBlock.mk.injEq]
  exact ⟨hw 0,hw 1,hw 2,hw 3,hw 4,hw 5,hw 6⟩

@[simp]
lemma length_serialize (sb : SuperBlock) : (serialize sb).length = 28 := by
  simp [serialize,words]

def rsect (sec : Word32) : Build (List Byte) := fun s =>
  if blockOffset sec + blockSize ≤ s.length then
    (.ok (slice s.image (blockOffset sec) blockSize),s)
  else (.error .exit,s)

def wsect (sec : Word32) (buf : List Byte) : Build Unit := update fun s =>
  { s with
    image := overwrite s.image (blockOffset sec) buf
    length := max s.length (blockOffset sec + blockSize) }

def iblock (inum : Word32) : Word32 := inum / 8 + superblock.inodestart

def slot (inum : Word32) : ℕ := 64 * (inum.toNat % ipb)

def winode (inum : Word32) (din : InodeStruct) : Build Unit := do
  let buf ← rsect (iblock inum)
  wsect (iblock inum) (patch buf (slot inum) din.serialize)

def rinode (inum : Word32) : Build InodeStruct := do
  let buf ← rsect (iblock inum)
  pure (.parse ((buf.drop (slot inum)).take 64))

def ialloc (type : BitVec 16) : Build Word32 := do
  let inum ← asks Host.freeinode
  update fun s => { s with freeinode := s.freeinode + 1 }
  winode inum ⟨type,0,0,1,0,fun _ => 0⟩
  pure inum

def takeBlock : Build Word32 := do
  let b ← asks Host.freeblock
  update fun s => { s with freeblock := s.freeblock + 1 }
  pure b

def setAddr (din : InodeStruct) (k : Fin 13) (b : Word32) : InodeStruct :=
  { din with addrs := Function.update din.addrs k b }

def directBlock (din : InodeStruct) (k : Fin 13) : Build (Word32 × InodeStruct) :=
  if din.addrs k = 0 then do
    let b ← takeBlock
    pure (b,setAddr din k b)
  else pure (din.addrs k,din)

def entryBlock (addr : Word32) (k : ℕ) : Build Word32 := do
  let indirect ← rsect addr
  if field 4 indirect (4 * k) = 0 then do
    let b ← takeBlock
    wsect addr (patch indirect (4 * k) (encode 4 b.toNat))
    pure b
  else pure (field 4 indirect (4 * k))

def fileBlock (fbn : ℕ) (din : InodeStruct) : Build (Word32 × InodeStruct) :=
  if fbn < numOfDirectBlocks then directBlock din (Fin.ofNat 13 fbn)
  else do
    let indirect ← directBlock din 12
    let x ← entryBlock indirect.1 (fbn - numOfDirectBlocks)
    pure (x,indirect.2)

def part (p : List Byte) (off : ℕ) : ℕ := min p.length ((off / 512 + 1) * 512 - off)

lemma part_pos {p : List Byte} (off : ℕ) (h : p ≠ []) : 0 < part p off := by
  have hp := List.length_pos_of_ne_nil h
  unfold part
  omega

def iappendLoop (p : List Byte) (off : ℕ) (din : InodeStruct) : Build (ℕ × InodeStruct) :=
  if _ : p = [] then pure (off,din)
  else if off / 512 < 140 then do
    let r ← fileBlock (off / 512) din
    let buf ← rsect r.1
    wsect r.1 (patch buf (off - off / 512 * 512) (p.take (part p off)))
    iappendLoop (p.drop (part p off)) (off + part p off) r.2
  else fail .assertion
termination_by p.length
decreasing_by
  have hpos : 0 < part p off := part_pos off ‹_›
  have hlen : 0 < p.length := List.length_pos_of_ne_nil ‹_›
  rw [List.length_drop]
  omega

def iappend (inum : Word32) (p : List Byte) : Build Unit := do
  let din ← rinode inum
  let r ← iappendLoop p din.size.toNat din
  winode inum { r.2 with size := BitVec.ofNat 32 r.1 }

structure HostFile where
  argv : List Byte
  contents : List Byte

def underscore : Byte := 95

def HostFile.name (f : HostFile) : List Byte :=
  if f.argv.head? = some underscore then f.argv.tail else f.argv

def strncpy (name : List Byte) : List Byte := name.take 14 ++ List.replicate (14 - name.length) 0

def dirent (inum : BitVec 16) (name : List Byte) : List Byte := encode 2 inum.toNat ++ strncpy name

def dot : List Byte := [46]

def dotdot : List Byte := [46,46]

def copyContents (inum : Word32) (contents : List Byte) : Build Unit :=
  if _ : contents = [] then pure ()
  else do
    iappend inum (contents.take 512)
    copyContents inum (contents.drop 512)
termination_by contents.length
decreasing_by
  have hlen : 0 < contents.length := List.length_pos_of_ne_nil ‹_›
  rw [List.length_drop]
  omega

def addFile (rootino : Word32) (f : HostFile) : Build Unit :=
  if slash ∈ f.argv then fail .assertion
  else do
    let inum ← ialloc 2
    iappend rootino (dirent (inum.setWidth 16) f.name)
    copyContents inum f.contents

def addFiles (rootino : Word32) : List HostFile → Build Unit
  | [] => pure ()
  | f :: files => do
    addFile rootino f
    addFiles rootino files

def fixSize (rootino : Word32) : Build Unit := do
  let din ← rinode rootino
  winode rootino { din with size := BitVec.ofNat 32 ((din.size.toNat / 512 + 1) * 512) }

def mark (buf : List Byte) (i : ℕ) : List Byte :=
  buf.modify (i / 8) fun flag => flag ||| (1 : Byte) <<< (i % 8)

def bitmap (used : ℕ) : List Byte := (List.range used).foldl mark (List.replicate 512 0)

def balloc (used : Word32) : Build Unit :=
  if used.toNat < blockSize * 8 then wsect superblock.bmapstart (bitmap used.toNat)
  else fail .assertion

def wipe : ℕ → Build Unit
  | 0 => pure ()
  | i + 1 => do
    wipe i
    wsect (BitVec.ofNat 32 i) (List.replicate 512 0)

def makeRoot : Build Word32 := do
  let rootino ← ialloc 1
  if rootino ≠ 1 then fail .assertion
  else do
    iappend rootino (dirent (rootino.setWidth 16) dot)
    iappend rootino (dirent (rootino.setWidth 16) dotdot)
    pure rootino

def populate (files : List HostFile) : Build Unit := do
  let rootino ← makeRoot
  addFiles rootino files
  fixSize rootino
  let used ← asks Host.freeblock
  balloc used

def start (s : Host) : Host := { s with freeblock := BitVec.ofNat 32 nmeta }

def main (files : List HostFile) : Build Unit := do
  update start
  wipe fssize
  wsect 1 (serialize superblock ++ List.replicate (blockSize - 28) 0)
  populate files

def truncated : Host := ⟨fun _ => 0,0,1,0⟩

end Fs.Mkfs
