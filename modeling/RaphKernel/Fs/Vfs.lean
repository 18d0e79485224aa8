import Mathlib.Data.List.FinRange
import RaphKernel.Fs.V6fs

namespace Fs
open Bytes Fallible Function

structure DiskFileSystem (S : Type) where
  rootInodeNum : Word32
  getStatOfInode : Word32 → Fallible S Failure Stat
  readDataFromInode : Word32 → Raph.Word → Raph.Word → Fallible S Failure ReadResult
  dirLookup : Word32 → List Byte → Fallible S Failure (ℕ × Word32)

structure Inode where
  ref : BitVec 32
  inum : Word32

abbrev Node := Fin 50

instance instNeZeroNodes : NeZero 50 := ⟨Nat.succ_ne_zero 49⟩

structure Vfs (S : Type) where
  disk : S
  nodes : Node → Inode
  slot : ℕ → Option (Option Node)

namespace Vfs
variable {S : Type}

def point (v : Vfs S) (c : ℕ) (p : Option (Option Node)) : Vfs S :=
  { v with slot := update v.slot c p }

def setRef (v : Vfs S) (k : Node) (ref : BitVec 32) : Vfs S :=
  { v with nodes := update v.nodes k { v.nodes k with ref := ref } }

def decRef (v : Vfs S) (k : Node) : Vfs S := v.setRef k ((v.nodes k).ref - 1)

def incRef (v : Vfs S) (k : Node) : Vfs S := v.setRef k ((v.nodes k).ref + 1)

def release (v : Vfs S) (c : ℕ) : Vfs S :=
  match v.slot c with
  | some (some k) => v.decRef k
  | _ => v

def construct (v : Vfs S) (c : ℕ) : Vfs S := v.point c (some none)

def destroy (v : Vfs S) (c : ℕ) : Vfs S := (v.release c).point c none

def assign (v : Vfs S) (c d : ℕ) : Vfs S := v.point c (v.slot d)

def copy (v : Vfs S) (c d : ℕ) : Except Failure (Vfs S) :=
  match v.slot d with
  | some (some k) => .ok ((v.point c (some (some k))).incRef k)
  | _ => .error (.panic .nullPointer)

def setIfSame (v : Vfs S) (c : ℕ) (k : Node) : Vfs S := (v.point c (some (some k))).incRef k

def initInode (v : Vfs S) (c : ℕ) (k : Node) (inum : Word32) : Except Failure (Vfs S) :=
  if (((v.release c).nodes k).ref = 0) then
    .ok { (v.release c).point c (some (some k)) with
      nodes := update (v.release c).nodes k ⟨1,inum⟩ }
  else .error (.panic (.kernelPanic "Inode" "unknown error"))

def same (v : Vfs S) (inum : Word32) : Option Node :=
  (List.finRange 50).find? fun k => (v.nodes k).ref ≠ 0 ∧ (v.nodes k).inum = inum

def empty (v : Vfs S) : Option Node :=
  (List.finRange 50).reverse.find? fun k => (v.nodes k).ref = 0

def get (v : Vfs S) (c : ℕ) (inum : Word32) : Except Failure (Vfs S) :=
  match v.same inum with
  | some k => .ok (v.setIfSame c k)
  | none =>
    match v.empty with
    | none => .error (.state .errNoSwResource)
    | some k => v.initInode c k inum

end Vfs

section
variable {S A : Type}

def onDisk (x : Fallible S Failure A) : Fallible (Vfs S) Failure A := fun v =>
  ((x v.disk).1,{ v with disk := (x v.disk).2 })

def applied (f : Vfs S → Except Failure (Vfs S)) : Fallible (Vfs S) Failure Unit := fun v =>
  match f v with
  | .ok v' => (.ok (),v')
  | .error e => (.error e,v)

lemma applied_ok {f : Vfs S → Except Failure (Vfs S)} {v w : Vfs S} :
    applied f v = (.ok (),w) ↔ f v = .ok w := by
  rw [applied]
  rcases f v with e | u
  · simp
  · simp

lemma applied_error {f : Vfs S → Except Failure (Vfs S)} {v w : Vfs S} {e : Failure} :
    applied f v = (.error e,w) ↔ f v = .error e ∧ w = v := by
  rw [applied]
  rcases f v with e' | u
  · simp [eq_comm]
  · simp

def withNode (c : ℕ) (f : Word32 → Fallible S Failure A) : Fallible (Vfs S) Failure A := fun v =>
  match v.slot c with
  | some (some k) => onDisk (f (v.nodes k).inum) v
  | _ => (.error (.panic .kassert),v)

def maxDirectoryNameLength : ℕ := 14

def slash : Byte := 47

def getNextPathNameFromPath (path : List Byte) : Option (List Byte × List Byte) :=
  match path.dropWhile (· == slash) with
  | [] => none
  | a :: l => some (((a :: l).takeWhile (· != slash)).take maxDirectoryNameLength,
      ((a :: l).dropWhile (· != slash)).dropWhile (· == slash))

lemma getNextPathNameFromPath_lt {path name rest : List Byte}
    (h : getNextPathNameFromPath path = some (name,rest)) : rest.length < path.length := by
  unfold getNextPathNameFromPath at h
  split at h
  · cases h
  · rename_i a l hs
    cases h
    have hh := List.head?_dropWhile_not (· == slash) path
    rw [hs] at hh
    have hd : (a :: l).dropWhile (· != slash) = l.dropWhile (· != slash) := by
      rw [List.dropWhile_cons,if_pos]
      simpa [bne] using hh
    rw [hd]
    calc ((l.dropWhile (· != slash)).dropWhile (· == slash)).length
        ≤ (l.dropWhile (· != slash)).length := (List.dropWhile_suffix _).length_le
      _ ≤ l.length := (List.dropWhile_suffix _).length_le
      _ < (path.dropWhile (· == slash)).length := by
        rw [hs]
        exact Nat.lt_succ_self _
      _ ≤ path.length := (List.dropWhile_suffix _).length_le

def iteration (fs : DiskFileSystem S) (tmp c : ℕ) (path : List Byte) (parent : Bool) :
    Fallible (Vfs S) Failure (Option (List Byte)) :=
  match getNextPathNameFromPath path with
  | none =>
    if parent then fail (.state .errInvalid)
    else do
      update (Vfs.assign · c tmp)
      pure none
  | some (name,rest) => do
    let st ← withNode tmp fs.getStatOfInode
    if st.type ≠ .directory then fail (.state .errInvalid)
    else if rest = [] ∧ parent then do
      update (Vfs.assign · c tmp)
      pure none
    else do
      let found ← withNode tmp fun inum => fs.dirLookup inum name
      applied (Vfs.get · tmp found.2)
      pure (some rest)

def walk (fs : DiskFileSystem S) (tmp c : ℕ) (parent : Bool) :
    ℕ → List Byte → Fallible (Vfs S) Failure Unit
  | 0, _ => fail .spin
  | fuel + 1, path => do
    let next ← iteration fs tmp c path parent
    match next with
    | none => pure ()
    | some rest => walk fs tmp c parent fuel rest

def lookupFrom (fs : DiskFileSystem S) (tmp c : ℕ) (path : List Byte) (parent : Bool) :
    Fallible (Vfs S) Failure Unit :=
  if path.head? = some slash then do
    applied (Vfs.get · tmp fs.rootInodeNum)
    walk fs tmp c parent (path.length + 1) path
  else fail (.panic (.kernelPanic "VFS" "needs implementation!"))

def lookupInodeFromPath (fs : DiskFileSystem S) (tmp c : ℕ) (path : List Byte) (parent : Bool) :
    Fallible (Vfs S) Failure Unit := do
  update (Vfs.construct · tmp)
  let r ← attempt (lookupFrom fs tmp c path parent)
  update (Vfs.destroy · tmp)
  match r with
  | .ok _ => pure ()
  | .error e => fail e

lemma lookup_eq (fs : DiskFileSystem S) (tmp c : ℕ) (path : List Byte) (parent : Bool) (v : Vfs S) :
    lookupInodeFromPath fs tmp c path parent v =
      ((lookupFrom fs tmp c path parent (v.construct tmp)).1,
        (lookupFrom fs tmp c path parent (v.construct tmp)).2.destroy tmp) := by
  rcases hf : lookupFrom fs tmp c path parent _ with ⟨r,w⟩
  rw [lookupInodeFromPath,update_bind,bind_of_ok (attempt_of hf),update_bind]
  cases r <;> rfl

def readDataFromContainer (fs : DiskFileSystem S) (c : ℕ) (offset size : Raph.Word) :
    Fallible (Vfs S) Failure ReadResult := do
  let st ← withNode c fs.getStatOfInode
  if st.type = .device then fail (.panic (.kernelPanic "VFS" "needs implementation!"))
  else withNode c fun inum => fs.readDataFromInode inum offset size

end

def v6FileSystem (sb : SuperBlock) (alloc : Io Word32) : DiskFileSystem Storage where
  rootInodeNum := 1
  getStatOfInode inum := do
    let inode ← loadInode sb inum
    match inode.st.stat inum with
    | .ok stat => pure stat
    | .error e => fail e
  readDataFromInode inum offset size := withInode sb inum (readDataFromInode sb alloc offset size)
  dirLookup inum name := do
    let found ← withInode sb inum (dirLookup sb alloc name)
    pure (found.1,found.2.setWidth 32)

end Fs
