import RaphKernel.Library.Loop
import RaphKernel.Raph

namespace Physmem
open Raph

def kPageSize : Word := 0x1000

def kLinearMapOffset : Word := 0xffff800000000000

lemma kPageSize_toNat : kPageSize.toNat = 4096 := rfl

lemma aligned_iff (addr : Word) : (addr == align addr kPageSize) = true ↔ 4096 ∣ addr.toNat := by
  rw [beq_iff_eq,← BitVec.toNat_inj,align_toNat,kPageSize_toNat]
  omega

abbrev PhysAddr := Option Word

def PhysAddr.setAddr (paddr : PhysAddr) (addr : Word) : Except Panic PhysAddr := do
  kassert paddr.isNone
  return some addr

def PhysAddr.getAddr : PhysAddr → Except Panic Word
  | none => .error .kassert
  | some addr => .ok addr

def PhysAddr.reset (_ : PhysAddr) : PhysAddr := none

lemma PhysAddr.setAddr_ok {paddr q : PhysAddr} {addr : Word} :
    PhysAddr.setAddr paddr addr = .ok q ↔ paddr = none ∧ q = some addr := by
  cases paddr <;> simp [PhysAddr.setAddr,kassert,bind,Except.bind,pure,Except.pure,eq_comm]

structure AllocatedArea where
  node : ℕ
  startAddr : Word
  endAddr : Word
  deriving DecidableEq, Repr

structure AreaBuffer where
  taken : ℕ
  returned : List ℕ
  deriving DecidableEq, Repr

def AreaBuffer.alloc (b : AreaBuffer) : ℕ × AreaBuffer :=
  (b.taken,{ b with taken := b.taken + 1 })

def AreaBuffer.free (b : AreaBuffer) (node : ℕ) : AreaBuffer :=
  { b with returned := node :: b.returned }

structure PhysmemCtrl where
  allocatedArea : List AllocatedArea
  areaBuffer : AreaBuffer
  isInitialized : Bool
  isAbleToAllocate : Bool
  deriving DecidableEq, Repr

structure AllocOption where
  align : Word
  nonRecursive : Bool

namespace PhysmemCtrl

def setStart (c : PhysmemCtrl) (i : ℕ) (addr : Word) : PhysmemCtrl :=
  { c with allocatedArea := c.allocatedArea.modify i (fun a => { a with startAddr := addr }) }

def setEnd (c : PhysmemCtrl) (i : ℕ) (addr : Word) : PhysmemCtrl :=
  { c with allocatedArea := c.allocatedArea.modify i (fun a => { a with endAddr := addr }) }

def linkAfter (c : PhysmemCtrl) (i : ℕ) (newarea : AllocatedArea) : PhysmemCtrl :=
  { c with allocatedArea := c.allocatedArea.insertIdx (i + 1) newarea }

def insertAfter (c : PhysmemCtrl) (i : ℕ) (startAddr endAddr : Word) : PhysmemCtrl :=
  let (node,buffer) := c.areaBuffer.alloc
  { c with areaBuffer := buffer }.linkAfter i ⟨node,startAddr,endAddr⟩

def mergeFraged (c : PhysmemCtrl) : Option ℕ → PhysmemCtrl
  | none => c
  | some i =>
    match c.allocatedArea[i + 1]? with
    | none => c
    | some removeArea =>
      let merged := c.setEnd i removeArea.endAddr
      { merged with
        allocatedArea := merged.allocatedArea.eraseIdx (i + 1)
        areaBuffer := merged.areaBuffer.free removeArea.node }

end PhysmemCtrl

def gapFits (align size : Word) (cur next : AllocatedArea) : Bool :=
  decide (size ≤ next.startAddr - alignUp cur.endAddr align)

def notFraged (fraged : Option ℕ) (i : ℕ) (cur next : AllocatedArea) : Option ℕ :=
  if fraged.isNone && next.startAddr == cur.endAddr then some i else fraged

def allocLoop (align size : Word) : List AllocatedArea → ℕ → Option ℕ → ℕ × Option ℕ
  | cur :: next :: rest, i, fraged =>
    let fraged := notFraged fraged i cur next
    if gapFits align size cur next then (i,fraged)
    else allocLoop align size (next :: rest) (i + 1) fraged
  | _, i, fraged => (i,fraged)

namespace PhysmemCtrl

def placeArea (c : PhysmemCtrl) (i : ℕ) (area : AllocatedArea) (align size : Word) :
    Word × AllocatedArea × PhysmemCtrl :=
  let aligned := alignUp area.endAddr align
  if aligned ≠ area.endAddr then (aligned,area,c.insertAfter i aligned (aligned + size))
  else
    let endAddr := area.endAddr + size
    (area.endAddr,{ area with endAddr := endAddr },c.setEnd i endAddr)

def allocSub (physMemoryEnd : Word) (c : PhysmemCtrl) (paddr : PhysAddr) (size : Word)
    (option : AllocOption) : Except Panic (PhysAddr × PhysmemCtrl) := do
  kassert c.isInitialized
  kassert (decide (0 < size))
  kassert (size % kPageSize == 0)
  kassert (!option.nonRecursive || option.align == 1)
  let (i,fraged) := allocLoop option.align size c.allocatedArea 0 none
  match c.allocatedArea[i]? with
  | none => .error .nullPointer
  | some area =>
    let (allocatedAddr,allocatedArea,c') := c.placeArea i area option.align size
    if physMemoryEnd ≤ allocatedArea.endAddr then
      kernelPanic "PhysmemCtrl" "no physical memory"
    else
      let paddr ← PhysAddr.setAddr paddr allocatedAddr
      return (paddr,c'.mergeFraged fraged)

def alloc (physMemoryEnd : Word) (c : PhysmemCtrl) (paddr : PhysAddr) (size : Word) :
    Except Panic (PhysAddr × PhysmemCtrl) := do
  kassert c.isAbleToAllocate
  c.allocSub physMemoryEnd paddr size ⟨1,false⟩

def allocAligned (physMemoryEnd : Word) (c : PhysmemCtrl) (paddr : PhysAddr)
    (size align : Word) : Except Panic (PhysAddr × PhysmemCtrl) :=
  c.allocSub physMemoryEnd paddr size ⟨align,false⟩

def allocNonRecursive (physMemoryEnd : Word) (c : PhysmemCtrl) (paddr : PhysAddr)
    (size : Word) : Except Panic (PhysAddr × PhysmemCtrl) :=
  c.allocSub physMemoryEnd paddr size ⟨1,true⟩

def contains (addr size : Word) (area : AllocatedArea) : Bool :=
  decide (area.startAddr ≤ addr) && decide (addr + size ≤ area.endAddr)

def freeFrom (c : PhysmemCtrl) (i : ℕ) (area : AllocatedArea) (newarea : ℕ)
    (addr size : Word) : PhysmemCtrl :=
  let unused := { c with areaBuffer := c.areaBuffer.free newarea }
  if area.startAddr = addr then unused.setStart i (area.startAddr + size)
  else if area.endAddr = addr + size then unused.setEnd i addr
  else (c.setEnd i addr).linkAfter i ⟨newarea,addr + size,area.endAddr⟩

def free (c : PhysmemCtrl) (paddr : PhysAddr) (size : Word) :
    Except Panic (PhysAddr × PhysmemCtrl) := do
  kassert (decide (0 < size))
  kassert (size % kPageSize == 0)
  let (newarea,buffer) := c.areaBuffer.alloc
  let c := { c with areaBuffer := buffer }
  let addr ← PhysAddr.getAddr paddr
  let paddr := PhysAddr.reset paddr
  match c.allocatedArea.findIdx? (contains addr size) with
  | none => return (paddr,c)
  | some i =>
    match c.allocatedArea[i]? with
    | none => .error .nullPointer
    | some area => return (paddr,c.freeFrom i area newarea addr size)

def reserveSub2 (c : PhysmemCtrl) (i : ℕ) (area : AllocatedArea) (addr size : Word) :
    PhysmemCtrl :=
  if addr < area.endAddr then
    if area.endAddr < addr + size then c.setEnd i (addr + size) else c
  else c.insertAfter i addr (addr + size)

end PhysmemCtrl

inductive ReserveExit where
  | panic
  | leave (c : PhysmemCtrl) (fraged : Option ℕ)
  | recur (c : PhysmemCtrl) (addr size : Word)
  deriving DecidableEq, Repr

def reserveLoop (c : PhysmemCtrl) (addr size : Word) :
    List AllocatedArea → ℕ → Option ℕ → ReserveExit
  | cur :: next :: rest, i, fraged =>
    let fraged := notFraged fraged i cur next
    if ¬ cur.startAddr ≤ addr then .panic
    else if addr < cur.endAddr then
      if addr + size < cur.endAddr then .leave c fraged
      else if addr + size ≤ next.startAddr then .leave (c.setEnd i (addr + size)) fraged
      else .recur (c.setEnd i next.startAddr) next.startAddr (addr + size - next.startAddr)
    else if addr ≤ next.startAddr then
      if addr + size ≤ next.startAddr then
        .leave (c.insertAfter i addr (addr + size)) fraged
      else .recur (c.setStart (i + 1) addr) next.startAddr (addr + size - next.startAddr)
    else if rest.isEmpty then .leave (c.reserveSub2 (i + 1) next addr size) fraged
    else reserveLoop c addr size (next :: rest) (i + 1) fraged
  | _, _, fraged => .leave c fraged

namespace PhysmemCtrl

def reserveCall (c : PhysmemCtrl) (addr size : Word) :
    Sum (PhysmemCtrl × Word × Word) (Except Panic PhysmemCtrl) :=
  if size = 0 then .inr (.ok c)
  else if ¬ size % kPageSize = 0 then .inr (.error .kassert)
  else if ¬ addr % kPageSize = 0 then .inr (.error .kassert)
  else match c.allocatedArea with
    | [] => .inr (.error .kassert)
    | [area] => .inr (.ok (c.reserveSub2 0 area addr size))
    | areas =>
      match reserveLoop c addr size areas 0 none with
      | .panic => .inr (.error .kassert)
      | .leave c fraged => .inr (.ok (c.mergeFraged fraged))
      | .recur c addr size => .inl (c,addr,size)

def reserveBody (s : PhysmemCtrl × Word × Word) :
    Sum (PhysmemCtrl × Word × Word) (Except Panic PhysmemCtrl) :=
  s.1.reserveCall s.2.1 s.2.2

def reserveSub (fuel : ℕ) (c : PhysmemCtrl) (addr size : Word) : Option (Except Panic PhysmemCtrl) :=
  Loop.iterate reserveBody fuel (c,addr,size)

def reserve (fuel : ℕ) (c : PhysmemCtrl) (addr size : Word) : Option (Except Panic PhysmemCtrl) :=
  c.reserveSub fuel addr size

end PhysmemCtrl

end Physmem
