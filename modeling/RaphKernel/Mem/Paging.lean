import RaphKernel.Mem.Physmem
import RaphKernel.Library.RadixTree

namespace Paging
open Raph
open Physmem

abbrev Index := BitVec 9

def pml4ePresentBit : Word := 1 <<< 0
def pdptePresentBit : Word := 1 <<< 0
def pdpte1GPageBit : Word := 1 <<< 7
def pdePresentBit : Word := 1 <<< 0
def pde2MPageBit : Word := 1 <<< 7
def ptePresentBit : Word := 1 <<< 0

def getPML4TIndex (addr : Word) : Index := ((addr >>> 39) &&& 0x1ff).setWidth 9

def getPML4EMaskedAddr (entry : Word) : Word := entry &&& 0xFFFFFFFFFF000

def getPDPTIndex (addr : Word) : Index := ((addr >>> 30) &&& 0x1ff).setWidth 9

def getPDPTEMaskedAddr (entry : Word) : Word :=
  if entry &&& pdpte1GPageBit = 0 then entry &&& 0xFFFFFFFFFF000 else entry &&& 0xFFFFFC0000000

def get1GPageOffset (addr : Word) : Word := addr &&& ((1 <<< 30) - 1)

def getPDIndex (addr : Word) : Index := ((addr >>> 21) &&& 0x1ff).setWidth 9

def getPDEMaskedAddr (entry : Word) : Word :=
  if entry &&& pde2MPageBit = 0 then entry &&& 0xFFFFFFFFFF000 else entry &&& 0xFFFFFFFE00000

def get2MPageOffset (addr : Word) : Word := addr &&& ((1 <<< 21) - 1)

def getPTIndex (addr : Word) : Index := ((addr >>> 12) &&& 0x1ff).setWidth 9

def getPTEMaskedAddr (entry : Word) : Word := entry &&& 0xFFFFFFFFFF000

def get4KPageOffset (addr : Word) : Word := addr &&& ((1 <<< 12) - 1)

structure PagingCtrl where
  tables : Word → Index → Word
  pml4t : Word
  physmem : PhysmemCtrl

structure TranslationEntries where
  pml4e : Word
  pdpte : Word
  pde : Word
  pte : Word
  deriving DecidableEq, Repr

namespace PagingCtrl

def setEntry (m : PagingCtrl) (page : Word) (index : Index) (entry : Word) : PagingCtrl :=
  { m with tables := RadixTree.write m.tables page index entry }

def bzero (m : PagingCtrl) (page : Word) : PagingCtrl :=
  { m with tables := RadixTree.clear m.tables page 0 }

def convertVirtMemToPhysMem (m : PagingCtrl) (vaddr : Word) (paddr : PhysAddr) :
    Except Panic PhysAddr :=
  let entry := m.tables m.pml4t (getPML4TIndex vaddr)
  if entry &&& pml4ePresentBit = 0 then .ok paddr
  else
    let pdpt := getPML4EMaskedAddr entry
    let entry := m.tables pdpt (getPDPTIndex vaddr)
    if entry &&& pdptePresentBit = 0 then .ok paddr
    else if entry &&& pdpte1GPageBit ≠ 0 then
      PhysAddr.setAddr paddr (getPDPTEMaskedAddr entry ||| get1GPageOffset vaddr)
    else
      let pd := getPDPTEMaskedAddr entry
      let entry := m.tables pd (getPDIndex vaddr)
      if entry &&& pdePresentBit = 0 then .ok paddr
      else if entry &&& pde2MPageBit ≠ 0 then
        PhysAddr.setAddr paddr (getPDEMaskedAddr entry ||| get2MPageOffset vaddr)
      else
        let pt := getPDEMaskedAddr entry
        let entry := m.tables pt (getPTIndex vaddr)
        if entry &&& ptePresentBit = 0 then .ok paddr
        else PhysAddr.setAddr paddr (getPTEMaskedAddr entry ||| get4KPageOffset vaddr)

def isVirtAddrMapped (m : PagingCtrl) (vaddr : Word) : Bool :=
  let entry := m.tables m.pml4t (getPML4TIndex vaddr)
  if entry &&& pml4ePresentBit = 0 then false
  else
    let pdpt := getPML4EMaskedAddr entry
    let entry := m.tables pdpt (getPDPTIndex vaddr)
    if entry &&& pdptePresentBit = 0 then false
    else if entry &&& pdpte1GPageBit ≠ 0 then true
    else
      let pd := getPDPTEMaskedAddr entry
      let entry := m.tables pd (getPDIndex vaddr)
      if entry &&& pdePresentBit = 0 then false
      else if entry &&& pde2MPageBit ≠ 0 then true
      else
        let pt := getPDEMaskedAddr entry
        let entry := m.tables pt (getPTIndex vaddr)
        if entry &&& ptePresentBit = 0 then false else true

def getTranslationEntries (m : PagingCtrl) (vaddr : Word) : TranslationEntries :=
  let pml4e := m.tables m.pml4t (getPML4TIndex vaddr)
  if pml4e &&& pml4ePresentBit = 0 then ⟨pml4e,0,0,0⟩
  else
    let pdpt := getPML4EMaskedAddr pml4e
    let pdpte := m.tables pdpt (getPDPTIndex vaddr)
    if pdpte &&& pdptePresentBit = 0 ∨ pdpte &&& pdpte1GPageBit ≠ 0 then ⟨pml4e,pdpte,0,0⟩
    else
      let pd := getPDPTEMaskedAddr pdpte
      let pde := m.tables pd (getPDIndex vaddr)
      if pde &&& pdePresentBit = 0 ∨ pde &&& pde2MPageBit ≠ 0 then ⟨pml4e,pdpte,pde,0⟩
      else
        let pt := getPDEMaskedAddr pde
        ⟨pml4e,pdpte,pde,m.tables pt (getPTIndex vaddr)⟩

def tableEntry (physMemoryEnd : Word) (m : PagingCtrl) (page : Word) (index : Index)
    (pstFlag presentBit : Word) : Except Panic (Word × PagingCtrl) :=
  let entry := m.tables page index
  if entry &&& presentBit = 0 then do
    let (tpaddr,physmem) ← m.physmem.alloc physMemoryEnd none kPageSize
    let taddr ← PhysAddr.getAddr tpaddr
    let entry := taddr ||| pstFlag ||| presentBit
    return (entry,({ m with physmem := physmem }.bzero taddr).setEntry page index entry)
  else .ok (entry,m)

def map4KPageToVirtAddr (physMemoryEnd : Word) (m : PagingCtrl) (vaddr : Word) (paddr : PhysAddr)
    (pstFlag pageFlag : Word) : Except Panic (Bool × PagingCtrl) := do
  let (entry,m) ← m.tableEntry physMemoryEnd m.pml4t (getPML4TIndex vaddr) pstFlag pml4ePresentBit
  let pdpt := getPML4EMaskedAddr entry
  let (entry,m) ← m.tableEntry physMemoryEnd pdpt (getPDPTIndex vaddr) pstFlag pdptePresentBit
  if entry &&& pdpte1GPageBit ≠ 0 then return (false,m)
  let pd := getPDPTEMaskedAddr entry
  let (entry,m) ← m.tableEntry physMemoryEnd pd (getPDIndex vaddr) pstFlag pdePresentBit
  if entry &&& pde2MPageBit ≠ 0 then return (false,m)
  let pt := getPDEMaskedAddr entry
  let entry := m.tables pt (getPTIndex vaddr)
  if entry &&& ptePresentBit = 0 then
    let addr ← PhysAddr.getAddr paddr
    return (true,m.setEntry pt (getPTIndex vaddr) (addr ||| pageFlag ||| ptePresentBit))
  else return (false,m)

def map2MPageToVirtAddr (physMemoryEnd : Word) (m : PagingCtrl) (vaddr : Word) (paddr : PhysAddr)
    (pstFlag _pageFlag : Word) : Except Panic (Bool × PagingCtrl) := do
  let (entry,m) ← m.tableEntry physMemoryEnd m.pml4t (getPML4TIndex vaddr) pstFlag pml4ePresentBit
  let pdpt := getPML4EMaskedAddr entry
  let (entry,m) ← m.tableEntry physMemoryEnd pdpt (getPDPTIndex vaddr) pstFlag pdptePresentBit
  if entry &&& pdpte1GPageBit ≠ 0 then return (false,m)
  let pd := getPDPTEMaskedAddr entry
  let entry := m.tables pd (getPDIndex vaddr)
  if entry &&& pdePresentBit ≠ 0 then return (false,m)
  let addr ← PhysAddr.getAddr paddr
  return (true,m.setEntry pd (getPDIndex vaddr) (addr ||| pstFlag ||| pdePresentBit ||| pde2MPageBit))

def map1GPageToVirtAddr (physMemoryEnd : Word) (m : PagingCtrl) (vaddr : Word) (paddr : PhysAddr)
    (pstFlag _pageFlag : Word) : Except Panic (Bool × PagingCtrl) := do
  let addr ← PhysAddr.getAddr paddr
  kassert (addr % 0x40000000 == 0)
  let (entry,m) ← m.tableEntry physMemoryEnd m.pml4t (getPML4TIndex vaddr) pstFlag pml4ePresentBit
  let pdpt := getPML4EMaskedAddr entry
  let entry := m.tables pdpt (getPDPTIndex vaddr)
  if entry &&& pdptePresentBit ≠ 0 then return (false,m)
  return (true,m.setEntry pdpt (getPDPTIndex vaddr)
    (addr ||| pstFlag ||| pdptePresentBit ||| pdpte1GPageBit))

end PagingCtrl

structure MapCursor where
  ctrl : PagingCtrl
  vaddr : Word
  addr : Word
  size : Word

def mapBody (physMemoryEnd pstFlag pageFlag : Word) (s : MapCursor) :
    Sum MapCursor (Except Panic (Bool × PagingCtrl)) :=
  if 0 < s.size then
    match PhysAddr.setAddr none s.addr >>= fun tpaddr =>
      s.ctrl.map4KPageToVirtAddr physMemoryEnd s.vaddr tpaddr pstFlag pageFlag with
    | .error e => .inr (.error e)
    | .ok (false,m) => .inr (.ok (false,m))
    | .ok (true,m) => .inl ⟨m,s.vaddr + kPageSize,s.addr + kPageSize,s.size - kPageSize⟩
  else .inr (.ok (true,s.ctrl))

def mapChecks (vaddr : Word) (paddr : PhysAddr) (size : Word) : Except Panic Word := do
  kassert (vaddr == align vaddr kPageSize)
  kassert (size == align size kPageSize)
  let addr ← PhysAddr.getAddr paddr
  kassert (addr == align addr kPageSize)
  return addr

def PagingCtrl.mapPhysAddrToVirtAddr (physMemoryEnd : Word) (fuel : ℕ) (m : PagingCtrl)
    (vaddr : Word) (paddr : PhysAddr) (size pstFlag pageFlag : Word) :
    Option (Except Panic (Bool × PagingCtrl)) :=
  match mapChecks vaddr paddr size with
  | .error e => some (.error e)
  | .ok addr => Loop.iterate (mapBody physMemoryEnd pstFlag pageFlag) fuel ⟨m,vaddr,addr,size⟩

end Paging
