import RaphKernel.Library.Bytes
import RaphKernel.Library.Translated
import RaphKernel.Mem.AddressSpace

namespace Elf
open Raph Physmem AddressSpace Translated Bytes Function BitVec

inductive Fault where
  | panic (p : Panic)
  | pageFault (addr : Word)
  deriving DecidableEq, Repr

inductive ErrorState where
  | kOk
  | kNotSupportedType
  deriving DecidableEq, Repr

structure Phdr where
  type : BitVec 32
  offset : Word
  vaddr : Word
  filesz : Word
  memsz : Word
  deriving DecidableEq, Repr

structure Shdr where
  type : BitVec 32
  flags : Word
  addr : Word
  offset : Word
  size : Word
  deriving DecidableEq, Repr

structure Image where
  ident : ℕ → Byte
  type : BitVec 16
  entry : Word
  shstrndx : BitVec 16
  phdrs : List Phdr
  shdrs : List Shdr
  head : ℕ → Byte

structure Memory where
  table : Table
  content : ℕ → Byte

structure ElfObject where
  membuffer : Word
  entry : Option Word
  memory : Memory

def etRel : BitVec 16 := 1

def etExec : BitVec 16 := 2

def etDyn : BitVec 16 := 3

def ptLoad : BitVec 32 := 1

def shtNobits : BitVec 32 := 8

def shfAlloc : Word := 2

def shnUndef : BitVec 16 := 0

def cell (t : Table) (addr : Word) : Option ℕ :=
  (t (pageOf addr)).map fun frame => frame * 4096 + addr.toNat % 4096

namespace Memory

def read (m : Memory) (addr : Word) : Option Byte := (cell m.table addr).map m.content

def store (m : Memory) (addr : Word) (byte : Byte) : Except Fault Memory :=
  match cell m.table addr with
  | none => .error (.pageFault addr)
  | some p => .ok {m with content := update m.content p byte}

def memcpy (m : Memory) (dst : Word) (src : ℕ → Byte) (n : ℕ) : Except Fault Memory :=
  (List.range n).foldlM (fun m i => m.store (dst + BitVec.ofNat 64 i) (src i)) m

def memset (m : Memory) (dst : Word) (byte : Byte) (n : ℕ) : Except Fault Memory :=
  m.memcpy dst (fun _ => byte) n

end Memory

def convertNumToPageSize (size : Word) : Word := alignUp size kPageSize

def mapSize (start stop : Word) : Word :=
  convertNumToPageSize (roundUpAddrOnPageBoundary stop - roundAddrOnPageBoundary start)

def mapAddr (alloc : Word → Except Panic Word) (t : Table) (start stop : Word) :
    Except Panic Table := do
  let paddr ← alloc (mapSize start stop)
  let (_,t) ← mapPhysAddrToVirtAddr t (roundAddrOnPageBoundary start) paddr (mapSize start stop)
  return t

def liftPanic {A : Type} (x : Except Panic A) : Except Fault A := x.mapError .panic

namespace Phdr

def map (ph : Phdr) (alloc : Word → Except Panic Word) (membuffer : Word) (pageMapping : Bool)
    (t : Table) : Except Panic Table :=
  if pageMapping && ph.memsz != 0 then
    mapAddr alloc t (membuffer + ph.vaddr) (membuffer + ph.vaddr + ph.memsz)
  else .ok t

def copy (ph : Phdr) (head : ℕ → Byte) (membuffer : Word) (m : Memory) : Except Fault Memory :=
  if ph.type = ptLoad then
    m.memcpy (membuffer + ph.vaddr) (fun i => head (ph.offset.toNat + i)) ph.filesz.toNat
  else .ok m

end Phdr

def loadSegments (alloc : ℕ → Word → Except Panic Word) (head : ℕ → Byte) (membuffer : Word)
    (pageMapping : Bool) : ℕ → List Phdr → Memory → Except Fault Memory
  | _, [], m => .ok m
  | i, ph :: phdrs, m => do
    let t ← liftPanic (ph.map (alloc i) membuffer pageMapping m.table)
    let m ← ph.copy head membuffer {m with table := t}
    loadSegments alloc head membuffer pageMapping (i + 1) phdrs m

namespace Shdr

def isBss (sh : Shdr) : Bool := sh.type == shtNobits && (sh.flags &&& shfAlloc) != 0

def clear (sh : Shdr) (membuffer : Word) (m : Memory) : Except Fault Memory :=
  if sh.isBss then m.memset (membuffer + sh.addr) 0 sh.size.toNat else .ok m

end Shdr

def clearBss (membuffer : Word) : List Shdr → Memory → Except Fault Memory
  | [], m => .ok m
  | sh :: shdrs, m => do
    let m ← sh.clear membuffer m
    clearBss membuffer shdrs m

namespace Image

def isElf (image : Image) : Bool :=
  image.ident 0 == 0x7f && image.ident 1 == 0x45 && image.ident 2 == 0x4c && image.ident 3 == 0x46

def isElf64 (image : Image) : Bool := image.ident 4 == 2

def isOsabiSysv (image : Image) : Bool := image.ident 7 == 0

def isOsabiGnu (image : Image) : Bool := image.ident 7 == 3

def totalMemsize (image : Image) : Word :=
  if image.shstrndx = shnUndef then 0
  else image.shdrs.foldl
    (fun total sh => if total < sh.addr + sh.offset then sh.addr + sh.offset else total) 0

def loadAddr (image : Image) (malloc : Word → Word) : Except Panic (Word × Bool) :=
  if image.type = etDyn ∨ image.type = etRel then .ok (malloc image.totalMemsize,false)
  else if image.type = etExec then .ok (0,true)
  else .error .kassert

def loadMemory (image : Image) (alloc : ℕ → Word → Except Panic Word) (membuffer : Word)
    (pageMapping : Bool) (m : Memory) : Except Fault (ErrorState × Memory) := do
  let m ← loadSegments alloc image.head membuffer pageMapping 0 image.phdrs m
  return (.kOk,m)

def init (image : Image) (alloc : ℕ → Word → Except Panic Word) (malloc : Word → Word)
    (m : Memory) : Except Fault (ErrorState × ElfObject) :=
  if !image.isElf || !image.isElf64 || (!image.isOsabiSysv && !image.isOsabiGnu) then
    .ok (.kNotSupportedType,⟨0,none,m⟩)
  else do
    let (membuffer,pageMapping) ← liftPanic (image.loadAddr malloc)
    let (err,m) ← image.loadMemory alloc membuffer pageMapping m
    if err ≠ .kOk then
      return (err,⟨membuffer,none,m⟩)
    else
      let m ← clearBss membuffer image.shdrs m
      return (.kOk,⟨membuffer,some (membuffer + image.entry),m⟩)

end Image

section
variable {A B : Type}

lemma fault_bind {x : Except Fault A} {f : A → Except Fault B} {b : B} :
    (x >>= f) = .ok b ↔ ∃ a, x = .ok a ∧ f a = .ok b := by
  cases x <;> simp [bind,Except.bind]

lemma liftPanic_ok {x : Except Panic A} {a : A} : liftPanic x = .ok a ↔ x = .ok a := by
  cases x <;> simp [liftPanic,Except.mapError]

end

section
variable {t t' : Table} {vaddr addr a b : Word} {U : Set Word} {n p : ℕ}

lemma cell_some (h : cell t a = some p) : t (pageOf a) = some (p / 4096) ∧ a.toNat % 4096 = p % 4096 := by
  unfold cell at h
  rw [Option.map_eq_some_iff] at h
  obtain ⟨frame,hf,rfl⟩ := h
  have hm : a.toNat % 4096 < 4096 := Nat.mod_lt _ (by omega)
  refine ⟨by rw [hf]; congr 1; omega,by omega⟩

lemma addr_ext (hp : pageOf a = pageOf b) (ho : a.toNat % 4096 = b.toNat % 4096) : a = b := by
  apply eq_of_toNat_eq
  unfold pageOf at hp
  omega

lemma cell_mono (h : Extended t t' vaddr addr n) (hc : cell t a = some p) :
    cell t' a = some p := by
  unfold cell at hc ⊢
  rw [Option.map_eq_some_iff] at hc ⊢
  obtain ⟨frame,hf,hp⟩ := hc
  exact ⟨frame,h.mono hf,hp⟩

def FreshPages (U : Set Word) (t : Table) (paddr size : Word) : Prop :=
  ∀ a ∈ U, ∀ i < size.toNat / 4096, t (pageOf a) ≠ some (pageOf (paddr + BitVec.ofNat 64 (i * 4096)))

lemma faithful_extended {size : Word} (hu : Faithful U (cell t))
    (h : Extended t t' vaddr addr (size.toNat / 4096)) (hf : FreshPages U t addr size) :
    Faithful U (cell t') := by
  have hs := size.isLt
  intro v hv w hw q hvq hwq
  obtain ⟨hvf,hvo⟩ := cell_some hvq
  obtain ⟨hwf,hwo⟩ := cell_some hwq
  have ho {x : Word} (hx : cell t' x = some q) (hk : t' (pageOf x) = t (pageOf x)) :
      cell t x = some q := by
    rwa [cell,← hk]
  rcases h _ with hvk | ⟨_,i,hi,hvp,hvn⟩ <;> rcases h _ with hwk | ⟨_,j,hj,hwp,hwn⟩
  · exact hu v hv w hw q (ho hvq hvk) (ho hwq hwk)
  · rw [hvf] at hvk
    rw [hwf] at hwn
    exact absurd (hvk.symm.trans hwn) (hf v hv j hj)
  · rw [hwf] at hwk
    rw [hvf] at hvn
    exact absurd (hwk.symm.trans hvn) (hf w hw i hi)
  · rw [hvf] at hvn
    rw [hwf] at hwn
    have hfr := Option.some.inj (hvn.symm.trans hwn)
    rw [pageOf_offset,pageOf_offset] at hfr
    have hij : i = j := by omega
    subst hij
    exact addr_ext (hvp.trans hwp.symm) (hvo.trans hwo.symm)

end

section
variable {m m' : Memory} {dst a : Word} {src : ℕ → Byte} {n : ℕ} {U : Set Word} {c₀ : ℕ → Byte}
  {log : Word → Option Byte}

def InRange (start size a : Word) : Prop := (a - start).toNat < size.toNat

instance (start size a : Word) : Decidable (InRange start size a) :=
  inferInstanceAs (Decidable ((a - start).toNat < size.toNat))

def overlay (dst : Word) (n : ℕ) (src : ℕ → Byte) (log : Word → Option Byte) (a : Word) :
    Option Byte :=
  if (a - dst).toNat < n then some (src (a - dst).toNat) else log a

lemma overlay_zero : overlay dst 0 src log = log := by
  funext a
  exact if_neg (Nat.not_lt_zero _)

lemma sub_eq_iff (hn : n < 2 ^ 64) : (a - dst).toNat = n ↔ a = dst + BitVec.ofNat 64 n := by
  constructor
  · intro h
    have ho : BitVec.ofNat 64 n = a - dst := by
      rw [← h,ofNat_toNat,setWidth_eq]
    rw [ho,BitVec.add_comm,BitVec.sub_add_cancel]
  · rintro rfl
    rw [BitVec.add_comm,BitVec.add_sub_cancel,toNat_ofNat,Nat.mod_eq_of_lt hn]

lemma overlay_succ (hn : n < 2 ^ 64) : overlay dst (n + 1) src log =
    update (overlay dst n src log) (dst + BitVec.ofNat 64 n) (some (src n)) := by
  funext a
  by_cases ha : a = dst + BitVec.ofNat 64 n
  · have hs := (sub_eq_iff hn).mpr ha
    rw [ha,update_self,← ha,overlay,if_pos (by omega),hs]
  · have hs : (a - dst).toNat ≠ n := fun h => ha ((sub_eq_iff hn).mp h)
    rw [update_of_ne ha,overlay,overlay]
    simp only [show (a - dst).toNat < n + 1 ↔ (a - dst).toNat < n by omega]

lemma store_ok {byte : Byte} : m.store a byte = .ok m' ↔
    ∃ p, cell m.table a = some p ∧ m' = {m with content := update m.content p byte} := by
  unfold Memory.store
  cases cell m.table a with
  | none => simp
  | some p => simp [eq_comm]

lemma memcpy_succ : m.memcpy dst src (n + 1) =
    m.memcpy dst src n >>= fun m => m.store (dst + BitVec.ofNat 64 n) (src n) := by
  rw [Memory.memcpy,List.range_succ,List.foldlM_append]
  simp only [List.foldlM_cons,List.foldlM_nil,bind_pure]
  rfl

lemma memcpy_table : ∀ {n : ℕ} {m' : Memory}, m.memcpy dst src n = .ok m' → m'.table = m.table := by
  intro n
  induction n with
  | zero =>
    intro m' h
    cases h
    rfl
  | succ n ih =>
    intro m' h
    rw [memcpy_succ,fault_bind] at h
    obtain ⟨m₁,hc,hs⟩ := h
    have ht := ih hc
    obtain ⟨p,_,rfl⟩ := store_ok.mp hs
    exact ht

lemma memcpy_again {c : ℕ → Byte} : ∀ {n : ℕ} {m' : Memory}, m.memcpy dst src n = .ok m' →
    ∃ m₂, Memory.memcpy ⟨m.table,c⟩ dst src n = .ok m₂ ∧ m₂.table = m'.table := by
  intro n
  induction n with
  | zero =>
    intro m' h
    cases h
    exact ⟨_,rfl,rfl⟩
  | succ n ih =>
    intro m' h
    rw [memcpy_succ,fault_bind] at h
    obtain ⟨m₁,hc,hs⟩ := h
    obtain ⟨m₂,ha,ht⟩ := ih hc
    obtain ⟨p,hce,rfl⟩ := store_ok.mp hs
    refine ⟨{m₂ with content := update m₂.content p (src n)},?_,ht⟩
    rw [memcpy_succ,fault_bind]
    exact ⟨m₂,ha,store_ok.mpr ⟨p,ht ▸ hce,rfl⟩⟩

lemma memcpy_holds : ∀ {n : ℕ} {m' : Memory}, n ≤ 2 ^ 64 →
    Holds U (cell m.table) c₀ m.content log → (∀ a, (a - dst).toNat < n → a ∈ U) →
    m.memcpy dst src n = .ok m' →
    Holds U (cell m'.table) c₀ m'.content (overlay dst n src log) := by
  intro n
  induction n with
  | zero =>
    intro m' _ hin _ h
    cases h
    rwa [overlay_zero]
  | succ n ih =>
    intro m' _ hin hu h
    rw [memcpy_succ,fault_bind] at h
    obtain ⟨m₁,hco,hs⟩ := h
    obtain ⟨p,hc,rfl⟩ := store_ok.mp hs
    have hp := ih (by omega) hin (fun a ha => hu a (by omega)) hco
    have hm := hu (dst + BitVec.ofNat 64 n) (by rw [(sub_eq_iff (by omega)).mpr rfl]; omega)
    rw [overlay_succ (by omega)]
    exact hp.write hm hc (src n)

end

end Elf
