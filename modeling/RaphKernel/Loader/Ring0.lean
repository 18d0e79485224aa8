import Mathlib.Data.List.Basic
import RaphKernel.Loader.Elf

namespace Elf
open Raph Physmem AddressSpace Translated Bytes List Phdr
variable {image : Image} {A : Type} {room : ℕ → Prop} {x : ℕ}

structure Load where
  memory : Memory
  written : List (Word × ℕ)

namespace Load

def memcpy (l : Load) (dst : Word) (src : ℕ → Byte) (n : ℕ) : Except Fault Load := do
  let m ← l.memory.memcpy dst src n
  return ⟨m,l.written ++ [(dst,n)]⟩

def withTable (l : Load) (t : Table) : Load := { l with memory := { l.memory with table := t } }

def Within (l : Load) (base : Word) (limit : ℕ) : Prop :=
  ∀ w ∈ l.written, ∀ i < w.2, (w.1 + BitVec.ofNat 64 i - base).toNat < limit

end Load

structure Loader where
  alloc : ℕ → Word → Except Panic Word
  malloc : Word → Word
  map1GAddr : Table → Except Panic Table

abbrev LoadMemory := Word → Bool → Load → Except Fault (ErrorState × Load)

namespace Phdr

def load (ph : Phdr) (head : ℕ → Byte) (membuffer : Word) (l : Load) : Except Fault Load :=
  if ph.type = ptLoad then
    l.memcpy (membuffer + ph.vaddr) (fun i => head (ph.offset.toNat + i)) ph.filesz.toNat
  else .ok l

def outside (ph : Phdr) (membuffer : Word) (pageMapping : Bool) : Bool :=
  pageMapping && ph.memsz != 0 && (decide (0x40000000 ≤ membuffer + ph.vaddr) ||
    decide (0x40000000 ≤ membuffer + ph.vaddr + ph.memsz))

def piece (membuffer : Word) (ph : Phdr) : List (Word × ℕ) :=
  if ph.type = ptLoad then [(membuffer + ph.vaddr,ph.filesz.toNat)] else []

end Phdr

namespace Shdr

def zero (sh : Shdr) (membuffer : Word) (l : Load) : Except Fault Load :=
  if sh.isBss then l.memcpy (membuffer + sh.addr) (fun _ => 0) sh.size.toNat else .ok l

def piece (membuffer : Word) (sh : Shdr) : List (Word × ℕ) :=
  if sh.isBss then [(membuffer + sh.addr,sh.size.toNat)] else []

end Shdr

def elfSegments (ld : Loader) (head : ℕ → Byte) (membuffer : Word) (pageMapping : Bool) :
    ℕ → List Phdr → Load → Except Fault Load
  | _, [], l => .ok l
  | i, ph :: phdrs, l => do
    let t ← liftPanic (ph.map (ld.alloc i) membuffer pageMapping l.memory.table)
    let l ← ph.load head membuffer (l.withTable t)
    elfSegments ld head membuffer pageMapping (i + 1) phdrs l

def ring0Segments (head : ℕ → Byte) (membuffer : Word) (pageMapping : Bool) :
    List Phdr → Load → Except Fault (ErrorState × Load)
  | [], l => .ok (.kOk,l)
  | ph :: phdrs, l =>
    if ph.outside membuffer pageMapping then .ok (.kNotSupportedType,l)
    else do
      let l ← ph.load head membuffer l
      ring0Segments head membuffer pageMapping phdrs l

def zeroSections (membuffer : Word) : List Shdr → Load → Except Fault Load
  | [], l => .ok l
  | sh :: shdrs, l => do
    let l ← sh.zero membuffer l
    zeroSections membuffer shdrs l

namespace Image

def elfLoadMemory (image : Image) (ld : Loader) : LoadMemory := fun membuffer pageMapping l => do
  let l ← elfSegments ld image.head membuffer pageMapping 0 image.phdrs l
  return (.kOk,l)

def ring0LoadMemory (image : Image) (ld : Loader) : LoadMemory := fun membuffer pageMapping l => do
  let t ← liftPanic (ld.map1GAddr l.memory.table)
  ring0Segments image.head membuffer pageMapping image.phdrs (l.withTable t)

def elfInit (image : Image) (ld : Loader) (loadMemory : LoadMemory) (l : Load) :
    Except Fault (ErrorState × Word × Load) :=
  if !image.isElf || !image.isElf64 || (!image.isOsabiSysv && !image.isOsabiGnu) then
    .ok (.kNotSupportedType,0,l)
  else do
    let (membuffer,pageMapping) ← liftPanic (image.loadAddr ld.malloc)
    let (err,l) ← loadMemory membuffer pageMapping l
    if err ≠ .kOk then return (err,membuffer,l)
    else
      let l ← zeroSections membuffer image.shdrs l
      return (.kOk,membuffer,l)

end Image

def infoSize : Word := 4096

def infoName : List Byte :=
  [0x2e,0x72,0x61,0x70,0x68,0x69,0x6e,0x65,0x5f,0x72,0x69,0x6e,0x67,0x30,0x5f,0x61,0x70,0x70,0x5f,
    0x69,0x6e,0x66,0x6f]

structure AppImage extends Image where
  strtab : Word
  shName : ℕ → BitVec 32

namespace AppImage

def isInfo (image : AppImage) (i : ℕ) (sh : Shdr) : Bool :=
  slice image.head (image.strtab.toNat + (image.shName i).toNat) (infoName.length + 1) ==
    infoName ++ [0] && sh.size == infoSize

def infoLoop (image : AppImage) (info : ℕ → Byte) (membuffer : Word) :
    ℕ → List Shdr → Load → Except Fault (ErrorState × Load)
  | _, [], l => .ok (.kNotSupportedType,l)
  | i, sh :: shdrs, l =>
    if image.isInfo i sh then do
      let l ← l.memcpy (membuffer + sh.addr) info sh.size.toNat
      return (.kOk,l)
    else infoLoop image info membuffer (i + 1) shdrs l

def findInfo (image : AppImage) : ℕ → List Shdr → Option Shdr
  | _, [] => none
  | i, sh :: shdrs => if image.isInfo i sh then some sh else findInfo image (i + 1) shdrs

def infoSection (image : AppImage) : Option Shdr := image.findInfo 0 image.shdrs

def ring0Init (image : AppImage) (ld : Loader) (info : ℕ → Byte) (l : Load) :
    Except Fault (ErrorState × Word × Load) := do
  let (err,membuffer,l) ← image.elfInit ld (image.ring0LoadMemory ld) l
  if err ≠ .kOk then return (err,membuffer,l)
  else
    let (err,l) ← image.infoLoop info membuffer 0 image.shdrs l
    return (err,membuffer,l)

end AppImage

-- Without the record of what is written, loading a plain object is the loading of the segments.
section
variable {l : Load} {dst mem : Word} {src head : ℕ → Byte} {n i : ℕ} {ld : Loader} {pm : Bool}

lemma memcpy_memory : (l.memcpy dst src n).map Load.memory = l.memory.memcpy dst src n := by
  unfold Load.memcpy
  cases l.memory.memcpy dst src n <;> rfl

lemma load_memory (ph : Phdr) :
    (ph.load head mem l).map Load.memory = ph.copy head mem l.memory := by
  unfold load copy
  split_ifs
  · exact memcpy_memory
  · rfl

lemma zero_memory (sh : Shdr) : (sh.zero mem l).map Load.memory = sh.clear mem l.memory := by
  unfold Shdr.zero Shdr.clear
  split_ifs
  · exact memcpy_memory
  · rfl

lemma map_bind {x : Except Fault Load} {y : Except Fault Memory} {f : Load → Except Fault Load}
    {g : Memory → Except Fault Memory} (hx : x.map Load.memory = y)
    (hf : ∀ l, (f l).map Load.memory = g l.memory) : (x >>= f).map Load.memory = y >>= g := by
  subst hx
  cases x with
  | error e => rfl
  | ok l => exact hf l

lemma elfSegments_memory (ps : List Phdr) : (elfSegments ld head mem pm i ps l).map Load.memory =
    loadSegments ld.alloc head mem pm i ps l.memory := by
  induction ps generalizing i l with
  | nil => rfl
  | cons ph ps ih =>
    rw [elfSegments,loadSegments]
    cases liftPanic (ph.map (ld.alloc i) mem pm l.memory.table) with
    | error e => rfl
    | ok t => exact map_bind (load_memory ph) fun l => ih

lemma zeroSections_memory (shdrs : List Shdr) :
    (zeroSections mem shdrs l).map Load.memory = clearBss mem shdrs l.memory := by
  induction shdrs generalizing l with
  | nil => rfl
  | cons sh shdrs ih => exact map_bind (zero_memory sh) fun l => ih

lemma elfInit_memory (image : Image) (ld : Loader) (l : Load) :
    (image.elfInit ld (image.elfLoadMemory ld) l).map (fun r => (r.1,r.2.1,r.2.2.memory)) =
      (image.init ld.alloc ld.malloc l.memory).map fun r => (r.1,r.2.membuffer,r.2.memory) := by
  unfold Image.elfInit Image.init
  split_ifs
  · rfl
  · cases liftPanic (image.loadAddr ld.malloc) with
    | error e => rfl
    | ok found =>
      obtain ⟨mem,pm⟩ := found
      have hs : _ = loadSegments ld.alloc image.head mem pm 0 image.phdrs l.memory :=
        elfSegments_memory (i := 0) image.phdrs
      simp only [Image.elfLoadMemory,Image.loadMemory,bind,Except.bind,pure,Except.pure]
      cases he : elfSegments ld image.head mem pm 0 image.phdrs l with
      | error e =>
        rw [← hs,he]
        rfl
      | ok l₁ =>
        have hz : _ = clearBss mem image.shdrs l₁.memory := zeroSections_memory image.shdrs
        rw [← hs,he]
        simp only [Except.map,ne_eq,not_true,if_false,← hz]
        cases zeroSections mem image.shdrs l₁ <;> rfl

end

section
variable {l l' : Load} {dst base : Word} {src head info : ℕ → Byte} {n i : ℕ}
  {ld : Loader} {mem : Word} {pm : Bool} {ps : List Phdr} {shdrs : List Shdr}
  {err : ErrorState}

lemma memcpy_written (h : l.memcpy dst src n = .ok l') : l'.written = l.written ++ [(dst,n)] := by
  obtain ⟨m,_,hr⟩ := fault_bind.mp h
  cases hr
  rfl

lemma load_written {ph : Phdr} (h : ph.load head mem l = .ok l') :
    l'.written = l.written ++ ph.piece mem := by
  unfold load at h
  unfold piece
  split_ifs at h ⊢
  · exact memcpy_written h
  · cases h
    simp

lemma zero_written {sh : Shdr} (h : sh.zero mem l = .ok l') :
    l'.written = l.written ++ sh.piece mem := by
  unfold Shdr.zero at h
  unfold Shdr.piece
  split_ifs at h ⊢
  · exact memcpy_written h
  · cases h
    simp

lemma elfSegments_written (h : elfSegments ld head mem pm i ps l = .ok l') :
    l'.written = l.written ++ ps.flatMap (piece mem) := by
  induction ps generalizing i l with
  | nil =>
    cases h
    simp
  | cons ph ps ih =>
    simp only [elfSegments,fault_bind,liftPanic_ok] at h
    obtain ⟨t,_,l₁,hl,hr⟩ := h
    rw [ih hr,load_written hl,flatMap_cons,List.append_assoc]
    rfl

lemma ring0Segments_written
    (h : ring0Segments head mem pm ps l = .ok (.kOk,l')) :
    l'.written = l.written ++ ps.flatMap (piece mem) := by
  induction ps generalizing l with
  | nil =>
    cases h
    simp
  | cons ph ps ih =>
    rw [ring0Segments] at h
    split_ifs at h
    · cases h
    · obtain ⟨l₁,hl,hr⟩ := fault_bind.mp h
      rw [ih hr,load_written hl,flatMap_cons,List.append_assoc]

lemma zeroSections_written (h : zeroSections mem shdrs l = .ok l') :
    l'.written = l.written ++ shdrs.flatMap (Shdr.piece mem) := by
  induction shdrs generalizing l with
  | nil =>
    cases h
    simp
  | cons sh shdrs ih =>
    obtain ⟨l₁,hz,hr⟩ := fault_bind.mp h
    rw [ih hr,zero_written hz,flatMap_cons,List.append_assoc]

lemma infoLoop_written {image : AppImage}
    (h : image.infoLoop info mem i shdrs l = .ok (err,l')) :
    l'.written = l.written ++
      ((image.findInfo i shdrs).map fun sh => (mem + sh.addr,4096)).toList := by
  induction shdrs generalizing i with
  | nil =>
    cases h
    simp [AppImage.findInfo]
  | cons sh shdrs ih =>
    rw [AppImage.infoLoop] at h
    rw [AppImage.findInfo]
    split_ifs at h ⊢ with hin
    · have hs : sh.size = infoSize := by
        simp only [AppImage.isInfo,Bool.and_eq_true,beq_iff_eq] at hin
        exact hin.2
      obtain ⟨l₁,hc,hr⟩ := fault_bind.mp h
      cases hr
      rw [memcpy_written hc,hs]
      rfl
    · exact ih h

lemma elfInit_written {loadMemory : LoadMemory}
    (hl : ∀ {mem pm l l'}, loadMemory mem pm l = .ok (.kOk,l') →
      l'.written = l.written ++ image.phdrs.flatMap (piece mem))
    (h : image.elfInit ld loadMemory l = .ok (.kOk,mem,l')) :
    (∃ pm, image.loadAddr ld.malloc = .ok (mem,pm)) ∧
      l'.written = l.written ++ image.phdrs.flatMap (piece mem) ++
        image.shdrs.flatMap (Shdr.piece mem) := by
  unfold Image.elfInit at h
  split_ifs at h
  · cases h
  · obtain ⟨⟨base,pm⟩,ha,h⟩ := fault_bind.mp h
    obtain ⟨⟨err,l₁⟩,hm,h⟩ := fault_bind.mp h
    dsimp only at h hm
    by_cases he : err = .kOk
    · subst he
      rw [if_neg (fun hne => hne rfl)] at h
      obtain ⟨l₂,hz,hr⟩ := fault_bind.mp h
      cases hr
      exact ⟨⟨pm,liftPanic_ok.mp ha⟩,by rw [zeroSections_written hz,hl hm]⟩
    · rw [if_pos he] at h
      cases h
      exact absurd rfl he

lemma elfLoadMemory_written (h : image.elfLoadMemory ld mem pm l = .ok (.kOk,l')) :
    l'.written = l.written ++ image.phdrs.flatMap (piece mem) := by
  obtain ⟨l₁,hs,hr⟩ := fault_bind.mp h
  cases hr
  exact elfSegments_written hs

lemma ring0LoadMemory_written
    (h : image.ring0LoadMemory ld mem pm l = .ok (.kOk,l')) :
    l'.written = l.written ++ image.phdrs.flatMap (piece mem) := by
  obtain ⟨t,_,hs⟩ := fault_bind.mp h
  exact (ring0Segments_written hs).trans rfl

lemma ring0Init_written {image : AppImage}
    (hin : image.elfInit ld (image.ring0LoadMemory ld) l = .ok (.kOk,mem,l'))
    {l'' : Load} (h : image.ring0Init ld info l = .ok (err,base,l'')) :
    base = mem ∧ l''.written = l'.written ++
      (image.infoSection.map fun sh => (mem + sh.addr,4096)).toList := by
  obtain ⟨⟨err',base',l₁⟩,hin',h⟩ := fault_bind.mp h
  cases hin.symm.trans hin'
  dsimp only at h
  rw [if_neg (fun hne => hne rfl)] at h
  obtain ⟨⟨err',l₂⟩,hif,hr⟩ := fault_bind.mp h
  cases hr
  exact ⟨rfl,infoLoop_written hif⟩

end

section
variable {base v : Word} {n limit : ℕ}

lemma piece_within (hli : limit < 2 ^ 64) :
    (∀ i < n, (base + v + BitVec.ofNat 64 i - base).toNat < limit) ↔
      n = 0 ∨ v.toNat + n ≤ limit := by
  have hv := v.isLt
  have hat (i : ℕ) : (base + v + BitVec.ofNat 64 i - base).toNat = (v.toNat + i) % 2 ^ 64 := by
    have hs : base + v + BitVec.ofNat 64 i - base = v + BitVec.ofNat 64 i := by
      rw [BitVec.add_assoc,BitVec.add_comm,BitVec.add_sub_cancel]
    rw [hs,BitVec.toNat_add,BitVec.toNat_ofNat,Nat.add_mod_mod]
  simp only [hat]
  constructor
  · intro h
    by_contra hou
    obtain ⟨_,_⟩ := not_or.mp hou
    rcases Nat.lt_or_ge _ (2 ^ 64) with hlt | _
    · have hl := h (n - 1) (by omega)
      rw [Nat.mod_eq_of_lt (by omega)] at hl
      omega
    · have ht := h (2 ^ 64 - 1 - v.toNat) (by omega)
      rw [Nat.mod_eq_of_lt (by omega)] at ht
      omega
  · rintro (rfl | hle) i hi
    · exact absurd hi (Nat.not_lt_zero i)
    · rw [Nat.mod_eq_of_lt (by omega)]
      omega

namespace Image

structure Fits (image : Image) (room : ℕ → Prop) : Prop where
  segments : ∀ ph ∈ image.phdrs, ph.type = ptLoad → ph.filesz ≠ 0 →
    room (ph.vaddr.toNat + ph.filesz.toNat)
  sections : ∀ sh ∈ image.shdrs, sh.isBss = true → sh.size ≠ 0 → room (sh.addr.toNat + sh.size.toNat)

def Room (image : Image) (x : ℕ) : Prop :=
  image.shstrndx ≠ shnUndef ∧ ∃ sh ∈ image.shdrs, x ≤ (sh.addr + sh.offset).toNat

end Image

def AppImage.InfoFits (image : AppImage) (room : ℕ → Prop) : Prop :=
  ∀ sh, image.infoSection = some sh → room (sh.addr.toNat + 4096)

lemma word_ne_zero {x : Word} : x ≠ 0 ↔ x.toNat ≠ 0 :=
  not_congr ⟨fun h => by rw [h]; rfl,fun h => BitVec.eq_of_toNat_eq h⟩

lemma segments_within (image : Image) (hli : limit < 2 ^ 64)
    (hr : ∀ x, 0 < x → (x ≤ limit ↔ room x)) :
    (∀ w ∈ image.phdrs.flatMap (piece base) ++ image.shdrs.flatMap (Shdr.piece base),
      ∀ i < w.2, (w.1 + BitVec.ofNat 64 i - base).toNat < limit) ↔ image.Fits room := by
  have hf {v size : Word} : (∀ i < size.toNat,
      (base + v + BitVec.ofNat 64 i - base).toNat < limit) ↔
        (size ≠ 0 → room (v.toNat + size.toNat)) := by
    rw [piece_within hli,word_ne_zero,or_iff_not_imp_left]
    refine forall_congr' fun hp => hr _ ?_
    omega
  simp only [mem_append,mem_flatMap,piece,Shdr.piece]
  constructor
  · intro h
    refine ⟨fun ph hph hl => hf.mp ?_,fun sh hsh hb => hf.mp ?_⟩
    · exact h (base + ph.vaddr,ph.filesz.toNat) (.inl ⟨ph,hph,by simp [hl]⟩)
    · exact h (base + sh.addr,sh.size.toNat) (.inr ⟨sh,hsh,by simp [hb]⟩)
  · rintro h w (⟨ph,hph,hw⟩ | ⟨sh,hsh,hw⟩)
    · split_ifs at hw with hl
      · rw [mem_singleton.mp hw]
        exact hf.mpr (h.segments ph hph hl)
      · exact absurd hw not_mem_nil
    · split_ifs at hw with hb
      · rw [mem_singleton.mp hw]
        exact hf.mpr (h.sections sh hsh hb)
      · exact absurd hw not_mem_nil

lemma info_within (image : AppImage) (hl : limit < 2 ^ 64)
    (hr : ∀ x, 0 < x → (x ≤ limit ↔ room x)) :
    (∀ w ∈ (image.infoSection.map fun sh => (base + sh.addr,4096)).toList,
      ∀ i < w.2, (w.1 + BitVec.ofNat 64 i - base).toNat < limit) ↔ image.InfoFits room := by
  unfold AppImage.InfoFits
  cases image.infoSection with
  | none => simp
  | some sh =>
    have hp : (∀ i < 4096, (base + sh.addr + BitVec.ofNat 64 i - base).toNat < limit) ↔ _ :=
      piece_within hl
    simp only [Option.map_some,Option.toList_some,mem_singleton,forall_eq,Option.some.injEq,
      forall_eq']
    rw [hp,← hr _ (by omega)]
    simp

lemma foldl_max (f : A → Word) (as : List A) (t : Word) :
    x ≤ (as.foldl (fun t a => if t < f a then f a else t) t).toNat ↔
      x ≤ t.toNat ∨ ∃ a ∈ as, x ≤ (f a).toNat := by
  induction as generalizing t with
  | nil => simp
  | cons a as ih =>
    rw [foldl_cons,ih]
    have hs : x ≤ (if t < f a then f a else t).toNat ↔ x ≤ t.toNat ∨ x ≤ (f a).toNat := by
      split_ifs with hlt
      · have hn := BitVec.lt_def.mp hlt
        omega
      · have hn := BitVec.not_lt.mp hlt
        rw [BitVec.le_def] at hn
        omega
    rw [hs,or_assoc,exists_mem_cons_iff]

lemma le_total_iff (image : Image) (hx : 0 < x) :
    x ≤ image.totalMemsize.toNat ↔ image.Room x := by
  unfold Image.totalMemsize Image.Room
  split_ifs with hu
  · have hz : (0 : Word).toNat = 0 := rfl
    simp only [hu,ne_eq,not_true,false_and,hz,iff_false]
    omega
  · rw [foldl_max]
    have hz : ¬ x ≤ (0 : Word).toNat := by
      have hn : (0 : Word).toNat = 0 := rfl
      omega
    simp only [hz,false_or,hu,ne_eq,not_false_iff,true_and]

end

section
variable {image : AppImage} {ld : Loader} {info : ℕ → Byte} {m : Memory} {mem : Word}
  {l l₁ : Load} {err : ErrorState} {limit : ℕ} {room : ℕ → Prop}

lemma elf_within (hli : limit < 2 ^ 64) (hr : ∀ x, 0 < x → (x ≤ limit ↔ room x))
    {loadMemory : LoadMemory}
    (hl : ∀ {mem pm l l'}, loadMemory mem pm l = .ok (.kOk,l') →
      l'.written = l.written ++ image.phdrs.flatMap (piece mem))
    (h : image.elfInit ld loadMemory ⟨m,[]⟩ = .ok (.kOk,mem,l)) :
    l.Within mem limit ↔ image.Fits room := by
  have hw := (elfInit_written hl h).2
  rw [Load.Within,hw,nil_append]
  exact segments_within image.toImage hli hr

lemma ring0_within (hl : limit < 2 ^ 64) (hr : ∀ x, 0 < x → (x ≤ limit ↔ room x))
    (hin : image.elfInit ld (image.ring0LoadMemory ld) ⟨m,[]⟩ = .ok (.kOk,mem,l₁))
    (h : image.ring0Init ld info ⟨m,[]⟩ = .ok (err,mem,l)) :
    l.Within mem limit ↔ image.Fits room ∧ image.InfoFits room := by
  have hw := (ring0Init_written hin h).2
  have he := elf_within hl hr ring0LoadMemory_written hin
  rw [Load.Within,hw,forall_mem_append,info_within image hl hr]
  exact and_congr_left' he

lemma ring0Init_ok (h : image.ring0Init ld info ⟨m,[]⟩ = .ok (.kOk,mem,l)) :
    ∃ l₁, image.elfInit ld (image.ring0LoadMemory ld) ⟨m,[]⟩ = .ok (.kOk,mem,l₁) := by
  obtain ⟨⟨err,base,l₁⟩,hin,h⟩ := fault_bind.mp h
  dsimp only at h
  by_cases he : err = .kOk
  · subst he
    rw [if_neg (fun hne => hne rfl)] at h
    obtain ⟨⟨err,l₂⟩,_,hr⟩ := fault_bind.mp h
    cases hr
    exact ⟨l₁,hin⟩
  · rw [if_pos he] at h
    cases h
    exact absurd rfl he

end

lemma elfInit_buffer {ld : Loader} {loadMemory : LoadMemory} {l l' : Load}
    {mem : Word} (hb : image.type = etDyn ∨ image.type = etRel)
    (hl : ∀ {mem pm l l'}, loadMemory mem pm l = .ok (.kOk,l') →
      l'.written = l.written ++ image.phdrs.flatMap (piece mem))
    (h : image.elfInit ld loadMemory l = .ok (.kOk,mem,l')) :
    mem = ld.malloc image.totalMemsize := by
  obtain ⟨pm,ha⟩ := (elfInit_written hl h).1
  rw [Image.loadAddr,if_pos hb] at ha
  cases ha
  rfl

theorem load_within (image : AppImage) (ld : Loader) (info : ℕ → Byte) (m : Memory)
    (hbuf : image.type = etDyn ∨ image.type = etRel) :
    (∀ membuffer l, image.elfInit ld (image.elfLoadMemory ld) ⟨m,[]⟩ = .ok (.kOk,membuffer,l) →
      membuffer = ld.malloc image.totalMemsize ∧
      (l.Within membuffer image.totalMemsize.toNat ↔ image.Fits image.Room)) ∧
    ∀ membuffer l₁ err l,
      image.elfInit ld (image.ring0LoadMemory ld) ⟨m,[]⟩ = .ok (.kOk,membuffer,l₁) →
      image.ring0Init ld info ⟨m,[]⟩ = .ok (err,membuffer,l) →
      membuffer = ld.malloc image.totalMemsize ∧
      (l.Within membuffer image.totalMemsize.toNat ↔
        image.Fits image.Room ∧ image.InfoFits image.Room) := by
  have hl := image.totalMemsize.isLt
  have hr : ∀ x, 0 < x → (x ≤ image.totalMemsize.toNat ↔ image.Room x) :=
    fun x hx => le_total_iff image.toImage hx
  refine ⟨fun membuffer l h => ⟨?_,?_⟩,fun membuffer l₁ err l hin h => ⟨?_,?_⟩⟩
  · exact elfInit_buffer hbuf elfLoadMemory_written h
  · exact elf_within hl hr elfLoadMemory_written h
  · exact elfInit_buffer hbuf ring0LoadMemory_written hin
  · exact ring0_within hl hr hin h

def elfIdent : ℕ → Byte := fun i => [0x7f,0x45,0x4c,0x46,2,1,1].getD i 0

def openLoader : Loader := ⟨fun _ _ => .ok 0,fun _ => 0,.ok⟩

def openMemory : Memory := ⟨fun _ => some 0,fun _ => 0⟩

def bssImage : AppImage where
  ident := elfIdent
  type := etDyn
  entry := 0
  shstrndx := 1
  phdrs := []
  shdrs := [⟨shtNobits,shfAlloc,16,1,4⟩]
  head := fun _ => 0
  strtab := 0
  shName := fun _ => 0

theorem bss_overruns : ∃ l, bssImage.elfInit openLoader (bssImage.elfLoadMemory openLoader)
    ⟨openMemory,[]⟩ = .ok (.kOk,0,l) ∧ ¬ l.Within 0 bssImage.totalMemsize.toNat := by
  refine ⟨_,rfl,fun h => ?_⟩
  exact absurd (h (16,4) mem_cons_self 3 (by decide)) (by decide)

theorem ring0_below (image : AppImage) (ld : Loader) (info : ℕ → Byte) (m : Memory)
    (hexec : image.type = etExec) {membuffer : Word} {l : Load}
    (h : image.ring0Init ld info ⟨m,[]⟩ = .ok (.kOk,membuffer,l)) :
    l.Within 0 (2 ^ 30) ↔ image.Fits (· ≤ 2 ^ 30) ∧ image.InfoFits (· ≤ 2 ^ 30) := by
  obtain ⟨l₁,hin⟩ := ring0Init_ok h
  obtain ⟨pageMapping,ha⟩ := (elfInit_written ring0LoadMemory_written hin).1
  have hz : membuffer = 0 := by
    rw [Image.loadAddr,hexec] at ha
    cases ha
    rfl
  subst hz
  exact ring0_within (by norm_num) (fun _ _ => Iff.rfl) hin h

lemma memcpy_open {l : Load} (h : l.memory.table = openMemory.table) (dst : Word) (src : ℕ → Byte)
    (n : ℕ) : ∃ l', l.memcpy dst src n = .ok l' := by
  have hc : ∃ m, l.memory.memcpy dst src n = .ok m ∧ m.table = openMemory.table := by
    induction n with
    | zero => exact ⟨_,rfl,h⟩
    | succ n ih =>
      obtain ⟨m,hm,ht⟩ := ih
      have hce : cell m.table (dst + BitVec.ofNat 64 n) =
          some (0 * 4096 + (dst + BitVec.ofNat 64 n).toNat % 4096) := by
        rw [cell,ht]
        rfl
      exact ⟨_,memcpy_succ.trans (fault_bind.mpr ⟨m,hm,store_ok.mpr ⟨_,hce,rfl⟩⟩),ht⟩
  obtain ⟨m,hm,_⟩ := hc
  exact ⟨_,fault_bind.mpr ⟨m,hm,rfl⟩⟩

/-- An object with an info section and a section to be cleared. -/
def appImage (type : BitVec 16) (phdrs : List Phdr) : AppImage where
  ident := elfIdent
  type := type
  entry := 0
  shstrndx := 1
  phdrs := phdrs
  shdrs := [⟨1,shfAlloc,0,0x2000,infoSize⟩,⟨shtNobits,shfAlloc,0x1000,0,4⟩]
  head := fun i => infoName.getD i 0
  strtab := 0
  shName := fun _ => 0

lemma appImage_info (type : BitVec 16) (ps : List Phdr) :
    (appImage type ps).isInfo 0 ⟨1,shfAlloc,0,0x2000,infoSize⟩ = true := rfl

lemma appImage_init (type : BitVec 16) (ps : List Phdr) {l₁ : Load}
    (ht : l₁.memory.table = openMemory.table)
    (h : (appImage type ps).elfInit openLoader ((appImage type ps).ring0LoadMemory openLoader)
      ⟨openMemory,[]⟩ = .ok (.kOk,0,l₁)) :
    ∃ l, (appImage type ps).ring0Init openLoader (fun _ => 0) ⟨openMemory,[]⟩ =
      .ok (.kOk,0,l) := by
  obtain ⟨l,hc⟩ := memcpy_open ht 0 (fun _ => 0) 4096
  refine ⟨l,fault_bind.mpr ⟨_,h,?_⟩⟩
  refine fault_bind.mpr ⟨(.kOk,l),?_,rfl⟩
  exact (if_pos (appImage_info type ps)).trans (fault_bind.mpr ⟨l,hc,rfl⟩)

lemma appImage_fits {type : BitVec 16} {ph : Phdr} {room : ℕ → Prop}
    (hp : room (ph.vaddr.toNat + ph.filesz.toNat)) (hb : room 0x1004) :
    (appImage type [ph]).Fits room := by
  refine ⟨fun ph' hph _ _ => ?_,fun sh hsh hbs _ => ?_⟩
  · rwa [mem_singleton.mp hph]
  · rcases mem_cons.mp hsh with rfl | hsh
    · exact absurd hbs (by decide)
    · rwa [mem_singleton.mp hsh]

lemma appImage_infoFits {type : BitVec 16} {ps : List Phdr} {room : ℕ → Prop} (h : room 0x1000) :
    (appImage type ps).InfoFits room := by
  intro sh hsh
  cases hsh
  exact h

def textPhdr : Phdr := ⟨ptLoad,0,0x1800,4,4⟩

theorem load_within_object :
    (∃ l, (appImage etDyn [textPhdr]).elfInit openLoader
        ((appImage etDyn [textPhdr]).elfLoadMemory openLoader) ⟨openMemory,[]⟩ = .ok (.kOk,0,l) ∧
      l.Within 0 (appImage etDyn [textPhdr]).totalMemsize.toNat) ∧
    ∃ l, (appImage etDyn [textPhdr]).ring0Init openLoader (fun _ => 0) ⟨openMemory,[]⟩ =
        .ok (.kOk,0,l) ∧ l.Within 0 (appImage etDyn [textPhdr]).totalMemsize.toNat := by
  obtain ⟨he,hr⟩ := load_within (appImage etDyn [textPhdr]) openLoader (fun _ => 0) openMemory (.inl rfl)
  have hroom : ∀ {x : ℕ}, x ≤ 0x2000 → (appImage etDyn [textPhdr]).Room x := fun hx =>
    ⟨by decide,_,mem_cons_self,hx⟩
  have hf : (appImage etDyn [textPhdr]).Fits (appImage etDyn [textPhdr]).Room :=
    appImage_fits (hroom (by decide)) (hroom (by decide))
  obtain ⟨l₁,hin,ht⟩ : ∃ l₁, (appImage etDyn [textPhdr]).elfInit openLoader
      ((appImage etDyn [textPhdr]).ring0LoadMemory openLoader) ⟨openMemory,[]⟩ =
        .ok (.kOk,0,l₁) ∧ l₁.memory.table = openMemory.table := ⟨_,rfl,rfl⟩
  obtain ⟨l,h⟩ := appImage_init _ _ ht hin
  refine ⟨⟨_,rfl,(he 0 _ rfl).2.mpr hf⟩,l,h,(hr 0 l₁ .kOk l hin h).2.mpr ⟨hf,?_⟩⟩
  exact appImage_infoFits (hroom (by decide))

theorem ring0_below_object : ∃ l, (appImage etExec [textPhdr]).ring0Init openLoader (fun _ => 0)
    ⟨openMemory,[]⟩ = .ok (.kOk,0,l) ∧ l.Within 0 (2 ^ 30) := by
  obtain ⟨l₁,hin,ht⟩ : ∃ l₁, (appImage etExec [textPhdr]).elfInit openLoader
      ((appImage etExec [textPhdr]).ring0LoadMemory openLoader) ⟨openMemory,[]⟩ =
        .ok (.kOk,0,l₁) ∧ l₁.memory.table = openMemory.table := ⟨_,rfl,rfl⟩
  obtain ⟨l,h⟩ := appImage_init _ _ ht hin
  refine ⟨l,h,(ring0_below _ openLoader (fun _ => 0) openMemory rfl h).mpr ⟨?_,?_⟩⟩
  · exact appImage_fits (by decide) (by decide)
  · exact appImage_infoFits (by decide)

theorem app_overruns : ∃ l,
    (appImage etExec [⟨ptLoad,0,0x40000000,1,0⟩]).ring0Init openLoader (fun _ => 0) ⟨openMemory,[]⟩ =
      .ok (.kOk,0,l) ∧ ¬ l.Within 0 (2 ^ 30) := by
  obtain ⟨l₁,hin,ht⟩ : ∃ l₁, (appImage etExec [⟨ptLoad,0,0x40000000,1,0⟩]).elfInit openLoader
      ((appImage etExec [⟨ptLoad,0,0x40000000,1,0⟩]).ring0LoadMemory openLoader) ⟨openMemory,[]⟩ =
        .ok (.kOk,0,l₁) ∧ l₁.memory.table = openMemory.table := ⟨_,rfl,rfl⟩
  obtain ⟨l,h⟩ := appImage_init _ _ ht hin
  have hw := (ring0Init_written hin h).2
  rw [(elfInit_written ring0LoadMemory_written hin).2] at hw
  refine ⟨l,h,fun hwi => ?_⟩
  have hm : ((0x40000000 : Word),1) ∈ l.written := by
    rw [hw]
    exact mem_cons_self
  exact absurd (hwi _ hm 0 Nat.one_pos) (by decide)

end Elf
