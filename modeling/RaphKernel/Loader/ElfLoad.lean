import RaphKernel.Loader.Elf
import Mathlib.Data.List.Pairwise

namespace Elf
open Raph Physmem AddressSpace Translated Bytes List

def AllocFresh (U : Set Word) (alloc : ℕ → Word → Except Panic Word) : ℕ → List Phdr → Table → Prop
  | _, [], _ => True
  | i, ph :: phdrs, t =>
    (∀ paddr, alloc i (mapSize ph.vaddr (ph.vaddr + ph.memsz)) = .ok paddr →
      FreshPages U t paddr (mapSize ph.vaddr (ph.vaddr + ph.memsz))) ∧
    ∀ t', ph.map (alloc i) 0 true t = .ok t' → AllocFresh U alloc (i + 1) phdrs t'

def segmentLog (head : ℕ → Byte) (log : Word → Option Byte) (ph : Phdr) : Word → Option Byte :=
  if ph.type = ptLoad then
    overlay ph.vaddr ph.filesz.toNat (fun i => head (ph.offset.toNat + i)) log
  else log

def bssLog (log : Word → Option Byte) (sh : Shdr) : Word → Option Byte :=
  if sh.isBss then overlay sh.addr sh.size.toNat (fun _ => 0) log else log

section
variable {U : Set Word} {alloc : ℕ → Word → Except Panic Word} {head : ℕ → Byte} {t t' : Table}
  {ph : Phdr} {m m' : Memory} {c c₀ : ℕ → Byte} {log : Word → Option Byte} {i : ℕ}

lemma map_faithful (hu : Faithful U (cell t))
    (hf : ∀ paddr, alloc i (mapSize ph.vaddr (ph.vaddr + ph.memsz)) = .ok paddr →
      FreshPages U t paddr (mapSize ph.vaddr (ph.vaddr + ph.memsz)))
    (h : ph.map (alloc i) 0 true t = .ok t') :
    Faithful U (cell t') ∧ ∀ a p, cell t a = some p → cell t' a = some p := by
  unfold Phdr.map at h
  split_ifs at h
  · simp only [BitVec.ofNat_eq_ofNat,BitVec.zero_add] at h
    simp only [mapAddr,bind_ok] at h
    obtain ⟨paddr,hal,⟨flag,t₁⟩,hm,hr⟩ := h
    cases hr
    have he := mapPhysAddr_extended hm
    exact ⟨faithful_extended hu he (hf paddr hal),fun a p hc => cell_mono he hc⟩
  · cases h
    exact ⟨hu,fun _ _ hc => hc⟩

lemma copy_holds (hin : Holds U (cell m.table) c₀ m.content log)
    (hm : ph.type = ptLoad → ∀ a, InRange ph.vaddr ph.filesz a → a ∈ U)
    (h : ph.copy head 0 m = .ok m') :
    Holds U (cell m'.table) c₀ m'.content (segmentLog head log ph) ∧ m'.table = m.table := by
  unfold Phdr.copy at h
  unfold segmentLog
  split_ifs at h ⊢ with hload
  · simp only [BitVec.ofNat_eq_ofNat,BitVec.zero_add] at h
    exact ⟨memcpy_holds ph.filesz.isLt.le hin (hm hload) h,memcpy_table h⟩
  · cases h
    exact ⟨hin,rfl⟩

lemma clear_holds {sh : Shdr} (hin : Holds U (cell m.table) c₀ m.content log)
    (hm : sh.isBss = true → ∀ a, InRange sh.addr sh.size a → a ∈ U)
    (h : sh.clear 0 m = .ok m') : Holds U (cell m'.table) c₀ m'.content (bssLog log sh) := by
  unfold Shdr.clear at h
  unfold bssLog
  split_ifs at h ⊢ with hb
  · simp only [BitVec.ofNat_eq_ofNat,BitVec.zero_add] at h
    exact memcpy_holds sh.size.isLt.le hin (hm hb) h
  · cases h
    exact hin

lemma loadSegments_holds : ∀ {ps : List Phdr} {i : ℕ} {m m' : Memory}
    {log : Word → Option Byte}, Holds U (cell m.table) c₀ m.content log →
    AllocFresh U alloc i ps m.table →
    (∀ ph ∈ ps, ph.type = ptLoad → ∀ a, InRange ph.vaddr ph.filesz a → a ∈ U) →
    loadSegments alloc head 0 true i ps m = .ok m' →
    Holds U (cell m'.table) c₀ m'.content (ps.foldl (segmentLog head) log) := by
  intro ps
  induction ps with
  | nil =>
    intro i m m' log hin _ _ h
    cases h
    exact hin
  | cons ph ps ih =>
    intro i m m' log hin hf hme h
    simp only [loadSegments,fault_bind,liftPanic_ok] at h
    obtain ⟨t,hma,m₁,hc,hr⟩ := h
    obtain ⟨hfa,hg⟩ := map_faithful hin.faithful hf.1 hma
    have hm := hin.extend hfa hg
    obtain ⟨hn,ht⟩ := copy_holds hm (hme ph mem_cons_self) hc
    exact ih hn (ht ▸ hf.2 t hma) (fun ph' hph' => hme ph' (mem_cons_of_mem ph hph')) hr

lemma clearBss_holds : ∀ {shdrs : List Shdr} {m m' : Memory} {log : Word → Option Byte},
    Holds U (cell m.table) c₀ m.content log →
    (∀ sh ∈ shdrs, sh.isBss = true → ∀ a, InRange sh.addr sh.size a → a ∈ U) →
    clearBss 0 shdrs m = .ok m' →
    Holds U (cell m'.table) c₀ m'.content (shdrs.foldl bssLog log) := by
  intro shdrs
  induction shdrs with
  | nil =>
    intro m m' log hin _ h
    cases h
    exact hin
  | cons sh shdrs ih =>
    intro m m' log hin hm h
    simp only [clearBss,fault_bind] at h
    obtain ⟨m₁,hc,hr⟩ := h
    exact ih (clear_holds hin (hm sh mem_cons_self) hc)
      (fun sh' hsh' => hm sh' (mem_cons_of_mem sh hsh')) hr

lemma copy_again (h : ph.copy head 0 m = .ok m') :
    ∃ m₂, ph.copy head 0 ⟨m.table,c⟩ = .ok m₂ ∧ m₂.table = m'.table := by
  unfold Phdr.copy at h ⊢
  split_ifs at h ⊢
  · exact memcpy_again h
  · cases h
    exact ⟨_,rfl,rfl⟩

lemma clear_again {sh : Shdr} (h : sh.clear 0 m = .ok m') :
    ∃ m₂, sh.clear 0 ⟨m.table,c⟩ = .ok m₂ ∧ m₂.table = m'.table := by
  unfold Shdr.clear at h ⊢
  split_ifs at h ⊢
  · exact memcpy_again h
  · cases h
    exact ⟨_,rfl,rfl⟩

lemma loadSegments_again : ∀ {ps : List Phdr} {i : ℕ} {m m' : Memory} {c : ℕ → Byte},
    loadSegments alloc head 0 true i ps m = .ok m' →
    ∃ m₂, loadSegments alloc head 0 true i ps ⟨m.table,c⟩ = .ok m₂ ∧ m₂.table = m'.table := by
  intro ps
  induction ps with
  | nil =>
    intro i m m' c h
    cases h
    exact ⟨_,rfl,rfl⟩
  | cons ph ps ih =>
    intro i m m' c h
    simp only [loadSegments,fault_bind,liftPanic_ok] at h ⊢
    obtain ⟨t,hm,m₁,hc,hr⟩ := h
    obtain ⟨m₂,hcopy₂,ht⟩ := copy_again (c := c) hc
    obtain ⟨m₃,hrest₃,he⟩ := ih (c := m₂.content) hr
    rw [← ht] at hrest₃
    exact ⟨m₃,⟨t,hm,m₂,hcopy₂,hrest₃⟩,he⟩

lemma clearBss_again : ∀ {shdrs : List Shdr} {m m' : Memory} {c : ℕ → Byte},
    clearBss 0 shdrs m = .ok m' → ∃ m₂, clearBss 0 shdrs ⟨m.table,c⟩ = .ok m₂ := by
  intro shdrs
  induction shdrs with
  | nil => exact fun _ => ⟨_,rfl⟩
  | cons sh shdrs ih =>
    intro m m' c h
    simp only [clearBss,fault_bind] at h ⊢
    obtain ⟨m₁,hc,hr⟩ := h
    obtain ⟨m₂,hclear₂,ht⟩ := clear_again (c := c) hc
    obtain ⟨m₃,hrest₃⟩ := ih (c := m₂.content) hr
    rw [← ht] at hrest₃
    exact ⟨m₃,m₂,hclear₂,hrest₃⟩

end

section
variable {head : ℕ → Byte} {a : Word} {ph : Phdr}

lemma bssLog_foldl : ∀ (shdrs : List Shdr) (log : Word → Option Byte),
    ((∃ sh ∈ shdrs, sh.isBss = true ∧ InRange sh.addr sh.size a) →
      shdrs.foldl bssLog log a = some 0) ∧
    ((∀ sh ∈ shdrs, sh.isBss = true → ¬ InRange sh.addr sh.size a) →
      shdrs.foldl bssLog log a = log a) := by
  intro shdrs
  induction shdrs with
  | nil => exact fun log => ⟨fun ⟨_,hm,_⟩ => absurd hm not_mem_nil,fun _ => rfl⟩
  | cons sh shdrs ih =>
    intro log
    obtain ⟨hso,hn⟩ := ih _
    rw [foldl_cons]
    constructor
    · rintro ⟨sh',hm,hbs,hin⟩
      by_cases hl : ∃ sh ∈ shdrs, sh.isBss = true ∧ InRange sh.addr sh.size a
      · exact hso hl
      · rcases mem_cons.mp hm with rfl | hm
        · rw [hn (fun s hs hb hi => hl ⟨s,hs,hb,hi⟩),bssLog,if_pos hbs]
          exact if_pos hin
        · exact absurd ⟨sh',hm,hbs,hin⟩ hl
    · intro hal
      rw [hn (fun s hs => hal s (mem_cons_of_mem sh hs)),bssLog]
      split_ifs with hbs
      · exact if_neg (hal sh mem_cons_self hbs)
      · rfl

lemma segmentLog_outside {log : Word → Option Byte}
    (h : ph.type = ptLoad → ¬ InRange ph.vaddr ph.filesz a) : segmentLog head log ph a = log a := by
  unfold segmentLog
  split_ifs with hload
  · exact if_neg (h hload)
  · rfl

lemma segmentLog_foldl_outside : ∀ (ps : List Phdr) (log : Word → Option Byte),
    (∀ ph ∈ ps, ph.type = ptLoad → ¬ InRange ph.vaddr ph.filesz a) →
    ps.foldl (segmentLog head) log a = log a := by
  intro ps
  induction ps with
  | nil => exact fun _ _ => rfl
  | cons ph ps ih =>
    intro log h
    rw [foldl_cons,ih _ (fun s hs => h s (mem_cons_of_mem ph hs))]
    exact segmentLog_outside (h ph mem_cons_self)

def Apart (ph ph' : Phdr) : Prop :=
  ph.type = ptLoad → ph'.type = ptLoad →
    ∀ a, ¬ (InRange ph.vaddr ph.memsz a ∧ InRange ph'.vaddr ph'.memsz a)

instance : Std.Symm Apart := ⟨fun _ _ h hload hload' a ha => h hload' hload a ha.symm⟩

lemma inRange_mem (hle : ph.filesz ≤ ph.memsz) (h : InRange ph.vaddr ph.filesz a) :
    InRange ph.vaddr ph.memsz a := h.trans_le hle

lemma segmentLog_foldl_inside : ∀ (ps : List Phdr) (log : Word → Option Byte),
    ps.Pairwise Apart → (∀ ph ∈ ps, ph.type = ptLoad → ph.filesz ≤ ph.memsz) → ph ∈ ps →
    ph.type = ptLoad → InRange ph.vaddr ph.filesz a →
    ps.foldl (segmentLog head) log a = some (head (ph.offset.toNat + (a - ph.vaddr).toNat)) := by
  intro ps
  induction ps with
  | nil => exact fun _ _ _ hm => absurd hm not_mem_nil
  | cons s ps ih =>
    intro log hap hsi hm hload hin
    obtain ⟨hf,hr⟩ := pairwise_cons.mp hap
    have hsi' (s' : Phdr) (hs' : s' ∈ ps) := hsi s' (mem_cons_of_mem s hs')
    rw [foldl_cons]
    rcases mem_cons.mp hm with rfl | hl
    · rw [segmentLog_foldl_outside,segmentLog,if_pos hload]
      · exact if_pos hin
      · intro s' hs' hload' hin'
        exact hf s' hs' hload hload' a
          ⟨inRange_mem (hsi ph hm hload) hin,inRange_mem (hsi' s' hs' hload') hin'⟩
    · exact ih _ hr hsi' hl hload hin

lemma segmentLog_foldl_tail : ∀ (ps : List Phdr) (log : Word → Option Byte),
    ps.Pairwise Apart → (∀ ph ∈ ps, ph.type = ptLoad → ph.filesz ≤ ph.memsz) → ph ∈ ps →
    ph.type = ptLoad → InRange ph.vaddr ph.memsz a → ¬ InRange ph.vaddr ph.filesz a →
    ps.foldl (segmentLog head) log a = log a := by
  intro ps log hap hsi hm hload hin ho
  apply segmentLog_foldl_outside
  intro s hs hsl hsn
  by_cases heq : s = ph
  · exact ho (heq ▸ hsn)
  · have hne := hap.forall hs hm heq
    exact hne hsl hload a ⟨inRange_mem (hsi s hs hsl) hsn,hin⟩

end

namespace Image

structure Executable (image : Image) : Prop where
  elf : image.isElf = true
  elf64 : image.isElf64 = true
  osabi : image.isOsabiSysv = true ∨ image.isOsabiGnu = true
  exec : image.type = etExec
  size : ∀ ph ∈ image.phdrs, ph.type = ptLoad → ph.filesz ≤ ph.memsz
  apart : image.phdrs.Pairwise Apart

def touched (image : Image) : Set Word :=
  {a | (∃ ph ∈ image.phdrs, ph.type = ptLoad ∧ InRange ph.vaddr ph.memsz a) ∨
    ∃ sh ∈ image.shdrs, sh.isBss = true ∧ InRange sh.addr sh.size a}

def Loaded (image : Image) (m : Memory) : Prop :=
  ∀ ph ∈ image.phdrs, ph.type = ptLoad → ∀ a, InRange ph.vaddr ph.memsz a →
    m.read a = some (if InRange ph.vaddr ph.filesz a then
      image.head (ph.offset.toNat + (a - ph.vaddr).toNat) else 0)

def TailCleared (image : Image) : Prop :=
  ∀ ph ∈ image.phdrs, ph.type = ptLoad → ∀ a, InRange ph.vaddr ph.memsz a →
    ¬ InRange ph.vaddr ph.filesz a → ∃ sh ∈ image.shdrs, sh.isBss = true ∧ InRange sh.addr sh.size a

def FileKept (image : Image) : Prop :=
  ∀ ph ∈ image.phdrs, ph.type = ptLoad → ∀ a, InRange ph.vaddr ph.filesz a →
    ∀ sh ∈ image.shdrs, sh.isBss = true → InRange sh.addr sh.size a →
      image.head (ph.offset.toNat + (a - ph.vaddr).toNat) = 0

def log (image : Image) : Word → Option Byte :=
  image.shdrs.foldl bssLog (image.phdrs.foldl (segmentLog image.head) fun _ => none)

section
variable {image : Image} {alloc : ℕ → Word → Except Panic Word} {malloc : Word → Word}
  {t : Table} {c : ℕ → Byte} {m : Memory} {obj : ElfObject}

lemma init_ok (he : image.Executable) : image.init alloc malloc m = .ok (.kOk,obj) ↔
    ∃ m₁ m₂, loadSegments alloc image.head 0 true 0 image.phdrs m = .ok m₁ ∧
      clearBss 0 image.shdrs m₁ = .ok m₂ ∧ obj = ⟨0,some (0 + image.entry),m₂⟩ := by
  have hsu : (!image.isElf || !image.isElf64 ||
      (!image.isOsabiSysv && !image.isOsabiGnu)) = false := by
    rw [he.elf,he.elf64]
    rcases he.osabi with h | h <;> simp [h]
  have had : image.loadAddr malloc = .ok (0,true) := by
    rw [loadAddr,he.exec]
    rfl
  unfold init
  rw [if_neg (by rw [hsu]; exact Bool.false_ne_true),had]
  constructor
  · intro h
    obtain ⟨⟨membuffer,flag⟩,hl,h⟩ := fault_bind.mp h
    cases hl
    obtain ⟨⟨err,m₁⟩,hload,h⟩ := fault_bind.mp h
    obtain ⟨m₁',hs,hr⟩ := fault_bind.mp hload
    cases hr
    dsimp only at h
    rw [if_neg (fun hne => hne rfl)] at h
    obtain ⟨m₂,hc,hr⟩ := fault_bind.mp h
    exact ⟨m₁,m₂,hs,hc,(Prod.mk.inj (Except.ok.inj hr)).2.symm⟩
  · rintro ⟨m₁,m₂,hs,hc,rfl⟩
    refine fault_bind.mpr ⟨(0,true),rfl,?_⟩
    refine fault_bind.mpr ⟨(.kOk,m₁),fault_bind.mpr ⟨m₁,hs,rfl⟩,?_⟩
    dsimp only
    rw [if_neg (fun hne => hne rfl)]
    exact fault_bind.mpr ⟨m₂,hc,rfl⟩

lemma init_again (he : image.Executable) (c₂ : ℕ → Byte)
    (h : image.init alloc malloc ⟨t,c⟩ = .ok (.kOk,obj)) :
    ∃ obj₂, image.init alloc malloc ⟨t,c₂⟩ = .ok (.kOk,obj₂) := by
  obtain ⟨m₁,m₂,hload,hc,_⟩ := (init_ok he).mp h
  obtain ⟨m₃,hload₃,ht⟩ := loadSegments_again (c := c₂) hload
  obtain ⟨m₄,hclear₄⟩ := clearBss_again (c := m₃.content) hc
  rw [← ht] at hclear₄
  exact ⟨_,(init_ok he).mpr ⟨m₃,m₄,hload₃,hclear₄,rfl⟩⟩

lemma init_holds (he : image.Executable) (hu : Faithful image.touched (cell t))
    (hf : AllocFresh image.touched alloc 0 image.phdrs t)
    (h : image.init alloc malloc ⟨t,c⟩ = .ok (.kOk,obj)) :
    Holds image.touched (cell obj.memory.table) c obj.memory.content image.log := by
  obtain ⟨m₁,m₂,hload,hc,rfl⟩ := (init_ok he).mp h
  refine clearBss_holds (loadSegments_holds (Holds.initial c hu) hf ?_ hload) ?_ hc
  · exact fun ph hph hp a ha => .inl ⟨ph,hph,hp,inRange_mem (he.size ph hph hp) ha⟩
  · exact fun sh hsh hb a ha => .inr ⟨sh,hsh,hb,ha⟩

lemma read_log {a : Word} {b : Byte}
    (h : Holds image.touched (cell m.table) c m.content image.log) (hl : image.log a = some b) :
    m.read a = some b := by
  obtain ⟨p,hc,hb⟩ := h.written a b hl
  rw [Memory.read,hc,Option.map_some,hb]

theorem init_loads_iff (hexec : image.Executable) (hu : Faithful image.touched (cell t))
    (hfresh : AllocFresh image.touched alloc 0 image.phdrs t)
    (hok : image.init alloc malloc ⟨t,c⟩ = .ok (.kOk,obj)) :
    (∀ c obj, image.init alloc malloc ⟨t,c⟩ = .ok (.kOk,obj) → image.Loaded obj.memory) ↔
      image.TailCleared ∧ image.FileKept := by
  constructor
  · intro hl
    constructor
    · intro ph hph hload a hin ho
      by_contra hn
      push Not at hn
      obtain ⟨obj₂,hok₂⟩ := init_again hexec (fun _ => 1) hok
      have hiv := init_holds hexec hu hfresh hok₂
      have hr := hl _ _ hok₂ ph hph hload a hin
      rw [if_neg ho,Memory.read,Option.map_eq_some_iff] at hr
      obtain ⟨p,hce,hz⟩ := hr
      have hlo : image.log a = none := by
        rw [log,(bssLog_foldl image.shdrs _).2 hn]
        exact segmentLog_foldl_tail _ _ hexec.apart hexec.size hph hload hin ho
      have hk := hiv.untouched (.inl ⟨ph,hph,hload,hin⟩) hlo hce
      rw [hz] at hk
      exact absurd hk (by decide)
    · intro ph hph hload a hin sh hsh hb hc
      have hr := hl _ _ hok ph hph hload a (inRange_mem (hexec.size ph hph hload) hin)
      have hlo : image.log a = some 0 := (bssLog_foldl image.shdrs _).1 ⟨sh,hsh,hb,hc⟩
      rw [if_pos hin,read_log (init_holds hexec hu hfresh hok) hlo] at hr
      exact (Option.some.inj hr).symm
  · rintro ⟨ht,hk⟩ c₂ obj₂ hok₂ ph hph hload a hin
    have hiv := init_holds hexec hu hfresh hok₂
    by_cases hb : ∃ sh ∈ image.shdrs, sh.isBss = true ∧ InRange sh.addr sh.size a
    · rw [read_log hiv ((bssLog_foldl image.shdrs _).1 hb)]
      split_ifs with hf
      · obtain ⟨sh,hsh,hs,hc⟩ := hb
        rw [hk ph hph hload a hf sh hsh hs hc]
      · rfl
    · have hf : InRange ph.vaddr ph.filesz a := by
        by_contra ho
        exact hb (ht ph hph hload a hin ho)
      have hlo : image.log a = some (image.head (ph.offset.toNat + (a - ph.vaddr).toNat)) := by
        push Not at hb
        rw [log,(bssLog_foldl image.shdrs _).2 hb]
        exact segmentLog_foldl_inside _ _ hexec.apart hexec.size hph hload hf
      rw [if_pos hf,read_log hiv hlo]

end

def program (phdrs : List Phdr) (shdrs : List Shdr) : Image where
  ident i := [0x7f,0x45,0x4c,0x46,2,1,1,0].getD i 0
  type := etExec
  entry := 0x400000
  shstrndx := shnUndef
  phdrs := phdrs
  shdrs := shdrs
  head := fun _ => 0x90

def frames (i : ℕ) (_ : Word) : Except Panic Word := .ok (BitVec.ofNat 64 (0x100000 + i * 0x10000))

def blank : Memory := ⟨fun _ => none,fun _ => 0xff⟩

lemma program_executable {ps : List Phdr} {shdrs : List Shdr}
    (hs : ∀ ph ∈ ps, ph.filesz ≤ ph.memsz) (hap : ps.Pairwise Apart) :
    (program ps shdrs).Executable :=
  ⟨rfl,rfl,.inl rfl,rfl,fun ph hph _ => hs ph hph,hap⟩

def bssProgram : Image := program [⟨ptLoad,0x40,0x400000,2,4⟩] [⟨shtNobits,shfAlloc,0x400002,0,2⟩]

theorem init_loads_bss : (∀ c obj, bssProgram.init frames id ⟨blank.table,c⟩ = .ok (.kOk,obj) →
    bssProgram.Loaded obj.memory) ↔ bssProgram.TailCleared ∧ bssProgram.FileKept := by
  have hok : ∃ obj, bssProgram.init frames id ⟨blank.table,blank.content⟩ = .ok (.kOk,obj) := ⟨_,rfl⟩
  obtain ⟨obj,hok⟩ := hok
  refine init_loads_iff (program_executable ?_ (pairwise_singleton _ _)) ?_ ⟨?_,?_⟩ hok
  · decide
  · exact nofun
  · exact nofun
  · exact fun _ _ => trivial

def tailProgram : Image := program [⟨ptLoad,0x40,0x400000,2,4⟩] []

def sharedProgram : Image :=
  program [⟨ptLoad,0x40,0x400000,2,2⟩,⟨ptLoad,0x42,0x400800,2,0x1000⟩] []

def tlsProgram : Image := program [⟨ptLoad,0x40,0x400000,4,4⟩] [⟨shtNobits,0x403,0x400002,0,2⟩]

theorem programs_not_loaded :
    (tailProgram.Executable ∧ ∃ obj, tailProgram.init frames id blank = .ok (.kOk,obj) ∧
      obj.memory.read 0x400002 = some 0xff ∧ ¬ tailProgram.Loaded obj.memory) ∧
    (sharedProgram.Executable ∧ ∃ obj, sharedProgram.init frames id blank = .ok (.kOk,obj) ∧
      obj.memory.read 0x401000 = none ∧ ¬ sharedProgram.Loaded obj.memory) ∧
    tlsProgram.Executable ∧ ∃ obj, tlsProgram.init frames id blank = .ok (.kOk,obj) ∧
      obj.memory.read 0x400002 = some 0 ∧ ¬ tlsProgram.Loaded obj.memory := by
  refine ⟨⟨?_,_,rfl,?_,?_⟩,⟨?_,_,rfl,?_,?_⟩,?_,_,rfl,?_,?_⟩
  · exact program_executable (by decide) (pairwise_singleton _ _)
  · decide
  · exact fun h => absurd (h ⟨ptLoad,0x40,0x400000,2,4⟩ (by decide) rfl 0x400002 (by decide)) (by decide)
  · refine program_executable (by decide) (pairwise_pair.mpr fun _ _ a ha => ?_)
    obtain ⟨h1,h2⟩ := ha
    unfold InRange at h1 h2
    bv_omega
  · decide
  · exact fun h => absurd (h ⟨ptLoad,0x42,0x400800,2,0x1000⟩ (by decide) rfl 0x401000 (by decide)) (by decide)
  · exact program_executable (by decide) (pairwise_singleton _ _)
  · decide
  · exact fun h => absurd (h ⟨ptLoad,0x40,0x400000,4,4⟩ (by decide) rfl 0x400002 (by decide)) (by decide)

end Image

end Elf
