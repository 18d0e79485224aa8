import RaphKernel.Mem.PhysmemAlloc
import RaphKernel.Mem.PhysmemFree

namespace Physmem
open Raph List PhysmemCtrl
variable {size addr : Word}

def AllocFits (size : Word) : List AllocatedArea → Prop
  | [] => False
  | [last] => hi last + size.toNat < 2 ^ 64
  | cur :: next :: rest => hi cur + size.toNat ≤ lo next ∨ AllocFits size (next :: rest)

instance allocFitsDecidable (size : Word) :
    (areas : List AllocatedArea) → Decidable (AllocFits size areas)
  | [] => .isFalse id
  | [last] => inferInstanceAs (Decidable (hi last + size.toNat < 2 ^ 64))
  | cur :: next :: rest =>
    have := allocFitsDecidable size (next :: rest)
    inferInstanceAs (Decidable (hi cur + size.toNat ≤ lo next ∨ AllocFits size (next :: rest)))

lemma gapFits_one {cur next : AllocatedArea} (h : hi cur ≤ lo next) :
    gapFits 1 size cur next = true ↔ hi cur + size.toNat ≤ lo next := by
  have hle : cur.endAddr ≤ next.startAddr := h
  unfold hi lo at h ⊢
  rw [gapFits,alignUp_one,decide_eq_true_eq,BitVec.le_def,BitVec.toNat_sub_of_le hle]
  omega

lemma alignFits_one_iff {areas : List AllocatedArea} (hne : areas ≠ [])
    (hwf : WellFormed areas) : AlignFits 1 size areas ↔ AllocFits size areas := by
  induction areas with
  | nil => exact absurd rfl hne
  | cons cur rest ih =>
    cases rest with
    | nil => simp [AlignFits,AllocFits,roundUp_one]
    | cons next rest =>
      obtain ⟨_,hle,hre⟩ := hwf
      have hg : gapFits 1 size cur next = true ↔ hi cur + size.toNat ≤ lo next := gapFits_one hle
      have hr := ih (by simp) hre
      by_cases h : gapFits 1 size cur next = true
      · rw [AlignFits,if_pos h,AllocFits,show (1 : Word).toNat = 1 from rfl,roundUp_one]
        exact iff_of_true hle (.inl (hg.mp h))
      · rw [AlignFits,if_neg h,AllocFits,hr]
        constructor
        · exact .inr
        · rintro (hl | hl)
          · exact absurd (hg.mpr hl) h
          · exact hl

inductive Request where
  | alloc (size : Word)
  | free (addr size : Word)

structure Session where
  ctrl : PhysmemCtrl
  live : List (Word × Word)

namespace Session

def areas (s : Session) : List AllocatedArea := s.ctrl.allocatedArea

def apart (addr size : Word) (r : Word × Word) : Bool :=
  decide (addr.toNat + size.toNat ≤ r.1.toNat ∨ r.1.toNat + r.2.toNat ≤ addr.toNat)

def step (physMemoryEnd : Word) (s : Session) : Request → Except Panic Session
  | .alloc size => do
    let (paddr,ctrl) ← s.ctrl.alloc physMemoryEnd none size
    let addr ← PhysAddr.getAddr paddr
    return ⟨ctrl,(addr,size) :: s.live⟩
  | .free addr size => do
    let (_,ctrl) ← s.ctrl.free (some addr) size
    return ⟨ctrl,s.live.filter (apart addr size)⟩

def Asked (s : Session) : Request → Prop
  | .alloc _ => True
  | .free addr size => Inside s.areas addr size

def Permitted (s : Session) : Request → Prop
  | .alloc size => AllocFits size s.areas
  | .free addr size => Inside s.areas addr size

instance (s : Session) (size : Word) : Decidable (s.Permitted (.alloc size)) :=
  inferInstanceAs (Decidable (AllocFits size s.areas))

def Steps (physMemoryEnd : Word) (allowed : Session → Request → Prop) (s t : Session) : Prop :=
  ∃ r, allowed s r ∧ s.step physMemoryEnd r = .ok t

def Effect (s t : Session) : Request → Prop
  | .alloc size => ∃ addr, t.live = (addr,size) :: s.live ∧
      Disjoint (range addr size) (covered s.areas) ∧
      covered t.areas = covered s.areas ∪ range addr size
  | .free addr size => covered t.areas = covered s.areas \ range addr size

def MergeNeutral (s : Session) (size : Word) : Prop :=
  ∀ i fraged cur, allocLoop 1 size s.areas 0 none = (i,fraged) → s.areas[i]? = some cur →
    covered ((s.ctrl.placeArea i cur 1 size).2.2.mergeFraged fraged).allocatedArea =
      covered (s.ctrl.placeArea i cur 1 size).2.2.allocatedArea

structure Sound (s : Session) : Prop where
  wellFormed : WellFormed s.areas
  held : ∀ r ∈ s.live, range r.1 r.2 ⊆ covered s.areas
  apart : s.live.Pairwise (fun p q => Disjoint (range p.1 p.2) (range q.1 q.2))

lemma apart_disjoint {r : Word × Word} (h : Session.apart addr size r = true) :
    Disjoint (range addr size) (range r.1 r.2) := by
  rw [Set.disjoint_left]
  rintro x ⟨_,_⟩ ⟨_,_⟩
  simp only [Session.apart,decide_eq_true_eq] at h
  omega

variable {top : Word} {s t : Session}

lemma step_alloc (h : s.step top (.alloc size) = .ok t) :
    ∃ addr, s.ctrl.allocSub top none size ⟨powerOfTwo 0,false⟩ = .ok (some addr,t.ctrl) ∧
      t.live = (addr,size) :: s.live := by
  simp only [step,alloc] at h
  obtain ⟨⟨pa,ctrl⟩,hal,h⟩ := bind_ok.mp h
  obtain ⟨addr,ha,h⟩ := bind_ok.mp h
  cases pa with
  | none => cases ha
  | some a =>
    cases ha
    cases h
    exact ⟨_,(kassert_bind_ok.mp hal).2,rfl⟩

lemma step_free (h : s.step top (.free addr size) = .ok t) :
    ∃ pa, s.ctrl.free (some addr) size = .ok (pa,t.ctrl) ∧
      t.live = s.live.filter (apart addr size) := by
  simp only [step] at h
  obtain ⟨⟨pa,ctrl⟩,hf,h⟩ := bind_ok.mp h
  cases h
  exact ⟨pa,hf,rfl⟩

lemma alloc_exact (hwf : WellFormed s.areas) (h : s.step top (.alloc size) = .ok t) :
    WellFormed t.areas ∧ Effect s t (.alloc size) ↔ AllocFits size s.areas := by
  obtain ⟨addr,hal,hl⟩ := step_alloc h
  obtain ⟨_,pre,cur,post,_,site,_⟩ := allocSub_ok hal
  have hne : s.areas ≠ [] := by
    intro hn
    have hs := site.split
    rw [show s.ctrl.allocatedArea = [] from hn] at hs
    simp at hs
  rw [← alignFits_one_iff hne hwf]
  refine Iff.trans ?_ (allocSub_exact (by decide) hwf hal)
  constructor
  · rintro ⟨hwf',a,ha,hd,hc⟩
    rw [hl] at ha
    obtain rfl : addr = a := congrArg Prod.fst (cons.inj ha).1
    exact ⟨⟨addr,rfl,by simp [powerOfTwo],hd,hc⟩,hwf'⟩
  · rintro ⟨⟨a,ha,_,hd,hc⟩,hwf'⟩
    obtain rfl : addr = a := by simpa using ha
    exact ⟨hwf',addr,hl,hd,hc⟩

lemma step_effect {r : Request} (hwf : WellFormed s.areas) (hp : s.Permitted r)
    (h : s.step top r = .ok t) : WellFormed t.areas ∧ Effect s t r := by
  cases r with
  | alloc size => exact (alloc_exact hwf h).mpr hp
  | free addr size =>
    obtain ⟨pa,hf,_⟩ := step_free h
    exact free_covered hwf rfl hp hf

lemma step_sound {r : Request} (hs : s.Sound) (hp : s.Permitted r)
    (h : s.step top r = .ok t) : t.Sound := by
  obtain ⟨hwf,he⟩ := step_effect hs.wellFormed hp h
  cases r with
  | alloc size =>
    obtain ⟨addr,hl,hd,hc⟩ := he
    refine ⟨hwf,?_,?_⟩
    · intro r hr
      rw [hl] at hr
      rw [hc]
      rcases mem_cons.mp hr with rfl | hr
      · exact Set.subset_union_right
      · exact (hs.held r hr).trans Set.subset_union_left
    · rw [hl]
      refine pairwise_cons.mpr ⟨?_,hs.apart⟩
      intro r hr
      exact hd.mono_right (hs.held r hr)
  | free addr size =>
    obtain ⟨_,_,hl⟩ := step_free h
    have hc : covered t.areas = covered s.areas \ range addr size := he
    refine ⟨hwf,?_,?_⟩
    · intro r hr
      rw [hl] at hr
      obtain ⟨hr,ha⟩ := mem_filter.mp hr
      rw [hc]
      exact Set.subset_sdiff.mpr ⟨hs.held r hr,(apart_disjoint ha).symm⟩
    · rw [hl]
      exact hs.apart.filter _

lemma run_sound (hs : s.Sound)
    (h : Relation.ReflTransGen (Steps top Permitted) s t) : t.Sound := by
  induction h with
  | refl => exact hs
  | tail _ hst ih =>
    obtain ⟨r,hp,hst⟩ := hst
    exact step_sound ih hp hst

lemma merge_neutral (hwf : WellFormed s.areas) (hsi : 0 < size)
    (hft : AllocFits size s.areas) : s.MergeNeutral size := by
  intro i fraged cur hl hc
  have hne : s.areas ≠ [] := by
    intro hn
    rw [hn] at hft
    exact hft
  obtain ⟨pre,cur',post,hs,hp,hst,hfi,hf⟩ := allocLoop_spec 1 size s.areas [] none hne (by simp)
  simp only [nil_append,length_nil,hl] at hs hp hf
  subst hp
  obtain rfl : cur' = cur := by simpa [hs] using hc
  have site : AllocSite (powerOfTwo 0) size s.ctrl.allocatedArea pre cur' post fraged :=
    ⟨hs,hst,hfi,hf⟩
  have hft' : AlignFits (powerOfTwo 0) size s.ctrl.allocatedArea :=
    (alignFits_one_iff hne hwf).mpr hft
  exact (allocSite_merged (by decide) hwf hsi site hft'
    (allocSite_placed (by decide) hwf site hft')).2

end Session

theorem session_run_sound (physMemoryEnd : Word) (c : PhysmemCtrl) (s : Session)
    (hwf : WellFormed c.allocatedArea)
    (hrun : Relation.ReflTransGen (Session.Steps physMemoryEnd Session.Permitted) ⟨c,[]⟩ s) :
    WellFormed s.areas ∧
    s.live.Pairwise (fun p q => Disjoint (range p.1 p.2) (range q.1 q.2)) ∧
    (∀ r ∈ s.live, range r.1 r.2 ⊆ covered s.areas) ∧
    (∀ r t, s.Permitted r → s.step physMemoryEnd r = .ok t →
      WellFormed t.areas ∧ Session.Effect s t r) ∧
    (∀ size, 0 < size → AllocFits size s.areas → s.MergeNeutral size) ∧
    ∀ size t, s.step physMemoryEnd (.alloc size) = .ok t →
      (WellFormed t.areas ∧ Session.Effect s t (.alloc size) ↔ AllocFits size s.areas) := by
  have hst : Session.Sound ⟨c,[]⟩ := ⟨hwf,by simp,.nil⟩
  have hs := Session.run_sound hst hrun
  refine ⟨hs.wellFormed,hs.apart,hs.held,?_,?_,?_⟩
  · intro r t hp h
    exact Session.step_effect hs.wellFormed hp h
  · intro size hsi hf
    exact Session.merge_neutral hs.wellFormed hsi hf
  · intro size t h
    exact Session.alloc_exact hs.wellFormed h

def bootSession : Session := ⟨bootCtrl [⟨0,0,0x600000⟩],[]⟩

theorem session_run_boot :
    ∃ s : Session, s.live = [(0x601000,0x2000),(0x600000,0x1000)] ∧ WellFormed s.areas ∧
      s.live.Pairwise (fun p q => Disjoint (range p.1 p.2) (range q.1 q.2)) := by
  have hr := (Relation.ReflTransGen.single (r := Session.Steps 0x8000000 Session.Permitted)
    (a := bootSession) ⟨.alloc 0x1000,by decide,rfl⟩).tail ⟨.alloc 0x2000,by decide,rfl⟩
  have h := session_run_sound 0x8000000 _ _ (by decide) hr
  exact ⟨_,rfl,h.1,h.2.1⟩

theorem session_overlap : WellFormed bootSession.areas ∧
    ∃ s, Relation.ReflTransGen (Session.Steps 0x8000000 Session.Asked) bootSession s ∧
      s.live = [(0x5ff000,0x2000),(0x601000,0xffffffffffffe000),(0x600000,0x1000)] ∧
      ¬ s.live.Pairwise (fun p q => Disjoint (range p.1 p.2) (range q.1 q.2)) := by
  have hr := ((Relation.ReflTransGen.single (r := Session.Steps 0x8000000 Session.Asked)
    (a := bootSession) ⟨.alloc 0x1000,trivial,rfl⟩).tail
    ⟨.alloc 0xffffffffffffe000,trivial,rfl⟩).tail ⟨.alloc 0x2000,trivial,rfl⟩
  refine ⟨by decide,_,hr,rfl,?_⟩
  intro h
  have hd := (pairwise_cons.mp h).1 (0x600000,0x1000) (by simp)
  have h1 : 0x600000 ∈ range 0x5ff000 0x2000 := by simp [range]
  have h2 : 0x600000 ∈ range 0x600000 0x1000 := by simp [range]
  exact Set.disjoint_left.mp hd h1 h2

end Physmem
