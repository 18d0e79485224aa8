import RaphKernel.Mem.AreaList

namespace Physmem
open Raph Intervals PhysmemCtrl Set

def Inside (areas : List AllocatedArea) (addr size : Word) : Prop :=
  ∃ a ∈ areas, lo a ≤ addr.toNat ∧ addr.toNat + size.toNat ≤ hi a

section
variable {pre mid post : List AllocatedArea} {area : AllocatedArea} {addr size : Word}

lemma remove_covered (ho : WellFormed (pre ++ area :: post))
    (hm : Intervals.Ordered lo hi mid) (hin : ∀ m ∈ mid, lo area ≤ lo m ∧ hi m ≤ hi area)
    (hs : lo area ≤ addr.toNat) (he : addr.toNat + size.toNat ≤ hi area)
    (hc : covered mid = Set.Ico (lo area) (hi area) \ range addr size) :
    WellFormed (pre ++ mid ++ post) ∧
      covered (pre ++ mid ++ post) = covered (pre ++ area :: post) \ range addr size := by
  rw [wellFormed_iff] at ho ⊢
  obtain ⟨hpr,hap,hal⟩ := ordered_append.mp ho
  obtain ⟨har,haf,hpo⟩ := ordered_cons.mp hap
  have hb : ∀ a ∈ pre, hi a ≤ lo area := fun a ha => hal a ha area (by simp)
  refine ⟨ordered_splice hpr hm hpo hb haf hin har,?_⟩
  have hp : Disjoint (covered pre) (range addr size) := by
    rw [disjoint_left]
    intro x hx hr
    have hlt := covered_lt hb hx
    have hge := hr.1
    omega
  have hq : Disjoint (covered post) (range addr size) := by
    rw [disjoint_left]
    intro x hx hr
    have hge := covered_ge haf hx
    have hlt := hr.2
    omega
  unfold covered at hc hp hq ⊢
  rw [covered_append,covered_append,covered_append,
    covered_cons,hc,union_sdiff_distrib,union_sdiff_distrib,
    hp.sdiff_eq_left,hq.sdiff_eq_left,union_assoc]

lemma remove_front (hwf : WellFormed (pre ++ area :: post)) (hs : area.startAddr = addr)
    (he : addr.toNat + size.toNat ≤ hi area)
    (hsu : (addr + size).toNat = addr.toNat + size.toNat) :
    WellFormed (pre ++ [{ area with startAddr := addr + size }] ++ post) ∧
      covered (pre ++ [{ area with startAddr := addr + size }] ++ post) =
        covered (pre ++ area :: post) \ range addr size := by
  have hlo : lo area = addr.toNat := by rw [lo,hs]
  have hn : lo { area with startAddr := addr + size } = addr.toNat + size.toNat := hsu
  apply remove_covered hwf _ _ hlo.le he
  · unfold covered range
    rw [covered_singleton,hn,hlo]
    ext x
    simp only [hi,mem_Ico,mem_sdiff]
    unfold hi at he
    omega
  · rw [ordered_singleton,hn]
    exact he
  · intro m hm
    rw [List.mem_singleton.mp hm,hn]
    exact ⟨by omega,le_rfl⟩

lemma remove_back (hwf : WellFormed (pre ++ area :: post)) (hs : lo area ≤ addr.toNat)
    (hhi : hi area = addr.toNat + size.toNat) :
    WellFormed (pre ++ [{ area with endAddr := addr }] ++ post) ∧
      covered (pre ++ [{ area with endAddr := addr }] ++ post) =
        covered (pre ++ area :: post) \ range addr size := by
  have hn : hi { area with endAddr := addr } = addr.toNat := rfl
  apply remove_covered hwf _ _ hs hhi.ge
  · unfold covered range
    rw [covered_singleton,hn,hhi]
    ext x
    simp only [lo,mem_Ico,mem_sdiff]
    omega
  · rw [ordered_singleton,hn]
    exact hs
  · intro m hm
    rw [List.mem_singleton.mp hm,hn]
    exact ⟨le_rfl,by omega⟩

lemma remove_middle (newarea : ℕ) (hwf : WellFormed (pre ++ area :: post))
    (hs : lo area ≤ addr.toNat) (he : addr.toNat + size.toNat ≤ hi area)
    (hsu : (addr + size).toNat = addr.toNat + size.toNat) :
    WellFormed (pre ++ [{ area with endAddr := addr },⟨newarea,addr + size,area.endAddr⟩] ++ post) ∧
      covered (pre ++ [{ area with endAddr := addr },⟨newarea,addr + size,area.endAddr⟩] ++ post) =
        covered (pre ++ area :: post) \ range addr size := by
  have hlo : lo (⟨newarea,addr + size,area.endAddr⟩ : AllocatedArea) =
      addr.toNat + size.toNat := hsu
  apply remove_covered hwf _ _ hs he
  · unfold covered range
    rw [covered_cons,covered_singleton,hlo]
    ext x
    simp only [lo,hi,mem_union,mem_Ico,mem_sdiff]
    unfold lo at hs
    unfold hi at he
    omega
  · rw [ordered_cons,ordered_singleton,hlo]
    refine ⟨hs,?_,he⟩
    intro b hb
    rw [List.mem_singleton.mp hb,hlo]
    exact Nat.le_add_right _ _
  · intro m hm
    simp only [List.mem_cons,List.not_mem_nil,or_false] at hm
    rcases hm with rfl | rfl
    · exact ⟨le_rfl,(Nat.le_add_right _ _).trans he⟩
    · exact ⟨by rw [hlo]; omega,le_rfl⟩

lemma inside_sum (he : addr.toNat + size.toNat ≤ hi area) :
    (addr + size).toNat = addr.toNat + size.toNat :=
  BitVec.toNat_add_of_lt (he.trans_lt (hi_lt area))

lemma freeFrom_covered {c : PhysmemCtrl} (newarea : ℕ)
    (hsp : c.allocatedArea = pre ++ area :: post) (hwf : WellFormed c.allocatedArea)
    (hst : lo area ≤ addr.toNat) (hen : addr.toNat + size.toNat ≤ hi area) :
    WellFormed (c.freeFrom pre.length area newarea addr size).allocatedArea ∧
      covered (c.freeFrom pre.length area newarea addr size).allocatedArea =
        covered c.allocatedArea \ range addr size := by
  have hsu := inside_sum hen
  rw [hsp] at hwf ⊢
  by_cases hs : area.startAddr = addr
  · have hl : (c.freeFrom pre.length area newarea addr size).allocatedArea =
        pre ++ [{ area with startAddr := addr + size }] ++ post := by
      rw [freeFrom,if_pos hs]
      refine (setStart_at hsp _).trans ?_
      rw [hs]
      simp
    rw [hl]
    exact remove_front hwf hs hen hsu
  · by_cases he : area.endAddr = addr + size
    · have hl : (c.freeFrom pre.length area newarea addr size).allocatedArea =
          pre ++ [{ area with endAddr := addr }] ++ post := by
        rw [freeFrom,if_neg hs,if_pos he]
        refine (setEnd_at hsp _).trans ?_
        simp
      rw [hl]
      exact remove_back hwf hst (by rw [hi,he,hsu])
    · have hl : (c.freeFrom pre.length area newarea addr size).allocatedArea =
          pre ++ [{ area with endAddr := addr },⟨newarea,addr + size,area.endAddr⟩] ++ post := by
        rw [freeFrom,if_neg hs,if_neg he,linkAfter_at (setEnd_at hsp addr)]
        simp
      rw [hl]
      exact remove_middle newarea hwf hst hen hsu

end

lemma contains_iff {addr size : Word} {a : AllocatedArea}
    (hs : (addr + size).toNat = addr.toNat + size.toNat) :
    contains addr size a = true ↔ lo a ≤ addr.toNat ∧ addr.toNat + size.toNat ≤ hi a := by
  simp [contains,BitVec.le_def,hs,lo,hi]

lemma PhysmemCtrl.free_covered {c c' : PhysmemCtrl} {paddr paddr' : PhysAddr} {addr size : Word}
    (hwf : WellFormed c.allocatedArea) (hp : paddr = some addr)
    (hin : Inside c.allocatedArea addr size) (h : c.free paddr size = .ok (paddr',c')) :
    WellFormed c'.allocatedArea ∧
      covered c'.allocatedArea = covered c.allocatedArea \ range addr size := by
  obtain ⟨a,ha,hs,he⟩ := hin
  have hsu := inside_sum he
  subst hp
  simp only [free,kassert_bind_ok] at h
  obtain ⟨_,_,h⟩ := h
  obtain ⟨_,had,h⟩ := bind_ok.mp h
  cases had
  cases hf : c.allocatedArea.findIdx? (contains addr size) with
  | none =>
    have hno := List.findIdx?_eq_none_iff.mp hf a ha
    rw [(contains_iff hsu).mpr ⟨hs,he⟩] at hno
    cases hno
  | some i =>
    obtain ⟨hi,hc,_⟩ := List.findIdx?_eq_some_iff_getElem.mp hf
    obtain ⟨pre,post,hsp,rfl⟩ := Positions.split_at (List.getElem?_eq_getElem hi)
    have hb := (contains_iff hsu).mp hc
    simp only [AreaBuffer.alloc,hf,List.getElem?_eq_getElem hi] at h
    cases h
    exact freeFrom_covered _ hsp hwf hb.1 hb.2

end Physmem
