import RaphKernel.Mem.PagingMap

namespace Paging
open Raph
open Physmem
open RadixTree

structure Blank (physMemoryEnd : Word) (m : PagingCtrl) (page : Word) : Prop where
  zero : ∀ i, m.tables page i = 0
  masked : ∀ n q, handed physMemoryEnd n m.physmem = some q → q &&& addressMask = q
  distinct : ∀ i j q, handed physMemoryEnd i m.physmem = some q →
    handed physMemoryEnd j m.physmem = some q → i = j
  apart : ∀ n, handed physMemoryEnd n m.physmem ≠ some page

inductive Stage (physMemoryEnd : Word) (m : PagingCtrl) (pre : List Index) (page : Word) :
    PagingCtrl → Prop
  | kept : m.tableOn pre = some page → Stage physMemoryEnd m pre page m
  | blank {m₁ : PagingCtrl} : Blank physMemoryEnd m₁ page → Stage physMemoryEnd m pre page m₁

section
variable {top pst page e : Word} {m m₁ m₂ : PagingCtrl} {pre : List Index} {i : Index}

lemma blank_attach {q : Word} {physmem : PhysmemCtrl}
    (hal : m.physmem.alloc top none kPageSize = .ok (some q,physmem))
    (hm : ∀ n r, handed top n m.physmem = some r → r &&& addressMask = r)
    (hd : ∀ i j r, handed top i m.physmem = some r →
      handed top j m.physmem = some r → i = j) (hne : q ≠ page) :
    Blank top ⟨attach m.tables page i q 0 (link q pst),m.pml4t,physmem⟩ q := by
  have hz := handed_zero hal
  have hs := handed_succ hal
  refine ⟨fun j => ?_,fun n r hr => ?_,fun a b r ha hb => ?_,fun n hn => ?_⟩
  · exact (write_other _ _ (.inl hne)).trans (clear_here _ _ _ _)
  · exact hm _ r ((hs n).trans hr)
  · exact Nat.succ.inj (hd (a + 1) (b + 1) r ((hs a).trans ha) ((hs b).trans hb))
  · exact Nat.succ_ne_zero n (hd (n + 1) 0 q ((hs n).trans hn) hz)

lemma Stage.entry (hs : Stage top m pre page m₁) (hfresh : FreshPages top m)
    (h : m₁.tableEntry top page i pst pml4ePresentBit = .ok (e,m₂)) :
    m₂ = m ∧ m.tableOn pre = some page ∧ e = m.tables page i ∧ e &&& pml4ePresentBit ≠ 0 ∨
      ∃ q, q &&& addressMask = q ∧ e = link q pst ∧ Blank top m₂ q := by
  cases hs with
  | kept hpl =>
    obtain ⟨hp,rfl,rfl⟩ | ⟨_,q,physmem,ha,rfl,rfl⟩ := tableEntry_cases h
    · exact .inl ⟨rfl,hpl,rfl,hp⟩
    · have hz := handed_zero ha
      have hne : q ≠ page := by
        rintro rfl
        exact hfresh.apart 0 q hz ⟨pre,hpl⟩
      exact .inr ⟨q,hfresh.masked 0 q hz,rfl,blank_attach ha hfresh.masked hfresh.distinct hne⟩
  | blank hb =>
    obtain ⟨hp,_⟩ | ⟨_,q,physmem,ha,rfl,rfl⟩ := tableEntry_cases h
    · rw [hb.zero] at hp
      exact absurd BitVec.zero_and hp
    · have hz := handed_zero ha
      have hne : q ≠ page := fun heq => hb.apart 0 (heq ▸ hz)
      exact .inr ⟨q,hb.masked 0 q hz,rfl,blank_attach ha hb.masked hb.distinct hne⟩

lemma Stage.present (hs : Stage top m pre page m₁)
    (hp : m₁.tables page i &&& pml4ePresentBit ≠ 0) : m₁ = m ∧ m.tableOn pre = some page := by
  cases hs with
  | kept hpl => exact ⟨rfl,hpl⟩
  | blank hb =>
    rw [hb.zero] at hp
    exact absurd BitVec.zero_and hp

lemma Stage.first (hfresh : FreshPages top m) (hf : PstFlag pst)
    (h : m.tableEntry top m.pml4t i pst pml4ePresentBit = .ok (e,m₁)) :
    Stage top m [i] (getPML4EMaskedAddr e) m₁ := by
  have hr : Stage top m [] m.pml4t m := .kept rfl
  obtain ⟨rfl,hpl,rfl,hp⟩ | ⟨q,hq,rfl,hb⟩ := hr.entry hfresh h
  · exact .kept (tableAt_snoc hpl (if_neg hp))
  · have hm : getPML4EMaskedAddr (link q pst) = q := link_masked hq hf
    rw [hm]
    exact .blank hb

lemma Stage.next (hs : Stage top m pre page m₁) (hfresh : FreshPages top m)
    (hf : PstFlag pst) (hle : pre.length = 1 ∨ pre.length = 2)
    (h : m₁.tableEntry top page i pst pml4ePresentBit = .ok (e,m₂)) :
    e &&& pde2MPageBit ≠ 0 ∧ m₂ = m ∧ (∀ rest, (m.leafOn (pre ++ i :: rest)).isSome = true) ∨
      e &&& pde2MPageBit = 0 ∧ Stage top m (pre ++ [i]) (e &&& addressMask) m₂ := by
  obtain ⟨rfl,hpl,rfl,hp⟩ | ⟨q,hq,rfl,hb⟩ := hs.entry hfresh h
  · rcases eq_or_ne (m₂.tables page i &&& pde2MPageBit) 0 with hsm | hl
    · exact .inr ⟨hsm,.kept (tableAt_snoc hpl (view_table_of_small hle hp hsm))⟩
    · exact .inl ⟨hl,rfl,fun rest =>
        congrArg Option.isSome (leaf_walk hpl (view_leaf_of_large hle hp hl) rest)⟩
  · refine .inr ⟨link_pageSize hq hf,?_⟩
    rw [link_masked hq hf]
    exact .blank hb

end

section
variable {top pst pgf va : Word} {m m' : PagingCtrl} {paddr : PhysAddr}

section
variable (hfresh : FreshPages top m) (hf : PstFlag pst)
include hfresh hf

lemma map4K_false
    (h : m.map4KPageToVirtAddr top va paddr pst pgf = .ok (false,m')) :
    m' = m := by
  obtain ⟨⟨e0,m0⟩,h0,h⟩ := bind_ok.mp h
  have s0 := Stage.first hfresh hf h0
  obtain ⟨⟨e1,m1⟩,h1,h⟩ := bind_ok.mp h
  dsimp only at h
  obtain ⟨hs,hsa,_⟩ | ⟨hs,s1⟩ := s0.next hfresh hf (.inl rfl) h1
  · rw [if_pos (show e1 &&& pdpte1GPageBit ≠ 0 from hs)] at h
    cases h
    exact hsa
  · rw [if_neg (show ¬ e1 &&& pdpte1GPageBit ≠ 0 from not_not.mpr hs),
      show getPDPTEMaskedAddr e1 = e1 &&& addressMask from if_pos hs] at h
    obtain ⟨⟨e2,m2⟩,h2,h⟩ := bind_ok.mp h
    dsimp only at h
    obtain ⟨hs,hsa,_⟩ | ⟨hs,s2⟩ := s1.next hfresh hf (.inr rfl) h2
    · rw [if_pos hs] at h
      cases h
      exact hsa
    · rw [if_neg (not_not.mpr hs),show getPDEMaskedAddr e2 = e2 &&& addressMask from if_pos hs] at h
      split at h
      · obtain ⟨addr,_,h⟩ := bind_ok.mp h
        cases h
      · rename_i hp
        cases h
        exact (s2.present hp).1

lemma map2M_false
    (h : m.map2MPageToVirtAddr top va paddr pst pgf = .ok (false,m')) :
    m' = m ∧ ((m.leafOn (path va)).isSome = true ∨
      (m.tableOn ((path va).take 3)).isSome = true) := by
  obtain ⟨⟨e0,m0⟩,h0,h⟩ := bind_ok.mp h
  have s0 := Stage.first hfresh hf h0
  obtain ⟨⟨e1,m1⟩,h1,h⟩ := bind_ok.mp h
  dsimp only at h
  obtain ⟨hs,hsa,hl⟩ | ⟨hs,s1⟩ := s0.next hfresh hf (.inl rfl) h1
  · rw [if_pos (show e1 &&& pdpte1GPageBit ≠ 0 from hs)] at h
    cases h
    exact ⟨hsa,.inl (hl [getPDIndex va,getPTIndex va])⟩
  · rw [if_neg (show ¬ e1 &&& pdpte1GPageBit ≠ 0 from not_not.mpr hs),
      show getPDPTEMaskedAddr e1 = e1 &&& addressMask from if_pos hs] at h
    split at h
    · rename_i hp
      cases h
      obtain ⟨hsa,hpl⟩ := s1.present hp
      refine ⟨hsa,?_⟩
      rw [hsa] at hp
      rcases eq_or_ne (m.tables (e1 &&& addressMask) (getPDIndex va) &&& pde2MPageBit) 0 with
        hsm | hla
      · exact .inr (congrArg Option.isSome
          (tableAt_snoc hpl (view_table_of_small (.inr rfl) hp hsm)))
      · exact .inl (congrArg Option.isSome
          (leaf_walk hpl (view_leaf_of_large (.inr rfl) hp hla) [getPTIndex va]))
    · obtain ⟨addr,_,h⟩ := bind_ok.mp h
      cases h

lemma map1G_false
    (h : m.map1GPageToVirtAddr top va paddr pst pgf = .ok (false,m')) :
    m' = m := by
  obtain ⟨addr,_,h⟩ := bind_ok.mp h
  obtain ⟨⟨e0,m0⟩,h0,h⟩ := bind_ok.mp (kassert_bind_ok.mp h).2
  have s0 := Stage.first hfresh hf h0
  dsimp only at h
  split at h
  · rename_i hp
    cases h
    exact (s0.present hp).1
  · cases h

end

theorem map_false_unchanged {physMemoryEnd pstFlag vaddr pageFlag : Word}
    (hfresh : FreshPages physMemoryEnd m) (hf : PstFlag pstFlag)
    (h : m.map4KPageToVirtAddr physMemoryEnd vaddr paddr pstFlag pageFlag = .ok (false,m') ∨
      m.map2MPageToVirtAddr physMemoryEnd vaddr paddr pstFlag pageFlag = .ok (false,m') ∨
      m.map1GPageToVirtAddr physMemoryEnd vaddr paddr pstFlag pageFlag = .ok (false,m')) :
    m'.tables = m.tables ∧ m'.pml4t = m.pml4t ∧ m'.physmem = m.physmem := by
  have hs : m' = m := by
    rcases h with h | h | h
    · exact map4K_false hfresh hf h
    · exact (map2M_false hfresh hf h).1
    · exact map1G_false hfresh hf h
  rw [hs]
  exact ⟨rfl,rfl,rfl⟩

theorem map_false_mapped :
    ∃ m, bootPaging.map4KPageToVirtAddr 0x8000000 0x400000 (some 0x700000) 6 6 = .ok (true,m) ∧
      ∃ m', m.map4KPageToVirtAddr 0x8000000 0x400000 (some 0x700000) 6 6 = .ok (false,m') ∧
        m'.tables = m.tables ∧ m'.pml4t = m.pml4t ∧ m'.physmem = m.physmem := by
  have hm : ∃ m, bootPaging.map4KPageToVirtAddr 0x8000000 0x400000 (some 0x700000) 6 6 =
      .ok (true,m) ∧ ∃ m', m.map4KPageToVirtAddr 0x8000000 0x400000 (some 0x700000) 6 6 =
        .ok (false,m') := ⟨_,rfl,_,rfl⟩
  obtain ⟨m,hfi,m',ha⟩ := hm
  have hf : PstFlag 6 := ⟨by decide,by decide⟩
  obtain ⟨hb,_⟩ | ⟨_,hl⟩ := map4K_cases bootPaging_ok hf hfi
  · cases hb
  have hok := (landed_map4K (by decide) (by decide) (by decide) (by decide) hl).ok
  exact ⟨m,hfi,m',ha,map_false_unchanged hok.fresh hf (.inl ha)⟩

def dirtyPaging : PagingCtrl :=
  ⟨fun page _ => if page = 0x601000 then 0x81 else 0,0x1000,bootCtrl [⟨0,0,0x600000⟩]⟩

theorem map4K_flag_address : FreshPages 0x8000000 dirtyPaging ∧ (0x1000 : Word) &&& pde2MPageBit = 0 ∧
    ∃ m', dirtyPaging.map4KPageToVirtAddr 0x8000000 0 (some 0x700000) 0x1000 6 = .ok (false,m') ∧
      dirtyPaging.tables 0x1000 0 = 0 ∧ m'.tables 0x1000 0 = 0x601001 ∧
      m'.physmem.allocatedArea = [⟨0,0,0x601000⟩] := by
  have hr {path : List Index} {page : Word} (h : dirtyPaging.tableOn path = some page) :
      path = [] ∧ page = 0x1000 := blank_tableAt view_zero_absent (fun _ => rfl) h
  have hok : TreeOk 0x8000000 dirtyPaging := by
    refine treeOk_of_paged (by decide) ?_ ⟨by decide,by decide⟩ ?_
    · intro page path other hp ho
      rw [(hr hp).1,(hr ho).1]
    · rintro page ⟨path,hpa⟩
      rw [(hr hpa).2]
      simp [dirtyPaging,bootCtrl,covered,Intervals.covered_singleton,lo,hi]
  exact ⟨hok.fresh,by decide,_,rfl,rfl,rfl,rfl⟩

end

end Paging
