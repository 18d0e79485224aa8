import RaphKernel.Mem.PagingMap

namespace Paging
open Raph Fields
open Physmem
open RadixTree

inductive LargePage where
  | page2M
  | page1G
  deriving DecidableEq, Repr

namespace LargePage

def depth : LargePage → ℕ
  | page2M => 2
  | page1G => 1

def shift (l : LargePage) : ℕ := leafShift l.depth

def mask : LargePage → Word
  | page2M => 0xFFFFFFFE00000
  | page1G => 0xFFFFFC0000000

def map : LargePage → Word → PagingCtrl → Word → PhysAddr → Word → Word →
    Except Panic (Bool × PagingCtrl)
  | page2M => PagingCtrl.map2MPageToVirtAddr
  | page1G => PagingCtrl.map1GPageToVirtAddr

def entry (l : LargePage) (m : PagingCtrl) (vaddr : Word) : Word :=
  match l with
  | page2M => (m.getTranslationEntries vaddr).pde
  | page1G => (m.getTranslationEntries vaddr).pdpte

def index (l : LargePage) (vaddr : Word) : Index :=
  match l with
  | page2M => getPDIndex vaddr
  | page1G => getPDPTIndex vaddr

def flagBits : Word := pdePresentBit ||| pde2MPageBit

lemma depth_cases (l : LargePage) : l.depth = 1 ∨ l.depth = 2 ∨ l.depth = 3 := by
  cases l
  · exact .inr (.inl rfl)
  · exact .inl rfl

lemma take_index (l : LargePage) (va : Word) :
    (path va).take (l.depth + 1) = (path va).take l.depth ++ [l.index va] := by
  cases l <;> rfl

lemma mask_toNat (l : LargePage) : l.mask.toNat = (2 ^ (52 - l.shift) - 1) * 2 ^ l.shift := by
  cases l <;> decide

lemma masked_iff (l : LargePage) (addr : Word) :
    addr &&& l.mask = addr ↔ 2 ^ l.shift ∣ addr.toNat ∧ addr.toNat < 2 ^ 52 := by
  refine (Fields.masked_iff l.mask_toNat).trans ?_
  cases l <;> rfl

lemma mask_flag (l : LargePage) {flag : Word} (hf : PstFlag flag) : flag &&& l.mask = 0 := by
  refine mask_and ?_ hf.address
  cases l <;> decide

variable {top pst pgf va addr : Word} {m m' : PagingCtrl}

lemma map_true {l : LargePage} (hok : TreeOk top m) (hf : PstFlag pst)
    (h : l.map top m va (some addr) pst pgf = .ok (true,m')) :
    Landed top pst 2 m m' ((path va).take l.depth) (l.index va)
      (addr ||| pst ||| flagBits) := by
  cases l with
  | page2M =>
    have hl := map2M_true pgf hok hf h
    rwa [BitVec.or_assoc _ _ pde2MPageBit] at hl
  | page1G =>
    obtain ⟨⟨m₁,page,hd,hs⟩⟩ := map1G_true pgf hok hf h
    rw [BitVec.or_assoc _ _ pdpte1GPageBit] at hs
    exact ⟨m₁,page,⟨hd.grown_le (by decide),hd.place⟩,hs⟩

lemma landed_entry {l : LargePage} {e : Word} {n : ℕ}
    (hl : Landed top pst n m m' ((path va).take l.depth) (l.index va) e) :
    l.entry m' va = e := by
  obtain ⟨page,hp,he⟩ := hl.entry
  cases l with
  | page2M => exact (PagingCtrl.getTranslationEntries_pde hp).trans he
  | page1G => exact (PagingCtrl.getTranslationEntries_pdpte hp).trans he

lemma view_leaf (l : LargePage) (x : Word) : view l.depth (x ||| flagBits) = .leaf := by
  have hp : (x ||| flagBits) &&& pml4ePresentBit ≠ 0 := by
    rw [flagBits,BitVec.or_comm pdePresentBit,← BitVec.or_assoc]
    exact bit_or (by decide) _
  have hs : (x ||| flagBits) &&& pde2MPageBit ≠ 0 := by
    rw [flagBits,← BitVec.or_assoc]
    exact bit_or (by decide) _
  apply view_leaf_of_large _ hp hs
  cases l
  · exact .inr rfl
  · exact .inl rfl

lemma base_eq (l : LargePage) (hf : PstFlag pst) :
    base l.depth (addr ||| pst ||| flagBits) = addr &&& l.mask := by
  have hs : (addr ||| pst ||| flagBits) &&& pde2MPageBit ≠ 0 := by
    rw [flagBits,← BitVec.or_assoc]
    exact bit_or (by decide) _
  have hm : (addr ||| pst ||| flagBits) &&& l.mask = addr &&& l.mask := by
    rw [BitVec.and_or_distrib_right,BitVec.and_or_distrib_right,l.mask_flag hf,
      show flagBits &&& l.mask = 0 by cases l <;> decide]
    simp
  rw [← hm]
  cases l
  · exact if_neg hs
  · exact if_neg hs

lemma map_translate {l : LargePage} (hok : TreeOk top m) (hf : PstFlag pst)
    (hv : 2 ^ l.shift ∣ va.toNat)
    (h : l.map top m va (some addr) pst pgf = .ok (true,m')) (a : Word) :
    m'.translate a = if span va a < 2 ^ l.shift then
      some ((addr &&& l.mask) + BitVec.ofNat 64 (span va a)) else m.translate a := by
  have hb : 2 ^ l.shift ∣ (base l.depth (addr ||| pst ||| flagBits)).toNat := by
    rw [base_eq l hf,Fields.mask_toNat addr l.mask_toNat]
    exact Nat.dvd_mul_left _ _
  rw [landed_translate l.depth_cases hv (l.take_index va) (map_true hok hf h) (l.view_leaf _)
    hb,base_eq l hf]
  rfl

lemma leaf_flags_iff {l : LargePage} (hf : PstFlag pst) (hp : pgf &&& l.mask = 0)
    (ha : addr &&& l.mask = addr) :
    addr ||| pst ||| flagBits = addr ||| pgf ||| flagBits ↔
      pst ||| flagBits = pgf ||| flagBits := by
  have hb : flagBits &&& l.mask = 0 := by cases l <;> decide
  rw [BitVec.or_assoc,BitVec.or_assoc]
  constructor
  · exact or_cancel ha (zero_or (l.mask_flag hf) hb) (zero_or hp hb)
  · intro h
    rw [h]

lemma map_entries {l : LargePage} (hok : TreeOk top m) (hf : PstFlag pst)
    (h : l.map top m va (some addr) pst pgf = .ok (true,m')) (p : Word)
    (i : Index) (hp : m.InTree p) : m'.tables p i = m.tables p i ∨
      m.tables p i &&& pml4ePresentBit = 0 ∧ ((∃ q, ¬ m.InTree q ∧ m'.tables p i = link q pst) ∨
          m'.tables p i = l.entry m' va) := by
  have hl := map_true hok hf h
  rcases hl.entries p i hp with hs | ⟨ha,hli | ⟨hpl,rfl⟩⟩
  · exact .inl hs
  · exact .inr ⟨ha,.inl hli⟩
  · obtain ⟨page,hpa,he⟩ := hl.entry
    obtain rfl := Option.some.inj (hpa.symm.trans hpl)
    exact .inr ⟨ha,.inr (he.trans (landed_entry hl).symm)⟩

lemma linear_iff {l : LargePage} (hok : TreeOk top m) (hf : PstFlag pst)
    (hv : 2 ^ l.shift ∣ va.toNat)
    (h : l.map top m va (some addr) pst pgf = .ok (true,m')) :
    (∀ a, va.toNat ≤ a.toNat → a.toNat < va.toNat + 2 ^ l.shift →
      m'.translate a = some (addr + (a - va))) ↔ addr &&& l.mask = addr := by
  have hsh : l.shift ≤ 48 := by cases l <;> decide
  constructor
  · intro hal
    obtain ⟨hs,ho⟩ := span_inside hsh (le_refl va.toNat)
      (Nat.lt_add_of_pos_right (Nat.two_pow_pos l.shift))
    have ha := hal va le_rfl (Nat.lt_add_of_pos_right (Nat.two_pow_pos l.shift))
    rw [map_translate hok hf hv h,if_pos hs,ho,BitVec.sub_self] at ha
    simpa using ha
  · intro ha a hlo hhi
    obtain ⟨hs,ho⟩ := span_inside hsh hlo hhi
    rw [map_translate hok hf hv h,if_pos hs,ho,ha]

end LargePage

theorem map_large_exact (l : LargePage) (physMemoryEnd : Word) (m m' : PagingCtrl)
    (vaddr paddr pstFlag pageFlag : Word) (htree : TreeOk physMemoryEnd m)
    (hv : 2 ^ l.shift ∣ vaddr.toNat) (hp : 2 ^ l.shift ∣ paddr.toNat) (hpst : PstFlag pstFlag)
    (hpage : pageFlag &&& l.mask = 0)
    (h : l.map physMemoryEnd m vaddr (some paddr) pstFlag pageFlag = .ok (true,m')) :
    (∀ a, page l.shift a ≠ page l.shift vaddr →
      m'.convertVirtMemToPhysMem a none = m.convertVirtMemToPhysMem a none) ∧
    (∀ p i, m.InTree p → m'.tables p i = m.tables p i ∨ m.tables p i &&& pml4ePresentBit = 0 ∧
      ((∃ q, ¬ m.InTree q ∧ m'.tables p i = link q pstFlag) ∨ m'.tables p i = l.entry m' vaddr)) ∧
    ((∀ a, vaddr.toNat ≤ a.toNat → a.toNat < vaddr.toNat + 2 ^ l.shift →
        m'.convertVirtMemToPhysMem a none = .ok (some (paddr + (a - vaddr)))) ∧
      l.entry m' vaddr = paddr ||| pageFlag ||| LargePage.flagBits ↔
    paddr.toNat < 2 ^ 52 ∧ pstFlag ||| LargePage.flagBits = pageFlag ||| LargePage.flagBits) := by
  simp only [PagingCtrl.convertVirtMemToPhysMem_eq,Except.ok.injEq]
  refine ⟨?_,LargePage.map_entries htree hpst h,?_⟩
  · intro a ha
    have hs : ¬ span vaddr a < 2 ^ l.shift := fun hs =>
      ha ((span_lt_iff l.depth_cases hv a).mp hs)
    rw [LargePage.map_translate htree hpst hv h,if_neg hs]
  · rw [LargePage.linear_iff htree hpst hv h,
      LargePage.landed_entry (LargePage.map_true htree hpst h)]
    constructor
    · rintro ⟨hm,hl⟩
      exact ⟨((l.masked_iff paddr).mp hm).2,(LargePage.leaf_flags_iff hpst hpage hm).mp hl⟩
    · rintro ⟨hlt,hf⟩
      have hm := (l.masked_iff paddr).mpr ⟨hp,hlt⟩
      exact ⟨hm,(LargePage.leaf_flags_iff hpst hpage hm).mpr hf⟩

theorem map_large_exact_boot :
    ∃ m', LargePage.page2M.map 0x8000000 bootPaging 0x400000 (some 0x600000) 6 6 = .ok (true,m') ∧
      m'.convertVirtMemToPhysMem 0x412345 none = .ok (some 0x612345) ∧
      (m'.getTranslationEntries 0x400000).pde = 0x600087 := by
  refine ⟨_,rfl,?_⟩
  have h := map_large_exact .page2M 0x8000000 bootPaging _ 0x400000 0x600000 6 6 bootPaging_ok
    (by decide) (by decide) ⟨by decide,by decide⟩ (by decide) rfl
  obtain ⟨hli,hl⟩ := h.2.2.mpr (by decide)
  exact ⟨hli 0x412345 (by decide) (by decide),hl⟩

theorem map_large_flags :
    TreeOk 0x8000000 bootPaging ∧ PstFlag 6 ∧ (0x106 : Word) &&& addressMask = 0 ∧
    (∃ m', bootPaging.map2MPageToVirtAddr 0x8000000 0x400000 (some 0x600000) 6 0x106 =
        .ok (true,m') ∧ (m'.getTranslationEntries 0x400000).pde = 0x600087 ∧
      (0x600087 : Word) ≠ 0x600000 ||| 0x106 ||| LargePage.flagBits) ∧
    ∃ m', bootPaging.map1GPageToVirtAddr 0x8000000 0x40000000 (some 0) 6 0x106 = .ok (true,m') ∧
      (m'.getTranslationEntries 0x40000000).pdpte = 0x87 ∧
      (0x87 : Word) ≠ 0 ||| 0x106 ||| LargePage.flagBits :=
  ⟨bootPaging_ok,⟨by decide,by decide⟩,by decide,⟨_,rfl,rfl,by decide⟩,_,rfl,rfl,by decide⟩

end Paging
