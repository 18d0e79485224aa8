import RaphKernel.Library.Fields
import RaphKernel.Mem.Paging
import RaphKernel.Mem.PhysmemPages

namespace Paging
open Raph Nat List Fields
open Physmem
open RadixTree

def view : ℕ → Word → Slot Word
  | 0, e => if e &&& pml4ePresentBit = 0 then .absent else .table (getPML4EMaskedAddr e)
  | 1, e =>
    if e &&& pdptePresentBit = 0 then .absent
    else if e &&& pdpte1GPageBit ≠ 0 then .leaf else .table (getPDPTEMaskedAddr e)
  | 2, e =>
    if e &&& pdePresentBit = 0 then .absent
    else if e &&& pde2MPageBit ≠ 0 then .leaf else .table (getPDEMaskedAddr e)
  | 3, e => if e &&& ptePresentBit = 0 then .absent else .leaf
  | _, _ => .absent

def path (vaddr : Word) : List Index :=
  [getPML4TIndex vaddr,getPDPTIndex vaddr,getPDIndex vaddr,getPTIndex vaddr]

def frame : ℕ → Word → Word → Word
  | 1, e, vaddr => getPDPTEMaskedAddr e ||| get1GPageOffset vaddr
  | 2, e, vaddr => getPDEMaskedAddr e ||| get2MPageOffset vaddr
  | _, e, vaddr => getPTEMaskedAddr e ||| get4KPageOffset vaddr

def TranslationEntries.leaf (e : TranslationEntries) (vaddr : Word) : Option Word :=
  if e.pml4e &&& pml4ePresentBit = 0 ∨ e.pdpte &&& pdptePresentBit = 0 then none
  else if e.pdpte &&& pdpte1GPageBit ≠ 0 then
    some (e.pdpte &&& 0xFFFFFC0000000 ||| get1GPageOffset vaddr)
  else if e.pde &&& pdePresentBit = 0 then none
  else if e.pde &&& pde2MPageBit ≠ 0 then
    some (e.pde &&& 0xFFFFFFFE00000 ||| get2MPageOffset vaddr)
  else if e.pte &&& ptePresentBit = 0 then none
  else some (e.pte &&& 0xFFFFFFFFFF000 ||| get4KPageOffset vaddr)

namespace PagingCtrl

def leafOn (m : PagingCtrl) (path : List Index) : Option (ℕ × Word) :=
  walk view m.tables 0 m.pml4t path

def tableOn (m : PagingCtrl) (path : List Index) : Option Word :=
  tableAt view m.tables 0 m.pml4t path

def InTree (m : PagingCtrl) (page : Word) : Prop := Reaches view m.tables m.pml4t page

def translate (m : PagingCtrl) (vaddr : Word) : Option Word :=
  (m.leafOn (path vaddr)).map (fun l => frame l.1 l.2 vaddr)

lemma convertVirtMemToPhysMem_eq (m : PagingCtrl) (va : Word) :
    m.convertVirtMemToPhysMem va none = .ok (m.translate va) := by
  simp only [convertVirtMemToPhysMem,translate,leafOn,path,walk,view]
  split_ifs <;> simp_all [frame,PhysAddr.setAddr,kassert,bind,Except.bind,pure,Except.pure]

section
open TranslationEntries

theorem walkers_agree (m : PagingCtrl) (va : Word) (pa : PhysAddr) :
    let e := m.getTranslationEntries va
    m.isVirtAddrMapped va = (e.leaf va).isSome ∧
      m.convertVirtMemToPhysMem va pa = (e.leaf va).elim (.ok pa) (PhysAddr.setAddr pa) ∧
      (e.pml4e &&& pml4ePresentBit = 0 → e.pdpte = 0) ∧
      (e.pdpte &&& pdptePresentBit = 0 ∨ e.pdpte &&& pdpte1GPageBit ≠ 0 → e.pde = 0) ∧
      (e.pde &&& pdePresentBit = 0 ∨ e.pde &&& pde2MPageBit ≠ 0 → e.pte = 0) := by
  simp only [isVirtAddrMapped,convertVirtMemToPhysMem,getTranslationEntries]
  generalize m.tables m.pml4t _ = e₁
  generalize m.tables (getPML4EMaskedAddr e₁) _ = e₂
  generalize m.tables (getPDPTEMaskedAddr e₂) _ = e₃
  generalize m.tables (getPDEMaskedAddr e₃) _ = e₄
  by_cases h₁ : e₁ &&& pml4ePresentBit = 0#64
  · simp [h₁,leaf]
  by_cases h₂ : e₂ &&& pdptePresentBit = 0#64
  · simp [h₁,h₂,leaf]
  by_cases hs : e₂ &&& pdpte1GPageBit = 0#64
  · by_cases h₃ : e₃ &&& pdePresentBit = 0#64
    · simp [h₁,h₂,hs,h₃,leaf]
    by_cases ht : e₃ &&& pde2MPageBit = 0#64
    · by_cases h₄ : e₄ &&& ptePresentBit = 0#64 <;>
        simp [h₁,h₂,hs,h₃,ht,h₄,leaf,getPTEMaskedAddr]
    · simp [h₁,h₂,hs,h₃,ht,leaf,getPDEMaskedAddr]
  · simp [h₁,h₂,hs,leaf,getPDPTEMaskedAddr]

end

lemma view_zero_table {e page : Word} (h : view 0 e = .table page) :
    e &&& pml4ePresentBit ≠ 0 ∧ getPML4EMaskedAddr e = page := by
  simp only [view] at h
  split_ifs at h with hp
  exact ⟨hp,Slot.table.inj h⟩

lemma view_one_table {e page : Word} (h : view 1 e = .table page) :
    e &&& pdptePresentBit ≠ 0 ∧ e &&& pdpte1GPageBit = 0 ∧ getPDPTEMaskedAddr e = page := by
  simp only [view] at h
  split_ifs at h with hp hs
  exact ⟨hp,not_not.mp hs,Slot.table.inj h⟩

lemma tableOn_one {m : PagingCtrl} {i : Index} {page : Word} (h : m.tableOn [i] = some page) :
    view 0 (m.tables m.pml4t i) = .table page := by
  simp only [tableOn,tableAt] at h
  split at h <;> simp_all

lemma tableOn_two {m : PagingCtrl} {i j : Index} {page : Word} (h : m.tableOn [i,j] = some page) :
    ∃ q, view 0 (m.tables m.pml4t i) = .table q ∧ view 1 (m.tables q j) = .table page := by
  simp only [tableOn,tableAt] at h
  split at h
  · cases h
  · cases h
  · split at h <;> simp_all

lemma getTranslationEntries_pdpte {m : PagingCtrl} {va page : Word}
    (h : m.tableOn [getPML4TIndex va] = some page) :
    (m.getTranslationEntries va).pdpte = m.tables page (getPDPTIndex va) := by
  obtain ⟨hp,rfl⟩ := view_zero_table (tableOn_one h)
  simp only [getTranslationEntries,if_neg hp]
  split_ifs <;> rfl

lemma getTranslationEntries_pde {m : PagingCtrl} {va page : Word}
    (h : m.tableOn [getPML4TIndex va,getPDPTIndex va] = some page) :
    (m.getTranslationEntries va).pde = m.tables page (getPDIndex va) := by
  obtain ⟨q,hq,hv⟩ := tableOn_two h
  obtain ⟨hp,rfl⟩ := view_zero_table hq
  obtain ⟨hp1,hs1,rfl⟩ := view_one_table hv
  simp only [getTranslationEntries,if_neg hp,hp1,hs1,ne_eq,not_true_eq_false,or_self,if_false]
  split_ifs <;> rfl

end PagingCtrl

lemma isVirtAddrMapped_eq (m : PagingCtrl) (va : Word) :
    m.isVirtAddrMapped va = (m.leafOn (path va)).isSome := by
  simp only [PagingCtrl.isVirtAddrMapped,PagingCtrl.leafOn,path,walk,view]
  split_ifs <;> simp_all

lemma translate_isSome (m : PagingCtrl) (va : Word) :
    (m.translate va).isSome = (m.leafOn (path va)).isSome := Option.isSome_map

def page (k : ℕ) (vaddr : Word) : ℕ := vaddr.toNat % 2 ^ 48 / 2 ^ k

lemma index_toNat (addr : Word) (s : ℕ) :
    (((addr >>> s) &&& 0x1ff).setWidth 9).toNat = addr.toNat / 2 ^ s % 512 := by
  have h : ((addr >>> s) &&& (0x1ff : Word)).toNat = (addr >>> s).toNat / 2 ^ 0 % 2 ^ 9 * 2 ^ 0 :=
    mask_toNat _ (by decide)
  rw [BitVec.toNat_setWidth,h,BitVec.toNat_ushiftRight,shiftRight_eq_div_pow]
  simp

lemma page_step {k : ℕ} (hk : k + 9 ≤ 48) (a b : Word) : page k a = page k b ↔
      page (k + 9) a = page (k + 9) b ∧ a.toNat / 2 ^ k % 512 = b.toNat / 2 ^ k % 512 := by
  have hh (x : Word) : page (k + 9) x = page k x / 512 := by
    rw [page,page,Nat.pow_add,Nat.div_div_eq_div_mul]
  have hl (x : Word) : x.toNat / 2 ^ k % 512 = page k x % 512 := by
    have he : 2 ^ 48 = 2 ^ k * (512 * 2 ^ (39 - k)) := by
      rw [show 512 = 2 ^ 9 from rfl,← Nat.pow_add,← Nat.pow_add]
      congr 1
      omega
    rw [page,he,Nat.mod_mul_right_div_self,Nat.mod_mod_of_dvd _ (Nat.dvd_mul_right 512 _)]
  rw [hh,hh,hl,hl]
  omega

lemma page_root (a b : Word) :
    page 39 a = page 39 b ↔ a.toNat / 2 ^ 39 % 512 = b.toNat / 2 ^ 39 % 512 := by
  have hr (x : Word) : page 39 x = x.toNat / 2 ^ 39 % 512 := mod_mul_right_div_self _ (2 ^ 39) 512
  rw [hr,hr]

lemma path_four_iff (va addr : Word) :
    path va <+: path addr ↔ page 12 addr = page 12 va := by
  rw [eq_comm,page_step (by decide),page_step (by decide),page_step (by decide),page_root]
  simp only [path,cons_prefix_cons,getPML4TIndex,getPDPTIndex,getPDIndex,getPTIndex,
    ← BitVec.toNat_inj,index_toNat, nil_prefix,and_true,and_assoc]

lemma path_eq {a b : Word} (h : page 12 b = page 12 a) : path a = path b := by
  have hl (x : Word) : (path x).length = 4 := rfl
  exact ((path_four_iff a b).mpr h).eq_of_length ((hl a).trans (hl b).symm)

lemma path_three_iff (va addr : Word) :
    (path va).take 3 <+: path addr ↔ page 21 addr = page 21 va := by
  rw [eq_comm,page_step (by decide),page_step (by decide),page_root]
  simp only [path,take,cons_prefix_cons,getPML4TIndex,getPDPTIndex,getPDIndex,
    ← BitVec.toNat_inj,index_toNat, nil_prefix,and_true,and_assoc]

lemma path_two_iff (va addr : Word) :
    (path va).take 2 <+: path addr ↔ page 30 addr = page 30 va := by
  rw [eq_comm,page_step (by decide),page_root]
  simp only [path,take,cons_prefix_cons,getPML4TIndex,getPDPTIndex,
    ← BitVec.toNat_inj,index_toNat, nil_prefix,and_true]

def addressMask : Word := 0xFFFFFFFFFF000

structure PstFlag (flag : Word) : Prop where
  address : flag &&& addressMask = 0
  pageSize : flag &&& pde2MPageBit = 0

lemma masked_pageSize {q : Word} (hq : q &&& addressMask = q) : q &&& pde2MPageBit = 0 := by
  rw [← hq,BitVec.and_assoc,show addressMask &&& pde2MPageBit = 0 by decide]
  exact BitVec.and_zero

section
variable {q flag : Word}

def link (q flag : Word) : Word := q ||| flag ||| pml4ePresentBit

lemma link_present (q flag : Word) : link q flag &&& pml4ePresentBit ≠ 0 :=
  bit_or (by decide) _

lemma link_masked (hq : q &&& addressMask = q) (hf : PstFlag flag) :
    link q flag &&& addressMask = q := by
  rw [link,BitVec.or_assoc]
  exact masked_or hq (zero_or hf.address (by decide))

lemma link_pageSize (hq : q &&& addressMask = q) (hf : PstFlag flag) :
    link q flag &&& pde2MPageBit = 0 :=
  zero_or (zero_or (masked_pageSize hq) hf.pageSize) (by decide)

lemma view_absent_iff {d : ℕ} (hd : d ≤ 3) (e : Word) :
    view d e = .absent ↔ e &&& pml4ePresentBit = 0 := by
  have hp : pdptePresentBit = pml4ePresentBit ∧ pdePresentBit = pml4ePresentBit ∧
      ptePresentBit = pml4ePresentBit := ⟨rfl,rfl,rfl⟩
  match d, hd with
  | 0, _ => simp [view]
  | 1, _ => simp only [view,hp]; split_ifs <;> simp_all
  | 2, _ => simp only [view,hp]; split_ifs <;> simp_all
  | 3, _ => simp [view,hp]

lemma link_view (hq : q &&& addressMask = q) (hf : PstFlag flag) {d : ℕ} (hd : d ≤ 2) :
    view d (link q flag) = .table q := by
  have hp := link_present q flag
  have hm := link_masked hq hf
  have hs := link_pageSize hq hf
  have hpd : getPDPTEMaskedAddr (link q flag) = q := (if_pos hs).trans hm
  have hpe : getPDEMaskedAddr (link q flag) = q := (if_pos hs).trans hm
  match d, hd with
  | 0, _ => exact (if_neg hp).trans (congrArg Slot.table hm)
  | 1, _ => exact (if_neg hp).trans ((if_neg (not_not.mpr hs)).trans (congrArg Slot.table hpd))
  | 2, _ => exact (if_neg hp).trans ((if_neg (not_not.mpr hs)).trans (congrArg Slot.table hpe))

lemma view_zero_absent (d : ℕ) : view d 0 = .absent := by
  match d with
  | 0 => decide
  | 1 => decide
  | 2 => decide
  | 3 => decide
  | _ + 4 => rfl

end

structure FreshPages (physMemoryEnd : Word) (m : PagingCtrl) : Prop where
  masked : ∀ n q, handed physMemoryEnd n m.physmem = some q → q &&& addressMask = q
  distinct : ∀ i j q, handed physMemoryEnd i m.physmem = some q →
    handed physMemoryEnd j m.physmem = some q → i = j
  apart : ∀ n q, handed physMemoryEnd n m.physmem = some q → ¬ m.InTree q

structure TreeOk (physMemoryEnd : Word) (m : PagingCtrl) : Prop where
  distinct : Distinct view m.tables m.pml4t
  fresh : FreshPages physMemoryEnd m

structure Grown (physMemoryEnd pstFlag : Word) (n : ℕ) (m m' : PagingCtrl) : Prop where
  ok : TreeOk physMemoryEnd m'
  leaves : ∀ path, m'.leafOn path = m.leafOn path
  tables : ∀ path page, m.tableOn path = some page → m'.tableOn path = some page
  supply : ∀ i, handed physMemoryEnd i m'.physmem = handed physMemoryEnd (i + n) m.physmem
  entries : ∀ page i, m.InTree page → m'.tables page i = m.tables page i ∨
    m.tables page i &&& pml4ePresentBit = 0 ∧
      ∃ q, ¬ m.InTree q ∧ m'.tables page i = link q pstFlag

section
variable {top pst : Word} {m m' m'' : PagingCtrl} {k n : ℕ}

lemma Grown.refl (h : TreeOk top m) : Grown top pst 0 m m :=
  ⟨h,fun _ => rfl,fun _ _ => id,fun _ => rfl,fun _ _ _ => .inl rfl⟩

lemma Grown.inTree (h : Grown top pst n m m') {page : Word} (hp : m.InTree page) :
    m'.InTree page := by
  obtain ⟨path,hpa⟩ := hp
  exact ⟨path,h.tables path page hpa⟩

lemma Grown.trans (h : Grown top pst n m m')
    (h' : Grown top pst k m' m'') :
    Grown top pst (k + n) m m'' where
  ok := h'.ok
  leaves := fun path => (h'.leaves path).trans (h.leaves path)
  tables := fun path page hp => h'.tables path page (h.tables path page hp)
  supply := by
    intro i
    rw [h'.supply,h.supply,add_assoc]
  entries := by
    intro page i hpa
    rcases h'.entries page i (h.inTree hpa) with hs | ⟨ha,q,hq,hl⟩
    · rw [hs]
      exact h.entries page i hpa
    · rcases h.entries page i hpa with ho | ⟨_,r,_,hr⟩
      · exact .inr ⟨ho ▸ ha,q,fun hin => hq (h.inTree hin),hl⟩
      · rw [hr] at ha
        exact absurd ha (link_present r pst)

lemma alloc_some {c c' : PhysmemCtrl} {paddr : PhysAddr}
    (h : c.alloc top none kPageSize = .ok (paddr,c')) : ∃ q, paddr = some q := by
  obtain ⟨_,_,_,_,_,_,hp,_⟩ := PhysmemCtrl.allocSub_ok (kassert_bind_ok.mp h).2
  exact ⟨_,hp⟩

lemma tableEntry_cases {page e : Word} {i : Index}
    (h : m.tableEntry top page i pst pml4ePresentBit = .ok (e,m')) :
    m.tables page i &&& pml4ePresentBit ≠ 0 ∧ e = m.tables page i ∧ m' = m ∨
      m.tables page i &&& pml4ePresentBit = 0 ∧ ∃ q physmem,
        m.physmem.alloc top none kPageSize = .ok (some q,physmem) ∧ e = link q pst ∧
        m' = ⟨attach m.tables page i q 0 (link q pst),m.pml4t,physmem⟩ := by
  simp only [PagingCtrl.tableEntry] at h
  split at h
  · rename_i hab
    obtain ⟨⟨paddr,physmem⟩,ha,h⟩ := bind_ok.mp h
    obtain ⟨q,rfl⟩ := alloc_some ha
    cases h
    exact .inr ⟨hab,q,physmem,ha,rfl,rfl⟩
  · rename_i hp
    cases h
    exact .inl ⟨hp,rfl,rfl⟩

lemma attachable_fresh {page q : Word} {path : List Index} {i : Index}
    (hok : TreeOk top m) (hf : PstFlag pst) (hp : m.tableOn path = some page)
    (hl : path.length ≤ 2) (ha : m.tables page i &&& pml4ePresentBit = 0)
    (hz : handed top 0 m.physmem = some q) :
    Attachable view m.tables m.pml4t page path i q 0 (link q pst) :=
  ⟨hok.distinct,hp,(view_absent_iff (by omega) _).mpr ha,hok.fresh.apart 0 q hz,
    view_zero_absent,link_view (hok.fresh.masked 0 q hz) hf hl⟩

lemma grown_attach {page q : Word} {path : List Index} {i : Index} {physmem : PhysmemCtrl}
    (hok : TreeOk top m) (hf : PstFlag pst) (hpa : m.tableOn path = some page)
    (hle : path.length ≤ 2) (hab : m.tables page i &&& pml4ePresentBit = 0)
    (ha : m.physmem.alloc top none kPageSize = .ok (some q,physmem)) :
    Grown top pst 1 m
      ⟨attach m.tables page i q 0 (link q pst),m.pml4t,physmem⟩ := by
  have hz := handed_zero ha
  have hsu := handed_succ ha
  have hs := attachable_fresh hok hf hpa hle hab hz
  refine ⟨⟨attach_distinct hs,?_,?_,?_⟩,attach_walk hs,
    fun _ _ => attach_tableAt_kept hs,fun j => (hsu j).symm,?_⟩
  · intro j r hr
    exact hok.fresh.masked _ r ((hsu j).trans hr)
  · intro j l r hj hl
    exact succ.inj (hok.fresh.distinct (j + 1) (l + 1) r ((hsu j).trans hj) ((hsu l).trans hl))
  · rintro j r hr ⟨other,ho⟩
    rcases attach_tableAt_inv hs ho with ⟨rfl,_⟩ | hol
    · exact succ_ne_zero j (hok.fresh.distinct (j + 1) 0 r ((hsu j).trans hr) hz)
    · exact hok.fresh.apart _ r ((hsu j).trans hr) ⟨other,hol⟩
  · intro p j hp
    rcases Classical.em (p = page ∧ j = i) with ⟨rfl,rfl⟩ | hne
    · exact .inr ⟨hab,q,hs.fresh,write_here _ _ _ _⟩
    · have hpq : p ≠ q := by
        rintro rfl
        exact hs.fresh hp
      exact .inl (attach_other m.tables 0 _ hpq (not_and_or.mp hne))

lemma tableEntry_grown {page e : Word} {path : List Index} {i : Index}
    (hok : TreeOk top m) (hf : PstFlag pst) (hp : m.tableOn path = some page)
    (hl : path.length ≤ 2)
    (h : m.tableEntry top page i pst pml4ePresentBit = .ok (e,m')) :
    ∃ n ≤ 1, Grown top pst n m m' ∧ m'.tables page i = e ∧
      e &&& pml4ePresentBit ≠ 0 := by
  obtain ⟨hpr,rfl,rfl⟩ | ⟨hab,q,physmem,ha,rfl,rfl⟩ := tableEntry_cases h
  · exact ⟨0,zero_le 1,.refl hok,rfl,hpr⟩
  · exact ⟨1,le_rfl,grown_attach hok hf hp hl hab ha,write_here _ _ _ _,link_present q pst⟩

lemma tableEntry_ok {page : Word} {i : Index}
    (h : (handed top 0 m.physmem).isSome) (bit : Word) :
    ∃ e m', m.tableEntry top page i pst bit = .ok (e,m') := by
  simp only [PagingCtrl.tableEntry]
  split
  · cases ha : m.physmem.alloc top none kPageSize with
    | error e => simp [handed,ha] at h
    | ok r =>
      obtain ⟨paddr,physmem⟩ := r
      obtain ⟨q,rfl⟩ := alloc_some ha
      exact ⟨_,_,rfl⟩
  · exact ⟨_,_,rfl⟩

end

lemma treeOk_of_paged {top : Word} {m : PagingCtrl}
    (hm : top.toNat ≤ 2 ^ 52) (hd : Distinct view m.tables m.pml4t)
    (hp : Paged m.physmem)
    (hin : ∀ page, m.InTree page → page.toNat ∈ covered m.physmem.allocatedArea) :
    TreeOk top m := by
  refine ⟨hd,?_,fun i j q hi hj => handed_injective hm hp hi hj,?_⟩
  · intro n q hq
    obtain ⟨hdv,hlt,_⟩ := handed_page hm hp hq
    exact (masked_iff (show addressMask.toNat = (2 ^ 40 - 1) * 2 ^ 12 by decide)).mpr
      ⟨hdv,hlt⟩
  · intro n q hq hqi
    obtain ⟨_,_,hdi⟩ := handed_page hm hp hq
    exact Set.disjoint_left.mp hdi (mem_range_self (by decide)) (hin q hqi)

def bootPaging : PagingCtrl := ⟨fun _ _ => 0,0x1000,bootCtrl [⟨0,0,0x600000⟩]⟩

lemma bootPaging_table {path : List Index} {page : Word}
    (h : bootPaging.tableOn path = some page) : path = [] ∧ page = 0x1000 :=
  blank_tableAt view_zero_absent (fun _ => rfl) h

lemma bootPaging_ok : TreeOk 0x8000000 bootPaging := by
  refine treeOk_of_paged (by decide) ?_ ⟨by decide,by decide⟩ ?_
  · intro page path other hp ho
    rw [(bootPaging_table hp).1,(bootPaging_table ho).1]
  · rintro page ⟨path,hpa⟩
    rw [(bootPaging_table hpa).2]
    simp [bootPaging,bootCtrl,covered,Intervals.covered_singleton,lo,hi]

end Paging
