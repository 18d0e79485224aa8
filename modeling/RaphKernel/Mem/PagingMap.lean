import RaphKernel.Mem.PagingTree

namespace Paging
open Raph BitVec Fields Nat
open Physmem
open RadixTree
variable {vaddr addr e pgf top pst : Word} {d k : ℕ} {R : Type}
  {route : List Index} {m m' : PagingCtrl}

section
variable {m₁ : PagingCtrl} {n : ℕ}

lemma view_table_of_small (hd : d = 1 ∨ d = 2)
    (hp : e &&& pml4ePresentBit ≠ 0) (hs : e &&& pde2MPageBit = 0) :
    view d e = .table (e &&& addressMask) := by
  have hpd : getPDPTEMaskedAddr e = e &&& addressMask := if_pos hs
  have hpe : getPDEMaskedAddr e = e &&& addressMask := if_pos hs
  rcases hd with rfl | rfl
  · exact (if_neg hp).trans ((if_neg (not_not.mpr hs)).trans (congrArg Slot.table hpd))
  · exact (if_neg hp).trans ((if_neg (not_not.mpr hs)).trans (congrArg Slot.table hpe))

lemma view_leaf_of_large (hd : d = 1 ∨ d = 2)
    (hp : e &&& pml4ePresentBit ≠ 0) (hs : e &&& pde2MPageBit ≠ 0) : view d e = .leaf := by
  rcases hd with rfl | rfl
  · exact (if_neg hp).trans (if_pos hs)
  · exact (if_neg hp).trans (if_pos hs)

structure Descent (physMemoryEnd pstFlag : Word) (n : ℕ) (m m₁ : PagingCtrl) (pre : List Index)
    (page : Word) : Prop where
  grown : ∃ k ≤ n, Grown physMemoryEnd pstFlag k m m₁
  place : m₁.tableOn pre = some page

lemma descent_root (hok : TreeOk top m) :
    Descent top pst 0 m m [] m.pml4t :=
  ⟨⟨0,le_rfl,.refl hok⟩,rfl⟩

variable {pre : List Index} {page : Word} {i : Index}

section
variable (hd : Descent top pst n m m₁ pre page)
include hd

lemma Descent.grown_le {l : ℕ} (hl : n ≤ l) : ∃ k ≤ l, Grown top pst k m m₁ := by
  obtain ⟨k,hk,hg⟩ := hd.grown
  exact ⟨k,hk.trans hl,hg⟩

lemma Descent.entry (hf : PstFlag pst) (hlen : pre.length ≤ 2)
    (h : m₁.tableEntry top page i pst pml4ePresentBit = .ok (e,m')) :
    Descent top pst (n + 1) m m' pre page ∧ m'.tables page i = e ∧
      e &&& pml4ePresentBit ≠ 0 := by
  obtain ⟨k,_,hg⟩ := hd.grown
  obtain ⟨l,_,hg',he,hp⟩ := tableEntry_grown hg.ok hf hd.place hlen h
  exact ⟨⟨⟨l + k,by omega,hg.trans hg'⟩,hg'.tables pre page hd.place⟩,he,hp⟩

lemma Descent.down {q : Word} (h : view pre.length (m₁.tables page i) = .table q) :
    Descent top pst n m m₁ (pre ++ [i]) q :=
  ⟨hd.grown,tableAt_snoc hd.place h⟩

lemma Descent.leaf (h : view pre.length (m₁.tables page i) = .leaf) (rest : List Index) :
    m.leafOn (pre ++ i :: rest) = some (pre.length,m₁.tables page i) := by
  obtain ⟨k,_,hg⟩ := hd.grown
  rw [← hg.leaves]
  exact leaf_walk hd.place h rest

end

lemma Descent.first {r : R} {f : Word × PagingCtrl → Except Panic R}
    (hok : TreeOk top m) (hf : PstFlag pst)
    (h : (m.tableEntry top m.pml4t i pst pml4ePresentBit >>= f) = .ok r) :
    ∃ e m₁, f (e,m₁) = .ok r ∧ Descent top pst 1 m m₁ [i] (getPML4EMaskedAddr e) := by
  obtain ⟨⟨e,m₁⟩,h0,h⟩ := bind_ok.mp h
  obtain ⟨hd,rfl,hp⟩ := (descent_root hok).entry hf (zero_le 2) h0
  exact ⟨_,m₁,h,hd.down (if_neg hp)⟩

lemma Descent.next {r : R} {f : Word × PagingCtrl → Except Panic R}
    (hd : Descent top pst n m m₁ pre page) (hf : PstFlag pst)
    (hlen : pre.length = 1 ∨ pre.length = 2)
    (h : (m₁.tableEntry top page i pst pml4ePresentBit >>= f) = .ok r) :
    ∃ e m₂, f (e,m₂) = .ok r ∧ Descent top pst (n + 1) m m₂ pre page ∧
      (e &&& pde2MPageBit ≠ 0 ∧ (∀ rest, (m.leafOn (pre ++ i :: rest)).isSome = true) ∨
        e &&& pde2MPageBit = 0 ∧
          Descent top pst (n + 1) m m₂ (pre ++ [i]) (e &&& addressMask)) := by
  obtain ⟨⟨e,m₂⟩,h0,h⟩ := bind_ok.mp h
  obtain ⟨hd',rfl,hp⟩ := hd.entry hf (by omega) h0
  refine ⟨_,m₂,h,hd',?_⟩
  rcases eq_or_ne (m₂.tables page i &&& pde2MPageBit) 0 with hs | hs
  · exact .inr ⟨hs,hd'.down (view_table_of_small hlen hp hs)⟩
  · exact .inl ⟨hs,fun rest =>
      congrArg Option.isSome (hd'.leaf (view_leaf_of_large hlen hp hs) rest)⟩

lemma Descent.entry_ok (hd : Descent top pst n m m₁ pre page)
    (hs : ∀ k ≤ n, (handed top k m.physmem).isSome = true) (i : Index) :
    ∃ e m₂, m₁.tableEntry top page i pst pml4ePresentBit = .ok (e,m₂) := by
  obtain ⟨k,hk,hg⟩ := hd.grown
  refine tableEntry_ok ?_ pml4ePresentBit
  rw [hg.supply,zero_add]
  exact hs k hk

lemma Descent.first_ok (hok : TreeOk top m) (hf : PstFlag pst)
    (hs : (handed top 0 m.physmem).isSome = true) (i : Index) :
    ∃ e m₁, m.tableEntry top m.pml4t i pst pml4ePresentBit = .ok (e,m₁) ∧
      Descent top pst 1 m m₁ [i] (getPML4EMaskedAddr e) := by
  obtain ⟨e,m₁,h⟩ := tableEntry_ok hs pml4ePresentBit
  obtain ⟨hd,rfl,hp⟩ := (descent_root hok).entry hf (zero_le 2) h
  exact ⟨_,m₁,h,hd.down (if_neg hp)⟩

lemma Descent.next_ok (hd : Descent top pst n m m₁ pre page) (hf : PstFlag pst)
    (hlen : pre.length = 1 ∨ pre.length = 2)
    (hs : ∀ k ≤ n, (handed top k m.physmem).isSome = true) (i : Index) :
    ∃ e m₂, m₁.tableEntry top page i pst pml4ePresentBit = .ok (e,m₂) ∧
      (e &&& pde2MPageBit = 0 →
        Descent top pst (n + 1) m m₂ (pre ++ [i]) (e &&& addressMask)) := by
  obtain ⟨e,m₂,h⟩ := hd.entry_ok hs i
  obtain ⟨hd',rfl,hp⟩ := hd.entry hf (by omega) h
  exact ⟨_,m₂,h,fun hsm => hd'.down (view_table_of_small hlen hp hsm)⟩

structure Landed (physMemoryEnd pstFlag : Word) (n : ℕ) (m m' : PagingCtrl) (pre : List Index)
    (i : Index) (e : Word) : Prop where
  site : ∃ m₁ page, Descent physMemoryEnd pstFlag n m m₁ pre page ∧
    m₁.tables page i &&& pml4ePresentBit = 0 ∧ m' = m₁.setEntry page i e

structure Refused (physMemoryEnd pstFlag : Word) (n : ℕ) (m m' : PagingCtrl)
    (pre : List Index) : Prop where
  grown : ∃ k ≤ n, Grown physMemoryEnd pstFlag k m m'
  mapped : (m.leafOn pre).isSome = true

lemma map4K_cases {b : Bool} (hok : TreeOk top m) (hf : PstFlag pst)
    (h : m.map4KPageToVirtAddr top vaddr (some addr) pst pgf = .ok (b,m')) :
    b = false ∧ Refused top pst 3 m m' (path vaddr) ∨
      b = true ∧ Landed top pst 3 m m' ((path vaddr).take 3) (getPTIndex vaddr)
        (addr ||| pgf ||| ptePresentBit) := by
  obtain ⟨e0,m0,h,d0⟩ := Descent.first hok hf h
  obtain ⟨e1,m1,h,d1,⟨hs,hl⟩ | ⟨hs,d1'⟩⟩ := d0.next hf (.inl rfl) h
  · dsimp only at h
    rw [if_pos (show e1 &&& pdpte1GPageBit ≠ 0 from hs)] at h
    cases h
    exact .inl ⟨rfl,d1.grown_le (by decide),hl _⟩
  · dsimp only at h
    rw [if_neg (show ¬ e1 &&& pdpte1GPageBit ≠ 0 from not_not.mpr hs),
      show getPDPTEMaskedAddr e1 = e1 &&& addressMask from if_pos hs] at h
    obtain ⟨e2,m2,h,d2,⟨hs,hl⟩ | ⟨hs,d2'⟩⟩ := d1'.next hf (.inr rfl) h
    · dsimp only at h
      rw [if_pos hs] at h
      cases h
      exact .inl ⟨rfl,d2.grown_le (by decide),hl _⟩
    · dsimp only at h
      rw [if_neg (not_not.mpr hs),show getPDEMaskedAddr e2 = e2 &&& addressMask from if_pos hs] at h
      split at h
      · rename_i ha
        cases h
        exact .inr ⟨rfl,m2,_,d2',ha,rfl⟩
      · rename_i hp
        cases h
        exact .inl ⟨rfl,d2.grown_le (by decide),congrArg Option.isSome (d2'.leaf (if_neg hp) [])⟩

lemma map2M_true (pgf : Word) (hok : TreeOk top m) (hf : PstFlag pst)
    (h : m.map2MPageToVirtAddr top vaddr (some addr) pst pgf = .ok (true,m')) :
    Landed top pst 2 m m' ((path vaddr).take 2) (getPDIndex vaddr)
      (addr ||| pst ||| pdePresentBit ||| pde2MPageBit) := by
  obtain ⟨e0,m0,h,d0⟩ := Descent.first hok hf h
  obtain ⟨e1,m1,h,_,⟨hs,_⟩ | ⟨hs,d1⟩⟩ := d0.next hf (.inl rfl) h
  · dsimp only at h
    rw [if_pos (show e1 &&& pdpte1GPageBit ≠ 0 from hs)] at h
    cases h
  · dsimp only at h
    rw [if_neg (show ¬ e1 &&& pdpte1GPageBit ≠ 0 from not_not.mpr hs),
      show getPDPTEMaskedAddr e1 = e1 &&& addressMask from if_pos hs] at h
    split at h
    · cases h
    · rename_i ha
      cases h
      exact ⟨m1,_,d1,not_not.mp ha,rfl⟩

lemma map1G_true (pgf : Word) (hok : TreeOk top m) (hf : PstFlag pst)
    (h : m.map1GPageToVirtAddr top vaddr (some addr) pst pgf = .ok (true,m')) :
    Landed top pst 1 m m' ((path vaddr).take 1) (getPDPTIndex vaddr)
      (addr ||| pst ||| pdptePresentBit ||| pdpte1GPageBit) := by
  obtain ⟨e0,m0,h,d0⟩ := Descent.first hok hf (kassert_bind_ok.mp h).2
  dsimp only at h
  split at h
  · cases h
  · rename_i ha
    cases h
    exact ⟨m0,_,d0,not_not.mp ha,rfl⟩

section
variable {i : Index} {e : Word} (hl : Landed top pst n m m' pre i e)
include hl

section
variable (hlen : pre.length ≤ 3)
include hlen

lemma Landed.before (rest : List Index) : m.leafOn (pre ++ i :: rest) = none := by
  obtain ⟨m₁,page,hd,ha,rfl⟩ := hl.site
  obtain ⟨k,_,hg⟩ := hd.grown
  rw [← hg.leaves]
  exact absent_walk hd.place ((view_absent_iff hlen _).mpr ha) rest

lemma Landed.untabled (rest : List Index) : m.tableOn (pre ++ i :: rest) = none := by
  obtain ⟨m₁,page,hd,ha,rfl⟩ := hl.site
  obtain ⟨k,_,hg⟩ := hd.grown
  refine Option.eq_none_iff_forall_ne_some.mpr fun r hr => ?_
  have hn := absent_tableAt hd.place ((view_absent_iff hlen _).mpr ha) rest
  exact absurd ((hg.tables _ r hr).symm.trans hn) (by simp)

lemma Landed.written (he : view pre.length e = .leaf) :
    ∃ k m₁ page, Grown top pst k m m₁ ∧ m' = m₁.setEntry page i e ∧
      ∀ route, m'.tableOn route = m₁.tableOn route := by
  obtain ⟨m₁,page,hd,ha,rfl⟩ := hl.site
  obtain ⟨k,_,hg⟩ := hd.grown
  exact ⟨k,m₁,page,hg,rfl,write_leaf_tableAt hg.ok.distinct hd.place
    ((view_absent_iff hlen _).mpr ha) he⟩

lemma Landed.tables_kept (he : view pre.length e = .leaf) {r : Word}
    (hr : m.tableOn route = some r) : m'.tableOn route = some r := by
  obtain ⟨_,m₁,_,hg,_,ht⟩ := hl.written hlen he
  exact (ht route).trans (hg.tables route r hr)

end

lemma Landed.inside (he : view pre.length e = .leaf) (rest : List Index) :
    m'.leafOn (pre ++ i :: rest) = some (pre.length,e) := by
  obtain ⟨m₁,page,hd,_,rfl⟩ := hl.site
  obtain ⟨k,_,hg⟩ := hd.grown
  exact write_leaf_walk hg.ok.distinct hd.place he rest

lemma Landed.outside (hn : ¬ pre ++ [i] <+: route) : m'.leafOn route = m.leafOn route := by
  obtain ⟨m₁,page,hd,_,rfl⟩ := hl.site
  obtain ⟨k,_,hg⟩ := hd.grown
  rw [← hg.leaves]
  exact write_leaf_other hg.ok.distinct hd.place e hn

lemma Landed.entry : ∃ page, m'.tableOn pre = some page ∧ m'.tables page i = e := by
  obtain ⟨m₁,page,hd,_,rfl⟩ := hl.site
  obtain ⟨k,_,hg⟩ := hd.grown
  exact ⟨page,write_tableAt_self hg.ok.distinct hd.place i e,write_here _ _ _ _⟩

lemma Landed.ok (hlen : pre.length ≤ 3) (he : view pre.length e = .leaf) :
    TreeOk top m' := by
  obtain ⟨_,m₁,_,hg,rfl,ht⟩ := hl.written hlen he
  refine ⟨distinct_congr ht hg.ok.distinct,hg.ok.fresh.masked,hg.ok.fresh.distinct,?_⟩
  rintro j q hq ⟨other,ho⟩
  exact hg.ok.fresh.apart j q hq ⟨other,(ht other).symm.trans ho⟩

lemma Landed.supply : ∃ k ≤ n, ∀ j, handed top j m'.physmem =
    handed top (j + k) m.physmem := by
  obtain ⟨m₁,page,hd,_,rfl⟩ := hl.site
  obtain ⟨k,hk,hg⟩ := hd.grown
  exact ⟨k,hk,hg.supply⟩

lemma Landed.entries (page : Word) (j : Index) (hp : m.InTree page) :
    m'.tables page j = m.tables page j ∨ m.tables page j &&& pml4ePresentBit = 0 ∧
        ((∃ q, ¬ m.InTree q ∧ m'.tables page j = link q pst) ∨
          m'.tableOn pre = some page ∧ j = i) := by
  obtain ⟨m₁,target,hd,ha,rfl⟩ := hl.site
  obtain ⟨k,_,hg⟩ := hd.grown
  rcases Classical.em (page = target ∧ j = i) with ⟨rfl,rfl⟩ | hne
  · rcases hg.entries page j hp with ho | ⟨hz,_⟩
    · exact .inr ⟨ho ▸ ha,.inr ⟨write_tableAt_self hg.ok.distinct hd.place j e,rfl⟩⟩
    · exact .inr ⟨hz,.inr ⟨write_tableAt_self hg.ok.distinct hd.place j e,rfl⟩⟩
  · have hw : (m₁.setEntry target i e).tables page j = m₁.tables page j :=
      write_other _ _ (not_and_or.mp hne)
    rw [hw]
    rcases hg.entries page j hp with ho | ⟨hz,hli⟩
    · exact .inl ho
    · exact .inr ⟨hz,.inl hli⟩

end

end

def leafShift : ℕ → ℕ
  | 1 => 30
  | 2 => 21
  | _ => 12

def base : ℕ → Word → Word
  | 1, e => getPDPTEMaskedAddr e
  | 2, e => getPDEMaskedAddr e
  | _, e => getPTEMaskedAddr e

lemma low_toNat {mask : Word} (h : mask.toNat = 2 ^ k - 1) (addr : Word) :
    (addr &&& mask).toNat = addr.toNat % 2 ^ k := by
  have hm : (addr &&& mask).toNat = addr.toNat / 2 ^ 0 % 2 ^ k * 2 ^ 0 :=
    mask_toNat addr (by simpa using h)
  simpa using hm

lemma frame_toNat (hd : d = 1 ∨ d = 2 ∨ d = 3) (hb : 2 ^ leafShift d ∣ (base d e).toNat) :
    (frame d e addr).toNat = (base d e).toNat + addr.toNat % 2 ^ leafShift d := by
  rcases hd with rfl | rfl | rfl
  · have ho : (get1GPageOffset addr).toNat = addr.toNat % 2 ^ 30 := low_toNat (by decide) addr
    exact (or_toNat hb (ho ▸ mod_lt _ (by decide))).trans (ho ▸ rfl)
  · have ho : (get2MPageOffset addr).toNat = addr.toNat % 2 ^ 21 := low_toNat (by decide) addr
    exact (or_toNat hb (ho ▸ mod_lt _ (by decide))).trans (ho ▸ rfl)
  · have ho : (get4KPageOffset addr).toNat = addr.toNat % 2 ^ 12 := low_toNat (by decide) addr
    exact (or_toNat hb (ho ▸ mod_lt _ (by decide))).trans (ho ▸ rfl)

def span (vaddr addr : Word) : ℕ := (addr - vaddr).toNat % 2 ^ 48

lemma take_path_page (hd : d = 1 ∨ d = 2 ∨ d = 3) (vaddr addr : Word) :
    (path vaddr).take (d + 1) <+: path addr ↔
      page (leafShift d) addr = page (leafShift d) vaddr := by
  rcases hd with rfl | rfl | rfl
  · exact path_two_iff vaddr addr
  · exact path_three_iff vaddr addr
  · exact path_four_iff vaddr addr

section
variable (hd : d = 1 ∨ d = 2 ∨ d = 3) (hv : 2 ^ leafShift d ∣ vaddr.toNat)
include hd hv

lemma span_lt_iff (addr : Word) :
    span vaddr addr < 2 ^ leafShift d ↔ page (leafShift d) addr = page (leafShift d) vaddr := by
  unfold span page
  rw [toNat_sub]
  rcases hd with rfl | rfl | rfl
  · simp only [leafShift] at hv ⊢
    omega
  · simp only [leafShift] at hv ⊢
    omega
  · simp only [leafShift] at hv ⊢
    omega

lemma frame_span (hb : 2 ^ leafShift d ∣ (base d e).toNat)
    (ha : span vaddr addr < 2 ^ leafShift d) :
    frame d e addr = base d e + BitVec.ofNat 64 (span vaddr addr) := by
  apply eq_of_toNat_eq
  rw [frame_toNat hd hb,toNat_add,toNat_ofNat]
  have hlt := (base d e).isLt
  unfold span at ha ⊢
  rcases hd with rfl | rfl | rfl
  · simp only [leafShift,toNat_sub] at hv hb ha ⊢
    omega
  · simp only [leafShift,toNat_sub] at hv hb ha ⊢
    omega
  · simp only [leafShift,toNat_sub] at hv hb ha ⊢
    omega

lemma landed_translate {n : ℕ} {i : Index}
    (hi : (path vaddr).take (d + 1) = (path vaddr).take d ++ [i])
    (hl : Landed top pst n m m' ((path vaddr).take d) i e) (he : view d e = .leaf)
    (hb : 2 ^ leafShift d ∣ (base d e).toNat) (addr : Word) :
    m'.translate addr = if span vaddr addr < 2 ^ leafShift d then
      some (base d e + BitVec.ofNat 64 (span vaddr addr)) else m.translate addr := by
  have hlen : ((path vaddr).take d).length = d := by
    rcases hd with rfl | rfl | rfl <;> rfl
  have hif := (take_path_page hd vaddr addr).trans (span_lt_iff hd hv addr).symm
  rw [hi] at hif
  unfold PagingCtrl.translate
  split
  · rename_i ha
    obtain ⟨rest,hr⟩ := hif.mpr ha
    rw [← hr,List.append_assoc,List.singleton_append,hl.inside (hlen.symm ▸ he) rest,hlen]
    exact congrArg some (frame_span hd hv hb ha)
  · rename_i ha
    rw [hl.outside (fun hp => ha (hif.mp hp))]

end

lemma span_inside (hk : k ≤ 48) (hlo : vaddr.toNat ≤ addr.toNat)
    (hhi : addr.toNat < vaddr.toNat + 2 ^ k) :
    span vaddr addr < 2 ^ k ∧ BitVec.ofNat 64 (span vaddr addr) = addr - vaddr := by
  have hp : 2 ^ k ≤ 2 ^ 48 := Nat.pow_le_pow_right (by decide) hk
  have hsu := toNat_sub_of_le hlo
  have hs : span vaddr addr = (addr - vaddr).toNat := by
    rw [span,Nat.mod_eq_of_lt]
    omega
  refine ⟨by omega,?_⟩
  rw [hs,ofNat_toNat,setWidth_eq]

structure Map4KEffect (physMemoryEnd : Word) (m m' : PagingCtrl) (vaddr addr : Word) : Prop where
  ok : TreeOk physMemoryEnd m'
  supply : ∃ k ≤ 3, ∀ j, handed physMemoryEnd j m'.physmem = handed physMemoryEnd (j + k) m.physmem
  before : ∀ a, span vaddr a < 4096 → m.translate a = none
  after : ∀ a, m'.translate a =
    if span vaddr a < 4096 then some (addr + BitVec.ofNat 64 (span vaddr a)) else m.translate a

lemma landed_map4K
    (hpa : pgf &&& addressMask = 0) (hv : 4096 ∣ vaddr.toNat) (hp : 4096 ∣ addr.toNat)
    (hlt : addr.toNat < 2 ^ 52)
    (hl : Landed top pst 3 m m' ((path vaddr).take 3) (getPTIndex vaddr)
      (addr ||| pgf ||| ptePresentBit)) : Map4KEffect top m m' vaddr addr := by
  have he : view 3 (addr ||| pgf ||| ptePresentBit) = .leaf := if_neg (bit_or (by decide) _)
  have hm : addr &&& addressMask = addr :=
    (masked_iff (show addressMask.toNat = (2 ^ 40 - 1) * 2 ^ 12 by decide)).mpr ⟨hp,hlt⟩
  have hb : base 3 (addr ||| pgf ||| ptePresentBit) = addr := by
    show (addr ||| pgf ||| ptePresentBit) &&& addressMask = addr
    rw [BitVec.or_assoc]
    exact masked_or hm (Fields.zero_or hpa (by decide))
  refine ⟨hl.ok le_rfl he,hl.supply,?_,?_⟩
  · intro a ha
    obtain ⟨rest,hr⟩ := ((take_path_page (.inr (.inr rfl)) vaddr a).trans
      (span_lt_iff (.inr (.inr rfl)) hv a).symm).mpr ha
    have hn := hl.before le_rfl rest
    rw [PagingCtrl.translate,← hr]
    exact congrArg _ hn
  · intro a
    rw [landed_translate (.inr (.inr rfl)) hv rfl hl he (by rw [hb]; exact hp),hb]
    rfl

theorem map4K_translates (physMemoryEnd : Word) (m m' : PagingCtrl)
    (vaddr paddr pstFlag pageFlag : Word) (htree : TreeOk physMemoryEnd m)
    (hv : 4096 ∣ vaddr.toNat) (hp : 4096 ∣ paddr.toNat) (hlt : paddr.toNat < 2 ^ 52)
    (hpst : PstFlag pstFlag) (hpage : pageFlag &&& addressMask = 0)
    (h : m.map4KPageToVirtAddr physMemoryEnd vaddr (some paddr) pstFlag pageFlag = .ok (true,m')) :
    (∀ a, vaddr.toNat ≤ a.toNat → a.toNat < vaddr.toNat + 4096 →
      m'.convertVirtMemToPhysMem a none = .ok (some (paddr + (a - vaddr)))) ∧
    ∀ a, page 12 a ≠ page 12 vaddr →
      m'.convertVirtMemToPhysMem a none = m.convertVirtMemToPhysMem a none := by
  obtain ⟨hb,_⟩ | ⟨_,hl⟩ := map4K_cases htree hpst h
  · cases hb
  have he := landed_map4K hpage hv hp hlt hl
  simp only [PagingCtrl.convertVirtMemToPhysMem_eq]
  constructor
  · intro a hlo hhi
    obtain ⟨hs,ho⟩ := span_inside (k := 12) (by decide) hlo hhi
    rw [he.after,if_pos (show span vaddr a < 4096 from hs),ho]
  · intro a ha
    have hs : ¬ span vaddr a < 4096 := fun hs => ha ((span_lt_iff (.inr (.inr rfl)) hv a).mp hs)
    rw [he.after,if_neg hs]

theorem map4K_translates_boot :
    ∃ m', bootPaging.map4KPageToVirtAddr 0x8000000 0x400000 (some 0x700000) 6 6 = .ok (true,m') ∧
      m'.convertVirtMemToPhysMem 0x400123 none = .ok (some 0x700123) ∧
      m'.convertVirtMemToPhysMem 0x401000 none = bootPaging.convertVirtMemToPhysMem 0x401000 none := by
  refine ⟨_,rfl,?_⟩
  have h := map4K_translates 0x8000000 bootPaging _ 0x400000 0x700000 6 6 bootPaging_ok (by decide)
    (by decide) (by decide) ⟨by decide,by decide⟩ (by decide) rfl
  exact ⟨h.1 0x400123 (by decide) (by decide),h.2 0x401000 (by decide)⟩

theorem map4K_alias : TreeOk 0x8000000 bootPaging ∧ PstFlag 6 ∧ (6 : Word) &&& addressMask = 0 ∧
    (0x1000000400000 : Word).toNat / 4096 ≠ (0x400000 : Word).toNat / 4096 ∧
    ∃ m', bootPaging.map4KPageToVirtAddr 0x8000000 0x400000 (some 0x700000) 6 6 = .ok (true,m') ∧
      bootPaging.convertVirtMemToPhysMem 0x1000000400000 none = .ok none ∧
      m'.convertVirtMemToPhysMem 0x1000000400000 none = .ok (some 0x700000) :=
  ⟨bootPaging_ok,⟨by decide,by decide⟩,by decide,by decide,_,rfl,rfl,rfl⟩

end Paging
