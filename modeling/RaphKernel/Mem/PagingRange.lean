import RaphKernel.Mem.PagingMap

namespace Paging
open Raph BitVec
open Physmem
open RadixTree
variable {vaddr addr a : Word} {k n j : ℕ} {s : MapCursor} {m₁ : PagingCtrl} {b : Bool}

lemma span_next_low (h : span va a < 4096) :
    span (va + kPageSize) a = span va a + (2 ^ 48 - 4096) := by
  unfold span at h ⊢
  rw [toNat_sub] at h ⊢
  rw [toNat_sub,toNat_add,kPageSize_toNat]
  omega

lemma span_next_high (h : 4096 ≤ span va a) :
    span (va + kPageSize) a = span va a - 4096 := by
  unfold span at h ⊢
  rw [toNat_sub] at h ⊢
  rw [toNat_sub,toNat_add,kPageSize_toNat]
  omega

lemma span_self (va : Word) (hk : k < 2 ^ 48) :
    span va (va + BitVec.ofNat 64 k) = k := by
  unfold span
  rw [toNat_sub,toNat_add,toNat_ofNat]
  omega

lemma next_page (addr : Word) {l : ℕ} (h : l = k + 4096) :
    addr + kPageSize + BitVec.ofNat 64 k = addr + BitVec.ofNat 64 l := by
  rw [h,ofNat_add,BitVec.add_comm (BitVec.ofNat 64 k),← BitVec.add_assoc]
  rfl

variable {top pst pgf : Word} {m m' : PagingCtrl}

lemma map4K_ok (hok : TreeOk top m) (hf : PstFlag pst)
    (hs : ∀ i < 3, (handed top i m.physmem).isSome = true) (va addr : Word) :
    ∃ b m', m.map4KPageToVirtAddr top va (some addr) pst pgf =
      .ok (b,m') := by
  obtain ⟨e0,m0,h0,d0⟩ := Descent.first_ok hok hf (hs 0 (by decide)) (getPML4TIndex va)
  obtain ⟨e1,m1,h1,d1⟩ := d0.next_ok hf (.inl rfl) (fun k hk => hs k (by omega)) (getPDPTIndex va)
  rw [show pml4ePresentBit = pdptePresentBit from rfl] at h1
  simp only [PagingCtrl.map4KPageToVirtAddr,h0,bind,Except.bind,h1]
  split
  · exact ⟨_,_,rfl⟩
  · rename_i hsm
    obtain ⟨e2,m2,h2,_⟩ := (d1 (not_not.mp hsm)).next_ok hf (.inr rfl)
      (fun k hk => hs k (by omega)) (getPDIndex va)
    rw [show pml4ePresentBit = pdePresentBit from rfl,
      show e1 &&& addressMask = getPDPTEMaskedAddr e1 from (if_pos (not_not.mp hsm)).symm] at h2
    simp only [h2]
    split_ifs <;> exact ⟨_,_,rfl⟩

structure RangeEffect (physMemoryEnd : Word) (m m' : PagingCtrl) (vaddr addr : Word) (n : ℕ)
    (b : Bool) (j : ℕ) : Prop where
  ok : TreeOk physMemoryEnd m'
  le : j ≤ n
  result : b = true ↔ j = n
  stop : j < n → (m.translate (vaddr + BitVec.ofNat 64 (j * 4096))).isSome = true
  before : ∀ a, span vaddr a < j * 4096 → m.translate a = none
  after : ∀ a, m'.translate a = if span vaddr a < j * 4096 then
    some (addr + BitVec.ofNat 64 (span vaddr a)) else m.translate a

lemma rangeEffect_refused (hr : Refused top pst 3 m m' (path va)) :
    RangeEffect top m m' va addr (n + 1) false 0 := by
  obtain ⟨k,_,hg⟩ := hr.grown
  refine ⟨hg.ok,Nat.zero_le _,by simp,?_,by simp,?_⟩
  · intro _
    have hm := hr.mapped
    simpa [PagingCtrl.translate] using hm
  · intro a
    simp [PagingCtrl.translate,hg.leaves]

lemma rangeEffect_cons
    (hn : (n + 1) * 4096 ≤ 2 ^ 48) (hf : Map4KEffect top m m₁ va addr)
    (hr : RangeEffect top m₁ m' (va + kPageSize) (addr + kPageSize) n b j) :
    RangeEffect top m m' va addr (n + 1) b (j + 1) := by
  have hle := hr.le
  have hk : ∀ a, 4096 ≤ span va a → m₁.translate a = m.translate a := by
    intro a ha
    rw [hf.after,if_neg (Nat.not_lt.mpr ha)]
  refine ⟨hr.ok,by omega,hr.result.trans (by omega),?_,?_,?_⟩
  · intro _
    have hs := hr.stop (by omega)
    rw [next_page va (Nat.succ_mul j 4096),
      hk _ (by rw [span_self va (by omega)]; omega)] at hs
    exact hs
  · intro a _
    rcases Nat.lt_or_ge _ 4096 with hl | hh
    · exact hf.before a hl
    · rw [← hk a hh]
      exact hr.before a (by rw [span_next_high hh]; omega)
  · intro a
    rw [hr.after]
    rcases Nat.lt_or_ge _ 4096 with hl | hh
    · rw [span_next_low hl,if_neg (by omega),hf.after,if_pos hl,if_pos (by omega)]
    · rw [span_next_high hh,hk a hh]
      split
      · rename_i hin
        rw [if_pos (by omega),next_page addr (Nat.sub_add_cancel hh).symm]
      · rw [if_neg (by omega)]

lemma rangeEffect_nil (hok : TreeOk top m) :
    RangeEffect top m m va addr 0 true 0 :=
  ⟨hok,le_rfl,by simp,by simp,by simp,by simp⟩

structure RangeReady (physMemoryEnd : Word) (s : MapCursor) (n : ℕ) : Prop where
  ok : TreeOk physMemoryEnd s.ctrl
  size : s.size.toNat = n * 4096
  vaddr : 4096 ∣ s.vaddr.toNat
  addr : 4096 ∣ s.addr.toNat
  short : n * 4096 ≤ 2 ^ 48
  below : s.addr.toNat + n * 4096 ≤ 2 ^ 52

lemma RangeReady.next (h : RangeReady top s (n + 1)) (hok : TreeOk top m₁) :
    RangeReady top
      ⟨m₁,s.vaddr + kPageSize,s.addr + kPageSize,s.size - kPageSize⟩ n := by
  obtain ⟨_,hs,_,_,hsh,_⟩ := h
  have hle : kPageSize ≤ s.size := by
    rw [le_def,hs,kPageSize_toNat]
    omega
  refine ⟨hok,?_,?_,?_,le_trans (Nat.mul_le_mul_right 4096 (Nat.le_succ n)) hsh,?_⟩
  · rw [toNat_sub_of_le hle,hs,kPageSize_toNat]
    omega
  · rw [toNat_add,kPageSize_toNat]
    omega
  · rw [toNat_add,kPageSize_toNat]
    omega
  · rw [toNat_add,kPageSize_toNat]
    omega

structure RangeOutcome (physMemoryEnd : Word) (s : MapCursor) (n : ℕ)
    (r : Except Panic (Bool × PagingCtrl)) : Prop where
  enough : (∀ i < 3 * n, (handed physMemoryEnd i s.ctrl.physmem).isSome = true) →
    ∃ b m', r = .ok (b,m')
  effect : ∀ b m', r = .ok (b,m') → ∃ j, RangeEffect physMemoryEnd s.ctrl m' s.vaddr s.addr n b j

lemma mapBody_pos (top pst pgf : Word) (h : 0 < s.size) :
    mapBody top pst pgf s =
      match s.ctrl.map4KPageToVirtAddr top s.vaddr (some s.addr) pst pgf with
      | .error e => .inr (.error e)
      | .ok (false,m) => .inr (.ok (false,m))
      | .ok (true,m) =>
        .inl ⟨m,s.vaddr + kPageSize,s.addr + kPageSize,s.size - kPageSize⟩ := by
  rw [mapBody,if_pos h]
  rfl

lemma mapBody_zero (h : RangeReady top s 0) :
    mapBody top pst pgf s = .inr (.ok (true,s.ctrl)) := by
  have hz : ¬ 0 < s.size := by
    rw [lt_def,h.size]
    simp
  rw [mapBody,if_neg hz]

lemma mapBody_succ (hf : PstFlag pst) (hp : pgf &&& addressMask = 0)
    (h : RangeReady top s (n + 1)) :
    (∃ e, mapBody top pst pgf s = .inr (.error e) ∧
      ¬ ∀ i < 3, (handed top i s.ctrl.physmem).isSome = true) ∨
    (∃ m₁, mapBody top pst pgf s = .inr (.ok (false,m₁)) ∧
      Refused top pst 3 s.ctrl m₁ (path s.vaddr)) ∨
    ∃ m₁, mapBody top pst pgf s =
        .inl ⟨m₁,s.vaddr + kPageSize,s.addr + kPageSize,s.size - kPageSize⟩ ∧
      Map4KEffect top s.ctrl m₁ s.vaddr s.addr := by
  have hpo : 0 < s.size := by
    rw [lt_def,h.size]
    simp
  rw [mapBody_pos top pst pgf hpo]
  cases hm : s.ctrl.map4KPageToVirtAddr top s.vaddr _ pst pgf with
  | error e =>
    refine .inl ⟨e,rfl,fun hs => ?_⟩
    obtain ⟨b,m',hok⟩ := map4K_ok h.ok hf hs s.vaddr s.addr
    rw [hm] at hok
    cases hok
  | ok r =>
    obtain ⟨b,m₁⟩ := r
    obtain ⟨rfl,hr⟩ | ⟨rfl,hl⟩ := map4K_cases h.ok hf hm
    · exact .inr (.inl ⟨m₁,rfl,hr⟩)
    · have hlt : s.addr.toNat < 2 ^ 52 := by
        have hb := h.below
        omega
      exact .inr (.inr ⟨m₁,rfl,landed_map4K hp h.vaddr h.addr hlt hl⟩)

lemma mapBody_returns (hf : PstFlag pst) (hp : pgf &&& addressMask = 0) (n : ℕ)
    (s : MapCursor) (h : RangeReady top s n) :
    ∃ r, Loop.Returns (mapBody top pst pgf) s r ∧
      RangeOutcome top s n r := by
  induction n generalizing s with
  | zero =>
    refine ⟨.ok (true,s.ctrl),Loop.returns_of_exit (mapBody_zero h),?_,?_⟩
    · intro _
      exact ⟨true,s.ctrl,rfl⟩
    · rintro b m' ⟨⟩
      exact ⟨0,rangeEffect_nil h.ok⟩
  | succ n ih =>
    obtain ⟨e,hb,hsh⟩ | ⟨m₁,hb,hre⟩ | ⟨m₁,hb,hfi⟩ := mapBody_succ hf hp h
    · refine ⟨.error e,Loop.returns_of_exit hb,?_,by rintro b m' ⟨⟩⟩
      intro hs
      exact absurd (fun i hi => hs i (by omega)) hsh
    · refine ⟨.ok (false,m₁),Loop.returns_of_exit hb,fun _ => ⟨false,m₁,rfl⟩,?_⟩
      rintro b m' ⟨⟩
      exact ⟨0,rangeEffect_refused hre⟩
    · obtain ⟨r,hr,ho⟩ := ih _ (h.next hfi.ok)
      obtain ⟨k,_,hsu⟩ := hfi.supply
      refine ⟨r,(Loop.returns_step_iff hb).mpr hr,?_,?_⟩
      · intro hs
        refine ho.enough (fun i hi => ?_)
        rw [hsu]
        exact hs _ (by omega)
      · intro b m' hok
        obtain ⟨j,hj⟩ := ho.effect b m' hok
        exact ⟨j + 1,rangeEffect_cons h.short hfi hj⟩

section
variable {va addr : Word} {n j : ℕ} {b : Bool}
  (h : RangeEffect top m m' va addr n b j) (hn : n * 4096 ≤ 2 ^ 48)
include h hn

lemma RangeEffect.offset_lt (hk : k < j * 4096) : k < 2 ^ 48 :=
  hk.trans_le ((Nat.mul_le_mul_right 4096 h.le).trans hn)

lemma RangeEffect.unmapped (hk : k < j * 4096) : m.translate (va + BitVec.ofNat 64 k) = none :=
  h.before _ (by rwa [span_self va (h.offset_lt hn hk)])

lemma RangeEffect.mapped (hk : k < j * 4096) :
    m'.translate (va + BitVec.ofNat 64 k) = some (addr + BitVec.ofNat 64 k) := by
  rw [h.after,span_self va (h.offset_lt hn hk),if_pos hk]

lemma RangeEffect.true_iff :
    b = true ↔ ∀ k < n * 4096, m.translate (va + BitVec.ofNat 64 k) = none := by
  rw [h.result]
  constructor
  · rintro rfl k hk
    exact h.unmapped hn hk
  · intro ha
    by_contra hne
    have hlt := lt_of_le_of_ne h.le hne
    have hs := h.stop hlt
    rw [ha (j * 4096) (Nat.mul_lt_mul_of_pos_right hlt (by decide))] at hs
    cases hs

end

lemma RangeEffect.unchanged (h : RangeEffect top m m' va addr n b j)
    (ha : ∀ k < j * 4096, (va + BitVec.ofNat 64 k).toNat % 2 ^ 48 ≠ a.toNat % 2 ^ 48) :
    m'.translate a = m.translate a := by
  rw [h.after]
  refine if_neg (fun hs => ha _ hs ?_)
  unfold span
  rw [toNat_add,toNat_ofNat,toNat_sub]
  omega

lemma mapPhysAddr_loop {pa size : Word} (hv : 4096 ∣ va.toNat)
    (hp : 4096 ∣ pa.toNat) (hs : 4096 ∣ size.toNat) (fuel : ℕ) :
    m.mapPhysAddrToVirtAddr top fuel va (some pa) size pst pgf =
      Loop.iterate (mapBody top pst pgf) fuel ⟨m,va,pa,size⟩ := by
  have hc : mapChecks va (some pa) size = .ok pa := by
    have hva := (aligned_iff va).mpr hv
    have hpa := (aligned_iff pa).mpr hp
    have hl := (aligned_iff size).mpr hs
    simp [mapChecks,hva,hpa,hl,kassert,PhysAddr.getAddr,bind,Except.bind,pure,Except.pure]
  rw [PagingCtrl.mapPhysAddrToVirtAddr,hc]

theorem mapPhysAddr_exact (physMemoryEnd : Word) (m : PagingCtrl)
    (vaddr paddr size pstFlag pageFlag : Word) (htree : TreeOk physMemoryEnd m)
    (hv : 4096 ∣ vaddr.toNat) (hp : 4096 ∣ paddr.toNat) (hs : 4096 ∣ size.toNat)
    (hsize : size.toNat ≤ 2 ^ 48) (hlt : paddr.toNat + size.toNat ≤ 2 ^ 52)
    (hpst : PstFlag pstFlag) (hpage : pageFlag &&& addressMask = 0) :
    ∃ r, (∀ q, (∃ fuel, m.mapPhysAddrToVirtAddr physMemoryEnd fuel vaddr (some paddr) size pstFlag
        pageFlag = some q) ↔ q = r) ∧
      ((∀ i < 3 * (size.toNat / 4096), (handed physMemoryEnd i m.physmem).isSome = true) →
        ∃ b m', r = .ok (b,m')) ∧
      ∀ b m', r = .ok (b,m') → (b = true ↔ ∀ k < size.toNat,
          m.convertVirtMemToPhysMem (vaddr + BitVec.ofNat 64 k) none = .ok none) ∧
        ∃ j ≤ size.toNat / 4096, (b = true ↔ j = size.toNat / 4096) ∧ (j < size.toNat / 4096 → ∃ q,
            m.convertVirtMemToPhysMem (vaddr + BitVec.ofNat 64 (j * 4096)) none = .ok (some q)) ∧
          (∀ k < j * 4096, m.convertVirtMemToPhysMem (vaddr + BitVec.ofNat 64 k) none = .ok none ∧
            m'.convertVirtMemToPhysMem (vaddr + BitVec.ofNat 64 k) none =
              .ok (some (paddr + BitVec.ofNat 64 k))) ∧
          ∀ a, (∀ k < j * 4096, (vaddr + BitVec.ofNat 64 k).toNat % 2 ^ 48 ≠ a.toNat % 2 ^ 48) →
            m'.convertVirtMemToPhysMem a none = m.convertVirtMemToPhysMem a none := by
  have hc := Nat.div_mul_cancel hs
  obtain ⟨r,hr,ho⟩ := mapBody_returns hpst hpage _ ⟨m,vaddr,paddr,size⟩
    ⟨htree,hc.symm,hv,hp,hc.trans_le hsize,by rw [hc]; exact hlt⟩
  refine ⟨r,?_,ho.enough,?_⟩
  · intro q
    simp only [mapPhysAddr_loop hv hp hs]
    constructor
    · intro hq
      exact Loop.returns_unique hq hr
    · rintro rfl
      exact hr
  · intro b m' hok
    obtain ⟨j,he⟩ := ho.effect b m' hok
    have hn := hc.trans_le hsize
    simp only [PagingCtrl.convertVirtMemToPhysMem_eq,Except.ok.injEq]
    refine ⟨?_,j,he.le,he.result,?_,?_,fun a ha => he.unchanged ha⟩
    · rw [he.true_iff hn,hc]
    · intro hlt
      exact Option.isSome_iff_exists.mp (he.stop hlt)
    · intro k hk
      exact ⟨he.unmapped hn hk,he.mapped hn hk⟩

theorem mapPhysAddr_exact_boot :
    ∃ m', bootPaging.mapPhysAddrToVirtAddr 0x8000000 3 0x400000 (some 0x700000) 0x2000 6 6 =
        some (.ok (true,m')) ∧
      m'.convertVirtMemToPhysMem 0x401234 none = .ok (some 0x701234) ∧
      m'.convertVirtMemToPhysMem 0x402000 none = bootPaging.convertVirtMemToPhysMem 0x402000 none := by
  obtain ⟨m',hr⟩ : ∃ m', bootPaging.mapPhysAddrToVirtAddr 0x8000000 3 0x400000 (some 0x700000)
    0x2000 6 6 = some (.ok (true,m')) := ⟨_,rfl⟩
  obtain ⟨r,hre,_,he⟩ := mapPhysAddr_exact 0x8000000 bootPaging 0x400000 0x700000 0x2000 6 6
    bootPaging_ok (by decide) (by decide) (by decide) (by decide) (by decide)
    ⟨by decide,by decide⟩ (by decide)
  obtain ⟨_,j,_,hj,_,hm,ho⟩ := he true m' ((hre _).mp ⟨3,hr⟩).symm
  obtain rfl : j = 2 := hj.mp rfl
  refine ⟨m',hr,(hm 0x1234 (by decide)).2,ho 0x402000 ?_⟩
  intro k _
  rw [toNat_add,toNat_ofNat,show (0x400000 : Word).toNat = 0x400000 from rfl,
    show (0x402000 : Word).toNat = 0x402000 from rfl]
  omega

theorem mapPhysAddr_high : TreeOk 0x8000000 bootPaging ∧ PstFlag 6 ∧
    ∃ m', bootPaging.mapPhysAddrToVirtAddr 0x8000000 2 0x400000 (some 0x10000000000000) 0x1000 6 6 =
        some (.ok (true,m')) ∧
      m'.convertVirtMemToPhysMem 0x400000 none = .ok (some 0) :=
  ⟨bootPaging_ok,⟨by decide,by decide⟩,_,rfl,rfl⟩

end Paging
