import RaphKernel.Mem.AddressSpace
import RaphKernel.Mem.PagingRange

namespace Paging
open Raph BitVec AddressSpace
open Physmem
open RadixTree
open AddressSpace (Table pageOf)

def Canonical (a : Word) : Prop := a.toNat < 2 ^ 47 ∨ 2 ^ 64 - 2 ^ 47 ≤ a.toNat

def located (frame : ℕ) (a : Word) : Word := BitVec.ofNat 64 (frame * 4096 + a.toNat % 4096)

def Represents (m : PagingCtrl) (t : Table) : Prop :=
  ∀ a, Canonical a → m.translate a = (t (pageOf a)).map (located · a)

def pages (m : PagingCtrl) : Table := fun p =>
  (m.translate (BitVec.ofNat 64 (p * 4096))).map pageOf

section
variable {d : ℕ} {e : Word}

lemma leaf_depth (h : view d e = .leaf) : d = 1 ∨ d = 2 ∨ d = 3 := by
  match d, h with
  | 0, h =>
    simp only [view] at h
    split_ifs at h
  | 1, _ => exact .inl rfl
  | 2, _ => exact .inr (.inl rfl)
  | 3, _ => exact .inr (.inr rfl)
  | d + 4, h => cases h

lemma leaf_base (h : view d e = .leaf) : 2 ^ leafShift d ∣ (base d e).toNat := by
  have hl {n k : ℕ} {mask : Word} (hm : mask.toNat = (2 ^ k - 1) * 2 ^ n) :
      2 ^ n ∣ (e &&& mask).toNat := by
    rw [Fields.mask_toNat e hm]
    exact Nat.dvd_mul_left _ _
  rcases leaf_depth h with rfl | rfl | rfl
  · simp only [view] at h
    split_ifs at h with hp hs
    rw [base,getPDPTEMaskedAddr,if_neg hs]
    exact hl (k := 22) (by decide)
  · simp only [view] at h
    split_ifs at h with hp hs
    rw [base,getPDEMaskedAddr,if_neg hs]
    exact hl (k := 31) (by decide)
  · exact hl (k := 40) (by decide)

lemma frame_located (h : view d e = .leaf) (a : Word) :
    frame d e a = located (pageOf (frame d e (BitVec.ofNat 64 (pageOf a * 4096)))) a := by
  have hd := leaf_depth h
  have hb := leaf_base h
  have hlt := (frame d e a).isLt
  apply eq_of_toNat_eq
  rw [located,pageOf,frame_toNat hd hb,frame_toNat hd hb,toNat_ofNat,toNat_ofNat]
  rw [frame_toNat hd hb] at hlt
  have ha := a.isLt
  rcases hd with rfl | rfl | rfl
  · simp only [leafShift,pageOf] at hb hlt ⊢
    omega
  · simp only [leafShift,pageOf] at hb hlt ⊢
    omega
  · simp only [leafShift,pageOf] at hb hlt ⊢
    omega

end

lemma path_page (a : Word) : path (BitVec.ofNat 64 (pageOf a * 4096)) = path a := by
  apply path_eq
  have ha := a.isLt
  rw [page,page,toNat_ofNat,pageOf]
  omega

lemma represents_pages (m : PagingCtrl) : Represents m (pages m) := by
  intro a _
  rw [pages,PagingCtrl.translate,PagingCtrl.translate,path_page]
  cases hl : m.leafOn _ with
  | none => rfl
  | some l =>
    have hv := walk_view hl
    exact congrArg some (frame_located hv a)

section
variable {top pst pgf va addr a : Word} {m m' : PagingCtrl} {t : Table}

lemma Represents.isSome (h : Represents m t) (ha : Canonical a) :
    m.isVirtAddrMapped a = (t (pageOf a)).isSome := by
  rw [isVirtAddrMapped_eq,← translate_isSome,h a ha,Option.isSome_map]

lemma span_page (hv : Canonical va) (ha : Canonical a) (hd : 4096 ∣ va.toNat) :
    span va a < 4096 ↔ pageOf a = pageOf va := by
  have hvl := va.isLt
  have hal := a.isLt
  unfold span pageOf
  rw [toNat_sub]
  unfold Canonical at hv ha
  omega

lemma located_span (hd : 4096 ∣ va.toNat) (had : 4096 ∣ addr.toNat)
    (ha : span va a < 4096) :
    located (pageOf addr) a = addr + BitVec.ofNat 64 (span va a) := by
  have hl : span va a = a.toNat % 4096 := by
    unfold span at ha ⊢
    rw [toNat_sub] at ha ⊢
    omega
  apply eq_of_toNat_eq
  rw [located,pageOf,Nat.div_mul_cancel had,hl,toNat_add,toNat_ofNat,toNat_ofNat]
  omega

lemma Represents.refused (h : Represents m t) (addr : Word) (hv : Canonical va)
    (hr : Refused top pst 3 m m' (path va)) :
    map4K t va addr = (false,t) ∧ Represents m' t := by
  obtain ⟨k,_,hg⟩ := hr.grown
  have hs : (t (pageOf va)).isSome = true := by
    rw [← h.isSome hv,isVirtAddrMapped_eq]
    exact hr.mapped
  refine ⟨if_pos hs,fun a ha => ?_⟩
  rw [← h a ha,PagingCtrl.translate,PagingCtrl.translate,hg.leaves]

lemma Represents.landed (h : Represents m t) (hv : Canonical va) (hd : 4096 ∣ va.toNat)
    (had : 4096 ∣ addr.toNat) (he : Map4KEffect top m m' va addr) :
    ∃ t', map4K t va addr = (true,t') ∧ Represents m' t' := by
  have hn : ¬ (t (pageOf va)).isSome = true := by
    have hb := he.before va (by simp [span])
    rw [← h.isSome hv,isVirtAddrMapped_eq,← translate_isSome,hb]
    decide
  refine ⟨_,if_neg hn,fun a ha => ?_⟩
  rw [he.after]
  by_cases hp : pageOf a = pageOf va
  · have hin := (span_page hv ha hd).mpr hp
    rw [if_pos hin,hp,Function.update_self]
    exact congrArg some (located_span hd had hin).symm
  · rw [if_neg fun hin => hp ((span_page hv ha hd).mp hin),Function.update_of_ne hp]
    exact h a ha

lemma mapBody_refines (hf : PstFlag pst) (hp : pgf &&& addressMask = 0) (n : ℕ)
    (s : MapCursor) (t : Table) (hr : RangeReady top s n)
    (hc : ∀ i < n, Canonical (s.vaddr + BitVec.ofNat 64 (i * 4096)))
    (hrp : Represents s.ctrl t) {b : Bool}
    (h : Loop.Returns (mapBody top pst pgf) s (.ok (b,m'))) :
    ∃ t', mapLoop n t s.vaddr s.addr = (b,t') ∧ Represents m' t' := by
  induction n generalizing s t with
  | zero =>
    cases (Loop.returns_exit_iff (mapBody_zero hr)).mp h
    exact ⟨t,rfl,hrp⟩
  | succ n ih =>
    have hfi : Canonical s.vaddr := by simpa using hc 0 (Nat.succ_pos n)
    obtain ⟨e,hb,_⟩ | ⟨m₁,hb,hrf⟩ | ⟨m₁,hb,he⟩ := mapBody_succ hf hp hr
    · cases (Loop.returns_exit_iff hb).mp h
    · cases (Loop.returns_exit_iff hb).mp h
      obtain ⟨hl,hs⟩ := hrp.refused s.addr hfi hrf
      exact ⟨t,by rw [mapLoop,hl],hs⟩
    · obtain ⟨t₁,hl,hn⟩ := hrp.landed hfi hr.vaddr hr.addr he
      have hre : ∀ i < n, Canonical (s.vaddr + kPageSize + BitVec.ofNat 64 (i * 4096)) := by
        intro i hi
        rw [offset_next]
        exact hc _ (Nat.succ_lt_succ hi)
      obtain ⟨t',hla,hrp'⟩ := ih _ t₁ (hr.next he.ok) hre hn ((Loop.returns_step_iff hb).mp h)
      refine ⟨t',?_,hrp'⟩
      rw [mapLoop,hl]
      exact hla

end

lemma mapChecks_ok {va pa size addr : Word}
    (h : mapChecks va (some pa) size = .ok addr) :
    4096 ∣ va.toNat ∧ 4096 ∣ size.toNat ∧ 4096 ∣ pa.toNat ∧ addr = pa := by
  obtain ⟨hv,h⟩ := kassert_bind_ok.mp h
  obtain ⟨hs,h⟩ := kassert_bind_ok.mp h
  obtain ⟨q,hq,h⟩ := bind_ok.mp h
  cases hq
  obtain ⟨hp,h⟩ := kassert_bind_ok.mp h
  cases h
  exact ⟨(aligned_iff _).mp hv,(aligned_iff _).mp hs,(aligned_iff _).mp hp,rfl⟩

theorem mapPhysAddr_refines {top va pa size pst pgf : Word}
    {m m' : PagingCtrl} {t : Table} {b : Bool} {fuel : ℕ} (ht : TreeOk top m)
    (hps : PstFlag pst) (hpa : pgf &&& addressMask = 0)
    (hca : ∀ i < size.toNat / 4096, Canonical (va + BitVec.ofNat 64 (i * 4096)))
    (hsi : size.toNat ≤ 2 ^ 48) (hlt : pa.toNat + size.toNat ≤ 2 ^ 52) (hr : Represents m t)
    (h : m.mapPhysAddrToVirtAddr top fuel va (some pa) size pst pgf =
      some (.ok (b,m'))) :
    ∃ t', mapPhysAddrToVirtAddr t va pa size = .ok (b,t') ∧ Represents m' t' := by
  rw [PagingCtrl.mapPhysAddrToVirtAddr] at h
  cases hch : mapChecks va _ size with
  | error e =>
    rw [hch] at h
    cases h
  | ok addr =>
    rw [hch] at h
    obtain ⟨hv,hs,hp,rfl⟩ := mapChecks_ok hch
    have hc := Nat.div_mul_cancel hs
    obtain ⟨t',hl,hr'⟩ := mapBody_refines hps hpa _ ⟨m,va,addr,size⟩ t
      ⟨ht,hc.symm,hv,hp,hc.trans_le hsi,by rw [hc]; exact hlt⟩ hca hr
      ⟨fuel,h⟩
    refine ⟨t',?_,hr'⟩
    simp only [mapPhysAddrToVirtAddr,kassert_bind_ok,aligned_iff]
    exact ⟨hv,hs,hp,congrArg Except.ok hl⟩

theorem mapPhysAddr_refines_boot : ∃ m' t',
    bootPaging.mapPhysAddrToVirtAddr 0x8000000 3 0x400000 (some 0x700000) 0x2000 6 6 =
      some (.ok (true,m')) ∧
    mapPhysAddrToVirtAddr (pages bootPaging) 0x400000 0x700000 0x2000 = .ok (true,t') ∧
    Represents m' t' := by
  obtain ⟨m',hr⟩ : ∃ m', bootPaging.mapPhysAddrToVirtAddr 0x8000000 3 0x400000 (some 0x700000)
    0x2000 6 6 = some (.ok (true,m')) := ⟨_,rfl⟩
  obtain ⟨t',ht⟩ := mapPhysAddr_refines bootPaging_ok ⟨by decide,by decide⟩ (by decide)
    (by unfold Canonical; decide) (by decide) (by decide) (represents_pages _) hr
  exact ⟨m',t',hr,ht⟩

end Paging
