import RaphKernel.Mem.PhysmemRun

namespace Physmem
open Raph Option List PhysmemCtrl
variable {q : Word} {n i : ℕ} {a : AllocatedArea}

def handed (physMemoryEnd : Word) : ℕ → PhysmemCtrl → Option Word
  | 0, c =>
    match c.alloc physMemoryEnd none kPageSize with
    | .ok (paddr,_) => paddr
    | .error _ => none
  | n + 1, c =>
    match c.alloc physMemoryEnd none kPageSize with
    | .ok (_,c) => handed physMemoryEnd n c
    | .error _ => none

structure Paged (c : PhysmemCtrl) : Prop where
  wellFormed : WellFormed c.allocatedArea
  ends : ∀ a ∈ c.allocatedArea, 4096 ∣ hi a ∧ hi a ≤ 2 ^ 52

variable {top : Word} {c c' : PhysmemCtrl} {pa : PhysAddr}

lemma handed_zero (h : c.alloc top none kPageSize = .ok (pa,c')) :
    handed top 0 c = pa := by simp [handed,h]

lemma handed_succ (h : c.alloc top none kPageSize = .ok (pa,c')) (n : ℕ) :
    handed top (n + 1) c = handed top n c' := by simp [handed,h]

lemma PhysmemCtrl.setEnd_ends {addr : Word}
    (h : a ∈ (c.setEnd i addr).allocatedArea) : a ∈ c.allocatedArea ∨ a.endAddr = addr := by
  obtain ⟨j,hj⟩ := mem_iff_getElem?.mp h
  simp only [setEnd,getElem?_modify] at hj
  cases hc : c.allocatedArea[j]? with
  | none => simp [hc] at hj
  | some b =>
    rw [hc] at hj
    split at hj
    · obtain rfl := some.inj hj
      exact .inr rfl
    · obtain rfl := some.inj hj
      exact .inl (mem_of_getElem? hc)

lemma PhysmemCtrl.mergeFraged_ends {fraged : Option ℕ}
    (h : a ∈ (c.mergeFraged fraged).allocatedArea) :
    ∃ b ∈ c.allocatedArea, a.endAddr = b.endAddr := by
  cases fraged with
  | none => exact ⟨a,h,rfl⟩
  | some i =>
    cases hb : c.allocatedArea[i + 1]? with
    | none => exact ⟨a,by simpa [mergeFraged,hb] using h,rfl⟩
    | some b =>
      simp only [mergeFraged,hb] at h
      rcases setEnd_ends (mem_of_mem_eraseIdx h) with ho | he
      · exact ⟨a,ho,rfl⟩
      · exact ⟨b,mem_of_getElem? hb,he⟩

lemma allocFits_page (hne : c.allocatedArea ≠ []) (hp : Paged c) :
    AllocFits kPageSize c.allocatedArea := by
  have he := hp.ends
  revert hne he
  induction c.allocatedArea with
  | nil => intro hne; exact absurd rfl hne
  | cons a rest ih =>
    intro _ he
    cases rest with
    | nil =>
      have hle := (he a (by simp)).2
      rw [AllocFits,kPageSize_toNat]
      omega
    | cons b rest =>
      exact .inr (ih (by simp) (fun x hx => he x (mem_cons_of_mem a hx)))

section
variable (hm : top.toNat ≤ 2 ^ 52) (hp : Paged c)
include hm hp

lemma alloc_paged (h : c.alloc top none kPageSize = .ok (pa,c')) :
    ∃ addr, pa = some addr ∧ 4096 ∣ addr.toNat ∧ addr.toNat < 2 ^ 52 ∧
      Disjoint (range addr kPageSize) (covered c.allocatedArea) ∧
      covered c'.allocatedArea = covered c.allocatedArea ∪ range addr kPageSize ∧ Paged c' := by
  have hs : c.allocSub top none kPageSize ⟨powerOfTwo 0,false⟩ = .ok (pa,c') :=
    (kassert_bind_ok.mp h).2
  obtain ⟨_,pre,cur,post,fraged,site,had,hc,he⟩ := allocSub_ok hs
  have hne : c.allocatedArea ≠ [] := by rw [site.split]; simp
  have hf := (alignFits_one_iff hne hp.wellFormed).mpr (allocFits_page hne hp)
  have hg := (allocSub_exact (by decide) hp.wellFormed hs).mpr hf
  have hpl : c.placeArea pre.length cur (powerOfTwo 0) kPageSize =
      (cur.endAddr,{ cur with endAddr := cur.endAddr + kPageSize },
        c.setEnd pre.length _) :=
    placeArea_extend (alignUp_one cur.endAddr) pre.length
  rw [hpl] at had hc he
  have hcu := hp.ends cur (by rw [site.split]; simp)
  have hn : (cur.endAddr + kPageSize).toNat = hi cur + 4096 := by
    rw [BitVec.toNat_add,kPageSize_toNat]
    exact Nat.mod_eq_of_lt (by unfold hi at hcu; omega)
  have hlt : hi cur + 4096 < top.toNat := hn ▸ BitVec.lt_def.mp he
  obtain ⟨addr,ha,_,hd,hco⟩ := hg.returned
  obtain rfl := some.inj (had.symm.trans ha)
  refine ⟨cur.endAddr,had,hcu.1,by unfold hi at hlt; omega,hd,hco,hg.wellFormed,?_⟩
  intro a hme
  rw [hc] at hme
  obtain ⟨b,hb,hab⟩ := mergeFraged_ends hme
  rw [hi,hab]
  rcases setEnd_ends hb with ho | hse
  · exact hp.ends b ho
  · rw [hse,hn]
    exact ⟨Nat.dvd_add hcu.1 (Nat.dvd_refl _),by omega⟩

lemma handed_step (h : handed top n c = some q) :
    ∃ addr c', c.alloc top none kPageSize = .ok (some addr,c') ∧ Paged c' ∧
      covered c'.allocatedArea = covered c.allocatedArea ∪ range addr kPageSize := by
  cases ha : c.alloc top none kPageSize with
  | error e => cases n <;> simp [handed,ha] at h
  | ok r =>
    obtain ⟨addr,hr,_,_,_,hc,hp'⟩ := alloc_paged hm hp ha
    exact ⟨addr,r.2,by rw [← hr],hp',hc⟩

lemma handed_page (h : handed top n c = some q) : 4096 ∣ q.toNat ∧ q.toNat < 2 ^ 52 ∧
      Disjoint (range q kPageSize) (covered c.allocatedArea) := by
  induction n generalizing c with
  | zero =>
    obtain ⟨addr,c',ha,_⟩ := handed_step hm hp h
    rw [handed_zero ha] at h
    obtain ⟨r,hr,hdv,hlt,hd,_⟩ := alloc_paged hm hp ha
    obtain rfl := some.inj (hr.symm.trans h)
    exact ⟨hdv,hlt,hd⟩
  | succ n ih =>
    obtain ⟨addr,c',ha,hp',hc⟩ := handed_step hm hp h
    rw [handed_succ ha] at h
    obtain ⟨hdv,hlt,hd⟩ := ih hp' h
    exact ⟨hdv,hlt,hd.mono_right (hc ▸ Set.subset_union_left)⟩

lemma handed_later {r : Word} (h0 : handed top 0 c = some q)
    (h : handed top (n + 1) c = some r) : q ≠ r := by
  rintro rfl
  obtain ⟨addr,c',ha,hp',hc⟩ := handed_step hm hp h0
  rw [handed_zero ha] at h0
  rw [handed_succ ha] at h
  obtain rfl := some.inj h0
  have hd := (handed_page hm hp' h).2.2
  rw [hc] at hd
  have hs : addr.toNat ∈ range addr kPageSize := mem_range_self (by decide)
  exact Set.disjoint_left.mp hd hs (.inr hs)

lemma handed_injective {j : ℕ} (hi : handed top i c = some q)
    (hj : handed top j c = some q) : i = j := by
  induction i generalizing c j with
  | zero =>
    cases j with
    | zero => rfl
    | succ j => exact absurd rfl (handed_later hm hp hi hj)
  | succ i ih =>
    cases j with
    | zero => exact absurd rfl (handed_later hm hp hj hi)
    | succ j =>
      obtain ⟨addr,c',ha,hp',_⟩ := handed_step hm hp hi
      rw [handed_succ ha] at hi hj
      rw [ih hp' hi hj]

end

end Physmem
