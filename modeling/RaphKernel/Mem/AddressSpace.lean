import RaphKernel.Mem.Physmem

namespace AddressSpace
open Raph Physmem Function BitVec

def roundAddrOnPageBoundary (addr : Word) : Word := align addr kPageSize

def roundUpAddrOnPageBoundary (addr : Word) : Word := roundAddrOnPageBoundary (addr + kPageSize - 1)

abbrev Table := ℕ → Option ℕ

def pageOf (addr : Word) : ℕ := addr.toNat / 4096

def Mapped (t : Table) (addr : Word) : Prop := (t (pageOf addr)).isSome = true

def map4K (t : Table) (vaddr addr : Word) : Bool × Table :=
  if (t (pageOf vaddr)).isSome then (false,t)
  else (true,update t (pageOf vaddr) (some (pageOf addr)))

def mapLoop : ℕ → Table → Word → Word → Bool × Table
  | 0, t, _, _ => (true,t)
  | n + 1, t, vaddr, addr =>
    match map4K t vaddr addr with
    | (false,t) => (false,t)
    | (true,t) => mapLoop n t (vaddr + kPageSize) (addr + kPageSize)

def mapPhysAddrToVirtAddr (t : Table) (vaddr addr size : Word) : Except Panic (Bool × Table) := do
  kassert (vaddr == align vaddr kPageSize)
  kassert (size == align size kPageSize)
  kassert (addr == align addr kPageSize)
  return mapLoop (size.toNat / 4096) t vaddr addr

section
variable {va : Word}

lemma pageOf_next (h : va.toNat + 4096 < 2 ^ 64) :
    pageOf (va + kPageSize) = pageOf va + 1 := by
  unfold pageOf
  rw [toNat_add,kPageSize_toNat]
  omega

lemma dvd_next (h : 4096 ∣ va.toNat) : 4096 ∣ (va + kPageSize).toNat := by
  rw [toNat_add,kPageSize_toNat]
  omega

end

section
variable {t t' : Table} {va addr : Word} {n p : ℕ}

def frameOf (vaddr addr : Word) (p : ℕ) : ℕ :=
  pageOf (addr + BitVec.ofNat 64 ((p - pageOf vaddr) * 4096))

lemma frameOf_first (va addr : Word) : frameOf va addr (pageOf va) = pageOf addr := by
  rw [frameOf,Nat.sub_self,Nat.zero_mul,BitVec.add_zero]

lemma frameOf_next (h : va.toNat + 4096 < 2 ^ 64) (hp : pageOf va < p) :
    frameOf (va + kPageSize) (addr + kPageSize) p = frameOf va addr p := by
  have hs : (p - pageOf va) * 4096 = 4096 + (p - (pageOf va + 1)) * 4096 := by omega
  rw [frameOf,frameOf,pageOf_next h,hs,ofNat_add,← BitVec.add_assoc]
  rfl

lemma map4K_true (h : map4K t va addr = (true,t')) :
    t (pageOf va) = none ∧ t' = update t (pageOf va) (some (pageOf addr)) := by
  unfold map4K at h
  split_ifs at h with hs
  · cases h
  · cases h
    exact ⟨Option.not_isSome_iff_eq_none.mp hs,rfl⟩

structure Fresh (t t' : Table) (vaddr addr : Word) (n : ℕ) : Prop where
  before : ∀ p, pageOf vaddr ≤ p → p < pageOf vaddr + n → t p = none
  inside : ∀ p, pageOf vaddr ≤ p → p < pageOf vaddr + n → t' p = some (frameOf vaddr addr p)
  outside : ∀ p, p < pageOf vaddr ∨ pageOf vaddr + n ≤ p → t' p = t p

lemma mapLoop_true : ∀ {n : ℕ} {t : Table} {va addr : Word}, 4096 ∣ va.toNat →
    va.toNat + n * 4096 ≤ 2 ^ 64 → mapLoop n t va addr = (true,t') →
    Fresh t t' va addr n := by
  intro n
  induction n with
  | zero =>
    intro t va addr _ _ h
    cases h
    exact ⟨fun p h1 h2 => by omega,fun p h1 h2 => by omega,fun p _ => rfl⟩
  | succ n ih =>
    intro t va addr hv _ h
    rw [mapLoop] at h
    cases hm : map4K t va addr with
    | mk flag t₁ =>
      rw [hm] at h
      cases flag with
      | false => cases h
      | true =>
        obtain ⟨hno,rfl⟩ := map4K_true hm
        cases n with
        | zero =>
          cases h
          refine ⟨fun p h1 h2 => ?_,fun p h1 h2 => ?_,fun p hp => ?_⟩
          · rw [show p = pageOf va by omega,hno]
          · rw [show p = pageOf va by omega,update_self,frameOf_first]
          · rw [update_of_ne (by omega)]
        | succ n =>
          have hn : va.toNat + 4096 < 2 ^ 64 := by omega
          have hna : (va + kPageSize).toNat = va.toNat + 4096 := by
            rw [toNat_add,kPageSize_toNat,Nat.mod_eq_of_lt hn]
          have hr := ih (dvd_next hv) (by omega) h
          have hpa := pageOf_next hn
          refine ⟨fun p h1 h2 => ?_,fun p h1 h2 => ?_,fun p hp => ?_⟩
          · by_cases hp : p = pageOf va
            · rw [hp,hno]
            · have hb := hr.before p (by omega) (by omega)
              rwa [update_of_ne hp] at hb
          · by_cases hp : p = pageOf va
            · rw [hr.outside p (by omega),hp,update_self,frameOf_first]
            · rw [hr.inside p (by omega) (by omega),frameOf_next hn (by omega)]
          · rw [hr.outside p (by omega),update_of_ne (by omega)]

lemma mapPhysAddr_true {size : Word} (h : mapPhysAddrToVirtAddr t va addr size = .ok (true,t')) :
    4096 ∣ va.toNat ∧ 4096 ∣ size.toNat ∧ mapLoop (size.toNat / 4096) t va addr = (true,t') := by
  simp only [mapPhysAddrToVirtAddr,kassert_bind_ok,aligned_iff] at h
  obtain ⟨hv,hs,_,hl⟩ := h
  exact ⟨hv,hs,Except.ok.inj hl⟩

lemma pageOf_offset (addr : Word) (i : ℕ) :
    pageOf (addr + BitVec.ofNat 64 (i * 4096)) = (pageOf addr + i) % 2 ^ 52 := by
  unfold pageOf
  rw [toNat_add,toNat_ofNat]
  omega

lemma offset_next (addr : Word) (i : ℕ) :
    addr + kPageSize + BitVec.ofNat 64 (i * 4096) = addr + BitVec.ofNat 64 ((i + 1) * 4096) := by
  rw [show (i + 1) * 4096 = 4096 + i * 4096 by omega,ofNat_add,← BitVec.add_assoc]
  rfl

def Extended (t t' : Table) (vaddr addr : Word) (n : ℕ) : Prop :=
  ∀ p, t' p = t p ∨ t p = none ∧ ∃ i < n, p = pageOf (vaddr + BitVec.ofNat 64 (i * 4096)) ∧
    t' p = some (pageOf (addr + BitVec.ofNat 64 (i * 4096)))

lemma mapLoop_extended : ∀ n t va addr,
    Extended t (mapLoop n t va addr).2 va addr n := by
  intro n
  induction n with
  | zero => exact fun t va addr p => .inl rfl
  | succ n ih =>
    intro t va addr p
    rw [mapLoop]
    cases hm : map4K t va addr with
    | mk flag t₁ =>
      cases flag with
      | false =>
        unfold map4K at hm
        split_ifs at hm with hs
        · cases hm
          exact .inl rfl
        · cases hm
      | true =>
        obtain ⟨hn,rfl⟩ := map4K_true hm
        have hr := ih (update t (pageOf va) (some (pageOf addr)))
          (va + kPageSize) (addr + kPageSize) p
        by_cases hp : p = pageOf va
        · refine .inr ⟨hp ▸ hn,0,by omega,by simpa using hp,?_⟩
          rcases hr with hk | ⟨hf,_⟩
          · rw [hp,update_self] at hk
            simpa [hp] using hk
          · rw [hp,update_self] at hf
            cases hf
        · rcases hr with hk | ⟨hf,i,_,hpa,hne⟩
          · rw [update_of_ne hp] at hk
            exact .inl hk
          · rw [update_of_ne hp] at hf
            rw [offset_next] at hpa hne
            exact .inr ⟨hf,i + 1,by omega,hpa,hne⟩

lemma mapPhysAddr_extended {flag : Bool} {size : Word}
    (h : mapPhysAddrToVirtAddr t va addr size = .ok (flag,t')) :
    Extended t t' va addr (size.toNat / 4096) := by
  simp only [mapPhysAddrToVirtAddr,kassert_bind_ok] at h
  obtain ⟨_,_,_,hl⟩ := h
  have he := mapLoop_extended (size.toNat / 4096) t va addr
  rwa [Except.ok.inj hl] at he

lemma Extended.mono {n : ℕ} {f : ℕ} (h : Extended t t' va addr n) (hp : t p = some f) :
    t' p = some f := by
  rcases h p with hk | ⟨hn,_⟩
  · rw [hk,hp]
  · rw [hn] at hp
    cases hp

end

end AddressSpace
