import RaphKernel.Library.Custody
import RaphKernel.Mem.AddressSpace

namespace KernelStack
open Raph Physmem AddressSpace Custody List BitVec Nat
variable {pa addr a : Word}

def kKernelEndAddr : Word := 0xffffffffffffffff

def kStackSize : Word := kPageSize * 4

structure KernelStackCtrl where
  stackAreaTop : Word
  freed : List Word
  table : Table

def isVirtAddrMapped (t : Table) (addr : Word) : Bool := (t (pageOf addr)).isSome

namespace KernelStackCtrl

def expand (t : Table) (paddr : Except Panic Word) : Except Panic Table :=
  if kPageSize < kStackSize then do
    let size := kStackSize - kPageSize
    let addr ← paddr
    let (flag,t) ← mapPhysAddrToVirtAddr t (kKernelEndAddr - (kStackSize + kPageSize) + 1) addr size
    kassert flag
    return t
  else .ok t

def init (t : Table) (paddr : Except Panic Word) : Except Panic KernelStackCtrl := do
  kassert (!isVirtAddrMapped t (kKernelEndAddr - kPageSize * 0))
  kassert (isVirtAddrMapped t (kKernelEndAddr - kPageSize * 1))
  kassert (!isVirtAddrMapped t (kKernelEndAddr - kPageSize * 2))
  let t ← expand t paddr
  return ⟨kKernelEndAddr + 1 - (kStackSize + kPageSize * 2),[],t⟩

def popFreed (c : KernelStackCtrl) : Option (Word × KernelStackCtrl) :=
  match c.freed with
  | [] => none
  | addr :: rest => some (addr,{c with freed := rest})

def carve (c : KernelStackCtrl) (paddr : Except Panic Word) : Except Panic (Word × KernelStackCtrl) := do
  let stackAreaTop := c.stackAreaTop - (kStackSize + kPageSize * 2)
  let addr ← paddr
  let (flag,t) ← mapPhysAddrToVirtAddr c.table (stackAreaTop + kPageSize) addr kStackSize
  kassert flag
  return (stackAreaTop + kStackSize + kPageSize,⟨stackAreaTop,c.freed,t⟩)

def allocThreadStack (c : KernelStackCtrl) (paddr : Except Panic Word) :
    Except Panic (Word × KernelStackCtrl) :=
  match c.popFreed with
  | some popped => .ok popped
  | none => c.carve paddr

def freeThreadStack (c : KernelStackCtrl) (addr : Word) : KernelStackCtrl :=
  {c with freed := c.freed ++ [addr]}

def allocIntStack (c : KernelStackCtrl) (paddr : Except Panic Word) :
    Except Panic (Word × KernelStackCtrl) := c.carve paddr

end KernelStackCtrl

open KernelStackCtrl

structure State where
  ctrl : KernelStackCtrl
  pending : ℕ
  threads : List Word
  ints : List Word
  handed : List Word
  frames : List ℕ

def State.boot (c : KernelStackCtrl) : State := ⟨c,0,[],[],[],[]⟩

def stackFrames (addr : Word) : List ℕ := [pageOf addr,pageOf addr + 1,pageOf addr + 2,pageOf addr + 3]

structure FreshPages (s : State) (addr : Word) : Prop where
  unused : ∀ f ∈ stackFrames addr, f ∉ s.frames
  physical : ∀ f ∈ stackFrames addr, f < 2 ^ 40

inductive Step (s : State) : State → Prop where
  | pop (addr : Word) (c : KernelStackCtrl) : s.ctrl.popFreed = some (addr,c) →
    Step s {s with ctrl := c, threads := addr :: s.threads, handed := addr :: s.handed}
  | miss : s.ctrl.popFreed = none → Step s {s with pending := s.pending + 1}
  | carveThread (paddr addr : Word) (c : KernelStackCtrl) : 0 < s.pending → FreshPages s paddr →
    s.ctrl.carve (.ok paddr) = .ok (addr,c) →
    Step s ⟨c,s.pending - 1,addr :: s.threads,s.ints,addr :: s.handed,stackFrames paddr ++ s.frames⟩
  | free (addr : Word) : addr ∈ s.threads →
    Step s {s with ctrl := s.ctrl.freeThreadStack addr, threads := s.threads.erase addr}
  | allocInt (paddr addr : Word) (c : KernelStackCtrl) : FreshPages s paddr →
    s.ctrl.allocIntStack (.ok paddr) = .ok (addr,c) →
    Step s ⟨c,s.pending,s.threads,addr :: s.ints,addr :: s.handed,stackFrames paddr ++ s.frames⟩

def Run : State → State → Prop := Relation.ReflTransGen Step

lemma run_allocThreadStack {s : State} {c : KernelStackCtrl}
    (hf : FreshPages s pa) (h : s.ctrl.allocThreadStack (.ok pa) = .ok (addr,c)) :
    ∃ s', Run s s' ∧ s'.ctrl = c ∧ s'.threads = addr :: s.threads ∧ s'.ints = s.ints ∧
      s'.pending = s.pending := by
  unfold allocThreadStack at h
  cases hp : s.ctrl.popFreed with
  | some popped =>
    rw [hp] at h
    cases h
    exact ⟨_,.single (.pop addr c hp),rfl,rfl,rfl,rfl⟩
  | none =>
    rw [hp] at h
    have hc : Step {s with pending := s.pending + 1} _ :=
      .carveThread pa addr c (succ_pos _) ⟨hf.unused,hf.physical⟩ h
    exact ⟨_,(Relation.ReflTransGen.single (.miss hp)).tail hc,rfl,rfl,rfl,rfl⟩

section

def slot (k : ℕ) : ℕ := 2 ^ 52 - 6 * (k + 1)

def slotTop (k : ℕ) : Word := BitVec.ofNat 64 ((slot k + 5) * 4096)

def Slotted (k : ℕ) : Prop := 6 * (k + 1) ≤ 2 ^ 52

variable {k l p n : ℕ}

lemma slotTop_toNat (h : Slotted k) : (slotTop k).toNat = (slot k + 5) * 4096 := by
  unfold Slotted at h
  rw [slotTop,toNat_ofNat]
  unfold slot
  omega

lemma slotTop_page (h : Slotted k) : pageOf (slotTop k) = slot k + 5 := by
  rw [pageOf,slotTop_toNat h,Nat.mul_div_cancel _ (by norm_num)]

lemma slotTop_inj (hk : Slotted k) (hl : Slotted l) (h : slotTop k = slotTop l) : k = l := by
  have hp := congrArg pageOf h
  rw [slotTop_page hk,slotTop_page hl] at hp
  unfold Slotted at hk hl
  unfold slot at hp
  omega

def Inside (k p : ℕ) : Prop := slot k + 1 ≤ p ∧ p ≤ slot k + 4

lemma guard_outside (hk : Slotted k) (hl : Slotted l) :
    ¬ Inside l (slot k) ∧ ¬ Inside l (slot k + 5) := by
  unfold Slotted at hk hl
  unfold Inside slot
  omega

lemma slot_succ (h : Slotted (n + 1)) : slot n = slot (n + 1) + 6 := by
  unfold Slotted at h
  unfold slot
  omega

def pool : ℕ → List Word
  | 0 => []
  | n + 1 => slotTop (n + 1) :: pool n

lemma mem_pool : a ∈ pool n ↔ ∃ k, 1 ≤ k ∧ k ≤ n ∧ a = slotTop k := by
  induction n with
  | zero =>
    constructor
    · exact fun h => absurd h not_mem_nil
    · rintro ⟨k,h1,h2,_⟩
      omega
  | succ n ih =>
    rw [pool,mem_cons,ih]
    constructor
    · rintro (rfl | ⟨k,h1,h2,rfl⟩)
      · exact ⟨n + 1,by omega,le_rfl,rfl⟩
      · exact ⟨k,h1,by omega,rfl⟩
    · rintro ⟨k,h1,_,rfl⟩
      rcases lt_or_ge n k with hlt | hle
      · exact .inl (by rw [show k = n + 1 by omega])
      · exact .inr ⟨k,h1,hle,rfl⟩

lemma Slotted.mono (h : Slotted n) (hk : k ≤ n) : Slotted k := by
  unfold Slotted at h ⊢
  omega

lemma pool_nodup (h : Slotted n) : (pool n).Nodup := by
  induction n with
  | zero => exact nodup_nil
  | succ n ih =>
    refine nodup_cons.mpr ⟨fun hm => ?_,ih (h.mono (le_succ n))⟩
    obtain ⟨k,_,_,heq⟩ := mem_pool.mp hm
    have := slotTop_inj h (h.mono (by omega)) heq
    omega

end

section
variable {c c' : KernelStackCtrl} {t : Table} {n : ℕ}

structure Carved (c c' : KernelStackCtrl) (n : ℕ) : Prop where
  freed : c'.freed = c.freed
  top : c'.stackAreaTop.toNat = slot (n + 1) * 4096
  mapped : ∀ p, Inside (n + 1) p → (c'.table p).isSome = true
  outside : ∀ p, ¬ Inside (n + 1) p → c'.table p = c.table p

lemma carve_carved (hn : Slotted (n + 1)) (ht : c.stackAreaTop.toNat = slot n * 4096)
    (h : c.carve (.ok pa) = .ok (addr,c')) : addr = slotTop (n + 1) ∧ Carved c c' n := by
  have hs := slot_succ hn
  have hlt : slot n < 2 ^ 52 := by
    unfold slot
    omega
  have hd : (c.stackAreaTop - (kStackSize + kPageSize * 2)).toNat = slot (n + 1) * 4096 := by
    rw [toNat_sub,ht,show (kStackSize + kPageSize * 2).toNat = 24576 from rfl]
    omega
  have hb : (c.stackAreaTop - (kStackSize + kPageSize * 2) + kPageSize).toNat =
      (slot (n + 1) + 1) * 4096 := by
    rw [toNat_add,hd,kPageSize_toNat]
    omega
  simp only [carve,bind_ok,kassert_ok] at h
  obtain ⟨_,hpa,⟨flag,t⟩,hma,_,rfl,hr⟩ := h
  cases hpa
  obtain ⟨rfl,rfl⟩ := Prod.mk.inj (Except.ok.inj hr)
  obtain ⟨hv,_,hl⟩ := mapPhysAddr_true hma
  have hpg : pageOf (c.stackAreaTop - (kStackSize + kPageSize * 2) + kPageSize) = slot (n + 1) + 1 := by
    rw [pageOf,hb,Nat.mul_div_cancel _ (by norm_num)]
  have hf := mapLoop_true (n := 4) hv (by rw [hb]; omega) hl
  have hm : ∀ p, Inside (n + 1) p → (t p).isSome = true := by
    intro p hp
    unfold Inside at hp
    rw [hf.inside p (by omega) (by omega)]
    rfl
  have ho : ∀ p, ¬ Inside (n + 1) p → t p = c.table p := by
    intro p hp
    unfold Inside at hp
    exact hf.outside p (by omega)
  refine ⟨eq_of_toNat_eq ?_,rfl,hd,hm,ho⟩
  rw [slotTop_toNat hn,toNat_add,toNat_add,hd,kPageSize_toNat,
    show kStackSize.toNat = 16384 from rfl]
  omega

lemma init_booted (h : init t (.ok pa) = .ok c) :
    c.freed = [] ∧ c.stackAreaTop.toNat = slot 0 * 4096 ∧
    (∀ p, Inside 0 p → (c.table p).isSome = true) ∧ ∀ p, ¬ Inside 0 p → c.table p = t p := by
  simp only [init,bind_ok,kassert_ok] at h
  obtain ⟨_,_,_,hin,_,_,t',he,hr⟩ := h
  have hlt : kPageSize < kStackSize := by decide
  simp only [expand,if_pos hlt,bind_ok,kassert_ok] at he
  obtain ⟨_,hpa,⟨flag,t₁⟩,hma,_,rfl,ht⟩ := he
  cases hpa
  cases ht
  cases hr
  obtain ⟨hv,_,hl⟩ := mapPhysAddr_true hma
  have hpg : pageOf (kKernelEndAddr - (kStackSize + kPageSize) + 1) = slot 0 + 1 := by decide
  have hfi : pageOf (kKernelEndAddr - kPageSize * 1) = slot 0 + 4 := by decide
  have hf := mapLoop_true (n := 3) hv (by decide) hl
  rw [isVirtAddrMapped,hfi] at hin
  have hto : (kKernelEndAddr + 1 - (kStackSize + kPageSize * 2)).toNat = slot 0 * 4096 := by decide
  have hm : ∀ p, Inside 0 p → (t₁ p).isSome = true := by
    intro p hp
    unfold Inside at hp
    rcases lt_or_ge p _ with hlo | _
    · rw [hf.inside p (by omega) (by omega)]
      rfl
    · rw [hf.outside p (by omega),show p = slot 0 + 4 by omega,hin]
  have ho : ∀ p, ¬ Inside 0 p → t₁ p = t p := by
    intro p hp
    unfold Inside at hp
    exact hf.outside p (by omega)
  exact ⟨rfl,hto,hm,ho⟩

end

inductive Keeper where
  | freed
  | thread
  | int
  deriving DecidableEq, Repr

instance : Fintype Keeper := ⟨{.freed,.thread,.int},fun keeper => by cases keeper <;> decide⟩

def State.hold (s : State) : Keeper → List Word
  | .freed => s.ctrl.freed
  | .thread => s.threads
  | .int => s.ints

structure Inv (t₀ : Table) (n : ℕ) (s : State) : Prop where
  count : s.frames.length = 4 * n
  distinct : s.frames.Nodup
  physical : ∀ f ∈ s.frames, f < 2 ^ 40
  top : s.ctrl.stackAreaTop.toNat = slot n * 4096
  kept : Kept (pool n) s.hold
  handed : ∀ a ∈ s.handed, a ∈ pool n
  mapped : ∀ k ≤ n, ∀ p, Inside k p → (s.ctrl.table p).isSome = true
  outside : ∀ p, (∀ k ≤ n, ¬ Inside k p) → s.ctrl.table p = t₀ p

section
variable {t₀ : Table} {n : ℕ} {s s' : State}

lemma Inv.slotted (h : Inv t₀ n s) : Slotted (n + 1) := by
  have hle : s.frames.length ≤ (List.range (2 ^ 40)).length :=
    (subperm_of_subset h.distinct fun f hf => mem_range.mpr (h.physical f hf)).length_le
  rw [length_range,h.count] at hle
  unfold Slotted
  omega

lemma inv_boot {t : Table} {c : KernelStackCtrl}
    (h : init t (.ok pa) = .ok c) : Inv t 0 (.boot c) := by
  obtain ⟨hfr,ht,hm,ho⟩ := init_booted h
  refine ⟨rfl,nodup_nil,fun f hf => absurd hf not_mem_nil,ht,?_,
    fun a ha => absurd ha not_mem_nil,fun k hk p hp => ?_,fun p hp => ho p (hp 0 le_rfl)⟩
  · exact kept_single .thread rfl fun keeper hk => by
      cases keeper with
      | freed => exact hfr
      | thread => exact absurd rfl hk
      | int => rfl
  · obtain rfl := le_zero.mp hk
    exact hm p hp

lemma Inv.carved (h : Inv t₀ n s) {c : KernelStackCtrl}
    (keeper : Keeper) (hfe : FreshPages s pa)
    (hca : s.ctrl.carve (.ok pa) = .ok (addr,c)) (hct : s'.ctrl = c) (hha : s'.handed = addr :: s.handed)
    (hfr : s'.frames = stackFrames pa ++ s.frames)
    (hh : s'.hold keeper = addr :: s.hold keeper)
    (ho : ∀ k, k ≠ keeper → k ≠ .freed → s'.hold k = s.hold k) : Inv t₀ (n + 1) s' := by
  obtain ⟨rfl,hc⟩ := carve_carved h.slotted h.top hca
  refine ⟨?_,?_,?_,?_,?_,?_,?_,?_⟩
  · rw [hfr,length_append,h.count]
    simp only [stackFrames,length_cons,length_nil]
    omega
  · rw [hfr,nodup_append']
    refine ⟨by simp [stackFrames],h.distinct,hfe.unused⟩
  · intro f hf
    rw [hfr] at hf
    rcases mem_append.mp hf with hn | hold
    · exact hfe.physical f hn
    · exact h.physical f hold
  · rw [hct]
    exact hc.top
  · refine h.kept.grow (.of_eq hh) fun k hk => ?_
    by_cases hfd : k = .freed
    · subst hfd
      rw [State.hold,hct,hc.freed]
      rfl
    · exact ho k hk hfd
  · intro a ha
    rw [hha] at ha
    rcases mem_cons.mp ha with rfl | ha
    · exact mem_cons_self
    · exact mem_cons_of_mem _ (h.handed a ha)
  · intro k hk p hp
    rw [hct]
    by_cases hn : Inside (n + 1) p
    · exact hc.mapped p hn
    · rw [hc.outside p hn]
      refine h.mapped k ?_ p hp
      by_contra hgt
      exact hn (by rwa [show k = n + 1 by omega] at hp)
  · intro p hp
    rw [hct,hc.outside p (hp (n + 1) le_rfl),h.outside p fun k hk => hp k (by omega)]

lemma Inv.moved (h : Inv t₀ n s) {i j : Keeper} (hij : i ≠ j)
    (hi : (s.hold i).Perm (addr :: s'.hold i)) (hj : (s'.hold j).Perm (addr :: s.hold j))
    (ho : ∀ k, k ≠ i → k ≠ j → s'.hold k = s.hold k)
    (hto : s'.ctrl.stackAreaTop = s.ctrl.stackAreaTop) (ht : s'.ctrl.table = s.ctrl.table)
    (hf : s'.frames = s.frames) (hh : ∀ a ∈ s'.handed, a ∈ addr :: s.handed) :
    Inv t₀ n s' := by
  have hm := h.kept.mem.mpr ⟨i,hi.mem_iff.mpr mem_cons_self⟩
  refine ⟨by rw [hf,h.count],by rw [hf]; exact h.distinct,by rw [hf]; exact h.physical,
    by rw [hto,h.top],h.kept.move hij hi hj ho,fun a ha => ?_,by rw [ht]; exact h.mapped,
    by rw [ht]; exact h.outside⟩
  rcases mem_cons.mp (hh a ha) with rfl | hold
  · exact hm
  · exact h.handed a hold

lemma Inv.step (h : Inv t₀ n s) (hs : Step s s') : ∃ n', Inv t₀ n' s' := by
  cases hs with
  | pop addr c hp =>
    unfold popFreed at hp
    cases hfe : s.ctrl.freed with
    | nil => simp [hfe] at hp
    | cons first rest =>
      simp only [hfe,Option.some.injEq,Prod.mk.injEq] at hp
      obtain ⟨rfl,rfl⟩ := hp
      exact ⟨n,h.moved (i := .freed) (j := .thread) (by decide) (.of_eq hfe) (.refl _)
        (fun k hi hj => by cases k <;> first | rfl | contradiction) rfl rfl rfl fun a ha => ha⟩
  | miss _ => exact ⟨n,h.count,h.distinct,h.physical,h.top,h.kept,h.handed,h.mapped,h.outside⟩
  | carveThread pa addr c _ hfr hc =>
    refine ⟨n + 1,h.carved .thread hfr hc rfl rfl rfl rfl fun k hk hf => ?_⟩
    cases k with
    | freed => exact absurd rfl hf
    | thread => exact absurd rfl hk
    | int => rfl
  | free addr hm =>
    exact ⟨n,h.moved (i := .thread) (j := .freed) (by decide) (perm_cons_erase hm)
      (perm_append_singleton addr _)
      (fun k hi hj => by cases k <;> first | rfl | contradiction) rfl rfl rfl
      fun a ha => mem_cons_of_mem _ ha⟩
  | allocInt pa addr c hfr hc =>
    refine ⟨n + 1,h.carved .int hfr hc rfl rfl rfl rfl fun k hk hf => ?_⟩
    cases k with
    | freed => exact absurd rfl hf
    | thread => rfl
    | int => exact absurd rfl hk

lemma Inv.run (h : Inv t₀ n s) (hr : Run s s') : ∃ n', Inv t₀ n' s' := by
  induction hr with
  | refl => exact ⟨n,h⟩
  | tail _ hs ih =>
    obtain ⟨n',hin⟩ := ih
    exact hin.step hs

end

def bootStack : Word := kKernelEndAddr + 1 - kPageSize

def State.live (s : State) : List Word := bootStack :: (s.threads ++ s.ints)

def Apart (a b : Word) : Prop := a.toNat ≤ b.toNat - kStackSize.toNat ∨ b.toNat ≤ a.toNat - kStackSize.toNat

structure Guarded (t₀ : Table) (s : State) : Prop where
  apart : s.live.Pairwise Apart
  mapped : ∀ addr ∈ s.live, ∀ a : Word, addr.toNat - kStackSize.toNat ≤ a.toNat → a < addr →
    Mapped s.ctrl.table a
  below : ∀ addr ∈ bootStack :: s.handed,
    s.ctrl.table (pageOf (addr - kStackSize - 1)) = t₀ (pageOf (addr - kStackSize - 1))
  above : ∀ addr ∈ bootStack :: s.handed, s.ctrl.table (pageOf addr) = t₀ (pageOf addr)

section
variable {k l n : ℕ}

lemma slotTop_apart (hk : Slotted k) (hl : Slotted l) (hne : k ≠ l) : Apart (slotTop k) (slotTop l) := by
  rw [Apart,slotTop_toNat hk,slotTop_toNat hl,show kStackSize.toNat = 16384 from rfl]
  unfold Slotted at hk hl
  unfold slot
  omega

lemma bootStack_eq : bootStack = slotTop 0 := by decide

lemma mem_stacks (h : a ∈ bootStack :: pool n) : ∃ k ≤ n, a = slotTop k := by
  rcases mem_cons.mp h with rfl | hm
  · exact ⟨0,zero_le n,bootStack_eq⟩
  · obtain ⟨k,_,hk,rfl⟩ := mem_pool.mp hm
    exact ⟨k,hk,rfl⟩

lemma stacks_apart (h : Slotted n) {l : List Word} (hn : l.Nodup)
    (hm : ∀ a ∈ l, ∃ k ≤ n, a = slotTop k) : l.Pairwise Apart := by
  refine hn.imp_of_mem fun {a b} ha hb hne => ?_
  obtain ⟨k,hk,rfl⟩ := hm a ha
  obtain ⟨l,hl,rfl⟩ := hm b hb
  exact slotTop_apart (h.mono hk) (h.mono hl) fun heq => hne (by rw [heq])

lemma below_page (h : Slotted k) : pageOf (slotTop k - kStackSize - 1) = slot k := by
  have ht := slotTop_toNat h
  have hs : kStackSize.toNat = 16384 := rfl
  unfold Slotted at h
  unfold pageOf
  rw [toNat_sub,toNat_sub,ht,hs,show (1 : Word).toNat = 1 from rfl]
  unfold slot
  omega

end

section
variable {t₀ : Table} {n : ℕ} {s : State}

lemma Inv.live_mem (h : Inv t₀ n s) : ∀ a ∈ s.live, a ∈ bootStack :: pool n := by
  intro a ha
  rcases mem_cons.mp ha with rfl | ha
  · exact mem_cons_self
  · refine mem_cons_of_mem _ (h.kept.mem.mpr ?_)
    rcases mem_append.mp ha with ht | hin
    · exact ⟨.thread,ht⟩
    · exact ⟨.int,hin⟩

lemma Inv.live_nodup (h : Inv t₀ n s) : s.live.Nodup := by
  have hs := h.slotted
  have hp := pool_nodup (hs.mono (le_succ n))
  refine nodup_cons.mpr ⟨fun hb => ?_,nodup_append'.mpr
    ⟨h.kept.nodup hp .thread,h.kept.nodup hp .int,fun a ht hin => ?_⟩⟩
  · obtain ⟨k,_,_,heq⟩ := mem_pool.mp (h.kept.mem.mpr (by
      rcases mem_append.mp hb with ht | hin
      · exact ⟨.thread,ht⟩
      · exact ⟨.int,hin⟩))
    have hz := slotTop_inj (hs.mono (zero_le _)) (hs.mono (by omega))
      (bootStack_eq.symm.trans heq)
    omega
  · obtain ⟨_,_,hu⟩ := h.kept.unique hp (h.kept.mem.mpr ⟨.thread,ht⟩)
    have heq := (hu .thread ht).trans (hu .int hin).symm
    exact Keeper.noConfusion heq

lemma Inv.guarded (h : Inv t₀ n s) : Guarded t₀ s := by
  have hs := h.slotted.mono (le_succ n)
  have hg : ∀ addr ∈ bootStack :: s.handed, ∃ k ≤ n, addr = slotTop k := by
    intro addr had
    rcases mem_cons.mp had with rfl | hm
    · exact mem_stacks mem_cons_self
    · exact mem_stacks (mem_cons_of_mem _ (h.handed addr hm))
  refine ⟨stacks_apart hs h.live_nodup fun a ha => mem_stacks (h.live_mem a ha),?_,?_,?_⟩
  · intro addr had a hlo hhi
    obtain ⟨k,hk,rfl⟩ := mem_stacks (h.live_mem addr had)
    have hin : Inside k (pageOf a) := by
      rw [lt_def,slotTop_toNat (hs.mono hk)] at hhi
      rw [slotTop_toNat (hs.mono hk),show kStackSize.toNat = 16384 from rfl] at hlo
      unfold Inside pageOf
      omega
    exact h.mapped k hk _ hin
  · intro addr had
    obtain ⟨k,hk,rfl⟩ := hg addr had
    rw [below_page (hs.mono hk)]
    exact h.outside _ fun l hl => (guard_outside (hs.mono hk) (hs.mono hl)).1
  · intro addr had
    obtain ⟨k,hk,rfl⟩ := hg addr had
    rw [slotTop_page (hs.mono hk)]
    exact h.outside _ fun l hl => (guard_outside (hs.mono hk) (hs.mono hl)).2

theorem stacks_guarded (t : Table) (paddr : Word) (c : KernelStackCtrl) (s : State)
    (hinit : KernelStackCtrl.init t (.ok paddr) = .ok c) (hrun : Run (.boot c) s) : Guarded t s := by
  obtain ⟨_,hin⟩ := (inv_boot hinit).run hrun
  exact hin.guarded

def initialTable : Table := fun p => if p = 0xffffffffffffe then some 0x5ff else none

def initialCtrl : KernelStackCtrl :=
  ⟨0xffffffffffffa000,[],(mapLoop 3 initialTable 0xffffffffffffb000 0x700000).2⟩

def carvedCtrl : KernelStackCtrl :=
  ⟨0xffffffffffff4000,[],(mapLoop 4 initialCtrl.table 0xffffffffffff5000 0x800000).2⟩

theorem stacks_guarded_initial : ∃ s,
    KernelStackCtrl.init initialTable (.ok 0x700000) = .ok initialCtrl ∧ Run (.boot initialCtrl) s ∧
    s.live = [0xfffffffffffff000,0xffffffffffff9000] ∧ Guarded initialTable s := by
  have hin : KernelStackCtrl.init initialTable (.ok 0x700000) = .ok initialCtrl := rfl
  have hc : initialCtrl.carve (.ok 0x800000) = .ok (0xffffffffffff9000,carvedCtrl) := rfl
  have hm : Step (.boot initialCtrl) ⟨initialCtrl,1,[],[],[],[]⟩ := .miss rfl
  have ht : Step ⟨initialCtrl,1,[],[],[],[]⟩ ⟨carvedCtrl,0,[0xffffffffffff9000],[],
      [0xffffffffffff9000],[0x800,0x801,0x802,0x803]⟩ :=
    .carveThread 0x800000 0xffffffffffff9000 carvedCtrl (by decide)
      ⟨by simp,by decide⟩ hc
  have hr := (Relation.ReflTransGen.single hm).tail ht
  exact ⟨_,hin,hr,by decide,stacks_guarded initialTable 0x700000 initialCtrl _ hin hr⟩

end

end KernelStack
