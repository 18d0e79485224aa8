import Mathlib.Tactic.Ring
import RaphKernel.Ptr.Sptr

namespace Ptr
open Counting Function Pc BitVec Kind Set
variable {next : Option Var} {k : Kind} {s t : State} {h : Handle} {tmp : Cnt} {p q : Pc}
  {n r : ℕ} {e : Option Event}

namespace Pc

def Dropping (h : Handle) : Pc → Prop
  | .deleteObj _ h' _ => h' = h
  | .weakLoad .sptr _ h' _ => h' = h
  | .weakCas .sptr _ h' _ _ => h' = h
  | _ => False

def DeletingObj (h : Handle) : Pc → Prop
  | .deleteObj _ h' _ => h' = h
  | _ => False

def DeletingHelper (h : Handle) : Pc → Prop
  | .deleteHelper _ _ h' _ => h' = h
  | _ => False

def NextOk (m : Heap) (k : Kind) (d : Var) (next : Option Var) : Prop :=
  ∀ s, next = some s → s ≠ d ∧ ∃ p, m.slot s = k.slot p

def weakSlot : Kind → Handle → Slot
  | .sptr, _ => .none
  | .wptr, h => .wptr (some h)

def Ok (m : Heap) : Pc → Prop
  | .idle => True
  | .incLoad f d s h => m.slot d = .none ∧ m.slot s = f.source.slot (some h)
  | .incCas f d s h tmp => m.slot d = .none ∧ m.slot s = f.source.slot (some h) ∧
      (f = .sptrOfWptr → tmp ≠ 0)
  | .decLoad d h next => m.slot d = .sptr (some h) ∧ NextOk m .sptr d next
  | .decCas d h next _ => m.slot d = .sptr (some h) ∧ NextOk m .sptr d next
  | .deleteObj d h next => m.slot d = .none ∧ h < m.used ∧ NextOk m .sptr d next
  | .weakLoad k d h next => m.slot d = weakSlot k h ∧ h < m.used ∧ NextOk m k d next
  | .weakCas k d h next _ => m.slot d = weakSlot k h ∧ h < m.used ∧ NextOk m k d next
  | .deleteHelper k d h next => m.slot d = .none ∧ h < m.used ∧ NextOk m k d next
  | .assign k d s => m.slot d = .none ∧ ∃ p, m.slot s = k.slot p

variable {m m' : Heap} {k : Kind} {d : Var} {h : Handle} {x : Option Var} {p : Pc}

lemma NextOk.frame (hn : NextOk m k d x)
    (hslot : ∀ v ∈ x.toList, m'.slot v = m.slot v) : NextOk m' k d x := by
  intro s hs
  obtain ⟨hne,p,hp⟩ := hn s hs
  exact ⟨hne,p,by rw [hslot s (by simp [hs]),hp]⟩

lemma NextOk.put {y : Slot} (hn : NextOk m k d x) (hslot : m'.slot = update m.slot d y) :
    NextOk m' k d x := by
  refine hn.frame fun v hv => ?_
  rw [hslot,update_of_ne (hn v (by simpa using hv)).1]

lemma Ok.frame (hp : p.Ok m) (hslot : ∀ v ∈ p.vars, m'.slot v = m.slot v)
    (hu : m.used ≤ m'.used) : p.Ok m' := by
  have ht : ∀ {d x}, (∀ v ∈ d :: Option.toList x, m'.slot v = m.slot v) →
      m'.slot d = m.slot d ∧ ∀ v ∈ x.toList, m'.slot v = m.slot v :=
    fun h => ⟨h _ (by simp),fun v hv => h v (by simp [hv])⟩
  cases p with
  | idle => trivial
  | incLoad f d s h =>
    exact ⟨(hslot d (by simp [vars])).trans hp.1,(hslot s (by simp [vars])).trans hp.2⟩
  | incCas f d s h tmp =>
    exact ⟨(hslot d (by simp [vars])).trans hp.1,(hslot s (by simp [vars])).trans hp.2.1,hp.2.2⟩
  | decLoad d h x | decCas d h x tmp =>
    obtain ⟨hd,hn⟩ := ht hslot
    exact ⟨hd.trans hp.1,hp.2.frame hn⟩
  | assign k d s =>
    obtain ⟨hd,q,hq⟩ := hp
    exact ⟨(hslot d (by simp [vars])).trans hd,q,(hslot s (by simp [vars])).trans hq⟩
  | _ =>
    obtain ⟨hd,hn⟩ := ht hslot
    exact ⟨hd.trans hp.1,hp.2.1.trans_le hu,hp.2.2.frame hn⟩

lemma released_ok (hd : m.slot d = .none) (hn : NextOk m k d x) : (released k d x).Ok m := by
  cases x with
  | none => trivial
  | some s => exact ⟨hd,(hn s rfl).2⟩

lemma released_vars (k : Kind) (d : Var) (next : Option Var) :
    ∀ v ∈ (released k d next).vars, v ∈ d :: next.toList := by
  cases next with
  | none | some s => simp [released,vars]

lemma release_vars (k : Kind) (d : Var) (h : Handle) (next : Option Var) :
    (release k d h next).vars = d :: next.toList := by
  cases k <;> rfl

end Pc

def owners (m : Heap) (h : Handle) : Set Var := {v | m.slot v = .sptr (some h)}

def watchers (m : Heap) (h : Handle) : Set Var := {v | m.slot v = .wptr (some h)}

def alive (n : Cnt) : ℕ := if n = 0 then 0 else 1

structure HandleOk (s : State) (h : Handle) : Prop where
  shared : Counts s.heap.slot (· = .sptr (some h)) (s.heap.sharedCnt h).toNat
  weak : ∃ w r, Counts s.heap.slot (· = .wptr (some h)) w ∧ Counts s.pc (Pc.Dropping h) r ∧
    (s.heap.weakCnt h).toNat = w + r + alive (s.heap.sharedCnt h) ∧
    r + alive (s.heap.sharedCnt h) ≤ 1
  obj : ∃ n, Counts s.pc (Pc.DeletingObj h) n ∧
    s.heap.objDeleted h + n + alive (s.heap.sharedCnt h) = 1
  helper : ∃ n, Counts s.pc (Pc.DeletingHelper h) n ∧
    s.heap.helperDeleted h + n + alive (s.heap.weakCnt h) = 1

structure PtrOk (s : State) : Prop where
  handle : ∀ h < s.heap.used, HandleOk s h
  fresh : ∀ h, s.heap.used ≤ h → s.heap.objDeleted h = 0 ∧ s.heap.helperDeleted h = 0
  known : ∀ v k h, s.heap.slot v = Kind.slot k (some h) → h < s.heap.used
  pcs : ∀ a, (s.pc a).Ok s.heap
  apart : ∀ a b, a ≠ b → ∀ v ∈ (s.pc a).vars, v ∉ (s.pc b).vars

structure Pc.Same (h : Handle) (p q : Pc) : Prop where
  dropping : p.Dropping h ↔ q.Dropping h
  obj : p.DeletingObj h ↔ q.DeletingObj h
  helper : p.DeletingHelper h ↔ q.DeletingHelper h

def Pc.Quiet (h : Handle) (p : Pc) : Prop :=
  ¬ p.Dropping h ∧ ¬ p.DeletingObj h ∧ ¬ p.DeletingHelper h

lemma Pc.same_of_quiet (hp : p.Quiet h) (hq : q.Quiet h) : p.Same h q :=
  ⟨iff_of_false hp.1 hq.1,iff_of_false hp.2.1 hq.2.1,iff_of_false hp.2.2 hq.2.2⟩

lemma Pc.released_quiet (k : Kind) (d : Var) (next : Option Var) (h : Handle) :
    (released k d next).Quiet h := by
  cases next <;> exact ⟨id,id,id⟩

lemma Pc.release_quiet (k : Kind) (d : Var) (g : Handle) (next : Option Var) (h : Handle) :
    (release k d g next).Quiet h := by
  cases k <;> exact ⟨id,id,id⟩

lemma alive_pos {n : Cnt} (h : n ≠ 0) : alive n = 1 := if_neg h

lemma alive_inc {n : Cnt} (h : n ≠ 0) (hlt : n.toNat + 1 < 2 ^ 31) :
    (n + 1).toNat = n.toNat + 1 ∧ alive (n + 1) = alive n := by
  have hin := toNat_inc (x := n)
  exact ⟨hin,by rw [alive_pos h,alive_pos (ne_zero_of_pos (by omega))]⟩

lemma alive_dec (n : Cnt) : alive (n - 1) = if n = 1 then 0 else 1 := by
  split
  case isTrue hlast =>
    rw [hlast]
    rfl
  case isFalse hmore =>
    refine alive_pos fun hz => hmore ?_
    have hc := BitVec.sub_add_cancel n 1
    rw [hz] at hc
    exact hc.symm

def Heap.Reads (m : Heap) (h : Handle) (sc wc : Cnt) (od hd : ℕ) : Prop :=
  m.sharedCnt h = sc ∧ m.weakCnt h = wc ∧ m.objDeleted h = od ∧ m.helperDeleted h = hd

section
variable {s : State} {m : Heap} {h : Handle} {a : ℕ} {p : Pc} {d : Var} {y : Slot}

lemma HandleOk.intro {pc : ℕ → Pc} {sc wc : Cnt} {od hd w f : ℕ} (hm : m.Reads h sc wc od hd)
    (hsh : Counts m.slot (· = .sptr (some h)) sc.toNat)
    (hcw : Counts m.slot (· = .wptr (some h)) w) (hcr : Counts pc (Pc.Dropping h) r)
    (hcn : Counts pc (Pc.DeletingObj h) n) (hcf : Counts pc (Pc.DeletingHelper h) f)
    (hsu : wc.toNat = w + r + alive sc) (ho : r + alive sc ≤ 1)
    (hob : od + n + alive sc = 1) (hh : hd + f + alive wc = 1) : HandleOk ⟨m,pc⟩ h := by
  obtain ⟨rfl,rfl,rfl,rfl⟩ := hm
  exact ⟨hsh,⟨w,r,hcw,hcr,hsu,ho⟩,⟨n,hcn,hob⟩,f,hcf,hh⟩

section
variable (hk : HandleOk s h)
include hk

section
variable (hslot : m.slot = update s.heap.slot d y)
include hslot

lemma HandleOk.frame (hs : y = .sptr (some h) ↔ s.heap.slot d = .sptr (some h))
    (hw : y = .wptr (some h) ↔ s.heap.slot d = .wptr (some h))
    (hm : m.Reads h (s.heap.sharedCnt h) (s.heap.weakCnt h) (s.heap.objDeleted h)
      (s.heap.helperDeleted h)) (hp : p.Same h (s.pc a)) : HandleOk ⟨m,update s.pc a p⟩ h := by
  obtain ⟨hsh,⟨w,r,hcw,hcr,hsu,ho⟩,⟨n,hcn,hob⟩,f,hcf,hh⟩ := hk
  exact .intro hm (hslot ▸ hsh.stay hs) (hslot ▸ hcw.stay hw) (hcr.stay hp.dropping)
    (hcn.stay hp.obj) (hcf.stay hp.helper) hsu ho hob hh

lemma HandleOk.incShared (hd : s.heap.slot d = .none) (hy : y = .sptr (some h))
    (hne : s.heap.sharedCnt h ≠ 0)
    (hm : m.Reads h (s.heap.sharedCnt h + 1) (s.heap.weakCnt h) (s.heap.objDeleted h)
      (s.heap.helperDeleted h)) (hb : (owners m h).encard < 2 ^ 31) (hp : p.Same h (s.pc a)) :
    HandleOk ⟨m,update s.pc a p⟩ h := by
  obtain ⟨hsh,⟨w,r,hcw,hcr,hsu,hon⟩,⟨n,hcn,ho⟩,f,hcf,hh⟩ := hk
  have hc : (owners m h).encard = ((s.heap.sharedCnt h).toNat + 1 : ℕ) := by
    have he := hsh.enter (a := d) (by simp [hd]) hy
    rwa [← hslot] at he
  rw [hc] at hb
  obtain ⟨hin,ha⟩ := alive_inc hne (by exact_mod_cast hb)
  refine .intro hm (hin ▸ hc) (hslot ▸ hcw.stay (by simp [hd,hy])) (hcr.stay hp.dropping)
    (hcn.stay hp.obj) (hcf.stay hp.helper) ?_ ?_ ?_ hh <;> rwa [ha]

lemma HandleOk.incWeak (hd : s.heap.slot d = .none) (hy : y = .wptr (some h))
    (hne : s.heap.weakCnt h ≠ 0)
    (hm : m.Reads h (s.heap.sharedCnt h) (s.heap.weakCnt h + 1) (s.heap.objDeleted h)
      (s.heap.helperDeleted h)) (hb : (watchers m h).encard + 1 < 2 ^ 31)
    (hp : p.Same h (s.pc a)) : HandleOk ⟨m,update s.pc a p⟩ h := by
  obtain ⟨hsh,⟨w,r,hcw,hcr,hsu,hon⟩,⟨n,hcn,ho⟩,f,hcf,hh⟩ := hk
  have hc : (watchers m h).encard = (w + 1 : ℕ) := by
    have he := hcw.enter (a := d) (by simp [hd]) hy
    rwa [← hslot] at he
  rw [hc] at hb
  have hlt : w + 1 + 1 < 2 ^ 31 := by exact_mod_cast hb
  obtain ⟨hin,ha⟩ := alive_inc hne (by omega)
  exact .intro hm (hslot ▸ hsh.stay (by simp [hd,hy])) hc (hcr.stay hp.dropping)
    (hcn.stay hp.obj) (hcf.stay hp.helper) (by omega) hon ho (by rwa [ha])

end

lemma HandleOk.shared_ne (hd : s.heap.slot d = .sptr (some h)) :
    s.heap.sharedCnt h ≠ 0 := ne_zero_of_pos (hk.shared.pos hd)

lemma HandleOk.weak_ne (hin : s.heap.sharedCnt h ≠ 0 ∨ s.heap.slot d = .wptr (some h) ∨
    (s.pc a).Dropping h) : s.heap.weakCnt h ≠ 0 := by
  obtain ⟨w,r,hcw,hcr,hsu,_⟩ := hk.weak
  refine ne_zero_of_pos ?_
  rcases hin with hne | hd | ha
  · rw [alive_pos hne] at hsu
    omega
  · have hp := hcw.pos hd
    omega
  · have hp := hcr.pos ha
    omega

lemma HandleOk.decShared (hslot : m.slot = update s.heap.slot d .none)
    (hd : s.heap.slot d = .sptr (some h))
    (hm : m.Reads h (s.heap.sharedCnt h - 1) (s.heap.weakCnt h) (s.heap.objDeleted h)
      (s.heap.helperDeleted h)) (hq : (s.pc a).Quiet h) :
    HandleOk ⟨m,update s.pc a (if s.heap.sharedCnt h = 1 then .deleteObj d h next
      else .released .sptr d next)⟩ h := by
  have hne := hk.shared_ne hd
  obtain ⟨hsh,⟨w,r,hcw,hcr,hsu,ho⟩,⟨n,hcn,hob⟩,f,hcf,hh⟩ := hk
  have hc : Counts m.slot (· = .sptr (some h)) (s.heap.sharedCnt h - 1).toNat := by
    rw [hslot,toNat_dec hne]
    exact hsh.leave hd (by simp)
  have hw : Counts m.slot (· = .wptr (some h)) w := hslot ▸ hcw.stay (by simp [hd])
  have hde := alive_dec (s.heap.sharedCnt h)
  rw [alive_pos hne] at hsu ho hob
  split
  case isTrue hlast =>
    rw [if_pos hlast] at hde
    exact .intro hm hc hw (hcr.enter hq.1 rfl) (hcn.enter hq.2.1 rfl)
      (hcf.stay (iff_of_false id hq.2.2)) (by omega) (by omega) (by omega) hh
  case isFalse hmore =>
    rw [if_neg hmore] at hde
    have hsa := same_of_quiet (released_quiet .sptr d next h) hq
    exact .intro hm hc hw (hcr.stay hsa.dropping) (hcn.stay hsa.obj)
      (hcf.stay hsa.helper) (by omega) (by omega) (by omega) hh

section
variable (hslot : m.slot = s.heap.slot)
include hslot

lemma HandleOk.freeObj (hpc : s.pc a = .deleteObj d h next)
    (hm : m.Reads h (s.heap.sharedCnt h) (s.heap.weakCnt h) (s.heap.objDeleted h + 1)
      (s.heap.helperDeleted h)) :
    HandleOk ⟨m,update s.pc a (.weakLoad .sptr d h next)⟩ h := by
  obtain ⟨hsh,⟨w,r,hcw,hcr,hsu,ho⟩,⟨n,hcn,hob⟩,f,hcf,hh⟩ := hk
  have hme : (s.pc a).DeletingObj h := hpc ▸ rfl
  have hp := hcn.pos hme
  exact .intro hm (hslot ▸ hsh) (hslot ▸ hcw) (hcr.stay (hpc ▸ Iff.rfl)) (hcn.leave hme id)
    (hcf.stay (hpc ▸ Iff.rfl)) hsu ho (by omega) hh

lemma HandleOk.freeHelper (hpc : s.pc a = .deleteHelper k d h next)
    (hm : m.Reads h (s.heap.sharedCnt h) (s.heap.weakCnt h) (s.heap.objDeleted h)
      (s.heap.helperDeleted h + 1)) : HandleOk ⟨m,update s.pc a (.released k d next)⟩ h := by
  obtain ⟨hsh,⟨w,r,hcw,hcr,hsu,hon⟩,⟨n,hcn,ho⟩,f,hcf,hh⟩ := hk
  obtain ⟨hq,hq2,hq3⟩ := released_quiet k d next h
  have hme : (s.pc a).DeletingHelper h := hpc ▸ rfl
  have hp := hcf.pos hme
  exact .intro hm (hslot ▸ hsh) (hslot ▸ hcw) (hcr.stay (iff_of_false hq (hpc ▸ id)))
    (hcn.stay (iff_of_false hq2 (hpc ▸ id))) (hcf.leave hme hq3) hsu hon ho (by omega)

end

lemma HandleOk.leave_weak {w : ℕ} (hd : s.heap.slot d = weakSlot k h)
    (hpc : s.pc a = .weakCas k d h next tmp) (hpd : ¬ p.Dropping h)
    (hcw : Counts s.heap.slot (· = .wptr (some h)) w) (hcr : Counts s.pc (Pc.Dropping h) r) :
    s.heap.weakCnt h ≠ 0 ∧ ∃ w' r', Counts (update s.heap.slot d .none) (· = .wptr (some h)) w' ∧
      Counts (update s.pc a p) (Pc.Dropping h) r' ∧ w' + r' + 1 = w + r ∧ r' ≤ r := by
  cases k with
  | sptr =>
    have hm : (s.pc a).Dropping h := hpc ▸ rfl
    have hp := hcr.pos hm
    refine ⟨hk.weak_ne (d := d) (.inr (.inr hm)),w,r - 1,hcw.stay ?_,hcr.leave hm hpd,by omega,
      by omega⟩
    simp [hd,weakSlot]
  | wptr =>
    have hp := hcw.pos hd
    exact ⟨hk.weak_ne (a := a) (.inr (.inl hd)),w - 1,r,hcw.leave hd (by simp),
      hcr.stay (iff_of_false hpd (hpc ▸ id)),by omega,le_rfl⟩

lemma HandleOk.decWeak (hslot : m.slot = update s.heap.slot d .none)
    (hd : s.heap.slot d = weakSlot k h) (hpc : s.pc a = .weakCas k d h next tmp)
    (hm : m.Reads h (s.heap.sharedCnt h) (s.heap.weakCnt h - 1) (s.heap.objDeleted h)
      (s.heap.helperDeleted h)) :
    HandleOk ⟨m,update s.pc a (if s.heap.weakCnt h = 1 then .deleteHelper k d h next
      else .released k d next)⟩ h := by
  obtain ⟨w,r,hcw,hcr,_,_⟩ := hk.weak
  obtain ⟨n,hcn,ho⟩ := hk.obj
  obtain ⟨f,hcf,hh⟩ := hk.helper
  obtain ⟨hq,hq2,hq3⟩ := released_quiet k d next h
  have hc : Counts m.slot (· = .sptr (some h)) (s.heap.sharedCnt h).toNat := by
    rw [hslot]
    refine hk.shared.stay ?_
    rw [hd]
    cases k <;> simp [weakSlot]
  split
  case isTrue hlast =>
    obtain ⟨hne,w',r',hcw',hcr',hsu',hle⟩ := hk.leave_weak hd hpc (p := .deleteHelper k d h next) id
      hcw hcr
    have hde := toNat_dec hne
    have ha := alive_dec (s.heap.weakCnt h)
    rw [if_pos hlast] at ha
    rw [alive_pos hne] at hh
    exact .intro hm hc (hslot ▸ hcw') hcr' (hcn.stay (iff_of_false id (hpc ▸ id)))
      (hcf.enter (hpc ▸ id) rfl) (by omega) (by omega) ho (by omega)
  case isFalse hmore =>
    obtain ⟨hne,w',r',hcw',hcr',_,_⟩ := hk.leave_weak hd hpc hq hcw hcr
    have hde := toNat_dec hne
    have ha := alive_dec (s.heap.weakCnt h)
    rw [if_neg hmore] at ha
    rw [alive_pos hne] at hh
    exact .intro hm hc (hslot ▸ hcw') hcr' (hcn.stay (iff_of_false hq2 (hpc ▸ id)))
      (hcf.stay (iff_of_false hq3 (hpc ▸ id))) (by omega) (by omega) ho (by omega)

end

end

def Bounded (m : Heap) : Prop :=
  ∀ h, (owners m h).encard < 2 ^ 31 ∧ (watchers m h).encard + 1 < 2 ^ 31

def Slot.Free (x : Slot) : Prop := ∀ k h, x ≠ Kind.slot k (some h)

lemma free_none : Slot.none.Free := by
  intro k h
  cases k <;> simp [slot]

lemma free_null (k : Kind) : (k.slot none).Free := by
  intro k' h
  cases k <;> cases k' <;> simp [slot]

lemma slot_inj {k' : Kind} {h' : Handle} (he : k.slot (some h) = k'.slot (some h')) :
    k = k' ∧ h = h' := by
  cases k <;> cases k' <;> simp_all [slot]

section
variable {s : State} {m : Heap} {h : Handle} {a : ℕ} {p : Pc} {d : Var} {y : Slot} {vs : List Var}

section
variable (hs : PtrOk s) (hexcl : ∀ b, b ≠ a → ∀ v ∈ vs, v ∉ (s.pc b).vars)
include hs hexcl

lemma PtrOk.of_parts (hslot : ∀ v, v ∉ (s.pc a).vars → v ∉ vs → m.slot v = s.heap.slot v)
    (hva : ∀ v ∈ p.vars, v ∈ (s.pc a).vars ∨ v ∈ vs) (hu : s.heap.used ≤ m.used) (hp : p.Ok m)
    (hkn : ∀ v k h, m.slot v = slot k (some h) → h < m.used)
    (hf : ∀ h, m.used ≤ h → m.objDeleted h = 0 ∧ m.helperDeleted h = 0)
    (hh : ∀ h < m.used, HandleOk ⟨m,update s.pc a p⟩ h) : PtrOk ⟨m,update s.pc a p⟩ := by
  have ho : ∀ b, b ≠ a → ∀ v ∈ (s.pc b).vars, v ∉ (s.pc a).vars ∧ v ∉ vs :=
    fun b hb v hv => ⟨hs.apart b a hb v hv,fun hm => hexcl b hb v hm hv⟩
  have hn : ∀ b, b ≠ a → ∀ v ∈ p.vars, v ∉ (s.pc b).vars := by
    intro b hb v hv hm
    rcases hva v hv with hol | hol
    · exact (ho b hb v hm).1 hol
    · exact (ho b hb v hm).2 hol
  refine ⟨hh,hf,hkn,?_,?_⟩
  · intro b
    rcases eq_or_ne b a with rfl | hb
    · simpa using hp
    · simp only [update_of_ne hb]
      exact (hs.pcs b).frame (fun v hv => hslot v (ho b hb v hv).1 (ho b hb v hv).2) hu
  · intro b c hbc v hv
    dsimp only at hv ⊢
    rcases eq_or_ne b a with rfl | hb
    · rw [update_self] at hv
      rw [update_of_ne hbc.symm]
      exact hn c hbc.symm v hv
    · rw [update_of_ne hb] at hv
      rcases eq_or_ne c a with rfl | hc
      · rw [update_self]
        exact fun hm => hn b hb v hm hv
      · rw [update_of_ne hc]
        exact hs.apart b c hbc v hv

lemma PtrOk.pcOnly (hv : ∀ v ∈ p.vars, v ∈ (s.pc a).vars ∨ v ∈ vs) (hp : p.Ok s.heap)
    (hsa : ∀ h, p.Same h (s.pc a)) : PtrOk ⟨s.heap,update s.pc a p⟩ := by
  refine hs.of_parts hexcl (fun _ _ _ => rfl) hv le_rfl hp hs.known hs.fresh ?_
  intro h hh
  exact (hs.handle h hh).frame (d := 0) (update_eq_self 0 _).symm Iff.rfl Iff.rfl
    ⟨rfl,rfl,rfl,rfl⟩ (hsa h)

lemma PtrOk.putFree (hd : d ∈ (s.pc a).vars ∨ d ∈ vs) (ho : (s.heap.slot d).Free)
    (hn : y.Free) (hva : ∀ v ∈ p.vars, v ∈ (s.pc a).vars ∨ v ∈ vs) (hp : p.Ok (s.heap.put d y))
    (hsa : ∀ h, p.Same h (s.pc a)) : PtrOk ⟨s.heap.put d y,update s.pc a p⟩ := by
  refine hs.of_parts hexcl ?_ hva le_rfl hp ?_ hs.fresh ?_
  · intro v hv hv'
    refine update_of_ne ?_ _ _
    rintro rfl
    exact hd.elim hv hv'
  · intro v k h hv
    rw [Heap.put_slot] at hv
    rcases eq_or_ne v d with rfl | hne
    · rw [update_self] at hv
      exact absurd hv (hn k h)
    · rw [update_of_ne hne] at hv
      exact hs.known v k h hv
  · intro h hh
    exact (hs.handle h hh).frame rfl (iff_of_false (hn .sptr h) (ho .sptr h))
      (iff_of_false (hn .wptr h) (ho .wptr h)) ⟨rfl,rfl,rfl,rfl⟩ (hsa h)

end

lemma PtrOk.cntStep (hs : PtrOk s) (hd : d ∈ (s.pc a).vars) (hh : h < s.heap.used)
    (hslot : m.slot = update s.heap.slot d y) (hu : m.used = s.heap.used)
    (hol : ∀ g, g ≠ h → ∀ k, s.heap.slot d ≠ slot k (some g))
    (hn : ∀ g, g ≠ h → ∀ k, y ≠ slot k (some g))
    (hc : ∀ g, g ≠ h → m.Reads g (s.heap.sharedCnt g) (s.heap.weakCnt g) (s.heap.objDeleted g)
      (s.heap.helperDeleted g))
    (hva : ∀ v ∈ p.vars, v ∈ (s.pc a).vars) (hp : p.Ok m)
    (hsa : ∀ g, g ≠ h → p.Same g (s.pc a))
    (hm : HandleOk ⟨m,update s.pc a p⟩ h) :
    PtrOk ⟨m,update s.pc a p⟩ := by
  have hexcl : ∀ b, b ≠ a → ∀ v ∈ ([] : List Var), v ∉ (s.pc b).vars := by simp
  refine hs.of_parts hexcl ?_ (fun v hv => .inl (hva v hv)) hu.ge hp ?_ ?_ ?_
  · intro v hv _
    rw [hslot]
    refine update_of_ne ?_ _ _
    rintro rfl
    exact hv hd
  · intro v k g hv
    rw [hu]
    rcases eq_or_ne g h with rfl | hg
    · exact hh
    · rw [hslot] at hv
      rcases eq_or_ne v d with rfl | hne
      · rw [update_self] at hv
        exact absurd hv (hn g hg k)
      · rw [update_of_ne hne] at hv
        exact hs.known v k g hv
  · intro g hg
    rw [hu] at hg
    obtain ⟨_,_,ho,hd⟩ := hc g (Nat.ne_of_gt (hh.trans_le hg))
    rw [ho,hd]
    exact hs.fresh g hg
  · intro g hg
    rw [hu] at hg
    rcases eq_or_ne g h with rfl | hne
    · exact hm
    · exact (hs.handle g hg).frame hslot (iff_of_false (hn g hne .sptr) (hol g hne .sptr))
        (iff_of_false (hn g hne .wptr) (hol g hne .wptr)) (hc g hne) (hsa g hne)

lemma Pc.Ok.known (hp : p.Ok m)
    (hh : p.Dropping h ∨ p.DeletingObj h ∨ p.DeletingHelper h) : h < m.used := by
  cases p with
  | deleteObj d g next | deleteHelper k d g next =>
    have hg : g = h := by simpa [Pc.Dropping,Pc.DeletingObj,Pc.DeletingHelper] using hh
    exact hg ▸ hp.2.1
  | weakLoad k d g next | weakCas k d g next tmp =>
    cases k with
    | sptr =>
      have hg : g = h := by simpa [Pc.Dropping,Pc.DeletingObj,Pc.DeletingHelper] using hh
      exact hg ▸ hp.2.1
    | wptr => simp [Pc.Dropping,Pc.DeletingObj,Pc.DeletingHelper] at hh
  | _ => simp [Pc.Dropping,Pc.DeletingObj,Pc.DeletingHelper] at hh

section
variable (hs : PtrOk s)
include hs

lemma PtrOk.unseen (k : Kind) : Counts s.heap.slot (· = k.slot (some s.heap.used)) 0 :=
  counts_zero.mpr fun v hv => lt_irrefl _ (hs.known v k _ hv)

lemma PtrOk.untouched (b : ℕ) : (s.pc b).Quiet s.heap.used := by
  refine ⟨?_,?_,?_⟩
  · exact fun hb => lt_irrefl _ ((hs.pcs b).known (.inl hb))
  · exact fun hb => lt_irrefl _ ((hs.pcs b).known (.inr (.inl hb)))
  · exact fun hb => lt_irrefl _ ((hs.pcs b).known (.inr (.inr hb)))

lemma PtrOk.newborn (hd : s.heap.slot d = .none) (hsa : idle.Same s.heap.used (s.pc a)) :
    HandleOk ⟨s.heap.newHelper.put d (.sptr (some s.heap.used)),update s.pc a .idle⟩
      s.heap.used := by
  have hn : ∀ k h, s.heap.slot d ≠ slot k (some h) := fun k h => hd ▸ free_none k h
  obtain ⟨ho,hh⟩ := hs.fresh s.heap.used le_rfl
  have hsc : (s.heap.newHelper.put d (.sptr (some s.heap.used))).sharedCnt s.heap.used = 1 :=
    update_self ..
  have hwc : (s.heap.newHelper.put d (.sptr (some s.heap.used))).weakCnt s.heap.used = 1 :=
    update_self ..
  refine ⟨?_,⟨0,0,?_,?_,?_,?_⟩,⟨0,?_,?_⟩,⟨0,?_,?_⟩⟩
  · rw [hsc]
    exact (hs.unseen .sptr).enter (hn .sptr _) rfl
  · exact (hs.unseen .wptr).stay (iff_of_false (by simp [slot]) (hn .wptr _))
  · exact (counts_zero.mpr fun b => (hs.untouched b).1).stay hsa.dropping
  · rw [hsc,hwc]
    rfl
  · rw [hsc]
    decide
  · exact (counts_zero.mpr fun b => (hs.untouched b).2.1).stay hsa.obj
  · rw [hsc]
    change s.heap.objDeleted s.heap.used + 0 + 1 = 1
    rw [ho]
  · exact (counts_zero.mpr fun b => (hs.untouched b).2.2).stay hsa.helper
  · rw [hwc]
    change s.heap.helperDeleted s.heap.used + 0 + 1 = 1
    rw [hh]

lemma PtrOk.make (hexcl : ∀ b, b ≠ a → ∀ v ∈ [d], v ∉ (s.pc b).vars) (hd : s.heap.slot d = .none)
    (hpc : s.pc a = .idle) :
    PtrOk ⟨s.heap.newHelper.put d (.sptr (some s.heap.used)),update s.pc a .idle⟩ := by
  have hn : ∀ k h, s.heap.slot d ≠ slot k (some h) := fun k h => hd ▸ free_none k h
  have hsa : ∀ h, idle.Same h (s.pc a) := by
    intro h
    rw [hpc]
    exact ⟨Iff.rfl,Iff.rfl,Iff.rfl⟩
  have hslot : (s.heap.newHelper.put d (.sptr (some s.heap.used))).slot =
      update s.heap.slot d (.sptr (some s.heap.used)) := rfl
  refine hs.of_parts hexcl ?_ (by simp [vars]) (Nat.le_succ _) trivial ?_ ?_ ?_
  · intro v _ hv
    rw [hslot]
    exact update_of_ne (by simpa using hv) _ _
  · intro v k h hv
    rw [hslot] at hv
    rcases eq_or_ne v d with rfl | hne
    · rw [update_self] at hv
      have hh : s.heap.used = h := (slot_inj (k := .sptr) hv).2
      exact hh ▸ Nat.lt_succ_self _
    · rw [update_of_ne hne] at hv
      exact (hs.known v k h hv).trans (Nat.lt_succ_self _)
  · intro h hh
    exact hs.fresh h ((Nat.le_succ _).trans hh)
  · intro h hh
    rcases Nat.lt_succ_iff_lt_or_eq.mp hh with hlt | rfl
    · have hne := hlt.ne
      refine (hs.handle h hlt).frame hslot (iff_of_false ?_ (hn .sptr h))
        (iff_of_false (by simp) (hn .wptr h))
        ⟨update_of_ne hne _ _,update_of_ne hne _ _,rfl,rfl⟩ (hsa h)
      simpa using hne.symm
    · exact hs.newborn hd (hsa _)

lemma PtrOk.inc {f : Construct} {d sr : Var} (hpc : s.pc a = .incCas f d sr h tmp)
    (ht : s.heap.cnt f.result h = tmp)
    (hb : Bounded ((s.heap.setCnt f.result h (tmp + 1)).put d (f.result.slot (some h)))) :
    PtrOk ⟨(s.heap.setCnt f.result h (tmp + 1)).put d (f.result.slot (some h)),
      update s.pc a .idle⟩ := by
  have hok := hs.pcs a
  rw [hpc] at hok
  obtain ⟨hd,hsr,hp⟩ := hok
  have hh := hs.known sr f.source h hsr
  have hk := hs.handle h hh
  have hq : ∀ g, idle.Same g (s.pc a) := by
    intro g
    rw [hpc]
    exact ⟨Iff.rfl,Iff.rfl,Iff.rfl⟩
  have hslot : ((s.heap.setCnt f.result h (tmp + 1)).put d (f.result.slot (some h))).slot =
      update s.heap.slot d (f.result.slot (some h)) := by
    cases f <;> rfl
  have ho : ∀ g, g ≠ h → ∀ k, s.heap.slot d ≠ slot k (some g) := fun g _ k => hd ▸ free_none k g
  have hn : ∀ g, g ≠ h → ∀ k, f.result.slot (some h) ≠ slot k (some g) :=
    fun g hg k he => hg (slot_inj he).2.symm
  refine hs.cntStep (by simp [hpc,vars]) hh hslot (by cases f <;> rfl) ho hn ?_
    (by simp [vars]) trivial (fun g _ => hq g) ?_
  · intro g hg
    cases f with
    | sptrOfSptr | sptrOfWptr => exact ⟨update_of_ne hg _ _,rfl,rfl,rfl⟩
    | wptrOfWptr | wptrOfSptr => exact ⟨rfl,update_of_ne hg _ _,rfl,rfl⟩
  · subst ht
    cases f with
    | sptrOfSptr =>
      exact hk.incShared hslot hd rfl (hk.shared_ne hsr) ⟨update_self ..,rfl,rfl,rfl⟩ (hb h).1
        (hq h)
    | sptrOfWptr =>
      exact hk.incShared hslot hd rfl (hp rfl) ⟨update_self ..,rfl,rfl,rfl⟩ (hb h).1 (hq h)
    | wptrOfWptr =>
      exact hk.incWeak hslot hd rfl (hk.weak_ne (a := a) (.inr (.inl hsr)))
        ⟨rfl,update_self ..,rfl,rfl⟩ (hb h).2 (hq h)
    | wptrOfSptr =>
      exact hk.incWeak hslot hd rfl (hk.weak_ne (d := d) (a := a) (.inl (hk.shared_ne hsr)))
        ⟨rfl,update_self ..,rfl,rfl⟩ (hb h).2 (hq h)

lemma PtrOk.release (hv : (s.pc a).vars = d :: next.toList) (hn : NextOk s.heap k d next)
    (hslot : m.slot = update s.heap.slot d .none) (hu : m.used = s.heap.used)
    (hh : h < s.heap.used) (ho : ∀ g, g ≠ h → ∀ k, s.heap.slot d ≠ slot k (some g))
    (hc : ∀ g, g ≠ h → m.Reads g (s.heap.sharedCnt g) (s.heap.weakCnt g) (s.heap.objDeleted g)
      (s.heap.helperDeleted g)) (hq : ∀ g, g ≠ h → (s.pc a).Quiet g ∧ q.Quiet g)
    (hqv : q.vars = d :: next.toList) (hqo : m.slot d = .none → NextOk m k d next → q.Ok m)
    (hm : HandleOk ⟨m,update s.pc a (if tmp = 1 then q else .released k d next)⟩ h) :
    PtrOk ⟨m,update s.pc a (if tmp = 1 then q else .released k d next)⟩ := by
  have hse : m.slot d = .none := hslot ▸ update_self ..
  have hn' := hn.put hslot
  refine hs.cntStep (by simp [hv]) hh hslot hu ho (fun g _ k => free_none k g) hc ?_ ?_ ?_ hm
  · rw [hv]
    split
    · exact fun v hv => hqv ▸ hv
    · exact released_vars k d next
  · split
    · exact hqo hse hn'
    · exact released_ok hse hn'
  · intro g hg
    split
    · exact same_of_quiet (hq g hg).2 (hq g hg).1
    · exact same_of_quiet (released_quiet k d next g) (hq g hg).1

lemma PtrOk.dec (hpc : s.pc a = .decCas d h next tmp) (ht : s.heap.sharedCnt h = tmp) :
    PtrOk ⟨(s.heap.setCnt .sptr h (tmp - 1)).put d .none,
      update s.pc a (if tmp = 1 then .deleteObj d h next else .released .sptr d next)⟩ := by
  have hok := hs.pcs a
  rw [hpc] at hok
  obtain ⟨hd,hn⟩ := hok
  have hh := hs.known d .sptr h hd
  refine hs.release (by rw [hpc,vars]) hn rfl rfl hh (fun g hg k he => ?_)
    (fun g hg => ⟨update_of_ne hg _ _,rfl,rfl,rfl⟩)
    (fun g hg => ⟨hpc ▸ ⟨id,id,id⟩,hg.symm,hg.symm,id⟩) rfl (fun hse hn' => ⟨hse,hh,hn'⟩) ?_
  · rw [hd] at he
    exact hg (slot_inj (k := .sptr) he).2.symm
  · subst ht
    exact (hs.handle h hh).decShared rfl hd ⟨update_self ..,rfl,rfl,rfl⟩ (hpc ▸ ⟨id,id,id⟩)

lemma PtrOk.drop (hpc : s.pc a = .weakCas k d h next tmp) (ht : s.heap.weakCnt h = tmp) :
    PtrOk ⟨(s.heap.setCnt .wptr h (tmp - 1)).put d .none,
      update s.pc a (if tmp = 1 then .deleteHelper k d h next else .released k d next)⟩ := by
  have hok := hs.pcs a
  rw [hpc] at hok
  obtain ⟨hd,hh,hn⟩ := hok
  refine hs.release (by rw [hpc,vars]) hn rfl rfl hh (fun g hg k' he => ?_)
    (fun g hg => ⟨rfl,update_of_ne hg _ _,rfl,rfl⟩) (fun g hg => ⟨?_,id,id,hg.symm⟩) rfl
    (fun hse hn' => ⟨hse,hh,hn'⟩) ?_
  · rw [hd] at he
    cases k with
    | sptr => exact free_none k' g he
    | wptr => exact hg (slot_inj (k := .wptr) he).2.symm
  · rw [hpc]
    cases k with
    | sptr => exact ⟨hg.symm,id,id⟩
    | wptr => exact ⟨id,id,id⟩
  · subst ht
    exact (hs.handle h hh).decWeak rfl hd hpc ⟨rfl,update_self ..,rfl,rfl⟩

lemma PtrOk.deleteObj (hpc : s.pc a = .deleteObj d h next) :
    PtrOk ⟨s.heap.deleteObj h,update s.pc a (.weakLoad .sptr d h next)⟩ := by
  have hok := hs.pcs a
  rw [hpc] at hok
  obtain ⟨hd,hh,hn⟩ := hok
  refine hs.cntStep (by simp [hpc,vars]) hh (update_eq_self d _).symm rfl
    (fun g _ k => hd ▸ free_none k g) (fun g _ k => hd ▸ free_none k g)
    (fun g hg => ⟨rfl,rfl,update_of_ne hg _ _,rfl⟩) (fun v hv => by rw [hpc]; exact hv)
    ⟨hd,hh,hn⟩ ?_ ?_
  · intro g hg
    rw [hpc]
    exact same_of_quiet ⟨hg.symm,id,id⟩ ⟨hg.symm,hg.symm,id⟩
  · exact (hs.handle h hh).freeObj rfl hpc ⟨rfl,rfl,update_self ..,rfl⟩

lemma PtrOk.deleteHelper (hpc : s.pc a = .deleteHelper k d h next) :
    PtrOk ⟨s.heap.deleteHelper h,update s.pc a (.released k d next)⟩ := by
  have hok := hs.pcs a
  rw [hpc] at hok
  obtain ⟨hd,hh,hn⟩ := hok
  refine hs.cntStep (by simp [hpc,vars]) hh (update_eq_self d _).symm rfl
    (fun g _ k => hd ▸ free_none k g) (fun g _ k => hd ▸ free_none k g)
    (fun g hg => ⟨rfl,rfl,rfl,update_of_ne hg _ _⟩)
    (fun v hv => by rw [hpc]; exact released_vars k d next v hv)
    (released_ok hd hn) ?_ ?_
  · intro g hg
    rw [hpc]
    exact same_of_quiet (released_quiet k d next g) ⟨id,id,hg.symm⟩
  · exact (hs.handle h hh).freeHelper rfl hpc ⟨rfl,rfl,rfl,update_self ..⟩

lemma Pc.release_ok (hd : s.heap.slot d = k.slot (some h)) (hn : Pc.NextOk s.heap k d next) :
    (release k d h next).Ok s.heap := by
  cases k with
  | sptr => exact ⟨hd,hn⟩
  | wptr => exact ⟨hd,hs.known d .wptr h hd,hn⟩

lemma PtrOk.act (he : Exec s.heap (s.pc a) vs e m p)
    (hexcl : ∀ b, b ≠ a → ∀ v ∈ vs, v ∉ (s.pc b).vars) (hb : Bounded m) :
    PtrOk ⟨m,update s.pc a p⟩ := by
  have hok := hs.pcs a
  generalize hpc : s.pc a = q at he hok
  have hst (hq : ∀ h, q.Quiet h := by exact fun _ => ⟨id,id,id⟩)
      (hp : ∀ h, p.Quiet h := by exact fun _ => ⟨id,id,id⟩) : ∀ h, p.Same h (s.pc a) :=
    fun h => same_of_quiet (hp h) (hpc ▸ hq h)
  have hm : ∀ v ∈ q.vars, v ∈ (s.pc a).vars ∨ v ∈ vs := fun v hv => .inl (hpc ▸ hv)
  cases he with
  | sptrOfObj d hd => exact hs.make hexcl hd hpc
  | default k d hd =>
    exact hs.putFree hexcl (by simp) (hd ▸ free_none) (free_null k) (by simp [vars]) trivial hst
  | constructNull f d sr hd hsr =>
    exact hs.putFree hexcl (by simp) (hd ▸ free_none) (free_null _) (by simp [vars]) trivial hst
  | construct f d sr h hd hsr =>
    exact hs.pcOnly hexcl (fun v hv => .inr hv) ⟨hd,hsr⟩ hst
  | destroyNull k d hd =>
    exact hs.putFree hexcl (by simp) (hd ▸ free_null k) free_none (by simp [vars]) trivial hst
  | destroy k d h hd =>
    refine hs.pcOnly hexcl ?_ (release_ok hs hd (by simp [Pc.NextOk]))
      (hst (fun _ => ⟨id,id,id⟩) (release_quiet k d h none))
    rw [release_vars]
    exact fun v hv => .inr hv
  | assignNull k d sr q hne hd hsr =>
    refine hs.putFree hexcl (by simp) (hd ▸ free_null k) free_none (fun v hv => .inr hv)
      ⟨update_self ..,q,?_⟩ hst
    rw [Heap.put_slot,update_of_ne hne.symm,hsr]
  | assign k d sr h q hne hd hsr =>
    refine hs.pcOnly hexcl ?_ (release_ok hs hd ?_)
      (hst (fun _ => ⟨id,id,id⟩) (release_quiet k d h (some sr)))
    · rw [release_vars]
      exact fun v hv => .inr hv
    · intro v hv
      obtain rfl := Option.some.inj hv
      exact ⟨hne.symm,q,hsr⟩
  | incZero d sr h _ =>
    exact hs.putFree hexcl (hm d (by simp [vars])) (hok.1 ▸ free_none) (free_null .sptr)
      (by simp [vars]) trivial hst
  | incLoad f d sr h hne =>
    refine hs.pcOnly hexcl hm ⟨hok.1,hok.2,?_⟩ hst
    rintro rfl
    exact hne rfl
  | incCas f d sr h tmp ht => exact hs.inc hpc ht hb
  | incFail f d sr h tmp _ =>
    exact hs.pcOnly hexcl hm ⟨hok.1,hok.2.1⟩ hst
  | decLoad d h next | decFail d h next tmp _ =>
    exact hs.pcOnly hexcl hm hok hst
  | decCas d h next tmp ht => exact hs.dec hpc ht
  | deleteObj d h next => exact hs.deleteObj hpc
  | weakLoad k d h next | weakFail k d h next tmp _ =>
    refine hs.pcOnly hexcl hm hok (fun g => ?_)
    rw [hpc]
    cases k <;> exact ⟨Iff.rfl,Iff.rfl,Iff.rfl⟩
  | weakCas k d h next tmp ht => exact hs.drop hpc ht
  | deleteHelper k d h next => exact hs.deleteHelper hpc
  | copyNull k d sr hsr =>
    exact hs.putFree hexcl (hm d (by simp [vars])) (hok.1 ▸ free_none) (free_null k)
      (by simp [vars]) trivial hst
  | copy k d sr h hsr =>
    have hso : k.copy.source = k := by cases k <;> rfl
    exact hs.pcOnly hexcl hm ⟨hok.1,by rw [hso]; exact hsr⟩ hst

end

end

lemma ptrOk_boot : PtrOk boot := by
  refine ⟨?_,?_,?_,?_,?_⟩
  · intro h hh
    exact absurd hh (Nat.not_lt_zero h)
  · exact fun _ _ => ⟨rfl,rfl⟩
  · intro v k h hv
    exact absurd hv (free_none k h)
  · exact fun _ => trivial
  · simp [boot,vars]

def Steps (s t : State) : Prop := (∃ e, Step s e t) ∧ Bounded t.heap

lemma PtrOk.run (hs : PtrOk s) (hr : Relation.ReflTransGen Steps s t) : PtrOk t := by
  induction hr with
  | refl => exact hs
  | tail _ hst ih =>
    obtain ⟨⟨e,hst⟩,hb⟩ := hst
    cases hst with
    | act a he hexcl => exact ih.act he hexcl hb

lemma bounded_run (hr : Relation.ReflTransGen Steps boot s) : Bounded s.heap := by
  rcases Relation.ReflTransGen.cases_tail hr with heq | ⟨t,_,hst⟩
  · intro h
    have ho : owners boot.heap h = ∅ := eq_empty_iff_forall_notMem.mpr fun v hv => by cases hv
    have hw : watchers boot.heap h = ∅ := eq_empty_iff_forall_notMem.mpr fun v hv => by cases hv
    rw [heq,ho,hw,encard_empty]
    exact ⟨pos_of_ne_zero (by norm_num),by norm_num⟩
  · exact hst.2

structure Accounts (s : State) (h : Handle) (n w : ℕ) : Prop where
  owners : (owners s.heap h).encard = n
  watchers : (watchers s.heap h).encard = w
  shared : (s.heap.sharedCnt h).toInt = n
  weak : 0 < n → (s.heap.weakCnt h).toInt = w + 1
  obj : s.heap.objDeleted h + {a | (s.pc a).DeletingObj h}.encard = if n = 0 then 1 else 0
  helper : s.heap.helperDeleted h + {a | (s.pc a).DeletingHelper h}.encard =
    if s.heap.weakCnt h = 0 then 1 else 0
  order : s.heap.weakCnt h = 0 → n = 0 ∧ s.heap.objDeleted h = 1
  promoted : ∀ owned t, Step s (some (.promoted h owned)) t → (owned = false ↔ n = 0)

lemma alive_eq (n : Cnt) : alive n = if n.toNat = 0 then 0 else 1 := by
  by_cases h : n = 0
  · subst h
    rfl
  · rw [alive_pos h,if_neg (toNat_pos h).ne']

lemma deleted_once {c : ℕ} {x : Cnt} (h : c + n + alive x = 1) :
    (c : ℕ∞) + n = if x = 0 then 1 else 0 := by
  by_cases hx : x = 0
  · subst hx
    rw [if_pos rfl]
    exact_mod_cast h
  · rw [alive_pos hx] at h
    rw [if_neg hx]
    exact_mod_cast (by omega : c + n = 0)

lemma PtrOk.promoted {o : Bool} (hs : PtrOk s)
    (hst : Step s (some (.promoted h o)) t) : o = false ↔ s.heap.sharedCnt h = 0 := by
  generalize hev : some _ = e at hst
  cases hst with
  | act a he _ =>
    have hok := hs.pcs a
    generalize s.pc a = q at he hok
    cases he with
    | incZero d sr g hze =>
      cases hev
      exact iff_of_true rfl hze
    | incCas f d sr g tmp ht =>
      unfold Construct.event at hev
      split_ifs at hev with hf
      cases hev
      subst hf
      exact iff_of_false (by simp) fun hz => hok.2.2 rfl (ht.symm.trans hz)
    | _ => cases hev

lemma PtrOk.dropping_of_deletingObj
    (hn : Counts s.pc (Pc.DeletingObj h) n) (hr : Counts s.pc (Pc.Dropping h) r) : n ≤ r := by
  have hsu : {a | (s.pc a).DeletingObj h} ⊆ {a | (s.pc a).Dropping h} := by
    intro a ha
    generalize hq : s.pc a = q
    have hq' : q.DeletingObj h := hq ▸ ha
    cases q with
    | deleteObj d g next =>
      change (s.pc a).Dropping h
      rw [hq]
      exact hq'
    | _ => exact hq'.elim
  have hle := encard_le_encard hsu
  unfold Counts at hn hr
  rw [hn,hr] at hle
  exact_mod_cast hle

lemma PtrOk.accounts (hs : PtrOk s) (hb : Bounded s.heap)
    (hh : h < s.heap.used) : ∃ n w, Accounts s h n w := by
  obtain ⟨hsh,⟨w,r,hcw,hcr,hsu,hon⟩,⟨n,hcn,ho⟩,⟨f,hcf,hhe⟩⟩ := hs.handle h hh
  have how : (owners s.heap h).encard = ((s.heap.sharedCnt h).toNat : ℕ) := hsh
  have hw : (watchers s.heap h).encard = w := hcw
  obtain ⟨hbs,hbw⟩ := hb h
  rw [how] at hbs
  rw [hw] at hbw
  have hs31 : (s.heap.sharedCnt h).toNat < 2 ^ 31 := by exact_mod_cast hbs
  have hw31 : w + 1 < 2 ^ 31 := by exact_mod_cast hbw
  have hze : (s.heap.sharedCnt h).toNat = 0 ↔ s.heap.sharedCnt h = 0 :=
    ⟨fun hz => eq_of_toNat_eq hz,fun hz => by rw [hz]; rfl⟩
  refine ⟨(s.heap.sharedCnt h).toNat,w,how,hw,?_,?_,?_,?_,?_,?_⟩
  · rw [toInt_eq_toNat_of_lt (by omega)]
  · intro hp
    have hr : r = 0 := by
      rw [alive_pos (ne_zero_of_pos hp)] at hon
      omega
    rw [alive_pos (ne_zero_of_pos hp),hr] at hsu
    rw [toInt_eq_toNat_of_lt (by omega),hsu]
    push_cast
    ring
  · have hde : {a | (s.pc a).DeletingObj h}.encard = n := hcn
    simp only [hde,hze]
    exact deleted_once ho
  · have hde : {a | (s.pc a).DeletingHelper h}.encard = f := hcf
    rw [hde]
    exact deleted_once hhe
  · intro hwe
    rw [hwe] at hsu
    have hz : (0 : Cnt).toNat = 0 := rfl
    have hle := PtrOk.dropping_of_deletingObj hcn hcr
    rw [hz,alive_eq] at hsu
    rw [alive_eq] at ho
    split_ifs at hsu ho with hsc
    exact ⟨hsc,by omega⟩
  · intro o t hst
    rw [hze]
    exact hs.promoted hst

theorem sptr_run {s : State} (hrun : Relation.ReflTransGen Steps boot s) {h : Handle}
    (hh : h < s.heap.used) : ∃ n w, Accounts s h n w :=
  (ptrOk_boot.run hrun).accounts (bounded_run hrun) hh

def copies (n : ℕ) : State :=
  ⟨⟨fun h => if h = 0 then BitVec.ofNat 32 (n + 1) else 0,fun h => if h = 0 then 1 else 0,
    fun v => if v ≤ n then .sptr (some 0) else .none,1,fun _ => 0,fun _ => 0⟩,fun _ => .idle⟩

lemma step_idle {vs : List Var} {m : Heap}
    (hpc : s.pc = update (fun _ => .idle) 0 q) (he : Exec s.heap q vs e m p) :
    Step s e ⟨m,update (fun _ => .idle) 0 p⟩ := by
  have hu : update (fun _ => idle) 0 p = update s.pc 0 p := by
    rw [hpc,update_idem]
  rw [hu]
  refine .act 0 (by rw [hpc,update_self]; exact he) ?_
  intro b hb v _
  rw [hpc,update_of_ne hb]
  simp [vars]

lemma update_idle : update (fun _ => idle) 0 .idle = fun _ => idle := update_eq_self 0 _

lemma copies_zero : Step boot none (copies 0) := by
  have hst := step_idle (s := boot) update_idle.symm (.sptrOfObj 0 rfl)
  have heq : copies 0 = ⟨boot.heap.newHelper.put 0 (.sptr (some boot.heap.used)),
      update (fun _ => .idle) 0 .idle⟩ := by
    rw [update_idle]
    unfold copies Heap.put Heap.newHelper boot
    congr 2
    · ext h
      simp [update_apply]
    · ext h
      simp [update_apply]
    · ext v
      simp [update_apply]
  rw [heq]
  exact hst

lemma copies_succ (n : ℕ) :
    Relation.ReflTransGen (fun s t => ∃ e, Step s e t) (copies n) (copies (n + 1)) := by
  have hc : Exec (copies n).heap .idle [n + 1,0] none (copies n).heap
      (.incLoad .sptrOfSptr (n + 1) 0 0) := .construct .sptrOfSptr (n + 1) 0 0 (by simp [copies]) rfl
  have hl : Exec (copies n).heap (.incLoad .sptrOfSptr (n + 1) 0 0) [] none (copies n).heap
      (.incCas .sptrOfSptr (n + 1) 0 0 (BitVec.ofNat 32 (n + 1))) :=
    .incLoad .sptrOfSptr (n + 1) 0 0 (by simp)
  have hca : Exec (copies n).heap (.incCas .sptrOfSptr (n + 1) 0 0 (BitVec.ofNat 32 (n + 1))) []
      none (((copies n).heap.setCnt .sptr 0 (BitVec.ofNat 32 (n + 1) + 1)).put (n + 1)
        (.sptr (some 0))) .idle := .incCas .sptrOfSptr (n + 1) 0 0 _ rfl
  have hcn : (copies (n + 1)).heap.sharedCnt =
      update (copies n).heap.sharedCnt 0 (BitVec.ofNat 32 (n + 1) + 1) := by
    funext h
    rcases eq_or_ne h 0 with rfl | hne
    · rw [update_self]
      exact ofNat_add (n + 1) 1
    · rw [update_of_ne hne]
      simp [copies,hne]
  have hslot : (copies (n + 1)).heap.slot =
      update (copies n).heap.slot (n + 1) (.sptr (some 0)) := by
    refine funext fun (v : ℕ) => ?_
    rcases eq_or_ne v (n + 1) with rfl | hne
    · simp [copies]
    · rw [update_of_ne hne]
      have hif : v ≤ n + 1 ↔ v ≤ n := by omega
      simp only [copies,hif]
  have heq : copies (n + 1) = ⟨((copies n).heap.setCnt .sptr 0 (BitVec.ofNat 32 (n + 1) + 1)).put
      (n + 1) (.sptr (some 0)),update (fun _ => .idle) 0 .idle⟩ := by
    change (⟨⟨(copies (n + 1)).heap.sharedCnt,_,(copies (n + 1)).heap.slot,_,_,_⟩,_⟩ : State) = _
    rw [update_idle,hcn,hslot]
    rfl
  refine .tail (.tail (.single ⟨none,step_idle update_idle.symm hc⟩) ⟨none,step_idle rfl hl⟩) ?_
  rw [heq]
  exact ⟨none,step_idle rfl hca⟩

lemma copies_run (n : ℕ) :
    Relation.ReflTransGen (fun s t => ∃ e, Step s e t) boot (copies n) := by
  induction n with
  | zero => exact .single ⟨none,copies_zero⟩
  | succ n ih => exact ih.trans (copies_succ n)

lemma copies_owners (n : ℕ) : (owners (copies n).heap 0).encard = (n + 1 : ℕ) := by
  have hse : owners (copies n).heap 0 = Iio (n + 1) := by
    ext v
    simp [owners,copies]
  rw [hse,← Finset.coe_range,encard_coe_eq_coe_finsetCard,Finset.card_range]

section
variable {m m' : Heap}

-- One activity at work, on the variables 0 to 3.
def Few (m : Heap) : Prop := ∀ v, 4 ≤ v → m.slot v = .none

lemma Few.bounded (h : Few m) : Bounded m := by
  have hle : ∀ {S : Set Var}, (∀ v ∈ S, m.slot v ≠ .none) → S.encard ≤ 4 := by
    intro S hS
    have hsub : S ⊆ (Finset.range 4 : Set Var) := by
      intro v hv
      rw [Finset.coe_range]
      exact not_le.mp fun hle => hS v hv (h v hle)
    refine (encard_le_encard hsub).trans ?_
    rw [encard_coe_eq_coe_finsetCard,Finset.card_range]
    rfl
  intro h
  have ho : (owners m h).encard ≤ 4 := hle fun v hv hn => by rw [owners,mem_ofPred_eq,hn] at hv; cases hv
  have hw : (watchers m h).encard ≤ 4 :=
    hle fun v hv hn => by rw [watchers,mem_ofPred_eq,hn] at hv; cases hv
  have h4 : (4 : ℕ∞) < 2 ^ 31 := by exact_mod_cast (by omega : (4 : ℕ) < 2 ^ 31)
  have h5 : (4 : ℕ∞) + 1 < 2 ^ 31 := by exact_mod_cast (by omega : (4 : ℕ) + 1 < 2 ^ 31)
  exact ⟨ho.trans_lt h4,(add_le_add_left hw 1).trans_lt h5⟩

lemma Few.put {v : Var} {x : Slot} (h : Few m) (hv : v < 4) : Few (m.put v x) := by
  intro w hw
  rw [Heap.put_slot,update_of_ne (lt_of_lt_of_le hv hw).ne']
  exact h w hw

lemma Few.setCnt (hm : Few m) (k : Kind) (n : Cnt) : Few (m.setCnt k h n) := by
  cases k <;> exact hm

structure Alone (m : Heap) (p : Pc) : Prop where
  few : Few m
  run : Relation.ReflTransGen Steps boot ⟨m,update (fun _ => .idle) 0 p⟩

lemma Alone.act {vs : List Var} (h : Alone m p) (he : Exec m p vs e m' q) (hf : Few m') :
    Alone m' q :=
  ⟨hf,h.run.tail ⟨⟨e,step_idle rfl he⟩,hf.bounded⟩⟩

lemma Alone.construct (f : Construct) {d s : Var} (ha : Alone m .idle) (hd : m.slot d = .none)
    (hs : m.slot s = f.source.slot (some h)) (hz : m.sharedCnt h ≠ 0) (h4 : d < 4) :
    Alone ((m.setCnt f.result h (m.cnt f.result h + 1)).put d (f.result.slot (some h))) .idle :=
  ((ha.act (.construct f d s h hd hs) ha.few).act (.incLoad f d s h fun _ => hz) ha.few).act
    (.incCas f d s h _ rfl) ((ha.few.setCnt _ _).put h4)

lemma Alone.destroy {d : Var} (ha : Alone m .idle) (hd : m.slot d = .sptr (some h)) (h4 : d < 4) :
    Alone ((m.setCnt .sptr h (m.sharedCnt h - 1)).put d .none)
      (if m.sharedCnt h = 1 then .deleteObj d h none else .idle) :=
  ((ha.act (.destroy .sptr d h hd) ha.few).act (.decLoad d h none) ha.few).act
    (.decCas d h none _ rfl) ((ha.few.setCnt _ _).put h4)

end

lemma boot_alone : Alone boot.heap .idle := ⟨fun _ _ => rfl,by rw [update_idle]; exact .refl⟩

theorem sptr_run_promoted : ∃ s, Relation.ReflTransGen Steps boot s ∧ s.heap.objDeleted 0 = 1 ∧
    s.heap.slot 1 = .wptr (some 0) ∧ s.heap.slot 2 = .sptr none ∧ ∃ n w, Accounts s 0 n w := by
  have hnew := boot_alone.act (.sptrOfObj 0 rfl) (Few.put (fun _ _ => rfl) (by decide))
  have hweak := hnew.construct .wptrOfSptr (d := 1) (s := 0) (h := 0) rfl rfl (by decide) (by decide)
  have hpromoted :=
    hweak.construct .sptrOfWptr (d := 2) (s := 1) (h := 0) rfl rfl (by decide) (by decide)
  have hcopy :=
    hpromoted.construct .sptrOfSptr (d := 3) (s := 2) (h := 0) rfl rfl (by decide) (by decide)
  have htwo := hcopy.destroy (d := 0) (h := 0) rfl (by decide)
  have hone := htwo.destroy (d := 2) (h := 0) rfl (by decide)
  have hzero := hone.destroy (d := 3) (h := 0) rfl (by decide)
  have hdeleted := hzero.act (.deleteObj 3 0 none) hzero.few
  have hload := hdeleted.act (.weakLoad .sptr 3 0 none) hdeleted.few
  have hidle := hload.act (.weakCas .sptr 3 0 none _ rfl) ((hload.few.setCnt _ _).put (by decide))
  -- the weak pointer is still there, but the object is not: the promotion yields null
  have hnull := hidle.act (.construct .sptrOfWptr 2 1 0 rfl rfl) hidle.few
  have hend := hnull.act (.incZero 2 1 0 rfl) (hnull.few.put (by decide))
  exact ⟨_,hend.run,rfl,rfl,rfl,sptr_run hend.run (by decide)⟩

theorem sptr_overflow : Relation.ReflTransGen (fun s t => ∃ e, Step s e t) boot (copies (2 ^ 31 - 1)) ∧
    (owners (copies (2 ^ 31 - 1)).heap 0).encard = (2 ^ 31 : ℕ) ∧
    ((copies (2 ^ 31 - 1)).heap.sharedCnt 0).toInt = -2 ^ 31 :=
  ⟨copies_run _,copies_owners _,by decide⟩

end Ptr
