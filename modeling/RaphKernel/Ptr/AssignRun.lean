import RaphKernel.Ptr.Assign

namespace Ptr
open Counting Function List

variable {members : Handle → List Var} {m₀ m m' : Heap} {p v : Var} {g h : Handle}
  {held : Var → Slot} {D : List Handle}

def Lost (members : Handle → List Var) (m₀ : Heap) (p : Var) (m : Heap) (v : Var) : Prop :=
  ∃ g, v ∈ members g ∧ Doomed members m₀ p g ∧ m.sharedCnt g = 0

structure Inv (members : Handle → List Var) (m₀ : Heap) (p : Var) (m : Heap) (held : Var → Slot)
    (D : List Handle) : Prop where
  shared : ∀ g, Counts held (· = .sptr (some g)) (m.sharedCnt g).toNat
  weak : ∀ g, ∃ n, Counts held (· = .wptr (some g)) n ∧
    (m.weakCnt g).toNat = n + if m.sharedCnt g ≠ 0 ∨ g ∈ D then 1 else 0
  helper : ∀ g, m.weakCnt g ≠ 0 → m.helperDeleted g = 0
  obj : ∀ g, m.sharedCnt g ≠ 0 → m.objDeleted g = 0
  ended : ∀ g ∈ D, m.sharedCnt g = 0
  le : ∀ g, (m.sharedCnt g).toNat ≤ (m₀.sharedCnt g).toNat
  dead : ∀ g, m₀.sharedCnt g ≠ 0 → m.sharedCnt g = 0 → Doomed members m₀ p g
  gone : ∀ g, m₀.sharedCnt g ≠ 0 → m.sharedCnt g = 0 → g ∉ D →
    m.objDeleted g ≠ 0 ∧ ∀ v ∈ members g, m.slot v = .none
  slots : ∀ v, m.slot v = m₀.slot v ∨ m.slot v = .none ∧ Lost members m₀ p m v
  held : ∀ v, held v = m.slot v ∨ held v = .none ∧ (v = p ∨ Lost members m₀ p m v)
  storage : ∀ g, m.sharedCnt g ≠ 0 → ∀ v ∈ members g, m.slot v ≠ .none

lemma Lost.mono (hl : Lost members m₀ p m v) (hz : ∀ g, m.sharedCnt g = 0 → m'.sharedCnt g = 0) :
    Lost members m₀ p m' v := by
  obtain ⟨g,hv,hd,hs⟩ := hl
  exact ⟨g,hv,hd,hz g hs⟩

section
variable (hi : Inv members m₀ p m held D)
include hi

lemma Inv.alive₀ (hs : m.sharedCnt g ≠ 0) : m₀.sharedCnt g ≠ 0 :=
  ne_zero_of_pos (Nat.lt_of_lt_of_le (toNat_pos hs) (hi.le g))

lemma Inv.shared_ne (hv : held v = .sptr (some g)) : m.sharedCnt g ≠ 0 :=
  ne_zero_of_pos ((hi.shared g).pos hv)

lemma Inv.helper_alive (hs : m.sharedCnt g ≠ 0 ∨ g ∈ D) : m.helperDeleted g = 0 := by
  obtain ⟨n,-,hn⟩ := hi.weak g
  rw [if_pos hs] at hn
  exact hi.helper g (ne_zero_of_pos (by omega))

lemma Inv.helper_watched (hv : held v = .wptr (some g)) : m.weakCnt g ≠ 0 := by
  obtain ⟨n,hc,_⟩ := hi.weak g
  have hp := hc.pos hv
  exact ne_zero_of_pos (by omega)

end

lemma doomed_of (hs : m₀.sharedCnt g ≠ 0) (ha : ∀ v, m₀.slot v = .sptr (some g) → v ≠ p →
      ∃ h, v ∈ members h ∧ Doomed members m₀ p h) : Doomed members m₀ p g := by
  choose! home hmem hdoom using ha
  exact .mk home hs hmem hdoom

lemma dec_ne {n : Cnt} (hn : n ≠ 1) : n - 1 ≠ 0 := fun hz => by
  have hc := BitVec.sub_add_cancel n 1
  rw [hz] at hc
  exact hn hc.symm

lemma GraphOk.inv (hg : GraphOk members m₀) : Inv members m₀ p m₀ m₀.slot [] where
  shared := hg.shared
  weak := fun g => by
    obtain ⟨n,hc,hn⟩ := hg.weak g
    refine ⟨n,hc,?_⟩
    simpa using hn
  helper := hg.helper
  obj := hg.obj
  ended := fun _ hx => absurd hx (not_mem_nil)
  le := fun _ => le_rfl
  dead := fun _ hne hz => absurd hz hne
  gone := fun _ hne hz => absurd hz hne
  slots := fun _ => .inl rfl
  held := fun _ => .inl rfl
  storage := hg.storage

def dropped (m : Heap) (g : Handle) : Heap := m.setCnt .sptr g (m.sharedCnt g - 1)

lemma dropped_self (m : Heap) (g : Handle) : (dropped m g).sharedCnt g = m.sharedCnt g - 1 :=
  update_self (f := m.sharedCnt) ..

section
variable (hi : Inv members m₀ p m held D) (hv : held v = .sptr (some g))
include hi hv

lemma dec_shared (x : Handle) : Counts (update held v .none) (· = .sptr (some x))
      ((dropped m g).sharedCnt x).toNat := by
  change Counts _ _ (update m.sharedCnt g (m.sharedCnt g - 1) x).toNat
  rcases eq_or_ne x g with rfl | hx
  · rw [update_self,toNat_dec (hi.shared_ne hv)]
    exact (hi.shared x).leave hv (by simp)
  · rw [update_of_ne hx]
    exact (hi.shared x).stay (by simp [hv,hx.symm])

omit hi in
lemma dec_watchers {n : ℕ} {x : Handle} (hc : Counts held (· = .wptr (some x)) n) :
    Counts (update held v .none) (· = .wptr (some x)) n :=
  hc.stay (by simp [hv])

lemma dec_zero (x : Handle) (hz : m.sharedCnt x = 0) : (dropped m g).sharedCnt x = 0 := by
  have hx : x ≠ g := by
    rintro rfl
    exact hi.shared_ne hv hz
  exact (update_of_ne hx ..).trans hz

lemma dec_le (x : Handle) : ((dropped m g).sharedCnt x).toNat ≤ (m₀.sharedCnt x).toNat := by
  change (update m.sharedCnt g (m.sharedCnt g - 1) x).toNat ≤ _
  rcases eq_or_ne x g with rfl | hx
  · rw [update_self,toNat_dec (hi.shared_ne hv)]
    exact (Nat.sub_le ..).trans (hi.le x)
  · rw [update_of_ne hx]
    exact hi.le x

section
variable (hl : v = p ∨ Lost members m₀ p m v)
include hl

lemma dec_held (x : Var) : update held v .none x = m.slot x ∨ update held v .none x = .none ∧
      (x = p ∨ Lost members m₀ p (dropped m g) x) := by
  rcases eq_or_ne x v with rfl | hx
  · exact .inr ⟨update_self ..,hl.imp_right fun hl => hl.mono (dec_zero hi hv)⟩
  · rw [update_of_ne hx]
    exact (hi.held x).imp_right fun hh => ⟨hh.1,hh.2.imp_right fun hl => hl.mono (dec_zero hi hv)⟩

lemma dec_more (hn : m.sharedCnt g ≠ 1) :
    Inv members m₀ p (dropped m g) (update held v .none) D := by
  have hif : ∀ x, (dropped m g).sharedCnt x = 0 ↔ m.sharedCnt x = 0 := by
    intro x
    rcases eq_or_ne x g with rfl | hx
    · exact iff_of_false (fun hz => dec_ne hn ((dropped_self m x).symm.trans hz)) (hi.shared_ne hv)
    · rw [show (dropped m g).sharedCnt x = m.sharedCnt x from update_of_ne hx ..]
  refine ⟨dec_shared hi hv,fun x => ?_,hi.helper,fun x hx => hi.obj x (mt (hif x).mpr hx),
    fun x hx => (hif x).mpr (hi.ended x hx),dec_le hi hv,
    fun x h0 hz => hi.dead x h0 ((hif x).mp hz),fun x h0 hz => hi.gone x h0 ((hif x).mp hz),
    fun x => (hi.slots x).imp_right fun hs => ⟨hs.1,hs.2.mono (dec_zero hi hv)⟩,dec_held hi hv hl,
    fun x hx => hi.storage x (mt (hif x).mpr hx)⟩
  obtain ⟨n,hc,hn⟩ := hi.weak x
  refine ⟨n,dec_watchers hv hc,?_⟩
  simp only [ne_eq,hif x] at hn ⊢
  exact hn

lemma dec_doomed (hn : m.sharedCnt g = 1) : Doomed members m₀ p g := by
  refine doomed_of (hi.alive₀ (hi.shared_ne hv)) fun x hx hxp => ?_
  have hlo : Lost members m₀ p m x → ∃ h, x ∈ members h ∧ Doomed members m₀ p h :=
    fun ⟨h,hm,hd,_⟩ => ⟨h,hm,hd⟩
  rcases hi.slots x with hs | ⟨-,hs⟩
  · rcases hi.held x with hh | ⟨-,hh⟩
    · have hz := dec_shared hi hv g
      rw [dropped_self,hn] at hz
      have hxv : x = v := by
        by_contra hne
        refine counts_zero.mp hz x ?_
        rw [update_of_ne hne,hh,hs,hx]
      exact hlo ((hxv ▸ hl).resolve_left hxp)
    · exact hlo (hh.resolve_left hxp)
  · exact hlo hs

lemma dec_last (hn : m.sharedCnt g = 1) : Inv members m₀ p (dropped m g) (update held v .none)
      (g :: D) := by
  have hse : (dropped m g).sharedCnt g = 0 := by
    rw [dropped_self,hn]
    rfl
  have ho : ∀ x, x ≠ g → (dropped m g).sharedCnt x = m.sharedCnt x := fun x hx => update_of_ne hx ..
  have hne : ∀ x, (dropped m g).sharedCnt x ≠ 0 → m.sharedCnt x ≠ 0 :=
    fun x hx hz => hx (dec_zero hi hv x hz)
  refine ⟨dec_shared hi hv,fun x => ?_,hi.helper,fun x hx => hi.obj x (hne x hx),fun x hx => ?_,
    dec_le hi hv,fun x h0 hz => ?_,fun x h0 hz hx => ?_,
    fun x => (hi.slots x).imp_right fun hs => ⟨hs.1,hs.2.mono (dec_zero hi hv)⟩,dec_held hi hv hl,
    fun x hx => hi.storage x (hne x hx)⟩
  · obtain ⟨n,hc,hn'⟩ := hi.weak x
    refine ⟨n,dec_watchers hv hc,hn'.trans (congrArg (n + ·) ?_)⟩
    rcases eq_or_ne x g with rfl | hx
    · rw [if_pos (.inl (hi.shared_ne hv)),if_pos (.inr mem_cons_self)]
    · simp only [ho x hx,mem_cons,hx,false_or]
  · rcases mem_cons.mp hx with rfl | hx
    · exact hse
    · exact dec_zero hi hv x (hi.ended x hx)
  · rcases eq_or_ne x g with rfl | hx
    · exact dec_doomed hi hv hl hn
    · exact hi.dead x h0 ((ho x hx).symm.trans hz)
  · have hxg : x ≠ g := fun he => hx (he ▸ mem_cons_self)
    exact hi.gone x h0 ((ho x hxg).symm.trans hz) fun hd => hx (mem_cons_of_mem g hd)

end

end

def weakDropped (m : Heap) (g : Handle) : Heap :=
  if m.weakCnt g = 1 then (m.setCnt .wptr g (m.weakCnt g - 1)).deleteHelper g
  else m.setCnt .wptr g (m.weakCnt g - 1)

lemma dropWeak_of_ok (hd : m.dropWeak g = .ok m') : m' = weakDropped m g := by
  unfold Heap.dropWeak at hd
  split at hd
  · cases hd
  · cases hd
    rfl

lemma dropWeak_ok (hd : m.helperDeleted g = 0) : m.dropWeak g = .ok (weakDropped m g) := by
  rw [Heap.dropWeak,if_neg (not_not.mpr hd)]
  rfl

structure WeakKept (m m' : Heap) : Prop where
  shared : m'.sharedCnt = m.sharedCnt
  slot : m'.slot = m.slot
  obj : m'.objDeleted = m.objDeleted

lemma weakDropped_kept (m : Heap) (g : Handle) : WeakKept m (weakDropped m g) := by
  unfold weakDropped
  split <;> exact ⟨rfl,rfl,rfl⟩

lemma weakDropped_weak (m : Heap) (g : Handle) :
    (weakDropped m g).weakCnt = update m.weakCnt g (m.weakCnt g - 1) := by
  unfold weakDropped
  split <;> rfl

lemma weakDropped_helper (hi : ∀ x, m.weakCnt x ≠ 0 → m.helperDeleted x = 0)
    (hg : m.weakCnt g ≠ 0) (x : Handle) (hx : (weakDropped m g).weakCnt x ≠ 0) :
    (weakDropped m g).helperDeleted x = 0 := by
  rw [weakDropped_weak] at hx
  rcases eq_or_ne x g with rfl | hxg
  · rw [update_self] at hx
    have ho : m.weakCnt x ≠ 1 := by
      intro ho
      rw [ho] at hx
      exact hx rfl
    rw [weakDropped,if_neg ho]
    exact hi x hg
  · rw [update_of_ne hxg] at hx
    unfold weakDropped
    split
    · exact (update_of_ne hxg ..).trans (hi x hx)
    · exact hi x hx

lemma dropWatcher (hi : Inv members m₀ p m held D) (hv : held v = .wptr (some g))
    (hl : v = p ∨ Lost members m₀ p m v) :
    Inv members m₀ p (weakDropped m g) (update held v .none) D := by
  obtain ⟨hsh,hsl,hob⟩ := weakDropped_kept m g
  have hne := hi.helper_watched hv
  have hlo : ∀ x, Lost members m₀ p m x → Lost members m₀ p (weakDropped m g) x :=
    fun x hx => hx.mono fun y hy => by rw [hsh]; exact hy
  refine ⟨fun x => ?_,fun x => ?_,weakDropped_helper hi.helper hne,?_,?_,?_,?_,?_,?_,?_,?_⟩
  · rw [hsh]
    exact (hi.shared x).stay (by simp [hv])
  · obtain ⟨n,hc,hn⟩ := hi.weak x
    rw [hsh,weakDropped_weak]
    rcases eq_or_ne x g with rfl | hx
    · have hp := hc.pos hv
      refine ⟨n - 1,hc.leave hv (by simp),?_⟩
      rw [update_self,toNat_dec hne]
      omega
    · rw [update_of_ne hx]
      exact ⟨n,hc.stay (by simp [hv,hx.symm]),hn⟩
  · rw [hsh,hob]
    exact hi.obj
  · rw [hsh]
    exact hi.ended
  · rw [hsh]
    exact hi.le
  · rw [hsh]
    exact hi.dead
  · rw [hsh,hob,hsl]
    exact hi.gone
  · rw [hsl]
    exact fun x => (hi.slots x).imp_right fun hs => ⟨hs.1,hlo x hs.2⟩
  · intro x
    rw [hsl]
    rcases eq_or_ne x v with rfl | hx
    · exact .inr ⟨update_self ..,hl.imp_right (hlo x)⟩
    · rw [update_of_ne hx]
      exact (hi.held x).imp_right fun hh => ⟨hh.1,hh.2.imp_right (hlo x)⟩
  · rw [hsh,hsl]
    exact hi.storage

lemma dropNull (hi : Inv members m₀ p m held D) (hs : ∀ g, held v ≠ .sptr (some g))
    (hw : ∀ g, held v ≠ .wptr (some g)) (hl : v = p ∨ Lost members m₀ p m v) :
    Inv members m₀ p m (update held v .none) D := by
  refine ⟨fun x => ?_,fun x => ?_,hi.helper,hi.obj,hi.ended,hi.le,hi.dead,hi.gone,hi.slots,
    fun x => ?_,hi.storage⟩
  · exact (hi.shared x).stay (by simp [hs x])
  · obtain ⟨n,hc,hn⟩ := hi.weak x
    exact ⟨n,hc.stay (by simp [hw x]),hn⟩
  · rcases eq_or_ne x v with rfl | hx
    · exact .inr ⟨update_self ..,hl⟩
    · rw [update_of_ne hx]
      exact hi.held x

lemma deleteObj_inv (hi : Inv members m₀ p m held D) (hgD : g ∈ D) :
    Inv members m₀ p (m.deleteObj g) held D := by
  have hd : ∀ x, x ≠ g → (m.deleteObj g).objDeleted x = m.objDeleted x :=
    fun x hx => update_of_ne hx ..
  refine ⟨hi.shared,hi.weak,hi.helper,fun x hx => ?_,hi.ended,hi.le,hi.dead,fun x h0 hz hx => ?_,
    hi.slots,hi.held,hi.storage⟩
  · have hxg : x ≠ g := by
      rintro rfl
      exact hx (hi.ended x hgD)
    exact (hd x hxg).trans (hi.obj x hx)
  · have hxg : x ≠ g := by
      rintro rfl
      exact hx hgD
    rw [hd x hxg]
    exact hi.gone x h0 hz hx

lemma dropDestroyed (hi : Inv members m₀ p m held (g :: D)) (hgD : g ∉ D)
    (ho : m.objDeleted g ≠ 0) (hm : ∀ v ∈ members g, m.slot v = .none) :
    Inv members m₀ p (weakDropped m g) held D := by
  obtain ⟨hsh,hsl,hob⟩ := weakDropped_kept m g
  have hze := hi.ended g mem_cons_self
  have hp : m.weakCnt g ≠ 0 := by
    obtain ⟨n,-,hn⟩ := hi.weak g
    rw [if_pos (.inr mem_cons_self)] at hn
    exact ne_zero_of_pos (by omega)
  have hlo : ∀ x, Lost members m₀ p m x → Lost members m₀ p (weakDropped m g) x :=
    fun x hx => hx.mono fun y hy => by rw [hsh]; exact hy
  refine ⟨fun x => ?_,fun x => ?_,weakDropped_helper hi.helper hp,?_,fun x hx => ?_,?_,?_,
    fun x h0 hz hx => ?_,?_,?_,?_⟩
  · rw [hsh]
    exact hi.shared x
  · obtain ⟨n,hc,hn⟩ := hi.weak x
    refine ⟨n,hc,?_⟩
    rw [hsh,weakDropped_weak]
    rcases eq_or_ne x g with rfl | hx
    · rw [if_pos (.inr mem_cons_self)] at hn
      rw [update_self,toNat_dec hp,if_neg (not_or.mpr ⟨not_not.mpr hze,hgD⟩)]
      omega
    · rw [update_of_ne hx,hn]
      simp only [mem_cons,hx,false_or]
  · rw [hsh,hob]
    exact hi.obj
  · rw [hsh]
    exact hi.ended x (mem_cons_of_mem g hx)
  · rw [hsh]
    exact hi.le
  · rw [hsh]
    exact hi.dead
  · rw [hsh] at hz
    rw [hob,hsl]
    rcases eq_or_ne x g with rfl | hxg
    · exact ⟨ho,hm⟩
    · exact hi.gone x h0 hz fun hd => hx ((mem_cons.mp hd).resolve_left hxg)
  · rw [hsl]
    exact fun x => (hi.slots x).imp_right fun hs => ⟨hs.1,hlo x hs.2⟩
  · rw [hsl]
    exact fun x => (hi.held x).imp_right fun hh => ⟨hh.1,hh.2.imp_right (hlo x)⟩
  · rw [hsh,hsl]
    exact hi.storage

lemma dropObject (hi : Inv members m₀ p m held (g :: D)) (hgD : g ∉ D)
    (hm : ∀ v ∈ members g, m.slot v = .none) :
    Inv members m₀ p (weakDropped (m.deleteObj g) g) held D := by
  refine dropDestroyed (deleteObj_inv hi mem_cons_self) hgD ?_ hm
  change update m.objDeleted g (m.objDeleted g + 1) g ≠ 0
  rw [update_self]
  exact Nat.succ_ne_zero _

lemma put_inv (hg : GraphOk members m₀) (hi : Inv members m₀ p m held D) (hv : held v = .none)
    (hl : Lost members m₀ p m v) : Inv members m₀ p (m.put v .none) held D := by
  refine ⟨hi.shared,hi.weak,hi.helper,hi.obj,hi.ended,hi.le,hi.dead,fun x h0 hz hx => ?_,
    fun x => ?_,fun x => ?_,fun x hx y hy => ?_⟩
  · refine ⟨(hi.gone x h0 hz hx).1,fun y hy => ?_⟩
    change update m.slot v .none y = .none
    rcases eq_or_ne y v with rfl | hne
    · exact update_self ..
    · rw [update_of_ne hne]
      exact (hi.gone x h0 hz hx).2 y hy
  · change update m.slot v .none x = _ ∨ update m.slot v .none x = _ ∧ _
    rcases eq_or_ne x v with rfl | hne
    · exact .inr ⟨update_self ..,hl⟩
    · rw [update_of_ne hne]
      exact hi.slots x
  · change held x = update m.slot v .none x ∨ _
    rcases eq_or_ne x v with rfl | hne
    · rw [update_self]
      exact .inl hv
    · rw [update_of_ne hne]
      exact hi.held x
  · obtain ⟨h,hvh,-,hz⟩ := hl
    have hne : y ≠ v := by
      rintro rfl
      obtain rfl := hg.homes x h y hy hvh
      exact hx hz
    change update m.slot v .none y ≠ .none
    rw [update_of_ne hne]
    exact hi.storage x hx y hy

end Ptr
