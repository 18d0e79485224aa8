import Mathlib.Algebra.Order.BigOperators.Group.Finset
import RaphKernel.Ptr.AssignRun

namespace Ptr
open Counting Function List

variable {members : Handle → List Var} {m₀ m d m' : Heap} {p v w : Var} {g h : Handle}
  {held held' : Var → Slot} {D : List Handle} {vs : List Var} {fuel : ℕ}

section
variable {destroy : List Var → Heap → Result}

inductive Released (destroy : List Var → Heap → Result) (members : Handle → List Var) (v : Var)
    (m : Heap) : Heap → Prop where
  | sptrNull : m.slot v = .sptr none → Released destroy members v m m
  | wptrNull : m.slot v = .wptr none → Released destroy members v m m
  | watcher {h : Handle} : m.slot v = .wptr (some h) →
      Released destroy members v m (weakDropped m h)
  | shared {h : Handle} : m.slot v = .sptr (some h) → m.sharedCnt h ≠ 1 →
      Released destroy members v m (dropped m h)
  | last {h : Handle} {d : Heap} : m.slot v = .sptr (some h) → m.sharedCnt h = 1 →
      destroy (members h) (dropped m h) = .ok d → d.slot v ≠ .none →
      Released destroy members v m (weakDropped (d.deleteObj h) h)

lemma released_of (hr : m.releaseWith destroy members v = .ok m') :
    Released destroy members v m m' := by
  unfold Heap.releaseWith at hr
  split at hr
  · cases hr
  · next hs =>
    cases hr
    exact .sptrNull hs
  · next hs =>
    cases hr
    exact .wptrNull hs
  · next x hs =>
    obtain rfl := dropWeak_of_ok hr
    exact .watcher hs
  · next x hs =>
    split at hr
    · cases hr
    · dsimp only at hr
      split at hr
      · next hn =>
        obtain ⟨d,hd,hre⟩ := Result.andThen_ok.mp hr
        split at hre
        · cases hre
        · next hlive =>
          obtain rfl := dropWeak_of_ok hre
          exact .last hs hn hd hlive
      · next hn =>
        cases hr
        exact .shared hs hn

section
variable (hr : Released destroy members v m m')
include hr

lemma Released.slot_eq :
    m'.slot = m.slot ∨ ∃ h d, destroy (members h) (dropped m h) = .ok d ∧ m'.slot = d.slot := by
  cases hr with
  | sptrNull hs | wptrNull hs | shared hs hn => exact .inl rfl
  | watcher hs => exact .inl (weakDropped_kept m _).slot
  | last hs hn hd hl => exact .inr ⟨_,_,hd,(weakDropped_kept _ _).slot⟩

lemma Released.stored : m.slot v ≠ .none := by
  cases hr <;> simp_all

lemma Released.kept : m'.slot v ≠ .none := by
  cases hr with
  | last hs hn hd hl =>
    rw [(weakDropped_kept _ _).slot]
    exact hl
  | watcher hs =>
    rw [(weakDropped_kept m _).slot,hs]
    exact nofun
  | sptrNull hs | wptrNull hs | shared hs hn => exact fun he => nomatch hs.symm.trans he

end

lemma destroyVars_none (fuel : ℕ) (hd : Heap.destroyVars members fuel vs m = .ok m')
    (hw : m.slot w = .none) : m'.slot w = .none := by
  induction fuel generalizing vs m m' with
  | zero =>
    cases vs with
    | nil =>
      cases hd
      exact hw
    | cons v vs => cases hd
  | succ fuel ih =>
    cases vs with
    | nil =>
      cases hd
      exact hw
    | cons v vs =>
      obtain ⟨d,hr,hre⟩ := Result.andThen_ok.mp hd
      have hn : d.slot w = .none := by
        rcases (released_of hr).slot_eq with he | ⟨h,d',hd',he⟩
        · rw [he]
          exact hw
        · rw [he]
          exact ih hd' hw
      refine ih hre ?_
      change update d.slot v .none w = .none
      rcases eq_or_ne w v with rfl | hne
      · exact update_self ..
      · rw [update_of_ne hne]
        exact hn

end

structure Post (members : Handle → List Var) (m : Heap) (held : Var → Slot) (m' : Heap)
    (held' : Var → Slot) (out vs : List Var) : Prop where
  keep : ∀ v, v ∉ out → m'.slot v ≠ .none → m'.slot v = m.slot v ∧ held' v = held v
  zero : ∀ g, m.sharedCnt g = 0 → m'.sharedCnt g = 0
  lost : ∀ v, v ∉ vs → m.slot v ≠ .none → m'.slot v = .none →
    ∃ g, v ∈ members g ∧ m.sharedCnt g ≠ 0

lemma Post.refl (members : Handle → List Var) (m : Heap) (held : Var → Slot) :
    Post members m held m held [] [] :=
  ⟨fun _ _ _ => ⟨rfl,rfl⟩,fun _ hz => hz,fun _ _ hx hx' => absurd hx' hx⟩

structure Ready (members : Handle → List Var) (m₀ : Heap) (p : Var) (m : Heap) (held : Var → Slot)
    (g : Handle) (vs : List Var) : Prop where
  doomed : Doomed members m₀ p g
  zero : m.sharedCnt g = 0
  member : ∀ v ∈ vs, v ∈ members g
  held : ∀ v ∈ vs, v ≠ p → m.slot v ≠ .none → held v = m.slot v

lemma Ready.lost (hy : Ready members m₀ p m held g vs) (hv : v ∈ vs) : Lost members m₀ p m v :=
  ⟨g,hy.member v hv,hy.doomed,hy.zero⟩

def Aside (members : Handle → List Var) (m₀ : Heap) (p : Var) : Prop :=
  ∀ g, Doomed members m₀ p g → p ∉ members g

def Destroys (members : Handle → List Var) (m₀ : Heap) (p : Var)
    (destroy : List Var → Heap → Result) : Prop :=
  ∀ {vs m held D g m'}, Inv members m₀ p m held D → Ready members m₀ p m held g vs →
    destroy vs m = .ok m' → (Aside members m₀ p ∨ m'.slot p ≠ .none) →
    ∃ held', Inv members m₀ p m' held' D ∧ (∀ v ∈ vs, m'.slot v = .none) ∧
      Post members m held m' held' [] vs

section
variable (hg : GraphOk members m₀)
include hg

lemma lost_stranger (hl : Lost members m₀ p m v) (hs : m.sharedCnt g ≠ 0) : v ∉ members g := by
  obtain ⟨h,hv,-,hz⟩ := hl
  intro hm
  obtain rfl := hg.homes g h v hm hv
  exact hs hz

lemma ready_last (hi : Inv members m₀ p m held D) (hv : held v = .sptr (some g))
    (hl : v = p ∨ Lost members m₀ p m v) (hn : m.sharedCnt g = 1) :
    Ready members m₀ p (dropped m g) (update held v .none) g (members g) := by
  have hs := hi.shared_ne hv
  refine ⟨dec_doomed hi hv hl hn,?_,fun _ hx => hx,fun x hx hxp _ => ?_⟩
  · rw [dropped_self,hn]
    rfl
  · have hxv : x ≠ v := by
      rintro rfl
      exact lost_stranger hg (hl.resolve_left hxp) hs hx
    rw [update_of_ne hxv]
    rcases hi.held x with hh | ⟨-,hh⟩
    · exact hh
    · exact absurd hx (lost_stranger hg (hh.resolve_left hxp) hs)

omit hg in
lemma post_forget (hsl : m'.slot = m.slot) (hz : ∀ g, m.sharedCnt g = 0 → m'.sharedCnt g = 0) :
    Post members m held m' (update held v .none) [v] [] := by
  refine ⟨fun x hx _ => ⟨congrFun hsl x,?_⟩,hz,fun x _ hx hx' => ?_⟩
  · exact update_of_ne (fun he => hx (mem_singleton.mpr he)) ..
  · rw [hsl] at hx'
    exact absurd hx' hx

lemma released_spec {destroy : List Var → Heap → Result} (hd : Destroys members m₀ p destroy)
    (hi : Inv members m₀ p m held D) (hv : held v = m.slot v)
    (hl : v = p ∨ Lost members m₀ p m v) (hr : Released destroy members v m m')
    (hp : Aside members m₀ p ∨ m'.slot p ≠ .none) :
    ∃ held', Inv members m₀ p m' held' D ∧ held' v = .none ∧
      Post members m held m' held' [v] [] := by
  cases hr with
  | sptrNull hs | wptrNull hs =>
    refine ⟨_,dropNull hi ?_ ?_ hl,update_self ..,post_forget rfl fun _ hz => hz⟩ <;>
      (intro x; rw [hv,hs]; simp)
  | watcher hs =>
    obtain ⟨hsh,hsl,-⟩ := weakDropped_kept m _
    refine ⟨_,dropWatcher hi (hv.trans hs) hl,update_self ..,post_forget hsl fun x hz => ?_⟩
    rw [hsh]
    exact hz
  | shared hs hn =>
    exact ⟨_,dec_more hi (hv.trans hs) hl hn,update_self ..,
      post_forget rfl (dec_zero hi (hv.trans hs))⟩
  | @last h d hs hn hde hli =>
    have hvs := hv.trans hs
    obtain ⟨hsh,hsl,-⟩ := weakDropped_kept (d.deleteObj h) h
    rw [hsl] at hp
    obtain ⟨held',hi',hno,hpo⟩ := hd (dec_last hi hvs hl hn) (ready_last hg hi hvs hl hn) hde hp
    have hD : h ∉ D := fun hm => hi.shared_ne hvs (hi.ended h hm)
    refine ⟨held',dropObject hi' hD hno,?_,fun x hx hx' => ?_,fun x hz => ?_,fun x _ hx hx' => ?_⟩
    · exact (hpo.keep v not_mem_nil hli).2.trans (update_self ..)
    · rw [hsl] at hx' ⊢
      obtain ⟨h₁,h₂⟩ := hpo.keep x not_mem_nil hx'
      refine ⟨h₁,h₂.trans ?_⟩
      exact update_of_ne (fun he => hx (mem_singleton.mpr he)) ..
    · rw [hsh]
      exact hpo.zero x (dec_zero hi hvs x hz)
    · rw [hsl] at hx'
      by_cases hm : x ∈ members h
      · exact ⟨h,hm,hi.shared_ne hvs⟩
      · obtain ⟨g,hxg,hne⟩ := hpo.lost x hm hx hx'
        exact ⟨g,hxg,mt (dec_zero hi hvs g) hne⟩

omit hg in
lemma post_next {v : Var} {out : Var → Slot} (hr : Post members m held d out [v] [])
    (hd : Post members (d.put v .none) out m' held' [] vs) :
    Post members m held m' held' [] (v :: vs) := by
  have hp : ∀ x, x ≠ v → (d.put v .none).slot x = d.slot x := fun x hx => update_of_ne hx ..
  refine ⟨fun x _ hx => ?_,fun x hz => hd.zero x (hr.zero x hz),fun x hx hm hx' => ?_⟩
  · obtain ⟨h₁,h₂⟩ := hd.keep x not_mem_nil hx
    have hxv : x ≠ v := by
      rintro rfl
      exact hx (h₁.trans (update_self ..))
    rw [h₁,hp x hxv] at hx
    obtain ⟨h₃,h₄⟩ := hr.keep x (fun he => hxv (mem_singleton.mp he)) hx
    exact ⟨h₁.trans ((hp x hxv).trans h₃),h₂.trans h₄⟩
  · obtain ⟨hxv,hxs⟩ := not_or.mp (mt mem_cons.mpr hx)
    by_cases hn : d.slot x = .none
    · exact hr.lost x not_mem_nil hm hn
    · rw [← hp x hxv] at hn
      obtain ⟨g,hxg,hne⟩ := hd.lost x hxs hn hx'
      exact ⟨g,hxg,mt (hr.zero g) hne⟩

omit hg in
lemma Ready.next {v : Var} (hy : Ready members m₀ p m held g (v :: vs))
    (hr : Post members m held d held' [v] []) :
    Ready members m₀ p (d.put v .none) held' g vs := by
  refine ⟨hy.doomed,hr.zero g hy.zero,fun x hx => hy.member x (mem_cons_of_mem v hx),
    fun x hx hxp hs => ?_⟩
  have hxv : x ≠ v := by
    rintro rfl
    exact hs (update_self ..)
  have hp : (d.put v .none).slot x = d.slot x := update_of_ne hxv ..
  rw [hp] at hs ⊢
  obtain ⟨h₁,h₂⟩ := hr.keep x (fun he => hxv (mem_singleton.mp he)) hs
  rw [h₁] at hs ⊢
  exact h₂.trans (hy.held x (mem_cons_of_mem v hx) hxp hs)

lemma destroyVars_spec (fuel : ℕ) : Destroys members m₀ p (Heap.destroyVars members fuel) := by
  induction fuel with
  | zero =>
    intro vs m held D g m' hi hy hd hp
    cases vs with
    | nil =>
      cases hd
      exact ⟨held,hi,fun _ hx => absurd hx not_mem_nil,.refl ..⟩
    | cons v vs => cases hd
  | succ fuel ih =>
    intro vs m held D g m' hi hy hd hp
    cases vs with
    | nil =>
      cases hd
      exact ⟨held,hi,fun _ hx => absurd hx not_mem_nil,.refl ..⟩
    | cons v vs =>
      obtain ⟨d,hr,hre⟩ := Result.andThen_ok.mp hd
      have hrl := released_of hr
      have hgo := destroyVars_none fuel hre (update_self ..)
      have hvp : v ≠ p := by
        rintro rfl
        rcases hp with hp | hp
        · exact hp g hy.doomed (hy.member v mem_cons_self)
        · exact hp hgo
      have hp' := hp.imp_right fun hp hn => by
        refine hp (destroyVars_none fuel hre ?_)
        exact (update_of_ne hvp.symm ..).trans hn
      have hl := hy.lost mem_cons_self
      obtain ⟨_,hi₁,hv₁,hpost₁⟩ := released_spec hg ih hi
        (hy.held v mem_cons_self hvp hrl.stored) (.inr hl) hrl hp'
      obtain ⟨held₂,hi₂,hn,hpost₂⟩ := ih (put_inv hg hi₁ hv₁ (hl.mono hpost₁.zero))
        (hy.next hpost₁) hre hp
      refine ⟨held₂,hi₂,fun x hx => ?_,post_next hpost₁ hpost₂⟩
      rcases mem_cons.mp hx with rfl | hx
      · exact hgo
      · exact hn x hx

end

section

def load (members : Handle → List Var) (m : Heap) (g : Handle) : ℕ :=
  if m.sharedCnt g ≠ 0 then (members g).length + 1 else 0

section
variable (hz : ∀ g, m.sharedCnt g = 0 → m'.sharedCnt g = 0)
include hz

lemma load_le (g : Handle) : load members m' g ≤ load members m g := by
  unfold load
  by_cases hs : m.sharedCnt g = 0
  · rw [if_neg (not_not.mpr (hz g hs))]
    exact Nat.zero_le _
  · rw [if_pos hs]
    split <;> omega

def weight (members : Handle → List Var) (m₀ m : Heap) : ℕ :=
  ∑ g ∈ Finset.range m₀.used, load members m g

lemma weight_le : weight members m₀ m' ≤ weight members m₀ m :=
  Finset.sum_le_sum fun g _ => load_le hz g

lemma weight_lt (hh : h < m₀.used) (hs : m.sharedCnt h ≠ 0) (hs' : m'.sharedCnt h = 0) :
    (members h).length + 1 + weight members m₀ m' ≤ weight members m₀ m := by
  have hm := Finset.mem_range.mpr hh
  have hl : load members m h = (members h).length + 1 := if_pos hs
  have hl' : load members m' h = 0 := if_neg (not_not.mpr hs')
  unfold weight
  rw [← Finset.add_sum_erase _ _ hm,← Finset.add_sum_erase _ _ hm,hl,hl',Nat.zero_add]
  exact Nat.add_le_add_left (Finset.sum_le_sum fun g _ => load_le hz g) _

end

def Finishes (members : Handle → List Var) (m₀ : Heap) (p : Var) (fuel : ℕ) : Prop :=
  ∀ {vs m held D g}, Inv members m₀ p m held D → Ready members m₀ p m held g vs → vs.Nodup →
    (∀ v ∈ vs, m.slot v ≠ .none) → vs.length + weight members m₀ m ≤ fuel →
    ∃ m', Heap.destroyVars members fuel vs m = .ok m'

variable (hg : GraphOk members m₀) (ha : Aside members m₀ p)
include hg ha

lemma slot_survives {D' : List Handle} (hi : Inv members m₀ p m held D)
    (hi' : Inv members m₀ p d held' D') (hp : Post members m held d held' [] vs)
    (hs : m.slot v ≠ .none) (hvs : v ∉ vs) (hl : v = p ∨ Lost members m₀ p m v) :
    d.slot v ≠ .none := by
  intro hn
  rcases hl with rfl | hl
  · have hm : m.slot v = m₀.slot v := (hi.slots v).resolve_right fun hx => hs hx.1
    rcases hi'.slots v with he | ⟨-,g,hme,hd,-⟩
    · exact hs (hm.trans (he.symm.trans hn))
    · exact ha g hd hme
  · obtain ⟨g,hme,hne⟩ := hp.lost v hvs hs hn
    exact lost_stranger hg hl hne hme

lemma release_total (hf : Finishes members m₀ p fuel) (hi : Inv members m₀ p m held D)
    (hv : held v = m.slot v) (hs : m.slot v ≠ .none) (hl : v = p ∨ Lost members m₀ p m v)
    (hw : weight members m₀ m ≤ fuel + 1) :
    ∃ m', m.releaseWith (Heap.destroyVars members fuel) members v = .ok m' := by
  unfold Heap.releaseWith
  split
  · next hnone => exact absurd hnone hs
  · exact ⟨m,rfl⟩
  · exact ⟨m,rfl⟩
  · next h hsv => exact ⟨_,dropWeak_ok (hi.helper h (hi.helper_watched (hv.trans hsv)))⟩
  · next h hsv =>
    have hvs := hv.trans hsv
    have hne := hi.shared_ne hvs
    rw [if_neg (not_not.mpr (hi.helper_alive (.inl hne)))]
    dsimp only
    split
    · next hn =>
      have hi' := dec_last hi hvs hl hn
      have hy := ready_last hg hi hvs hl hn
      have hu : h < m₀.used := by
        by_contra hle
        exact hi.alive₀ hne (hg.finite h (Nat.le_of_not_lt hle))
      have hdr : (members h).length + 1 + weight members m₀ (dropped m h) ≤ _ :=
        weight_lt (dec_zero hi hvs) hu hne hy.zero
      obtain ⟨d,hd⟩ := hf hi' hy (hg.nodup h) (hi.storage h hne) (by omega)
      obtain ⟨_,hi₂,-,hp⟩ := destroyVars_spec hg fuel hi' hy hd (.inl ha)
      refine ⟨weakDropped (d.deleteObj h) h,Result.andThen_ok.mpr ⟨d,hd,?_⟩⟩
      have ho : v ∉ members h := by
        rcases hl with rfl | hl
        · exact ha h hy.doomed
        · exact lost_stranger hg hl hne
      have hli := slot_survives hg ha hi' hi₂ hp hs ho
        (hl.imp_right fun hl => hl.mono (dec_zero hi hvs))
      exact (if_neg hli).trans (dropWeak_ok (hi₂.helper_alive (.inr mem_cons_self)))
    · exact ⟨_,rfl⟩

lemma destroyVars_total (fuel : ℕ) : Finishes members m₀ p fuel := by
  induction fuel with
  | zero =>
    intro vs m held D g hi hy hnd hs hw
    cases vs with
    | nil => exact ⟨m,rfl⟩
    | cons v vs =>
      rw [length_cons] at hw
      omega
  | succ fuel ih =>
    intro vs m _ D g hi hy hnd hs hw
    cases vs with
    | nil => exact ⟨m,rfl⟩
    | cons v vs =>
      rw [length_cons] at hw
      obtain ⟨ho,hnd⟩ := nodup_cons.mp hnd
      have hvs := hs v mem_cons_self
      have hl := hy.lost mem_cons_self
      have hvp : v ≠ p := by
        rintro rfl
        exact ha g hy.doomed (hy.member v mem_cons_self)
      have hv := hy.held v mem_cons_self hvp hvs
      obtain ⟨d,hr⟩ := release_total hg ha ih hi hv hvs (.inr hl) (by omega)
      obtain ⟨_,hi₁,hv₁,hp⟩ :=
        released_spec hg (destroyVars_spec hg fuel) hi hv (.inr hl) (released_of hr) (.inl ha)
      have hsl : ∀ x ∈ vs, (d.put v .none).slot x ≠ .none := by
        intro x hx hn
        have hxv : x ≠ v := by
          rintro rfl
          exact ho hx
        have hm := mem_cons_of_mem v hx
        obtain ⟨h,hxh,hne⟩ := hp.lost x not_mem_nil (hs x hm) ((update_of_ne hxv ..).symm.trans hn)
        exact lost_stranger hg (hy.lost hm) hne hxh
      have hle : weight members m₀ (d.put v .none) ≤ weight members m₀ m := weight_le hp.zero
      obtain ⟨m',hre⟩ := ih (put_inv hg hi₁ hv₁ (hl.mono hp.zero)) (hy.next hp) hnd hsl (by omega)
      exact ⟨m',Result.andThen_ok.mpr ⟨d,hr,hre⟩⟩

end

end Ptr
