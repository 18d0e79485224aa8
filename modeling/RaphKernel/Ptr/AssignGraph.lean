import RaphKernel.Ptr.Cascade

namespace Ptr
open Counting Function Nat Result Heap

variable {members : Handle → List Var} {m₀ m d m' : Heap} {p q v w : Var} {g h : Handle}
  {held : Var → Slot} {fuel : ℕ}

section

lemma Doomed.alive (hd : Doomed members m₀ p g) : m₀.sharedCnt g ≠ 0 := by
  cases hd with
  | mk _ hs _ _ => exact hs

lemma doomed_root (hg : GraphOk members m₀) (hd : Doomed members m₀ p g) :
    ∃ h, m₀.slot p = .sptr (some h) ∧ Doomed members m₀ p h := by
  induction hd with
  | @mk g ho hs hm hd ih =>
    obtain ⟨v,hv⟩ := (hg.shared g).exists (ne_of_gt (toNat_pos hs))
    rcases eq_or_ne v p with rfl | hvp
    · exact ⟨g,hv,.mk ho hs hm hd⟩
    · exact ih v hv hvp

lemma release_inv (hg : GraphOk members m₀) (hr : m₀.release members fuel p = .ok d) :
    ∃ held, Inv members m₀ p d held [] ∧ held p = .none ∧ d.slot p ≠ .none := by
  have hre := released_of hr
  obtain ⟨held,hi,hp,-⟩ :=
    released_spec hg (destroyVars_spec hg fuel) hg.inv rfl (.inl rfl) hre (.inr hre.kept)
  exact ⟨held,hi,hp,hre.kept⟩

variable (hi : Inv members m₀ p d held []) (hp : held p = .none)
include hi

lemma held_cases (v : Var) :
    held v = m₀.slot v ∨ held v = .none ∧ (v = p ∨ ∃ h, Doomed members m₀ p h ∧ v ∈ members h) := by
  have hlo : Lost members m₀ p d v → ∃ h, Doomed members m₀ p h ∧ v ∈ members h :=
    fun ⟨h,hm,hd,_⟩ => ⟨h,hd,hm⟩
  rcases hi.held v with he | ⟨he,hl⟩
  · rcases hi.slots v with hs | ⟨hs,hl⟩
    · exact .inl (he.trans hs)
    · exact .inr ⟨he.trans hs,.inr (hlo hl)⟩
  · exact .inr ⟨he,hl.imp_right hlo⟩

lemma held_stored (hv : v ≠ p) : held v = d.slot v := by
  rcases hi.held v with he | ⟨he,hl⟩
  · exact he
  · obtain ⟨g,hm,hd,hz⟩ := hl.resolve_left hv
    exact he.trans ((hi.gone g hd.alive hz List.not_mem_nil).2 v hm).symm

include hp

lemma doomed_dead (hdoom : Doomed members m₀ p g) : d.sharedCnt g = 0 := by
  induction hdoom with
  | @mk g home hs hmem hdoom ih =>
    by_contra hne
    obtain ⟨v,hv⟩ := (hi.shared g).exists (ne_of_gt (toNat_pos hne))
    have hvp : v ≠ p := by
      rintro rfl
      exact nomatch hp.symm.trans hv
    have hslot : m₀.slot v = .sptr (some g) := by
      rcases held_cases hi v with he | ⟨he,-⟩
      · exact he.symm.trans hv
      · exact nomatch he.symm.trans hv
    have hnone := (hi.gone (home v) (hdoom v hslot hvp).alive (ih v hslot hvp)
      List.not_mem_nil).2 v (hmem v hslot hvp)
    exact nomatch hnone.symm.trans ((held_stored hi hvp).symm.trans hv)

lemma doomed_gone (hd : Doomed members m₀ p g) :
    d.objDeleted g ≠ 0 ∧ ∀ v ∈ members g, d.slot v = .none :=
  hi.gone g hd.alive (doomed_dead hi hp hd) List.not_mem_nil

lemma held_lost (hv : v = p ∨ ∃ h, Doomed members m₀ p h ∧ v ∈ members h) : held v = .none := by
  rcases eq_or_ne v p with rfl | hvp
  · exact hp
  · obtain ⟨h,hd,hm⟩ := hv.resolve_left hvp
    exact (held_stored hi hvp).trans ((doomed_gone hi hp hd).2 v hm)

lemma room_iff (hg : GraphOk members m₀) :
    (d.sharedCnt g).toNat + 1 < 2 ^ 31 ↔ (m₀.sharedCnt g).toNat + 1 < 2 ^ 31 ∨
      ∃ v, m₀.slot v = .sptr (some g) ∧ (v = p ∨ ∃ h, Doomed members m₀ p h ∧ v ∈ members h) := by
  have hsub : ∀ v, held v = .sptr (some g) → m₀.slot v = .sptr (some g) := fun v hv => by
    rcases held_cases hi v with he | ⟨he,-⟩
    · exact he.symm.trans hv
    · exact nomatch he.symm.trans hv
  constructor
  · intro hroom
    by_contra hnone
    obtain ⟨hfull,hkept⟩ := not_or.mp hnone
    have hcount := (hi.shared g).congr fun v => ⟨fun hv => ?_,hsub v⟩
    · rw [(hg.shared g).unique hcount] at hfull
      exact hfull hroom
    · rcases held_cases hi v with he | ⟨-,hl⟩
      · exact he.trans hv
      · exact absurd ⟨v,hv,hl⟩ hkept
  · rintro (hroom | ⟨v,hv,hl⟩)
    · exact lt_of_le_of_lt (succ_le_succ (hi.le g)) hroom
    · have hlt := (hg.shared g).lt (hi.shared g) hsub hv (by rw [held_lost hi hp hl]; simp)
      exact lt_of_le_of_lt hlt (hg.bounded g)

end

def retained (m : Heap) (k : Kind) (p : Var) (g : Handle) : Heap :=
  (m.setCnt k g (m.cnt k g + 1)).put p (k.slot (some g))

lemma retain_of_ok {k : Kind} (hr : m.retain k p g = .ok m') :
    m.helperDeleted g = 0 ∧ m' = retained m k p g := by
  unfold retain at hr
  split at hr
  · cases hr
  · next hd =>
    cases hr
    exact ⟨not_not.mp hd,rfl⟩

lemma retain_ok {k : Kind} (hd : m.helperDeleted g = 0) :
    m.retain k p g = .ok (retained m k p g) :=
  if_neg (not_not.mpr hd)

lemma toInt_inc_iff {n : Cnt} (hn : n.toNat < 2 ^ 31) :
    (n + 1).toInt = (n.toNat : ℤ) + 1 ↔ n.toNat + 1 < 2 ^ 31 := by
  have hin := toNat_inc (x := n)
  rw [BitVec.toInt_eq_toNat_cond,hin]
  split <;> omega

lemma counted_iff (hg : GraphOk members m₀) (hi : Inv members m₀ p d held []) (hp : held p = .none) :
    (∃ n, Counts (retained d .sptr p g).slot (· = .sptr (some g)) n ∧
      ((retained d .sptr p g).sharedCnt g).toInt = n) ↔ (d.sharedCnt g).toNat + 1 < 2 ^ 31 := by
  have hslot : (retained d .sptr p g).slot = update held p (.sptr (some g)) := by
    funext v
    change update d.slot p _ v = _
    rcases eq_or_ne v p with rfl | hv
    · rw [update_self,update_self]
      rfl
    · rw [update_of_ne hv,update_of_ne hv]
      exact (held_stored hi hv).symm
  have hcount : Counts (retained d .sptr p g).slot (· = .sptr (some g)) ((d.sharedCnt g).toNat + 1) := by
    rw [hslot]
    exact (hi.shared g).enter (by rw [hp]; simp) rfl
  have hcnt : (retained d .sptr p g).sharedCnt g = d.sharedCnt g + 1 :=
    update_self (f := d.sharedCnt) ..
  rw [← toInt_inc_iff (lt_of_le_of_lt (hi.le g) (hg.bounded g)),hcnt]
  constructor
  · rintro ⟨n,hn,hint⟩
    rw [hint,← hcount.unique hn]
    rfl
  · intro hint
    exact ⟨_,hcount,by rw [hint]; rfl⟩

section

variable (hr : m.release members fuel p = .ok d)
include hr

lemma assign_null (hs : d.slot q = .sptr none) :
    m.assign members fuel p q = .ok (d.put p (.sptr none)) := by
  unfold assign
  rw [hr]
  simp only [andThen,ok,hs]

lemma assign_some {k : Kind} (hs : d.slot q = k.slot (some g)) :
    m.assign members fuel p q = d.retain k p g := by
  unfold assign
  rw [hr]
  cases k <;>
    (simp only [Kind.slot] at hs
     simp only [andThen,ok,hs])

omit hr

lemma assign_needs (hg : GraphOk members m) (ha : m.assign members fuel p q = .ok m')
    (hrs : Assigned m m' p q) :
    Clear members m p q ∧ Room members m p q := by
  obtain ⟨d,hrl,hre⟩ := andThen_ok.mp ha
  obtain ⟨_,hi,hp,hl⟩ := release_inv hg hrl
  have hst : d.slot q ≠ .none := fun hn => by
    rw [hn] at hre
    cases hre
  have hsl : d.slot q = m.slot q := (hi.slots q).resolve_right fun hx => hst hx.1
  have hrt : ∀ g, m.slot q = .sptr (some g) → m' = retained d .sptr p g := fun g hs =>
    (retain_of_ok ((assign_some (k := .sptr) hrl (hsl.trans hs)).symm.trans ha)).2
  refine ⟨fun g hd => ⟨?_,fun hm => ?_,fun hm => ?_⟩,fun g hqg => ?_⟩
  · rintro rfl
    obtain ⟨h,hs,hd⟩ := doomed_root hg hd
    have ho := (hrs.alive h hs).1
    rw [hrt h hs] at ho
    exact (doomed_gone hi hp hd).1 ho
  · exact hst ((doomed_gone hi hp hd).2 q hm)
  · exact hl ((doomed_gone hi hp hd).2 p hm)
  · have hc := hrs.counted g hqg
    rw [hrt g hqg] at hc
    exact (room_iff hi hp hg).mp ((counted_iff hg hi hp).mp hc)

lemma source_alive (hg : GraphOk members m) (hi : Inv members m p d held [])
    (hclear : Clear members m p q) (hq : m.slot q = .sptr (some g)) : d.sharedCnt g ≠ 0 := by
  intro hz
  have hdoom := hi.dead g (ne_zero_of_pos ((hg.shared g).pos hq)) hz
  have hqp := (hclear g hdoom).1
  rcases held_cases hi q with he | ⟨-,hl⟩
  · exact hi.shared_ne (he.trans hq) hz
  · obtain ⟨h,hdoom,hmem⟩ := hl.resolve_left hqp
    exact (hclear h hdoom).2.1 hmem

lemma assign_enough (hg : GraphOk members m) {o r : Option Handle} (hps : m.slot p = .sptr o)
    (hq : m.slot q = .sptr r) (hc : Clear members m p q) (hro : Room members m p q)
    (hw : weight members m m ≤ fuel) :
    ∃ m', m.assign members fuel p q = .ok m' ∧ Assigned m m' p q := by
  have ha : Aside members m p := fun g hd => (hc g hd).2.2
  obtain ⟨d,hre⟩ := release_total hg ha (destroyVars_total hg ha fuel) hg.inv rfl
    (fun hn => nomatch hps.symm.trans hn) (.inl rfl) (le_succ_of_le hw)
  obtain ⟨_,hi,hp,-⟩ := release_inv hg hre
  have hsl : d.slot q = m.slot q := by
    rcases hi.slots q with he | ⟨-,g,hm,hd,-⟩
    · exact he
    · exact absurd hm (hc g hd).2.1
  cases r with
  | none =>
    refine ⟨_,assign_null hre (hsl.trans hq),?_,fun g hs => ?_,fun g hs => ?_⟩
    · exact (update_self ..).trans hq.symm
    · exact nomatch hq.symm.trans hs
    · exact nomatch hq.symm.trans hs
  | some g =>
    have hl := source_alive hg hi hc hq
    have hh := hi.helper_alive (.inl hl)
    refine ⟨retained d .sptr p g,?_,?_,fun x hs => ?_,fun x hs => ?_⟩
    · exact (assign_some (k := .sptr) hre (hsl.trans hq)).trans (retain_ok hh)
    · exact (update_self ..).trans hq.symm
    · cases hq.symm.trans hs
      exact ⟨hi.obj g hl,hh⟩
    · cases hq.symm.trans hs
      exact (counted_iff hg hi hp).mpr ((room_iff hi hp hg).mpr (hro g hq))

end

section
variable (hg : GraphOk members m) (hs : m.slot w = .wptr (some g))
include hg hs

lemma weakCnt_ne : m.weakCnt g ≠ 0 := by
  obtain ⟨n,hc,_⟩ := hg.weak g
  have hpo := hc.pos hs
  exact ne_zero_of_pos (by omega)

lemma watched_iff :
    m.weakCnt g ≠ 1 ↔ m.sharedCnt g ≠ 0 ∨ ∃ v, v ≠ w ∧ m.slot v = .wptr (some g) := by
  obtain ⟨n,hc,hn⟩ := hg.weak g
  have hpo := hc.pos hs
  have hre : Counts (update m.slot w .none) (· = .wptr (some g)) (n - 1) := hc.leave hs (by simp)
  constructor
  · intro hne
    by_contra hno
    obtain ⟨hd,ho⟩ := not_or.mp hno
    have hz := hre.unique (counts_zero.mpr fun v hv => by
      rcases eq_or_ne v w with rfl | hvw
      · rw [update_self] at hv
        cases hv
      · rw [update_of_ne hvw] at hv
        exact ho ⟨v,hvw,hv⟩)
    rw [if_neg hd] at hn
    exact hne (BitVec.eq_of_toNat_eq (by rw [hn,toNat_one (by decide)]; omega))
  · rintro hk hon
    rw [hon,toNat_one (by decide)] at hn
    rcases hk with ha | ⟨v,hvw,hv⟩
    · rw [if_pos ha] at hn
      omega
    · have hm := hre.pos (a := v) (by rw [update_of_ne hvw]; exact hv)
      omega

lemma reassign_eq : m.assign members fuel w w = (weakDropped m g).retain .wptr w g := by
  have hre : m.release members fuel w = .ok (weakDropped m g) := by
    unfold release releaseWith
    rw [hs]
    exact dropWeak_ok (hg.helper g (weakCnt_ne hg hs))
  refine assign_some hre ?_
  rw [(weakDropped_kept m g).slot]
  exact hs

lemma reassign_needs (ha : m.assign members fuel w w = .ok m') : m.weakCnt g ≠ 1 := by
  intro ho
  have hh := (retain_of_ok ((reassign_eq hg hs).symm.trans ha)).1
  rw [weakDropped,if_pos ho] at hh
  exact succ_ne_zero _ ((update_self (f := m.helperDeleted) ..).symm.trans hh)

lemma reassign_enough (hne : m.weakCnt g ≠ 1) :
    ∃ m', m.assign members fuel w w = .ok m' ∧ Rewatched m m' w := by
  have hd : weakDropped m g = m.setCnt .wptr g (m.weakCnt g - 1) := if_neg hne
  have hh := hg.helper g (weakCnt_ne hg hs)
  refine ⟨_,(reassign_eq hg hs).trans (by rw [hd]; exact retain_ok hh),?_,fun x hx => ?_,
    fun x hx => ?_⟩
  · exact (update_self ..).trans hs.symm
  · cases hs.symm.trans hx
    exact hh
  · cases hs.symm.trans hx
    change update (update m.weakCnt g _) g
      (update m.weakCnt g (m.weakCnt g - 1) g + 1) g = _
    rw [update_self,update_self]
    exact BitVec.sub_add_cancel ..

end

theorem assign_graph (hg : GraphOk members m) :
    (∀ p q o r, m.slot p = .sptr o → m.slot q = .sptr r → ((∃ N, ∀ fuel, N ≤ fuel →
          ∃ m', m.assign members fuel p q = .ok m' ∧ Assigned m m' p q) ↔
        Clear members m p q ∧ Room members m p q)) ∧
    ∀ w o, m.slot w = .wptr o →
      ((∃ N, ∀ fuel, N ≤ fuel → ∃ m', m.assign members fuel w w = .ok m' ∧ Rewatched m m' w) ↔
        ∀ g, o = some g → m.sharedCnt g ≠ 0 ∨ ∃ v, v ≠ w ∧ m.slot v = .wptr (some g)) := by
  refine ⟨fun p q o r hp hq => ⟨?_,?_⟩,fun w o hw => ⟨?_,fun hc => ?_⟩⟩
  · rintro ⟨N,hN⟩
    obtain ⟨m',ha,hre⟩ := hN N le_rfl
    exact assign_needs hg ha hre
  · rintro ⟨hcl,hro⟩
    exact ⟨weight members m m,fun fuel hw => assign_enough hg hp hq hcl hro hw⟩
  · rintro ⟨N,hN⟩ g rfl
    obtain ⟨m',ha,-⟩ := hN N le_rfl
    exact (watched_iff hg hw).mp (reassign_needs hg hw ha)
  · cases o with
    | none =>
      refine ⟨0,fun fuel _ => ⟨m.put w (.wptr none),?_,?_,fun g hs => ?_,fun g hs => ?_⟩⟩
      · unfold assign release releaseWith
        simp only [hw,andThen,ok]
      · exact (update_self ..).trans hw.symm
      · exact nomatch hw.symm.trans hs
      · exact nomatch hw.symm.trans hs
    | some g => exact ⟨0,fun fuel _ => reassign_enough hg hw ((watched_iff hg hw).mpr (hc g rfl))⟩

def chain : Heap where
  sharedCnt g := if g < 2 then 1 else 0
  weakCnt g := if g < 2 then 1 else 0
  slot v := if v < 2 then .sptr (some v) else .none
  used := 2
  objDeleted _ := 0
  helperDeleted _ := 0

def chainMembers : Handle → List Var
  | 0 => [1]
  | _ => []

lemma chain_slot : chain.slot v = .sptr (some g) ↔ v = g ∧ g < 2 := by
  change (if v < 2 then Slot.sptr (some v) else .none) = _ ↔ _
  split
  · next hv =>
    rw [Slot.sptr.injEq,Option.some.injEq]
    exact ⟨fun he => ⟨he,he ▸ hv⟩,And.left⟩
  · next hv => exact iff_of_false nofun fun ⟨he,hg⟩ => hv (he ▸ hg)

lemma chain_shared (g : Handle) :
    Counts chain.slot (· = .sptr (some g)) (chain.sharedCnt g).toNat := by
  change Counts _ _ (if g < 2 then 1 else 0 : Cnt).toNat
  split
  · next hg => exact counts_one fun v => chain_slot.trans (and_iff_left hg)
  · next hg => exact counts_zero.mpr fun v hv => hg (chain_slot.mp hv).2

lemma chainMembers_mem : v ∈ chainMembers g ↔ v = 1 ∧ g = 0 := by
  unfold chainMembers
  split <;> simp_all

lemma chain_ok : GraphOk chainMembers chain := by
  have hc : ∀ g, chain.sharedCnt g = 0 ∨ chain.sharedCnt g = 1 := fun g => by
    change (if g < 2 then 1 else 0 : Cnt) = 0 ∨ (if g < 2 then 1 else 0 : Cnt) = 1
    split
    · exact .inr rfl
    · exact .inl rfl
  refine ⟨chain_shared,fun g => ?_,fun g => ⟨0,?_,?_⟩,fun _ _ => rfl,fun _ _ => rfl,
    fun g hg v hv => ?_,fun g h v hg hh => ?_,fun g => ?_,
    fun g hg => if_neg (not_lt.mpr hg)⟩
  · rcases hc g with he | he <;> rw [he] <;> decide
  · refine counts_zero.mpr fun v hv => ?_
    change (if v < 2 then Slot.sptr (some v) else .none) = _ at hv
    split at hv <;> cases hv
  · change (chain.sharedCnt g).toNat = _
    rcases hc g with he | he <;> rw [he] <;> decide
  · obtain ⟨rfl,-⟩ := chainMembers_mem.mp hv
    exact nofun
  · exact (chainMembers_mem.mp hg).2.trans (chainMembers_mem.mp hh).2.symm
  · unfold chainMembers
    split <;> simp

theorem assign_graph_linked : GraphOk chainMembers chain ∧ ∃ N, ∀ fuel, N ≤ fuel →
      ∃ m', chain.assign chainMembers fuel 1 0 = .ok m' ∧ Assigned chain m' 1 0 := by
  refine ⟨chain_ok,((assign_graph chain_ok).1 1 0 _ _ rfl rfl).mpr ⟨fun g hd => ?_,fun g hg => ?_⟩⟩
  · refine ⟨by decide,fun hm => ?_,fun hm => ?_⟩
    · exact absurd (chainMembers_mem.mp hm).1 (by decide)
    · obtain ⟨-,rfl⟩ := chainMembers_mem.mp hm
      cases hd with
      | mk ho _ hh _ =>
        have hro := hh 0 rfl (by decide)
        exact absurd (chainMembers_mem.mp hro).1 (by decide)
  · obtain ⟨rfl,-⟩ := chain_slot.mp hg
    exact .inl (by decide)

theorem assign_freed :
    GraphOk chainMembers chain ∧ chain.slot 0 = .sptr (some 0) ∧ chain.slot 1 = .sptr (some 1) ∧
      1 ∈ chainMembers 0 ∧
      (∀ fuel, chain.assign chainMembers (fuel + 2) 0 0 = .fault .freedHelper) ∧
      ∀ fuel, chain.assign chainMembers (fuel + 2) 0 1 = .fault .freedStorage :=
  ⟨chain_ok,rfl,rfl,List.mem_singleton_self 1,fun _ => rfl,fun _ => rfl⟩

end Ptr
