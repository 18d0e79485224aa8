import RaphKernel.Mem.PagingLarge
import RaphKernel.Mem.PagingRefuse

namespace Paging
open Raph BitVec LargePage PagingCtrl Nat
open Physmem
open RadixTree
variable {p page r pst pgf : Word} {t : ℕ} {route : List Index}

def pdeWriteBit : Word := 1 <<< 1
def pdeUserBit : Word := 1 <<< 2
def pdeGlobalBit : Word := 1 <<< 8

def mapAllBody (physMemoryEnd : Word) (s : PagingCtrl × Word) :
    Sum (PagingCtrl × Word) (Except Panic PagingCtrl) :=
  if s.2 < physMemoryEnd then
    if s.1.isVirtAddrMapped (kLinearMapOffset + s.2) then .inl (s.1,s.2 + 0x200000)
    else
      match PhysAddr.setAddr none s.2 >>= fun paddr =>
        s.1.map2MPageToVirtAddr physMemoryEnd (kLinearMapOffset + s.2) paddr
          (pdeWriteBit ||| pdeUserBit) (pdeWriteBit ||| pdeGlobalBit ||| pdeUserBit) with
      | .error e => .inr (.error e)
      | .ok (_,m) => .inl (m,s.2 + 0x200000)
  else .inr (.ok s.1)

def PagingCtrl.mapAllPhysMemory (physMemoryEnd : Word) (fuel : ℕ) (m : PagingCtrl) :
    Option (Except Panic PagingCtrl) :=
  Loop.iterate (mapAllBody physMemoryEnd) fuel (m,0)

section
variable {tp pt va a : Word} {m m' : PagingCtrl}

lemma translate_low {a b : Word} (h : a.toNat % 2 ^ 48 = b.toNat % 2 ^ 48) :
    m.translate a = m.translate b := by
  have hp : path a = path b := path_eq (by rw [page,page,h])
  have hf (d : ℕ) (e : Word) : frame d e a = frame d e b := by
    have hl {ms : Word} {k : ℕ} (hm : ms.toNat = 2 ^ k - 1) (hk : k ≤ 48) :
        a &&& ms = b &&& ms := by
      apply eq_of_toNat_eq
      rw [low_toNat hm,low_toNat hm]
      have hd := pow_dvd_pow 2 hk
      rw [← mod_mod_of_dvd a.toNat hd,h,mod_mod_of_dvd _ hd]
    have h1 : get1GPageOffset a = get1GPageOffset b := hl (k := 30) (by decide) (by decide)
    have h2 : get2MPageOffset a = get2MPageOffset b := hl (k := 21) (by decide) (by decide)
    have h3 : get4KPageOffset a = get4KPageOffset b := hl (k := 12) (by decide) (by decide)
    unfold frame
    split
    · rw [h1]
    · rw [h2]
    · rw [h3]
  rw [PagingCtrl.translate,PagingCtrl.translate,hp]
  congr 1
  funext l
  exact hf l.1 l.2

lemma directory_place (hm : m.tables m.pml4t (getPML4TIndex va) &&& pml4ePresentBit ≠ 0)
    {pd : Word} (he : pd = m.tables (getPML4EMaskedAddr
      (m.tables m.pml4t (getPML4TIndex va))) (getPDPTIndex va))
    (hp : pd &&& pml4ePresentBit ≠ 0) (hs : pd &&& pde2MPageBit = 0) :
    m.tableOn ((path va).take 2) = some (pd &&& addressMask) := by
  subst he
  have hr : tableAt view m.tables 0 m.pml4t [] = some m.pml4t := rfl
  have hf := tableAt_snoc (i := getPML4TIndex va) hr (if_neg hm)
  exact tableAt_snoc hf (view_table_of_small (.inl rfl) hp hs)

lemma pde_of_no_directory (h : m.tableOn ((path va).take 2) = none) :
    (m.getTranslationEntries va).pde = 0 := by
  simp only [getTranslationEntries]
  split_ifs with hm hp hpd
  · rfl
  · rfl
  all_goals
    obtain ⟨hpr,hs⟩ := not_or.mp hp
    exact absurd (h.symm.trans (directory_place hm rfl hpr (not_not.mp hs))) (by simp)

lemma pde_absent_iff (h : m.leafOn (path va) = none) :
    (m.getTranslationEntries va).pde &&& pdePresentBit = 0 ↔
      m.tableOn ((path va).take 3) = none := by
  have hs : (path va).take 3 = (path va).take 2 ++ [getPDIndex va] := rfl
  cases hp : m.tableOn ((path va).take 2) with
  | none =>
    rw [pde_of_no_directory hp]
    refine iff_of_true BitVec.zero_and ?_
    rw [hs,tableOn,tableAt_append,show tableAt view m.tables 0 m.pml4t
      ((path va).take 2) = none from hp]
    rfl
  | some page =>
    rw [getTranslationEntries_pde hp]
    cases hv : view 2 (m.tables page _) with
    | absent =>
      refine iff_of_true ((view_absent_iff (by decide) _).mp hv) ?_
      exact absent_tableAt hp hv []
    | leaf =>
      have hl := leaf_walk hp hv [getPTIndex va]
      exact absurd (hl.symm.trans h) (by simp)
    | table q =>
      refine iff_of_false (fun hz => ?_) ?_
      · rw [(view_absent_iff (by decide) _).mpr hz] at hv
        cases hv
      · rw [hs,tableOn,tableAt_snoc hp hv]
        simp

lemma tableEntry_back {e : Word} {i : Index}
    {pr : List Index} (hok : TreeOk tp m) (hf : PstFlag pt)
    (hp : m.tableOn pr = some page) (hl : pr.length ≤ 2)
    (h : m.tableEntry tp page i pt pml4ePresentBit = .ok (e,m'))
    (hro : pr.length + 2 ≤ route.length) (hr : m'.tableOn route = some r) :
    m.tableOn route = some r := by
  obtain ⟨_,_,rfl⟩ | ⟨hab,q,ph,ha,_,rfl⟩ := tableEntry_cases h
  · exact hr
  · have hs := attachable_fresh hok hf hp hl hab (handed_zero ha)
    rcases attach_tableAt_inv hs hr with ⟨_,rfl⟩ | ho
    · simp at hro
    · exact ho

lemma map2M_back (pf : Word) (hok : TreeOk tp m) (hf : PstFlag pt)
    (h : m.map2MPageToVirtAddr tp va (some a) pt pf = .ok (true,m'))
    (hro : route.length = 3) (hr : m'.tableOn route = some r) :
    m.tableOn route = some r := by
  have hrt : m.tableOn [] = some m.pml4t := rfl
  obtain ⟨⟨e0,m0⟩,h0,h⟩ := bind_ok.mp h
  obtain ⟨d0,rfl,hp⟩ := (descent_root hok).entry hf (zero_le 2) h0
  have t0 := d0.down (if_neg hp)
  obtain ⟨_,_,g0⟩ := t0.grown
  obtain ⟨⟨e1,m1⟩,h1,h⟩ := bind_ok.mp h
  obtain ⟨d1,rfl,hp1⟩ := t0.entry hf (by simp) h1
  have hb : m1.tableOn route = some r := by
    dsimp only at h
    split_ifs at h with hl ha
    · cases h
    · cases h
    · have hs := not_not.mp hl
      rw [show getPDPTEMaskedAddr _ = _ &&& addressMask from if_pos hs] at h ha
      have t1 := d1.down (view_table_of_small (.inl rfl) hp1 hs)
      obtain ⟨_,_,g1⟩ := t1.grown
      cases h
      rw [← hr]
      refine (write_leaf_tableAt g1.ok.distinct t1.place ((view_absent_iff (by simp) _).mpr
        (not_not.mp ha)) ?_ route).symm
      rw [BitVec.or_assoc _ _ pde2MPageBit]
      exact view_leaf .page2M _
  have hfi := tableEntry_back g0.ok hf t0.place (by simp) h1 (by simp [hro]) hb
  exact tableEntry_back hok hf hrt (zero_le 2) h0 (by simp [hro]) hfi

lemma map2M_ok (hok : TreeOk tp m) (hf : PstFlag pt)
    (hs : ∀ i < 2, (handed tp i m.physmem).isSome = true)
    (va ad pf : Word) :
    ∃ b m', m.map2MPageToVirtAddr tp va (some ad) pt pf =
      .ok (b,m') := by
  obtain ⟨e0,m0,h0,d0⟩ := Descent.first_ok hok hf (hs 0 (by decide)) (getPML4TIndex va)
  obtain ⟨e1,m1,h1,_⟩ := d0.next_ok hf (.inl rfl) (fun k hk => hs k (by omega)) (getPDPTIndex va)
  rw [show pml4ePresentBit = pdptePresentBit from rfl] at h1
  simp only [map2MPageToVirtAddr,h0,bind,Except.bind,h1]
  split_ifs <;> exact ⟨_,_,rfl⟩

end

section
variable {tp : Word} {m m₀ m' : PagingCtrl} {s : ℕ}

def slotStart (p : Word) : Word := BitVec.ofNat 64 (p.toNat / 2 ^ 21 * 2 ^ 21)

def settled (m₀ : PagingCtrl) (p : Word) : Option Word :=
  if (m₀.leafOn (path (kLinearMapOffset + slotStart p))).isSome ∨
      (m₀.tableOn ((path (kLinearMapOffset + slotStart p)).take 3)).isSome then
    m₀.translate (kLinearMapOffset + p)
  else some p

structure Filled (physMemoryEnd : Word) (m₀ m : PagingCtrl) (s : ℕ) : Prop where
  ok : TreeOk physMemoryEnd m
  tables : ∀ route, route.length = 3 → m.tableOn route = m₀.tableOn route
  beyond : ∀ a, s * 2 ^ 21 ≤ span kLinearMapOffset a → m.translate a = m₀.translate a
  done : ∀ p : Word, p.toNat < s * 2 ^ 21 → m.translate (kLinearMapOffset + p) = settled m₀ p

lemma span_linear (hp : p.toNat < 2 ^ 48) :
    span kLinearMapOffset (kLinearMapOffset + p) = p.toNat := by
  rw [span,BitVec.add_comm,BitVec.add_sub_cancel,mod_eq_of_lt hp]

lemma span_slot {v : Word} (a : Word) : span (kLinearMapOffset + v) a =
    (span kLinearMapOffset a + (2 ^ 64 - v.toNat)) % 2 ^ 48 := by
  have hv := v.isLt
  have ha := a.isLt
  simp only [span,toNat_sub,toNat_add]
  omega

def start (s : ℕ) : Word := BitVec.ofNat 64 (s * 2 ^ 21)

lemma start_toNat (hs : s * 2 ^ 21 < 2 ^ 64) : (start s).toNat = s * 2 ^ 21 := by
  rw [start,toNat_ofNat,mod_eq_of_lt hs]

lemma start_succ (s : ℕ) : start s + 0x200000 = start (s + 1) := by
  rw [start,start,Nat.add_mul,ofNat_add]
  rfl

lemma start_le {n : ℕ} (h : (s + 1) * 2 ^ 21 ≤ n) : s * 2 ^ 21 ≤ n :=
  le_trans (mul_le_mul_right _ (le_succ s)) h

lemma slotStart_eq (hp : p.toNat / 2 ^ 21 = s) : slotStart p = start s := by
  rw [slotStart,hp,start]

lemma Filled.initial (hok : TreeOk tp m) : Filled tp m m 0 :=
  ⟨hok,fun _ _ => rfl,fun _ _ => rfl,fun p hp => by omega⟩

lemma Filled.leaf (h : Filled tp m₀ m s) (hs : s * 2 ^ 21 < 2 ^ 48) :
    (m.leafOn (path (kLinearMapOffset + start s))).isSome =
      (m₀.leafOn (path (kLinearMapOffset + start s))).isSome := by
  have hst := start_toNat (s := s) (by omega)
  rw [← translate_isSome,← translate_isSome,h.beyond]
  rw [span_linear (by omega),hst]

lemma Filled.skip (h : Filled tp m₀ m s) (hs : s * 2 ^ 21 < 2 ^ 48)
    (hsk : (m₀.leafOn (path (kLinearMapOffset + start s))).isSome ∨
      (m₀.tableOn ((path (kLinearMapOffset + start s)).take 3)).isSome) :
    Filled tp m₀ m (s + 1) := by
  refine ⟨h.ok,h.tables,fun a ha => h.beyond a (start_le ha),fun p hp => ?_⟩
  by_cases hl : p.toNat < s * 2 ^ 21
  · exact h.done p hl
  · have hsl : p.toNat / 2 ^ 21 = s := by omega
    rw [settled,slotStart_eq hsl,if_pos hsk]
    exact h.beyond _ (by rw [span_linear (by omega)]; omega)

lemma slot_aligned (hs : s * 2 ^ 21 < 2 ^ 64) : 2 ^ 21 ∣ (kLinearMapOffset + start s).toNat := by
  have hl : kLinearMapOffset.toNat = 0xffff800000000000 := rfl
  rw [toNat_add,start_toNat hs]
  omega

lemma slot_masked (hs : s * 2 ^ 21 < 2 ^ 52) : start s &&& page2M.mask = start s := by
  have hst := start_toNat (s := s) (by omega)
  refine (page2M.masked_iff _).mpr ⟨?_,by omega⟩
  rw [hst]
  exact dvd_mul_left _ _

lemma slot_translate (hok : TreeOk tp m)
    (hf : PstFlag pst) (hs : s * 2 ^ 21 < 2 ^ 52)
    (hm : page2M.map tp m (kLinearMapOffset + start s) (some (start s))
      pst pgf = .ok (true,m')) (a : Word) :
    m'.translate a = if span (kLinearMapOffset + start s) a < 2 ^ 21 then
      some (start s + BitVec.ofNat 64 (span (kLinearMapOffset + start s) a))
    else m.translate a := by
  have hl := map_translate hok hf (slot_aligned (by omega)) hm a
  rwa [slot_masked hs] at hl

lemma Filled.map (h : Filled tp m₀ m s) (hs : (s + 1) * 2 ^ 21 ≤ 2 ^ 48)
    (hle : (m.leafOn (path (kLinearMapOffset + start s))).isSome = false)
    (hf : PstFlag pst)
    (hm : page2M.map tp m (kLinearMapOffset + start s) (some (start s))
      pst pgf = .ok (true,m')) : Filled tp m₀ m' (s + 1) := by
  have hst := start_toNat (s := s) (by omega)
  have ht := slot_translate h.ok hf (by omega) hm
  have hl := map_true h.ok hf hm
  have hd : page2M.depth ≤ 3 := by decide
  have he := view_leaf .page2M (start s ||| pst)
  refine ⟨hl.ok hd he,fun route hr => ?_,fun a ha => ?_,fun p hp => ?_⟩
  · rw [← h.tables route hr]
    exact Option.ext fun r => ⟨map2M_back pgf h.ok hf hm hr,hl.tables_kept hd he⟩
  · rw [ht,if_neg,h.beyond a (start_le ha)]
    have hlt : span kLinearMapOffset a < 2 ^ 48 := mod_lt _ (by decide)
    rw [span_slot,hst]
    generalize span kLinearMapOffset a = d at ha hlt
    omega
  · rw [ht,span_slot,span_linear (by omega),hst]
    by_cases hlo : p.toNat < s * 2 ^ 21
    · rw [if_neg (by omega),h.done p hlo]
    · have hsl : p.toNat / 2 ^ 21 = s := by omega
      have hn : m.tableOn ((path (kLinearMapOffset + start s)).take 3) = none := hl.untabled hd []
      have hfr : ¬ ((m₀.leafOn (path (kLinearMapOffset + start s))).isSome ∨
          (m₀.tableOn ((path (kLinearMapOffset + start s)).take 3)).isSome) := by
        rw [← h.leaf (by omega),hle,← h.tables _ rfl,hn]
        simp
      rw [if_pos (by omega),settled,slotStart_eq hsl,if_neg hfr]
      refine congrArg some (eq_of_toNat_eq ?_)
      rw [toNat_add,toNat_ofNat,hst]
      omega

def slots (physMemoryEnd : Word) : ℕ := (physMemoryEnd.toNat + (2 ^ 21 - 1)) / 2 ^ 21

def linearFlag : Word := pdeWriteBit ||| pdeUserBit

def linearPageFlag : Word := pdeWriteBit ||| pdeGlobalBit ||| pdeUserBit

lemma linearFlag_ok : PstFlag linearFlag := ⟨by decide,by decide⟩

structure Advanced (physMemoryEnd : Word) (m₀ m m' : PagingCtrl) (s : ℕ) : Prop where
  filled : Filled physMemoryEnd m₀ m' (s + 1)
  supply : ∃ k ≤ 2, ∀ j, handed physMemoryEnd j m'.physmem =
    handed physMemoryEnd (j + k) m.physmem

lemma mapAllBody_unmapped (hlt : start s < tp)
    (hl : (m.leafOn (path (kLinearMapOffset + start s))).isSome = false) :
    mapAllBody tp (m,start s) =
      match page2M.map tp m (kLinearMapOffset + start s) (some (start s))
        linearFlag linearPageFlag with
      | .error e => .inr (.error e)
      | .ok (_,m') => .inl (m',start (s + 1)) := by
  simp only [mapAllBody,if_pos hlt,isVirtAddrMapped_eq,hl,start_succ]
  rfl

lemma mapAll_step (h : Filled tp m₀ m s) (he : tp.toNat ≤ 2 ^ 48)
    (hs : s * 2 ^ 21 < tp.toNat) :
    (∃ e, mapAllBody tp (m,start s) = .inr (.error e) ∧
      ¬ ∀ i < 2, (handed tp i m.physmem).isSome = true) ∨
    ∃ m', mapAllBody tp (m,start s) = .inl (m',start (s + 1)) ∧
      Advanced tp m₀ m m' s := by
  have hlt : start s < tp := by
    rw [lt_def,start_toNat (by omega)]
    exact hs
  cases hl : (m.leafOn (path (kLinearMapOffset + start s))).isSome with
  | true =>
    refine .inr ⟨m,?_,h.skip (by omega) (.inl ?_),0,zero_le 2,fun _ => rfl⟩
    · simp only [mapAllBody,if_pos hlt,isVirtAddrMapped_eq,hl,if_true,start_succ]
    · rw [← h.leaf (by omega),hl]
  | false =>
    rw [mapAllBody_unmapped hlt hl]
    cases hma : page2M.map tp m _
      (some _) linearFlag linearPageFlag with
    | error e =>
      refine .inl ⟨e,rfl,fun hsu => ?_⟩
      obtain ⟨b,m',hok⟩ := map2M_ok h.ok linearFlag_ok hsu _
        (start s) linearPageFlag
      exact absurd (hma.symm.trans hok) (by simp)
    | ok r =>
      obtain ⟨b,m'⟩ := r
      refine .inr ⟨m',rfl,?_⟩
      cases b with
      | false =>
        have hr : m.map2MPageToVirtAddr tp (kLinearMapOffset + start s)
          (some (start s)) linearFlag linearPageFlag = .ok (false,m') := hma
        obtain ⟨hsa,hm⟩ := map2M_false h.ok.fresh linearFlag_ok hr
        rw [hl,h.tables _ rfl] at hm
        rw [hsa]
        exact ⟨h.skip (by omega) (.inr (by simpa using hm)),0,zero_le 2,fun _ => rfl⟩
      | true =>
        exact ⟨h.map (by omega) hl linearFlag_ok hma,(map_true h.ok linearFlag_ok hma).supply⟩

lemma mapAll_run (hen : tp.toNat ≤ 2 ^ 48) :
    ∀ n s m, s + n = slots tp → Filled tp m₀ m s →
      ∃ r, Loop.Returns (mapAllBody tp) (m,start s) r ∧
        (∀ m', r = .ok m' → Filled tp m₀ m' (slots tp)) ∧
        ((∀ i < 2 * n, (handed tp i m.physmem).isSome = true) → ∃ m', r = .ok m') := by
  intro n
  induction n with
  | zero =>
    intro s m hn h
    rw [add_zero] at hn
    have hex : mapAllBody tp (m,start s) = .inr (.ok m) := by
      refine if_neg ?_
      have hro : tp.toNat ≤ s * 2 ^ 21 ∧ s * 2 ^ 21 < 2 ^ 64 := by
        rw [hn,slots]
        omega
      rw [lt_def,start_toNat hro.2]
      exact not_lt.mpr hro.1
    refine ⟨.ok m,Loop.returns_of_exit hex,?_,fun _ => ⟨m,rfl⟩⟩
    rintro m' ⟨⟩
    rwa [hn] at h
  | succ n ih =>
    intro s m hn h
    have hs : s * 2 ^ 21 < tp.toNat := by
      rw [slots] at hn
      omega
    obtain ⟨e,hb,hsh⟩ | ⟨m₁,hb,hne⟩ := mapAll_step h hen hs
    · refine ⟨.error e,Loop.returns_of_exit hb,?_,fun hsu => ?_⟩
      · rintro m' ⟨⟩
      · exact absurd (fun i hi => hsu i (by omega)) hsh
    · obtain ⟨r,hr,hok,hre⟩ := ih _ m₁ (by omega) hne.filled
      obtain ⟨k,_,hsu⟩ := hne.supply
      refine ⟨r,(Loop.returns_step_iff hb).mpr hr,hok,fun he => hre fun i hi => ?_⟩
      rw [hsu]
      exact he _ (by omega)

def SlotAbsent (m : PagingCtrl) (t : ℕ) : Prop :=
  ∀ p : Word, p.toNat / 2 ^ 21 = t → m.convertVirtMemToPhysMem (kLinearMapOffset + p) none = .ok none

def SlotLinear (m : PagingCtrl) (t : ℕ) : Prop :=
  ∀ p : Word, p.toNat / 2 ^ 21 = t →
    m.convertVirtMemToPhysMem (kLinearMapOffset + p) none = .ok (some p)

structure LinearMapped (physMemoryEnd : Word) (m m' : PagingCtrl) : Prop where
  below : ∀ p, p < physMemoryEnd →
    m'.convertVirtMemToPhysMem (kLinearMapOffset + p) none = .ok (some p)
  outside : ∀ a, physMemoryEnd.toNat ≤ span kLinearMapOffset a / 2 ^ 21 * 2 ^ 21 →
    m'.convertVirtMemToPhysMem a none = m.convertVirtMemToPhysMem a none

lemma LinearMapped.fits (h : LinearMapped tp m m') : tp.toNat ≤ 2 ^ 48 := by
  by_contra hlarge
  have hlt := not_le.mp hlarge
  have hw := h.below 0x1000000000000 hlt
  have hz := h.below 0 (lt_of_le_of_lt (zero_le _) hlt)
  rw [convertVirtMemToPhysMem_eq] at hz hw
  rw [translate_low (b := kLinearMapOffset + 0) (by decide),hz] at hw
  exact absurd hw (by decide)

lemma SlotAbsent.translate (h : SlotAbsent m t) (hp : p.toNat / 2 ^ 21 = t) :
    m.translate (kLinearMapOffset + p) = none :=
  Except.ok.inj ((m.convertVirtMemToPhysMem_eq _).symm.trans (h p hp))

lemma SlotLinear.translate (h : SlotLinear m t) (hp : p.toNat / 2 ^ 21 = t) :
    m.translate (kLinearMapOffset + p) = some p :=
  Except.ok.inj ((m.convertVirtMemToPhysMem_eq _).symm.trans (h p hp))

lemma LinearMapped.translate (h : LinearMapped tp m m')
    (hp : p < tp) : m'.translate (kLinearMapOffset + p) = some p :=
  Except.ok.inj ((m'.convertVirtMemToPhysMem_eq _).symm.trans (h.below p hp))

lemma start_slot (ht : t * 2 ^ 21 < 2 ^ 64) : (start t).toNat / 2 ^ 21 = t := by
  rw [start_toNat ht,Nat.mul_div_cancel _ (by decide)]

lemma SlotAbsent.leaf (h : SlotAbsent m t) (ht : t * 2 ^ 21 < 2 ^ 64) :
    m.leafOn (path (kLinearMapOffset + start t)) = none :=
  Option.map_eq_none_iff.mp (h.translate (start_slot ht))

lemma SlotLinear.leaf (h : SlotLinear m t) (ht : t * 2 ^ 21 < 2 ^ 64) :
    (m.leafOn (path (kLinearMapOffset + start t))).isSome = true := by
  rw [← translate_isSome,h.translate (start_slot ht)]
  rfl

lemma Filled.linear_iff (h : Filled tp m₀ m (slots tp))
    (he : tp.toNat ≤ 2 ^ 48)
    (hsl : ∀ t, t * 2 ^ 21 < tp.toNat → SlotAbsent m₀ t ∨ SlotLinear m₀ t) :
    LinearMapped tp m₀ m ↔ ∀ t, t * 2 ^ 21 < tp.toNat → SlotAbsent m₀ t →
      (m₀.getTranslationEntries (kLinearMapOffset + start t)).pde &&& pdePresentBit = 0 := by
  have hr : tp.toNat ≤ slots tp * 2 ^ 21 := by
    rw [slots]
    omega
  constructor
  · intro hl t ht hab
    have ht64 : t * 2 ^ 21 < 2 ^ 64 := by omega
    have hs := start_toNat ht64
    rw [pde_absent_iff (hab.leaf ht64)]
    by_contra hta
    have hb := hl.translate (p := start t) (by rw [lt_def,hs]; exact ht)
    rw [h.done _ (by omega),settled,slotStart_eq (start_slot ht64),
      if_pos (.inr (Option.isSome_iff_ne_none.mpr hta)),
      hab.translate (start_slot ht64)] at hb
    cases hb
  · intro hpd
    refine ⟨fun p hp => ?_,fun a ha => ?_⟩
    · rw [lt_def] at hp
      have ht : p.toNat / 2 ^ 21 * 2 ^ 21 < tp.toNat := by omega
      have ht64 : p.toNat / 2 ^ 21 * 2 ^ 21 < 2 ^ 64 := by omega
      rw [convertVirtMemToPhysMem_eq,h.done p (by omega),settled,slotStart_eq rfl]
      rcases hsl _ ht with hab | hl
      · have hle := hab.leaf ht64
        have hta := (pde_absent_iff hle).mp (hpd _ ht hab)
        rw [hle,hta,if_neg (by simp)]
      · rw [if_pos (.inl (hl.leaf ht64)),hl.translate rfl]
    · rw [convertVirtMemToPhysMem_eq,convertVirtMemToPhysMem_eq,h.beyond]
      generalize span kLinearMapOffset a = d at ha
      rw [slots]
      omega

end

theorem mapAllPhysMemory_linear_iff (physMemoryEnd : Word) (m : PagingCtrl)
    (htree : TreeOk physMemoryEnd m)
    (hslot : ∀ t, t * 2 ^ 21 < physMemoryEnd.toNat → SlotAbsent m t ∨ SlotLinear m t) :
    (physMemoryEnd.toNat ≤ 2 ^ 48 →
      (∀ i < 2 * slots physMemoryEnd, (handed physMemoryEnd i m.physmem).isSome = true) →
      ∃ fuel m', m.mapAllPhysMemory physMemoryEnd fuel = some (.ok m')) ∧
    ∀ fuel m', m.mapAllPhysMemory physMemoryEnd fuel = some (.ok m') →
      (LinearMapped physMemoryEnd m m' ↔ physMemoryEnd.toNat ≤ 2 ^ 48 ∧
        ∀ t, t * 2 ^ 21 < physMemoryEnd.toNat → SlotAbsent m t →
          (m.getTranslationEntries (kLinearMapOffset + start t)).pde &&& pdePresentBit = 0) := by
  have hru (he : physMemoryEnd.toNat ≤ 2 ^ 48) := mapAll_run he (slots physMemoryEnd) 0 m
    (zero_add _) (Filled.initial htree)
  constructor
  · intro he hs
    obtain ⟨r,⟨fuel,hre⟩,_,hok⟩ := hru he
    obtain ⟨m',rfl⟩ := hok hs
    exact ⟨fuel,m',hre⟩
  · intro fuel m' hre
    have hf (he : physMemoryEnd.toNat ≤ 2 ^ 48) :
        Filled physMemoryEnd m m' (slots physMemoryEnd) := by
      obtain ⟨r,hr,hok,_⟩ := hru he
      exact hok m' (Loop.returns_unique hr ⟨fuel,hre⟩)
    constructor
    · intro hl
      have he := hl.fits
      exact ⟨he,((hf he).linear_iff he hslot).mp hl⟩
    · rintro ⟨he,hp⟩
      exact ((hf he).linear_iff he hslot).mpr hp

theorem mapAllPhysMemory_linear_boot :
    ∃ fuel m', bootPaging.mapAllPhysMemory 0x8000000 fuel = some (.ok m') ∧
      LinearMapped 0x8000000 bootPaging m' := by
  have ha (t : ℕ) : SlotAbsent bootPaging t := by
    intro p _
    rw [PagingCtrl.convertVirtMemToPhysMem_eq,PagingCtrl.translate,PagingCtrl.leafOn,
      blank_walk view_zero_absent (fun _ => rfl)]
    rfl
  obtain ⟨hr,hl⟩ := mapAllPhysMemory_linear_iff 0x8000000 bootPaging bootPaging_ok
    (fun t _ => .inl (ha t))
  obtain ⟨fuel,m',hru⟩ := hr (by decide) (by decide +kernel)
  refine ⟨fuel,m',hru,(hl fuel m' hru).mpr ⟨by decide,fun t _ _ => ?_⟩⟩
  have hn : bootPaging.tableOn ((path (kLinearMapOffset + start t)).take 2) = none :=
    Option.eq_none_iff_forall_ne_some.mpr fun page hp =>
      List.cons_ne_nil _ _ (bootPaging_table hp).1
  rw [pde_of_no_directory hn]
  exact BitVec.zero_and

def hollowTables (page : Word) (i : Index) : Word :=
  if page = 0x1000 ∧ i = 256 then 0x2007
  else if page = 0x2000 ∧ i = 0 then 0x3007
  else if page = 0x3000 ∧ i = 0 then 0x4007 else 0

def hollowPaging : PagingCtrl := ⟨hollowTables,0x1000,bootCtrl [⟨0,0,0x100000⟩]⟩

lemma hollow_root (i : Index) (hi : i ≠ 256) : hollowTables 0x1000 i = 0 := by
  simpa [hollowTables] using hi

lemma hollow_pdpt (i : Index) (hi : i ≠ 0) : hollowTables 0x2000 i = 0 := by
  simpa [hollowTables] using hi

lemma hollow_pd (i : Index) (hi : i ≠ 0) : hollowTables 0x3000 i = 0 := by
  simpa [hollowTables] using hi

lemma hollow_pt (i : Index) : hollowTables 0x4000 i = 0 := by
  simp [hollowTables]

lemma hollow_table {pt : List Index} (h : hollowPaging.tableOn pt = some page) :
    pt = [] ∧ page = 0x1000 ∨ pt = [256] ∧ page = 0x2000 ∨
      pt = [256,0] ∧ page = 0x3000 ∨ pt = [256,0,0] ∧ page = 0x4000 := by
  obtain hr | ⟨rs,rfl,h⟩ := single_tableAt (q := 0x2000) view_zero_absent hollow_root
    (by decide) h
  · exact .inl hr
  obtain ⟨rfl,hp⟩ | ⟨rs,rfl,h⟩ := single_tableAt (q := 0x3000) view_zero_absent hollow_pdpt
    (by decide) h
  · exact .inr (.inl ⟨rfl,hp⟩)
  obtain ⟨rfl,hp⟩ | ⟨rs,rfl,h⟩ := single_tableAt (q := 0x4000) view_zero_absent hollow_pd
    (by decide) h
  · exact .inr (.inr (.inl ⟨rfl,hp⟩))
  obtain ⟨rfl,hp⟩ := blank_tableAt view_zero_absent hollow_pt h
  exact .inr (.inr (.inr ⟨rfl,hp⟩))

lemma hollow_translate (a : Word) : hollowPaging.translate a = none := by
  have hw (pt : List Index) : hollowPaging.leafOn pt = none :=
    single_walk (q := 0x2000) view_zero_absent hollow_root (by decide)
      (single_walk (q := 0x3000) view_zero_absent hollow_pdpt (by decide)
        (single_walk (q := 0x4000) view_zero_absent hollow_pd (by decide)
          (blank_walk view_zero_absent hollow_pt _))) pt
  rw [PagingCtrl.translate,hw]
  rfl

lemma hollow_ok : TreeOk 0x200000 hollowPaging := by
  refine treeOk_of_paged (by decide) ?_ ⟨by decide,by decide⟩ ?_
  · intro page pt o hp ho
    rcases hollow_table hp with ⟨rfl,rfl⟩ | ⟨rfl,rfl⟩ | ⟨rfl,rfl⟩ | ⟨rfl,rfl⟩ <;>
      rcases hollow_table ho with ⟨rfl,hpage⟩ | ⟨rfl,hpage⟩ | ⟨rfl,hpage⟩ | ⟨rfl,hpage⟩ <;>
        first | rfl | exact absurd hpage (by decide)
  · rintro page ⟨pt,hpath⟩
    rcases hollow_table hpath with ⟨_,rfl⟩ | ⟨_,rfl⟩ | ⟨_,rfl⟩ | ⟨_,rfl⟩ <;>
      simp [hollowPaging,bootCtrl,covered,Intervals.covered_singleton,lo,hi]

theorem mapAllPhysMemory_hollow : (TreeOk 0x200000 hollowPaging ∧ (∀ t, SlotAbsent hollowPaging t) ∧
      ∃ m', hollowPaging.mapAllPhysMemory 0x200000 2 = some (.ok m') ∧
        m'.convertVirtMemToPhysMem kLinearMapOffset none = .ok none) ∧
    ∀ (physMemoryEnd : Word) (m m' : PagingCtrl), 0x1000000000000 < physMemoryEnd →
      ¬ LinearMapped physMemoryEnd m m' := by
  refine ⟨⟨hollow_ok,fun t p _ => ?_,_,rfl,rfl⟩,fun physMemoryEnd m m' hl h => ?_⟩
  · rw [PagingCtrl.convertVirtMemToPhysMem_eq,hollow_translate]
  · exact absurd h.fits (not_le.mpr hl)

end Paging
