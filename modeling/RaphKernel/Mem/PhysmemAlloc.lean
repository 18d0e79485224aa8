import RaphKernel.Mem.AreaList

namespace Physmem
open Raph List BitVec Intervals PhysmemCtrl
variable {align addr top size new : Word} {nonRecursive : Bool} {c c' : PhysmemCtrl}
  {paddr paddr' : PhysAddr}

def AlignFits (align size : Word) : List AllocatedArea → Prop
  | [] => True
  | [last] => roundUp (hi last) align.toNat + size.toNat < 2 ^ 64
  | cur :: next :: rest =>
    if gapFits align size cur next then roundUp (hi cur) align.toNat ≤ lo next
    else AlignFits align size (next :: rest)

instance alignFitsDecidable (align size : Word) :
    (areas : List AllocatedArea) → Decidable (AlignFits align size areas)
  | [] => .isTrue trivial
  | [last] => inferInstanceAs (Decidable (roundUp (hi last) align.toNat + size.toNat < 2 ^ 64))
  | cur :: next :: rest =>
    have := alignFitsDecidable align size (next :: rest)
    inferInstanceAs (Decidable (if gapFits align size cur next then
      roundUp (hi cur) align.toNat ≤ lo next else AlignFits align size (next :: rest)))

def Stops (align size : Word) (cur : AllocatedArea) (post : List AllocatedArea) : Prop :=
  post = [] ∨ ∃ next rest, post = next :: rest ∧ gapFits align size cur next = true

lemma allocLoop_spec (align size : Word) (l : List AllocatedArea) :
    ∀ done fr, l ≠ [] →
      (∀ f, fr = some f → f < done.length ∧ Adjacent (done ++ l) f) →
      ∃ pre cur post, done ++ l = pre ++ cur :: post ∧
        (allocLoop align size l done.length fr).1 = pre.length ∧
        Stops align size cur post ∧
        (AlignFits align size l ↔ AlignFits align size (cur :: post)) ∧
        ∀ f, (allocLoop align size l done.length fr).2 = some f →
          (f < pre.length ∨ f = pre.length ∧ post ≠ []) ∧ Adjacent (done ++ l) f := by
  induction l with
  | nil => intro _ _ h; exact absurd rfl h
  | cons cur l ih =>
    intro done fr _ hf
    cases l with
    | nil =>
      refine ⟨done,cur,[],rfl,rfl,.inl rfl,Iff.rfl,?_⟩
      intro f h
      exact ⟨.inl (hf f h).1,(hf f h).2⟩
    | cons next rest =>
      have hn : ∀ f, notFraged fr done.length cur next = some f →
          f < done.length + 1 ∧ Adjacent (done ++ cur :: next :: rest) f := by
        intro f h
        rcases notFraged_cases h with ho | ⟨rfl,ha⟩
        · exact ⟨(hf f ho).1.trans (Nat.lt_succ_self _),(hf f ho).2⟩
        · exact ⟨Nat.lt_succ_self _,adjacent_at ha⟩
      by_cases hg : gapFits align size cur next = true
      · refine ⟨done,cur,next :: rest,rfl,by simp [allocLoop,hg],.inr ⟨next,rest,rfl,hg⟩,Iff.rfl,?_⟩
        intro f h
        have h' : notFraged fr done.length cur next = some f := by
          simpa [allocLoop,hg] using h
        have hlt := (hn f h').1
        refine ⟨?_,(hn f h').2⟩
        rcases Nat.lt_or_ge f done.length with hd | hd
        · exact .inl hd
        · exact .inr ⟨by omega,by simp⟩
      · have hr := ih (done ++ [cur]) (notFraged fr done.length cur next) (by simp)
          (by simpa using hn)
        have hs : allocLoop align size (cur :: next :: rest) done.length fr =
            allocLoop align size (next :: rest) (done ++ [cur]).length
              (notFraged fr done.length cur next) := by
          simp [allocLoop,hg]
        have hfi : AlignFits align size (cur :: next :: rest) ↔
            AlignFits align size (next :: rest) := by
          simp [AlignFits,hg]
        rw [hs,hfi]
        simpa using hr

structure AllocGood (align size : Word) (c : PhysmemCtrl) (paddr : PhysAddr)
    (c' : PhysmemCtrl) : Prop where
  returned : ∃ addr, paddr = some addr ∧ align.toNat ∣ addr.toNat ∧
    Disjoint (range addr size) (covered c.allocatedArea) ∧
    covered c'.allocatedArea = covered c.allocatedArea ∪ range addr size
  wellFormed : WellFormed c'.allocatedArea

structure AllocSite (align size : Word) (areas pre : List AllocatedArea)
    (cur : AllocatedArea) (post : List AllocatedArea) (fraged : Option ℕ) : Prop where
  split : areas = pre ++ cur :: post
  stops : Stops align size cur post
  fits : AlignFits align size areas ↔ AlignFits align size (cur :: post)
  fraged : ∀ f, fraged = some f →
    (f < pre.length ∨ f = pre.length ∧ post ≠ []) ∧ Adjacent areas f

lemma PhysmemCtrl.allocSub_ok
        (h : c.allocSub top paddr size ⟨align,nonRecursive⟩ = .ok (paddr',c')) :
    0 < size ∧ ∃ pre cur post fr, AllocSite align size c.allocatedArea pre cur post fr ∧
      paddr' = some (c.placeArea pre.length cur align size).1 ∧
      c' = (c.placeArea pre.length cur align size).2.2.mergeFraged fr ∧
      (c.placeArea pre.length cur align size).2.1.endAddr < top := by
  simp only [allocSub,kassert_bind_ok,decide_eq_true_eq] at h
  obtain ⟨_,hsize,_,_,h⟩ := h
  refine ⟨hsize,?_⟩
  have hne : c.allocatedArea ≠ [] := by
    intro hn
    simp [hn] at h
  obtain ⟨pre,cur,post,hs,hi,hst,hfi,hf⟩ :=
    allocLoop_spec align size c.allocatedArea [] none hne (by simp)
  simp only [nil_append,length_nil] at hs hi hf
  have hc : c.allocatedArea[pre.length]? = some cur := by rw [hs]; simp
  rw [hi,hc] at h
  simp only at h
  split at h
  · simp [kernelPanic] at h
  · rename_i he
    obtain ⟨p,hp,h⟩ := bind_ok.mp h
    obtain ⟨_,rfl⟩ := PhysAddr.setAddr_ok.mp hp
    cases h
    exact ⟨pre,cur,post,_,⟨hs,hst,hfi,hf⟩,rfl,rfl,BitVec.not_le.mp he⟩

section
variable {k : ℕ} {size : Word} {cur : AllocatedArea} {pre post : List AllocatedArea}

lemma room_of_alignFits (hk : k < 64) (ho : Intervals.Ordered lo hi (cur :: post))
    (hs : Stops (powerOfTwo k) size cur post) (hfit : AlignFits (powerOfTwo k) size (cur :: post)) :
    (alignUp cur.endAddr (powerOfTwo k)).toNat = roundUp (hi cur) (2 ^ k) ∧
      roundUp (hi cur) (2 ^ k) + size.toNat < 2 ^ 64 ∧
      ∀ b ∈ post, roundUp (hi cur) (2 ^ k) + size.toNat ≤ lo b := by
  rcases hs with rfl | ⟨next,rest,rfl,hg⟩
  · simp only [AlignFits,powerOfTwo_toNat hk] at hfit
    exact ⟨alignUp_toNat hk (by unfold hi at hfit; omega),hfit,by simp⟩
  · simp only [AlignFits,hg,if_true,powerOfTwo_toNat hk] at hfit
    have hn := lo_lt next
    have ha : (alignUp cur.endAddr (powerOfTwo k)).toNat = roundUp (hi cur) (2 ^ k) :=
      alignUp_toNat hk (by unfold hi at hfit; omega)
    have hr : roundUp (hi cur) (2 ^ k) + size.toNat ≤ lo next := by
      have hle : alignUp cur.endAddr (powerOfTwo k) ≤ next.startAddr := by
        rw [le_def,ha]
        exact hfit
      have hg' : size ≤ next.startAddr - alignUp cur.endAddr (powerOfTwo k) := by
        simpa [gapFits] using hg
      rw [le_def,toNat_sub_of_le hle,ha] at hg'
      unfold lo at hfit ⊢
      omega
    refine ⟨ha,by omega,?_⟩
    intro b hb
    obtain ⟨_,_,hre⟩ := ordered_cons.mp ho
    obtain ⟨hnn,hnr,_⟩ := ordered_cons.mp hre
    rcases mem_cons.mp hb with rfl | hb
    · exact hr
    · exact hr.trans (hnn.trans (hnr b hb))

lemma site_disjoint (ho : WellFormed (pre ++ cur :: post))
    (hlo : hi cur ≤ addr.toNat) (hr : ∀ b ∈ post, addr.toNat + size.toNat ≤ lo b) :
    Disjoint (range addr size) (covered (pre ++ cur :: post)) := by
  rw [wellFormed_iff] at ho
  obtain ⟨_,hcp,hal⟩ := ordered_append.mp ho
  obtain ⟨hc,_⟩ := ordered_cons.mp hcp
  have hs : pre ++ cur :: post = (pre ++ [cur]) ++ post := by simp
  rw [hs]
  apply gap_disjoint _ hr
  intro a ha
  rcases mem_append.mp ha with ha | ha
  · exact (hal a ha cur (by simp)).trans (hc.trans hlo)
  · rw [mem_singleton.mp ha]; exact hlo

variable {c : PhysmemCtrl} {fr : Option ℕ}

lemma placeArea_extend (h : alignUp cur.endAddr align = cur.endAddr) (i : ℕ) :
    c.placeArea i cur align size = (cur.endAddr,{ cur with endAddr := cur.endAddr + size },
      c.setEnd i (cur.endAddr + size)) := by
  simp [placeArea,h]

lemma placeArea_insert (h : alignUp cur.endAddr align ≠ cur.endAddr) (i : ℕ) :
    c.placeArea i cur align size = (alignUp cur.endAddr align,cur,
      c.insertAfter i (alignUp cur.endAddr align) (alignUp cur.endAddr align + size)) := by
  simp [placeArea,h]

lemma fraged_before (site : AllocSite align size c.allocatedArea pre cur post fr)
    (hr : ∀ b ∈ post, hi cur < lo b) {cur' : AllocatedArea}
    (hs : cur'.startAddr = cur.startAddr) :
    ∀ f, fr = some f → f < pre.length ∧ Adjacent (pre ++ [cur']) f := by
  intro f hf
  obtain ⟨hp,ha⟩ := site.fraged f hf
  rw [site.split] at ha
  rcases hp with hlt | ⟨rfl,hne⟩
  · exact ⟨hlt,adjacent_front ha hlt hs⟩
  · exfalso
    obtain ⟨next,rest,rfl⟩ := exists_cons_of_ne_nil hne
    have heq := start_of_adjacent ha
    have hlt := hr next (by simp)
    omega

structure Placed (size : Word) (c : PhysmemCtrl) (pre : List AllocatedArea)
    (cur : AllocatedArea) (addr : Word) (placed : PhysmemCtrl) : Prop where
  disjoint : Disjoint (range addr size) (covered c.allocatedArea)
  covered : covered placed.allocatedArea = covered c.allocatedArea ∪ range addr size
  wellFormed : WellFormed placed.allocatedArea
  site : ∃ cur' post', placed.allocatedArea = pre ++ cur' :: post' ∧
    cur'.startAddr = cur.startAddr

lemma gap_of_room {n : ℕ} (hsize : 0 < size) (hge : hi cur ≤ n)
    (hr : ∀ b ∈ post, n + size.toNat ≤ lo b) : ∀ b ∈ post, hi cur < lo b := by
  intro b hb
  have hp : 0 < size.toNat := by simpa [lt_def] using hsize
  have hle := hr b hb
  omega

section
variable (hk : k < 64) (hwf : WellFormed c.allocatedArea)
  (site : AllocSite (powerOfTwo k) size c.allocatedArea pre cur post fr)
  (hfit : AlignFits (powerOfTwo k) size c.allocatedArea)
include hk hwf site hfit

lemma allocSite_placed : Placed size c pre cur (c.placeArea pre.length cur (powerOfTwo k) size).1
      (c.placeArea pre.length cur (powerOfTwo k) size).2.2 := by
  have hs := site.split
  have ho := hwf
  rw [hs] at ho
  have hoc := (ordered_append.mp ((wellFormed_iff _).mp ho)).2.1
  obtain ⟨ha,hlt,hr⟩ := room_of_alignFits hk hoc site.stops (site.fits.mp hfit)
  have hge := roundUp_ge (hi cur) (2 ^ k) (by positivity)
  by_cases he : alignUp cur.endAddr (powerOfTwo k) = cur.endAddr
  · have hcu : roundUp (hi cur) (2 ^ k) = hi cur := by rw [← ha,he]; rfl
    have hcl := (ordered_cons.mp hoc).1
    rw [hcu] at hlt hr
    have hen := toNat_add_of_lt hlt
    have hl := setEnd_at hs (cur.endAddr + size)
    obtain ⟨hwf',hc⟩ := extend_covered ho hcl (le_refl (hi cur)) (Nat.le_add_right _ size.toNat)
      hen hr
    rw [placeArea_extend he]
    refine ⟨?_,?_,?_,_,_,hl,rfl⟩
    · rw [hs]; exact site_disjoint ho le_rfl hr
    · rw [hl,hc,hs]
    · rw [hl]; exact hwf'
  · have hen : (alignUp cur.endAddr (powerOfTwo k) + size).toNat =
        roundUp (hi cur) (2 ^ k) + size.toNat := by
      rw [← ha] at hlt ⊢
      exact toNat_add_of_lt hlt
    have hl := insertAfter_at hs (alignUp cur.endAddr (powerOfTwo k))
      (alignUp cur.endAddr (powerOfTwo k) + size)
    obtain ⟨hwf',hc⟩ := insert_covered ⟨c.areaBuffer.taken,alignUp cur.endAddr _,
        alignUp cur.endAddr _ + size⟩ size ho
      (by rw [lo,ha]; exact hge) (by rw [lo,hi,ha,hen])
      (by rw [hi,hen]; exact hr)
    rw [placeArea_insert he]
    refine ⟨?_,?_,?_,_,_,hl,rfl⟩
    · rw [hs]
      exact site_disjoint ho (by rw [ha]; exact hge) (by rw [ha]; exact hr)
    · rw [hl,hc,hs]
    · rw [hl]; exact hwf'

lemma allocSite_aligned : 2 ^ k ∣ (c.placeArea pre.length cur (powerOfTwo k) size).1.toNat := by
  have ho := hwf
  rw [site.split] at ho
  have hoc := (ordered_append.mp ((wellFormed_iff _).mp ho)).2.1
  have ha := (room_of_alignFits hk hoc site.stops (site.fits.mp hfit)).1
  have hd : 2 ^ k ∣ (alignUp cur.endAddr (powerOfTwo k)).toNat := ha ▸ roundUp_dvd _ _
  by_cases he : alignUp cur.endAddr (powerOfTwo k) = cur.endAddr
  · rw [placeArea_extend he]
    rwa [he] at hd
  · rw [placeArea_insert he]
    exact hd

end

section
variable (hk : k < 64) (hwf : WellFormed c.allocatedArea) (hsize : 0 < size)
  (site : AllocSite (powerOfTwo k) size c.allocatedArea pre cur post fr)
  (hfit : AlignFits (powerOfTwo k) size c.allocatedArea)
include hk hwf hsize site hfit

lemma allocSite_merged {placed : PhysmemCtrl} (hp : Placed size c pre cur addr placed) :
    WellFormed (placed.mergeFraged fr).allocatedArea ∧
      covered (placed.mergeFraged fr).allocatedArea = covered placed.allocatedArea := by
  have ho := hwf
  rw [site.split] at ho
  have hoc := (ordered_append.mp ((wellFormed_iff _).mp ho)).2.1
  have hr := (room_of_alignFits hk hoc site.stops (site.fits.mp hfit)).2.2
  have hg := gap_of_room hsize (roundUp_ge (hi cur) (2 ^ k) (by positivity)) hr
  obtain ⟨cur',post',hl,hs⟩ := hp.site
  obtain ⟨pre'',cur'',hf,hm⟩ := mergeFraged_front hl (fraged_before site hg hs)
  have hwf' := hp.wellFormed
  rw [hl] at hwf'
  rw [hf,hl]
  exact hm.append hwf'

lemma allocSite_good : AllocGood (powerOfTwo k) size c
      (some (c.placeArea pre.length cur (powerOfTwo k) size).1)
      ((c.placeArea pre.length cur (powerOfTwo k) size).2.2.mergeFraged fr) := by
  have hp := allocSite_placed hk hwf site hfit
  obtain ⟨hwf',hc⟩ := allocSite_merged hk hwf hsize site hfit hp
  refine ⟨⟨_,rfl,?_,hp.disjoint,?_⟩,hwf'⟩
  · rw [powerOfTwo_toNat hk]
    exact allocSite_aligned hk hwf site hfit
  · rw [hc,hp.covered]

end

lemma alignUp_cases (hk : k < 64) :
    (alignUp cur.endAddr (powerOfTwo k)).toNat = roundUp (hi cur) (2 ^ k) ∨
      alignUp cur.endAddr (powerOfTwo k) = 0 ∧ 0 < hi cur := by
  rcases Nat.lt_or_ge (roundUp (hi cur) (2 ^ k)) (2 ^ 64) with h | h
  · exact .inl (alignUp_toNat hk h)
  · refine .inr ⟨alignUp_overflow hk h,?_⟩
    by_contra hz
    have hze : hi cur = 0 := by omega
    have hr : roundUp (hi cur) (2 ^ k) ≤ 0 := roundUp_le_of_dvd (by positivity) hze.le (dvd_zero _)
    omega

lemma mem_range_self (h : 0 < size) : addr.toNat ∈ range addr size := by
  have hp : 0 < size.toNat := by simpa [lt_def] using h
  exact ⟨le_rfl,by omega⟩

lemma extend_fits (hk : k < 64) (hwf : WellFormed c.allocatedArea) (hsize : 0 < size)
    (site : AllocSite (powerOfTwo k) size c.allocatedArea pre cur post fr)
    (he : alignUp cur.endAddr (powerOfTwo k) = cur.endAddr)
    (hgo : AllocGood (powerOfTwo k) size c (some cur.endAddr)
      ((c.setEnd pre.length (cur.endAddr + size)).mergeFraged fr)) :
    AlignFits (powerOfTwo k) size c.allocatedArea := by
  have ho := (wellFormed_iff _).mp hwf
  rw [site.split] at ho
  obtain ⟨_,hcp,hal⟩ := ordered_append.mp ho
  obtain ⟨hcu,hc,_⟩ := ordered_cons.mp hcp
  have hr : roundUp (hi cur) (2 ^ k) = hi cur := by
    rcases alignUp_cases hk with h | ⟨h,hp⟩
    · rw [← h,he]; rfl
    · rw [h] at he
      rw [hi,← he] at hp
      simp at hp
  rw [site.fits]
  rcases site.stops with rfl | ⟨next,rest,rfl,hg⟩
  · simp only [AlignFits,powerOfTwo_toNat hk,hr]
    by_contra hwrap
    obtain ⟨pre',cur',hf,hm⟩ := mergeFraged_front
      (setEnd_at site.split (cur.endAddr + size)) (fraged_before site (by simp) rfl)
    obtain ⟨addr,ha,_,_,hco⟩ := hgo.returned
    obtain rfl : cur.endAddr = addr := by simpa using ha
    have hin : hi cur ∈ covered (pre' ++ [cur']) := by
      rw [hf] at hco
      rw [hco]
      exact .inr (mem_range_self hsize)
    refine absurd (covered_lt (y := hi cur) ?_ hin) (lt_irrefl _)
    intro x hx
    obtain ⟨y,hy,hxy⟩ := hm.ends x hx
    rw [hxy]
    rcases mem_append.mp hy with hy | hy
    · exact (hal y hy cur (by simp)).trans hcu
    · rw [mem_singleton.mp hy]
      have hsz := size.isLt
      have hcl := hi_lt cur
      simp only [hi,toNat_add] at hwrap hcl ⊢
      omega
  · simp only [AlignFits,hg,if_true,powerOfTwo_toNat hk,hr]
    exact hc next (by simp)

lemma insert_lost {next : AllocatedArea} {rest : List AllocatedArea}
    (hs : c.allocatedArea = pre ++ cur :: next :: rest) (hsize : 0 < size)
    (had : Adjacent (pre ++ cur :: next :: rest) pre.length) :
    ¬ AllocGood align size c (some new)
      ((c.insertAfter pre.length new (new + size)).mergeFraged (some pre.length)) := by
  intro hg
  have hf := mergeFraged_at (insertAfter_at hs new (new + size))
  have hwf := (wellFormed_iff _).mp hg.wellFormed
  rw [hf] at hwf
  obtain ⟨_,hcp,_⟩ := ordered_append.mp hwf
  have hle : (new + size).toNat ≤ hi cur := by
    rw [← start_of_adjacent had]
    exact (ordered_cons.mp hcp).2.1 next (by simp)
  obtain ⟨addr,ha,_,hd,hc⟩ := hg.returned
  obtain rfl : new = addr := by simpa using ha
  have ho := Set.disjoint_left.mp hd (mem_range_self hsize)
  have hin : new.toNat ∈ covered c.allocatedArea ∪ range new size := .inr (mem_range_self hsize)
  rw [← hc,hf] at hin
  rw [hs] at ho
  unfold covered at hin ho
  rw [covered_append,covered_cons] at hin ho
  rcases hin with hin | hin | hin
  · exact ho (.inl hin)
  · exact ho (.inr (.inl ⟨hin.1,hin.2.trans_le hle⟩))
  · exact ho (.inr (.inr hin))

lemma insert_fraged
    (site : AllocSite (powerOfTwo k) size c.allocatedArea pre cur post fr) (hsize : 0 < size)
    (hg : AllocGood (powerOfTwo k) size c (some new)
      ((c.insertAfter pre.length new (new + size)).mergeFraged fr)) :
    ∀ f, fr = some f → f < pre.length ∧ Adjacent (pre ++ [cur]) f := by
  intro f hf
  obtain ⟨hp,ha⟩ := site.fraged f hf
  rw [site.split] at ha
  rcases hp with hlt | ⟨rfl,hne⟩
  · exact ⟨hlt,adjacent_front ha hlt rfl⟩
  · obtain ⟨next,rest,rfl⟩ := exists_cons_of_ne_nil hne
    subst hf
    exact absurd hg (insert_lost site.split hsize ha)

lemma insert_fits (hk : k < 64) (hsize : 0 < size)
    (site : AllocSite (powerOfTwo k) size c.allocatedArea pre cur post fr)
    (hgo : AllocGood (powerOfTwo k) size c (some (alignUp cur.endAddr (powerOfTwo k)))
      ((c.insertAfter pre.length (alignUp cur.endAddr (powerOfTwo k))
        (alignUp cur.endAddr (powerOfTwo k) + size)).mergeFraged fr)) :
    AlignFits (powerOfTwo k) size c.allocatedArea := by
  set new := alignUp cur.endAddr _ with hne
  obtain ⟨pre',cur',hf,hm⟩ := mergeFraged_front
    (insertAfter_at site.split new _) (insert_fraged site hsize hgo)
  have hwf' := (wellFormed_iff _).mp hgo.wellFormed
  rw [hf] at hwf'
  obtain ⟨_,hcp',_⟩ := ordered_append.mp hwf'
  obtain ⟨_,hcn,hn⟩ := ordered_cons.mp hcp'
  obtain ⟨hnn,hnp,_⟩ := ordered_cons.mp hn
  have hc : hi cur ≤ new.toNat := by
    have := hcn _ (mem_cons_self ..)
    rwa [hi,hm.endAddr] at this
  have hr : new.toNat = roundUp (hi cur) (2 ^ k) := by
    rcases alignUp_cases hk with h | ⟨h,_⟩
    · exact h
    · rw [hne,h] at hc
      simp at hc
      omega
  have hs : new.toNat + size.toNat < 2 ^ 64 := by
    have hle : new.toNat ≤ (new + size).toNat := hnn
    have hpo : 0 < size.toNat := by simpa [lt_def] using hsize
    have hsz := size.isLt
    have hnl := new.isLt
    rw [toNat_add] at hle
    omega
  rw [site.fits]
  rcases site.stops with rfl | ⟨next,rest,rfl,hg⟩
  · simpa only [AlignFits,powerOfTwo_toNat hk,← hr] using hs
  · simp only [AlignFits,hg,if_true,powerOfTwo_toNat hk,← hr]
    exact le_trans hnn (hnp next (by simp))

end

lemma PhysmemCtrl.allocSub_exact {k : ℕ} (hk : k < 64) (hwf : WellFormed c.allocatedArea)
    (h : c.allocSub top paddr size ⟨powerOfTwo k,nonRecursive⟩ = .ok (paddr',c')) :
    AllocGood (powerOfTwo k) size c paddr' c' ↔ AlignFits (powerOfTwo k) size c.allocatedArea := by
  obtain ⟨hsize,pre,cur,post,fr,site,rfl,rfl,_⟩ := allocSub_ok h
  constructor
  · intro hg
    by_cases he : alignUp cur.endAddr (powerOfTwo k) = cur.endAddr
    · rw [placeArea_extend he] at hg
      exact extend_fits hk hwf hsize site he hg
    · rw [placeArea_insert he] at hg
      exact insert_fits hk hsize site hg
  · exact allocSite_good hk hwf hsize site

theorem allocAligned_good_iff (physMemoryEnd : Word) (c c' : PhysmemCtrl)
    (paddr paddr' : PhysAddr) (size : Word) (k : ℕ) (hk : k < 64)
    (hwf : WellFormed c.allocatedArea)
    (h : c.allocAligned physMemoryEnd paddr size (powerOfTwo k) = .ok (paddr',c')) :
    AllocGood (powerOfTwo k) size c paddr' c' ↔ AlignFits (powerOfTwo k) size c.allocatedArea :=
  PhysmemCtrl.allocSub_exact hk hwf h

theorem allocAligned_good_boot :
    ∃ c', (bootCtrl [⟨0,0,0x600000⟩]).allocAligned 0x100000000 none 0x40000000 0x40000000 =
        .ok (some 0x40000000,c') ∧
      AllocGood 0x40000000 0x40000000 (bootCtrl [⟨0,0,0x600000⟩]) (some 0x40000000) c' := by
  refine ⟨_,rfl,?_⟩
  exact (allocAligned_good_iff 0x100000000 (bootCtrl [⟨0,0,0x600000⟩]) _ none
    (some 0x40000000) 0x40000000 30 (by decide) (by decide) rfl).mpr (by decide)

theorem allocAligned_overlap : WellFormed [⟨0,0,0x600000⟩,⟨1,0x700000,0x50000000⟩] ∧
    ∃ c', (bootCtrl [⟨0,0,0x600000⟩,⟨1,0x700000,0x50000000⟩]).allocAligned
        0x100000000 none 0x40000000 0x40000000 = .ok (some 0x40000000,c') ∧
      ¬ AllocGood 0x40000000 0x40000000
        (bootCtrl [⟨0,0,0x600000⟩,⟨1,0x700000,0x50000000⟩]) (some 0x40000000) c' := by
  refine ⟨by decide,_,rfl,?_⟩
  intro hg
  obtain ⟨addr,ha,_,hd,_⟩ := hg.returned
  obtain rfl : (0x40000000 : Word) = addr := by simpa using ha
  have hin : 0x40000000 ∈ range 0x40000000 0x40000000 := by simp [range]
  exact Set.disjoint_left.mp hd hin ⟨⟨1,0x700000,0x50000000⟩,by simp [bootCtrl],by simp [lo,hi]⟩

def stopArea (align size : Word) : List AllocatedArea → Option AllocatedArea
  | [] => none
  | [last] => some last
  | cur :: next :: rest =>
    if gapFits align size cur next then some cur else stopArea align size (next :: rest)

lemma stopArea_exists (align size : Word) : ∀ {l : List AllocatedArea}, l ≠ [] →
    ∃ cur, stopArea align size l = some cur := by
  intro l
  induction l with
  | nil => exact absurd rfl
  | cons cur l ih =>
    intro _
    cases l with
    | nil => exact ⟨cur,rfl⟩
    | cons next rest =>
      by_cases hf : gapFits align size cur next = true
      · exact ⟨cur,by simp [stopArea,hf]⟩
      · obtain ⟨found,hfo⟩ := ih (by simp)
        exact ⟨found,by simpa [stopArea,hf] using hfo⟩

lemma allocLoop_stop (align size : Word) : ∀ l done fr,
    (done ++ l)[(allocLoop align size l done.length fr).1]? = stopArea align size l := by
  intro l
  induction l with
  | nil =>
    intro done fr
    simp [allocLoop,stopArea]
  | cons cur l ih =>
    intro done fr
    cases l with
    | nil => simp [allocLoop,stopArea]
    | cons next rest =>
      by_cases hf : gapFits align size cur next = true
      · simp [allocLoop,stopArea,hf]
      · have hr := ih (done ++ [cur]) (notFraged fr done.length cur next)
        simpa [allocLoop,stopArea,hf] using hr

def EndBounded (physMemoryEnd align size : Word) (cur : AllocatedArea) : Prop :=
  if alignUp cur.endAddr align = cur.endAddr then
    hi cur + size.toNat < 2 ^ 64 ∨ physMemoryEnd ≤ cur.endAddr + size
  else physMemoryEnd ≤ cur.endAddr ∨
    (alignUp cur.endAddr align).toNat + size.toNat ≤ physMemoryEnd.toNat

structure Callable (c : PhysmemCtrl) (size : Word) (option : AllocOption) : Prop where
  initialized : c.isInitialized = true
  positive : 0 < size
  paged : size % kPageSize = 0
  recursive : option.nonRecursive = true → option.align = 1
  aligned : 0 < option.align

section
variable {top size : Word} {c : PhysmemCtrl} {option : AllocOption} {cur : AllocatedArea}

lemma PhysmemCtrl.allocSub_checked (top : Word) (hc : Callable c size option)
    (hs : stopArea option.align size c.allocatedArea = some cur) :
    ∃ i c', c.allocSub top none size option =
      if top ≤ (c.placeArea i cur option.align size).2.1.endAddr then
        kernelPanic "PhysmemCtrl" "no physical memory"
      else .ok (some (c.placeArea i cur option.align size).1,c') := by
  have hr : (!option.nonRecursive || option.align == 1) = true := by
    cases hnr : option.nonRecursive with
    | false => rfl
    | true => simp [hc.recursive hnr]
  have hf := allocLoop_stop option.align size c.allocatedArea [] none
  rw [hs,nil_append,length_nil] at hf
  cases hl : allocLoop option.align size c.allocatedArea 0 none with
  | mk i fr =>
  rw [hl] at hf
  refine ⟨i,(c.placeArea i cur option.align size).2.2.mergeFraged fr,?_⟩
  unfold allocSub
  simp only [hc.initialized,hc.positive,hc.paged,hr,decide_true,beq_self_eq_true,
    kassert,if_true,bind,Except.bind,hl,hf]
  rfl

lemma placeArea_bounded (i : ℕ) :
    (top ≤ (c.placeArea i cur option.align size).2.1.endAddr ∨
      (c.placeArea i cur option.align size).1.toNat + size.toNat ≤ top.toNat) ↔
    EndBounded top option.align size cur := by
  have hm := top.isLt
  unfold EndBounded
  by_cases ha : alignUp cur.endAddr option.align = cur.endAddr
  · rw [placeArea_extend ha,if_pos ha]
    constructor
    · rintro (hp | hb)
      · exact .inr hp
      · exact .inl (hb.trans_lt hm)
    · rintro (hlt | hp)
      · rcases Nat.lt_or_ge (cur.endAddr + size).toNat top.toNat with he | he
        · rw [toNat_add_of_lt hlt] at he
          exact .inr he.le
        · exact .inl he
      · exact .inl hp
  · rw [placeArea_insert ha,if_neg ha]

theorem allocSub_bounded_iff (physMemoryEnd : Word) (hcall : Callable c size option)
    (hne : c.allocatedArea ≠ []) :
    (c.allocSub physMemoryEnd none size option = kernelPanic "PhysmemCtrl" "no physical memory" ∨
      ∃ addr c', c.allocSub physMemoryEnd none size option = .ok (some addr,c') ∧
        addr.toNat + size.toNat ≤ physMemoryEnd.toNat) ↔
    ∀ cur, stopArea option.align size c.allocatedArea = some cur →
      EndBounded physMemoryEnd option.align size cur := by
  obtain ⟨cur,hs⟩ := stopArea_exists option.align size hne
  obtain ⟨i,c',hr⟩ := PhysmemCtrl.allocSub_checked physMemoryEnd hcall hs
  have hso : (∀ cur', stopArea option.align size c.allocatedArea = some cur' →
      EndBounded physMemoryEnd option.align size cur') ↔
      EndBounded physMemoryEnd option.align size cur := by
    simp [hs]
  rw [hso,← placeArea_bounded (c := c) i,hr]
  by_cases hp : physMemoryEnd ≤ (c.placeArea i cur option.align size).2.1.endAddr
  · rw [if_pos hp]
    exact iff_of_true (.inl rfl) (.inl hp)
  · rw [if_neg hp]
    constructor
    · rintro (he | ⟨addr,c'',hok,hb⟩)
      · cases he
      · obtain ⟨ha,_⟩ := Prod.mk.inj (Except.ok.inj hok)
        rw [Option.some.inj ha]
        exact .inr hb
    · rintro (hle | hb)
      · exact absurd hle hp
      · exact .inr ⟨_,c',rfl,hb⟩

theorem allocSub_bounded_boot :
    ((bootCtrl [⟨0,0,0x600000⟩]).allocSub 0x100000000 none 0x200000 ⟨0x200000,false⟩ =
        kernelPanic "PhysmemCtrl" "no physical memory" ∨
      ∃ addr c', (bootCtrl [⟨0,0,0x600000⟩]).allocSub 0x100000000 none 0x200000 ⟨0x200000,false⟩ =
          .ok (some addr,c') ∧ addr.toNat + 0x200000 ≤ 0x100000000) ↔
    ∀ cur, stopArea 0x200000 0x200000 [⟨0,0,0x600000⟩] = some cur →
      EndBounded 0x100000000 0x200000 0x200000 cur :=
  allocSub_bounded_iff (c := bootCtrl [⟨0,0,0x600000⟩]) 0x100000000
    ⟨rfl,by decide,rfl,nofun,by decide⟩ (by decide)

theorem allocAligned_past_end : WellFormed [⟨0,0,0x601000⟩] ∧
    ∃ c', (bootCtrl [⟨0,0,0x601000⟩]).allocAligned 0x700000 none 0x200000 0x200000 =
        .ok (some 0x800000,c') ∧ ¬ 0x800000 + 0x200000 ≤ (0x700000 : Word).toNat ∧
      ⟨1,0x800000,0xa00000⟩ ∈ c'.allocatedArea :=
  ⟨by decide,_,rfl,by decide,by decide⟩

end

end Physmem
