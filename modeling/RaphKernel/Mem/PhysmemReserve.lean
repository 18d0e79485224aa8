import RaphKernel.Mem.AreaList

namespace Physmem
open Raph List Intervals PhysmemCtrl Loop
variable {areas l post : List AllocatedArea} {fr : Option ℕ}
  {a cur' cur next b : AllocatedArea} {c : PhysmemCtrl} {addr size addr' size' : Word}

def PairClear (addr size : Word) (cur next : AllocatedArea) : Prop :=
  addr.toNat ≤ lo next → lo next < addr.toNat + size.toNat →
    (hi cur ≤ addr.toNat ∨ lo cur = hi cur) ∧ addr.toNat < lo next ∧ lo cur < lo next ∧
      kPageSize.toNat ∣ lo next

def ReserveClear (addr size : Word) : List AllocatedArea → Prop
  | cur :: next :: rest => PairClear addr size cur next ∧ ReserveClear addr size (next :: rest)
  | _ => True

instance (addr size : Word) (cur next : AllocatedArea) : Decidable (PairClear addr size cur next) :=
  inferInstanceAs (Decidable (_ → _ → _ ∧ _))

instance reserveClearDecidable (addr size : Word) :
    (areas : List AllocatedArea) → Decidable (ReserveClear addr size areas)
  | [] => .isTrue trivial
  | [_] => .isTrue trivial
  | cur :: next :: rest =>
    have := reserveClearDecidable addr size (next :: rest)
    inferInstanceAs (Decidable (PairClear addr size cur next ∧ ReserveClear addr size (next :: rest)))

structure Reservable (c : PhysmemCtrl) (addr size : Word) : Prop where
  wellFormed : WellFormed c.allocatedArea
  first : ∃ a rest, c.allocatedArea = a :: rest ∧ lo a = 0
  noWrap : addr.toNat + size.toNat < 2 ^ 64
  sizeAligned : size % kPageSize = 0
  addrAligned : addr % kPageSize = 0

structure Reached (addr : Word) (areas pre : List AllocatedArea) (cur next : AllocatedArea)
    (rest : List AllocatedArea) (fraged : Option ℕ) : Prop where
  split : areas = pre ++ cur :: next :: rest
  start : lo cur ≤ addr.toNat
  before : pre = [] ∨ lo cur < addr.toNat
  fraged : ∀ f, fraged = some f → f ≤ pre.length ∧ Adjacent areas f

inductive ReserveCase (c : PhysmemCtrl) (addr size : Word) (pre : List AllocatedArea)
    (cur next : AllocatedArea) (rest : List AllocatedArea) (fraged : Option ℕ) : ReserveExit → Prop
  | within : addr < cur.endAddr → addr + size < cur.endAddr →
      ReserveCase c addr size pre cur next rest fraged (.leave c fraged)
  | grow : addr < cur.endAddr → cur.endAddr ≤ addr + size → addr + size ≤ next.startAddr →
      ReserveCase c addr size pre cur next rest fraged
        (.leave (c.setEnd pre.length (addr + size)) fraged)
  | growInto : addr < cur.endAddr → next.startAddr < addr + size →
      ReserveCase c addr size pre cur next rest fraged
        (.recur (c.setEnd pre.length next.startAddr) next.startAddr
          (addr + size - next.startAddr))
  | insert : cur.endAddr ≤ addr → addr + size ≤ next.startAddr →
      ReserveCase c addr size pre cur next rest fraged
        (.leave (c.insertAfter pre.length addr (addr + size)) fraged)
  | pull : cur.endAddr ≤ addr → addr ≤ next.startAddr → next.startAddr < addr + size →
      ReserveCase c addr size pre cur next rest fraged
        (.recur (c.setStart (pre.length + 1) addr) next.startAddr
          (addr + size - next.startAddr))
  | last : next.startAddr < addr → rest = [] →
      ReserveCase c addr size pre cur next rest fraged
        (.leave (c.reserveSub2 (pre.length + 1) next addr size) fraged)

lemma reserveLoop_here {done rest : List AllocatedArea} (hs : cur.startAddr ≤ addr)
    (h : ¬ (cur.endAddr ≤ addr ∧ next.startAddr < addr ∧ rest ≠ [])) :
    ReserveCase c addr size done cur next rest (notFraged fr done.length cur next)
      (reserveLoop c addr size (cur :: next :: rest) done.length fr) := by
  simp only [reserveLoop,hs,not_true_eq_false,if_false]
  by_cases hin : addr < cur.endAddr
  · simp only [hin,if_true]
    split
    · exact .within hin ‹_›
    · split
      · exact .grow hin (BitVec.not_lt.mp ‹_›) ‹_›
      · exact .growInto hin (BitVec.not_le.mp ‹_›)
  · have he := BitVec.not_lt.mp hin
    simp only [hin,if_false]
    by_cases hn : addr ≤ next.startAddr
    · simp only [hn,if_true]
      split
      · exact .insert he ‹_›
      · exact .pull he hn (BitVec.not_le.mp ‹_›)
    · have hlt := BitVec.not_le.mp hn
      have hre : rest = [] := by
        by_contra hne
        exact h ⟨he,hlt,hne⟩
      subst hre
      simp only [hn,if_false,isEmpty_nil,if_true]
      exact .last hlt rfl

lemma reserveLoop_next
    {third : AllocatedArea} {i : ℕ} (hs : cur.startAddr ≤ addr)
    (he : cur.endAddr ≤ addr) (hn : next.startAddr < addr) :
    reserveLoop c addr size (cur :: next :: third :: l) i fr =
      reserveLoop c addr size (next :: third :: l) (i + 1) (notFraged fr i cur next) := by
  rw [reserveLoop]
  simp [hs,BitVec.not_lt.mpr he,BitVec.not_le.mpr hn]

lemma reserveLoop_cases (c : PhysmemCtrl) (addr size : Word) (l : List AllocatedArea) :
    ∀ done cur next fr,
      lo cur ≤ addr.toNat → (done = [] ∨ lo cur < addr.toNat) →
      (∀ f, fr = some f → f < done.length ∧ Adjacent (done ++ cur :: next :: l) f) →
      ∃ pre cur' next' rest fraged',
        Reached addr (done ++ cur :: next :: l) pre cur' next' rest fraged' ∧
        ReserveCase c addr size pre cur' next' rest fraged'
          (reserveLoop c addr size (cur :: next :: l) done.length fr) := by
  have hne (l done : List AllocatedArea) (cur next : AllocatedArea) (fr : Option ℕ)
      (hf : ∀ f, fr = some f → f < done.length ∧ Adjacent (done ++ cur :: next :: l) f) :
      ∀ f, notFraged fr done.length cur next = some f →
        f ≤ done.length ∧ Adjacent (done ++ cur :: next :: l) f := by
    intro f h
    rcases notFraged_cases h with ho | ⟨rfl,ha⟩
    · exact ⟨(hf f ho).1.le,(hf f ho).2⟩
    · exact ⟨le_rfl,adjacent_at ha⟩
  induction l with
  | nil =>
    intro done cur next fr hs hb hf
    exact ⟨done,cur,next,[],_,⟨rfl,hs,hb,hne _ _ _ _ _ hf⟩,reserveLoop_here hs (by simp)⟩
  | cons third l ih =>
    intro done cur next fr hs hb hf
    by_cases hgo : cur.endAddr ≤ addr ∧ next.startAddr < addr
    · obtain ⟨he,hn⟩ := hgo
      have hre := ih (done ++ [cur]) next third (notFraged fr done.length cur next)
        hn.le (.inr hn) (by
          intro f h
          obtain ⟨_,ha⟩ := hne _ _ _ _ _ hf f h
          exact ⟨by simp; omega,by simpa using ha⟩)
      rw [reserveLoop_next hs he hn]
      simpa using hre
    · exact ⟨done,cur,next,third :: l,_,⟨rfl,hs,hb,hne _ _ _ _ _ hf⟩,
        reserveLoop_here hs (fun h => hgo ⟨h.1,h.2.1⟩)⟩

section
variable {addr size : Word} {pre rest : List AllocatedArea} {cur next : AllocatedArea}

lemma reserveClear_of_tail
    (h : ∀ b ∈ areas.tail, lo b < addr.toNat ∨ addr.toNat + size.toNat ≤ lo b) :
    ReserveClear addr size areas := by
  induction areas with
  | nil => trivial
  | cons a l ih =>
    cases l with
    | nil => trivial
    | cons b l =>
      refine ⟨?_,ih fun x hx => h x (mem_cons_of_mem _ hx)⟩
      intro _ _
      rcases h b (by simp) with hb | _ <;> omega

lemma reserveClear_append : ReserveClear addr size (pre ++ cur :: l) ↔
      ReserveClear addr size (pre ++ [cur]) ∧ ReserveClear addr size (cur :: l) := by
  induction pre with
  | nil => simp [ReserveClear]
  | cons a pre ih =>
    cases pre with
    | nil => simp [ReserveClear]
    | cons b pre => simpa [ReserveClear,and_assoc] using fun _ => ih

lemma reached_tail (hr : Reached addr areas pre cur next rest fr) (hwf : WellFormed areas) :
    ∀ b ∈ (pre ++ [cur]).tail, lo b < addr.toNat := by
  intro b hb
  have ho := (wellFormed_iff _).mp hwf
  rw [hr.split] at ho
  obtain ⟨hp,_,ha⟩ := ordered_append.mp ho
  rcases hr.before with rfl | hlt
  · simp at hb
  · rcases mem_append.mp (mem_of_mem_tail hb) with hb | hb
    · have h1 := hp.1 b hb
      have h2 := ha b hb cur (by simp)
      omega
    · rw [mem_singleton.mp hb]
      exact hlt

lemma reserveClear_of_reached
    (hr : Reached addr areas pre cur next rest fr) (hwf : WellFormed areas)
    (h : ∀ b ∈ next :: rest, lo b < addr.toNat ∨ addr.toNat + size.toNat ≤ lo b) :
    ReserveClear addr size areas := by
  rw [hr.split]
  apply reserveClear_of_tail
  intro b hb
  have hs : (pre ++ cur :: next :: rest).tail = (pre ++ [cur]).tail ++ (next :: rest) := by
    cases pre <;> simp
  rw [hs] at hb
  rcases mem_append.mp hb with hb | hb
  · exact .inl (reached_tail hr hwf b hb)
  · exact h b hb

lemma next_le (hwf : WellFormed (pre ++ cur :: next :: rest)) : ∀ b ∈ next :: rest, lo next ≤ lo b := by
  intro b hb
  obtain ⟨_,hc,_⟩ := ordered_append.mp ((wellFormed_iff _).mp hwf)
  obtain ⟨_,_,hn⟩ := ordered_cons.mp hc
  obtain ⟨hnn,hnr,_⟩ := ordered_cons.mp hn
  rcases mem_cons.mp hb with rfl | hb
  · exact le_rfl
  · exact hnn.trans (hnr b hb)

lemma covered_of_subset (ha : a ∈ areas)
    (hlo : lo a ≤ addr.toNat) (hhi : addr.toNat + size.toNat ≤ hi a) :
    covered areas = covered areas ∪ range addr size := by
  refine (Set.union_eq_self_of_subset_right ?_).symm
  rintro x ⟨_,_⟩
  exact ⟨a,ha,by omega,by omega⟩

lemma reserveSub2_covered (hs : c.allocatedArea = pre ++ [cur])
    (hwf : WellFormed c.allocatedArea) (hlo : lo cur ≤ addr.toNat)
    (hsu : (addr + size).toNat = addr.toNat + size.toNat) :
    (∃ cur' post, (c.reserveSub2 pre.length cur addr size).allocatedArea = pre ++ cur' :: post ∧
      cur'.startAddr = cur.startAddr) ∧
    WellFormed (c.reserveSub2 pre.length cur addr size).allocatedArea ∧
    covered (c.reserveSub2 pre.length cur addr size).allocatedArea =
      covered c.allocatedArea ∪ range addr size := by
  have ho := hwf
  rw [hs] at ho
  unfold reserveSub2
  split
  · rename_i hin
    have hin' : addr.toNat < hi cur := hin
    split
    · rename_i he
      have he' : hi cur < addr.toNat + size.toNat := hsu ▸ he
      have hl := setEnd_at hs (addr + size)
      rw [hl,hs]
      exact ⟨⟨_,_,rfl,rfl⟩,extend_covered ho hlo hin'.le he'.le hsu (by simp)⟩
    · rename_i he
      have he' : addr.toNat + size.toNat ≤ hi cur := by
        have := BitVec.not_lt.mp he
        rw [BitVec.le_def,hsu] at this
        exact this
      exact ⟨⟨cur,[],hs,rfl⟩,hwf,covered_of_subset (by simp [hs]) hlo he'⟩
  · rename_i hin
    have hin' := BitVec.not_lt.mp hin
    have hl := insertAfter_at hs addr (addr + size)
    rw [hl,hs]
    exact ⟨⟨_,_,rfl,rfl⟩,insert_covered ⟨c.areaBuffer.taken,addr,addr + size⟩ size ho hin' hsu (by simp)⟩

variable {c' : PhysmemCtrl} {fraged' : Option ℕ}

lemma Reservable.sum_toNat (h : Reservable c addr size) :
    (addr + size).toNat = addr.toNat + size.toNat := BitVec.toNat_add_of_lt h.noWrap

structure LeaveGood (c : PhysmemCtrl) (addr size : Word) (c' : PhysmemCtrl)
    (fraged : Option ℕ) : Prop where
  clear : ReserveClear addr size c.allocatedArea
  wellFormed : WellFormed c'.allocatedArea
  covered : covered c'.allocatedArea = covered c.allocatedArea ∪ range addr size
  adjacent : ∀ f, fraged = some f → Adjacent c'.allocatedArea f

section
variable (hr : Reached addr c.allocatedArea pre cur next rest fr)
include hr

lemma Reached.wellFormed (hres : Reservable c addr size) :
    WellFormed (pre ++ cur :: next :: rest) :=
  hr.split ▸ hres.wellFormed

lemma Reached.end_le_start (hres : Reservable c addr size) : hi cur ≤ lo next := by
  obtain ⟨_,hcn,_⟩ := ordered_append.mp ((wellFormed_iff _).mp (hr.wellFormed hres))
  exact (ordered_cons.mp hcn).2.1 next (by simp)

lemma Reached.fraged_cases {f : ℕ} (h : fr = some f) :
    (f < pre.length ∧ Adjacent (pre ++ cur :: next :: rest) f) ∨
      f = pre.length ∧ lo next = hi cur := by
  obtain ⟨_,ha⟩ := hr.fraged f h
  rw [hr.split] at ha
  rcases Nat.lt_or_ge f pre.length with hlt | _
  · exact .inl ⟨hlt,ha⟩
  · obtain rfl : f = pre.length := by omega
    exact .inr ⟨rfl,start_of_adjacent ha⟩

end

section
variable (hres : Reservable c addr size)
  (hr : Reached addr c.allocatedArea pre cur next rest fr)
include hres hr

lemma leave_within (he : addr.toNat + size.toNat < hi cur) : LeaveGood c addr size c fr := by
  have hle := next_le (hr.wellFormed hres)
  have hn := hr.end_le_start hres
  refine ⟨reserveClear_of_reached hr hres.wellFormed fun b hb => .inr ?_,hres.wellFormed,?_,
    fun f h => (hr.fraged f h).2⟩
  · have := hle b hb
    omega
  · exact covered_of_subset (by simp [hr.split]) hr.start he.le

lemma leave_edit {c' : PhysmemCtrl} (hro : ∀ b ∈ next :: rest, addr.toNat + size.toNat ≤ lo b)
    (hli : c'.allocatedArea = pre ++ cur' :: post) (hs : cur'.startAddr = cur.startAddr)
    (he : WellFormed (pre ++ cur' :: post) ∧ covered (pre ++ cur' :: post) = covered (pre ++ cur :: next :: rest) ∪ range addr size)
    (hla : lo next = hi cur → Adjacent (pre ++ cur' :: post) pre.length) :
    LeaveGood c addr size c' fr := by
  refine ⟨reserveClear_of_reached hr hres.wellFormed fun b hb => .inr (hro b hb),?_,?_,?_⟩
  · rw [hli]
    exact he.1
  · rw [hli,he.2,hr.split]
  · intro f h
    rw [hli]
    rcases hr.fraged_cases h with ⟨hlt,ha⟩ | ⟨rfl,hl⟩
    · exact adjacent_front ha hlt hs
    · exact hla hl

lemma leave_grow (hin : addr.toNat < hi cur) (he : hi cur ≤ addr.toNat + size.toNat)
    (hro : addr.toNat + size.toNat ≤ lo next) :
    LeaveGood c addr size (c.setEnd pre.length (addr + size)) fr := by
  have hs := hres.sum_toNat
  have hro' : ∀ b ∈ next :: rest, addr.toNat + size.toNat ≤ lo b :=
    fun b hb => hro.trans (next_le (hr.wellFormed hres) b hb)
  refine leave_edit hres hr hro' (setEnd_at hr.split (addr + size)) rfl
    (extend_covered (hr.wellFormed hres) hr.start hin.le he hs hro') fun hl => ?_
  refine adjacent_at (BitVec.eq_of_toNat_eq ?_)
  show lo next = (addr + size).toNat
  omega

end

lemma leave_insert (hres : Reservable c addr size) (hs : 0 < size)
    (hr : Reached addr c.allocatedArea pre cur next rest fr) (hin : hi cur ≤ addr.toNat)
    (hro : addr.toNat + size.toNat ≤ lo next) :
    LeaveGood c addr size (c.insertAfter pre.length addr (addr + size)) fr := by
  have hsu := hres.sum_toNat
  have hro' : ∀ b ∈ next :: rest, addr.toNat + size.toNat ≤ lo b :=
    fun b hb => hro.trans (next_le (hr.wellFormed hres) b hb)
  refine leave_edit hres hr hro' (insertAfter_at hr.split addr (addr + size)) rfl
    (insert_covered ⟨c.areaBuffer.taken,addr,addr + size⟩ size (hr.wellFormed hres) hin hsu
      (fun b hb => by rw [hi,hsu]; exact hro' b hb)) fun hl => ?_
  have hp : 0 < size.toNat := by simpa [BitVec.lt_def] using hs
  omega

lemma leave_last (hres : Reservable c addr size)
    (hr : Reached addr c.allocatedArea pre cur next [] fr) (hlt : lo next < addr.toNat) :
    LeaveGood c addr size (c.reserveSub2 (pre.length + 1) next addr size) fr := by
  have hs : c.allocatedArea = (pre ++ [cur]) ++ [next] := by simp [hr.split]
  have hle : pre.length + 1 = (pre ++ [cur]).length := by simp
  rw [hle]
  obtain ⟨⟨next',post,hl,hst⟩,hwf',hc⟩ :=
    reserveSub2_covered hs hres.wellFormed hlt.le hres.sum_toNat
  refine ⟨reserveClear_of_reached hr hres.wellFormed fun b hb => .inl ?_,hwf',hc,?_⟩
  · rw [mem_singleton.mp hb]; exact hlt
  · intro f h
    obtain ⟨_,ha⟩ := hr.fraged f h
    rw [hs] at ha
    rw [hl]
    exact adjacent_front ha (by simp; omega) hst

lemma reserveCase_leave (hres : Reservable c addr size) (hs : 0 < size)
    (hr : Reached addr c.allocatedArea pre cur next rest fr)
    (hc : ReserveCase c addr size pre cur next rest fr (.leave c' fraged')) :
    LeaveGood c addr size c' fraged' := by
  have hsu := hres.sum_toNat
  generalize he : ReserveExit.leave c' fraged' = exit at hc
  cases hc with
  | within hin hen =>
    cases he
    exact leave_within hres hr (hsu ▸ hen)
  | grow hin hen hro =>
    cases he
    exact leave_grow hres hr hin (hsu ▸ hen) (hsu ▸ hro)
  | growInto => cases he
  | pull => cases he
  | insert hin hro =>
    cases he
    exact leave_insert hres hs hr hin (hsu ▸ hro)
  | last hlt hn =>
    cases he
    subst hn
    exact leave_last hres hr hlt

section
variable (hr : Reached addr c.allocatedArea pre cur next rest fr)
include hr

lemma Reached.first_kept (hres : Reservable c addr size)
    (hl : c'.allocatedArea = pre ++ cur' :: post) (hs : cur'.startAddr = cur.startAddr) :
    ∃ a l, c'.allocatedArea = a :: l ∧ lo a = 0 := by
  obtain ⟨a,l,hal,hz⟩ := hres.first
  have hsp := hr.split
  rw [hal] at hsp
  cases pre with
  | nil =>
    obtain ⟨rfl,_⟩ := List.cons.inj hsp
    exact ⟨cur',post,hl,by rw [lo,hs]; exact hz⟩
  | cons b pre =>
    obtain ⟨rfl,_⟩ := List.cons.inj hsp
    exact ⟨a,pre ++ cur' :: post,hl,hz⟩

lemma growInto_wellFormed (hwf : WellFormed c.allocatedArea) :
    WellFormed (pre ++ { cur with endAddr := next.startAddr } :: next :: rest) := by
  have ho := (wellFormed_iff _).mp hwf
  rw [hr.split] at ho
  rw [wellFormed_iff]
  obtain ⟨hp,hcn,hal⟩ := ordered_append.mp ho
  obtain ⟨hcu,hc,hn⟩ := ordered_cons.mp hcn
  refine ordered_append.mpr ⟨hp,ordered_cons.mpr ⟨?_,?_,hn⟩,?_⟩
  · exact hcu.trans (hc next (by simp))
  · exact next_le ((wellFormed_iff _).mpr ho)
  · intro a ha b hb
    rcases mem_cons.mp hb with rfl | hb
    · exact hal a ha cur (by simp)
    · exact hal a ha b (by simp [hb])

lemma pull_covered (hwf : WellFormed c.allocatedArea) (he : hi cur ≤ addr.toNat)
    (hle : addr.toNat ≤ lo next) :
    WellFormed (pre ++ cur :: { next with startAddr := addr } :: rest) ∧
      covered (pre ++ cur :: { next with startAddr := addr } :: rest) =
        covered c.allocatedArea ∪ Set.Ico addr.toNat (lo next) := by
  have ho := (wellFormed_iff _).mp hwf
  rw [hr.split] at ho ⊢
  rw [wellFormed_iff]
  obtain ⟨hp,hcn,hal⟩ := ordered_append.mp ho
  obtain ⟨hcu,hc,hn⟩ := ordered_cons.mp hcn
  obtain ⟨hnn,hnr,hre⟩ := ordered_cons.mp hn
  constructor
  · refine ordered_append.mpr ⟨hp,ordered_cons.mpr ⟨hcu,?_,
      ordered_cons.mpr ⟨hle.trans hnn,hnr,hre⟩⟩,?_⟩
    · intro b hb
      rcases mem_cons.mp hb with rfl | hb
      · exact he
      · exact hc b (by simp [hb])
    · intro a ha b hb
      have hac := hal a ha cur (by simp)
      rcases mem_cons.mp hb with rfl | hb
      · exact hac
      · rcases mem_cons.mp hb with rfl | hb
        · exact hac.trans (hcu.trans he)
        · exact hal a ha b (by simp [hb])
  · have hu : Set.Ico addr.toNat (hi next) = Set.Ico addr.toNat (lo next) ∪ Set.Ico (lo next) (hi next) :=
      (Set.Ico_union_Ico_eq_Ico hle hnn).symm
    have hne : Set.Ico (lo { next with startAddr := addr }) (hi { next with startAddr := addr }) =
        Set.Ico addr.toNat (hi next) := rfl
    unfold covered
    rw [covered_append,covered_append,covered_cons,covered_cons,covered_cons,covered_cons,hne,hu]
    simp only [Set.union_assoc,Set.union_comm (Set.Ico addr.toNat (lo next))]

end

section
variable (hlt : addr.toNat < addr'.toNat)
  (hsame : addr'.toNat + size'.toNat = addr.toNat + size.toNat)
include hlt hsame

lemma pairClear_shift (ha : addr'.toNat ≤ lo a) (haa : lo a ≤ hi a) (hab : hi a ≤ lo b) :
    PairClear addr size a b ↔ PairClear addr' size' a b := by
  constructor
  · intro h h1 h2
    obtain ⟨h3,h4,h5,h6⟩ := h (by omega) (by omega)
    exact ⟨by omega,by omega,h5,h6⟩
  · intro h _ _
    obtain ⟨_,_,h5,h6⟩ := h (by omega) (by omega)
    exact ⟨by omega,by omega,h5,h6⟩

lemma reserveClear_shift (ho : Intervals.Ordered lo hi areas)
    (hge : ∀ a ∈ areas, addr'.toNat ≤ lo a) :
    ReserveClear addr size areas ↔ ReserveClear addr' size' areas := by
  induction areas with
  | nil => exact Iff.rfl
  | cons a l ih =>
    cases l with
    | nil => exact Iff.rfl
    | cons b l =>
      obtain ⟨haa,hab,hl⟩ := ordered_cons.mp ho
      exact and_congr (pairClear_shift hlt hsame (hge a (by simp)) haa (hab b (by simp)))
        (ih hl fun x hx => hge x (mem_cons_of_mem _ hx))

end

lemma pull_clear (size' : Word) (hr : Reached addr c.allocatedArea pre cur next rest fr)
    (hwf : WellFormed c.allocatedArea) (he : hi cur ≤ addr.toNat) (hlt : addr.toNat < lo next)
    (hin : lo next < addr.toNat + size.toNat)
    (hsame : lo next + size'.toNat = addr.toNat + size.toNat) :
    ReserveClear addr size c.allocatedArea ↔ kPageSize.toNat ∣ lo next ∧
      ReserveClear next.startAddr size' (pre ++ cur :: { next with startAddr := addr } :: rest) := by
  have hpr := reached_tail hr hwf
  have ho := (wellFormed_iff _).mp hwf
  rw [hr.split] at ho ⊢
  obtain ⟨_,hcn,_⟩ := ordered_append.mp ho
  obtain ⟨_,_,hn⟩ := ordered_cons.mp hcn
  obtain ⟨hnn,hnr,hre⟩ := ordered_cons.mp hn
  have hp1 : ReserveClear addr size (pre ++ [cur]) :=
    reserveClear_of_tail fun b hb => .inl (hpr b hb)
  have hp2 : ReserveClear next.startAddr size' (pre ++ [cur]) :=
    reserveClear_of_tail fun b hb => .inl ((hpr b hb).trans hlt)
  have hp : PairClear addr size cur next ↔ kPageSize.toNat ∣ lo next :=
    ⟨fun h => (h hlt.le hin).2.2.2,fun h _ _ => ⟨.inl he,hlt,by omega,h⟩⟩
  have hp' : PairClear next.startAddr size' cur { next with startAddr := addr } := by
    intro h _
    exact absurd hlt (not_lt.mpr h)
  rw [reserveClear_append (l := next :: rest),
    reserveClear_append (l := { next with startAddr := addr } :: rest)]
  have ha : ReserveClear addr size (next :: rest) ↔
      ReserveClear next.startAddr size' ({ next with startAddr := addr } :: rest) := by
    cases rest with
    | nil => exact Iff.rfl
    | cons third rest =>
      have ht := hnr third (by simp)
      refine and_congr ?_ (reserveClear_shift hlt hsame hre fun x hx => hnn.trans (hnr x hx))
      have hlo : lo { next with startAddr := addr } = addr.toNat := rfl
      have hhi : hi { next with startAddr := addr } = hi next := rfl
      have hs : next.startAddr.toNat = lo next := rfl
      unfold PairClear
      rw [hlo,hhi,hs]
      constructor
      · intro h h1 h2
        obtain ⟨h3,h4,h5,h6⟩ := h (by omega) (by omega)
        exact ⟨by omega,by omega,by omega,h6⟩
      · intro h _ _
        obtain ⟨_,_,_,h6⟩ := h (by omega) (by omega)
        exact ⟨by omega,by omega,by omega,h6⟩
  simp only [ReserveClear,hp1,hp2,hp,hp',ha,true_and]

lemma page_dvd_iff {w : Word} : w % kPageSize = 0 ↔ kPageSize.toNat ∣ w.toNat := by
  rw [Nat.dvd_iff_mod_eq_zero,← BitVec.toNat_umod]
  constructor
  · intro h
    rw [h]
    rfl
  · intro h
    exact BitVec.eq_of_toNat_eq h

lemma reserveCall_unaligned {a : Word} (h : ¬ a % kPageSize = 0) (hs : size ≠ 0) :
    c.reserveCall a size = .inr (.error .kassert) := by
  rw [reserveCall,if_neg hs,if_pos h]
  exact ite_self _

lemma reserveCall_single (hres : Reservable c addr size) (hs : size ≠ 0)
    (hl : c.allocatedArea = [a]) :
    c.reserveCall addr size = .inr (.ok (c.reserveSub2 0 a addr size)) := by
  rw [reserveCall,if_neg hs,if_neg (not_not.mpr hres.sizeAligned),
    if_neg (not_not.mpr hres.addrAligned)]
  simp [hl]

lemma reserveCall_loop
    (hres : Reservable c addr size) (hs : size ≠ 0) (hli : c.allocatedArea = a :: b :: l) :
    c.reserveCall addr size = match reserveLoop c addr size (a :: b :: l) 0 none with
      | .panic => .inr (.error .kassert)
      | .leave c fr => .inr (.ok (c.mergeFraged fr))
      | .recur c addr size => .inl (c,addr,size) := by
  rw [reserveCall,if_neg hs,if_neg (not_not.mpr hres.sizeAligned),
    if_neg (not_not.mpr hres.addrAligned)]
  cases hl : reserveLoop c addr size _ 0 none <;> simp only [hli,hl]

lemma setStart_self (hs : c.allocatedArea = pre ++ cur :: next :: rest)
    (h : next.startAddr = addr) : c.setStart (pre.length + 1) addr = c := by
  have hl := setStart_after hs addr
  have hsame : ({ next with startAddr := addr } : AllocatedArea) = next := by rw [← h]
  rw [hsame,← hs] at hl
  exact congrArg (fun l => { c with allocatedArea := l }) hl

def ReserveGood (c : PhysmemCtrl) (addr size : Word) (c' : PhysmemCtrl) : Prop :=
  WellFormed c'.allocatedArea ∧
    covered c'.allocatedArea = covered c.allocatedArea ∪ range addr size

def ReserveExact (c : PhysmemCtrl) (addr size : Word) : Prop :=
  ((∃ c', Loop.Returns PhysmemCtrl.reserveBody (c,addr,size) (.ok c')) →
    ReserveClear addr size c.allocatedArea) ∧
  (ReserveClear addr size c.allocatedArea →
    ∃ c', Loop.Returns PhysmemCtrl.reserveBody (c,addr,size) (.ok c') ∧ ReserveGood c addr size c')

lemma reserveExact_of_exit (hca : c.reserveCall addr size = .inr (.ok c'))
    (hc : ReserveClear addr size c.allocatedArea) (hg : ReserveGood c addr size c') :
    ReserveExact c addr size :=
  ⟨fun _ => hc,fun _ => ⟨c',returns_of_exit hca,hg⟩⟩

lemma sub_start_toNat (hres : Reservable c addr size) (h : next.startAddr < addr + size) :
    lo next + (addr + size - next.startAddr).toNat = addr.toNat + size.toNat := by
  rw [BitVec.toNat_sub_of_le (BitVec.le_of_lt h),hres.sum_toNat]
  have hlt : next.startAddr.toNat < addr.toNat + size.toNat := hres.sum_toNat ▸ h
  unfold lo
  omega

lemma recur_unaligned (hc : c.reserveCall addr size = .inl (c',next.startAddr,size'))
    (hal : ¬ kPageSize.toNat ∣ lo next) (hp : size' ≠ 0) :
    ¬ ∃ d, Loop.Returns reserveBody (c,addr,size) (.ok d) := by
  rintro ⟨d,hd⟩
  rw [returns_step_iff hc] at hd
  have hna : ¬ next.startAddr % kPageSize = 0 := fun h => hal (page_dvd_iff.mp h)
  have he := (returns_exit_iff (reserveCall_unaligned hna hp)).mp hd
  cases he

section
variable (hres : Reservable c addr size) (h : next.startAddr < addr + size)
include hres h

lemma aligned_tail (hal : kPageSize.toNat ∣ lo next) :
    (addr + size - next.startAddr) % kPageSize = 0 := by
  have hsu := sub_start_toNat hres h
  have ha := page_dvd_iff.mp hres.addrAligned
  have hs := page_dvd_iff.mp hres.sizeAligned
  rw [page_dvd_iff]
  exact (Nat.dvd_add_right hal).mp (hsu ▸ Nat.dvd_add ha hs)

lemma tail_pos : 0 < addr + size - next.startAddr := by
  have hs := sub_start_toNat hres h
  have hlt : lo next < addr.toNat + size.toNat := hres.sum_toNat ▸ h
  rw [BitVec.lt_def]
  show 0 < _
  omega

lemma tail_ne_zero : addr + size - next.startAddr ≠ 0 := by
  intro hz
  have hp := tail_pos hres h
  rw [hz] at hp
  exact absurd hp (by decide)

end

lemma Reached.reservable_tail
    (hr : Reached addr c.allocatedArea pre cur next rest fr) (hres : Reservable c addr size)
    (hlt : next.startAddr < addr + size) (hal : kPageSize.toNat ∣ lo next)
    (hl : c'.allocatedArea = pre ++ cur' :: post) (hs : cur'.startAddr = cur.startAddr)
    (hwf : WellFormed (pre ++ cur' :: post)) :
    Reservable c' next.startAddr (addr + size - next.startAddr) := by
  refine ⟨hl ▸ hwf,hr.first_kept hres hl hs,?_,aligned_tail hres hlt hal,page_dvd_iff.mpr hal⟩
  have hw := hres.noWrap
  rw [← sub_start_toNat hres hlt] at hw
  exact hw

lemma reserveExact_growInto
    (ih : ∀ d a z, z.toNat < size.toNat → 0 < z → Reservable d a z →
      ReserveExact d a z)
    (hres : Reservable c addr size)
    (hr : Reached addr c.allocatedArea pre cur next rest fr)
    (hin : addr < cur.endAddr) (hlt : next.startAddr < addr + size)
    (hca : c.reserveCall addr size =
      .inl (c.setEnd pre.length next.startAddr,next.startAddr,addr + size - next.startAddr)) :
    ReserveExact c addr size := by
  have hsu := sub_start_toNat hres hlt
  have hlt' : lo next < addr.toNat + size.toNat := hres.sum_toNat ▸ hlt
  have hin' : addr.toNat < hi cur := hin
  have hn := hr.end_le_start hres
  have hs := hr.start
  have hl := setEnd_at hr.split next.startAddr
  have hno : ¬ ReserveClear addr size c.allocatedArea := by
    rw [hr.split,reserveClear_append]
    rintro ⟨_,hp,_⟩
    obtain ⟨hd,_⟩ := hp (by omega) hlt'
    omega
  refine ⟨?_,fun h => absurd h hno⟩
  intro hre
  exfalso
  by_cases hal : kPageSize.toNat ∣ lo next
  · have hrs' := hr.reservable_tail hres hlt hal hl rfl (growInto_wellFormed hr hres.wellFormed)
    have hc := (ih _ _ _ (by omega) (tail_pos hres hlt) hrs').1 (by
      obtain ⟨d,hd⟩ := hre
      exact ⟨d,(returns_step_iff hca).mp hd⟩)
    rw [hl,reserveClear_append] at hc
    obtain ⟨_,hp,_⟩ := hc
    exact absurd (hp le_rfl (by rw [show next.startAddr.toNat = lo next from rfl]; omega)).2.1
      (lt_irrefl _)
  · exact recur_unaligned hca hal (tail_ne_zero hres hlt) hre

lemma reserveExact_fixed (hres : Reservable c addr size)
    (hr : Reached addr c.allocatedArea pre cur next rest fr)
    (heq : next.startAddr = addr) (hlt : next.startAddr < addr + size)
    (hc : c.reserveCall addr size =
      .inl (c.setStart (pre.length + 1) addr,next.startAddr,addr + size - next.startAddr)) :
    ReserveExact c addr size := by
  have hf : reserveBody (c,addr,size) = .inl (c,addr,size) := by
    rw [setStart_self hr.split heq,heq] at hc
    have hz : addr + size - addr = size := by
      rw [BitVec.add_comm]
      exact BitVec.add_sub_cancel size addr
    rw [hz] at hc
    exact hc
  refine ⟨?_,?_⟩
  · rintro ⟨d,hd⟩
    exact absurd hd (diverges_of_fixed hf _)
  · intro hcl
    rw [hr.split,reserveClear_append] at hcl
    have hlo : lo next = addr.toNat := by rw [lo,heq]
    have hco := (hcl.2.1 hlo.ge (hres.sum_toNat ▸ hlt)).2.1
    omega

lemma reserveExact_pull
    (ih : ∀ d a z, z.toNat < size.toNat → 0 < z → Reservable d a z →
      ReserveExact d a z)
    (hres : Reservable c addr size)
    (hr : Reached addr c.allocatedArea pre cur next rest fr)
    (hen : cur.endAddr ≤ addr) (hgt : addr.toNat < lo next) (hlt : next.startAddr < addr + size)
    (hca : c.reserveCall addr size =
      .inl (c.setStart (pre.length + 1) addr,next.startAddr,addr + size - next.startAddr)) :
    ReserveExact c addr size := by
  have hs := sub_start_toNat hres hlt
  have hlt' : lo next < addr.toNat + size.toNat := hres.sum_toNat ▸ hlt
  have hl := setStart_after hr.split addr
  have hif := pull_clear _ hr hres.wellFormed hen hgt hlt' hs
  obtain ⟨hwf',hcv⟩ := pull_covered hr hres.wellFormed hen hgt.le
  by_cases hal : kPageSize.toNat ∣ lo next
  · have he := ih _ _ _ (by omega) (tail_pos hres hlt) (hr.reservable_tail hres hlt hal hl rfl hwf')
    refine ⟨?_,?_⟩
    · rintro ⟨d,hd⟩
      have hc := he.1 ⟨d,(returns_step_iff hca).mp hd⟩
      rw [hl] at hc
      exact hif.mpr ⟨hal,hc⟩
    · intro hc
      obtain ⟨d,hd,hw,hco⟩ := he.2 (by rw [hl]; exact (hif.mp hc).2)
      refine ⟨d,(returns_step_iff hca).mpr hd,hw,?_⟩
      rw [hco,hl,hcv,Set.union_assoc]
      congr 1
      have hr2 : range next.startAddr (addr + size - next.startAddr) =
          Set.Ico (lo next) (addr.toNat + size.toNat) := by
        unfold range
        rw [show next.startAddr.toNat = lo next from rfl,hs]
      rw [hr2]
      exact Set.Ico_union_Ico_eq_Ico hgt.le hlt'.le
  · refine ⟨?_,fun h => absurd (hif.mp h).1 hal⟩
    intro hre
    exact absurd hre (recur_unaligned hca hal (tail_ne_zero hres hlt))

end

lemma reserveExact_all (n : ℕ) : ∀ c addr size, size.toNat = n →
    0 < size → Reservable c addr size → ReserveExact c addr size := by
  induction n using Nat.strong_induction_on with
  | _ n ih =>
    intro c addr size hn hs hres
    have hne : size ≠ 0 := by
      rintro rfl
      exact absurd hs (by decide)
    have ih' : ∀ d a z, z.toNat < size.toNat → 0 < z → Reservable d a z →
        ReserveExact d a z := fun d a z hz hp hd => ih z.toNat (hn ▸ hz) d a z rfl hp hd
    obtain ⟨a,l,hal,_⟩ := hres.first
    cases l with
    | nil =>
      have hg := reserveSub2_covered (show c.allocatedArea = [] ++ [a] from hal) hres.wellFormed
        (by omega) hres.sum_toNat
      refine reserveExact_of_exit (reserveCall_single hres hne hal) ?_ hg.2
      rw [hal]
      trivial
    | cons b l =>
      have hca := reserveCall_loop hres hne hal
      obtain ⟨pre,cur,next,rest,fr,hr,hc⟩ :=
        reserveLoop_cases c addr size l [] a b none (by omega) (.inl rfl) (by simp)
      rw [nil_append,← hal] at hr
      generalize he : reserveLoop c addr size _ 0 none = exit at hc hca
      cases exit with
      | panic => cases hc
      | leave c' fraged' =>
        have hg := reserveCase_leave hres hs hr hc
        obtain ⟨hwf,hco⟩ := mergeFraged_adjacent hg.wellFormed hg.adjacent
        exact reserveExact_of_exit hca hg.clear ⟨hwf,hco.trans hg.covered⟩
      | recur c' addr' size' =>
        cases hc with
        | growInto hin hlt => exact reserveExact_growInto ih' hres hr hin hlt hca
        | pull hen hle hlt =>
          rcases eq_or_ne next.startAddr addr with heq | hne
          · exact reserveExact_fixed hres hr heq hlt hca
          · have hgt := lt_of_le_of_ne hle fun h => hne (BitVec.eq_of_toNat_eq h.symm)
            exact reserveExact_pull ih' hres hr hen hgt hlt hca

lemma reserveExact_of_reservable (c : PhysmemCtrl) (addr size : Word) (hres : Reservable c addr size) :
    ReserveExact c addr size := by
  by_cases hz : size = 0
  · subst hz
    have hc : ReserveClear addr 0 c.allocatedArea := reserveClear_of_tail fun b _ => by
      simp only [BitVec.ofNat_eq_ofNat,BitVec.toNat_ofNat,Nat.zero_mod]
      omega
    refine reserveExact_of_exit rfl hc ⟨hres.wellFormed,?_⟩
    simp [range]
  · have hp : 0 < size := by
      rw [BitVec.lt_def]
      exact Nat.pos_of_ne_zero fun h => hz (BitVec.eq_of_toNat_eq h)
    exact reserveExact_all size.toNat c addr size rfl hp hres

theorem reserveSub_covers_iff (c : PhysmemCtrl) (addr size : Word)
    (hwf : WellFormed c.allocatedArea)
    (hfirst : ∃ a rest, c.allocatedArea = a :: rest ∧ lo a = 0)
    (haddr : addr % kPageSize = 0) (hsize : size % kPageSize = 0)
    (hwrap : addr.toNat + size.toNat < 2 ^ 64) :
    (∃ fuel c', c.reserveSub fuel addr size = some (.ok c') ∧ WellFormed c'.allocatedArea ∧
      covered c'.allocatedArea = covered c.allocatedArea ∪ range addr size) ↔
    ReserveClear addr size c.allocatedArea := by
  have he := reserveExact_of_reservable c addr size ⟨hwf,hfirst,hwrap,hsize,haddr⟩
  constructor
  · rintro ⟨fuel,c',hre,_⟩
    exact he.1 ⟨c',fuel,hre⟩
  · intro hc
    obtain ⟨c',⟨fuel,hre⟩,hg⟩ := he.2 hc
    exact ⟨fuel,c',hre,hg⟩

theorem reserveSub_covers_gap : ∃ fuel c', PhysmemCtrl.reserveSub fuel
        (bootCtrl [⟨0,0,0x600000⟩,⟨1,0x700000,0x800000⟩]) 0x680000 0x100000 = some (.ok c') ∧
      WellFormed c'.allocatedArea ∧
      covered c'.allocatedArea =
        covered [⟨0,0,0x600000⟩,⟨1,0x700000,0x800000⟩] ∪ range 0x680000 0x100000 :=
  (reserveSub_covers_iff _ 0x680000 0x100000
    (by decide) ⟨_,_,rfl,rfl⟩ (by decide) (by decide) (by decide)).mpr (by decide)

theorem reserveSub_diverges : WellFormed [⟨0,0,0x600000⟩,⟨1,0x700000,0x800000⟩] ∧
    ∀ fuel, PhysmemCtrl.reserveSub fuel
      (bootCtrl [⟨0,0,0x600000⟩,⟨1,0x700000,0x800000⟩]) 0x700000 0x100000 = none := by
  have hf : PhysmemCtrl.reserveBody
      (bootCtrl [⟨0,0,0x600000⟩,⟨1,0x700000,0x800000⟩],0x700000,0x100000) =
      .inl _ := rfl
  refine ⟨by decide,?_⟩
  intro fuel
  cases h : PhysmemCtrl.reserveSub fuel
      (bootCtrl [⟨0,0,0x600000⟩,⟨1,0x700000,0x800000⟩]) 0x700000 0x100000 with
  | none => rfl
  | some r => exact absurd ⟨fuel,h⟩ (diverges_of_fixed hf r)

end Physmem
