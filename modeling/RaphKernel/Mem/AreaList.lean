import RaphKernel.Library.Intervals
import RaphKernel.Library.Positions
import RaphKernel.Mem.Physmem

namespace Physmem
open Raph List Intervals Positions
variable {pre post pre' : List AllocatedArea} {c : PhysmemCtrl} {fr : Option ℕ}
  {cur a next b cur' : AllocatedArea} {fraged : Option ℕ} {f : ℕ}

def lo (a : AllocatedArea) : ℕ := a.startAddr.toNat

def hi (a : AllocatedArea) : ℕ := a.endAddr.toNat

def WellFormed (areas : List AllocatedArea) : Prop := Intervals.Chained lo hi areas

instance (areas : List AllocatedArea) : Decidable (WellFormed areas) :=
  inferInstanceAs (Decidable (Intervals.Chained lo hi areas))

def covered (areas : List AllocatedArea) : Set ℕ := Intervals.covered lo hi areas

def range (addr size : Word) : Set ℕ := Set.Ico addr.toNat (addr.toNat + size.toNat)

def Adjacent (areas : List AllocatedArea) (i : ℕ) : Prop :=
  ∃ a b, areas[i]? = some a ∧ areas[i + 1]? = some b ∧ b.startAddr = a.endAddr

def bootCtrl (areas : List AllocatedArea) : PhysmemCtrl :=
  ⟨areas,⟨areas.length,[]⟩,true,true⟩

lemma wellFormed_iff (areas : List AllocatedArea) :
    WellFormed areas ↔ Intervals.Ordered lo hi areas := chained_iff_ordered areas

lemma notFraged_cases {i : ℕ} (h : notFraged fr i cur next = some f) :
    fr = some f ∨ f = i ∧ next.startAddr = cur.endAddr := by
  unfold notFraged at h
  split at h
  · rename_i hc
    simp only [Bool.and_eq_true,beq_iff_eq] at hc
    exact .inr ⟨(Option.some.inj h).symm,hc.2⟩
  · exact .inl h

lemma adjacent_at
    (h : next.startAddr = cur.endAddr) : Adjacent (pre ++ cur :: next :: post) pre.length :=
  ⟨cur,next,by simp,by simp,h⟩

lemma start_of_adjacent
    (h : Adjacent (pre ++ cur :: next :: post) pre.length) : lo next = hi cur := by
  obtain ⟨a,b,ha,hb,hab⟩ := h
  obtain rfl : cur = a := by simpa using ha
  obtain rfl : next = b := by simpa using hb
  rw [lo,hab,hi]

lemma hi_lt (a : AllocatedArea) : hi a < 2 ^ 64 := a.endAddr.isLt

lemma lo_lt (a : AllocatedArea) : lo a < 2 ^ 64 := a.startAddr.isLt

namespace PhysmemCtrl

lemma setEnd_at (h : c.allocatedArea = pre ++ a :: post) (addr : Word) :
    (c.setEnd pre.length addr).allocatedArea = pre ++ { a with endAddr := addr } :: post := by
  rw [setEnd,h]
  exact modify_at _ _ _ _

lemma setStart_at (h : c.allocatedArea = pre ++ a :: post) (addr : Word) :
    (c.setStart pre.length addr).allocatedArea = pre ++ { a with startAddr := addr } :: post := by
  rw [setStart,h]
  exact modify_at _ _ _ _

lemma setStart_after (h : c.allocatedArea = pre ++ a :: b :: post) (addr : Word) :
    (c.setStart (pre.length + 1) addr).allocatedArea =
      pre ++ a :: { b with startAddr := addr } :: post := by
  rw [setStart,h]
  exact modify_after _ _ _ _ _

lemma linkAfter_at (h : c.allocatedArea = pre ++ a :: post) (newarea : AllocatedArea) :
    (c.linkAfter pre.length newarea).allocatedArea = pre ++ a :: newarea :: post := by
  rw [linkAfter,h]
  exact insertIdx_after _ _ _ _

lemma insertAfter_at (h : c.allocatedArea = pre ++ a :: post) (startAddr endAddr : Word) :
    (c.insertAfter pre.length startAddr endAddr).allocatedArea =
      pre ++ a :: ⟨c.areaBuffer.taken,startAddr,endAddr⟩ :: post := by
  unfold insertAfter
  exact linkAfter_at h _

lemma mergeFraged_at (h : c.allocatedArea = pre ++ a :: b :: post) :
    (c.mergeFraged (some pre.length)).allocatedArea =
      pre ++ { a with endAddr := b.endAddr } :: post := by
  have hb : c.allocatedArea[pre.length + 1]? = some b := by rw [h]; simp
  simp only [mergeFraged,hb]
  rw [setEnd_at h]
  exact eraseIdx_after _ _ _ _

end PhysmemCtrl

structure MergedFront (pre : List AllocatedArea) (cur : AllocatedArea)
    (pre' : List AllocatedArea) (cur' : AllocatedArea) : Prop where
  endAddr : cur'.endAddr = cur.endAddr
  ends : ∀ x ∈ pre' ++ [cur'], ∃ y ∈ pre ++ [cur], hi x = hi y
  ordered : Intervals.Ordered lo hi (pre ++ [cur]) → Intervals.Ordered lo hi (pre' ++ [cur'])
  covered : Intervals.Ordered lo hi (pre ++ [cur]) → covered (pre' ++ [cur']) = covered (pre ++ [cur])

lemma MergedFront.refl (pre : List AllocatedArea) (cur : AllocatedArea) :
    MergedFront pre cur pre cur :=
  ⟨rfl,fun x hx => ⟨x,hx,rfl⟩,id,fun _ => rfl⟩

lemma mergedFront_of_pair {p q : List AllocatedArea}
    (h : pre ++ [cur] = p ++ a :: b :: q) (hab : b.startAddr = a.endAddr)
        (h' : pre' ++ [cur'] = p ++ { a with endAddr := b.endAddr } :: q)
    (he : cur'.endAddr = cur.endAddr) : MergedFront pre cur pre' cur' where
  endAddr := he
  ends := by
    intro x hx
    rw [h'] at hx
    rw [h]
    rcases mem_append.mp hx with hx | hx
    · exact ⟨x,by simp [hx],rfl⟩
    · rcases mem_cons.mp hx with rfl | hx
      · exact ⟨b,by simp,rfl⟩
      · exact ⟨x,by simp [hx],rfl⟩
  ordered := by
    rw [h,h']
    intro ho
    exact ordered_merge ho rfl rfl
  covered := by
    rw [h,h']
    intro ho
    obtain ⟨_,hab',_⟩ := ordered_append.mp ho
    obtain ⟨ha,_,hb⟩ := ordered_cons.mp hab'
    obtain ⟨hb,_⟩ := ordered_cons.mp hb
    have heq : hi a = lo b := by rw [hi,lo,hab]
    exact covered_merge ha hb heq rfl rfl

lemma MergedFront.append
    (hm : MergedFront pre cur pre' cur') (ho : WellFormed (pre ++ cur :: post)) :
    WellFormed (pre' ++ cur' :: post) ∧
      Physmem.covered (pre' ++ cur' :: post) = Physmem.covered (pre ++ cur :: post) := by
  have hs (p : List AllocatedArea) (a : AllocatedArea) : p ++ a :: post = (p ++ [a]) ++ post := by
    simp
  rw [wellFormed_iff,hs pre cur] at ho
  rw [wellFormed_iff,hs pre' cur',hs pre cur]
  obtain ⟨hpr,hp,ha⟩ := ordered_append.mp ho
  refine ⟨ordered_append.mpr ⟨hm.ordered hpr,hp,?_⟩,?_⟩
  · intro x hx b hb
    obtain ⟨y,hy,he⟩ := hm.ends x hx
    rw [he]
    exact ha y hy b hb
  · have hc := hm.covered hpr
    unfold Physmem.covered at hc ⊢
    rw [covered_append,hc,← covered_append]

lemma adjacent_front {post' : List AllocatedArea}
    (h : Adjacent (pre ++ cur :: post) f) (hf : f < pre.length)
    (hs : cur'.startAddr = cur.startAddr) : Adjacent (pre ++ cur' :: post') f := by
  obtain ⟨a,b,ha,hb,hab⟩ := h
  rw [getElem?_append_left hf] at ha
  rcases Nat.lt_or_ge _ pre.length with hlt | _
  · rw [getElem?_append_left hlt] at hb
    exact ⟨a,b,by rw [getElem?_append_left hf,ha],by rw [getElem?_append_left hlt,hb],hab⟩
  · have he : f + 1 = pre.length := by omega
    rw [he] at hb
    have hcb : cur = b := by simpa using hb
    subst hcb
    exact ⟨a,cur',by rw [getElem?_append_left hf,ha],by rw [he]; simp,hs.trans hab⟩

namespace PhysmemCtrl

lemma mergeFraged_front (h : c.allocatedArea = pre ++ cur :: post)
    (hf : ∀ f, fr = some f → f < pre.length ∧ Adjacent (pre ++ [cur]) f) :
    ∃ pre' cur', (c.mergeFraged fr).allocatedArea = pre' ++ cur' :: post ∧
      MergedFront pre cur pre' cur' := by
  cases fr with
  | none => exact ⟨pre,cur,h,.refl pre cur⟩
  | some f =>
    obtain ⟨hlt,a,b,ha,hb,hab⟩ := hf f rfl
    obtain ⟨p,q,hpq,rfl⟩ := split_pair ha hb
    have hal : c.allocatedArea = p ++ a :: b :: (q ++ post) := by
      rw [h]
      simpa using congrArg (· ++ post) hpq
    have hm := mergeFraged_at hal
    rcases eq_nil_or_concat q with rfl | ⟨r,last,rfl⟩
    · have hp : pre = p ++ [a] ∧ cur = b := by
        have hin := append_inj' (show pre ++ [cur] = (p ++ [a]) ++ [b] by simpa using hpq) rfl
        simpa using hin
      obtain ⟨rfl,rfl⟩ := hp
      exact ⟨p,{ a with endAddr := cur.endAddr },hm,mergedFront_of_pair hpq hab rfl rfl⟩
    · have hp : pre = p ++ a :: b :: r ∧ cur = last := by
        have hin := append_inj'
          (show pre ++ [cur] = (p ++ a :: b :: r) ++ [last] by simpa using hpq) rfl
        simpa using hin
      obtain ⟨rfl,rfl⟩ := hp
      refine ⟨p ++ { a with endAddr := b.endAddr } :: r,cur,by simpa using hm,?_⟩
      exact mergedFront_of_pair hpq hab (by simp) rfl

end PhysmemCtrl

lemma PhysmemCtrl.mergeFraged_adjacent (hwf : WellFormed c.allocatedArea)
    (hf : ∀ f, fr = some f → Adjacent c.allocatedArea f) :
    WellFormed (c.mergeFraged fr).allocatedArea ∧
      covered (c.mergeFraged fr).allocatedArea = covered c.allocatedArea := by
  cases fr with
  | none => exact ⟨hwf,rfl⟩
  | some f =>
    obtain ⟨a,b,ha,hb,hab⟩ := hf f rfl
    obtain ⟨p,q,hpq,rfl⟩ := split_pair ha hb
    have ho := (wellFormed_iff _).mp hwf
    rw [hpq] at ho
    obtain ⟨_,hp,_⟩ := ordered_append.mp ho
    obtain ⟨hla,_,hb⟩ := ordered_cons.mp hp
    have heq : hi a = lo b := by rw [hi,lo,hab]
    rw [mergeFraged_at hpq,wellFormed_iff]
    refine ⟨ordered_merge ho rfl rfl,?_⟩
    rw [hpq]
    exact covered_merge hla (ordered_cons.mp hb).1 heq rfl rfl

section
variable {pre post : List AllocatedArea} {cur : AllocatedArea} {size : Word}

lemma extend_covered {newEnd addr : Word} (ho : WellFormed (pre ++ cur :: post))
    (hlo : lo cur ≤ addr.toNat) (hhi : addr.toNat ≤ hi cur)
    (hen : hi cur ≤ addr.toNat + size.toNat) (he : newEnd.toNat = addr.toNat + size.toNat)
    (hr : ∀ b ∈ post, addr.toNat + size.toNat ≤ lo b) :
    WellFormed (pre ++ { cur with endAddr := newEnd } :: post) ∧
      covered (pre ++ { cur with endAddr := newEnd } :: post) =
        covered (pre ++ cur :: post) ∪ range addr size := by
  rw [wellFormed_iff] at ho ⊢
  obtain ⟨hpr,hcp,hal⟩ := ordered_append.mp ho
  obtain ⟨_,_,hp⟩ := ordered_cons.mp hcp
  have hn : hi { cur with endAddr := newEnd } = addr.toNat + size.toNat := he
  have hol : lo { cur with endAddr := newEnd } = lo cur := rfl
  constructor
  · refine ordered_append.mpr ⟨hpr,ordered_cons.mpr ⟨?_,?_,hp⟩,?_⟩
    · rw [hol,hn]; omega
    · rw [hn]; exact hr
    · intro a ha b hb
      rcases mem_cons.mp hb with rfl | hb
      · exact hal a ha cur (by simp)
      · exact hal a ha b (by simp [hb])
  · have hu : Set.Ico (lo cur) (addr.toNat + size.toNat) =
        Set.Ico (lo cur) (hi cur) ∪ range addr size := by
      ext x
      simp only [range,Set.mem_union,Set.mem_Ico]
      omega
    unfold covered
    rw [covered_append,covered_append,covered_cons,covered_cons,hol,hn,hu]
    simp only [Set.union_assoc,Set.union_comm (range addr size)]

lemma insert_covered (new : AllocatedArea) (size : Word) (ho : WellFormed (pre ++ cur :: post))
    (hlo : hi cur ≤ lo new) (hhi : hi new = lo new + size.toNat)
    (hro : ∀ b ∈ post, hi new ≤ lo b) :
    WellFormed (pre ++ cur :: new :: post) ∧
      covered (pre ++ cur :: new :: post) = covered (pre ++ cur :: post) ∪ range new.startAddr size := by
  rw [wellFormed_iff] at ho ⊢
  obtain ⟨hpr,hcp,hal⟩ := ordered_append.mp ho
  obtain ⟨hcu,hc,hp⟩ := ordered_cons.mp hcp
  have hn : lo new ≤ hi new := by omega
  constructor
  · refine ordered_append.mpr ⟨hpr,ordered_cons.mpr ⟨hcu,?_,ordered_cons.mpr ⟨hn,hro,hp⟩⟩,?_⟩
    · intro b hb
      rcases mem_cons.mp hb with rfl | hb
      · exact hlo
      · exact hc b hb
    · intro a ha b hb
      have hac := hal a ha cur (by simp)
      rcases mem_cons.mp hb with rfl | hb
      · exact hac
      · rcases mem_cons.mp hb with rfl | hb
        · exact hac.trans (hcu.trans hlo)
        · exact hal a ha b (by simp [hb])
  · have hr : range new.startAddr size = Set.Ico (lo new) (hi new) := by rw [hhi]; rfl
    unfold covered
    rw [covered_append,covered_append,covered_cons,covered_cons,covered_cons,hr]
    simp only [Set.union_assoc,Set.union_comm (Set.Ico (lo new) (hi new))]

end

end Physmem
