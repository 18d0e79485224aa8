import RaphKernel.Library.Custody
import RaphKernel.Mem.PhysmemAlloc
import RaphKernel.Mem.PhysmemFree

namespace Physmem
open Raph Custody List PhysmemCtrl AllocatedArea
variable {pa : PhysAddr} {i : ℕ} {area : AllocatedArea}

inductive Place where
  | linked
  | returned
  deriving DecidableEq

instance : Fintype Place := ⟨{.linked,.returned},fun x => by cases x <;> decide⟩

def nodes (areas : List AllocatedArea) : List ℕ := areas.map AllocatedArea.node

def hold (c : PhysmemCtrl) : Place → List ℕ
  | .linked => nodes c.allocatedArea
  | .returned => c.areaBuffer.returned

def Conserved (c : PhysmemCtrl) : Prop := Kept (List.range c.areaBuffer.taken) (hold c)

def Accounted (c : PhysmemCtrl) : Prop :=
  ∀ n < c.areaBuffer.taken, n ∈ nodes c.allocatedArea ∨ n ∈ c.areaBuffer.returned

def outstanding (c : PhysmemCtrl) : Set ℕ :=
  {n | n < c.areaBuffer.taken ∧ n ∉ c.areaBuffer.returned}

section
variable {c c' : PhysmemCtrl} {n i : ℕ} {addr : Word}

lemma conserved_mem (h : Conserved c) :
    n < c.areaBuffer.taken ↔ n ∈ nodes c.allocatedArea ∨ n ∈ c.areaBuffer.returned := by
  rw [← mem_range,h.mem]
  constructor
  · rintro ⟨place,hp⟩
    cases place with
    | linked => exact .inl hp
    | returned => exact .inr hp
  · rintro (hl | hr)
    · exact ⟨.linked,hl⟩
    · exact ⟨.returned,hr⟩

lemma conserved_accounted (h : Conserved c) : Accounted c := fun _ hn => (conserved_mem h).mp hn

lemma conserved_of_same (h : Conserved c) (hn : nodes c'.allocatedArea = nodes c.allocatedArea)
    (hb : c'.areaBuffer = c.areaBuffer) : Conserved c' := by
  have hh : hold c' = hold c := by
    funext place
    cases place with
    | linked => exact hn
    | returned => exact congrArg AreaBuffer.returned hb
  rw [Conserved,hb,hh]
  exact h

lemma conserved_take (h : Conserved c) (place : Place)
    (ht : c'.areaBuffer.taken = c.areaBuffer.taken + 1)
    (hp : (hold c' place).Perm (c.areaBuffer.taken :: hold c place))
    (ho : ∀ other, other ≠ place → hold c' other = hold c other) : Conserved c' := by
  rw [Conserved,ht,List.range_succ]
  exact (h.grow hp ho).perm (perm_append_singleton _ _).symm

lemma nodes_modify {f : AllocatedArea → AllocatedArea} (hf : ∀ a, (f a).node = a.node)
    (areas : List AllocatedArea) (i : ℕ) : nodes (areas.modify i f) = nodes areas := by
  induction areas generalizing i with
  | nil => cases i <;> rfl
  | cons a areas ih =>
    cases i with
    | zero => simp [nodes,hf]
    | succ i => simpa [nodes] using ih i

lemma setEnd_nodes : nodes (c.setEnd i addr).allocatedArea = nodes c.allocatedArea :=
  nodes_modify (f := fun a => {a with endAddr := addr}) (fun _ => rfl) c.allocatedArea i

lemma setStart_nodes : nodes (c.setStart i addr).allocatedArea = nodes c.allocatedArea :=
  nodes_modify (f := fun a => {a with startAddr := addr}) (fun _ => rfl) c.allocatedArea i

lemma setEnd_conserved (h : Conserved c) : Conserved (c.setEnd i addr) :=
  conserved_of_same h setEnd_nodes rfl

lemma setStart_conserved (h : Conserved c) : Conserved (c.setStart i addr) :=
  conserved_of_same h setStart_nodes rfl

lemma linkAfter_nodes (area : AllocatedArea) (hi : i < c.allocatedArea.length) :
    (nodes (c.linkAfter i area).allocatedArea).Perm (area.node :: nodes c.allocatedArea) :=
  (perm_insertIdx area c.allocatedArea hi).map node

lemma insertAfter_conserved {startAddr endAddr : Word} (h : Conserved c)
    (hi : i < c.allocatedArea.length) : Conserved (c.insertAfter i startAddr endAddr) := by
  refine conserved_take h .linked rfl ?_ ?_
  · exact linkAfter_nodes (c := {c with areaBuffer := c.areaBuffer.alloc.2}) _ hi
  · intro other hne
    cases other with
    | linked => exact absurd rfl hne
    | returned => rfl

lemma mergeFraged_conserved {fr : Option ℕ} (h : Conserved c) :
    Conserved (c.mergeFraged fr) := by
  cases fr with
  | none => exact h
  | some i =>
    cases hn : c.allocatedArea[i + 1]? with
    | none =>
      rw [mergeFraged,hn]
      exact h
    | some b =>
      have hs : Conserved (c.setEnd i b.endAddr) := setEnd_conserved h
      have hl : i + 1 < (c.setEnd i b.endAddr).allocatedArea.length := by
        have hlt := (List.getElem?_eq_some_iff.mp hn).1
        simpa [setEnd] using hlt
      have hno : ((c.setEnd i b.endAddr).allocatedArea[i + 1]).node = b.node := by
        obtain ⟨_,hb⟩ := List.getElem?_eq_some_iff.mp hn
        simp [setEnd,hb]
      simp only [mergeFraged,hn]
      refine Kept.move hs (i := Place.linked) (j := Place.returned) (t := b.node) (by decide)
        ?_ (Perm.refl _) ?_
      · have hp := (getElem_cons_eraseIdx_perm hl).map node
        rw [map_cons,hno] at hp
        exact hp.symm
      · intro other hli hr
        cases other with
        | linked => exact absurd rfl hli
        | returned => exact absurd rfl hr

end

section
variable {c c' : PhysmemCtrl} {top addr size : Word} {option : AllocOption}

lemma allocSub_conserved {paddr' : PhysAddr} (h : Conserved c)
    (hc : c.allocSub top pa size option = .ok (paddr',c')) : Conserved c' := by
  obtain ⟨_,pre,cur,post,fr,site,_,rfl,_⟩ := allocSub_ok hc
  apply mergeFraged_conserved
  have hl : pre.length < c.allocatedArea.length := by
    rw [site.split]
    simp
  by_cases ha : alignUp cur.endAddr option.align = cur.endAddr
  · rw [placeArea_extend ha]
    exact setEnd_conserved h
  · rw [placeArea_insert ha]
    exact insertAfter_conserved h hl

lemma free_cases (hc : c.free (some addr) size = .ok (pa,c')) :
    0 < size ∧ ((c.allocatedArea.findIdx? (PhysmemCtrl.contains addr size) = none ∧
      c' = {c with areaBuffer := c.areaBuffer.alloc.2}) ∨
    ∃ i area, c.allocatedArea.findIdx? (PhysmemCtrl.contains addr size) = some i ∧
      c.allocatedArea[i]? = some area ∧
      c' = freeFrom {c with areaBuffer := c.areaBuffer.alloc.2} i area
        c.areaBuffer.taken addr size) := by
  simp only [free,kassert_bind_ok,decide_eq_true_eq] at hc
  obtain ⟨hs,_,hc⟩ := hc
  refine ⟨hs,?_⟩
  obtain ⟨_,ha,hc⟩ := bind_ok.mp hc
  cases ha
  cases hf : c.allocatedArea.findIdx? (PhysmemCtrl.contains addr size) with
  | none =>
    simp only [AreaBuffer.alloc,hf] at hc
    cases hc
    exact .inl ⟨rfl,rfl⟩
  | some i =>
    obtain ⟨hi,_⟩ := findIdx?_eq_some_iff_getElem.mp hf
    simp only [AreaBuffer.alloc,hf,List.getElem?_eq_getElem hi] at hc
    cases hc
    exact .inr ⟨i,_,rfl,List.getElem?_eq_getElem hi,rfl⟩

lemma freeFrom_conserved (h : Conserved c) (hi : c.allocatedArea[i]? = some area) :
    Conserved (freeFrom {c with areaBuffer := c.areaBuffer.alloc.2} i area
      c.areaBuffer.taken addr size) := by
  have hu : Conserved {c with
      areaBuffer := c.areaBuffer.alloc.2.free c.areaBuffer.taken} := by
    refine conserved_take h .returned rfl (Perm.refl _) ?_
    intro other hne
    cases other with
    | linked => rfl
    | returned => exact absurd rfl hne
  have hle := (List.getElem?_eq_some_iff.mp hi).1
  unfold freeFrom
  split_ifs
  · exact setStart_conserved hu
  · exact setEnd_conserved hu
  · refine conserved_take h .linked rfl ?_ ?_
    · have hl := linkAfter_nodes (i := i)
        (c := setEnd {c with areaBuffer := c.areaBuffer.alloc.2} i addr)
        ⟨c.areaBuffer.taken,addr + size,area.endAddr⟩ (by simpa [setEnd] using hle)
      rw [setEnd_nodes] at hl
      exact hl
    · intro other hne
      cases other with
      | linked => exact absurd rfl hne
      | returned => rfl

lemma reserveSub2_conserved (h : Conserved c)
    (hi : i < c.allocatedArea.length) : Conserved (c.reserveSub2 i area addr size) := by
  unfold reserveSub2
  split_ifs
  · exact setEnd_conserved h
  · exact h
  · exact insertAfter_conserved h hi

def ExitConserved : ReserveExit → Prop
  | .panic => True
  | .leave c _ => Conserved c
  | .recur c _ _ => Conserved c

lemma reserveLoop_conserved (addr size : Word) (h : Conserved c) : ∀ (l done : List AllocatedArea)
    (fr : Option ℕ), c.allocatedArea = done ++ l →
    ExitConserved (reserveLoop c addr size l done.length fr) := by
  intro l
  induction l with
  | nil => exact fun _ _ _ => h
  | cons cur l ih =>
    intro done fr hs
    cases l with
    | nil => exact h
    | cons next rest =>
      have hl : done.length + 1 < c.allocatedArea.length := by
        rw [hs]
        simp
      have hr := ih (done ++ [cur]) (notFraged fr done.length cur next) (by simpa using hs)
      rw [length_append,length_singleton] at hr
      unfold reserveLoop
      dsimp only
      split_ifs
      · exact h
      · exact setEnd_conserved h
      · exact setEnd_conserved h
      · exact insertAfter_conserved h (by omega)
      · exact setStart_conserved h
      · exact reserveSub2_conserved h hl
      · exact hr
      · trivial

lemma reserveCall_conserved (h : Conserved c) :
    (∀ t, c.reserveCall addr size = .inl t → Conserved t.1) ∧
      ∀ r, c.reserveCall addr size = .inr r → ∀ c', r = .ok c' → Conserved c' := by
  have hl := reserveLoop_conserved addr size h c.allocatedArea [] none rfl
  rw [length_nil] at hl
  unfold reserveCall
  split_ifs with hz hs ha
  · exact ⟨(fun t ht => nomatch ht),fun r hr c' hc' => by cases hr; cases hc'; exact h⟩
  · split
    · exact ⟨(fun t ht => nomatch ht),fun r hr c' hc' => by cases hr; cases hc'⟩
    · rename_i area hli
      refine ⟨(fun t ht => nomatch ht),fun r hr c' hc' => ?_⟩
      cases hr
      cases hc'
      exact reserveSub2_conserved h (by rw [hli]; simp)
    · cases he : reserveLoop c addr size c.allocatedArea 0 none with
      | panic => exact ⟨(fun t ht => nomatch ht),fun r hr c' hc' => by cases hr; cases hc'⟩
      | leave c₁ fr =>
        rw [he] at hl
        refine ⟨(fun t ht => nomatch ht),fun r hr c' hc' => ?_⟩
        cases hr
        cases hc'
        exact mergeFraged_conserved hl
      | recur c₁ addr' size' =>
        rw [he] at hl
        exact ⟨fun t ht => by cases ht; exact hl,(fun r hr => nomatch hr)⟩
  · exact ⟨(fun t ht => nomatch ht),fun r hr c' hc' => by cases hr; cases hc'⟩
  · exact ⟨(fun t ht => nomatch ht),fun r hr c' hc' => by cases hr; cases hc'⟩

lemma reserve_conserved {fuel : ℕ} (h : Conserved c)
    (hc : c.reserve fuel addr size = some (.ok c')) : Conserved c' := by
  have hre : Loop.Returns reserveBody (c,addr,size) (.ok c') := ⟨fuel,hc⟩
  refine Loop.returns_invariant (P := fun s => Conserved s.1)
    (Q := fun r => ∀ c', r = .ok c' → Conserved c') ?_ ?_ h hre c' rfl
  · exact fun s t hs ht => (reserveCall_conserved hs).1 t ht
  · exact fun s r hs hr => (reserveCall_conserved hs).2 r hr

end

inductive Operation where
  | alloc (size : Word) (option : AllocOption)
  | free (addr size : Word)
  | reserve (addr size : Word)

def Operation.Takes (physMemoryEnd : Word) (c c' : PhysmemCtrl) : Operation → Prop
  | alloc size option => ∃ paddr, c.allocSub physMemoryEnd none size option = .ok (paddr,c')
  | free addr size => ∃ paddr, c.free (some addr) size = .ok (paddr,c')
  | reserve addr size => ∃ fuel, c.reserve fuel addr size = some (.ok c')

def Operation.Hits (c : PhysmemCtrl) : Operation → Prop
  | free addr size => Inside c.allocatedArea addr size
  | _ => True

def Operation.MissKept (c c' : PhysmemCtrl) : Operation → Prop
  | free addr size => ¬ Inside c.allocatedArea addr size →
    c'.allocatedArea = c.allocatedArea ∧ outstanding c' = outstanding c
  | _ => True

structure Change where
  operation : Operation
  before : PhysmemCtrl
  after : PhysmemCtrl

inductive Trace (physMemoryEnd : Word) : PhysmemCtrl → List Change → PhysmemCtrl → Prop
  | nil (c : PhysmemCtrl) : Trace physMemoryEnd c [] c
  | cons {c c' d : PhysmemCtrl} {o : Operation} {es : List Change} :
    o.Takes physMemoryEnd c c' → Trace physMemoryEnd c' es d →
    Trace physMemoryEnd c (⟨o,c,c'⟩ :: es) d

section
variable {c c' d : PhysmemCtrl} {top addr size : Word} {op : Operation}

lemma contains_of_inside {a : AllocatedArea}
    (hin : lo a ≤ addr.toNat ∧ addr.toNat + size.toNat ≤ hi a) :
    PhysmemCtrl.contains addr size a = true :=
  (contains_iff (inside_sum hin.2)).mpr hin

lemma free_hit_conserved (h : Conserved c)
    (hin : Inside c.allocatedArea addr size) (hca : c.free (some addr) size = .ok (pa,c')) :
    Conserved c' := by
  obtain ⟨_,⟨hn,_⟩ | ⟨i,area,_,hi,rfl⟩⟩ := free_cases hca
  · obtain ⟨a,ha,hc⟩ := hin
    have hno := findIdx?_eq_none_iff.mp hn a ha
    rw [contains_of_inside hc] at hno
    cases hno
  · exact freeFrom_conserved h hi

lemma freeFrom_changes {newarea : ℕ} (hsi : 0 < size) (hi : c.allocatedArea[i]? = some area) :
    (c.freeFrom i area newarea addr size).allocatedArea ≠ c.allocatedArea := by
  have hne : ∀ w, w + size ≠ w := by
    intro w heq
    have hz := BitVec.add_right_eq_self.mp heq
    rw [hz] at hsi
    exact absurd hsi (by decide)
  intro heq
  obtain ⟨pre,post,hs,rfl⟩ := Positions.split_at hi
  unfold freeFrom at heq
  split_ifs at heq with hst he
  · have hl := setStart_at
      (c := {c with areaBuffer := c.areaBuffer.free newarea}) hs (area.startAddr + size)
    rw [hl,hs] at heq
    have hsa := congrArg startAddr (List.cons.inj (append_cancel_left heq)).1
    exact hne _ hsa
  · have hl := setEnd_at (c := {c with areaBuffer := c.areaBuffer.free newarea}) hs addr
    rw [hl,hs] at heq
    have hsa := congrArg endAddr (List.cons.inj (append_cancel_left heq)).1
    exact hne addr (he.symm.trans hsa.symm)
  · have hle := congrArg List.length heq
    rw [linkAfter_at (setEnd_at hs addr),hs] at hle
    simp at hle

lemma free_miss_changes (h : Conserved c) (hc : c.free (some addr) size = .ok (pa,c')) :
    ¬ (c'.allocatedArea = c.allocatedArea ∧ outstanding c' = outstanding c) := by
  rintro ⟨hl,ho⟩
  obtain ⟨hs,⟨_,rfl⟩ | ⟨i,area,_,hi,rfl⟩⟩ := free_cases hc
  · have hf : c.areaBuffer.taken ∉ c.areaBuffer.returned := fun hm =>
      absurd ((conserved_mem h).mpr (.inr hm)) (Nat.lt_irrefl _)
    have hn : c.areaBuffer.taken ∈ outstanding {c with areaBuffer := c.areaBuffer.alloc.2} :=
      ⟨Nat.lt_succ_self _,hf⟩
    rw [ho] at hn
    exact absurd hn.1 (Nat.lt_irrefl _)
  · exact freeFrom_changes (c := {c with areaBuffer := c.areaBuffer.alloc.2}) hs hi hl

lemma hits_conserved (h : Conserved c) (hh : op.Hits c) (ht : op.Takes top c c') :
    Conserved c' := by
  cases op with
  | alloc size option =>
    obtain ⟨pa,hc⟩ := ht
    exact allocSub_conserved h hc
  | free addr size =>
    obtain ⟨pa,hc⟩ := ht
    exact free_hit_conserved h hh hc
  | reserve addr size =>
    obtain ⟨fuel,hc⟩ := ht
    exact reserve_conserved h hc

lemma missKept_iff (h : Conserved c) (ht : op.Takes top c c') :
    op.MissKept c c' ↔ op.Hits c := by
  cases op with
  | alloc size option => exact Iff.rfl
  | reserve addr size => exact Iff.rfl
  | free addr size =>
    obtain ⟨pa,hc⟩ := ht
    constructor
    · intro hm
      by_contra ho
      exact free_miss_changes h hc (hm ho)
    · exact absurd

theorem nodes_kept_iff {physMemoryEnd : Word} {es : List Change} (h : Conserved c)
    (htrace : Trace physMemoryEnd c es d) :
    (∀ e ∈ es, Accounted e.after ∧ e.operation.MissKept e.before e.after) ↔
      ∀ e ∈ es, e.operation.Hits e.before := by
  induction htrace with
  | nil c => simp
  | @cons c c' d op es ht _ ih =>
    rw [forall_mem_cons,forall_mem_cons]
    constructor
    · rintro ⟨⟨_,hm⟩,hr⟩
      have hh := (missKept_iff h ht).mp hm
      exact ⟨hh,(ih (hits_conserved h hh ht)).mp hr⟩
    · rintro ⟨hh,hr⟩
      have hn := hits_conserved h hh ht
      exact ⟨⟨conserved_accounted hn,(missKept_iff h ht).mpr hh⟩,(ih hn).mpr hr⟩

end

def bootNodes : PhysmemCtrl := bootCtrl [⟨0,0,0x600000⟩]

lemma bootNodes_conserved : Conserved bootNodes := kept_single .linked rfl fun place hne => by
    cases place with
    | linked => exact absurd rfl hne
    | returned => rfl

theorem nodes_kept_boot : ∃ es d, Trace 0x100000000 bootNodes es d ∧ es.length = 2 ∧
    ((∀ e ∈ es, Accounted e.after ∧ e.operation.MissKept e.before e.after) ↔
      ∀ e ∈ es, e.operation.Hits e.before) := by
  have ht : ∃ es d, Trace 0x100000000 bootNodes es d ∧ es.length = 2 :=
    ⟨_,_,.cons (o := .alloc 0x1000 ⟨1,false⟩) ⟨_,rfl⟩
      (.cons (o := .free 0x5000 0x1000) ⟨_,rfl⟩ (.nil _)),rfl⟩
  obtain ⟨es,d,ht,hl⟩ := ht
  exact ⟨es,d,ht,hl,nodes_kept_iff bootNodes_conserved ht⟩

theorem free_leaks_node : ∃ c' paddr, bootNodes.free (some 0x800000) 0x1000 = .ok (paddr,c') ∧
    ¬ Inside bootNodes.allocatedArea 0x800000 0x1000 ∧ c'.areaBuffer.taken = 2 ∧
    1 ∉ nodes c'.allocatedArea ∧ 1 ∉ c'.areaBuffer.returned ∧
    1 ∉ outstanding bootNodes ∧ 1 ∈ outstanding c' := by
  refine ⟨_,_,rfl,?_,rfl,by decide,by decide,?_,?_⟩
  · rintro ⟨a,ha,_,he⟩
    cases mem_singleton.mp ha
    exact absurd he (by decide)
  · exact fun hm => absurd hm.1 (by decide)
  · exact ⟨by decide,by decide⟩

end Physmem
