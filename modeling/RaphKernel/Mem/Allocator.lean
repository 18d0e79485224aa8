import Mathlib.Data.List.Perm.Basic
import Mathlib.Data.List.Nodup
import RaphKernel.Raph

namespace Allocators
open Raph List

structure Entry where
  container : ℕ
  index : Fin 64
  deriving DecidableEq, Repr

structure Container where
  addr : ℕ
  flag : Word
  deriving DecidableEq, Repr

structure Allocator where
  list : List Container
  extended : ℕ
  deriving DecidableEq, Repr

def initial : Allocator := ⟨[⟨0,0⟩],0⟩

def full (flag : Word) : Bool := ~~~flag == 0

def freeMask (index : Fin 64) : Word :=
  (~~~((1 : BitVec 32) <<< (index.val % 32))).signExtend 64

def freeLoop (data : Entry) : List Container → List Container → Except Panic (List Container)
  | _, [] => .error .kassert
  | before, cur :: rest =>
    if cur.addr = data.container then
      let cur' := { cur with flag := cur.flag &&& freeMask data.index }
      if full cur.flag && !before.isEmpty then .ok (cur' :: (before ++ rest))
      else .ok (before ++ cur' :: rest)
    else freeLoop data (before ++ [cur]) rest

def firstClear (flag : Word) : ℕ → ℕ
  | 0 => 64
  | n + 1 => if flag &&& (1 : Word) <<< (63 - n) = 0 then 63 - n else firstClear flag n

def rotate (tmp : Container) : List Container → List Container
  | [] => [tmp]
  | [cur] => [cur,tmp]
  | cur :: next :: rest =>
    if full next.flag then cur :: tmp :: next :: rest else cur :: rotate tmp (next :: rest)

namespace Allocator

def free (a : Allocator) (data : Entry) : Except Panic Allocator := do
  let list ← freeLoop data [] a.list
  return { a with list := list }

def extend (virtmem : Bool) (a : Allocator) (entry : Entry) :
    Except Panic (Option Entry × Allocator) := do
  kassert virtmem
  return (some entry,⟨⟨a.extended + 1,0⟩ :: a.list,a.extended + 1⟩)

def alloc (virtmem : Bool) (a : Allocator) : Option (Except Panic (Option Entry × Allocator)) :=
  match a.list with
  | [] => some (.error .nullPointer)
  | head :: rest =>
    if full head.flag then none
    else if h : firstClear head.flag 64 < 64 then
      let rval : Entry := ⟨head.addr,⟨firstClear head.flag 64,h⟩⟩
      let head' := { head with flag := head.flag ||| (1 : Word) <<< firstClear head.flag 64 }
      if full head'.flag then
        match rest with
        | [] => some (extend virtmem { a with list := [head'] } rval)
        | next :: tail =>
          if full next.flag then
            some (extend virtmem { a with list := head' :: next :: tail } rval)
          else some (.ok (some rval,{ a with list := rotate head' (next :: tail) }))
      else some (.ok (some rval,{ a with list := head' :: rest }))
    else some (.ok (none,a))

end Allocator

section
variable {flag : Word} {i : ℕ}

lemma bit_clear_iff (hi : i < 64) : flag &&& (1 : Word) <<< i = 0 ↔ flag.getLsbD i = false := by
  have hp : (1 : Word) <<< i = BitVec.twoPow 64 i := (BitVec.twoPow_eq 64 i).symm
  rw [hp,BitVec.and_twoPow]
  cases hb : flag.getLsbD i with
  | false => simp
  | true =>
    refine iff_of_false ?_ (by simp)
    intro hz
    have hbi := congrArg (fun w : Word => w.getLsbD i) hz
    simp [hi] at hbi

lemma full_iff : full flag = true ↔ ∀ i < 64, flag.getLsbD i = true := by
  unfold full
  rw [beq_iff_eq]
  constructor
  · intro h i hi
    have hb := congrArg (fun w : Word => w.getLsbD i) h
    simpa [hi] using hb
  · intro h
    refine BitVec.eq_of_getLsbD_eq fun i hi => ?_
    simp [hi,h i hi]

lemma getLsbD_set (hi : i < 64) (j : ℕ) :
    (flag ||| (1 : Word) <<< i).getLsbD j = true ↔ flag.getLsbD j = true ∨ j = i := by
  have hp : (1 : Word) <<< i = BitVec.twoPow 64 i := (BitVec.twoPow_eq 64 i).symm
  rw [hp,BitVec.getLsbD_or,BitVec.getLsbD_twoPow,Bool.or_eq_true,Bool.and_eq_true,
    decide_eq_true_eq,decide_eq_true_eq]
  exact or_congr_right ⟨fun h => h.2.symm,fun h => ⟨hi,h.symm⟩⟩

lemma getLsbD_freeMask (index : Fin 64) (hi : i < 64) : (freeMask index).getLsbD i = true ↔
      if index.val % 32 = 31 then i < 31 else i ≠ index.val % 32 := by
  have hm : index.val % 32 < 32 := Nat.mod_lt _ (by norm_num)
  have hp : (1 : BitVec 32) <<< (index.val % 32) = BitVec.twoPow 32 (index.val % 32) :=
    (BitVec.twoPow_eq 32 _).symm
  unfold freeMask
  rw [hp,BitVec.getLsbD_signExtend,BitVec.msb_not,BitVec.msb_eq_getLsbD_last,BitVec.getLsbD_not,
    BitVec.getLsbD_twoPow,BitVec.getLsbD_twoPow]
  split <;> split <;> simp [hi,hm] <;> omega

lemma firstClear_cases (flag : Word) (n : ℕ) (hn : n ≤ 64) :
    (firstClear flag n < 64 ∧ flag.getLsbD (firstClear flag n) = false) ∨
      (firstClear flag n = 64 ∧ ∀ j, 64 - n ≤ j → j < 64 → flag.getLsbD j = true) := by
  induction n with
  | zero =>
    refine .inr ⟨rfl,?_⟩
    intro j hj hlt
    omega
  | succ n ih =>
    have hlt : 63 - n < 64 := by omega
    unfold firstClear
    split
    · rename_i hb
      exact .inl ⟨hlt,(bit_clear_iff hlt).mp hb⟩
    · rename_i hb
      rcases ih (by omega) with hf | ⟨hno,ha⟩
      · exact .inl hf
      · refine .inr ⟨hno,?_⟩
        intro j hj hj'
        rcases Nat.eq_or_lt_of_le hj with he | _
        · have hs := mt (bit_clear_iff hlt).mpr hb
          have hj63 : j = 63 - n := by omega
          rw [hj63]
          simpa using hs
        · exact ha j (by omega) hj'

lemma firstClear_spec (h : full flag = false) :
    firstClear flag 64 < 64 ∧ flag.getLsbD (firstClear flag 64) = false := by
  rcases firstClear_cases flag 64 le_rfl with hfo | ⟨_,ha⟩
  · exact hfo
  · have hf := full_iff.mpr fun i hi => ha i (by omega) hi
    rw [h] at hf
    cases hf

end

def Marked (list : List Container) (e : Entry) : Prop :=
  ∃ k ∈ list, k.addr = e.container ∧ k.flag.getLsbD e.index = true

instance (list : List Container) (e : Entry) : Decidable (Marked list e) :=
  inferInstanceAs (Decidable (∃ k ∈ list, _))

def InUse (a : Allocator) (e : Entry) : Prop := Marked a.list e

instance (a : Allocator) (e : Entry) : Decidable (InUse a e) :=
  inferInstanceAs (Decidable (Marked a.list e))

def FreeExact (a : Allocator) (e : Entry) : Prop :=
  e.index.val < 31 ∨ e.index.val % 32 = 31 ∧
    ∀ i : Fin 64, 31 ≤ i.val → i ≠ e.index → ¬ InUse a ⟨e.container,i⟩

structure AllocatorOk (a : Allocator) : Prop where
  distinct : (a.list.map Container.addr).Nodup
  known : ∀ k ∈ a.list, k.addr ≤ a.extended
  ready : ∃ head rest, a.list = head :: rest ∧ full head.flag = false

section
variable {k : Container} {l l₁ l₂ : List Container} {e x : Entry}

lemma marked_perm (h : l₁.Perm l₂) : Marked l₁ e ↔ Marked l₂ e :=
  exists_congr fun _ => and_congr_left fun _ => h.mem_iff

lemma marked_cons : Marked (k :: l) e ↔
    (k.addr = e.container ∧ k.flag.getLsbD e.index = true) ∨ Marked l e := by
  simp [Marked]

lemma not_marked (hd : ((k :: l).map Container.addr).Nodup) (he : k.addr = e.container) :
    ¬ Marked l e := by
  rintro ⟨k',hk',ha,_⟩
  refine (nodup_cons.mp hd).1 ?_
  rw [he,← ha]
  exact List.mem_map_of_mem hk'

lemma marked_fresh (n : ℕ) : Marked (⟨n,0⟩ :: l) e ↔ Marked l e := by
  rw [marked_cons]
  simp

lemma marked_set {i : ℕ} (hi : i < 64) :
    Marked ({ k with flag := k.flag ||| (1 : Word) <<< i } :: l) x ↔
      Marked (k :: l) x ∨ x = ⟨k.addr,⟨i,hi⟩⟩ := by
  rw [marked_cons,marked_cons,getLsbD_set hi]
  obtain ⟨c,j⟩ := x
  simp only [Entry.mk.injEq,Fin.ext_iff]
  grind

lemma marked_free {index : Fin 64} (hd : ((k :: l).map Container.addr).Nodup) :
    Marked ({ k with flag := k.flag &&& freeMask index } :: l) x ↔
      Marked (k :: l) x ∧ (k.addr = x.container → (freeMask index).getLsbD x.index = true) := by
  rw [marked_cons,marked_cons,BitVec.getLsbD_and,Bool.and_eq_true]
  by_cases hc : k.addr = x.container
  · have hn := not_marked hd hc
    simp [hc,hn]
  · simp [hc]

lemma rotate_perm (tmp : Container) (l : List Container) : (rotate tmp l).Perm (tmp :: l) := by
  induction l with
  | nil => exact .refl _
  | cons cur rest ih =>
    cases rest with
    | nil => exact .swap _ _ _
    | cons next rest =>
      unfold rotate
      split
      · exact .swap _ _ _
      · exact (Perm.cons cur ih).trans (.swap _ _ _)

lemma rotate_cons (tmp cur : Container) (l : List Container) :
    ∃ rest, rotate tmp (cur :: l) = cur :: rest := by
  cases l with
  | nil => exact ⟨_,rfl⟩
  | cons next l =>
    unfold rotate
    split
    · exact ⟨_,rfl⟩
    · exact ⟨_,rfl⟩

end

section
variable {a c : Allocator} {e : Entry} {virtmem : Bool}

lemma AllocatorOk.of_perm {k k' : Container} {l l' : List Container} {head : Container}
    {rest : List Container} (h : AllocatorOk a) (hl : a.list.Perm (k :: l))
    (hk : k'.addr = k.addr) (hl' : l'.Perm (k' :: l)) (hr : l' = head :: rest)
    (hf : full head.flag = false) : AllocatorOk { a with list := l' } := by
  have ha : (l'.map Container.addr).Perm (a.list.map Container.addr) := by
    refine (hl'.map _).trans (Perm.trans ?_ (hl.map _).symm)
    rw [map_cons,map_cons,hk]
  refine ⟨ha.nodup_iff.mpr h.distinct,?_,head,rest,hr,hf⟩
  intro x hx
  rcases mem_cons.mp (hl'.mem_iff.mp hx) with rfl | hx
  · exact hk ▸ h.known k (hl.mem_iff.mpr (by simp))
  · exact h.known x (hl.mem_iff.mpr (by simp [hx]))

lemma AllocatorOk.extended (hd : (a.list.map Container.addr).Nodup)
    (hk : ∀ k ∈ a.list, k.addr ≤ a.extended) :
    AllocatorOk ⟨⟨a.extended + 1,0⟩ :: a.list,a.extended + 1⟩ := by
  have he : full 0 = false := by decide
  refine ⟨nodup_cons.mpr ⟨?_,hd⟩,?_,_,_,rfl,he⟩
  · intro hm
    obtain ⟨k,hm,ha⟩ := List.mem_map.mp hm
    have hle := hk k hm
    rw [ha] at hle
    exact absurd hle (Nat.not_succ_le_self _)
  · intro k hm
    rcases mem_cons.mp hm with rfl | hm
    · exact le_rfl
    · exact (hk k hm).trans (Nat.le_succ _)

lemma extend_ok {p : Option Entry} (h : a.extend virtmem e = .ok (p,c)) :
    p = some e ∧ c = ⟨⟨a.extended + 1,0⟩ :: a.list,a.extended + 1⟩ := by
  obtain ⟨_,h⟩ := kassert_bind_ok.mp h
  cases h
  exact ⟨rfl,rfl⟩

structure Allocated (a : Allocator) (p : Option Entry) (c : Allocator) : Prop where
  returned : ∃ e, p = some e ∧ ¬ InUse a e ∧ ∀ x, InUse c x ↔ InUse a x ∨ x = e
  ok : AllocatorOk c

lemma AllocatorOk.alloc (h : AllocatorOk a) (virtmem : Bool) :
    ∃ r, a.alloc virtmem = some r ∧ ∀ p c, r = .ok (p,c) → Allocated a p c := by
  obtain ⟨head,rest,hl,hr⟩ := h.ready
  obtain ⟨hi,hcl⟩ := firstClear_spec hr
  have hd := h.distinct
  rw [hl] at hd
  let i := firstClear head.flag 64
  let rval : Entry := ⟨head.addr,⟨i,hi⟩⟩
  let head' : Container := { head with flag := head.flag ||| (1 : Word) <<< i }
  have ha : head'.addr = head.addr := rfl
  have hfr : ¬ InUse a rval := by
    unfold InUse
    rw [hl,marked_cons]
    rintro (⟨_,hb⟩ | hm)
    · exact absurd (hcl.symm.trans hb) (by simp)
    · exact not_marked hd rfl hm
  have hma : ∀ x, Marked (head' :: rest) x ↔ InUse a x ∨ x = rval := by
    intro x
    unfold InUse
    rw [hl]
    exact marked_set hi
  have hp : a.list.Perm (head :: rest) := hl ▸ Perm.refl _
  have hex : ∀ p c, Allocator.extend virtmem { a with list := head' :: rest } rval = .ok (p,c) →
      Allocated a p c := by
    intro p c he
    obtain ⟨rfl,rfl⟩ := extend_ok he
    refine ⟨⟨rval,rfl,hfr,fun x => (marked_fresh _).trans (hma x)⟩,?_⟩
    refine AllocatorOk.extended (a := { a with list := head' :: rest }) hd ?_
    intro k hk
    rcases mem_cons.mp hk with rfl | hk
    · exact h.known head (hp.mem_iff.mpr (by simp))
    · exact h.known k (hp.mem_iff.mpr (by simp [hk]))
  unfold Allocator.alloc
  simp only [hl,hr,Bool.false_eq_true,if_false,dif_pos hi]
  by_cases hf : full head'.flag = true
  · rw [if_pos hf]
    cases rest with
    | nil => exact ⟨_,rfl,hex⟩
    | cons next tail =>
      by_cases hn : full next.flag = true
      · simp only [hn,if_true]
        exact ⟨_,rfl,hex⟩
      · simp only [hn]
        refine ⟨_,rfl,?_⟩
        intro p c hc
        cases hc
        have hro := rotate_perm head' (next :: tail)
        obtain ⟨rest',hco⟩ := rotate_cons head' next tail
        refine ⟨⟨rval,rfl,hfr,fun x => (marked_perm hro).trans (hma x)⟩,?_⟩
        exact h.of_perm hp ha hro hco (by simpa using hn)
  · rw [if_neg hf]
    refine ⟨_,rfl,?_⟩
    intro p c hc
    cases hc
    refine ⟨⟨rval,rfl,hfr,hma⟩,?_⟩
    exact h.of_perm hp ha (.refl _) rfl (Bool.eq_false_iff.mpr hf)

lemma freeLoop_found {data : Entry} {l : List Container}
    (h : ∃ k ∈ l, k.addr = data.container) (before : List Container) :
    ∃ pre k post, l = pre ++ k :: post ∧ k.addr = data.container ∧
      freeLoop data before l = .ok (if full k.flag && !(before ++ pre).isEmpty
        then { k with flag := k.flag &&& freeMask data.index } :: (before ++ pre ++ post)
        else before ++ pre ++ { k with flag := k.flag &&& freeMask data.index } :: post) := by
  induction l generalizing before with
  | nil => simp at h
  | cons cur rest ih =>
    unfold freeLoop
    by_cases hc : cur.addr = data.container
    · refine ⟨[],cur,rest,rfl,hc,?_⟩
      rw [if_pos hc,append_nil]
      split <;> rfl
    · have hr : ∃ k ∈ rest, k.addr = data.container := by
        obtain ⟨k,hk,ha⟩ := h
        rcases mem_cons.mp hk with rfl | hk
        · exact absurd ha hc
        · exact ⟨k,hk,ha⟩
      obtain ⟨pre,k,post,rfl,ha,hl⟩ := ih hr _
      refine ⟨cur :: pre,k,post,rfl,ha,?_⟩
      rw [if_neg hc,hl]
      simp only [List.append_assoc,singleton_append]

lemma freeMask_clears (index : Fin 64) : ∃ i < 64, (freeMask index).getLsbD i = false := by
  have hm : index.val % 32 < 32 := Nat.mod_lt _ (by norm_num)
  refine ⟨index.val % 32,by omega,?_⟩
  rw [← Bool.not_eq_true,getLsbD_freeMask index (by omega)]
  split <;> omega

lemma full_freed (flag : Word) (index : Fin 64) : full (flag &&& freeMask index) = false := by
  obtain ⟨i,hi,hc⟩ := freeMask_clears index
  rw [← Bool.not_eq_true,full_iff]
  intro ha
  have hb := ha i hi
  rw [BitVec.getLsbD_and,hc,Bool.and_false] at hb
  cases hb

structure Freed (a : Allocator) (e : Entry) (c : Allocator) : Prop where
  marked : ∀ x, InUse c x ↔
    InUse a x ∧ (e.container = x.container → (freeMask e.index).getLsbD x.index = true)
  ok : AllocatorOk c

lemma AllocatorOk.free (h : AllocatorOk a) (he : InUse a e) : ∃ c, a.free e = .ok c ∧ Freed a e c := by
  obtain ⟨k,hk,ha,_⟩ := he
  obtain ⟨pre,k,post,hli,ha,hl⟩ := freeLoop_found ⟨k,hk,ha⟩ []
  simp only [nil_append] at hl
  let k' : Container := { k with flag := k.flag &&& freeMask e.index }
  have hp : a.list.Perm (k :: (pre ++ post)) := hli ▸ perm_middle
  have hd : ((k :: (pre ++ post)).map Container.addr).Nodup := (hp.map _).nodup_iff.mp h.distinct
  have hm : ∀ l', l'.Perm (k' :: (pre ++ post)) → ∀ x, Marked l' x ↔
      InUse a x ∧ (e.container = x.container → (freeMask e.index).getLsbD x.index = true) := by
    intro l' hl' x
    rw [marked_perm hl',InUse,marked_perm hp,← ha]
    exact marked_free hd
  have hs : k'.addr = k.addr := rfl
  have hf : a.free e = .ok { a with list := if full k.flag && !pre.isEmpty
      then k' :: (pre ++ post) else pre ++ k' :: post } := by
    unfold Allocator.free
    rw [hl]
    rfl
  refine ⟨_,hf,?_⟩
  split
  · exact ⟨hm _ (.refl _),h.of_perm hp hs (.refl _) rfl (full_freed _ _)⟩
  · refine ⟨hm _ perm_middle,?_⟩
    cases pre with
    | nil => exact h.of_perm hp hs (.refl _) rfl (full_freed _ _)
    | cons head pre =>
      obtain ⟨_,rest',hr,hfu⟩ := h.ready
      obtain ⟨rfl,_⟩ := List.cons.inj (hr.symm.trans hli)
      exact h.of_perm hp hs perm_middle rfl hfu

lemma mask_exact_iff (index : Fin 64) (used : Fin 64 → Prop) (hus : used index) :
    (∀ i, used i → ((freeMask index).getLsbD i = true ↔ i ≠ index)) ↔
      index.val < 31 ∨ index.val % 32 = 31 ∧ ∀ i, 31 ≤ i.val → i ≠ index → ¬ used i := by
  have hb : ∀ i : Fin 64, (freeMask index).getLsbD i = true ↔
      if index.val % 32 = 31 then i.val < 31 else i.val ≠ index.val % 32 :=
    fun i => getLsbD_freeMask index i.isLt
  constructor
  · intro h
    by_cases hm : index.val % 32 = 31
    · refine .inr ⟨hm,?_⟩
      intro i _ hne hu
      have hlt := (h i hu).mpr hne
      rw [hb,if_pos hm] at hlt
      omega
    · have hs := h index hus
      rw [hb,if_neg hm] at hs
      simp only [ne_eq,not_true_eq_false,iff_false,not_not] at hs
      exact .inl (by omega)
  · rintro (hlt | ⟨hm,hc⟩) i hu
    · rw [hb,if_neg (by omega),ne_eq,ne_eq,Fin.ext_iff,Nat.mod_eq_of_lt (by omega)]
    · rw [hb,if_pos hm]
      constructor
      · rintro _ rfl
        omega
      · intro hne
        by_contra hge
        exact hc i (by omega) hne hu

lemma free_exact_iff (h : AllocatorOk a) (he : InUse a e) :
    (∃ c, a.free e = .ok c ∧ ∀ x, InUse c x ↔ InUse a x ∧ x ≠ e) ↔ FreeExact a e := by
  obtain ⟨c,hc,hf⟩ := h.free he
  have hm := mask_exact_iff e.index (fun i => InUse a ⟨e.container,i⟩) he
  rw [FreeExact,← hm]
  constructor
  · rintro ⟨c',hc',ha⟩ i hi
    obtain rfl := Except.ok.inj (hc.symm.trans hc')
    have hx := ha ⟨e.container,i⟩
    rw [hf.marked] at hx
    constructor
    · rintro hb rfl
      exact (hx.mp ⟨hi,fun _ => hb⟩).2 rfl
    · intro hne
      refine (hx.mpr ⟨hi,?_⟩).2 rfl
      intro heq
      exact hne (congrArg Entry.index heq)
  · intro hex
    refine ⟨c,hc,?_⟩
    intro x
    rw [hf.marked]
    refine and_congr_right fun hx => ?_
    by_cases hco : e.container = x.container
    · obtain ⟨cx,ix⟩ := x
      obtain rfl : e.container = cx := hco
      have hi := hex ix hx
      simp only [forall_const,hi]
      refine not_congr ⟨?_,?_⟩
      · rintro rfl
        rfl
      · intro heq
        exact congrArg Entry.index heq
    · refine iff_of_true (fun h => absurd h hco) ?_
      rintro rfl
      exact hco rfl

end

inductive Request where
  | alloc (virtmem : Bool)
  | free (data : Entry)

structure Session where
  ctrl : Allocator
  live : List Entry
  deriving DecidableEq

namespace Session

def boot : Session := ⟨initial,[]⟩

def step (s : Session) : Request → Option Session
  | .alloc virtmem =>
    match s.ctrl.alloc virtmem with
    | some (.ok (some e,c)) => some ⟨c,e :: s.live⟩
    | _ => none
  | .free data =>
    if data ∈ s.live then
      match s.ctrl.free data with
      | .ok c => some ⟨c,s.live.erase data⟩
      | .error _ => none
    else none

def Permitted (s : Session) : Request → Prop
  | .alloc _ => True
  | .free data => FreeExact s.ctrl data

def Steps (s t : Session) : Prop := ∃ r, s.Permitted r ∧ s.step r = some t

structure Sound (s : Session) : Prop where
  ok : AllocatorOk s.ctrl
  inUse : ∀ e, InUse s.ctrl e ↔ e ∈ s.live
  nodup : s.live.Nodup

variable {s t : Session}

lemma sound_boot : Sound boot := by
  refine ⟨⟨by decide,by decide,_,_,rfl,by decide⟩,?_,nodup_nil⟩
  intro e
  simp [InUse,boot,initial,Marked]

lemma step_alloc {virtmem : Bool} (h : s.step (.alloc virtmem) = some t) :
    ∃ e, s.ctrl.alloc virtmem = some (.ok (some e,t.ctrl)) ∧ t.live = e :: s.live := by
  simp only [step] at h
  split at h
  · rename_i e c ha
    cases h
    exact ⟨e,ha,rfl⟩
  · cases h

lemma step_free {data : Entry} (h : s.step (.free data) = some t) :
    data ∈ s.live ∧ s.ctrl.free data = .ok t.ctrl ∧ t.live = s.live.erase data := by
  simp only [step] at h
  split at h
  · rename_i hl
    split at h
    · rename_i c hf
      cases h
      exact ⟨hl,hf,rfl⟩
    · cases h
  · cases h

lemma Sound.step {r : Request} (h : Sound s) (hp : s.Permitted r) (hs : s.step r = some t) :
    Sound t := by
  cases r with
  | alloc virtmem =>
    obtain ⟨e,ha,hl⟩ := step_alloc hs
    obtain ⟨r,hr,hal⟩ := h.ok.alloc virtmem
    obtain rfl := Option.some.inj (hr.symm.trans ha)
    obtain ⟨⟨e',he,hfr,hm⟩,hok⟩ := hal _ _ rfl
    obtain rfl := Option.some.inj he
    refine ⟨hok,?_,?_⟩
    · intro x
      rw [hm,hl,mem_cons,h.inUse,or_comm]
    · rw [hl,nodup_cons]
      exact ⟨fun hme => hfr ((h.inUse e).mpr hme),h.nodup⟩
  | free data =>
    obtain ⟨hme,hf,hl⟩ := step_free hs
    have hu := (h.inUse data).mpr hme
    obtain ⟨c,hc,hm⟩ := (free_exact_iff h.ok hu).mpr hp
    obtain ⟨c',hc',hfe⟩ := h.ok.free hu
    obtain rfl := Except.ok.inj (hc.symm.trans hf)
    obtain rfl := Except.ok.inj (hc'.symm.trans hf)
    refine ⟨hfe.ok,?_,hl ▸ h.nodup.erase data⟩
    intro x
    rw [hm,hl,h.nodup.mem_erase_iff,h.inUse,and_comm]

lemma Sound.run (h : Sound s) (hr : Relation.ReflTransGen Steps s t) : Sound t := by
  induction hr with
  | refl => exact h
  | tail _ hst ih =>
    obtain ⟨r,hp,hs⟩ := hst
    exact ih.step hp hs

end Session

theorem allocator_run (s : Session) (hrun : Relation.ReflTransGen Session.Steps Session.boot s) :
    (∀ e, InUse s.ctrl e ↔ e ∈ s.live) ∧ s.live.Nodup ∧
    (∀ virtmem, ∃ r, s.ctrl.alloc virtmem = some r ∧ ∀ p c, r = .ok (p,c) →
      ∃ e, p = some e ∧ e ∉ s.live ∧ ∀ x, InUse c x ↔ InUse s.ctrl x ∨ x = e) ∧
    ∀ e ∈ s.live, ((∃ c, s.ctrl.free e = .ok c ∧ ∀ x, InUse c x ↔ InUse s.ctrl x ∧ x ≠ e) ↔
      FreeExact s.ctrl e) := by
  have h := Session.sound_boot.run hrun
  refine ⟨h.inUse,h.nodup,?_,?_⟩
  · intro virtmem
    obtain ⟨r,hr,ha⟩ := h.ok.alloc virtmem
    refine ⟨r,hr,?_⟩
    intro p c hc
    obtain ⟨e,he,hf,hm⟩ := (ha p c hc).returned
    exact ⟨e,he,fun hme => hf ((h.inUse e).mpr hme),hm⟩
  · intro e he
    exact free_exact_iff h.ok ((h.inUse e).mpr he)

theorem allocator_run_reuse :
    ∃ s, Relation.ReflTransGen Session.Steps Session.boot s ∧ s.live = [⟨0,0⟩] ∧
      ∀ e, InUse s.ctrl e ↔ e ∈ s.live := by
  have h1 : Session.boot.Steps ⟨⟨[⟨0,1⟩],0⟩,[⟨0,0⟩]⟩ := ⟨.alloc true,trivial,by decide⟩
  have h2 : Session.Steps ⟨⟨[⟨0,1⟩],0⟩,[⟨0,0⟩]⟩ ⟨⟨[⟨0,0⟩],0⟩,[]⟩ :=
    ⟨.free ⟨0,0⟩,.inl (by decide),by decide⟩
  have hr : Relation.ReflTransGen Session.Steps Session.boot ⟨⟨[⟨0,1⟩],0⟩,[⟨0,0⟩]⟩ :=
    ((Relation.ReflTransGen.single h1).tail h2).tail h1
  exact ⟨_,hr,rfl,(allocator_run _ hr).1⟩

def held (n : ℕ) : List Entry := (List.range n).reverse.map fun i => ⟨0,Fin.ofNat 64 i⟩

theorem allocator_frees_other :
    ∃ s t, (List.replicate 33 (Request.alloc true)).foldlM Session.step Session.boot = some s ∧
      s.step (.free ⟨0,32⟩) = some t ∧ InUse t.ctrl ⟨0,32⟩ ∧ ⟨0,32⟩ ∉ t.live ∧
      ¬ InUse t.ctrl ⟨0,0⟩ ∧ ⟨0,0⟩ ∈ t.live ∧
      ∃ c, t.ctrl.alloc true = some (.ok (some ⟨0,0⟩,c)) := by
  refine ⟨⟨⟨[⟨0,0x1FFFFFFFF⟩],0⟩,held 33⟩,⟨⟨[⟨0,0x1FFFFFFFE⟩],0⟩,held 32⟩,by decide +kernel,
    by decide +kernel,by decide,by decide,by decide,by decide,⟨[⟨0,0x1FFFFFFFF⟩],0⟩,rfl⟩

end Allocators
