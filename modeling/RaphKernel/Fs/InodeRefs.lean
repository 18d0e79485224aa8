import RaphKernel.Library.Counting
import RaphKernel.Fs.Vfs

namespace Fs.InodeRefs
open Bytes Fallible Counting Function Option Vfs
variable {S A : Type} {v w : Vfs S} {c n d : ℕ} {inum : Word32} {x : BitVec 32} {k : Node}
  {e : Failure} {r : Except Failure Unit}

def pointing (v : Vfs S) (k : Node) : Set ℕ := {c | v.slot c = some (some k)}

structure Counted (v : Vfs S) : Prop where
  refs : ∀ k, ∃ n : ℕ, (pointing v k).encard = n ∧ (v.nodes k).ref.toInt = n

structure Unique (v : Vfs S) : Prop where
  inums : ∀ k l, 0 < (v.nodes k).ref.toInt → 0 < (v.nodes l).ref.toInt →
    (v.nodes k).inum = (v.nodes l).inum → k = l

def Bounded (v : Vfs S) : Prop := ∀ k, (pointing v k).encard < 2 ^ 31

structure RefsOk (v : Vfs S) : Prop where
  refs : ∀ k, Counts v.slot (· = some (some k)) (v.nodes k).ref.toNat
  small : ∀ k, (v.nodes k).ref.toNat < 2 ^ 31
  unique : ∀ k l, (v.nodes k).ref ≠ 0 → (v.nodes l).ref ≠ 0 →
    (v.nodes k).inum = (v.nodes l).inum → k = l

lemma toInt_small (h : x.toNat < 2 ^ 31) : x.toInt = x.toNat :=
  BitVec.toInt_eq_toNat_of_lt (by omega)

lemma toNat_of_toInt (h : x.toInt = n) : x.toNat = n ∧ x.toNat < 2 ^ 31 := by
  have hlt := x.isLt
  rw [BitVec.toInt_eq_toNat_cond] at h
  split_ifs at h with hc
  · omega
  · omega

lemma ref_pos (h : x.toNat < 2 ^ 31) : 0 < x.toInt ↔ x ≠ 0 := by
  rw [toInt_small h]
  constructor
  · rintro hp rfl
    exact absurd hp (by decide)
  · intro hne
    have hn := toNat_pos hne
    omega

lemma refsOk_iff : RefsOk v ↔ Counted v ∧ Unique v := by
  constructor
  · intro h
    refine ⟨⟨fun k => ⟨_,h.refs k,toInt_small (h.small k)⟩⟩,⟨fun k l hk hl => ?_⟩⟩
    exact h.unique k l ((ref_pos (h.small k)).mp hk) ((ref_pos (h.small l)).mp hl)
  · rintro ⟨hc,hu⟩
    have hs : ∀ k, (v.nodes k).ref.toNat < 2 ^ 31 := by
      intro k
      obtain ⟨n,_,hn⟩ := hc.refs k
      exact (toNat_of_toInt hn).2
    refine ⟨fun k => ?_,hs,fun k l hk hl => ?_⟩
    · obtain ⟨n,hca,hn⟩ := hc.refs k
      rw [(toNat_of_toInt hn).1]
      exact hca
    · exact hu.inums k l ((ref_pos (hs k)).mpr hk) ((ref_pos (hs l)).mpr hl)

section
variable {v w : Vfs S} {c : ℕ} {k : Node} {x : Option (Option Node)}

lemma RefsOk.point (hv : RefsOk v) (hx : ∀ k, x = some (some k) ↔ v.slot c = some (some k)) :
    RefsOk (v.point c x) :=
  ⟨fun k => (hv.refs k).stay (hx k),hv.small,hv.unique⟩

def entered (v : Vfs S) (c : ℕ) (k : Node) (node : Inode) : Vfs S :=
  { v.point c (some (some k)) with nodes := update v.nodes k node }

section
variable (hv : RefsOk v)
include hv

lemma RefsOk.enter {nd : Inode} (hc : ∀ l, v.slot c ≠ some (some l))
    (hr : nd.ref.toNat = (v.nodes k).ref.toNat + 1) (hs : nd.ref.toNat < 2 ^ 31)
    (hu : ∀ l, l ≠ k → (v.nodes l).ref ≠ 0 → (v.nodes l).inum ≠ nd.inum) :
    RefsOk (entered v c k nd) := by
  refine ⟨fun l => ?_,fun l => ?_,fun l l' => ?_⟩
  · change Counts (update v.slot c (some (some k))) _ (update v.nodes k nd l).ref.toNat
    by_cases hl : l = k
    · subst hl
      rw [update_self,hr]
      exact (hv.refs l).enter (hc l) rfl
    · rw [update_of_ne hl]
      refine (hv.refs l).stay (iff_of_false (fun heq => hl ?_) (hc l))
      exact (Option.some.inj (Option.some.inj heq)).symm
  · change (update v.nodes k nd l).ref.toNat < 2 ^ 31
    by_cases hl : l = k
    · subst hl
      rw [update_self]
      exact hs
    · rw [update_of_ne hl]
      exact hv.small l
  · change (update v.nodes k nd l).ref ≠ 0 → (update v.nodes k nd l').ref ≠ 0 →
      (update v.nodes k nd l).inum = (update v.nodes k nd l').inum → l = l'
    intro h0 h0' heq
    by_cases hl : l = k
    · by_cases hl' : l' = k
      · exact hl.trans hl'.symm
      · subst hl
        rw [update_of_ne hl'] at h0' heq
        rw [update_self] at heq
        exact absurd heq.symm (hu l' hl' h0')
    · rw [update_of_ne hl] at h0 heq
      by_cases hl' : l' = k
      · subst hl'
        rw [update_self] at heq
        exact absurd heq (hu l hl h0)
      · rw [update_of_ne hl'] at h0' heq
        exact hv.unique l l' h0 h0' heq

lemma RefsOk.ref_ne (hc : v.slot c = some (some k)) : (v.nodes k).ref ≠ 0 := by
  intro h0
  have hp := (hv.refs k).pos hc
  rw [h0] at hp
  exact absurd hp (by decide)

lemma RefsOk.leave (hc : v.slot c = some (some k)) (hx : ∀ l, x ≠ some (some l)) :
    RefsOk ((v.decRef k).point c x) := by
  have hne := hv.ref_ne hc
  have hd := toNat_dec hne
  have hn : ∀ l, ((v.decRef k).point c x).nodes l =
      update v.nodes k { v.nodes k with ref := (v.nodes k).ref - 1 } l := fun _ => rfl
  have hin : ∀ l, (((v.decRef k).point c x).nodes l).inum = (v.nodes l).inum := by
    intro l
    rw [hn]
    by_cases hl : l = k
    · subst hl
      rw [update_self]
    · rw [update_of_ne hl]
  have hle : ∀ l, (((v.decRef k).point c x).nodes l).ref.toNat ≤ (v.nodes l).ref.toNat := by
    intro l
    rw [hn]
    by_cases hl : l = k
    · subst hl
      rw [update_self]
      dsimp only
      omega
    · rw [update_of_ne hl]
  refine ⟨fun l => ?_,fun l => lt_of_le_of_lt (hle l) (hv.small l),fun l l' h0 h0' heq => ?_⟩
  · rw [hn]
    change Counts (update v.slot c x) _ _
    by_cases hl : l = k
    · subst hl
      rw [update_self]
      dsimp only
      rw [hd]
      exact (hv.refs l).leave hc (hx l)
    · rw [update_of_ne hl]
      refine (hv.refs l).stay (iff_of_false (hx l) fun h => hl ?_)
      rw [hc] at h
      exact (Option.some.inj (Option.some.inj h)).symm
  · have hb : ∀ l, (((v.decRef k).point c x).nodes l).ref ≠ 0 → (v.nodes l).ref ≠ 0 := by
      intro l h hz
      have h' := hle l
      rw [hz] at h'
      exact h (BitVec.eq_of_toNat_eq (Nat.le_zero.mp h'))
    rw [hin,hin] at heq
    exact hv.unique l l' (hb l h0) (hb l' h0') heq

lemma RefsOk.release (hx : ∀ l, x ≠ some (some l)) : RefsOk ((v.release c).point c x) := by
  unfold Vfs.release
  split
  · rename_i k hc
    exact hv.leave hc hx
  · rename_i hc
    exact hv.point fun k => iff_of_false (hx k) (hc k)

lemma RefsOk.destroy : RefsOk (v.destroy c) := hv.release (by simp)

lemma RefsOk.construct (hc : v.slot c = none) : RefsOk (v.construct c) := hv.point (by simp [hc])

end

lemma incRef_entered : (v.point c (some (some k))).incRef k =
    entered v c k { v.nodes k with ref := (v.nodes k).ref + 1 } := rfl

lemma RefsOk.incRef (hv : RefsOk v) (hc : ∀ l, v.slot c ≠ some (some l))
    (hne : (v.nodes k).ref ≠ 0) (hb : Bounded ((v.point c (some (some k))).incRef k)) :
    RefsOk ((v.point c (some (some k))).incRef k) := by
  have hs := hv.small k
  have hin : ((v.nodes k).ref + 1).toNat = (v.nodes k).ref.toNat + 1 := toNat_inc
  have hco : (pointing ((v.point c (some (some k))).incRef k) k).encard =
      ((v.nodes k).ref.toNat + 1 : ℕ) := (hv.refs k).enter (hc k) rfl
  have hlt : (v.nodes k).ref.toNat + 1 < 2 ^ 31 := by
    have h := hb k
    rw [hco] at h
    exact_mod_cast h
  rw [incRef_entered]
  refine hv.enter hc hin (hin ▸ hlt) fun l hl h0 heq => hl ?_
  exact hv.unique l k h0 hne heq

lemma same_some (h : v.same inum = some k) : (v.nodes k).ref ≠ 0 ∧ (v.nodes k).inum = inum := by
  have hp := List.find?_some h
  simpa using hp

lemma same_none : v.same inum = none ↔ ∀ k, (v.nodes k).ref ≠ 0 → (v.nodes k).inum ≠ inum := by
  unfold same
  rw [List.find?_eq_none]
  simp

lemma empty_some (h : v.empty = some k) : (v.nodes k).ref = 0 := by
  have hp := List.find?_some h
  simpa using hp

lemma release_node (hne : ∀ l, v.slot c = some (some l) → l ≠ k) :
    (v.release c).nodes k = v.nodes k := by
  unfold release
  split
  · rename_i l hl
    exact update_of_ne (hne l hl).symm _ _
  · rfl

lemma release_inum (l : Node) : ((v.release c).nodes l).inum = (v.nodes l).inum := by
  unfold release
  split
  · rename_i o ho
    change (update v.nodes o { v.nodes o with ref := (v.nodes o).ref - 1 } l).inum = _
    by_cases hl : l = o
    · subst hl
      rw [update_self]
    · rw [update_of_ne hl]
  · rfl

lemma RefsOk.release_ref (hv : RefsOk v) {l : Node} (h0 : (v.nodes l).ref = 0) :
    ((v.release c).nodes l).ref = 0 := by
  rw [release_node fun o ho heq => hv.ref_ne ho (heq ▸ h0)]
  exact h0

lemma RefsOk.initInode (hv : RefsOk v) (h0 : (v.nodes k).ref = 0)
    (hn : ∀ l, (v.nodes l).ref ≠ 0 → (v.nodes l).inum ≠ inum) :
    ∃ w, v.initInode c k inum = .ok w ∧ RefsOk w ∧ (∀ l, (w.nodes l).inum ≠ (v.nodes l).inum → l = k) := by
  have hr := hv.release_ref (c := c) h0
  refine ⟨_,if_pos hr,?_,?_⟩
  · have hw : RefsOk ((v.release c).point c (some none)) := hv.release (by simp)
    have hid : update (update (v.release c).slot c (some none)) c
        (some (some k)) = update (v.release c).slot c (some (some k)) :=
      update_idem ..
    have heq : { (v.release c).point c (some (some k)) with
        nodes := update (v.release c).nodes k ⟨1,inum⟩ } =
        entered ((v.release c).point c (some none)) c k ⟨1,inum⟩ := by
      unfold entered Vfs.point
      dsimp only
      rw [hid]
    rw [heq]
    have ho : (1 : BitVec 32).toNat < 2 ^ 31 := by decide
    refine hw.enter (by simp [Vfs.point]) ?_ ho fun l hl hne heq => ?_
    · change 1 = ((v.release c).nodes k).ref.toNat + 1
      rw [hr]
      rfl
    · change ((v.release c).nodes l).inum = inum at heq
      rw [release_inum] at heq
      refine hn l (fun hz => hne ?_) heq
      exact hv.release_ref hz
  · intro l hl
    by_contra hlk
    refine hl ?_
    change (update (v.release c).nodes k ⟨1,inum⟩ l).inum = _
    rw [update_of_ne hlk,release_inum]

end

inductive Event where
  | construct (c : ℕ)
  | copy (c d : ℕ)
  | assign (c d : ℕ)
  | destroy (c : ℕ)
  | get (c : ℕ) (inum : Word32)
  | quiet

inductive Pc where
  | idle
  | root (tmp c : ℕ) (path : List Byte) (parent : Bool)
  | walk (tmp c : ℕ) (path : List Byte) (parent : Bool)
  | leave (tmp : ℕ)

structure Session (S : Type) where
  vfs : Vfs S
  pc : Pc

inductive Step (fs : DiskFileSystem S) : Session S → Event → Session S → Prop
  | construct (v : Vfs S) (c : ℕ) : v.slot c = none →
      Step fs ⟨v,.idle⟩ (.construct c) ⟨v.construct c,.idle⟩
  | copy (v w : Vfs S) (c d : ℕ) : v.slot c = none → v.copy c d = .ok w →
      Step fs ⟨v,.idle⟩ (.copy c d) ⟨w,.idle⟩
  | assign (v : Vfs S) (c d : ℕ) : v.slot c ≠ none → v.slot d ≠ none →
      Step fs ⟨v,.idle⟩ (.assign c d) ⟨v.assign c d,.idle⟩
  | destroy (v : Vfs S) (c : ℕ) : v.slot c ≠ none →
      Step fs ⟨v,.idle⟩ (.destroy c) ⟨v.destroy c,.idle⟩
  | get (v w : Vfs S) (c : ℕ) (inum : Word32) : v.slot c ≠ none → v.get c inum = .ok w →
      Step fs ⟨v,.idle⟩ (.get c inum) ⟨w,.idle⟩
  | getFull (v : Vfs S) (c : ℕ) (inum : Word32) (e : IoReturnState) : v.slot c ≠ none →
      v.get c inum = .error (.state e) → Step fs ⟨v,.idle⟩ .quiet ⟨v,.idle⟩
  | enter (v : Vfs S) (tmp c : ℕ) (path : List Byte) (parent : Bool) : v.slot tmp = none →
      v.slot c ≠ none → path.head? = some slash →
      Step fs ⟨v,.idle⟩ (.construct tmp) ⟨v.construct tmp,.root tmp c path parent⟩
  | root (v w : Vfs S) (tmp c : ℕ) (path : List Byte) (parent : Bool) :
      v.get tmp fs.rootInodeNum = .ok w →
      Step fs ⟨v,.root tmp c path parent⟩ (.get tmp fs.rootInodeNum) ⟨w,.walk tmp c path parent⟩
  | rootFull (v : Vfs S) (tmp c : ℕ) (path : List Byte) (parent : Bool) (e : IoReturnState) :
      v.get tmp fs.rootInodeNum = .error (.state e) →
      Step fs ⟨v,.root tmp c path parent⟩ .quiet ⟨v,.leave tmp⟩
  | descend (v v₁ v₂ w : Vfs S) (tmp c : ℕ) (path name rest : List Byte) (parent : Bool) (st : Stat)
      (found : ℕ × Word32) : getNextPathNameFromPath path = some (name,rest) →
      withNode tmp fs.getStatOfInode v = (.ok st,v₁) → st.type = .directory →
      ¬ (rest = [] ∧ parent) → withNode tmp (fs.dirLookup · name) v₁ = (.ok found,v₂) →
      v₂.get tmp found.2 = .ok w →
      Step fs ⟨v,.walk tmp c path parent⟩ (.get tmp found.2) ⟨w,.walk tmp c rest parent⟩
  | finish (v : Vfs S) (tmp c : ℕ) (path : List Byte) : getNextPathNameFromPath path = none →
      Step fs ⟨v,.walk tmp c path false⟩ (.assign c tmp) ⟨v.assign c tmp,.leave tmp⟩
  | finishParent (v v₁ : Vfs S) (tmp c : ℕ) (path name : List Byte) (st : Stat) :
      getNextPathNameFromPath path = some (name,[]) →
      withNode tmp fs.getStatOfInode v = (.ok st,v₁) → st.type = .directory →
      Step fs ⟨v,.walk tmp c path true⟩ (.assign c tmp) ⟨v₁.assign c tmp,.leave tmp⟩
  | abort (v w : Vfs S) (tmp c : ℕ) (path : List Byte) (parent : Bool) (e : IoReturnState) :
      iteration fs tmp c path parent v = (.error (.state e),w) →
      Step fs ⟨v,.walk tmp c path parent⟩ .quiet ⟨w,.leave tmp⟩
  | leave (v : Vfs S) (tmp : ℕ) : Step fs ⟨v,.leave tmp⟩ (.destroy tmp) ⟨v.destroy tmp,.idle⟩

def Clean (v : Vfs S) : Event → Prop
  | .assign c d => v.slot c = v.slot d
  | .get c inum => v.slot c = some none ∨ ∀ k, (v.nodes k).ref ≠ 0 → (v.nodes k).inum ≠ inum
  | _ => True

structure StepSound (v w : Vfs S) : Prop where
  counted : Counted w
  unique : Unique w
  reuse : ∀ k, (w.nodes k).inum ≠ (v.nodes k).inum → ∀ c, v.slot c ≠ some (some k)

section
variable {v v' w : Vfs S} {c d : ℕ} {i : Word32}

lemma RefsOk.sound (hw : RefsOk w)
    (hr : ∀ k, (w.nodes k).inum ≠ (v.nodes k).inum → ∀ c, v.slot c ≠ some (some k)) :
    StepSound v w :=
  ⟨(refsOk_iff.mp hw).1,(refsOk_iff.mp hw).2,hr⟩

lemma not_counted_of (hr : (w.nodes k).ref = (v.nodes k).ref)
    (hn : Counts w.slot (· = some (some k)) n) (hne : n ≠ (v.nodes k).ref.toNat) : ¬ Counted w := by
  intro hw
  obtain ⟨m,hca,hm⟩ := hw.refs k
  have hc : Counts w.slot (· = some (some k)) m := hca
  rw [hr] at hm
  exact hne ((hn.unique hc).trans (toNat_of_toInt hm).1.symm)

lemma assign_sound_iff (hv : RefsOk v) (hc : v.slot c ≠ none) (hd : v.slot d ≠ none) :
    StepSound v (v.assign c d) ↔ v.slot c = v.slot d := by
  constructor
  · intro h
    by_contra hne
    refine absurd h.counted ?_
    obtain ⟨x,hx⟩ := ne_none_iff_exists'.mp hd
    obtain ⟨y,hy⟩ := ne_none_iff_exists'.mp hc
    cases x with
    | some k =>
      refine not_counted_of (v := v) rfl ((hv.refs k).enter (a := c) ?_ hx) (Nat.succ_ne_self _)
      exact fun hk => hne (hk.trans hx.symm)
    | none =>
      cases y with
      | none => exact absurd (hy.trans hx.symm) hne
      | some k =>
        have hp := (hv.refs k).pos hy
        refine not_counted_of (v := v) rfl ((hv.refs k).leave hy ?_) (by omega)
        rw [hx]
        simp
  · intro heq
    have hs : v.assign c d = v := by
      unfold assign point
      rw [← heq,update_eq_self]
    rw [hs]
    exact hv.sound fun k hk => absurd rfl hk

lemma get_same (h : v.get c i = .ok w) (hk : v.same i = some k) :
    w = (v.point c (some (some k))).incRef k := by
  rw [Vfs.get,hk] at h
  cases h
  rfl

lemma inum_incRef (k l : Node) :
    (((v.point c (some (some k))).incRef k).nodes l).inum = (v.nodes l).inum := by
  change (update v.nodes k { v.nodes k with ref := (v.nodes k).ref + 1 } l).inum = _
  by_cases hl : l = k
  · subst hl
    rw [update_self]
  · rw [update_of_ne hl]

lemma get_leaks (hv : RefsOk v) {o : Node} (hc : v.slot c = some (some o)) :
    ¬ Counted ((v.point c (some (some k))).incRef k) := by
  by_cases hko : k = o
  · subst hko
    intro hw
    obtain ⟨m,hca,hm⟩ := hw.refs k
    have hs : update v.slot c (some (some k)) = v.slot := by
      rw [← hc,update_eq_self]
    have hco : Counts (update v.slot c (some (some k))) (· = some (some k)) m := hca
    rw [hs] at hco
    have hn : (((v.point c (some (some k))).incRef k).nodes k).ref = (v.nodes k).ref + 1 := by
      rw [incRef_entered,entered]
      dsimp only
      rw [update_self]
    rw [hn] at hm
    have hna := (hv.refs k).unique hco
    have hin : ((v.nodes k).ref + 1).toNat = (v.nodes k).ref.toNat + 1 :=
      toNat_inc (by have h := hv.small k; omega)
    have heq := (toNat_of_toInt hm).1
    omega
  · have hr : (((v.point c (some (some k))).incRef k).nodes o).ref = (v.nodes o).ref := by
      rw [incRef_entered]
      exact congrArg Inode.ref (update_of_ne (Ne.symm hko) _ _)
    have hp := (hv.refs o).pos hc
    refine not_counted_of hr ((hv.refs o).leave hc ?_) (by omega)
    exact fun h => hko (Option.some.inj (Option.some.inj h))

lemma get_sound_iff (hv : RefsOk v) (hc : v.slot c ≠ none) (hg : v.get c i = .ok w)
    (hb : Bounded w) : StepSound v w ↔ Clean v (.get c i) := by
  cases hs : v.same i with
  | some k =>
    obtain ⟨hne,hin⟩ := same_some hs
    obtain rfl := get_same hg hs
    have hcl : Clean v (.get c i) ↔ v.slot c = some none :=
      ⟨fun h => h.resolve_right fun ha => ha k hne hin,.inl⟩
    rw [hcl]
    constructor
    · intro h
      by_contra hn
      obtain ⟨x,hx⟩ := ne_none_iff_exists'.mp hc
      cases x with
      | none => exact hn hx
      | some o => exact get_leaks hv hx h.counted
    · intro hn
      refine (hv.incRef (by simp [hn]) hne hb).sound fun l hl => ?_
      exact absurd (inum_incRef k l) hl
  | none =>
    have hnw := same_none.mp hs
    refine iff_of_true ?_ (.inr hnw)
    cases hem : v.empty with
    | none =>
      rw [Vfs.get,hs,hem] at hg
      cases hg
    | some k =>
      have h0 := empty_some hem
      obtain ⟨u,hu,hok,hr⟩ := hv.initInode (c := c) h0 hnw
      have hw : w = u := by
        rw [Vfs.get,hs,hem] at hg
        dsimp only at hg
        rw [hu] at hg
        cases hg
        rfl
      subst hw
      refine hok.sound fun l hl e he => ?_
      obtain rfl := hr l hl
      exact hv.ref_ne he h0

lemma RefsOk.congr (hv : RefsOk v) (hn : w.nodes = v.nodes) (hs : w.slot = v.slot) : RefsOk w := by
  refine ⟨?_,?_,?_⟩
  · rw [hn,hs]
    exact hv.refs
  · rw [hn]
    exact hv.small
  · rw [hn]
    exact hv.unique

lemma withNode_frame {f : Word32 → Fallible S Failure A} {r : Except Failure A}
    (h : withNode c f v = (r,w)) : w.nodes = v.nodes ∧ w.slot = v.slot := by
  unfold withNode at h
  split at h
  · cases h
    exact ⟨rfl,rfl⟩
  · cases h
    exact ⟨rfl,rfl⟩

lemma withNode_bind_frame {B : Type} {f : Word32 → Fallible S Failure A}
    {g : A → Fallible (Vfs S) Failure B}
    (h : (withNode c f >>= g) v = (.error e,w))
    (hg : ∀ a v', g a v' = (.error e,w) → w.nodes = v'.nodes ∧ w.slot = v'.slot) :
    w.nodes = v.nodes ∧ w.slot = v.slot := by
  rcases hx : withNode c f v with ⟨r,v'⟩
  obtain ⟨hn,hs⟩ := withNode_frame hx
  cases r with
  | error e' =>
    rw [bind_of_error hx] at h
    cases h
    exact ⟨hn,hs⟩
  | ok a =>
    rw [bind_of_ok hx] at h
    obtain ⟨hn',hs'⟩ := hg a v' h
    exact ⟨hn'.trans hn,hs'.trans hs⟩

lemma iteration_error {fs : DiskFileSystem S} {t : ℕ} {p : List Byte} {pr : Bool}
    (h : iteration fs t c p pr v = (.error e,w)) :
    w.nodes = v.nodes ∧ w.slot = v.slot := by
  cases hp : getNextPathNameFromPath p with
  | none =>
    rw [iteration,hp] at h
    dsimp only at h
    split_ifs at h
    · cases h
      exact ⟨rfl,rfl⟩
    · rw [update_bind] at h
      cases h
  | some next =>
    rw [iteration,hp] at h
    refine withNode_bind_frame h fun st v' hst => ?_
    split_ifs at hst
    · cases hst
      exact ⟨rfl,rfl⟩
    · rw [update_bind] at hst
      cases hst
    · refine withNode_bind_frame hst fun f v₂ hg => ?_
      rcases hx : applied _ v₂ with ⟨r,v₃⟩
      cases r with
      | error e' =>
        rw [bind_of_error hx] at hg
        cases hg
        rw [(applied_error.mp hx).2]
        exact ⟨rfl,rfl⟩
      | ok _ =>
        rw [bind_of_ok hx] at hg
        cases hg

lemma StepSound.congr (hn : v'.nodes = v.nodes) (hs : v'.slot = v.slot) :
    StepSound v' w ↔ StepSound v w := by
  constructor
  · intro h
    exact ⟨h.counted,h.unique,hn ▸ hs ▸ h.reuse⟩
  · intro h
    exact ⟨h.counted,h.unique,hn.symm ▸ hs.symm ▸ h.reuse⟩

lemma Clean.congr (hn : v'.nodes = v.nodes) (hs : v'.slot = v.slot) (e : Event) :
    Clean v' e ↔ Clean v e := by
  cases e with
  | assign c d =>
    unfold Clean
    rw [hs]
  | get c i =>
    unfold Clean
    rw [hn,hs]
  | _ => exact Iff.rfl

end

def Pc.Live (v : Vfs S) : Pc → Prop
  | .idle => True
  | .root tmp c _ _ => v.slot tmp ≠ none ∧ v.slot c ≠ none
  | .walk tmp c _ _ => v.slot tmp ≠ none ∧ v.slot c ≠ none
  | .leave tmp => v.slot tmp ≠ none

structure SessionOk (s : Session S) : Prop where
  refs : RefsOk s.vfs
  live : s.pc.Live s.vfs

section
variable {fs : DiskFileSystem S} {s t : Session S} {e : Event}

lemma reuse_refl (h : ∀ k, (w.nodes k).inum = (v.nodes k).inum) :
    ∀ k, (w.nodes k).inum ≠ (v.nodes k).inum → ∀ c, v.slot c ≠ some (some k) :=
  fun k hk => absurd (h k) hk

lemma quiet_sound (hv : RefsOk v) (hn : w.nodes = v.nodes) (hs : w.slot = v.slot) :
    StepSound v w :=
  (hv.congr hn hs).sound (reuse_refl fun k => by rw [hn])

lemma destroy_sound (hv : RefsOk v) (c : ℕ) : StepSound v (v.destroy c) :=
  hv.destroy.sound (reuse_refl release_inum)

lemma construct_sound (hv : RefsOk v) (hc : v.slot c = none) : StepSound v (v.construct c) :=
  (hv.construct hc).sound (reuse_refl fun _ => rfl)

lemma copy_sound (hv : RefsOk v) (hc : v.slot c = none)
    (hco : v.copy c d = .ok w) (hb : Bounded w) : StepSound v w := by
  unfold copy at hco
  split at hco
  · rename_i k hd
    cases hco
    exact (hv.incRef (by simp [hc]) (hv.ref_ne hd) hb).sound (reuse_refl (inum_incRef k))
  · cases hco

lemma step_sound_iff (hs : SessionOk s) (hse : Step fs s e t) (hb : Bounded t.vfs) :
    StepSound s.vfs t.vfs ↔ Clean s.vfs e := by
  have hv := hs.refs
  have hl := hs.live
  cases hse with
  | construct v c hc => exact iff_of_true (construct_sound hv hc) trivial
  | copy v w c d hc hco => exact iff_of_true (copy_sound hv hc hco hb) trivial
  | assign v c d hc hd => exact assign_sound_iff hv hc hd
  | destroy v c _ => exact iff_of_true (destroy_sound hv c) trivial
  | get v w c inum hc hg => exact get_sound_iff hv hc hg hb
  | getFull v c inum e _ _ | rootFull v tm c p pr e _ =>
    exact iff_of_true (quiet_sound hv rfl rfl) trivial
  | enter v tm c p pr ht _ _ => exact iff_of_true (construct_sound hv ht) trivial
  | root v w tm c p pr hg => exact get_sound_iff hv hl.1 hg hb
  | descend v v₁ v₂ w tm c p nm rs pr st f _ hst _ _ hlo hg =>
    obtain ⟨hn₁,hs₁⟩ := withNode_frame hst
    obtain ⟨hn₂,hs₂⟩ := withNode_frame hlo
    have hn := hn₂.trans hn₁
    have hsl := hs₂.trans hs₁
    dsimp only
    rw [← StepSound.congr hn hsl,← Clean.congr hn hsl]
    exact get_sound_iff (hv.congr hn hsl) (hsl ▸ hl.1) hg hb
  | finish v tm c p _ => exact assign_sound_iff hv hl.2 hl.1
  | finishParent v v₁ tm c p nm st _ hst _ =>
    obtain ⟨hn,hsl⟩ := withNode_frame hst
    dsimp only
    rw [← StepSound.congr hn hsl,← Clean.congr hn hsl]
    exact assign_sound_iff (hv.congr hn hsl) (hsl ▸ hl.2) (hsl ▸ hl.1)
  | abort v w tm c p pr e he =>
    obtain ⟨hn,hsl⟩ := iteration_error he
    exact iff_of_true (quiet_sound hv hn hsl) trivial
  | leave v tm => exact iff_of_true (destroy_sound hv tm) trivial

lemma point_live {p : Option Node} {x : ℕ} (h : v.slot x ≠ none) :
    (v.point c (some p)).slot x ≠ none := by
  change update v.slot c (some p) x ≠ none
  by_cases hx : x = c
  · subst hx
    simp
  · rw [update_of_ne hx]
    exact h

lemma get_live {x : ℕ} (hg : v.get c inum = .ok w) (h : v.slot x ≠ none) : w.slot x ≠ none := by
  have hr : (v.release c).slot x ≠ none := by
    unfold Vfs.release
    split
    · exact h
    · exact h
  unfold Vfs.get at hg
  split at hg
  · cases hg
    exact point_live (v := v) h
  · split at hg
    · cases hg
    · unfold Vfs.initInode at hg
      split_ifs at hg
      cases hg
      exact point_live (v := v.release c) hr

lemma assign_live {x : ℕ} (hd : v.slot d ≠ none) (h : v.slot x ≠ none) :
    (v.assign c d).slot x ≠ none := by
  obtain ⟨p,hp⟩ := ne_none_iff_exists'.mp hd
  unfold assign
  rw [hp]
  exact point_live h

lemma step_live (hs : SessionOk s) (hse : Step fs s e t) : t.pc.Live t.vfs := by
  have hl := hs.live
  cases hse with
  | construct v c _ => trivial
  | copy v w c d _ _ => trivial
  | assign v c d _ _ => trivial
  | destroy v c _ => trivial
  | get v w c inum _ _ => trivial
  | getFull v c inum e _ _ => trivial
  | enter v tm c p pr ht hc _ =>
    refine ⟨?_,point_live hc⟩
    change update v.slot tm (some none) tm ≠ none
    simp
  | root v w tm c p pr hg => exact ⟨get_live hg hl.1,get_live hg hl.2⟩
  | rootFull v tm c p pr e _ => exact hl.1
  | descend v v₁ v₂ w tm c p nm rs pr st f _ hst _ _ hlo hg =>
    have hsl := (withNode_frame hlo).2.trans (withNode_frame hst).2
    exact ⟨get_live hg (hsl ▸ hl.1),get_live hg (hsl ▸ hl.2)⟩
  | finish v tm c p _ => exact assign_live hl.1 hl.1
  | finishParent v v₁ tm c p nm st _ hst _ =>
    have hsl := (withNode_frame hst).2
    exact assign_live (hsl ▸ hl.1) (hsl ▸ hl.1)
  | abort v w tm c p pr e he =>
    have hsl := (iteration_error he).2
    change w.slot tm ≠ none
    rw [hsl]
    exact hl.1
  | leave v tm => trivial

def CleanSteps (fs : DiskFileSystem S) (s t : Session S) : Prop :=
  ∃ e, Step fs s e t ∧ Clean s.vfs e ∧ Bounded t.vfs

lemma SessionOk.run (hs : SessionOk s) (hr : Relation.ReflTransGen (CleanSteps fs) s t) :
    SessionOk t := by
  induction hr with
  | refl => exact hs
  | tail _ hst ih =>
    obtain ⟨e,hst,hc,hb⟩ := hst
    have hso := (step_sound_iff ih hst hb).mpr hc
    exact ⟨refsOk_iff.mpr ⟨hso.counted,hso.unique⟩,step_live ih hst⟩

end

def fresh (disk : S) : Vfs S := ⟨disk,fun _ => ⟨0,0⟩,fun _ => none⟩

lemma fresh_ok (ds : S) : SessionOk ⟨fresh ds,.idle⟩ := by
  have hs : (0 : BitVec 32).toNat < 2 ^ 31 := by decide
  refine ⟨⟨fun k => ?_,fun _ => hs,fun k l hk => ?_⟩,trivial⟩
  · exact counts_zero.mpr fun c hc => by cases hc
  · exact absurd rfl hk

theorem inode_refs_run {fs : DiskFileSystem S} {disk : S} {s : Session S}
    (hrun : Relation.ReflTransGen (CleanSteps fs) ⟨fresh disk,.idle⟩ s) :
    Counted s.vfs ∧ Unique s.vfs ∧ ∀ e t, Step fs s e t → Bounded t.vfs →
      (StepSound s.vfs t.vfs ↔ Clean s.vfs e) := by
  have hs := (fresh_ok disk).run hrun
  obtain ⟨hc,hu⟩ := refsOk_iff.mp hs.refs
  exact ⟨hc,hu,fun e t hst hb => step_sound_iff hs hst hb⟩

section
variable {fs : DiskFileSystem S} {v w : Vfs S} {t c : ℕ} {p : List Byte} {pr : Bool}

def Reaches (fs : DiskFileSystem S) : Session S → Session S → Prop :=
  Relation.ReflTransGen fun s t => ∃ e, Step fs s e t

lemma iteration_ok {next : Option (List Byte)}
    (h : iteration fs t c p pr v = (.ok next,w)) :
    (∃ e, Step fs ⟨v,.walk t c p pr⟩ e
      ⟨w,next.elim (.leave t) fun rs => .walk t c rs pr⟩) ∧
      ∀ rs, next = some rs → rs.length < p.length := by
  cases hp : getNextPathNameFromPath p with
  | none =>
    rw [iteration,hp] at h
    dsimp only at h
    split_ifs at h with hpa
    · cases h
    · obtain rfl : pr = false := by simpa using hpa
      rw [update_bind] at h
      cases h
      exact ⟨⟨_,.finish v t c p hp⟩,fun rs hr => by cases hr⟩
  | some n' =>
    obtain ⟨nm,rs⟩ := n'
    rw [iteration,hp] at h
    obtain ⟨st,v₁,hst,hr⟩ := bind_ok.mp h
    clear h
    split_ifs at hr with hd hl
    · cases hr
    · obtain ⟨rfl,rfl⟩ := hl
      rw [update_bind] at hr
      cases hr
      exact ⟨⟨_,.finishParent v v₁ t c p nm st hp hst (not_not.mp hd)⟩,
        fun rs hr => by cases hr⟩
    · obtain ⟨f,v₂,hlo,hr⟩ := bind_ok.mp hr
      obtain ⟨_,v₃,hg,hr⟩ := bind_ok.mp hr
      cases hr
      refine ⟨⟨_,.descend v v₁ v₂ w t c p nm rs pr st f hp hst (not_not.mp hd)
        hl hlo (applied_ok.mp hg)⟩,?_⟩
      rintro _ ⟨⟩
      exact getNextPathNameFromPath_lt hp

inductive Returns : Except Failure Unit → Prop
  | ok : Returns (.ok ())
  | state (e : IoReturnState) : Returns (.error (.state e))

lemma Reaches.head {s t u : Session S} {e : Event} (h : Step fs s e t) (hu : Reaches fs t u) :
    Reaches fs s u := Relation.ReflTransGen.head ⟨e,h⟩ hu

lemma walk_reaches (f : ℕ) (hf : p.length < f)
    (h : walk fs t c pr f p v = (r,w)) (hr : Returns r) :
    Reaches fs ⟨v,.walk t c p pr⟩ ⟨w,.leave t⟩ := by
  induction f generalizing p v with
  | zero => exact absurd hf (Nat.not_lt_zero _)
  | succ f ih =>
    rw [walk] at h
    rcases hit : iteration fs t c p pr v with ⟨next | next,v₁⟩
    · rw [bind_of_error hit] at h
      cases h
      cases hr with
      | state e => exact .single ⟨_,.abort v w t c p pr e hit⟩
    · rw [bind_of_ok hit] at h
      obtain ⟨⟨e,hs⟩,hlt⟩ := iteration_ok hit
      cases next with
      | none =>
        cases h
        exact .single ⟨e,hs⟩
      | some rs =>
        have hre := hlt rs rfl
        exact .head hs (ih (by omega) h)

theorem lookupInodeFromPath_reaches (ht : v.slot t = none)
    (hc : v.slot c ≠ none) (h : lookupInodeFromPath fs t c p pr v = (r,w))
    (hr : Returns r) : Reaches fs ⟨v,.idle⟩ ⟨w,.idle⟩ := by
  rcases hf : lookupFrom fs t c p pr (v.construct t) with ⟨r',u⟩
  have heq : (r,w) = (r',u.destroy t) := by rw [← h,lookup_eq,hf]
  cases heq
  have hro : p.head? = some slash := by
    by_contra hne
    rw [lookupFrom,if_neg hne] at hf
    cases hf
    cases hr
  refine .head (.enter v t c p pr ht hc hro) (.tail ?_ ⟨_,.leave u t⟩)
  rw [lookupFrom,if_pos hro] at hf
  cases hg : (v.construct t).get t fs.rootInodeNum with
  | error e =>
    rw [bind_of_error (applied_error.mpr ⟨hg,rfl⟩)] at hf
    cases hf
    cases hr with
    | state e => exact .single ⟨_,.rootFull _ t c p pr e hg⟩
  | ok v₁ =>
    rw [bind_of_ok (applied_ok.mpr hg)] at hf
    exact Reaches.head (.root _ v₁ t c p pr hg) (walk_reaches _ (Nat.lt_succ_self _) hf hr)

end

def rootOnly : DiskFileSystem Unit where
  rootInodeNum := 1
  getStatOfInode _ := fail (.state .errInvalid)
  readDataFromInode _ _ _ := fail (.state .errInvalid)
  dirLookup _ _ := fail (.state .errNotFound)

def opened : Vfs Unit := (fresh ()).construct 0

def gotten : Vfs Unit :=
  ⟨(),update (fresh ()).nodes 49 ⟨1,1⟩,update opened.slot 0 (some (some 49))⟩

def nested : DiskFileSystem Unit where
  rootInodeNum := 1
  getStatOfInode inum := pure ⟨.directory,inum,1,0⟩
  readDataFromInode _ _ _ := fail (.state .errInvalid)
  dirLookup inum _ := pure (0,inum + 1)

theorem lookup_nested_reaches : ∃ w,
    lookupInodeFromPath nested 1 0 [slash,97,slash,98] false opened = (.ok (),w) ∧
      Reaches nested ⟨opened,.idle⟩ ⟨w,.idle⟩ := by
  obtain ⟨w,hw⟩ : ∃ w,
    lookupInodeFromPath nested 1 0 [slash,97,slash,98] false opened = (.ok (),w) := ⟨_,rfl⟩
  exact ⟨w,hw,lookupInodeFromPath_reaches rfl (by simp [opened,construct,point]) hw .ok⟩

lemma opened_get : opened.get 0 1 = .ok gotten := rfl

lemma bounded_of_single (h : ∀ d, d ≠ c → v.slot d = none) : Bounded v := by
  intro k
  have hsu : pointing v k ⊆ {c} := by
    intro d hd
    by_contra hne
    have hs := h d hne
    rw [hd] at hs
    cases hs
  refine lt_of_le_of_lt (Set.encard_le_encard hsu) ?_
  rw [Set.encard_singleton]
  norm_num

theorem inode_refs_run_get : Counted gotten ∧ Unique gotten ∧
    ∀ e t, Step rootOnly ⟨gotten,.idle⟩ e t → Bounded t.vfs →
      (StepSound gotten t.vfs ↔ Clean gotten e) := by
  have ho : ∀ d, d ≠ 0 → opened.slot d = none := fun d hd => update_of_ne hd _ _
  have hg : ∀ d, d ≠ 0 → gotten.slot d = none := fun d hd =>
    (update_of_ne hd _ _).trans (ho d hd)
  have hge : CleanSteps rootOnly ⟨opened,.idle⟩ ⟨gotten,.idle⟩ :=
    ⟨_,.get opened gotten 0 1 (by simp [opened,construct,point]) opened_get,.inl rfl,
      bounded_of_single hg⟩
  have hr : Relation.ReflTransGen (CleanSteps rootOnly) ⟨fresh (),.idle⟩ ⟨gotten,.idle⟩ :=
    .head ⟨_,.construct (fresh ()) 0 rfl,trivial,bounded_of_single ho⟩ (.single hge)
  exact inode_refs_run hr

theorem lookup_root_unreferenced : ∃ w,
    lookupInodeFromPath rootOnly 1 0 [slash] false opened = (.ok (),w) ∧
      w.slot 0 = some (some 49) ∧ (w.nodes 49).ref = 0 ∧ ¬ Counted w := by
  have hp : ∃ w, lookupInodeFromPath rootOnly 1 0 [slash] false opened = (.ok (),w) ∧
      w.slot 0 = some (some 49) ∧ (w.nodes 49).ref = 0 := ⟨_,rfl,rfl,rfl⟩
  obtain ⟨w,hw,hs,hr⟩ := hp
  refine ⟨w,hw,hs,hr,fun hc => ?_⟩
  obtain ⟨n,hca,hn⟩ := hc.refs 49
  rw [hr] at hn
  have hco : Counts w.slot (· = some (some 49)) n := hca
  have hpo := hco.pos hs
  rw [← (toNat_of_toInt hn).1] at hpo
  exact absurd hpo (by decide)

end Fs.InodeRefs
