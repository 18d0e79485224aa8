import RaphKernel.Fs.InodeRefs

namespace Fs
open Bytes Fallible InodeRefs Function

section
variable {S : Type} {v w : Vfs S} {c : ℕ} {inum : Word32}

lemma release_disk (v : Vfs S) (c : ℕ) : (v.release c).disk = v.disk := by
  unfold Vfs.release
  split
  · rfl
  · rfl

lemma get_points (h : v.get c inum = .ok w) :
    w.disk = v.disk ∧ ∃ k, w.slot c = some (some k) ∧ (w.nodes k).inum = inum := by
  have hsl : ∀ (u : Vfs S) (k : Node), (u.point c (some (some k))).slot c = some (some k) :=
    fun u k => update_self ..
  cases hs : v.same inum with
  | some k =>
    rw [get_same h hs]
    refine ⟨rfl,k,hsl v k,?_⟩
    rw [inum_incRef]
    exact (same_some hs).2
  | none =>
    rw [Vfs.get,hs] at h
    cases he : v.empty with
    | none =>
      rw [he] at h
      cases h
    | some k =>
      rw [he] at h
      dsimp only at h
      unfold Vfs.initInode at h
      split_ifs at h
      cases h
      refine ⟨release_disk v c,k,hsl _ k,?_⟩
      dsimp only
      rw [update_self]

lemma released_ref {k : Node} (h0 : (v.nodes k).ref = 0) :
    ((v.release c).nodes k).ref = 0 ↔ v.slot c ≠ some (some k) := by
  by_cases hs : v.slot c = some (some k)
  · have hn : (v.release c).nodes k = ⟨(v.nodes k).ref - 1,(v.nodes k).inum⟩ := by
      rw [Vfs.release,hs]
      exact Function.update_self _ _ _
    have hw : (0 : BitVec 32) - 1 ≠ 0 := by decide
    rw [hn,h0]
    exact iff_of_false hw (not_not.mpr hs)
  · have hn : (v.release c).nodes k = v.nodes k := release_node fun l hl heq => hs (heq ▸ hl)
    rw [hn]
    exact iff_of_true h0 hs

lemma empty_none : v.empty = none ↔ ∀ k, (v.nodes k).ref ≠ 0 := by
  rw [Vfs.empty,List.find?_eq_none]
  simp

/-- The failures of `InodeCtrl::Get`: no node has the number and either every node is referenced or
the container still points to the unreferenced node that is picked. -/
inductive GetFails (v : Vfs S) (c : ℕ) (inum : Word32) : Failure → Prop
  | full : (∀ k, (v.nodes k).ref ≠ 0 ∧ (v.nodes k).inum ≠ inum) →
    GetFails v c inum (.state .errNoSwResource)
  | wrapped {k : Node} : (∀ k, (v.nodes k).ref ≠ 0 → (v.nodes k).inum ≠ inum) →
    v.empty = some k → v.slot c = some (some k) →
    GetFails v c inum (.panic (.kernelPanic "Inode" "unknown error"))

lemma get_error_iff {e : Failure} : v.get c inum = .error e ↔ GetFails v c inum e := by
  constructor
  · intro h
    unfold Vfs.get at h
    split at h
    · cases h
    · rename_i hs
      split at h
      · rename_i he
        cases h
        exact .full fun k => ⟨empty_none.mp he k,same_none.mp hs k (empty_none.mp he k)⟩
      · rename_i k he
        unfold Vfs.initInode at h
        split_ifs at h with hr
        cases h
        exact .wrapped (same_none.mp hs) he (not_not.mp (mt (released_ref (empty_some he)).mpr hr))
  · rintro (hn | ⟨hs,he,hc⟩)
    · rw [Vfs.get,same_none.mpr fun k _ => (hn k).2,empty_none.mpr fun k => (hn k).1]
    · rw [Vfs.get,same_none.mpr hs,he]
      exact if_neg (mt (released_ref (empty_some he)).mp (not_not.mpr hc))

lemma get_ok (hh : ∀ k, v.slot c = some (some k) → (v.nodes k).ref ≠ 0) (inum : Word32)
    (hf : ∃ k, (v.nodes k).ref = 0) : ∃ w, v.get c inum = .ok w := by
  rcases hg : v.get c inum with e | w
  · cases get_error_iff.mp hg with
    | full hn =>
      obtain ⟨k,hk⟩ := hf
      exact absurd hk (hn k).1
    | wrapped _ he hc => exact absurd (empty_some he) (hh _ hc)
  · exact ⟨w,rfl⟩

end

section
variable {S : Type} {v w : Vfs S} {c n : ℕ} {inum : Word32} {l : List Word32} {d : S}

/-- Successive `Get`s into one container, as the walk of a path makes them. -/
def gets (v : Vfs S) (c : ℕ) : List Word32 → Except Failure Unit
  | [] => .ok ()
  | inum :: l =>
    match v.get c inum with
    | .error e => .error e
    | .ok w => gets w c l

lemma gets_disk (l : List Word32) : gets { v with disk := d } c l = gets v c l := by
  induction l generalizing v with
  | nil => rfl
  | cons inum l ih =>
    have hg : Vfs.get { v with disk := d } c inum =
        (v.get c inum).map fun w => { w with disk := d } := by
      have hr : Vfs.release { v with disk := d } c = { v.release c with disk := d } := by
        unfold Vfs.release
        dsimp only
        split <;> rfl
      have hs : Vfs.same { v with disk := d } inum = v.same inum := rfl
      have he : Vfs.empty { v with disk := d } = v.empty := rfl
      rw [Vfs.get,Vfs.get,hs,he]
      split
      · rfl
      · split
        · rfl
        · unfold Vfs.initInode
          rw [hr]
          dsimp only
          split_ifs <;> rfl
    rw [gets,gets,hg]
    cases v.get c inum with
    | error e => rfl
    | ok w => exact ih

/-- What the container points to is referenced, and no counter wraps in `n` more `Get`s. -/
structure Calm (v : Vfs S) (c n : ℕ) : Prop where
  held : ∀ k, v.slot c = some (some k) → (v.nodes k).ref ≠ 0
  small : ∀ k, (v.nodes k).ref.toNat + n < 2 ^ 32

def unreferenced (v : Vfs S) : Finset Node := {k | (v.nodes k).ref = 0}

lemma calm_construct (h : ∀ k, (v.nodes k).ref.toNat + n < 2 ^ 32) : Calm (v.construct c) c n := by
  refine ⟨fun k hk => ?_,h⟩
  have hs : (v.construct c).slot c = some none := update_self ..
  rw [hs] at hk
  cases hk

section
variable (h : Calm v c (n + 1))
include h

lemma Calm.enters {k : Node} (hs : w.slot c = some (some k))
    (hl : ∀ l, l ≠ k → (w.nodes l).ref.toNat ≤ (v.nodes l).ref.toNat) (hk : (w.nodes k).ref ≠ 0)
    (hks : (w.nodes k).ref.toNat ≤ (v.nodes k).ref.toNat + 1) : Calm w c n := by
  refine ⟨fun l hl' => ?_,fun l => ?_⟩
  · rw [hs] at hl'
    cases hl'
    exact hk
  · have hv := h.small l
    by_cases hlk : l = k
    · subst hlk
      omega
    · have hl := hl l hlk
      omega

lemma Calm.released (l : Node) : ((v.release c).nodes l).ref.toNat ≤ (v.nodes l).ref.toNat ∧
    ((v.nodes l).ref = 0 → ((v.release c).nodes l).ref = 0) := by
  by_cases hl : v.slot c = some (some l)
  · have hne := h.held l hl
    have hn : (v.release c).nodes l = ⟨(v.nodes l).ref - 1,(v.nodes l).inum⟩ := by
      rw [Vfs.release,hl]
      exact update_self ..
    rw [hn]
    exact ⟨(Counting.toNat_dec hne).le.trans (Nat.sub_le _ _),fun h0 => absurd h0 hne⟩
  · have hn : (v.release c).nodes l = v.nodes l := release_node fun o ho heq => hl (heq ▸ ho)
    rw [hn]
    exact ⟨le_rfl,id⟩

lemma calm_same (k : Node) : Calm (v.setIfSame c k) c n ∧
    ∀ l, l ≠ k → (v.nodes l).ref = 0 → ((v.setIfSame c k).nodes l).ref = 0 := by
  have hsm := h.small k
  have hn : ∀ l, l ≠ k → (v.setIfSame c k).nodes l = v.nodes l := fun l hl => update_of_ne hl _ _
  have hin : ((v.nodes k).ref + 1).toNat = (v.nodes k).ref.toNat + 1 :=
    Counting.toNat_inc (by omega)
  have hk : (v.setIfSame c k).nodes k = ⟨(v.nodes k).ref + 1,(v.nodes k).inum⟩ := update_self ..
  refine ⟨h.enters (k := k) (update_self ..) (fun l hl => by rw [hn l hl]) ?_ ?_,fun l hl h0 => ?_⟩
  · rw [hk]
    exact Counting.ne_zero_of_pos (hin ▸ Nat.succ_pos _)
  · rw [hk]
    exact hin.le
  · rw [hn l hl]
    exact h0

lemma calm_init {k : Node} (hi : v.initInode c k inum = .ok w) : Calm w c n ∧
    ∀ l, l ≠ k → (v.nodes l).ref = 0 → (w.nodes l).ref = 0 := by
  unfold Vfs.initInode at hi
  split_ifs at hi
  cases hi
  have hn : ∀ l, l ≠ k → update (v.release c).nodes k ⟨1,inum⟩ l = (v.release c).nodes l :=
    fun l hl => update_of_ne hl _ _
  have hk : update (v.release c).nodes k ⟨1,inum⟩ k = ⟨1,inum⟩ := update_self ..
  refine ⟨h.enters (k := k) (update_self ..) (fun l hl => ?_) ?_ ?_,fun l hl h0 => ?_⟩
  · dsimp only
    rw [hn l hl]
    exact (h.released l).1
  · dsimp only
    rw [hk]
    exact Counting.ne_zero_of_pos (x := 1) Nat.one_pos
  · dsimp only
    rw [hk]
    exact Nat.le_add_left _ _
  · dsimp only
    rw [hn l hl]
    exact (h.released l).2 h0

lemma calm_get (hg : v.get c inum = .ok w) : Calm w c n ∧
    ∃ k, ∀ l, l ≠ k → (v.nodes l).ref = 0 → (w.nodes l).ref = 0 := by
  unfold Vfs.get at hg
  split at hg
  · rename_i k _
    cases hg
    exact (calm_same h k).imp_right fun hl => ⟨k,hl⟩
  · split at hg
    · cases hg
    · rename_i k _
      exact (calm_init h hg).imp_right fun hl => ⟨k,hl⟩

end

lemma card_unreferenced (h : Calm v c (n + 1)) (hg : v.get c inum = .ok w) :
    (unreferenced v).card ≤ (unreferenced w).card + 1 := by
  obtain ⟨k,hk⟩ := (calm_get h hg).2
  have hsub : unreferenced v ⊆ insert k (unreferenced w) := by
    intro l hl
    by_cases hlk : l = k
    · exact Finset.mem_insert.mpr (.inl hlk)
    · refine Finset.mem_insert_of_mem (Finset.mem_filter.mpr ⟨Finset.mem_univ l,?_⟩)
      exact hk l hlk (Finset.mem_filter.mp hl).2
  exact (Finset.card_le_card hsub).trans (Finset.card_insert_le k (unreferenced w))

lemma Calm.get_ok (h : Calm v c n) (inum : Word32) (hf : 0 < (unreferenced v).card) :
    ∃ w, v.get c inum = .ok w := by
  obtain ⟨k,hk⟩ := Finset.card_pos.mp hf
  exact Fs.get_ok h.held inum ⟨k,(Finset.mem_filter.mp hk).2⟩

lemma gets_ok (h : Calm v c l.length) (hf : l.length ≤ (unreferenced v).card) :
    gets v c l = .ok () := by
  induction l generalizing v with
  | nil => rfl
  | cons inum l ih =>
    rw [List.length_cons] at h hf
    obtain ⟨w,hw⟩ := h.get_ok inum (Nat.zero_lt_of_lt hf)
    have hcard := card_unreferenced h hw
    rw [gets,hw]
    exact ih (calm_get h hw).1 (by omega)

end

section
variable {S : Type} {fs : DiskFileSystem S} {disk : S} {tmp c : ℕ}

def opening (disk : S) (tmp c : ℕ) : Vfs S := ((fresh disk).construct c).construct tmp

def rooted (fs : DiskFileSystem S) (disk : S) (tmp c : ℕ) : Vfs S :=
  { (opening disk tmp c).point tmp (some (some 49)) with
    nodes := update (opening disk tmp c).nodes 49 ⟨1,fs.rootInodeNum⟩ }

lemma opening_refs (disk : S) (hne : tmp ≠ c) : RefsOk (opening disk tmp c) := by
  refine ((fresh_ok disk).refs.construct rfl).construct ?_
  exact update_of_ne hne _ _

lemma rooted_get (fs : DiskFileSystem S) (disk : S) (tmp c : ℕ) :
    (opening disk tmp c).get tmp fs.rootInodeNum = .ok (rooted fs disk tmp c) := by
  have hs : (opening disk tmp c).same fs.rootInodeNum = none :=
    same_none.mpr fun k hk => absurd rfl hk
  have he : (opening disk tmp c).empty = some 49 := rfl
  have hsl : (opening disk tmp c).slot tmp = some none := update_self ..
  have hr : (opening disk tmp c).release tmp = opening disk tmp c := by
    unfold Vfs.release
    rw [hsl]
  rw [Vfs.get,hs,he]
  dsimp only
  rw [Vfs.initInode,hr]
  exact if_pos rfl

lemma rooted_refs (fs : DiskFileSystem S) (disk : S) (hne : tmp ≠ c) :
    RefsOk (rooted fs disk tmp c) := by
  have hs : (opening disk tmp c).same fs.rootInodeNum = none :=
    same_none.mpr fun k hk => absurd rfl hk
  have he : (opening disk tmp c).empty = some 49 := rfl
  obtain ⟨w,hw,hr,_⟩ := (opening_refs disk hne).initInode (c := tmp) (k := 49) rfl (same_none.mp hs)
  have hg := rooted_get fs disk tmp c
  rw [Vfs.get,hs,he] at hg
  dsimp only at hg
  rw [hw] at hg
  cases hg
  exact hr

lemma rooted_node (fs : DiskFileSystem S) (disk : S) (tmp c : ℕ) :
    (rooted fs disk tmp c).nodes 49 = ⟨1,fs.rootInodeNum⟩ := rfl

lemma rooted_slot (fs : DiskFileSystem S) (disk : S) (tmp c : ℕ) :
    (rooted fs disk tmp c).slot tmp = some (some 49) := update_self ..

lemma assigned_points {w : Vfs S} {k : Node} (hne : tmp ≠ c) (hs : w.slot tmp = some (some k)) :
    ((w.assign c tmp).destroy tmp).disk = w.disk ∧
      ((w.assign c tmp).destroy tmp).slot c = some (some k) ∧
      (((w.assign c tmp).destroy tmp).nodes k).inum = (w.nodes k).inum := by
  have hc : (w.assign c tmp).slot c = some (some k) := by
    unfold Vfs.assign
    rw [hs]
    exact update_self ..
  refine ⟨release_disk _ tmp,?_,release_inum (v := w.assign c tmp) k⟩
  have hr : ((w.assign c tmp).release tmp).slot = (w.assign c tmp).slot := by
    unfold Vfs.release
    split
    · rfl
    · rfl
  change update ((w.assign c tmp).release tmp).slot tmp none c = _
  rw [update_of_ne hne.symm,hr]
  exact hc

end

section
variable {S A : Type} {fs : DiskFileSystem S} {v : Vfs S} {c : ℕ} {k : Node} {disk₁ disk₂ : S}

lemma withNode_ok {f : Word32 → Fallible S Failure A} {r : Except Failure A}
    (hs : v.slot c = some (some k)) (h : f (v.nodes k).inum v.disk = (r,disk₁)) :
    withNode c f v = (r,{ v with disk := disk₁ }) := by
  rw [withNode,hs]
  dsimp only
  rw [onDisk,h]

lemma readDataFromContainer_ok {st : Stat} {offset size : Raph.Word}
    {r : Except Failure ReadResult} (hs : v.slot c = some (some k))
    (hst : fs.getStatOfInode (v.nodes k).inum v.disk = (.ok st,disk₁)) (hf : st.type ≠ .device)
    (hr : fs.readDataFromInode (v.nodes k).inum offset size disk₁ = (r,disk₂)) :
    readDataFromContainer fs c offset size v = (r,{ v with disk := disk₂ }) := by
  have hst' : withNode c fs.getStatOfInode v = (.ok st,{ v with disk := disk₁ }) :=
    withNode_ok hs hst
  have hr' : withNode c (fun inum => fs.readDataFromInode inum offset size)
      { v with disk := disk₁ } = (r,{ v with disk := disk₂ }) :=
    withNode_ok (v := { v with disk := disk₁ }) hs hr
  rw [readDataFromContainer,bind_of_ok hst',if_neg hf]
  exact hr'

lemma readDataFromContainer_error {offset size : Raph.Word} {e : Failure}
    (hs : v.slot c = some (some k))
    (hst : fs.getStatOfInode (v.nodes k).inum v.disk = (.error e,disk₁)) :
    readDataFromContainer fs c offset size v = (.error e,{ v with disk := disk₁ }) := by
  have hst' : withNode c fs.getStatOfInode v = (.error e,{ v with disk := disk₁ }) :=
    withNode_ok hs hst
  rw [readDataFromContainer,bind_of_error hst']

end

end Fs
