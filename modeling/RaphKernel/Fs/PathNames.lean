import RaphKernel.Library.Tokens
import RaphKernel.Fs.VfsLookup

namespace Fs
open Bytes Fallible List Tokens

section
variable {path name rest : List Byte}

def components (path : List Byte) : List (List Byte) := Tokens.words (· == slash) path

def pathComponents (path : List Byte) : List (List Byte) :=
  (components path).map (List.take maxDirectoryNameLength)

def pathNames (path : List Byte) : List (List Byte) :=
  match _h : getNextPathNameFromPath path with
  | none => []
  | some (name,rest) => name :: pathNames rest
termination_by path.length
decreasing_by exact getNextPathNameFromPath_lt ‹_›

lemma components_next (h : getNextPathNameFromPath path = none) : components path = [] := by
  unfold getNextPathNameFromPath at h
  split at h
  · rename_i hs
    exact words_eq_nil.mpr (dropWhile_eq_nil_iff.mp hs)
  · cases h

lemma components_cons (h : getNextPathNameFromPath path = some (name,rest)) :
    ∃ word, components path = word :: components rest ∧ name = word.take maxDirectoryNameLength := by
  unfold getNextPathNameFromPath at h
  split at h
  · cases h
  · rename_i a l hs
    cases h
    have ha : (a == slash) = false := by
      have hh := head?_dropWhile_not (· == slash) path
      rw [hs] at hh
      simpa using hh
    refine ⟨(a :: l).takeWhile _,?_,rfl⟩
    calc components path = words (· == slash) (a :: l) := by
          rw [← hs,words_dropWhile]
          rfl
      _ = _ := words_cons ha
      _ = _ := by
        rw [components,words_dropWhile]
        rfl

lemma components_rest (h : getNextPathNameFromPath path = some (name,rest)) :
    components rest = [] ↔ rest = [] := by
  unfold getNextPathNameFromPath at h
  split at h
  · cases h
  · rename_i a l _
    cases h
    refine ⟨fun hn => ?_,fun hn => by rw [hn]; exact words_nil _⟩
    have ha := words_eq_nil.mp hn
    have hh := head?_dropWhile_not (· == slash) ((a :: l).dropWhile (· != slash))
    cases hr : ((a :: l).dropWhile _).dropWhile _ with
    | nil => rfl
    | cons b r =>
      rw [hr] at ha hh
      dsimp only [head?_cons] at hh
      rw [ha b mem_cons_self] at hh
      cases hh

lemma pathNames_none (h : getNextPathNameFromPath path = none) : pathNames path = [] := by
  rw [pathNames]
  split
  · rfl
  · rename_i hn
    rw [h] at hn
    cases hn

lemma pathNames_some (h : getNextPathNameFromPath path = some (name,rest)) :
    pathNames path = name :: pathNames rest := by
  rw [pathNames]
  split
  · rename_i hn
    rw [h] at hn
    cases hn
  · rename_i hn
    rw [h] at hn
    cases hn
    rfl

lemma pathNames_eq (path : List Byte) : pathNames path = pathComponents path := by
  rw [pathComponents]
  cases h : getNextPathNameFromPath path with
  | none => rw [pathNames_none h,components_next h,map_nil]
  | some next =>
    obtain ⟨name,rest⟩ := next
    obtain ⟨word,hp,hn⟩ := components_cons h
    rw [pathNames_some h,pathNames_eq rest,hp,map_cons,hn]
    rfl
termination_by path.length
decreasing_by exact getNextPathNameFromPath_lt h

end

section
variable {S : Type} {fs : DiskFileSystem S} {tmp c : ℕ} {par : Bool} {path : List Byte}

def enter (fs : DiskFileSystem S) (tmp : ℕ) : Fallible (Vfs S) Failure Unit := do
  let st ← withNode tmp fs.getStatOfInode
  if st.type ≠ .directory then fail (.state .errInvalid) else pure ()

def descend (fs : DiskFileSystem S) (tmp : ℕ) (name : List Byte) :
    Fallible (Vfs S) Failure Unit := do
  let found ← withNode tmp fun inum => fs.dirLookup inum name
  applied (Vfs.get · tmp found.2)

def walkNames (fs : DiskFileSystem S) (tmp c : ℕ) (parent : Bool) :
    List (List Byte) → Fallible (Vfs S) Failure Unit
  | [] => if parent then fail (.state .errInvalid) else update (Vfs.assign · c tmp)
  | name :: names => do
    enter fs tmp
    if names = [] ∧ parent then update (Vfs.assign · c tmp)
    else do
      descend fs tmp name
      walkNames fs tmp c parent names

lemma walk_names {fuel : ℕ} (h : path.length < fuel) :
    walk fs tmp c par fuel path = walkNames fs tmp c par (pathNames path) := by
  induction fuel generalizing path with
  | zero => exact absurd h (Nat.not_lt_zero _)
  | succ fuel ih =>
    cases hn : getNextPathNameFromPath path with
    | none =>
      rw [walk,iteration,hn,pathNames_none hn,walkNames]
      cases par <;> rfl
    | some next =>
      obtain ⟨name,rest⟩ := next
      have hlt := getNextPathNameFromPath_lt hn
      have hr : rest = [] ↔ pathNames rest = [] := by
        rw [pathNames_eq,pathComponents,map_eq_nil_iff,components_rest hn]
      rw [walk,iteration,hn,pathNames_some hn,walkNames,enter,← ih (by omega)]
      simp only [bind_assoc,← hr]
      refine congrArg _ (funext fun st => ?_)
      by_cases hd : st.type = .directory
      · rw [if_neg (not_not.mpr hd),if_neg (not_not.mpr hd),pure_bind]
        by_cases hl : rest = [] ∧ par = true
        · rw [if_pos hl,if_pos hl]
          rfl
        · rw [if_neg hl,if_neg hl,descend]
          simp only [bind_assoc,pure_bind]
      · rw [if_pos hd,if_pos hd]
        rfl

lemma lookupFrom_names (hp : path.head? = some slash) : lookupFrom fs tmp c path par = (do
      applied (Vfs.get · tmp fs.rootInodeNum)
      walkNames fs tmp c par (pathComponents path)) := by
  rw [lookupFrom,if_pos hp,walk_names (Nat.lt_succ_self _),pathNames_eq]

end

section
variable {S : Type} {fs : DiskFileSystem S} {tmp c : ℕ} {par : Bool} {inum : Word32}
  {name : List Byte} {names : List (List Byte)} {v w : Vfs S} {d d' : S} {e : Failure}

def checked (fs : DiskFileSystem S) (inum : Word32) : Fallible S Failure Word32 := do
  let st ← fs.getStatOfInode inum
  if st.type ≠ .directory then fail (.state .errInvalid) else pure inum

def child (fs : DiskFileSystem S) (inum : Word32) (name : List Byte) :
    Fallible S Failure Word32 := do
  let dir ← checked fs inum
  let found ← fs.dirLookup dir name
  pure found.2

def resolve (fs : DiskFileSystem S) (parent : Bool) (inum : Word32) (names : List (List Byte)) :
    Fallible S Failure Word32 :=
  if parent then
    if names = [] then fail (.state .errInvalid)
    else names.dropLast.foldlM (child fs) inum >>= checked fs
  else names.foldlM (child fs) inum

lemma resolve_cons : resolve fs par inum (name :: names) =
    if names = [] ∧ par then checked fs inum
    else child fs inum name >>= fun next => resolve fs par next names := by
  cases par with
  | false => simp [resolve]
  | true =>
    cases names with
    | nil | cons next names => simp [resolve]

/-- The components whose inodes are fetched: all, or all but the last. -/
def crossed (parent : Bool) (names : List (List Byte)) : List (List Byte) :=
  if parent then names.dropLast else names

lemma crossed_cons : crossed par (name :: names) =
    if names = [] ∧ par then [] else name :: crossed par names := by
  cases par with
  | false => simp [crossed]
  | true =>
    cases names with
    | nil | cons next names => simp [crossed]

/-- The inode numbers that the fold reaches below `inum`, in order, up to its first failure. -/
def below (fs : DiskFileSystem S) : Word32 → List (List Byte) → S → List Word32
  | _, [], _ => []
  | inum, name :: names, d =>
    match child fs inum name d with
    | (.ok next,d') => next :: below fs next names d'
    | (.error _,_) => []

lemma below_ok {next : Word32} (h : child fs inum name d = (.ok next,d')) :
    below fs inum (name :: names) d = next :: below fs next names d' := by
  rw [below,h]

lemma below_error (h : child fs inum name d = (.error e,d')) :
    below fs inum (name :: names) d = [] := by
  rw [below,h]

lemma length_below : (below fs inum names d).length ≤ names.length := by
  induction names generalizing inum d with
  | nil => exact le_rfl
  | cons name names ih =>
    rcases hc : child fs inum name d with ⟨r,d'⟩
    cases r with
    | error e => simp [below_error hc]
    | ok next => simpa [below_ok hc] using ih

def Refers (v : Vfs S) (c : ℕ) (inum : Word32) : Prop :=
  ∃ k, v.slot c = some (some k) ∧ (v.nodes k).inum = inum

lemma Refers.unique {i : Word32} (h : Refers v c inum) (h' : Refers v c i) : inum = i := by
  obtain ⟨k,hk,rfl⟩ := h
  obtain ⟨l,hl,rfl⟩ := h'
  rw [hk] at hl
  cases hl
  rfl

lemma Refers.withNode {A : Type} {f : Word32 → Fallible S Failure A} {r : Except Failure A}
    (h : Refers v c inum) (hf : f inum v.disk = (r,d)) :
    withNode c f v = (r,{ v with disk := d }) := by
  obtain ⟨k,hs,rfl⟩ := h
  exact withNode_ok hs hf

lemma Refers.withNode_ok {A : Type} {f : Word32 → Fallible S Failure A} {a : A}
    (h : Refers v c inum) (hw : Fs.withNode c f v = (.ok a,w)) :
    f inum v.disk = (.ok a,w.disk) ∧ w = { v with disk := w.disk } := by
  rcases hf : f inum v.disk with ⟨r,d⟩
  rw [h.withNode hf] at hw
  cases hw
  exact ⟨rfl,rfl⟩

lemma Refers.enter (h : Refers v tmp inum) :
    enter fs tmp v = ((checked fs inum v.disk).1.map fun _ => (),
      { v with disk := (checked fs inum v.disk).2 }) := by
  rcases hst : fs.getStatOfInode inum v.disk with ⟨r,d⟩
  cases r with
  | error e =>
    rw [Fs.enter,bind_of_error (h.withNode hst),checked,bind_of_error hst]
    rfl
  | ok st =>
    rw [Fs.enter,bind_of_ok (h.withNode hst),checked,bind_of_ok hst]
    by_cases hd : st.type = .directory
    · rw [if_neg (not_not.mpr hd),if_neg (not_not.mpr hd)]
      rfl
    · rw [if_pos hd,if_pos hd]
      rfl

/-- `r` is where the walk ends, `g` what its `Get`s do and `t` where the fold ends. -/
structure Follows (tmp c : ℕ) (g : Except Failure Unit) (r : Except Failure Unit × Vfs S)
    (t : Except Failure Word32 × S) : Prop where
  ended : r.1 = g >>= fun _ => t.1.map fun _ => ()
  disk : g = .ok () → r.2.disk = t.2
  found : ∀ inum, g = .ok () → t.1 = .ok inum → ∃ u, r.2 = u.assign c tmp ∧ Refers u tmp inum

lemma Follows.failed : Follows tmp c (.ok ()) (.error e,w) (.error e,w.disk) :=
  ⟨rfl,fun _ => rfl,fun _ _ h => by cases h⟩

lemma Follows.assigned (h : Refers w tmp inum) :
    Follows tmp c (.ok ()) (.ok (),w.assign c tmp) (.ok inum,w.disk) := by
  refine ⟨rfl,fun _ => rfl,fun i _ hi => ?_⟩
  cases hi
  exact ⟨w,rfl,h⟩

lemma checked_ok {next : Word32} : checked fs inum d = (.ok next,d') ↔
    next = inum ∧ ∃ st, fs.getStatOfInode inum d = (.ok st,d') ∧ st.type = .directory := by
  rw [checked,bind_ok]
  constructor
  · rintro ⟨st,d₁,hst,h⟩
    by_cases hd : st.type = .directory
    · rw [if_neg (not_not.mpr hd)] at h
      cases h
      exact ⟨rfl,st,hst,hd⟩
    · rw [if_pos hd] at h
      cases h
  · rintro ⟨rfl,st,hst,hd⟩
    refine ⟨st,d',hst,?_⟩
    rw [if_neg (not_not.mpr hd)]
    rfl

lemma get_follows {k : Fallible (Vfs S) Failure Unit} {l : List Word32}
    {t : Except Failure Word32 × S}
    (hk : ∀ u, Refers u tmp inum → u.disk = w.disk → Follows tmp c (gets u tmp l) (k u) t) :
    Follows tmp c (gets w tmp (inum :: l)) ((applied (Vfs.get · tmp inum) >>= fun _ => k) w) t := by
  rcases hg : w.get tmp inum with e | u
  · have hgs : gets w tmp (inum :: l) = .error e := by rw [gets,hg]
    rw [hgs,bind_of_error (applied_error.mpr ⟨hg,rfl⟩)]
    refine ⟨rfl,fun h => ?_,fun _ h => ?_⟩ <;> cases h
  · obtain ⟨hd,hr⟩ := get_points hg
    have hgs : gets w tmp (inum :: l) = gets u tmp l := by rw [gets,hg]
    rw [hgs,bind_of_ok (applied_ok.mpr hg)]
    exact hk u hr hd

lemma walkNames_follows (h : Refers w tmp inum) :
    Follows tmp c (gets w tmp (below fs inum (crossed par names) w.disk))
      (walkNames fs tmp c par names w) (resolve fs par inum names w.disk) := by
  induction names generalizing w inum with
  | nil =>
    cases par with
    | false => exact .assigned h
    | true => exact .failed
  | cons name names ih =>
    have he : enter fs tmp w = _ := h.enter
    rw [walkNames,resolve_cons,crossed_cons]
    rcases hc : checked fs inum w.disk with ⟨r,d⟩
    rw [hc] at he
    by_cases hl : names = [] ∧ par = true
    · rw [if_pos hl,if_pos hl,if_pos hl,hc]
      cases r with
      | error e =>
        rw [bind_of_error he]
        exact .failed (w := { w with disk := d })
      | ok next =>
        cases (checked_ok.mp hc).1
        rw [bind_of_ok he]
        exact .assigned (w := { w with disk := d }) h
    rw [if_neg hl,if_neg hl,if_neg hl]
    cases r with
    | error e =>
      have hch : child fs inum name w.disk = (.error e,d) := bind_of_error hc
      rw [bind_of_error he,bind_of_error hch,below_error hch]
      exact .failed (w := { w with disk := d })
    | ok next =>
      cases (checked_ok.mp hc).1
      rcases hlo : fs.dirLookup inum name d with ⟨r,d'⟩
      have hn : withNode tmp (fun inum => fs.dirLookup inum name) { w with disk := d } =
          (r,{ w with disk := d' }) := Refers.withNode (v := { w with disk := d }) h hlo
      rw [bind_of_ok he,descend,bind_assoc]
      cases r with
      | error e =>
        have hch : child fs inum name w.disk = (.error e,d') := by
          rw [child,bind_of_ok hc]
          exact bind_of_error hlo
        rw [bind_of_error hn,bind_of_error hch,below_error hch]
        exact .failed (w := { w with disk := d' })
      | ok found =>
        have hch : child fs inum name w.disk = (.ok found.2,d') := by
          rw [child,bind_of_ok hc]
          exact bind_of_ok hlo
        rw [bind_of_ok hn,bind_of_ok hch,below_ok hch,← gets_disk (d := d')]
        refine get_follows fun u hu hd => ?_
        have hud : u.disk = d' := hd
        subst hud
        exact ih hu

def Refuses (fs : DiskFileSystem S) (inum : Word32) (d : S) : Prop :=
  (fs.getStatOfInode inum d).1 = .error (.state .errInvalid) ∨
    ∃ st, (fs.getStatOfInode inum d).1 = .ok st ∧ st.type ≠ .directory

def Unsearchable (fs : DiskFileSystem S) (inum : Word32) (name : List Byte) (d : S) : Prop :=
  ∃ st d', fs.getStatOfInode inum d = (.ok st,d') ∧
    (fs.dirLookup inum name d').1 = .error (.state .errInvalid)

def Blocked (fs : DiskFileSystem S) (names : List (List Byte)) (d : S) : Prop :=
  ∃ i, ∃ h : i < names.length, ∃ inum d',
    (names.take i).foldlM (child fs) fs.rootInodeNum d = (.ok inum,d') ∧
      (Refuses fs inum d' ∨ (i + 1 < names.length ∧ Unsearchable fs inum names[i] d'))

lemma checked_invalid : (checked fs inum d).1 = .error (.state .errInvalid) ↔ Refuses fs inum d := by
  rw [checked,bind_error,Refuses]
  refine or_congr_right ⟨?_,?_⟩
  · rintro ⟨st,d₁,hst,h⟩
    refine ⟨st,by rw [hst],fun hd => ?_⟩
    rw [if_neg (not_not.mpr hd)] at h
    cases h
  · rintro ⟨st,hst,hd⟩
    refine ⟨st,_,Prod.ext hst rfl,?_⟩
    rw [if_pos hd]
    rfl

lemma child_invalid : (child fs inum name d).1 = .error (.state .errInvalid) ↔
    Refuses fs inum d ∨ Unsearchable fs inum name d := by
  have hl : ∀ t, ((fs.dirLookup inum name >>= fun found => pure found.2) t).1 =
      .error (.state .errInvalid) ↔ (fs.dirLookup inum name t).1 = .error (.state .errInvalid) := by
    intro t
    rw [bind_error,or_iff_left]
    rintro ⟨found,u,_,h⟩
    cases h
  rw [child,bind_error,checked_invalid]
  constructor
  · rintro (h | ⟨next,t,hc,h⟩)
    · exact .inl h
    · obtain ⟨rfl,st,hst,hd⟩ := checked_ok.mp hc
      exact .inr ⟨st,t,hst,(hl t).mp h⟩
  · rintro (h | ⟨st,t,hst,h⟩)
    · exact .inl h
    · by_cases hd : st.type = .directory
      · exact .inr ⟨inum,t,checked_ok.mpr ⟨rfl,st,hst,hd⟩,(hl t).mpr h⟩
      · exact .inl (.inr ⟨st,by rw [hst],hd⟩)

lemma resolve_invalid : (resolve fs true fs.rootInodeNum names d).1 = .error (.state .errInvalid) ↔
    names = [] ∨ Blocked fs names d := by
  rcases names.eq_nil_or_concat' with rfl | ⟨init,last,rfl⟩
  · exact iff_of_true rfl (.inl rfl)
  · have hne : init ++ [last] ≠ [] := by simp
    rw [resolve,if_pos rfl,if_neg hne,dropLast_concat,bind_error,foldlM_error,or_iff_right hne,
      Blocked]
    have ht : ∀ i, i ≤ init.length → (init ++ [last]).take i = init.take i := fun i hi =>
      take_append_of_le_length hi
    constructor
    · rintro (⟨i,hi,inum,t,hf,h⟩ | ⟨inum,t,hf,h⟩)
      · refine ⟨i,by simp; omega,inum,t,by rwa [ht i hi.le],?_⟩
        rw [getElem_append_left hi]
        exact (child_invalid.mp h).imp_right fun h => ⟨by simpa using hi,h⟩
      · refine ⟨init.length,by simp,inum,t,?_,.inl (checked_invalid.mp h)⟩
        rw [ht _ le_rfl,take_length]
        exact hf
    · rintro ⟨i,hi,inum,t,hf,h⟩
      rw [length_append,length_singleton] at hi h
      rw [ht i (by omega)] at hf
      rcases Nat.lt_succ_iff_lt_or_eq.mp hi with hlt | rfl
      · rw [getElem_append_left hlt] at h
        exact .inl ⟨i,hlt,inum,t,hf,child_invalid.mpr (h.imp_right And.right)⟩
      · rw [take_length] at hf
        exact .inr ⟨inum,t,hf,checked_invalid.mpr (h.resolve_right fun h => by omega)⟩

/-- The inode numbers that a lookup asks the cache for. -/
def visits (fs : DiskFileSystem S) (parent : Bool) (names : List (List Byte)) (d : S) : List Word32 :=
  fs.rootInodeNum :: below fs fs.rootInodeNum (crossed parent names) d

structure Agrees (c : ℕ) (g : Except Failure Unit) (r : Except Failure Unit × Vfs S)
    (t : Except Failure Word32 × S) : Prop where
  ended : r.1 = g >>= fun _ => t.1.map fun _ => ()
  disk : g = .ok () → r.2.disk = t.2
  found : ∀ inum, g = .ok () → t.1 = .ok inum → Refers r.2 c inum

variable {g : Except Failure Unit} {r : Except Failure Unit × Vfs S} {t : Except Failure Word32 × S}

lemma Follows.destroyed (hne : tmp ≠ c) (h : Follows tmp c g r t) :
    Agrees c g (r.1,r.2.destroy tmp) t := by
  refine ⟨h.ended,fun hg => (release_disk r.2 tmp).trans (h.disk hg),fun inum hg ht => ?_⟩
  obtain ⟨u,hu,k,hs,rfl⟩ := h.found inum hg ht
  obtain ⟨_,hs',hin⟩ := assigned_points hne hs
  dsimp only
  rw [hu]
  exact ⟨k,hs',hin⟩

lemma lookup_agrees {path : List Byte} (hne : tmp ≠ c) (hp : path.head? = some slash)
    (fs : DiskFileSystem S) (par : Bool) (v : Vfs S) :
    Agrees c (gets (v.construct tmp) tmp (visits fs par (pathComponents path) v.disk))
      (lookupInodeFromPath fs tmp c path par v)
      (resolve fs par fs.rootInodeNum (pathComponents path) v.disk) := by
  rw [lookup_eq,lookupFrom_names hp]
  refine Follows.destroyed hne (get_follows fun u hu hd => ?_)
  have hdi : v.disk = u.disk := hd.symm
  rw [hdi]
  exact walkNames_follows hu

structure ByComponents (fs : DiskFileSystem S) (tmp c : ℕ) (path : List Byte) (v : Vfs S) : Prop where
  same : ∀ path', path'.head? = some slash → pathComponents path' = pathComponents path → ∀ parent,
    lookupInodeFromPath fs tmp c path' parent v = lookupInodeFromPath fs tmp c path parent v
  agrees : ∀ parent, Agrees c
    (gets (v.construct tmp) tmp (visits fs parent (pathComponents path) v.disk))
    (lookupInodeFromPath fs tmp c path parent v)
    (resolve fs parent fs.rootInodeNum (pathComponents path) v.disk)
  invalid : (lookupInodeFromPath fs tmp c path true v).1 = .error (.state .errInvalid) ↔
    gets (v.construct tmp) tmp (visits fs true (pathComponents path) v.disk) = .ok () ∧
      (pathComponents path = [] ∨ Blocked fs (pathComponents path) v.disk)
  cached : (pathComponents path).length < (unreferenced v).card →
    (∀ k, (v.nodes k).ref.toNat + (pathComponents path).length + 1 < 2 ^ 32) → ∀ parent,
      gets (v.construct tmp) tmp (visits fs parent (pathComponents path) v.disk) = .ok ()

lemma gets_error {l : List Word32} (h : gets v c l = .error e) :
    ∃ (w : Vfs S) (inum : Word32), GetFails w c inum e := by
  induction l generalizing v with
  | nil => cases h
  | cons inum l ih =>
    rcases hg : v.get c inum with e' | w
    · rw [gets,hg] at h
      cases h
      exact ⟨v,inum,get_error_iff.mp hg⟩
    · rw [gets,hg] at h
      exact ih h

lemma Agrees.invalid (h : Agrees c g r t)
    (hg : g ≠ .error (.state .errInvalid)) : r.1 = .error (.state .errInvalid) ↔
      g = .ok () ∧ t.1 = .error (.state .errInvalid) := by
  rw [h.ended]
  rcases g with e | _
  · exact iff_of_false (fun he => hg he) nofun
  · rcases t.1 with e | inum
    · refine ⟨fun he => ⟨rfl,?_⟩,fun he => ?_⟩
      · cases he
        rfl
      · cases he.2
        rfl
    · exact iff_of_false nofun nofun

lemma visits_cached {path : List Byte} (hf : (pathComponents path).length < (unreferenced v).card)
    (hs : ∀ k, (v.nodes k).ref.toNat + (pathComponents path).length + 1 < 2 ^ 32) :
    gets (v.construct tmp) tmp (visits fs par (pathComponents path) d) = .ok () := by
  have hle : (visits fs par (pathComponents path) d).length ≤ (pathComponents path).length + 1 := by
    refine Nat.succ_le_succ (length_below.trans ?_)
    unfold crossed
    split_ifs
    · exact (dropLast_sublist _).length_le
    · exact le_rfl
  refine gets_ok (calm_construct fun k => ?_) (hle.trans hf)
  have hk := hs k
  omega

theorem lookup_components (fs : DiskFileSystem S) (path : List Byte) (v : Vfs S) (hne : tmp ≠ c) :
    pathNames path = pathComponents path ∧
      (∀ (u : Vfs S) inum e, u.get tmp inum = .error e ↔ GetFails u tmp inum e) ∧
      (path.head? = some slash → ByComponents fs tmp c path v) ∧
      (path.head? ≠ some slash → ∀ parent, (lookupInodeFromPath fs tmp c path parent v).1 =
        .error (.panic (.kernelPanic "VFS" "needs implementation!"))) := by
  refine ⟨pathNames_eq path,fun u inum e => get_error_iff,
    fun hp => ⟨fun path' hp' heq parent => ?_,?_,?_,?_⟩,?_⟩
  · rw [lookup_eq,lookup_eq,lookupFrom_names hp,lookupFrom_names hp',heq]
  · exact fun parent => lookup_agrees hne hp fs parent v
  · rw [(lookup_agrees hne hp fs true v).invalid fun h => ?_,resolve_invalid]
    obtain ⟨w,inum,hf⟩ := gets_error h
    cases hf
  · exact fun hf hs parent => visits_cached hf hs
  · intro hp parent
    rw [lookup_eq,lookupFrom,if_neg hp]
    rfl

end

section
open InodeRefs
variable {S : Type} {fs : DiskFileSystem S} {disk disk₁ disk₂ : S} {tmp c : ℕ} {name : List Byte}

lemma pathComponents_single (hn : name ≠ []) (hs : slash ∉ name) :
    pathComponents (slash :: name) = [name.take maxDirectoryNameLength] := by
  have hse : ∀ b ∈ name, (b == slash) = false := by
    intro b hb
    rw [beq_eq_false_iff_ne]
    exact fun h => hs (h ▸ hb)
  have hsk : components (slash :: name) = components name := words_separator rfl
  have hw : components name = [name] := words_single hn hse
  rw [pathComponents,hsk,hw,map_singleton]

lemma lookup_single {st : Stat} {r : Except Failure (ℕ × Word32)} (hne : tmp ≠ c) (hna : name ≠ [])
    (hsl : slash ∉ name) (hst : fs.getStatOfInode fs.rootInodeNum disk = (.ok st,disk₁))
    (hdi : st.type = .directory)
    (hl : fs.dirLookup fs.rootInodeNum (name.take maxDirectoryNameLength) disk₁ = (r,disk₂)) :
    ∃ v, lookupInodeFromPath fs tmp c (slash :: name) false ((fresh disk).construct c) =
      (r.map fun _ => (),v) ∧ v.disk = disk₂ ∧ ∀ found, r = .ok found → Refers v c found.2 := by
  have hr : ∀ d, Refers (rooted fs d tmp c) tmp fs.rootInodeNum := fun d =>
    ⟨49,rooted_slot fs d tmp c,by rw [rooted_node]⟩
  have hro : applied (Vfs.get · tmp fs.rootInodeNum) (((fresh disk).construct c).construct tmp) =
      (.ok (),rooted fs disk tmp c) := applied_ok.mpr (rooted_get fs disk tmp c)
  have he : enter fs tmp (rooted fs disk tmp c) = (.ok (),rooted fs disk₁ tmp c) := by
    have hc : checked fs fs.rootInodeNum (rooted fs disk tmp c).disk =
      (.ok fs.rootInodeNum,disk₁) := checked_ok.mpr ⟨rfl,st,hst,hdi⟩
    rw [(hr disk).enter,hc]
    rfl
  have hn : withNode tmp (fun inum => fs.dirLookup inum (name.take maxDirectoryNameLength))
      (rooted fs disk₁ tmp c) = (r,rooted fs disk₂ tmp c) := (hr disk₁).withNode hl
  rw [lookup_eq,lookupFrom_names rfl,pathComponents_single hna hsl,bind_of_ok hro,walkNames,
    bind_of_ok he,if_neg (by simp),descend,bind_assoc]
  cases r with
  | error e =>
    rw [bind_of_error hn]
    exact ⟨_,rfl,release_disk _ tmp,fun found h => by cases h⟩
  | ok found =>
    have hf : ((rooted fs disk₂ tmp c).nodes 0).ref = 0 := rfl
    obtain ⟨w,hg⟩ := get_ok (fun k => (rooted_refs fs disk₂ hne).ref_ne) found.2 ⟨0,hf⟩
    obtain ⟨hd,k,hs,hin⟩ := get_points hg
    obtain ⟨hd',hs',hin'⟩ := assigned_points hne hs
    rw [bind_of_ok hn,bind_of_ok (applied_ok.mpr hg)]
    refine ⟨_,rfl,hd'.trans hd,fun found' h => ?_⟩
    cases h
    exact ⟨k,hs',hin'.trans hin⟩

end

section
open InodeRefs

theorem lookup_components_nested : (1 : ℕ) ≠ 0 ∧
    ByComponents nested 1 0 [slash,slash,97,slash,98] (fresh ()) :=
  ⟨by decide,(lookup_components nested [slash,slash,97,slash,98] (fresh ())
    (by decide : (1 : ℕ) ≠ 0)).2.2.1 rfl⟩

theorem relative_path_panics : pathComponents [97] = pathComponents [slash,97] ∧
    (lookupInodeFromPath nested 1 0 [97] false ((fresh ()).construct 0)).1 =
      .error (.panic (.kernelPanic "VFS" "needs implementation!")) ∧
    (lookupInodeFromPath nested 1 0 [slash,97] false ((fresh ()).construct 0)).1 = .ok () := by
  refine ⟨?_,rfl,?_⟩
  · have hs : components [slash,97] = components [97] := Tokens.words_separator rfl
    rw [pathComponents,pathComponents,hs]
  · obtain ⟨v,hv,_⟩ : ∃ v, lookupInodeFromPath nested 1 0 [slash,97] false ((fresh ()).construct 0) =
        (.ok (),v) ∧ _ := lookup_single (by decide) (by decide) (by decide) rfl rfl rfl
    rw [hv]

end

end Fs
