import RaphKernel.Fs.PathNames

namespace Fs
open Bytes Fallible InodeRefs Function List

-- The array LookupInodeFromPath declares, although its callee asks for one byte more.
def nameLength : ℕ := maxDirectoryNameLength * 1

def nameWrites (path : List Byte) : List ℕ :=
  match path.dropWhile (· == slash) with
  | [] => []
  | a :: l =>
    let len := min ((a :: l).takeWhile (· != slash)).length maxDirectoryNameLength
    List.range len ++ [len]

section
variable {S : Type} {fs : DiskFileSystem S} {tmp c : ℕ} {par : Bool} {path name rest : List Byte}
  {v w : Vfs S} {fuel i : ℕ}

def walkWrites (fs : DiskFileSystem S) (tmp c : ℕ) (parent : Bool) :
    ℕ → List Byte → Vfs S → List ℕ
  | 0, _, _ => []
  | fuel + 1, path, v => nameWrites path ++
    match iteration fs tmp c path parent v with
    | (.ok (some rest),w) => walkWrites fs tmp c parent fuel rest w
    | _ => []

def lookupWrites (fs : DiskFileSystem S) (tmp c : ℕ) (path : List Byte) (parent : Bool)
    (v : Vfs S) : List ℕ :=
  if path.head? = some slash then
    match (v.construct tmp).get tmp fs.rootInodeNum with
    | .ok w => walkWrites fs tmp c parent (path.length + 1) path w
    | .error _ => []
  else []

lemma nameWrites_none (h : getNextPathNameFromPath path = none) : nameWrites path = [] := by
  unfold getNextPathNameFromPath at h
  unfold nameWrites
  cases hs : path.dropWhile _ with
  | nil => rfl
  | cons a l =>
    rw [hs] at h
    cases h

lemma nameWrites_some (h : getNextPathNameFromPath path = some (name,rest)) :
    nameWrites path = List.range name.length ++ [name.length] := by
  unfold getNextPathNameFromPath at h
  unfold nameWrites
  cases hs : path.dropWhile _ with
  | nil =>
    rw [hs] at h
    cases h
  | cons a l =>
    rw [hs] at h
    cases h
    rw [length_take,min_comm]

lemma mem_nameWrites (h : getNextPathNameFromPath path = some (name,rest)) :
    i ∈ nameWrites path ↔ i ≤ name.length := by
  rw [nameWrites_some h,mem_append,mem_range,mem_singleton]
  omega

lemma iteration_rest (h : iteration fs tmp c path par v = (.ok (some rest),w)) :
    ∃ name, getNextPathNameFromPath path = some (name,rest) := by
  cases hn : getNextPathNameFromPath path with
  | none =>
    rw [iteration,hn] at h
    cases par with
    | true => cases h
    | false => cases h
  | some next =>
    obtain ⟨name,rest'⟩ := next
    rw [iteration,hn] at h
    obtain ⟨st,v₁,_,h⟩ := bind_ok.mp h
    split_ifs at h
    · cases h
    · cases h
    · obtain ⟨found,v₂,_,h⟩ := bind_ok.mp h
      obtain ⟨_,v₃,_,h⟩ := bind_ok.mp h
      cases h
      exact ⟨name,rfl⟩

lemma mem_walkWrites (h : i ∈ walkWrites fs tmp c par fuel path v) :
    ∃ name ∈ pathComponents path, i ≤ name.length := by
  induction fuel generalizing path v with
  | zero => cases h
  | succ fuel ih =>
    rw [walkWrites,mem_append] at h
    rcases h with h | h
    · cases hn : getNextPathNameFromPath path with
      | none =>
        rw [nameWrites_none hn] at h
        cases h
      | some next =>
        rw [← pathNames_eq,pathNames_some hn]
        exact ⟨_,mem_cons_self,(mem_nameWrites hn).mp h⟩
    · split at h
      · rename_i rest w hit
        obtain ⟨name,hn⟩ := iteration_rest hit
        obtain ⟨name',hm,hle⟩ := ih h
        rw [← pathNames_eq] at hm
        rw [← pathNames_eq,pathNames_some hn]
        exact ⟨name',mem_cons_of_mem _ hm,hle⟩
      · cases h

lemma mem_lookupWrites (h : i ∈ lookupWrites fs tmp c path par v) :
    path.head? = some slash ∧ ∃ name ∈ pathComponents path, i ≤ name.length := by
  rw [lookupWrites] at h
  split_ifs at h with hp
  · split at h
    · exact ⟨hp,mem_walkWrites h⟩
    · cases h
  · cases h

lemma first_written (fs : DiskFileSystem S) (tmp c : ℕ) (disk : S) (par : Bool)
    (hp : path.head? = some slash) (hn : getNextPathNameFromPath path = some (name,rest)) :
    name.length ∈ lookupWrites fs tmp c path par ((fresh disk).construct c) := by
  have hg : (((fresh disk).construct c).construct tmp).get tmp fs.rootInodeNum =
    .ok (rooted fs disk tmp c) := rooted_get fs disk tmp c
  rw [lookupWrites,if_pos hp,hg]
  exact mem_append_left _ ((mem_nameWrites hn).mpr le_rfl)

end

section
variable {S : Type} {v w : Vfs S} {tmp c : ℕ} {inum : Word32} {path name rest : List Byte} {fuel : ℕ}
  {k : Node}

structure Sole (v : Vfs S) (tmp : ℕ) (inum : Word32) (k : Node) : Prop where
  slot : v.slot tmp = some (some k)
  node : v.nodes k = ⟨1,inum⟩
  others : ∀ l, l ≠ k → (v.nodes l).ref = 0

lemma Sole.get (h : Sole v tmp inum k) :
    ∃ l w, v.get tmp (inum + 1) = .ok w ∧ Sole w tmp (inum + 1) l := by
  have hs : v.same (inum + 1) = none := by
    refine same_none.mpr fun l hl => ?_
    cases not_ne_iff.mp fun hne => hl (h.others l hne)
    rw [h.node]
    simp
  cases he : v.empty with
  | none =>
    obtain ⟨l,hl⟩ := exists_ne k
    have hno := find?_eq_none.mp he l (by simp)
    simp [h.others l hl] at hno
  | some l =>
    have hl : l ≠ k := by
      rintro rfl
      have h0 := empty_some he
      rw [h.node] at h0
      cases h0
    have hr : v.release tmp = v.decRef k := by rw [Vfs.release,h.slot]
    have hot : ((v.decRef k).nodes l).ref = 0 := by
      rw [Vfs.decRef,Vfs.setRef]
      dsimp only
      rw [update_of_ne hl]
      exact h.others l hl
    have hg : v.get tmp (inum + 1) = .ok (entered (v.decRef k) tmp l ⟨1,inum + 1⟩) := by
      rw [Vfs.get,hs,he]
      dsimp only
      rw [Vfs.initInode,hr,if_pos hot]
      rfl
    refine ⟨l,_,hg,update_self ..,update_self ..,fun o ho => ?_⟩
    change (update (update v.nodes k _) l _ o).ref = 0
    rw [update_of_ne ho]
    by_cases hk : o = k
    · subst hk
      rw [update_self,h.node]
      exact BitVec.sub_self (1 : BitVec 32)
    · rw [update_of_ne hk]
      exact h.others o hk

lemma nested_iteration {v : Vfs Unit} (h : Sole v tmp inum k)
    (hn : getNextPathNameFromPath path = some (name,rest)) :
    ∃ l w, iteration nested tmp c path false v = (.ok (some rest),w) ∧ Sole w tmp (inum + 1) l := by
  obtain ⟨l,w,hg,hw⟩ := h.get
  have hh : Refers v tmp inum := ⟨k,h.slot,by rw [h.node]⟩
  have hs : withNode tmp nested.getStatOfInode v = (.ok _,v) := hh.withNode rfl
  have hl : withNode tmp (fun inum => nested.dirLookup inum name) v = (.ok (0,inum + 1),v) :=
    hh.withNode rfl
  refine ⟨l,w,?_,hw⟩
  rw [iteration,hn]
  dsimp only
  rw [bind_of_ok hs,if_neg (by simp),if_neg (by simp),bind_of_ok hl,bind_of_ok (applied_ok.mpr hg)]
  rfl

lemma nested_writes {v : Vfs Unit} (h : Sole v tmp inum k) (hf : path.length < fuel)
    (hn : name ∈ pathComponents path) : name.length ∈ walkWrites nested tmp c false fuel path v := by
  induction fuel generalizing path v inum k with
  | zero => exact absurd hf (Nat.not_lt_zero _)
  | succ fuel ih =>
    rw [← pathNames_eq] at hn
    rw [walkWrites,mem_append]
    cases hne : getNextPathNameFromPath path with
    | none =>
      rw [pathNames_none hne] at hn
      cases hn
    | some next =>
      obtain ⟨name',rest⟩ := next
      have hlt := getNextPathNameFromPath_lt hne
      rw [pathNames_some hne] at hn
      rcases mem_cons.mp hn with rfl | hr
      · exact .inl ((mem_nameWrites hne).mpr le_rfl)
      · obtain ⟨l,w,hit,hw⟩ := nested_iteration (c := c) h hne
        rw [hit]
        rw [pathNames_eq] at hr
        exact .inr (ih hw (by omega) hr)

lemma nested_lookupWrites (hp : path.head? = some slash) (hna : name ∈ pathComponents path) :
    name.length ∈ lookupWrites nested 1 0 path false ((fresh ()).construct 0) := by
  have hg : (((fresh ()).construct 0).construct 1).get 1 nested.rootInodeNum =
      .ok (rooted nested () 1 0) := rooted_get nested () 1 0
  have hr : Sole (rooted nested () 1 0) 1 1 49 := by
    refine ⟨rooted_slot nested () 1 0,rooted_node nested () 1 0,fun l hl => ?_⟩
    have hn : (rooted nested () 1 0).nodes l = ⟨0,0⟩ := update_of_ne hl _ _
    rw [hn]
  rw [lookupWrites,if_pos hp,hg]
  exact nested_writes hr (Nat.lt_succ_self _) hna

theorem name_in_bounds (path : List Byte) :
    (∀ (S : Type) (fs : DiskFileSystem S) (tmp c : ℕ) (parent : Bool) (v : Vfs S),
      ∀ i ∈ lookupWrites fs tmp c path parent v, i < nameLength) ↔
      (path.head? = some slash → ∀ word ∈ components path, word.length < nameLength) := by
  constructor
  · intro h hp word hw
    have hn : word.take maxDirectoryNameLength ∈ pathComponents path := List.mem_map_of_mem hw
    have hlt := h Unit nested 1 0 false _ _ (nested_lookupWrites hp hn)
    rw [length_take] at hlt
    exact (min_lt_iff.mp hlt).resolve_left (lt_irrefl _)
  · intro h S fs tmp c parent v i hi
    obtain ⟨hp,name,hn,hle⟩ := mem_lookupWrites hi
    obtain ⟨word,hw,rfl⟩ := List.mem_map.mp hn
    have hlt := h hp word hw
    rw [length_take] at hle
    omega

theorem long_name_overruns : nameLength ∈ lookupWrites nested 1 0
    (slash :: List.replicate 14 97) false ((fresh ()).construct 0) := by
  have hw : components (slash :: List.replicate 14 97) = [List.replicate 14 97] := by
    decide
  have hn : List.replicate 14 97 ∈ pathComponents (slash :: List.replicate 14 97) := by
    rw [pathComponents,hw]
    exact mem_singleton.mpr rfl
  exact nested_lookupWrites rfl hn

end

end Fs
