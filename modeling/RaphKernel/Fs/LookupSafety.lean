import RaphKernel.Fs.DirScan
import RaphKernel.Fs.MapRun
import RaphKernel.Fs.PathNames

namespace Fs
open Bytes Fallible Along InodeRefs

inductive Phase where
  | get (inum : Word32) (names : List (List Byte))
  | stat (name : List Byte) (names : List (List Byte))
  | search (name : List Byte) (names : List (List Byte))

section
variable {S : Type} {fs : DiskFileSystem S} {tmp c : ℕ} {par : Bool} {path : List Byte}
  {v w : Vfs S} {q : Phase × Vfs S} {inum : Word32} {names : List (List Byte)}

inductive PhaseStep (fs : DiskFileSystem S) (tmp : ℕ) (parent : Bool) :
    Phase × Vfs S → Phase × Vfs S → Prop
  | got {inum : Word32} {name : List Byte} {names : List (List Byte)} {v w : Vfs S} :
    v.get tmp inum = .ok w →
    PhaseStep fs tmp parent (.get inum (name :: names),v) (.stat name names,w)
  | crossed {name : List Byte} {names : List (List Byte)} {st : Stat} {v w : Vfs S} :
    withNode tmp fs.getStatOfInode v = (.ok st,w) → st.type = .directory →
    ¬ (names = [] ∧ parent = true) →
    PhaseStep fs tmp parent (.stat name names,v) (.search name names,w)
  | found {name : List Byte} {names : List (List Byte)} {found : ℕ × Word32} {v w : Vfs S} :
    withNode tmp (fun inum => fs.dirLookup inum name) v = (.ok found,w) →
    PhaseStep fs tmp parent (.search name names,v) (.get found.2 names,w)

def Phase.start (fs : DiskFileSystem S) (tmp : ℕ) (path : List Byte) (v : Vfs S) : Phase × Vfs S :=
  (.get fs.rootInodeNum (pathComponents path),v.construct tmp)

def Phase.Answers (fs : DiskFileSystem S) (tmp : ℕ) : Phase × Vfs S → Prop
  | (.get inum _,v) => Ends Reported (applied (Vfs.get · tmp inum)) v
  | (.stat _ _,v) => Ends Reported (withNode tmp fs.getStatOfInode) v
  | (.search name _,v) => Ends Reported (withNode tmp fun inum => fs.dirLookup inum name) v

end

section
variable {S A : Type} {v : Vfs S} {c : ℕ} {inum : Word32}

lemma withNode_ends {f : Word32 → Fallible S Failure A} : Ends Reported (withNode c f) v ↔
    ∃ inum, Refers v c inum ∧ Ends Reported (f inum) v.disk := by
  by_cases hh : ∃ k, v.slot c = some (some k)
  · obtain ⟨k,hsl⟩ := hh
    have hn : withNode c f v = onDisk (f (v.nodes k).inum) v := by rw [withNode,hsl]
    rw [Ends,hn]
    constructor
    · exact fun h => ⟨_,⟨k,hsl,rfl⟩,h⟩
    · rintro ⟨inum,⟨l,hl,rfl⟩,h⟩
      rw [hsl] at hl
      cases hl
      exact h
  · have hn : withNode c f v = (.error (.panic .kassert),v) := by
      rw [withNode]
      split
      · rename_i k hsl
        exact absurd ⟨k,hsl⟩ hh
      · rfl
    rw [ends_of_error hn]
    refine iff_of_false ?_ ?_
    · rintro ⟨s,hs⟩
      cases hs
    · rintro ⟨inum,⟨k,hsl,_⟩,_⟩
      exact hh ⟨k,hsl⟩

end

section
variable {sb : SuperBlock} {fuel : ℕ} {tail : ℕ → ℕ → Byte} {name path : List Byte} {st : Storage}
  {inum : Word32} {tmp c : ℕ} {par : Bool} {v : Vfs Storage}

structure StatReady (sb : SuperBlock) (st : Storage) (inum : Word32) : Prop where
  below : inum < sb.ninodes
  typed : st.status st.clock (inodeOffset sb inum.toNat) 64 = .ok →
    (inodeAt sb st.bytes inum.toNat).type.toNat ≤ 3

def kernelFs (sb : SuperBlock) (fuel : ℕ) (tail : ℕ → ℕ → Byte) : DiskFileSystem Storage :=
  v6Searching sb (BlockCtrl.alloc sb fuel) tail

lemma loadInode_ends {A : Type} {k : V6fsInode → Io A} : Ends Reported (loadInode sb inum >>= k) st ↔
    inum < sb.ninodes ∧ (st.status st.clock (inodeOffset sb inum.toNat) 64 = .ok →
      Ends Reported (k ⟨inum.toNat,inodeAt sb st.bytes inum.toNat⟩) st.tick) := by
  rw [loadInode]
  by_cases hlt : inum < sb.ninodes
  · rw [if_pos hlt,and_iff_right hlt,V6fsInode.read,bind_assoc,ends_bind,
      and_iff_right (read_ends _ _ _)]
    by_cases hs : st.status st.clock (inodeOffset sb inum.toNat) 64 = .ok
    · rw [Storage.read_ok hs,forall_prop_of_true hs]
      constructor
      · exact fun h => h _ _ rfl
      · intro h data t heq
        cases heq
        exact h
    · rw [Storage.read_error hs]
      exact iff_of_true (fun _ _ h => by cases h) fun h => absurd h hs
  · rw [if_neg hlt,ends_bind,ends_fail]
    refine iff_of_false (fun h => ?_) fun h => hlt h.1
    obtain ⟨s,hs⟩ := h.1
    cases hs

lemma typed_ends (s : InodeStruct) (inum : Word32) (st : Storage) :
    Ends Reported (match s.stat inum with
      | .ok stat => pure stat
      | .error e => fail e : Io Stat) st ↔ s.type.toNat ≤ 3 := by
  unfold InodeStruct.stat convType
  split_ifs with h0 h1 h2 h3
  · rw [h0]
    exact iff_of_true (ends_fail.mpr ⟨_,rfl⟩) (by decide)
  · rw [h1]
    exact iff_of_true (ends_pure _) (by decide)
  · rw [h2]
    exact iff_of_true (ends_pure _) (by decide)
  · rw [h3]
    exact iff_of_true (ends_pure _) (by decide)
  · refine iff_of_false (fun h => ?_) fun h => ?_
    · obtain ⟨e,he⟩ := ends_fail.mp h
      cases he
    · have hc : s.type.toNat = 0 ∨ s.type.toNat = 1 ∨ s.type.toNat = 2 ∨ s.type.toNat = 3 := by
        omega
      rcases hc with h | h | h | h
      · exact h0 (BitVec.eq_of_toNat_eq h)
      · exact h1 (BitVec.eq_of_toNat_eq h)
      · exact h2 (BitVec.eq_of_toNat_eq h)
      · exact h3 (BitVec.eq_of_toNat_eq h)

lemma stat_ends : Ends Reported ((kernelFs sb fuel tail).getStatOfInode inum) st ↔
    StatReady sb st inum := by
  refine loadInode_ends.trans ⟨fun h => ⟨h.1,fun hs => ?_⟩,fun h => ⟨h.below,fun hs => ?_⟩⟩
  · exact (typed_ends _ _ _).mp (h.2 hs)
  · exact (typed_ends _ _ _).mpr (h.typed hs)

def Phase.Accesses (tmp : ℕ) : Phase × Vfs Storage → Word32 → Prop
  | (.get _ _,_), _ => False
  | (_,v), inum => Refers v tmp inum

structure Safe (sb : SuperBlock) (fuel : ℕ) (tail : ℕ → ℕ → Byte) (tmp c : ℕ) (path : List Byte)
    (parent : Bool) (v : Vfs Storage) : Prop where
  returns : Ends Reported (lookupInodeFromPath (kernelFs sb fuel tail) tmp c path parent) v
  accesses : Always (PhaseStep (kernelFs sb fuel tail) tmp parent)
    (fun q => ∀ inum, Phase.Accesses tmp q inum → inum < sb.ninodes)
    (Phase.start (kernelFs sb fuel tail) tmp path v)

end

section
variable (sb : SuperBlock) (m : ℕ → Byte) (tail : ℕ → ℕ → Byte) (parent : Bool)

def WellTyped : Word32 × List (List Byte) → Prop
  | (_,[]) => True
  | (inum,_ :: _) => inum < sb.ninodes ∧ (inodeAt sb m inum.toNat).type.toNat ≤ 3

end

section
variable {sb : SuperBlock} {fuel : ℕ} {tail : ℕ → ℕ → Byte} {name path : List Byte}
  {names : List (List Byte)} {st st' : Storage} {inum : Word32} {tmp c : ℕ} {par : Bool}
  {v w : Vfs Storage} {m : ℕ → Byte} {found : ℕ × Word32} {j : ℕ}

section
variable (hs : Solid (inodeAt sb st.bytes inum.toNat) st.bytes tail name)
include hs

end

section
variable (hw : st.Working) (hlt : inum < sb.ninodes) (hty : (inodeAt sb st.bytes inum.toNat).type = 1)
include hw hlt hty

lemma stat_working (fuel : ℕ) (tail : ℕ → ℕ → Byte) : ∃ stat, stat.type = .directory ∧
    (kernelFs sb fuel tail).getStatOfInode inum st = (.ok stat,st.tick) := by
  refine ⟨⟨.directory,inum,(inodeAt sb st.bytes inum.toNat).nlink,
    (inodeAt sb st.bytes inum.toNat).size⟩,rfl,(bind_of_ok (loadInode_working hw hlt)).trans ?_⟩
  have h0 : (inodeAt sb st.bytes inum.toNat).type ≠ 0 := by
    rw [hty]
    decide
  rw [InodeStruct.stat,if_neg h0,convType,if_pos hty]
  rfl

lemma search_working (fuel : ℕ) (hs : Solid (inodeAt sb st.bytes inum.toNat) st.bytes tail name)
    (hf : FirstHit (inodeAt sb st.bytes inum.toNat) st.bytes tail name j) : ∃ found k,
    (kernelFs sb fuel tail).dirLookup inum name st = (.ok found,st.tick.after k) ∧
      found.2 = (direntAt (inodeAt sb st.bytes inum.toNat) st.bytes j).inum.setWidth 32 := by
  have hw' : st.tick.Working := hw
  obtain ⟨k,hk⟩ : ∃ k, searchLoop sb (BlockCtrl.alloc sb fuel) tail name _ 0 ⟨⟨_,_⟩,st.tick⟩ =
      (.ok _,⟨_,st.tick.after k⟩) := search_hit hw' (fun k hk => hs.mapped hf hk) hf.inside hf.before hf.hit
  refine ⟨_,k,bind_of_ok (a := (16 * j,_)) ((bind_of_ok (loadInode_working hw hlt)).trans ?_),rfl⟩
  rw [searchDir_loop _ _ _ hty,hk]
  rfl

end

end

section
variable {sb : SuperBlock} {fuel : ℕ} {tail : ℕ → ℕ → Byte} {path : List Byte} {inum : Word32}
  {names : List (List Byte)} {tmp c : ℕ} {par : Bool} {v w : Vfs Storage} {m : ℕ → Byte}

/-- A walk that may still take any component of `names` and has the cache nodes for it. -/
structure Phase.Open (sb : SuperBlock) (fuel : ℕ) (m : ℕ → Byte) (tail : ℕ → ℕ → Byte)
    (parent : Bool) (tmp : ℕ) (inum : Word32) (names : List (List Byte)) (v : Vfs Storage) :
    Prop where
  bytes : v.disk.bytes = m
  working : v.disk.Working
  calm : Calm v tmp (names.length + 1)
  room : names.length < (unreferenced v).card
  answers : Always (PhaseStep (kernelFs sb fuel tail) tmp parent)
    (Phase.Answers (kernelFs sb fuel tail) tmp)
    (.get inum names,v)

lemma Phase.Open.next {name : List Byte} {j : ℕ}
    (h : Phase.Open sb fuel m tail par tmp inum (name :: names) v) :
    WellTyped sb m (inum,name :: names) ∧
      (Solid (inodeAt sb m inum.toNat) m tail name → (inodeAt sb m inum.toNat).type = 1 →
        ¬ (names = [] ∧ par = true) → FirstHit (inodeAt sb m inum.toNat) m tail name j →
        ∃ w, Phase.Open sb fuel m tail par tmp
          ((direntAt (inodeAt sb m inum.toNat) m j).inum.setWidth 32) names w) := by
  obtain ⟨rfl,hw,hc,hf,hr⟩ := h
  obtain ⟨w,hg⟩ := hc.get_ok inum (Nat.zero_lt_of_lt hf)
  obtain ⟨hd,hp⟩ := get_points hg
  have hp : Refers w tmp inum := hp
  have hcw := (calm_get hc hg).1
  have hcard := card_unreferenced hc hg
  have hst := (always_iff.mp hr).2 _ (.got hg)
  obtain ⟨i,hi,hse⟩ := withNode_ends.mp (hst _ .refl)
  have hsr := stat_ends.mp hse
  cases hi.unique hp
  rw [← hd] at hw ⊢
  refine ⟨⟨hsr.below,hsr.typed (hw ..)⟩,fun hs hty hl hfh => ?_⟩
  obtain ⟨stat,hdi,hge⟩ := stat_working hw hsr.below hty fuel tail
  have hse := (always_iff.mp hst).2 _ (.crossed (hp.withNode hge) hdi hl)
  obtain ⟨found,k,hlo,hin⟩ := search_working hw.tick hsr.below hty fuel hs hfh
  have hp' : Refers { w with disk := w.disk.tick } tmp inum := hp
  have hnx := (always_iff.mp hse).2 _ (.found (hp'.withNode hlo))
  rw [hin] at hnx
  rw [List.length_cons] at hf
  exact ⟨{ w with disk := w.disk.tick.tick.after k },rfl,hw,⟨hcw.held,hcw.small⟩,
    Nat.lt_of_succ_lt_succ (lt_of_lt_of_le hf hcard),hnx⟩

end

end Fs
