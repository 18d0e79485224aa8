import RaphKernel.Fs.Offsets

namespace Fs
open Bytes Fallible InodeStruct BitVec

def InodeStruct.init (type : BitVec 16) : InodeStruct := ⟨type,0,0,0,0,fun _ => 0⟩

def convFileType : FileType → BitVec 16
  | .directory => 1
  | .file => 2
  | .device => 3

namespace InodeCtrl

def slot (sb : SuperBlock) (inum : Word32) : ℕ := ((Place.inode inum).offset sb).toNat

def read (sb : SuperBlock) (inum : Word32) : Io InodeStruct := do
  let data ← Storage.read (slot sb inum) 64
  pure (.parse data)

def write (sb : SuperBlock) (inum : Word32) (s : InodeStruct) : Io Unit :=
  Storage.write (slot sb inum) s.serialize

def allocLoop (sb : SuperBlock) (type : BitVec 16) (i : ℕ) : Io Word32 :=
  if i < sb.ninodes.toNat then do
    let s ← read sb (BitVec.ofNat 32 i)
    if s.type = 0 then do
      write sb (BitVec.ofNat 32 i) (.init type)
      pure (BitVec.ofNat 32 i)
    else allocLoop sb type (i + 1)
  else fail (.state .errNoHwResource)
termination_by sb.ninodes.toNat - i

def alloc (sb : SuperBlock) (type : BitVec 16) : Io Word32 := allocLoop sb type 1

def allocInode (sb : SuperBlock) (type : FileType) : Io Word32 := alloc sb (convFileType type)

def after (sb : SuperBlock) (types : List FileType) (st : Storage) : Storage :=
  types.foldl (fun st type => (allocInode sb type st).2) st

def tableOffset (sb : SuperBlock) (i : ℕ) : ℕ := sb.inodestart.toNat * 512 + 64 * i

def typeAt (sb : SuperBlock) (m : ℕ → Byte) (i : ℕ) : BitVec 16 :=
  (InodeStruct.parse (slice m (tableOffset sb i) 64)).type

structure LaidOut (sb : SuperBlock) (st : Storage) : Prop where
  exact : ∀ inum : Word32, inum < sb.ninodes → (Place.inode inum).Exact sb
  served : ∀ n i, i < sb.ninodes.toNat → st.status n (tableOffset sb i) 64 = .ok

structure Allocated (sb : SuperBlock) (type : BitVec 16) (m m' : ℕ → Byte) (inum : Word32) :
    Prop where
  positive : 1 ≤ inum.toNat
  below : inum < sb.ninodes
  free : typeAt sb m inum.toNat = 0
  least : ∀ i, 1 ≤ i → i < inum.toNat → typeAt sb m i ≠ 0
  image : m' = overwrite m (tableOffset sb inum.toNat) (InodeStruct.init type).serialize

def Full (sb : SuperBlock) (m : ℕ → Byte) : Prop :=
  ∀ i, 1 ≤ i → i < sb.ninodes.toNat → typeAt sb m i ≠ 0

structure Outcome (sb : SuperBlock) (type : BitVec 16) (st : Storage)
    (r : Except Failure Word32 × Storage) : Prop where
  answered : (∃ inum, r.1 = .ok inum) ∨ r.1 = .error (.state .errNoHwResource)
  success : ∀ inum, r.1 = .ok inum → Allocated sb type st.bytes r.2.bytes inum
  exhausted : r.1 = .error (.state .errNoHwResource) ↔ Full sb st.bytes
  kept : r.1 = .error (.state .errNoHwResource) → r.2.bytes = st.bytes

section
variable {sb : SuperBlock} {st st' : Storage} {type : BitVec 16} {m m' : ℕ → Byte} {inum : Word32}
  {i n : ℕ}

lemma toNat_ofNat_below (h : i < sb.ninodes.toNat) : (BitVec.ofNat 32 i).toNat = i := by
  rw [toNat_ofNat]
  omega

section
variable (h : LaidOut sb st) (hi : i < sb.ninodes.toNat)
include h hi

lemma LaidOut.slot : slot sb (BitVec.ofNat 32 i) = tableOffset sb i := by
  have hn := toNat_ofNat_below hi
  have he := h.exact _ (by rw [lt_def,hn]; exact hi)
  rw [Place.Exact,Place.block,Place.position,hn] at he
  rw [InodeCtrl.slot,tableOffset,he]
  omega

lemma LaidOut.read : InodeCtrl.read sb (BitVec.ofNat 32 i) st =
      (.ok (.parse (slice st.bytes (tableOffset sb i) 64)),st.tick) := by
  have hd : Storage.read (InodeCtrl.slot sb (BitVec.ofNat 32 i)) 64 st = _ :=
    Storage.read_ok (by rw [h.slot hi]; exact h.served _ i hi)
  rw [InodeCtrl.read,bind_of_ok hd,h.slot hi]
  rfl

lemma LaidOut.write (s : InodeStruct) : InodeCtrl.write sb (BitVec.ofNat 32 i) s st =
      (.ok (),(st.put (tableOffset sb i) s.serialize).tick) := by
  rw [InodeCtrl.write,h.slot hi]
  refine Storage.write_ok ?_
  rw [length_serialize]
  exact h.served _ i hi

end

lemma LaidOut.tick (h : LaidOut sb st) : LaidOut sb st.tick := ⟨h.exact,h.served⟩

lemma allocLoop_end (h : sb.ninodes.toNat ≤ i) :
    allocLoop sb type i st = (.error (.state .errNoHwResource),st) := by
  rw [allocLoop,if_neg h.not_gt]
  rfl

lemma allocLoop_take (h : LaidOut sb st) (hi : i < sb.ninodes.toNat)
    (hf : typeAt sb st.bytes i = 0) : allocLoop sb type i st = (.ok (BitVec.ofNat 32 i),
      (st.tick.put (tableOffset sb i) (init type).serialize).tick) := by
  rw [typeAt] at hf
  rw [allocLoop,if_pos hi,bind_of_ok (h.read hi),if_pos hf,bind_of_ok (h.tick.write hi _)]
  rfl

lemma allocLoop_skip (h : LaidOut sb st) (hi : i < sb.ninodes.toNat)
    (hu : typeAt sb st.bytes i ≠ 0) :
    allocLoop sb type i st = allocLoop sb type (i + 1) st.tick := by
  rw [typeAt] at hu
  rw [allocLoop,if_pos hi,bind_of_ok (h.read hi),if_neg hu]

lemma allocLoop_cases (type : BitVec 16) (h : LaidOut sb st) (hi : 1 ≤ i)
    (hbe : i ≤ sb.ninodes.toNat ∨ i = 1)
    (hb : ∀ j, 1 ≤ j → j < i → typeAt sb st.bytes j ≠ 0) :
    (∃ inum st', allocLoop sb type i st = (.ok inum,st') ∧
      Allocated sb type st.bytes st'.bytes inum) ∨
    ∃ st', allocLoop sb type i st = (.error (.state .errNoHwResource),st') ∧
      Full sb st.bytes ∧ st'.bytes = st.bytes := by
  induction hleft : sb.ninodes.toNat - i generalizing i st with
  | zero =>
    refine .inr ⟨st,allocLoop_end (by omega),fun j hj hlt => hb j hj (by omega),rfl⟩
  | succ left ih =>
    have hlt : i < sb.ninodes.toNat := by omega
    by_cases hf : typeAt sb st.bytes i = 0
    · have hn := toNat_ofNat_below hlt
      refine .inl ⟨_,_,allocLoop_take h hlt hf,?_,?_,?_,?_,?_⟩
      · rw [hn]
        exact hi
      · rw [lt_def,hn]
        exact hlt
      · rw [hn]
        exact hf
      · rw [hn]
        exact hb
      · rw [hn]
        rfl
    · rw [allocLoop_skip h hlt hf]
      refine ih h.tick (by omega) (by omega) (fun j hj hjl => ?_) (by omega)
      rcases Nat.lt_succ_iff_lt_or_eq.mp hjl with hji | rfl
      · exact hb j hj hji
      · exact hf

lemma Allocated.not_full (h : Allocated sb type m m' inum) : ¬ Full sb m :=
  fun hf => hf inum.toNat h.positive (lt_def.mp h.below) h.free

lemma alloc_outcome (h : LaidOut sb st) (type : BitVec 16) :
    Outcome sb type st (alloc sb type st) := by
  rcases allocLoop_cases type h le_rfl (.inr rfl) (fun j hj hlt => absurd hlt hj.not_gt) with
    ⟨inum,st',hrun,halloc⟩ | ⟨st',hrun,hf,hkept⟩
  · rw [alloc,hrun]
    refine ⟨.inl ⟨inum,rfl⟩,fun k hk => ?_,⟨fun hk => ?_,fun hf => absurd hf halloc.not_full⟩,
      fun hk => ?_⟩ <;> cases hk
    exact halloc
  · rw [alloc,hrun]
    refine ⟨.inr rfl,fun k hk => ?_,⟨fun _ => hf,fun _ => rfl⟩,fun _ => hkept⟩
    cases hk

lemma typeAt_init (m : ℕ → Byte) (sb : SuperBlock) (type : BitVec 16) (n : ℕ) :
    typeAt sb (overwrite m (tableOffset sb n) (init type).serialize) n = type := by
  have hs := slice_overwrite m (tableOffset sb n) (init type).serialize
  rw [length_serialize] at hs
  rw [typeAt,hs,parse_serialize]
  rfl

lemma typeAt_other (m : ℕ → Byte) (sb : SuperBlock) (type : BitVec 16) (h : i ≠ n) :
    typeAt sb (overwrite m (tableOffset sb n) (init type).serialize) i = typeAt sb m i := by
  have ha : tableOffset sb i + 64 ≤ tableOffset sb n ∨
      tableOffset sb n + (init type).serialize.length ≤ tableOffset sb i := by
    rw [length_serialize]
    unfold tableOffset
    omega
  rw [typeAt,typeAt,slice_overwrite_outside m ha]

lemma Allocated.used (h : Allocated sb type m m' inum) (ht : type ≠ 0) :
    typeAt sb m' inum.toNat ≠ 0 := by
  rw [h.image,typeAt_init]
  exact ht

lemma Outcome.stays (h : Outcome sb type st (alloc sb type st)) (hu : typeAt sb st.bytes i ≠ 0) :
    typeAt sb (alloc sb type st).2.bytes i ≠ 0 := by
  rcases h.answered with ⟨inum,hin⟩ | he
  · have ha := h.success inum hin
    have hne : i ≠ inum.toNat := fun heq => hu (heq ▸ ha.free)
    rw [ha.image,typeAt_other _ _ _ hne]
    exact hu
  · rw [h.kept he]
    exact hu

end

lemma steady_allocLoop (sb : SuperBlock) (type : BitVec 16) (i : ℕ) :
    Steady (allocLoop sb type i) := by
  induction hleft : sb.ninodes.toNat - i generalizing i with
  | zero =>
    rw [allocLoop,if_neg (by omega)]
    exact steady_fail _
  | succ left ih =>
    rw [allocLoop,if_pos (by omega)]
    refine steady_bind (steady_bind (steady_read _ _) fun data => steady_pure _) fun s => ?_
    split
    · exact steady_bind (steady_write _ _) steady_pure
    · exact ih _ (by omega)

lemma convFileType_ne_zero (type : FileType) : convFileType type ≠ 0 := by
  cases type <;> decide

section
variable {sb : SuperBlock} {st : Storage} {types : List FileType} {i : ℕ}

lemma LaidOut.after (h : LaidOut sb st) (types : List FileType) : LaidOut sb (after sb types st) := by
  induction types generalizing st with
  | nil => exact h
  | cons type types ih =>
    have hs : (allocInode sb type st).2.status = st.status := steady_allocLoop sb _ 1 st
    refine ih ⟨h.exact,fun n i hi => ?_⟩
    rw [hs]
    exact h.served n i hi

lemma after_stays (types : List FileType) (h : LaidOut sb st) (hu : typeAt sb st.bytes i ≠ 0) :
    typeAt sb (after sb types st).bytes i ≠ 0 := by
  induction types generalizing st with
  | nil => exact hu
  | cons type types ih =>
    exact ih (h.after [type]) ((alloc_outcome h (convFileType type)).stays hu)

lemma after_append (types types' : List FileType) :
    after sb (types ++ types') st = after sb types' (after sb types st) := List.foldl_append

lemma after_take {k : ℕ} (hk : k < types.length) : after sb (types.take (k + 1)) st =
    (allocInode sb types[k] (after sb (types.take k) st)).2 := by
  rw [List.take_succ_eq_append_getElem hk,after_append]
  rfl

end

theorem allocInode_run {sb : SuperBlock} {st : Storage} (h : LaidOut sb st)
    (types : List FileType) :
    (∀ k (hk : k < types.length), Outcome sb (convFileType types[k]) (after sb (types.take k) st)
      (allocInode sb types[k] (after sb (types.take k) st))) ∧
    ∀ j k (hjk : j < k) (hk : k < types.length) (inum inum' : Word32),
      (allocInode sb types[j] (after sb (types.take j) st)).1 = .ok inum →
      (allocInode sb types[k] (after sb (types.take k) st)).1 = .ok inum' → inum ≠ inum' := by
  have hc : ∀ k (hk : k < types.length), Outcome sb (convFileType types[k])
      (after sb (types.take k) st) (allocInode sb types[k] (after sb (types.take k) st)) :=
    fun k hk => alloc_outcome (h.after _) _
  refine ⟨hc,fun j k hjk hk inum inum' hj hin heq => ?_⟩
  have hjl := hjk.trans hk
  have hf := ((hc j hjl).success inum hj).used (convFileType_ne_zero _)
  rw [← after_take hjl] at hf
  -- the inode taken by the earlier call is still in use when the later one starts
  have hs : types.take k = types.take (j + 1) ++ (types.take k).drop (j + 1) := by
    have ht : (types.take k).take (j + 1) = types.take (j + 1) := by
      rw [List.take_take,min_eq_left hjk]
    rw [← ht,List.take_append_drop]
  have hl := after_stays ((types.take k).drop (j + 1)) (h.after (types.take (j + 1))) hf
  rw [← after_append,← hs,heq] at hl
  exact hl ((hc k hk).success inum' hin).free

def blankTable : SuperBlock := ⟨64,0,3,0,0,32,58⟩

def blankStorage : Storage := ⟨fun _ => 0,fun _ _ _ => .ok,0⟩

lemma blank_laidOut : LaidOut blankTable blankStorage := by
  refine ⟨fun inum hlt => (Place.exact_iff ..).mpr ⟨by decide,?_⟩,fun _ _ _ => rfl⟩
  exact (lt_def.mp hlt).trans (by decide)

theorem allocInode_run_blank : Allocated blankTable 2 blankStorage.bytes
    (allocInode blankTable .file blankStorage).2.bytes 1 := by
  have hf : typeAt blankTable blankStorage.bytes 1 = 0 := by decide
  have ho := (allocInode_run blank_laidOut [.file]).1 0 Nat.one_pos
  have ht : allocInode blankTable .file blankStorage = _ :=
    allocLoop_take blank_laidOut (by decide) hf
  refine ho.success 1 ?_
  exact congrArg Prod.fst ht

end InodeCtrl

end Fs
