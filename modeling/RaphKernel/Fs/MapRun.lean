import RaphKernel.Fs.MapBlock

namespace Fs
open Bytes Fallible BlockCtrl Function InodeStruct Set BitVec

def inodeAt (sb : SuperBlock) (m : ℕ → Byte) (n : ℕ) : InodeStruct :=
  .parse (slice m (inodeOffset sb n) 64)

section
variable {sb : SuperBlock} {st : Storage} {i : Word32}

lemma mount_working (hw : st.Working) :
    mount st = (.ok (.parse (slice st.bytes 512 28)),st.tick) := by
  have hr : Storage.read blockSize 28 st = (.ok (slice st.bytes 512 28),st.tick) :=
    Storage.read_ok (hw ..)
  rw [mount,hr]

lemma loadInode_working (hw : st.Working) (h : i < sb.ninodes) :
    loadInode sb i st = (.ok ⟨i.toNat,inodeAt sb st.bytes i.toNat⟩,st.tick) := by
  have hr : Storage.read (inodeOffset sb i.toNat) 64 st = _ := Storage.read_ok (hw ..)
  rw [loadInode,if_pos h,V6fsInode.read,bind_of_ok hr]
  rfl

end

def inodeBytes (sb : SuperBlock) (n : ℕ) : Set ℕ :=
  Set.Ico (inodeOffset sb n) (inodeOffset sb n + 64)

def inodeTable (sb : SuperBlock) : Set ℕ := {x | ∃ n < sb.ninodes.toNat, x ∈ inodeBytes sb n}

def held (sb : SuperBlock) (m : ℕ → Byte) (n : ℕ) : Option ℕ → Word32
  | none => (inodeAt sb m n).addrs 12
  | some i => (inodeAt sb m n).entry m i

lemma held_none (sb : SuperBlock) (m : ℕ → Byte) (n : ℕ) :
    held sb m n none = (inodeAt sb m n).addrs 12 := rfl

lemma held_some (sb : SuperBlock) (m : ℕ → Byte) (n i : ℕ) :
    held sb m n (some i) = (inodeAt sb m n).entry m i := rfl

structure Fresh (region : Set ℕ) (inUse : (ℕ → Byte) → Set Word32) (m m' : ℕ → Byte)
    (b : Word32) : Prop where
  unused : b ∉ inUse m
  nonzero : b ≠ 0
  small : b.toNat < 2 ^ 23
  marks : inUse m' = insert b (inUse m)
  zeroed : ∀ x ∈ block b.toNat, m' x = 0
  apart : Disjoint (block b.toNat) region
  frame : ∀ x ∉ block b.toNat, x ∉ region → m' x = m x

structure FreshAllocator where
  alloc : Io Word32
  region : Set ℕ
  inUse : (ℕ → Byte) → Set Word32
  within : ∀ m m', (∀ x ∈ region, m' x = m x) → inUse m' = inUse m
  steady : Steady alloc
  outcome : ∀ st : Storage, st.Working →
    (∃ b st', alloc st = (.ok b,st') ∧ Fresh region inUse st.bytes st'.bytes b) ∨
      ∃ st', alloc st = (.error (.state .errNoHwResource),st') ∧ st'.bytes = st.bytes

lemma FreshAllocator.working (A : FreshAllocator) {st s' : Storage} {r : Except Failure Word32}
    (hw : st.Working) (h : A.alloc st = (r,s')) : s'.Working := by
  have hst := A.steady.working hw
  rw [h] at hst
  exact hst

structure ImageOk (sb : SuperBlock) (A : FreshAllocator) (m : ℕ → Byte) : Prop where
  layout : Disjoint (inodeTable sb) A.region
  distinct : ∀ n < sb.ninodes.toNat, ∀ k < sb.ninodes.toNat, ∀ c e, held sb m n c = held sb m k e →
    held sb m n c ≠ 0 → n = k ∧ c = e
  used : ∀ n < sb.ninodes.toNat, ∀ c, held sb m n c ≠ 0 →
    held sb m n c ∈ A.inUse m ∧ (held sb m n c).toNat < 2 ^ 23
  reserved : ∀ b : Word32, ¬ Disjoint (block b.toNat) (inodeTable sb ∪ A.region) →
    b ∈ A.inUse m ∧ ∀ n < sb.ninodes.toNat, ∀ c, held sb m n c ≠ 0 → held sb m n c ≠ b

section
variable {sb : SuperBlock} {A : FreshAllocator} {m m' : ℕ → Byte} {n k : ℕ} {b : Word32}

lemma block_disjoint {a b : ℕ} (h : a ≠ b) : Disjoint (block a) (block b) := by
  rw [disjoint_left]
  intro x ha hb
  have hlo := ha.1
  have hhi := ha.2
  have hlo' := hb.1
  have hhi' := hb.2
  omega

lemma inodeBytes_disjoint (h : n ≠ k) : Disjoint (inodeBytes sb n) (inodeBytes sb k) := by
  rw [disjoint_left]
  intro x hn hk
  have hlo := hn.1
  have hhi := hn.2
  have hlo' := hk.1
  have hhi' := hk.2
  unfold inodeOffset at hlo hhi hlo' hhi'
  omega

lemma inodeAt_congr (h : ∀ x ∈ inodeBytes sb n, m' x = m x) : inodeAt sb m' n = inodeAt sb m n := by
  rw [inodeAt,inodeAt,slice_congr fun x hlo hhi => h x ⟨hlo,hhi⟩]

lemma entry_range {a : Word32} {j x : ℕ} (ha : a.toNat < 2 ^ 23) (hj : j < 128)
    (hlo : entryOffset a j ≤ x) (hhi : x < entryOffset a j + 4) : x ∈ block a.toNat := by
  unfold entryOffset at hlo hhi
  rw [blockOffset_eq ha] at hlo hhi
  exact ⟨by omega,by omega⟩

lemma indirectEntry_congr {a : Word32} {j : ℕ} (ha : a.toNat < 2 ^ 23) (hj : j < 128)
    (h : ∀ x ∈ block a.toNat, m' x = m x) : indirectEntry m' a j = indirectEntry m a j := by
  rw [indirectEntry,indirectEntry,slice_congr fun x hlo hhi => h x (entry_range ha hj hlo hhi)]

lemma indirectEntry_zero {a : Word32} {j : ℕ} (ha : a.toNat < 2 ^ 23) (hj : j < 128)
    (h : ∀ x ∈ block a.toNat, m x = 0) : indirectEntry m a j = 0 := by
  have hz := indirectEntry_congr ha hj h
  rw [hz]
  rfl

lemma entry_congr (s : InodeStruct) {i : ℕ} (hsm : s.addrs 12 ≠ 0 → (s.addrs 12).toNat < 2 ^ 23)
    (h : s.addrs 12 ≠ 0 → ∀ x ∈ block (s.addrs 12).toNat, m' x = m x) :
    s.entry m' i = s.entry m i := by
  unfold entry
  split_ifs with h12 hin
  · rfl
  · refine indirectEntry_congr (hsm hin.2) ?_ (h hin.2)
    unfold numOfDirectBlocks
    omega
  · rfl

lemma held_congr (hin : inodeAt sb m' n = inodeAt sb m n)
    (hsm : held sb m n none ≠ 0 → (held sb m n none).toNat < 2 ^ 23)
    (h : held sb m n none ≠ 0 → ∀ x ∈ block (held sb m n none).toNat, m' x = m x) (c : Option ℕ) :
    held sb m' n c = held sb m n c := by
  cases c with
  | none => rw [held_none,held_none,hin]
  | some i =>
    rw [held_some,held_some,hin]
    exact entry_congr _ hsm h

lemma ImageOk.unused_apart (hm : ImageOk sb A m) (hb : b ∉ A.inUse m) :
    Disjoint (block b.toNat) (inodeTable sb ∪ A.region) := by
  by_contra hd
  exact hb (hm.reserved b hd).1

lemma ImageOk.held_apart (hm : ImageOk sb A m) (hn : n < sb.ninodes.toNat) {c : Option ℕ}
    (h0 : held sb m n c ≠ 0) : Disjoint (block (held sb m n c).toNat) (inodeTable sb ∪ A.region) := by
  by_contra hd
  exact (hm.reserved _ hd).2 n hn c h0 rfl

lemma ImageOk.held_fresh (hm : ImageOk sb A m) (hf : Fresh A.region A.inUse m m' b)
    (hn : n < sb.ninodes.toNat) (c : Option ℕ) : held sb m' n c = held sb m n c := by
  have ht := hm.unused_apart hf.unused
  refine held_congr (inodeAt_congr fun x hx => ?_) (fun h0 => (hm.used n hn none h0).2) ?_ c
  · have hx' : x ∈ inodeTable sb := ⟨n,hn,hx⟩
    refine hf.frame x (fun hb => ?_) (fun hr => ?_)
    · exact disjoint_left.mp ht hb (.inl hx')
    · exact disjoint_left.mp hm.layout hx' hr
  · intro h0 x hx
    have hne : (held sb m n none).toNat ≠ b.toNat := by
      intro heq
      refine hf.unused ?_
      rw [← eq_of_toNat_eq heq]
      exact (hm.used n hn none h0).1
    refine hf.frame x (fun hb => ?_) (fun hr => ?_)
    · exact disjoint_left.mp (block_disjoint hne) hx hb
    · exact disjoint_left.mp (hm.held_apart hn h0) hx (.inr hr)

lemma ImageOk.fresh (hm : ImageOk sb A m) (hf : Fresh A.region A.inUse m m' b) :
    ImageOk sb A m' := by
  refine ⟨hm.layout,?_,?_,?_⟩
  · intro n hn k hk c e heq h0
    rw [hm.held_fresh hf hn] at heq h0
    rw [hm.held_fresh hf hk] at heq
    exact hm.distinct n hn k hk c e heq h0
  · intro n hn c h0
    rw [hm.held_fresh hf hn] at h0 ⊢
    rw [hf.marks]
    exact ⟨.inr (hm.used n hn c h0).1,(hm.used n hn c h0).2⟩
  · intro b' hd
    rw [hf.marks]
    obtain ⟨hu,hh⟩ := hm.reserved b' hd
    refine ⟨.inr hu,fun n hn c h0 => ?_⟩
    rw [hm.held_fresh hf hn] at h0 ⊢
    exact hh n hn c h0

def InodeStruct.setAddr (s : InodeStruct) (k : Fin 13) (b : Word32) : InodeStruct :=
  { s with addrs := update s.addrs k b }

lemma ofNat_val {i : ℕ} (hi : i < 12) : (Fin.ofNat 13 i).val = i := Nat.mod_eq_of_lt (by omega)

lemma ofNat_ne_last {i : ℕ} (hi : i < 12) : (12 : Fin 13) ≠ Fin.ofNat 13 i := by
  intro heq
  have hv := congrArg Fin.val heq
  rw [ofNat_val hi] at hv
  exact absurd hv hi.ne'

lemma setAddr_last (s : InodeStruct) {i : ℕ} (hi : i < 12) :
    (s.setAddr (Fin.ofNat 13 i) b).addrs 12 = s.addrs 12 :=
  update_of_ne (ofNat_ne_last hi) ..

lemma setAddr_entry (s : InodeStruct) {i : ℕ} (hi : i < 12) :
    (s.setAddr (Fin.ofNat 13 i) b).entry m i = b := by
  rw [entry_direct hi]
  exact update_self ..

lemma setAddr_entry_other (s : InodeStruct) {i j : ℕ} (hi : i < 12) (hj : j ≠ i) :
    (s.setAddr (Fin.ofNat 13 i) b).entry m j = s.entry m j := by
  unfold entry
  rw [setAddr_last s hi]
  split_ifs with h12 hin
  · refine update_of_ne (fun heq => hj ?_) ..
    have hv := congrArg Fin.val heq
    rw [ofNat_val h12,ofNat_val hi] at hv
    exact hv
  · rfl
  · rfl

def record (sb : SuperBlock) (m : ℕ → Byte) (n i : ℕ) (b : Word32) : ℕ → Byte :=
  overwrite m (inodeOffset sb n) ((inodeAt sb m n).setAddr (Fin.ofNat 13 i) b).serialize

lemma record_outside {i x : ℕ} (hx : x ∉ inodeBytes sb n) : record sb m n i b x = m x := by
  refine overwrite_outside m ?_
  rw [length_serialize]
  unfold inodeBytes at hx
  rw [mem_Ico] at hx
  omega

lemma inodeAt_record (i : ℕ) :
    inodeAt sb (record sb m n i b) n = (inodeAt sb m n).setAddr (Fin.ofNat 13 i) b := by
  have hsl := slice_overwrite m (inodeOffset sb n)
    ((inodeAt sb m n).setAddr (Fin.ofNat 13 i) b).serialize
  rw [length_serialize] at hsl
  rw [inodeAt,record,hsl,parse_serialize]

lemma inodeAt_record_other (i : ℕ) (h : k ≠ n) :
    inodeAt sb (record sb m n i b) k = inodeAt sb m k :=
  inodeAt_congr fun _ hx =>
    record_outside fun hn => disjoint_left.mp (inodeBytes_disjoint h) hx hn

lemma ImageOk.record_block (hm : ImageOk sb A m) (hn : n < sb.ninodes.toNat)
    (hk : k < sb.ninodes.toNat) (i : ℕ) (h0 : held sb m k none ≠ 0) :
    ∀ x ∈ block (held sb m k none).toNat, record sb m n i b x = m x := by
  intro x hx
  refine record_outside fun hin => ?_
  exact disjoint_left.mp (hm.held_apart hk h0) hx (.inl ⟨n,hn,hin⟩)

lemma ImageOk.held_record_other (hm : ImageOk sb A m) (hn : n < sb.ninodes.toNat)
    (hk : k < sb.ninodes.toNat) {i : ℕ} (hi : i < 12) {c : Option ℕ} (h : ¬ (k = n ∧ c = some i)) :
    held sb (record sb m n i b) k c = held sb m k c := by
  by_cases hkn : k = n
  · subst hkn
    have hsm : (inodeAt sb m k).addrs 12 ≠ 0 → ((inodeAt sb m k).addrs 12).toNat < 2 ^ 23 :=
      fun h0 => (hm.used k hk none h0).2
    cases c with
    | none =>
      rw [held_none,held_none,inodeAt_record,setAddr_last _ hi]
    | some j =>
      have hj : j ≠ i := fun heq => h ⟨rfl,congrArg some heq⟩
      rw [held_some,held_some,inodeAt_record,setAddr_entry_other _ hi hj]
      exact entry_congr _ hsm (hm.record_block hk hk i)
  · exact held_congr (inodeAt_record_other i hkn) (fun h0 => (hm.used k hk none h0).2)
      (hm.record_block hn hk i) c

lemma held_record_same {i : ℕ} (hi : i < 12) : held sb (record sb m n i b) n (some i) = b := by
  rw [held_some,inodeAt_record,setAddr_entry _ hi]

lemma ImageOk.inUse_record (hm : ImageOk sb A m) (hn : n < sb.ninodes.toNat) (i : ℕ) :
    A.inUse (record sb m n i b) = A.inUse m := by
  refine A.within _ _ fun x hx => record_outside fun hin => ?_
  exact disjoint_left.mp hm.layout ⟨n,hn,hin⟩ hx

lemma ImageOk.record (hm : ImageOk sb A m) (hn : n < sb.ninodes.toNat) {i : ℕ} (hi : i < 12)
    (hsm : b.toNat < 2 ^ 23) (hus : b ∈ A.inUse m)
    (hne : ∀ k < sb.ninodes.toNat, ∀ c, held sb m k c ≠ 0 → held sb m k c ≠ b)
    (ha : Disjoint (block b.toNat) (inodeTable sb ∪ A.region)) :
    ImageOk sb A (record sb m n i b) := by
  have hca : ∀ k < sb.ninodes.toNat, ∀ c, (k = n ∧ c = some i ∧
      held sb (Fs.record sb m n i b) k c = b) ∨ (¬ (k = n ∧ c = some i) ∧
      held sb (Fs.record sb m n i b) k c = held sb m k c) := by
    intro k hk c
    by_cases h : k = n ∧ c = some i
    · obtain ⟨rfl,rfl⟩ := h
      exact .inl ⟨rfl,rfl,held_record_same hi⟩
    · exact .inr ⟨h,hm.held_record_other hn hk hi h⟩
  refine ⟨hm.layout,?_,?_,?_⟩
  · intro k hk l hl c e heq h0
    rcases hca k hk c with ⟨hkn,hc,hb⟩ | ⟨hc,hb⟩ <;> rcases hca l hl e with ⟨hln,he,hb'⟩ | ⟨he,hb'⟩
    · exact ⟨hkn.trans hln.symm,hc.trans he.symm⟩
    · rw [heq,hb'] at h0
      rw [hb,hb'] at heq
      exact absurd heq.symm (hne l hl e h0)
    · rw [hb] at h0
      rw [hb,hb'] at heq
      exact absurd heq (hne k hk c h0)
    · rw [hb] at h0
      rw [hb,hb'] at heq
      exact hm.distinct k hk l hl c e heq h0
  · intro k hk c h0
    rw [hm.inUse_record hn i]
    rcases hca k hk c with ⟨_,_,hb⟩ | ⟨_,hb⟩
    · rw [hb]
      exact ⟨hus,hsm⟩
    · rw [hb] at h0 ⊢
      exact hm.used k hk c h0
  · intro b' hd
    rw [hm.inUse_record hn i]
    obtain ⟨hu,hh⟩ := hm.reserved b' hd
    refine ⟨hu,fun k hk c h0 => ?_⟩
    rcases hca k hk c with ⟨_,_,hb⟩ | ⟨_,hb⟩
    · rw [hb]
      rintro rfl
      exact hd ha
    · rw [hb] at h0 ⊢
      exact hh k hk c h0

end

structure MapState where
  storage : Storage
  mem : ℕ → V6fsInode
  answers : List ((ℕ × ℕ) × Word32)

inductive MapOp where
  | map (n i : ℕ)
  | reread (n : ℕ)

def MapState.call (sb : SuperBlock) (alloc : Io Word32) (s : MapState) (n i : ℕ) :
    Except Failure Word32 × Disk := mapBlock sb alloc i ⟨s.mem n,s.storage⟩

def MapState.exec (sb : SuperBlock) (alloc : Io Word32) (s : MapState) : MapOp → MapState
  | .map n i =>
    match s.call sb alloc n i with
    | (.ok b,d) => ⟨d.storage,update s.mem n d.inode,((n,i),b) :: s.answers⟩
    | (.error _,d) => ⟨d.storage,update s.mem n d.inode,s.answers⟩
  | .reread n =>
    match V6fsInode.read sb n s.storage with
    | (.ok inode,st) => ⟨st,update s.mem n inode,s.answers⟩
    | (.error _,st) => ⟨st,s.mem,s.answers⟩

def Recordable (sb : SuperBlock) (m : ℕ → Byte) (n i : ℕ) : Prop :=
  i < 12 ∨ 140 ≤ i ∨ held sb m n (some i) ≠ 0

def MapOp.Allowed (sb : SuperBlock) (m : ℕ → Byte) : MapOp → Prop
  | .map n i => n < sb.ninodes.toNat ∧ Recordable sb m n i
  | .reread n => n < sb.ninodes.toNat

def MapSteps (sb : SuperBlock) (alloc : Io Word32) (s t : MapState) : Prop :=
  ∃ op : MapOp, op.Allowed sb s.storage.bytes ∧ t = s.exec sb alloc op

structure MapOk (sb : SuperBlock) (A : FreshAllocator) (s : MapState) : Prop where
  working : s.storage.Working
  image : ImageOk sb A s.storage.bytes
  mem : ∀ n < sb.ninodes.toNat, s.mem n = ⟨n,inodeAt sb s.storage.bytes n⟩
  answers : ∀ n i b, ((n,i),b) ∈ s.answers →
    n < sb.ninodes.toNat ∧ b ≠ 0 ∧ held sb s.storage.bytes n (some i) = b

section
variable {sb : SuperBlock} {A : FreshAllocator} {s : MapState} {n i : ℕ}

inductive CallOutcome (sb : SuperBlock) (A : FreshAllocator) (s : MapState) (n i : ℕ) :
    Except Failure Word32 → Disk → Prop
  | known (st : Storage) : held sb s.storage.bytes n (some i) ≠ 0 → st.Working →
      st.bytes = s.storage.bytes →
      CallOutcome sb A s n i (.ok (held sb s.storage.bytes n (some i))) ⟨s.mem n,st⟩
  | recorded (b : Word32) (m : ℕ → Byte) (st : Storage) : i < 12 →
      held sb s.storage.bytes n (some i) = 0 → Fresh A.region A.inUse s.storage.bytes m b →
      st.Working → st.bytes = record sb m n i b →
      CallOutcome sb A s n i (.ok b)
        ⟨⟨n,(inodeAt sb s.storage.bytes n).setAddr (Fin.ofNat 13 i) b⟩,st⟩
  | full (st : Storage) : i < 12 → held sb s.storage.bytes n (some i) = 0 → st.Working →
      st.bytes = s.storage.bytes →
      CallOutcome sb A s n i (.error (.state .errNoHwResource)) ⟨s.mem n,st⟩
  | far : 140 ≤ i → CallOutcome sb A s n i (.error (.state .errInvalid)) ⟨s.mem n,s.storage⟩

section
variable (hs : MapOk sb A s)
include hs

section
variable (hn : n < sb.ninodes.toNat)
include hn

lemma MapOk.mem_addrs : (s.mem n).st = inodeAt sb s.storage.bytes n := by rw [hs.mem n hn]


lemma MapOk.call_direct (hi : i < 12) :
    ∃ r d, s.call sb A.alloc n i = (r,d) ∧ CallOutcome sb A s n i r d := by
  have hm := hs.mem n hn
  have he : held sb s.storage.bytes n (some i) = (s.mem n).st.addrs (Fin.ofNat 13 i) := by
    rw [held_some,entry_direct hi,hm]
  rw [MapState.call,mapBlock_direct hi]
  by_cases h0 : held sb s.storage.bytes n (some i) = 0
  · have h0' := he.symm.trans h0
    rcases A.outcome s.storage hs.working with ⟨b,st,ha,hf⟩ | ⟨st,ha,hb⟩
    · have hw := A.working hs.working ha
      refine ⟨_,_,mapDirect_new h0' ha hw,?_⟩
      have hsa : inodeAt sb st.bytes n = inodeAt sb s.storage.bytes n := by
        refine inodeAt_congr fun x hx => hf.frame x (fun hb => ?_) (fun hr => ?_)
        · exact disjoint_left.mp (hs.image.unused_apart hf.unused) hb (.inl ⟨n,hn,hx⟩)
        · exact disjoint_left.mp hs.image.layout ⟨n,hn,hx⟩ hr
      have hre : recorded sb ⟨s.mem n,s.storage⟩ (Fin.ofNat 13 i) b st =
          ⟨⟨n,(inodeAt sb s.storage.bytes n).setAddr (Fin.ofNat 13 i) b⟩,(st.put (inodeOffset sb n)
              ((inodeAt sb st.bytes n).setAddr (Fin.ofNat 13 i) b).serialize).tick⟩ := by
        rw [hsa,recorded,Disk.setAddr]
        dsimp only
        rw [hm]
        rfl
      rw [hre]
      exact .recorded b st.bytes _ hi h0 hf hw rfl
    · exact ⟨_,_,mapDirect_error h0' ha,.full st hi h0 (A.working hs.working ha) hb⟩
  · have h0' : (s.mem n).st.addrs (Fin.ofNat 13 i) ≠ 0 := fun h => h0 (he.trans h)
    refine ⟨_,_,mapDirect_known h0',?_⟩
    change CallOutcome sb A s n i (.ok ((s.mem n).st.addrs (Fin.ofNat 13 i))) ⟨s.mem n,s.storage⟩
    rw [← he]
    exact .known s.storage h0 hs.working rfl

lemma MapOk.call_known (h12 : 12 ≤ i) (hi : i < 140) (h0 : held sb s.storage.bytes n (some i) ≠ 0) :
    ∃ r d, s.call sb A.alloc n i = (r,d) ∧ CallOutcome sb A s n i r d := by
  have hmem := hs.mem_addrs hn
  have hind : (s.mem n).st.addrs 12 ≠ 0 := by
    intro h
    rw [held_some,entry_null h12 (hmem ▸ h)] at h0
    exact h0 rfl
  have hentry : held sb s.storage.bytes n (some i) =
      indirectEntry s.storage.bytes ((s.mem n).st.addrs 12) (i - 12) := by
    rw [held_some,← hmem,entry_indirect h12 hi hind]
  rw [MapState.call,mapBlock_indirect h12 hi,bind_of_ok (mapIndirect_known hind)]
  refine ⟨_,_,mapEntry_known (hs.working ..) (hentry ▸ h0),?_⟩
  change CallOutcome sb A s n i (.ok (indirectEntry s.storage.bytes ((s.mem n).st.addrs 12) (i - 12)))
    ⟨s.mem n,s.storage.tick⟩
  rw [← hentry]
  exact .known s.storage.tick h0 hs.working rfl

lemma MapOk.call_recordable (hr : Recordable sb s.storage.bytes n i) :
    ∃ r d, s.call sb A.alloc n i = (r,d) ∧ CallOutcome sb A s n i r d := by
  by_cases h12 : i < 12
  · exact hs.call_direct hn h12
  · by_cases h140 : i < 140
    · have h0 : held sb s.storage.bytes n (some i) ≠ 0 := by
        rcases hr with h | h | h
        · exact absurd h h12
        · omega
        · exact h
      exact hs.call_known hn (by omega) h140 h0
    · exact ⟨_,_,mapBlock_far (by omega),.far (by omega)⟩

end

lemma MapOk.same {st : Storage} (hw : st.Working) (hb : st.bytes = s.storage.bytes) :
    MapOk sb A ⟨st,update s.mem n (s.mem n),s.answers⟩ := by
  rw [update_eq_self]
  refine ⟨hw,?_,?_,?_⟩
  · rw [hb]
    exact hs.image
  · rw [hb]
    exact hs.mem
  · rw [hb]
    exact hs.answers

lemma MapOk.answer (hn : n < sb.ninodes.toNat) {b : Word32} (hb : b ≠ 0)
    (hh : held sb s.storage.bytes n (some i) = b) :
    MapOk sb A { s with answers := ((n,i),b) :: s.answers } := by
  refine ⟨hs.working,hs.image,hs.mem,?_⟩
  intro k j c hm
  rcases List.mem_cons.mp hm with heq | hm
  · cases heq
    exact ⟨hn,hb,hh⟩
  · exact hs.answers k j c hm

lemma MapOk.recorded (hn : n < sb.ninodes.toNat) (hi : i < 12) {b : Word32} {m : ℕ → Byte}
    {st : Storage} (h0 : held sb s.storage.bytes n (some i) = 0)
    (hf : Fresh A.region A.inUse s.storage.bytes m b) (hw : st.Working)
    (hb : st.bytes = record sb m n i b) : MapOk sb A ⟨st,update s.mem n
      ⟨n,(inodeAt sb s.storage.bytes n).setAddr (Fin.ofNat 13 i) b⟩,s.answers⟩ := by
  have hm := hs.image.fresh hf
  have hsa : ∀ k < sb.ninodes.toNat, inodeAt sb m k = inodeAt sb s.storage.bytes k := by
    intro k hk
    refine inodeAt_congr fun x hx => hf.frame x (fun hb => ?_) (fun hr => ?_)
    · exact disjoint_left.mp (hs.image.unused_apart hf.unused) hb (.inl ⟨k,hk,hx⟩)
    · exact disjoint_left.mp hs.image.layout ⟨k,hk,hx⟩ hr
  refine ⟨hw,?_,?_,?_⟩
  · rw [hb]
    refine hm.record hn hi hf.small ?_ ?_ (hs.image.unused_apart hf.unused)
    · rw [hf.marks]
      exact .inl rfl
    · intro k hk c hne heq
      rw [hs.image.held_fresh hf hk] at heq hne
      exact hf.unused (heq ▸ (hs.image.used k hk c hne).1)
  · intro k hk
    dsimp only
    rw [hb]
    by_cases hkn : k = n
    · subst hkn
      rw [update_self,inodeAt_record,hsa k hk]
    · rw [update_of_ne hkn,inodeAt_record_other i hkn,hsa k hk]
      exact hs.mem k hk
  · intro k j c hme
    obtain ⟨hk,hc,hh⟩ := hs.answers k j c hme
    refine ⟨hk,hc,?_⟩
    have ho : ¬ (k = n ∧ some j = some i) := by
      rintro ⟨rfl,hj⟩
      rw [hj,h0] at hh
      exact hc hh.symm
    rw [hb,hm.held_record_other hn hk hi ho,hs.image.held_fresh hf hk]
    exact hh

lemma MapOk.exec {op : MapOp} (hop : op.Allowed sb s.storage.bytes) :
    MapOk sb A (s.exec sb A.alloc op) := by
  cases op with
  | map n i =>
    obtain ⟨hn,hre⟩ := hop
    obtain ⟨r,d,hc,ho⟩ := hs.call_recordable hn hre
    rw [MapState.exec,hc]
    cases ho with
    | known st h0 hw hb =>
      refine (hs.same hw hb).answer hn h0 ?_
      dsimp only
      rw [hb]
    | recorded b m st hi h0 hf hw hb =>
      refine (hs.recorded hn hi h0 hf hw hb).answer hn hf.nonzero ?_
      dsimp only
      rw [hb]
      exact held_record_same hi
    | full st hi h0 hw hb => exact hs.same hw hb
    | far hi => exact hs.same hs.working rfl
  | reread n =>
    have hr : V6fsInode.read sb n s.storage =
        (.ok ⟨n,inodeAt sb s.storage.bytes n⟩,s.storage.tick) := by
      rw [V6fsInode.read,bind_of_ok (Storage.read_ok (hs.working ..))]
      rfl
    rw [MapState.exec,hr,← hs.mem n hop]
    exact hs.same hs.working rfl

lemma MapOk.run {t : MapState} (hr : Relation.ReflTransGen (MapSteps sb A.alloc) s t) :
    MapOk sb A t := by
  induction hr with
  | refl => exact hs
  | tail _ hst ih =>
    obtain ⟨op,hop,rfl⟩ := hst
    exact ih.exec hop

end

end

section
variable {sb : SuperBlock} {A : FreshAllocator} {s : MapState} {n i : ℕ} {d : Disk} {a b : Word32}

lemma again_other (h12 : 12 ≤ i) (hi : i < 140) (hw : d.storage.Working)
    (ha : d.inode.st.addrs 12 ≠ 0)
    (h0 : indirectEntry d.storage.bytes (d.inode.st.addrs 12) (i - 12) = 0)
    (hb : b ∈ A.inUse d.storage.bytes) : (mapBlock sb A.alloc i d).1 ≠ .ok b := by
  rw [mapBlock_indirect h12 hi,bind_of_ok (mapIndirect_known ha)]
  rcases A.outcome d.storage.tick hw.tick with ⟨c,st,hc,hf⟩ | ⟨st,hc,_⟩
  · rw [mapEntry_new hw h0 hc (A.working hw.tick hc)]
    intro heq
    cases heq
    exact hf.unused hb
  · rw [mapEntry_error hw h0 hc]
    intro heq
    cases heq

lemma mapEntry_unrecorded (h128 : i < 128) (hw : d.storage.Working)
    (ha : d.inode.st.addrs 12 = a) (ha0 : a ≠ 0) (hsm : a.toNat < 2 ^ 23)
    (hu : a ∈ A.inUse d.storage.bytes) (hap : Disjoint (block a.toNat) A.region)
    (h0 : indirectEntry d.storage.bytes a i = 0) :
    (∃ d', mapEntry A.alloc i a d = (.error (.state .errNoHwResource),d')) ∨
      ∃ c d', mapEntry A.alloc i a d = (.ok c,d') ∧ d'.storage.Working ∧
        d'.inode.st.addrs 12 ≠ 0 ∧ c ∈ A.inUse d'.storage.bytes ∧
        indirectEntry d'.storage.bytes (d'.inode.st.addrs 12) i = 0 := by
  rcases A.outcome d.storage.tick hw.tick with ⟨c,st,hc,hf⟩ | ⟨st,hc,_⟩
  · have hst := A.working hw.tick hc
    have hin : ∀ x, x < entryOffset c i ∨ entryOffset c i + (encode 4 0).length ≤ x ∨
        x ∈ block c.toNat := by
      intro x
      rw [length_encode]
      by_cases hx : x < entryOffset c i ∨ entryOffset c i + 4 ≤ x
      · exact hx.imp_right .inl
      · exact .inr (.inr (entry_range hf.small h128 (by omega) (by omega)))
    have hk : ∀ x ∉ block c.toNat, overwrite st.bytes (entryOffset c i) (encode 4 0) x = st.bytes x := by
      intro x hx
      rcases hin x with h | h | h
      · exact overwrite_outside _ (.inl h)
      · exact overwrite_outside _ (.inr h)
      · exact absurd h hx
    refine .inr ⟨c,_,mapEntry_new hw h0 hc hst,hst,ha ▸ ha0,?_,?_⟩
    · have hm := A.within _ _ fun x hx => hk x fun hb => disjoint_left.mp hf.apart hb hx
      change c ∈ A.inUse (overwrite st.bytes (entryOffset c i) (encode 4 0))
      rw [hm,hf.marks]
      exact .inl rfl
    · change indirectEntry (overwrite st.bytes (entryOffset c i) (encode 4 0)) (d.inode.st.addrs 12) i = 0
      rw [ha,← h0]
      refine indirectEntry_congr hsm h128 fun x hx => ?_
      have hne : a.toNat ≠ c.toNat := by
        intro heq
        exact hf.unused (eq_of_toNat_eq heq ▸ hu)
      have ho : x ∉ block c.toNat := fun hc => disjoint_left.mp (block_disjoint hne) hx hc
      rw [hk x ho]
      exact hf.frame x ho fun hr => disjoint_left.mp hap hx hr
  · exact .inl ⟨_,mapEntry_error hw h0 hc⟩

section
variable (hs : MapOk sb A s) (hn : n < sb.ninodes.toNat)
include hs hn

lemma MapOk.call_unrecorded (hr : ¬ Recordable sb s.storage.bytes n i) :
    (s.call sb A.alloc n i).1 = .error (.state .errNoHwResource) ∨
      ∃ b d, s.call sb A.alloc n i = (.ok b,d) ∧ (mapBlock sb A.alloc i d).1 ≠ .ok b := by
  obtain ⟨_,_,h0⟩ := not_or.mp hr |>.imp_right not_or.mp
  have hm := hs.mem_addrs hn
  have h128 : i - 12 < 128 := by omega
  have hfi : ∀ d a, d.storage.Working → d.inode.st.addrs 12 = a → a ≠ 0 →
      a.toNat < 2 ^ 23 → a ∈ A.inUse d.storage.bytes → Disjoint (block a.toNat) A.region →
      indirectEntry d.storage.bytes a (i - 12) = 0 →
      (mapEntry A.alloc (i - 12) a d).1 = .error (.state .errNoHwResource) ∨
        ∃ b d', mapEntry A.alloc (i - 12) a d = (.ok b,d') ∧ (mapBlock sb A.alloc i d').1 ≠ .ok b := by
    intro d a hw ha ha0 hsm hu hap hz
    rcases mapEntry_unrecorded h128 hw ha ha0 hsm hu hap hz with
      ⟨d',hd⟩ | ⟨b,d',hd,hw',ha',hb,hz'⟩
    · exact .inl (by rw [hd])
    · exact .inr ⟨b,d',hd,again_other (by omega) (by omega) hw' ha' hz' hb⟩
  have hc : s.call sb A.alloc n i =
      (mapIndirect A.alloc >>= mapEntry A.alloc (i - 12)) ⟨s.mem n,s.storage⟩ := by
    rw [MapState.call,mapBlock_indirect (by omega) (by omega)]
  rw [hc]
  by_cases hin : (s.mem n).st.addrs 12 = 0
  · rcases A.outcome s.storage hs.working with ⟨a,st,ha,hf⟩ | ⟨st,ha,_⟩
    · have had : (Disk.setAddr 12 a ⟨s.mem n,st⟩).inode.st.addrs 12 = a := by simp [Disk.setAddr]
      rw [bind_of_ok (mapIndirect_new hin ha)]
      refine hfi _ a (A.working hs.working ha)
        had hf.nonzero hf.small ?_ hf.apart (indirectEntry_zero hf.small h128 hf.zeroed)
      change a ∈ A.inUse st.bytes
      rw [hf.marks]
      exact .inl rfl
    · rw [bind_of_error (mapIndirect_error hin ha)]
      exact .inl rfl
  · have hh : held sb s.storage.bytes n none = (s.mem n).st.addrs 12 := by
      rw [held_none,hm]
    have hne : held sb s.storage.bytes n none ≠ 0 := hh ▸ hin
    obtain ⟨hu,hsm⟩ := hs.image.used n hn none hne
    have hap := (hs.image.held_apart hn hne).mono_right subset_union_right
    have hz : indirectEntry s.storage.bytes ((s.mem n).st.addrs 12) (i - 12) = 0 := by
      have he := not_not.mp h0
      rw [held_some,← hm,entry_indirect (by omega) (by omega) hin] at he
      exact he
    rw [hh] at hu hsm hap
    rw [bind_of_ok (mapIndirect_known hin)]
    exact hfi ⟨s.mem n,s.storage⟩ _ hs.working rfl hin hsm hu hap hz

lemma MapOk.call_held (h0 : held sb s.storage.bytes n (some i) ≠ 0) :
    ∃ st, s.call sb A.alloc n i =
      (.ok (held sb s.storage.bytes n (some i)),⟨s.mem n,st⟩) ∧ st.bytes = s.storage.bytes := by
  obtain ⟨r,d,hc,ho⟩ := hs.call_recordable hn (.inr (.inr h0))
  cases ho with
  | known st _ _ hb => exact ⟨st,hc,hb⟩
  | recorded _ _ _ _ hz _ _ _ | full _ _ hz _ _ => exact absurd hz h0
  | far hi =>
    rw [held_some,entry_far hi] at h0
    exact absurd rfl h0

lemma MapOk.call_again (hr : Recordable sb s.storage.bytes n i)
    (hc : s.call sb A.alloc n i = (.ok b,d)) : (mapBlock sb A.alloc i d).1 = .ok b := by
  have hop : MapOp.Allowed sb s.storage.bytes (.map n i) := ⟨hn,hr⟩
  have ht := hs.exec hop
  have he : s.exec sb A.alloc (.map n i) =
      ⟨d.storage,update s.mem n d.inode,((n,i),b) :: s.answers⟩ := by
    rw [MapState.exec,hc]
  rw [he] at ht
  obtain ⟨_,hb,hh⟩ := ht.answers n i b (List.mem_cons_self ..)
  obtain ⟨st,ha,_⟩ := ht.call_held hn (hh ▸ hb)
  have hd : MapState.call sb A.alloc ⟨d.storage,update s.mem n d.inode,((n,i),b) :: s.answers⟩ n i =
      mapBlock sb A.alloc i d := by
    rw [MapState.call]
    dsimp only
    rw [update_self]
  rw [← hd,ha,hh]

lemma MapOk.call_invalid : (s.call sb A.alloc n i).1 = .error (.state .errInvalid) ↔ 140 ≤ i := by
  constructor
  · intro he
    by_cases hr : Recordable sb s.storage.bytes n i
    · obtain ⟨r,d,hc,ho⟩ := hs.call_recordable hn hr
      rw [hc] at he
      cases ho with
      | known _ _ _ _ => cases he
      | recorded _ _ _ _ _ _ _ _ => cases he
      | full _ _ _ _ _ => cases he
      | far hi => exact hi
    · rcases hs.call_unrecorded hn hr with h | ⟨b,d,h,_⟩
      · rw [h] at he
        cases he
      · rw [h] at he
        cases he
  · intro hi
    rw [MapState.call,mapBlock_far hi]

end

structure MapSound (sb : SuperBlock) (alloc : Io Word32) (s : MapState) : Prop where
  same : ∀ p b c, (p,b) ∈ s.answers → (p,c) ∈ s.answers → b = c
  distinct : ∀ p q b, (p,b) ∈ s.answers → (q,b) ∈ s.answers → p = q
  indirect : ∀ p b, (p,b) ∈ s.answers → ∀ n < sb.ninodes.toNat,
    held sb s.storage.bytes n none ≠ b
  mapped : ∀ n < sb.ninodes.toNat, ∀ i, held sb s.storage.bytes n (some i) ≠ 0 →
    ∃ st : Storage, s.call sb alloc n i =
      (.ok (held sb s.storage.bytes n (some i)),⟨s.mem n,st⟩) ∧ st.bytes = s.storage.bytes
  invalid : ∀ n < sb.ninodes.toNat, ∀ i,
    (s.call sb alloc n i).1 = .error (.state .errInvalid) ↔ 140 ≤ i
  stable : ∀ n < sb.ninodes.toNat, ∀ i b d, s.call sb alloc n i = (.ok b,d) →
    ((mapBlock sb alloc i d).1 = .ok b ↔ Recordable sb s.storage.bytes n i)

lemma MapOk.sound (hs : MapOk sb A s) : MapSound sb A.alloc s := by
  refine ⟨?_,?_,?_,?_,?_,?_⟩
  · rintro ⟨n,i⟩ b c hb hc
    exact (hs.answers n i b hb).2.2.symm.trans (hs.answers n i c hc).2.2
  · rintro ⟨n,i⟩ ⟨k,j⟩ b hb hc
    obtain ⟨hn,hb0,hh⟩ := hs.answers n i b hb
    obtain ⟨hk,_,hh'⟩ := hs.answers k j b hc
    obtain ⟨rfl,hij⟩ := hs.image.distinct n hn k hk _ _ (hh.trans hh'.symm) (hh ▸ hb0)
    rw [Option.some.inj hij]
  · rintro ⟨n,i⟩ b hb k hk heq
    obtain ⟨hn,hb0,hh⟩ := hs.answers n i b hb
    obtain ⟨_,hc⟩ := hs.image.distinct n hn k hk _ none (hh.trans heq.symm) (hh ▸ hb0)
    cases hc
  · exact fun n hn i h0 => hs.call_held hn h0
  · exact fun n hn i => hs.call_invalid hn
  · intro n hn i b d hca
    constructor
    · intro ha
      by_contra hr
      rcases hs.call_unrecorded hn hr with h | ⟨c,d',h,hne⟩
      · rw [hca] at h
        cases h
      · rw [hca] at h
        cases h
        exact hne ha
    · exact fun hr => hs.call_again hn hr hca

end

theorem mapBlock_run {sb : SuperBlock} (A : FreshAllocator) {s t : MapState}
    (hw : s.storage.Working) (himage : ImageOk sb A s.storage.bytes)
    (hmem : ∀ n < sb.ninodes.toNat, s.mem n = ⟨n,inodeAt sb s.storage.bytes n⟩)
    (hempty : s.answers = []) (hrun : Relation.ReflTransGen (MapSteps sb A.alloc) s t) :
    MapSound sb A.alloc t := by
  have hs : MapOk sb A s := by
    refine ⟨hw,himage,hmem,?_⟩
    rw [hempty]
    intro n i b h
    cases h
  exact (hs.run hrun).sound

def nextBlock (m : ℕ → Byte) : ℕ := decode (slice m 0 4)

def bumpAlloc : Io Word32 := fun st =>
  if 1 ≤ nextBlock st.bytes ∧ nextBlock st.bytes < 2 ^ 23 then
    (.ok (BitVec.ofNat 32 (nextBlock st.bytes)),
      (st.put (512 * nextBlock st.bytes) (List.replicate 512 0)).put 0
        (encode 4 (nextBlock st.bytes + 1)))
  else (.error (.state .errNoHwResource),st)

lemma nextBlock_bump (m : ℕ → Byte) {n : ℕ} (h : n < 2 ^ 32) :
    nextBlock (overwrite m 0 (encode 4 n)) = n := by
  have hsl := slice_overwrite m 0 (encode 4 n)
  rw [length_encode] at hsl
  rw [nextBlock,hsl,decode_encode]
  omega

lemma bump_after (m : ℕ → Byte) (n : ℕ) {x : ℕ} (hx : 4 ≤ x) :
    overwrite m 0 (encode 4 n) x = m x :=
  overwrite_outside _ (.inr (by rw [length_encode]; omega))

lemma zeroed_inside (m : ℕ → Byte) {b x : ℕ} (hx : x ∈ block b) :
    overwrite m (512 * b) (List.replicate 512 0) x = 0 := by
  obtain ⟨j,rfl⟩ := Nat.exists_eq_add_of_le hx.1
  have hj : j < (List.replicate 512 (0 : Byte)).length := by
    have hlt := hx.2
    rw [List.length_replicate]
    omega
  rw [overwrite_inside _ _ hj,List.getElem_replicate]

lemma zeroed_outside (m : ℕ → Byte) {b x : ℕ} (hx : x ∉ block b) :
    overwrite m (512 * b) (List.replicate 512 0) x = m x := by
  refine overwrite_outside _ ?_
  rw [List.length_replicate]
  unfold block at hx
  rw [mem_Ico] at hx
  omega

lemma below_succ {n : ℕ} {b : Word32} (hb : b.toNat = n) :
    {a : Word32 | a.toNat < n + 1} = insert b {a | a.toNat < n} := by
  ext a
  rw [mem_ofPred_eq,mem_insert_iff,mem_ofPred_eq]
  constructor
  · intro ha
    rcases Nat.lt_succ_iff_lt_or_eq.mp ha with h | h
    · exact .inr h
    · exact .inl (eq_of_toNat_eq (h.trans hb.symm))
  · rintro (rfl | h)
    · rw [hb]
      exact Nat.lt_succ_self n
    · exact Nat.lt_succ_of_lt h

lemma bumpAlloc_fresh {st : Storage} (h1 : 1 ≤ nextBlock st.bytes)
    (h23 : nextBlock st.bytes < 2 ^ 23) :
    Fresh (Set.Ico 0 4) (fun m => {a | a.toNat < nextBlock m}) st.bytes
      (overwrite (overwrite st.bytes (512 * nextBlock st.bytes) (List.replicate 512 0)) 0
        (encode 4 (nextBlock st.bytes + 1))) (BitVec.ofNat 32 (nextBlock st.bytes)) := by
  generalize hn : nextBlock st.bytes = n at h1 h23 ⊢
  have hna : (BitVec.ofNat 32 n).toNat = n := by
    rw [BitVec.toNat_ofNat,Nat.mod_eq_of_lt (by omega)]
  refine ⟨?_,?_,?_,?_,?_,?_,?_⟩
  · rw [mem_ofPred_eq,hna,hn]
    exact lt_irrefl n
  · intro h0
    rw [h0] at hna
    exact absurd hna (Nat.ne_of_lt h1)
  · rw [hna]
    exact h23
  · rw [nextBlock_bump _ (by omega),hn]
    exact below_succ hna
  · intro x hx
    rw [hna] at hx
    have hlo := hx.1
    rw [bump_after _ _ (by omega),zeroed_inside _ hx]
  · rw [hna,disjoint_left]
    intro x hb hr
    have hlo := hb.1
    have hhi := hr.2
    omega
  · intro x hb hr
    rw [hna] at hb
    have hx : 4 ≤ x := by
      by_contra hlt
      exact hr ⟨Nat.zero_le x,by omega⟩
    rw [bump_after _ _ hx,zeroed_outside _ hb]

def bump : FreshAllocator where
  alloc := bumpAlloc
  region := Set.Ico 0 4
  inUse := fun m => {a | a.toNat < nextBlock m}
  within := by
    intro m m' h
    have hnext : nextBlock m' = nextBlock m := by
      rw [nextBlock,nextBlock,slice_congr fun x _ hx => h x ⟨Nat.zero_le x,by omega⟩]
    exact congrArg (fun k => {a : Word32 | a.toNat < k}) hnext
  steady := by
    intro st
    unfold bumpAlloc
    split_ifs
    · simp only [Storage.put_status]
    · rfl
  outcome := by
    intro st _
    by_cases h : 1 ≤ nextBlock st.bytes ∧ nextBlock st.bytes < 2 ^ 23
    · refine .inl ⟨_,_,if_pos h,?_⟩
      simp only [Storage.put_bytes]
      exact bumpAlloc_fresh h.1 h.2
    · exact .inr ⟨st,if_neg h,rfl⟩

def oneInode : SuperBlock := ⟨16,8,1,0,2,1,2⟩

def emptyFiles : MapState :=
  ⟨⟨fun i => if i = 0 then 2 else 0,fun _ _ _ => .ok,0⟩,fun n => ⟨n,⟨0,0,0,0,0,fun _ => 0⟩⟩,[]⟩

lemma emptyFiles_inode {n : ℕ} (hn : n < 1) :
    inodeAt oneInode emptyFiles.storage.bytes n = ⟨0,0,0,0,0,fun _ => 0⟩ := by
  obtain rfl : n = 0 := by omega
  have hz : inodeAt oneInode emptyFiles.storage.bytes 0 = inodeAt oneInode (fun _ => 0) 0 :=
    inodeAt_congr fun x hx => if_neg (Nat.ne_of_gt (lt_of_lt_of_le (by decide) hx.1))
  rw [hz,inodeAt,parse,mk.injEq]
  refine ⟨by decide,by decide,by decide,by decide,by decide,funext fun k => ?_⟩
  revert k
  decide

lemma emptyFiles_held {n : ℕ} (hn : n < 1) (c : Option ℕ) :
    held oneInode emptyFiles.storage.bytes n c = 0 := by
  cases c with
  | none => rw [held_none,emptyFiles_inode hn]
  | some i =>
    rw [held_some,emptyFiles_inode hn]
    by_cases hi : i < 12
    · exact entry_direct hi
    · exact entry_null (by omega) rfl

lemma emptyFiles_image : ImageOk oneInode bump emptyFiles.storage.bytes := by
  refine ⟨?_,?_,?_,?_⟩
  · rw [disjoint_left]
    rintro x ⟨n,_,hx⟩ hr
    have hlo : 512 + 64 * n ≤ x := hx.1
    have hhi : x < 4 := hr.2
    omega
  · intro n hn k _ c e _ h0
    exact absurd (emptyFiles_held hn c) h0
  · intro n hn c h0
    exact absurd (emptyFiles_held hn c) h0
  · intro b hd
    obtain ⟨x,hb,hx⟩ := not_disjoint_iff.mp hd
    have hlo := hb.1
    refine ⟨?_,fun n hn c h0 => absurd (emptyFiles_held hn c) h0⟩
    change b.toNat < 2
    rcases hx with ⟨n,hn,hx⟩ | hx
    · have hn1 : n < 1 := hn
      have hhi : x < 512 + 64 * n + 64 := hx.2
      omega
    · have hhi := hx.2
      omega

theorem mapBlock_run_bump : MapSteps oneInode bump.alloc emptyFiles
      (emptyFiles.exec oneInode bump.alloc (.map 0 0)) ∧
    MapSound oneInode bump.alloc (emptyFiles.exec oneInode bump.alloc (.map 0 0)) := by
  have hst : MapSteps oneInode bump.alloc emptyFiles
      (emptyFiles.exec oneInode bump.alloc (.map 0 0)) :=
    ⟨.map 0 0,⟨by decide,.inl (by decide)⟩,rfl⟩
  refine ⟨hst,mapBlock_run bump (fun _ _ _ => rfl) emptyFiles_image ?_ rfl (.single hst)⟩
  intro n hn
  rw [emptyFiles_inode hn]
  rfl

theorem mapBlock_twice : (emptyFiles.call oneInode bump.alloc 0 12).1 = .ok 3 ∧
    (mapBlock oneInode bump.alloc 12 (emptyFiles.call oneInode bump.alloc 0 12).2).1 = .ok 4 := by
  exact ⟨by decide,by decide⟩

end Fs
