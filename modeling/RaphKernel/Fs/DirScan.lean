import RaphKernel.Library.Ends
import RaphKernel.Fs.DirSearch

namespace Fs
open Bytes Fallible Along BitVec Storage Nat InodeStruct

def Reported (e : Failure) : Prop := ∃ s, e = .state s

lemma read_ends (offset size : ℕ) (st : Storage) : Ends Reported (Storage.read offset size) st := by
  by_cases h : st.status st.clock offset size = .ok
  · exact ends_of_ok (read_ok h)
  · exact (ends_of_error (read_error h)).mpr ⟨_,rfl⟩

lemma write_ends (offset : ℕ) (data : List Byte) (st : Storage) :
    Ends Reported (write offset data) st := by
  intro e he
  unfold write at he
  split at he
  · cases he
  · cases he
    exact ⟨_,rfl⟩

section
open BlockCtrl
variable {sb : SuperBlock} {fuel k : ℕ} {t : Storage}

-- One turn of the bitmap scan finds nothing: the byte is read and has no clear bit.
structure Passed (sb : SuperBlock) (t : Storage) (time k : ℕ) : Prop where
  below : BitVec.ofNat 32 (8 * k) < sb.size
  answered : t.status time (bitmapOffset sb (BitVec.ofNat 32 (8 * k))) 1 = .ok
  full : flagAt sb t.bytes k = 0xff

def Stuck (sb : SuperBlock) (fuel : ℕ) (t : Storage) : Prop :=
  ∀ j < fuel, Passed sb t (t.clock + j) j

lemma passed_tick {time : ℕ} : Passed sb t.tick time k ↔ Passed sb t time k :=
  ⟨fun h => ⟨h.below,h.answered,h.full⟩,fun h => ⟨h.below,h.answered,h.full⟩⟩

lemma allocLoop_passed (h : Passed sb t t.clock k) :
    allocLoop sb (fuel + 1) (BitVec.ofNat 32 (8 * k)) t =
      allocLoop sb fuel (BitVec.ofNat 32 (8 * (k + 1))) t.tick := by
  have hf : (slice t.bytes (bitmapOffset sb (BitVec.ofNat 32 (8 * k))) 1).headD 0 =
      flagAt sb t.bytes k := rfl
  rw [allocLoop,if_pos h.below,bind_of_ok (read_ok h.answered),hf,
    firstClear_none.mpr h.full,ofNat_next]

lemma allocLoop_stops (h : ¬ Passed sb t t.clock k) :
    Ends Reported (allocLoop sb (fuel + 1) (BitVec.ofNat 32 (8 * k))) t := by
  rw [allocLoop]
  by_cases hb : BitVec.ofNat 32 (8 * k) < sb.size
  · rw [if_pos hb]
    refine ends_bind.mpr ⟨read_ends _ _ _,fun data u hr => ?_⟩
    by_cases hs : t.status t.clock (bitmapOffset sb (BitVec.ofNat 32 (8 * k))) 1 = .ok
    · rw [read_ok hs] at hr
      cases hr
      dsimp only
      have hc : firstClear ((slice t.bytes (bitmapOffset sb (BitVec.ofNat 32 (8 * k))) 1).headD 0)
          ≠ none := fun hn => h ⟨hb,hs,firstClear_none.mp hn⟩
      split
      · refine ends_then (write_ends _ _ _) fun _ _ => ?_
        exact ends_then (write_ends _ _ _) fun _ _ => ends_pure _
      · rename_i hn
        exact absurd hn hc
    · rw [read_error hs] at hr
      cases hr
  · rw [if_neg hb]
    exact ends_fail.mpr ⟨_,rfl⟩

lemma allocLoop_ends : Ends Reported (allocLoop sb fuel (BitVec.ofNat 32 (8 * k))) t ↔
    ¬ ∀ j < fuel, Passed sb t (t.clock + j) (k + j) := by
  induction fuel generalizing k t with
  | zero => simp [allocLoop,ends_fail,Reported]
  | succ fuel ih =>
    by_cases h : Passed sb t t.clock k
    · have hp : (∀ j < fuel + 1, Passed sb t (t.clock + j) (k + j)) ↔
          ∀ j < fuel, Passed sb t.tick (t.tick.clock + j) (k + 1 + j) := by
        have ht : ∀ j, t.tick.clock + j = t.clock + (j + 1) := add_right_comm _ 1
        have hb : ∀ j, k + 1 + j = k + (j + 1) := add_right_comm _ 1
        have hf : Passed sb t (t.clock + 0) (k + 0) := h
        simp only [forall_lt_succ_left,passed_tick,ht,hb,hf,true_and]
      rw [hp,← ih,Ends,Ends,allocLoop_passed h]
    · exact iff_of_true (allocLoop_stops h) fun ha => h (ha 0 (succ_pos _))

lemma alloc_ends : Ends Reported (alloc sb fuel) t ↔ ¬ Stuck sb fuel t := by
  have h : Ends Reported (allocLoop sb fuel (BitVec.ofNat 32 (8 * 0))) t ↔
      ¬ ∀ j < fuel, Passed sb t (t.clock + j) (0 + j) := allocLoop_ends
  simp only [zero_add] at h
  exact h

lemma not_stuck (hs : sb.size.toNat ≤ 2 ^ 32 - 8) (hf : sb.size.toNat + 8 ≤ 8 * fuel) :
    ¬ Stuck sb fuel t := by
  intro h
  have hb := (h ((sb.size.toNat + 7) / 8) (by omega)).below
  rw [lt_def,toNat_ofNat,mod_eq_of_lt (by omega)] at hb
  omega

lemma passed_mod {time : ℕ} (h : Passed sb t time (k % 2 ^ 29)) : Passed sb t time k := by
  have hb : BitVec.ofNat 32 (8 * (k % 2 ^ 29)) = BitVec.ofNat 32 (8 * k) := by
    apply eq_of_toNat_eq
    rw [toNat_ofNat,toNat_ofNat]
    omega
  have hf : flagAt sb t.bytes (k % 2 ^ 29) = flagAt sb t.bytes k := by
    rw [flagAt,flagAt,hb]
  refine ⟨hb ▸ h.below,hb ▸ h.answered,hf ▸ h.full⟩

-- Past 2 ^ 29 bytes the 32-bit block number has come back to zero and the scan repeats itself.
lemma Stuck.forever (ht : ∀ n, t.status n = t.status t.clock) (h : Stuck sb (2 ^ 29) t)
    (fuel : ℕ) : Stuck sb fuel t := by
  intro j _
  have hp := h (j % 2 ^ 29) (mod_lt _ (by decide))
  refine passed_mod ⟨hp.below,?_,hp.full⟩
  rw [ht,← ht _]
  exact hp.answered

theorem alloc_ends_iff (ht : ∀ n, t.status n = t.status t.clock) :
    ((∃ fuel, Ends Reported (alloc sb fuel) t) ↔ ¬ Stuck sb (2 ^ 29) t) ∧
      (sb.size.toNat ≤ 2 ^ 32 - 8 → ¬ Stuck sb (2 ^ 29) t) := by
  refine ⟨⟨fun ⟨fuel,he⟩ hs => ?_,fun hs => ⟨_,alloc_ends.mpr hs⟩⟩,fun hs => not_stuck hs (by omega)⟩
  exact alloc_ends.mp he (hs.forever ht fuel)

theorem alloc_ends_small : ∃ fuel,
    Ends Reported (alloc ⟨8,0,0,0,0,0,0⟩ fuel) ⟨fun _ => 0xff,fun _ _ _ => .ok,0⟩ := by
  obtain ⟨hi,hs⟩ := @alloc_ends_iff ⟨8,0,0,0,0,0,0⟩ ⟨fun _ => 0xff,fun _ _ _ => .ok,0⟩ fun _ => rfl
  exact hi.mpr (hs (by decide))

end

section
variable {sb : SuperBlock} {alloc : Io Word32} {tail : ℕ → ℕ → Byte} {name : List Byte}
  {s : InodeStruct} {st : Storage} {n p c j : ℕ} {m : ℕ → Byte} {d : Disk}

/-- Every block that a search of the directory reaches is mapped. -/
def Solid (s : InodeStruct) (m : ℕ → Byte) (tail : ℕ → ℕ → Byte) (name : List Byte) : Prop :=
  ∀ k < 140, 512 * k < s.size.toNat → (∀ j < 32 * k, ¬ Hit s m tail name j) → s.entry m k ≠ 0

structure FirstHit (s : InodeStruct) (m : ℕ → Byte) (tail : ℕ → ℕ → Byte) (name : List Byte)
    (j : ℕ) : Prop where
  inside : 16 * (j + 1) ≤ s.size.toNat
  near : j / 32 < 140
  hit : Hit s m tail name j
  before : ∀ i < j, ¬ Hit s m tail name i

lemma readBlock_answers (sb : SuperBlock) (alloc : Io Word32) (n c : ℕ)
    (h : p / 512 < 140 → s.entry st.bytes (p / 512) ≠ 0) : ∃ k,
    (p / 512 < 140 ∧ readBlock sb alloc p c ⟨⟨n,s⟩,st⟩ =
      (.ok (slice st.bytes (blockOffset (s.entry st.bytes (p / 512)) + p % 512) c),
        ⟨⟨n,s⟩,st.after k⟩)) ∨
    ∃ e, readBlock sb alloc p c ⟨⟨n,s⟩,st⟩ = (.error (.state e),⟨⟨n,s⟩,st.after k⟩) := by
  rw [readBlock_eq]
  by_cases hf : p / 512 < 140
  · by_cases hs : 12 ≤ p / 512 → st.status st.clock (entryOffset (s.addrs 12) (p / 512 - 12)) 4 = .ok
    · have hm : mapBlock sb alloc (p / 512) ⟨⟨n,s⟩,st⟩ = _ := mapBlock_entry (h hf) hs
      refine ⟨requests (p / 512) - 1 + 1,?_⟩
      rw [bind_of_ok hm]
      by_cases hr : (st.after (requests (p / 512) - 1)).status
          (st.after (requests (p / 512) - 1)).clock
          (blockOffset (s.entry st.bytes (p / 512)) + p % 512) c = .ok
      · exact .inl ⟨hf,onStorage_ok (read_ok hr)⟩
      · exact .inr ⟨_,onStorage_error (read_error hr)⟩
    · obtain ⟨hk,hs⟩ := Classical.not_imp.mp hs
      exact ⟨1,.inr ⟨_,bind_of_error (mapBlock_fault (h hf) hk hs)⟩⟩
  · exact ⟨0,.inr ⟨_,bind_of_error (mapBlock_far (not_lt.mp hf))⟩⟩

lemma read_answers (sb : SuperBlock) (alloc : Io Word32) (n : ℕ) (hp : 16 * j < s.size.toNat)
    (h : j / 32 < 140 → s.entry st.bytes (j / 32) ≠ 0) : ∃ r k, readDataFromInode sb alloc (BitVec.ofNat 64 (16 * j)) 16 ⟨⟨n,s⟩,st⟩ =
      (.ok r,⟨⟨n,s⟩,st.after k⟩) ∧ (r.state = .ok → r.size = 16 →
        j / 32 < 140 ∧ 16 * (j + 1) ≤ s.size.toNat ∧ DirEntry.parse r.data = direntAt s st.bytes j) := by
  have hd : 16 * j / 512 = j / 32 := by omega
  have hmo : 16 * j % 512 = 16 * (j % 32) := by omega
  rw [read_inside hp]
  obtain ⟨k,⟨hn,hr⟩ | ⟨e,hr⟩⟩ :=
    readBlock_answers sb alloc n (min 16 (s.size.toNat - 16 * j)) (hd.symm ▸ h)
  · refine ⟨_,k,readLoop_single (by omega) (by omega) hr,fun _ hsz => ?_⟩
    have hmi : min 16 (s.size.toNat - 16 * j) = 16 := hsz
    dsimp only
    rw [hd] at hn
    rw [hd,hmo,hmi]
    exact ⟨hn,by omega,rfl⟩
  · refine ⟨_,k,readLoop_error (by omega) (by omega) hr,fun _ hsz => ?_⟩
    cases hsz

lemma Solid.entry (h : Solid s m tail name) (hin : 16 * j < s.size.toNat)
    (hb : ∀ i < j, ¬ Hit s m tail name i) (hn : j / 32 < 140) : s.entry m (j / 32) ≠ 0 :=
  h _ hn (by omega) fun i hi => hb i (by omega)

lemma Solid.mapped (h : Solid s m tail name) (hf : FirstHit s m tail name j) {k : ℕ}
    (hk : 512 * k < 16 * (j + 1)) : s.entry m k ≠ 0 := by
  obtain ⟨hin,hn,_,hb⟩ := hf
  exact h k (by omega) (by omega) fun i hi => hb i (by omega)

/-- Where a search of a directory without holes stops: it only ticks the clock, and what it finds
is the first hit. -/
def Stops (s : InodeStruct) (n : ℕ) (st : Storage) (tail : ℕ → ℕ → Byte) (name : List Byte) :
    Except Failure (ℕ × BitVec 16) → Disk → Prop
  | .ok found, d => (∃ k, d = ⟨⟨n,s⟩,st.after k⟩) ∧
    ∃ t, FirstHit s st.bytes tail name t ∧ found.2 = (direntAt s st.bytes t).inum
  | .error e, _ => Reported e

lemma Stops.after {k : ℕ} {r : Except Failure (ℕ × BitVec 16)} {d : Disk}
    (h : Stops s n (st.after k) tail name r d) : Stops s n st tail name r d := by
  cases r with
  | error e => exact h
  | ok found =>
    obtain ⟨⟨l,hd⟩,hf⟩ := h
    exact ⟨⟨k + l,by rw [hd,after_after]⟩,hf⟩

lemma Solid.stops (h : Solid s st.bytes tail name) (hb : ∀ i < j, ¬ Hit s st.bytes tail name i) :
    Stops s n st tail name (searchLoop sb alloc tail name s.size.toNat (16 * j) ⟨⟨n,s⟩,st⟩).1
      (searchLoop sb alloc tail name s.size.toNat (16 * j) ⟨⟨n,s⟩,st⟩).2 := by
  induction hn : s.size.toNat - 16 * j using Nat.strong_induction_on generalizing j st with
  | _ x ih =>
    rw [searchLoop]
    split_ifs with hlt
    · obtain ⟨r,k,hr,hda⟩ := read_answers sb alloc n hlt (h.entry hlt hb)
      rw [bind_of_ok hr]
      by_cases hs : r.state = .ok
      · by_cases hsz : r.size = 16
        · obtain ⟨hne,hin,hd⟩ := hda hs hsz
          have hk : Solid s (st.after k).bytes tail name := h
          have hnext (hj : ¬ Hit s st.bytes tail name j) :=
            (ih _ (by omega) hk (forall_lt_succ_right.mpr ⟨hb,hj⟩) rfl).after
          rw [if_neg (not_not.mpr hs),if_neg (not_not.mpr hsz),hd]
          split_ifs with h0 hc
          · exact hnext fun hh => hh.1 h0
          · exact ⟨⟨k,rfl⟩,j,⟨hin,hne,⟨h0,hc⟩,hb⟩,rfl⟩
          · exact hnext fun hh => hc hh.2
        · rw [if_neg (not_not.mpr hs),if_pos hsz]
          exact ⟨_,rfl⟩
      · rw [if_pos hs]
        exact ⟨_,rfl⟩
    · exact ⟨_,rfl⟩

lemma Solid.searchDir (h : Solid s st.bytes tail name) (sb : SuperBlock) (alloc : Io Word32)
    (n : ℕ) : Stops s n st tail name (Fs.searchDir sb alloc tail name ⟨⟨n,s⟩,st⟩).1
      (Fs.searchDir sb alloc tail name ⟨⟨n,s⟩,st⟩).2 := by
  rw [Fs.searchDir,asks_bind]
  by_cases ht : s.type = 1
  · rw [if_neg (not_not.mpr ht)]
    exact h.stops (j := 0) fun i hi => absurd hi (not_lt_zero i)
  · rw [if_pos ht]
    exact ⟨_,rfl⟩

end

end Fs
