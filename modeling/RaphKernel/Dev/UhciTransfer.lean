import RaphKernel.Dev.RingBuffer
import RaphKernel.Library.Loop

namespace Uhci
open Dev (RingBuffer)
open Loop (Returns iterate)
open List

variable {T Q : Type} {S : ℕ}

def assertPush (r : RingBuffer T S) (x : T) : Option (RingBuffer T S) :=
  if (r.push x).1 then some (r.push x).2 else none

def fill : ℕ → RingBuffer T S → List T × RingBuffer T S
  | 0, r => ([],r)
  | n + 1, r =>
    match r.pop with
    | none => ([],r)
    | some (td,r) => (td :: (fill n r).1,(fill n r).2)

def reuse (array : List (Option T)) (r : RingBuffer T S) : RingBuffer T S :=
  (array.filterMap id).foldl (fun r td => (r.push td).2) r

structure Result (T Q : Type) where
  tdBuf : RingBuffer T 128
  qhBuf : RingBuffer Q 256
  started : Option (List (Option T))
  success : Bool

/-- What the status words of the setup and the status descriptor show at one poll. -/
structure Status where
  td2Active : Bool
  td1Stalled : Bool
  td1CrcError : Bool

def Status.td1Failed (s : Status) : Bool := s.td1Stalled || s.td1CrcError

section
variable (hw : ℕ → Status)

-- only td1 is looked at for errors: a stalled data descriptor keeps the loop going
def waitTransfer (k : ℕ) : Sum ℕ ℕ :=
  if (hw k).td2Active && !(hw k).td1Failed then .inl (k + 1) else .inr k

def Completes : Prop := ∃ k, (hw k).td2Active = false ∨ (hw k).td1Failed = true

variable (stack : ℕ → Option T) (dataSize : ℕ) (tdBuf : RingBuffer T 128) (qhBuf : RingBuffer Q 256)

def tdNum : ℕ := (dataSize + 7) / 8

/-- `none` while the wait for the hardware has not ended after `fuel` polls, `some none` when an
assertion fails. -/
def sendControlTransfer (fuel : ℕ) : Option (Option (Result T Q)) :=
  let unset := (range (tdNum dataSize)).map stack
  match qhBuf.pop with
  | none => some (some ⟨reuse unset tdBuf,qhBuf,none,false⟩)
  | some (qh1,qhs) =>
    match tdBuf.pop with
    | none => some do
      let qhs ← assertPush qhs qh1
      some ⟨reuse unset tdBuf,qhs,none,false⟩
    | some (td1,tds) =>
      match tds.pop with
      | none => some do
        let tds ← assertPush tds td1
        let qhs ← assertPush qhs qh1
        some ⟨reuse unset tds,qhs,none,false⟩
      | some (td2,tds) =>
        -- the failing exit of the acquiring loop leaves the rest of the array as it was
        let filled := fill (tdNum dataSize) tds
        let array := filled.1.map some ++ unset.drop filled.1.length
        (iterate (waitTransfer hw) fuel 0).map fun k => do
          let tds ← assertPush filled.2 td1
          let tds ← assertPush tds td2
          let qhs ← assertPush qhs qh1
          some ⟨reuse array tds,qhs,some array,!(hw (k + 1)).td1Failed⟩

def Atomic : Prop :=
  ∃ fuel r, sendControlTransfer hw stack dataSize tdBuf qhBuf fuel = some (some r) ∧
    r.tdBuf.contents.Perm tdBuf.contents ∧ r.qhBuf.contents.Perm qhBuf.contents ∧
    ∀ array, r.started = some array → tdNum dataSize + 2 ≤ tdBuf.contents.length ∧
      array = ((tdBuf.contents.drop 2).take (tdNum dataSize)).map some

def Supplied : Prop :=
  if qhBuf.contents = [] ∨ tdBuf.contents.length < 2 then
    (∀ i < tdNum dataSize, stack i = none) ∨ tdBuf.contents.length = 128
  else tdNum dataSize + 2 ≤ tdBuf.contents.length ∧ Completes hw

end

section
variable {hw : ℕ → Status}

lemma wait_of_exit {k : ℕ} (h : (hw k).td2Active = false ∨ (hw k).td1Failed = true) :
    ∀ {i}, i ≤ k → ∃ j, Returns (waitTransfer hw) i j := by
  intro i hi
  induction hi using Nat.decreasingInduction with
  | self => exact ⟨k,Loop.returns_of_exit (by rcases h with h | h <;> simp [waitTransfer,h])⟩
  | of_succ i _ ih =>
    by_cases hc : (hw i).td2Active && !(hw i).td1Failed
    · have hs : waitTransfer hw i = .inl (i + 1) := if_pos hc
      exact ih.imp fun j hj => (Loop.returns_step_iff hs).mpr hj
    · exact ⟨i,Loop.returns_of_exit (if_neg hc)⟩

lemma wait_returns_iff : (∃ j, Returns (waitTransfer hw) 0 j) ↔ Completes hw := by
  constructor
  · rintro ⟨j,hj⟩
    refine ⟨j,Loop.returns_invariant (P := fun _ => True)
      (Q := fun k => (hw k).td2Active = false ∨ (hw k).td1Failed = true)
      (fun _ _ _ _ => trivial) ?_ trivial hj⟩
    intro k j _ hk
    by_cases hc : (hw k).td2Active && !(hw k).td1Failed
    · simp [waitTransfer,hc] at hk
    · obtain rfl : k = j := by simpa [waitTransfer,hc] using hk
      simpa [or_iff_not_imp_left] using hc
  · rintro ⟨k,hk⟩
    exact wait_of_exit hk k.zero_le

end

section
variable {r : RingBuffer T S} {x : T} {l : List T}

lemma contents_length (r : RingBuffer T S) : r.contents.length ≤ S :=
  r.length_contents ▸ r.size_le

lemma assertPush_ok (h : r.contents.length < S) (x : T) :
    ∃ r', assertPush r x = some r' ∧ r'.contents = r.contents ++ [x] := by
  obtain ⟨hp,hc⟩ := r.push_contents h x
  exact ⟨r.store x,by simp [assertPush,hp],hc⟩

lemma advance_ok (h : r.contents = x :: l) : ∃ r', assertPush r.advance x = some r' ∧
    r.pop = some (x,r.advance) ∧ r.advance.contents = l ∧ r'.contents = l ++ [x] := by
  obtain ⟨hpo,hr⟩ := r.pop_contents h
  have hl := contents_length r
  rw [h,length_cons,← hr] at hl
  obtain ⟨r',hp,hc⟩ := assertPush_ok hl x
  exact ⟨r',hp,hpo,hr,hr ▸ hc⟩

lemma fill_contents (n : ℕ) (h : r.contents = l) :
    (fill n r).1 = l.take n ∧ (fill n r).2.contents = l.drop n := by
  induction n generalizing r l with
  | zero => exact ⟨rfl,h⟩
  | succ n ih =>
    cases l with
    | nil => simpa [fill,r.pop_empty h] using h
    | cons x l =>
      obtain ⟨hp,hr⟩ := r.pop_contents h
      simpa [fill,hp] using ih hr

lemma reuse_contents (array : List (Option T)) (r : RingBuffer T S) : (reuse array r).contents =
      r.contents ++ (array.filterMap id).take (S - r.contents.length) := by
  rw [reuse]
  induction array.filterMap id generalizing r with
  | nil => simp
  | cons x l ih =>
    rw [foldl_cons,ih]
    by_cases hr : r.contents.length < S
    · obtain ⟨hp,hc⟩ := r.push_contents hr x
      have ho : S - r.contents.length = S - (r.contents.length + 1) + 1 := by omega
      simp [hp,hc,ho]
    · have hf := Nat.le_antisymm (contents_length r) (Nat.not_lt.mp hr)
      simp [r.push_full hf,hf]

lemma reuse_perm_iff {array : List (Option T)} (h : r.contents.Perm l) :
    (reuse array r).contents.Perm l ↔ array.filterMap id = [] ∨ l.length = S := by
  have hle := contents_length r
  rw [reuse_contents,h.length_eq] at *
  constructor
  · intro hp
    have hl := hp.length_eq
    rw [length_append,length_take,h.length_eq] at hl
    rw [← length_eq_zero_iff]
    omega
  · rintro (hn | hf)
    · rwa [hn,take_nil,append_nil]
    · rwa [hf,Nat.sub_self,take_zero,append_nil]

end

theorem control_transfer_atomic_iff (hw : ℕ → Status) (stack : ℕ → Option T) (dataSize : ℕ)
    (tdBuf : RingBuffer T 128) (qhBuf : RingBuffer Q 256) :
    Atomic hw stack dataSize tdBuf qhBuf ↔ Supplied hw stack dataSize tdBuf qhBuf := by
  have hu {tds : RingBuffer T 128} (h : tds.contents.Perm tdBuf.contents) :
      (reuse ((range (tdNum dataSize)).map stack) tds).contents.Perm tdBuf.contents ↔
        (∀ i < tdNum dataSize, stack i = none) ∨ tdBuf.contents.length = 128 := by
    rw [reuse_perm_iff h]
    simp [filterMap_eq_nil_iff]
  simp only [Atomic,Supplied,sendControlTransfer]
  cases hqh : qhBuf.contents with
  | nil => simp [qhBuf.pop_empty hqh,hu,hqh]
  | cons qh1 qhs =>
    obtain ⟨qhs',hp,hpo,-,hq⟩ := advance_ok hqh
    have hpe : qhs'.contents.Perm (qh1 :: qhs) := hq ▸ perm_append_singleton ..
    rcases htd : tdBuf.contents with _ | ⟨td1,_ | ⟨td2,l⟩⟩ <;> rw [← htd]
    · rw [if_pos (.inr (by simp [htd]))]
      simp [hpo,tdBuf.pop_empty htd,hp,hu,hpe]
    · obtain ⟨tds,ht,htp,hr,hts⟩ := advance_ok htd
      have hb : tds.contents.Perm tdBuf.contents := by rw [hts,htd]; rfl
      rw [if_pos (.inr (by simp [htd]))]
      simp [hpo,htp,tdBuf.advance.pop_empty hr,hp,ht,hu hb,hpe]
    · obtain ⟨-,-,hpo1,hr1,-⟩ := advance_ok htd
      obtain ⟨-,-,hpo2,hr2,-⟩ := advance_ok hr1
      obtain ⟨hf,hl⟩ := fill_contents (tdNum dataSize) hr2
      have hln := contents_length tdBuf
      rw [htd] at hln
      simp only [length_cons] at hln
      obtain ⟨tds1,hp1,hts1⟩ := assertPush_ok (r := (fill (tdNum dataSize) tdBuf.advance.advance).2)
        (by simp [hl]; omega) td1
      obtain ⟨tds2,hp2,hts2⟩ := assertPush_ok (r := tds1) (by simp [hts1,hl]; omega) td2
      rw [if_neg (by simp [htd])]
      simp only [hpo,hpo1,hpo2,hp,hp1,hp2,hf,Option.bind_eq_bind,Option.bind_some,
        Option.map_eq_some_iff,Option.some.injEq]
      constructor
      · rintro ⟨n,-,⟨j,hj,rfl⟩,-,-,ha⟩
        exact ⟨(ha _ rfl).1,wait_returns_iff.mp ⟨j,n,hj⟩⟩
      · rintro ⟨hro,hco⟩
        obtain ⟨j,n,hj⟩ := wait_returns_iff.mpr hco
        refine ⟨n,_,⟨j,hj,rfl⟩,?_⟩
        have hle := hro
        rw [htd,length_cons,length_cons] at hle
        have ha : (l.take (tdNum dataSize)).map some ++
            ((range (tdNum dataSize)).map stack).drop (l.take (tdNum dataSize)).length =
              (l.take (tdNum dataSize)).map some := by
          rw [drop_eq_nil_of_le,append_nil]
          simp only [length_map,length_range,length_take]
          omega
        rw [ha]
        refine ⟨?_,hpe,?_⟩
        · rw [reuse_contents,hts2,hts1,hl,htd,filterMap_map,Function.id_comp,filterMap_some,
            take_of_length_le]
          · refine perm_append_comm.trans ?_
            rw [append_assoc _ [td1],← append_assoc,take_append_drop]
            exact perm_append_comm
          · simp only [length_append,length_take,length_drop,length_singleton]
            omega
        · intro array ha
          cases ha
          exact ⟨hro,by rw [htd]; rfl⟩

def pool (l : List ℕ) : RingBuffer ℕ S := l.foldl (fun r x => (r.push x).2) (.new fun _ => 0)

def ended : ℕ → Status := fun _ => ⟨false,false,false⟩

-- a data descriptor has stalled: td2 stays active, td1 shows no error
def dataStalled : ℕ → Status := fun _ => ⟨true,false,false⟩

theorem control_transfer_overrun :
    ¬ Atomic ended (fun _ => some 9) 8 (pool [1]) (pool [2]) ∧
    ¬ Atomic ended (fun _ => none) 8 (pool [3,4]) (pool [2]) ∧
    ¬ Atomic dataStalled (fun _ => none) 8 (pool [3,4,5]) (pool [2]) := by
  refine ⟨?_,?_,?_⟩
  · rintro ⟨n,r,hr,hp,-⟩
    cases hr
    exact absurd hp.length_eq (by decide)
  · rintro ⟨n,r,hr,-,-,ha⟩
    obtain ⟨k,hk,hr⟩ := Option.map_eq_some_iff.mp hr
    cases hr
    exact absurd (ha _ rfl).1 (by decide)
  · rintro ⟨n,r,hr,-⟩
    obtain ⟨k,hk,-⟩ := Option.map_eq_some_iff.mp hr
    obtain ⟨j,hj⟩ := wait_returns_iff.mp ⟨k,n,hk⟩
    simp [dataStalled,Status.td1Failed] at hj

end Uhci
