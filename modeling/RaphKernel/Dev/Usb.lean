import RaphKernel.Dev.RingBuffer
import RaphKernel.Library.Bytes
import RaphKernel.Library.Records

namespace Usb
open Bytes Loop Records
open Dev (RingBuffer)

section
variable (mem : ℕ → Byte) (type : Byte)

def totalLength : ℕ := (mem 2).toNat + 256 * (mem 3).toNat

def lengthAt (i : ℕ) : ℕ := (mem i).toNat

def matching (i : ℕ) : Bool := mem (i + 1) = type

def count (i num : ℕ) : Except Empty ℕ := .ok (if matching mem type i then num + 1 else num)

def getDescriptorNumInCombinedDescriptors :
    Records.Walk 16 ℕ → Sum (Records.Walk 16 ℕ) (List ℕ × Except Empty ℕ) :=
  Records.step (lengthAt mem) (totalLength mem) (count mem type)

inductive Stop
  | assert
  | found (i : ℕ)

def inspect (i descIndex : ℕ) : Except Stop ℕ :=
  if lengthAt mem i = 0 then .error .assert
  else if matching mem type i then
    if descIndex = 0 then .error (.found i) else .ok (descIndex - 1)
  else .ok descIndex

def getDescriptorInCombinedDescriptors :
    Records.Walk 16 ℕ → Sum (Records.Walk 16 ℕ) (List ℕ × Except Stop ℕ) :=
  Records.step (lengthAt mem) (totalLength mem) (inspect mem type)

def Inside (i : ℕ) : Prop := i + 2 ≤ totalLength mem ∧ i + lengthAt mem i ≤ totalLength mem

def Walked : Prop :=
  ∃ seen, Returns (getDescriptorNumInCombinedDescriptors mem type) (.begin 0)
      (seen,.ok (seen.filter (matching mem type)).length) ∧
    (∀ i ∈ seen, Inside mem i) ∧ ∀ k, ∃ r, r.1 <+: seen ∧
      Returns (getDescriptorInCombinedDescriptors mem type) (.begin k) r ∧
      ∀ i, r.2 = .error (.found i) ↔ (seen.filter (matching mem type))[k]? = some i

variable {mem type}

lemma totalLength_lt : totalLength mem < 2 ^ 16 := by
  have h2 := (mem 2).isLt
  have h3 := (mem 3).isLt
  rw [totalLength]
  omega

lemma run_count (l : List ℕ) (num : ℕ) :
    run (count mem type) l num = (l,.ok (num + (l.filter (matching mem type)).length)) := by
  induction l generalizing num with
  | nil => rfl
  | cons i l ih =>
    by_cases hm : matching mem type i <;> simp [run,count,ih,hm,Nat.add_assoc,Nat.add_comm 1]

lemma run_inspect {p stop : ℕ} {l : List ℕ} (h : Records.Chain (lengthAt mem) stop p l) (k i : ℕ) :
    (run (inspect mem type) l k).2 = .error (.found i) ↔
      (l.filter (matching mem type))[k]? = some i := by
  induction h generalizing k with
  | done => simp [run]
  | @record p l _ hp _ _ ih =>
    have hne := Nat.ne_of_gt hp
    by_cases hm : matching mem type p
    · cases k with
      | zero => simp [run,inspect,hne,hm]
      | succ k => simpa [run,inspect,hne,hm] using ih k
    · simpa [run,inspect,hne,hm] using ih k

theorem descriptors_walked_iff (mem : ℕ → Byte) : (∀ type, Walked mem type) ↔
    ∃ l, Records.Chain (lengthAt mem) (totalLength mem) 0 l ∧ ∀ i ∈ l, i + 2 ≤ totalLength mem := by
  constructor
  · intro h
    obtain ⟨seen,hn,hin,-⟩ := h 0
    have hc := Records.chain_of_returns totalLength_lt hn fun i hi => (hin i hi).2
    exact ⟨seen,hc,fun i hi => (hin i hi).1⟩
  · rintro ⟨l,hl,hh⟩ type
    refine ⟨l,?_,fun i hi => ⟨hh i hi,hl.inside i hi⟩,fun k => ⟨_,?_,
      hl.returns totalLength_lt _ _ (Records.begin_offset k),run_inspect hl k⟩⟩
    · have hr := hl.returns totalLength_lt (count mem type) _ (Records.begin_offset 0)
      simpa [getDescriptorNumInCombinedDescriptors,Records.Walk.begin,run_count] using hr
    · exact Records.run_initial ..

def zeros : ℕ → Byte := fun i => if i = 2 then 9 else 0

theorem descriptors_stuck : ¬ Walked zeros 2 := by
  rintro ⟨seen,⟨n,hn⟩,-⟩
  cases (Records.iterate_stuck (by decide) rfl (fun _ _ => ⟨_,rfl⟩) n).symm.trans hn

end

structure DeviceRequest where
  requestType : Byte
  request : Byte
  value : BitVec 16
  index : BitVec 16
  length : BitVec 16

def makePacketOfGetDescriptorRequest (descType : Byte) (index : BitVec 16) (length : Byte) :
    DeviceRequest := ⟨0x80,6,descType.setWidth 16 * 256 + index,0,length.setWidth 16⟩

def makePacketOfSetAddress (deviceAddress : BitVec 16) : DeviceRequest := ⟨0,5,deviceAddress,0,0⟩

structure Bus (P : Type) where
  drBuf : RingBuffer P 512
  sent : List (DeviceRequest × ℕ)

section
variable {P : Type} (outcome : ℕ → Bool)

def attempt (returned : Bool) (packet : DeviceRequest) (size : ℕ) (u : Bus P) : Sum (Bus P) (Bus P) :=
  match u.drBuf.pop with
  | none => .inl u
  | some (request,buf) =>
    if outcome u.sent.length then
      .inr ⟨if returned then (buf.push request).2 else buf,u.sent ++ [(packet,size)]⟩
    else .inl ⟨(buf.push request).2,u.sent ++ [(packet,size)]⟩

def loadDeviceDescriptor : Bus P → Bus P → Prop :=
  Returns (attempt outcome false (makePacketOfGetDescriptorRequest 1 0 18) 18)

def fetchConfiguration : Bus P → Bus P → Prop :=
  Returns (attempt outcome true (makePacketOfGetDescriptorRequest 2 0 9) 9)

def fetchCombined (total : BitVec 16) : Bus P → Bus P → Prop :=
  Returns (attempt outcome true (makePacketOfGetDescriptorRequest 2 0 (total.setWidth 8)) total.toNat)

def loadCombinedDescriptors (total : BitVec 16) (u u' : Bus P) : Prop :=
  ∃ v, fetchConfiguration outcome u v ∧ fetchCombined outcome total v u'

structure Device where
  total : BitVec 16
  keyboard : Bool

def initSub : Bus P → Bus P → Prop := Returns (attempt outcome true ⟨0x21,0x0B,0,0,0⟩ 0)

def initUsb (dev : Device) (u u' : Bus P) : Prop :=
  ∃ v w, loadDeviceDescriptor outcome u v ∧ loadCombinedDescriptors outcome dev.total v w ∧
    if dev.keyboard then initSub outcome w u' else u' = w

def attachPort (returned : Bool) (i : ℕ) (port : Option Device) (u u' : Bus P) : Prop :=
  match port with
  | none => u' = u
  | some dev => ∃ v, Returns (attempt outcome returned (makePacketOfSetAddress (BitVec.ofNat 16 (i + 1))) 0)
      u v ∧ initUsb outcome dev v u'

def attachPorts (returned : Bool) : ℕ → List (Option Device) → Bus P → Bus P → Prop
  | _, [], u, u' => u' = u
  | i, port :: ports, u, u' => ∃ v, attachPort outcome returned i port u v ∧
    attachPorts returned (i + 1) ports v u'

def uhciAttach (ports : Vector (Option Device) 2) : Bus P → Bus P → Prop :=
  attachPorts outcome true 0 ports.toList

def ehciAttach (ports : List (Option Device)) : Bus P → Bus P → Prop :=
  attachPorts outcome false 0 ports

inductive Call
  | loadDeviceDescriptor
  | loadCombinedDescriptors (total : BitVec 16)
  | uhciAttach (ports : Vector (Option Device) 2)
  | ehciAttach (ports : List (Option Device))

def Call.Exec : Call → Bus P → Bus P → Prop
  | .loadDeviceDescriptor => Usb.loadDeviceDescriptor outcome
  | .loadCombinedDescriptors total => Usb.loadCombinedDescriptors outcome total
  | .uhciAttach ports => Usb.uhciAttach outcome ports
  | .ehciAttach ports => Usb.ehciAttach outcome ports

def Call.releases : Call → Prop
  | .loadDeviceDescriptor => False
  | .loadCombinedDescriptors _ => True
  | .uhciAttach ports => ∀ port ∈ ports.toList, port = none
  | .ehciAttach ports => ∀ port ∈ ports, port = none

inductive Run : List Call → Bus P → Bus P → Prop
  | nil {u : Bus P} : Run [] u u
  | cons {c : Call} {cs : List Call} {u v u' : Bus P} (h : c.Exec outcome u v) (hrest : Run cs v u') :
    Run (c :: cs) u u'

open List

variable {outcome} {u u' v : Bus P} {returned : Bool} {packet : DeviceRequest} {size : ℕ}

lemma reuse_perm {request : P} {buf : RingBuffer P 512} (h : u.drBuf.pop = some (request,buf)) :
    (buf.contents ++ [request]).Perm u.drBuf.contents ∧
      (buf.push request).2.contents = buf.contents ++ [request] := by
  cases hc : u.drBuf.contents with
  | nil => cases (u.drBuf.pop_empty hc).symm.trans h
  | cons a rest =>
    obtain ⟨hpo,hrest⟩ := u.drBuf.pop_contents hc
    cases hpo.symm.trans h
    have hl := u.drBuf.length_contents.trans_le u.drBuf.size_le
    rw [hc,length_cons,← hrest] at hl
    obtain ⟨hp,hpu⟩ := u.drBuf.advance.push_contents hl request
    exact ⟨hrest ▸ perm_append_singleton ..,by rw [hp,hpu]⟩

structure Sent (lost : List P) (entry : DeviceRequest × ℕ) (u u' : Bus P) (k : ℕ) : Prop where
  pool : (u'.drBuf.contents ++ lost).Perm u.drBuf.contents
  sent : u'.sent = u.sent ++ replicate k entry

lemma attempt_sent (h : Returns (attempt outcome returned packet size) u u') :
    ∃ lost k, Sent lost (packet,size) u u' (k + 1) ∧ (lost = [] ↔ returned = true) := by
  refine returns_invariant (P := fun v => ∃ k, Sent [] (packet,size) u v k)
    (Q := fun v => ∃ lost k, Sent lost (packet,size) u v (k + 1) ∧ (lost = [] ↔ returned = true))
    ?_ ?_ ⟨0,by rw [append_nil],by simp⟩ h
  · rintro v w ⟨k,hp,hs⟩ hb
    rw [attempt] at hb
    cases hpo : v.drBuf.pop with
    | none =>
      rw [hpo] at hb
      cases hb
      exact ⟨k,hp,hs⟩
    | some found =>
      obtain ⟨hpe,hpu⟩ := reuse_perm hpo
      simp only [hpo] at hb
      split at hb <;> cases hb
      exact ⟨k + 1,by simpa [hpu] using hpe.trans (by simpa using hp),by simp [hs,replicate_succ']⟩
  · rintro v w ⟨k,hp,hs⟩ hb
    rw [attempt] at hb
    cases hpo : v.drBuf.pop with
    | none =>
      rw [hpo] at hb
      cases hb
    | some found =>
      obtain ⟨hpe,hpu⟩ := reuse_perm hpo
      have ha := hpe.trans (by simpa using hp)
      simp only [hpo] at hb
      split at hb <;> cases hb
      cases returned with
      | true => exact ⟨[],k,⟨by simpa [hpu] using ha,by simp [hs,replicate_succ']⟩,by simp⟩
      | false => exact ⟨[found.1],k,⟨by simpa using ha,by simp [hs,replicate_succ']⟩,by simp⟩

def Loses (u u' : Bus P) (kept : Prop) : Prop :=
  ∃ lost, (u'.drBuf.contents ++ lost).Perm u.drBuf.contents ∧ (lost = [] ↔ kept)

lemma Loses.refl (u : Bus P) : Loses u u True := ⟨[],by simp,by simp⟩

lemma Loses.trans {p q : Prop} (h : Loses u v p) (h' : Loses v u' q) : Loses u u' (p ∧ q) := by
  obtain ⟨lost,hp,hl⟩ := h
  obtain ⟨lost',hp',hl'⟩ := h'
  refine ⟨lost' ++ lost,?_,by simp [hl,hl',and_comm]⟩
  rw [← append_assoc]
  exact (hp'.append_right _).trans hp

lemma Loses.congr {p q : Prop} (h : Loses u u' p) (hq : p ↔ q) : Loses u u' q :=
  h.imp fun _ hl => ⟨hl.1,hl.2.trans hq⟩

lemma Loses.kept_iff {p : Prop} (h : Loses u u' p) : u'.drBuf.contents.Perm u.drBuf.contents ↔ p := by
  obtain ⟨lost,hp,hif⟩ := h
  rw [← hif]
  constructor
  · intro hk
    have hle := (hk.trans hp.symm).length_eq
    rw [length_append] at hle
    exact length_eq_zero_iff.mp (by omega)
  · rintro rfl
    simpa using hp

lemma attempt_loses (h : Returns (attempt outcome returned packet size) u u') :
    Loses u u' (returned = true) := by
  obtain ⟨lost,k,hs,hl⟩ := attempt_sent h
  exact ⟨lost,hs.pool,hl⟩

lemma combined_loses {total : BitVec 16} (h : loadCombinedDescriptors outcome total u u') :
    Loses u u' True := by
  obtain ⟨v,hf,hs⟩ := h
  exact ((attempt_loses hf).trans (attempt_loses hs)).congr (by simp)

lemma initUsb_loses {dev : Device} (h : initUsb outcome dev u u') : Loses u u' False := by
  obtain ⟨v,w,hd,hc,hs⟩ := h
  have hw := (attempt_loses hd).trans (combined_loses hc)
  split at hs
  · exact (hw.trans (attempt_loses hs)).congr (by simp)
  · exact hs ▸ hw.congr (by simp)

lemma attachPorts_loses {i : ℕ} {ports : List (Option Device)}
    (h : attachPorts outcome returned i ports u u') : Loses u u' (∀ port ∈ ports, port = none) := by
  induction ports generalizing i u with
  | nil => exact h ▸ (Loses.refl u).congr (by simp)
  | cons port ports ih =>
    obtain ⟨v,hp,hr⟩ := h
    rw [forall_mem_cons]
    refine Loses.trans ?_ (ih hr)
    cases port with
    | none => exact hp ▸ (Loses.refl u).congr (by simp)
    | some dev =>
      obtain ⟨w,ha,hi⟩ := hp
      exact ((attempt_loses ha).trans (initUsb_loses hi)).congr (by simp)

lemma exec_loses {c : Call} (h : c.Exec outcome u u') : Loses u u' c.releases := by
  cases c with
  | loadDeviceDescriptor => exact (attempt_loses h).congr (by simp [Call.releases])
  | loadCombinedDescriptors total => exact combined_loses h
  | uhciAttach ports | ehciAttach ports => exact attachPorts_loses h

theorem pool_kept_iff {calls : List Call} (h : Run outcome calls u u') :
    u'.drBuf.contents.Perm u.drBuf.contents ↔ ∀ c ∈ calls, c.releases := by
  refine Loses.kept_iff ?_
  induction h with
  | nil => exact (Loses.refl _).congr (by simp)
  | cons he _ ih => exact ((exec_loses he).trans ih).congr (by simp)

theorem combined_sizes_iff (mem : ℕ → Byte) {total : BitVec 16} (h : fetchCombined outcome total v u') :
    (∀ e ∈ u'.sent.drop v.sent.length, e.1.length.toNat = e.2 ∧ e.2 = total.toNat) ∧
        totalLength mem = total.toNat ↔
      total.toNat < 256 ∧ totalLength mem = total.toNat := by
  obtain ⟨_,k,hs,-⟩ := attempt_sent h
  refine and_congr_left fun _ => ?_
  have hl : (makePacketOfGetDescriptorRequest 2 0 (total.setWidth 8)).length.toNat =
      total.toNat % 256 := by simp [makePacketOfGetDescriptorRequest]; omega
  rw [hs.sent,drop_left,forall_mem_replicate]
  dsimp only
  rw [hl]
  omega

def one : Bus ℕ := ⟨((RingBuffer.new fun _ => 0).push 7).2,[]⟩

def two : Bus ℕ := ⟨(one.drBuf.push 8).2,[]⟩

theorem combined_sizes_short : ∃ u', fetchCombined (fun _ => true) 34 one u' ∧
    (∀ e ∈ u'.sent.drop one.sent.length, e.1.length.toNat = e.2 ∧ e.2 = 34) ∧
      totalLength (fun i => if i = 2 then 34 else 0) = 34 := by
  have hf : fetchCombined (fun _ => true) 34 one _ := returns_of_exit rfl
  exact ⟨_,hf,(combined_sizes_iff _ hf).mpr ⟨by decide,by decide⟩⟩

theorem combined_sizes_long : ∃ u', fetchCombined (fun _ => true) 256 one u' ∧
    ¬ ∀ e ∈ u'.sent.drop one.sent.length, e.1.length.toNat = e.2 ∧ e.2 = 256 := by
  refine ⟨_,returns_of_exit rfl,fun h => ?_⟩
  exact absurd (h (makePacketOfGetDescriptorRequest 2 0 0,256) (mem_singleton.mpr rfl)).1 (by decide)

theorem pool_kept_calls : ∃ u', Run (fun i => i ≠ 0)
    [.uhciAttach #v[none,none],.loadCombinedDescriptors 34,.ehciAttach [none]] one u' ∧
      u'.drBuf.contents.Perm one.drBuf.contents := by
  have hf : fetchConfiguration (fun i => i ≠ 0) one _ := ⟨2,rfl⟩
  have hr : Run (fun i => i ≠ 0)
      [.uhciAttach #v[none,none],.loadCombinedDescriptors 34,.ehciAttach [none]] one _ :=
    .cons ⟨_,rfl,_,rfl,rfl⟩ (.cons ⟨_,hf,returns_of_exit rfl⟩ (.cons ⟨_,rfl,rfl⟩ .nil))
  exact ⟨_,hr,(pool_kept_iff hr).mpr (by simp [Call.releases])⟩

theorem pool_drained : ∃ u', Run (fun _ => true) [.uhciAttach #v[some ⟨34,true⟩,none]] two u' ∧
    ¬ u'.drBuf.contents.Perm two.drBuf.contents := by
  refine ⟨_,.cons ⟨_,⟨_,returns_of_exit rfl,_,_,returns_of_exit rfl,
    ⟨_,returns_of_exit rfl,returns_of_exit rfl⟩,returns_of_exit rfl⟩,_,rfl,rfl⟩ .nil,fun h => ?_⟩
  exact absurd h.length_eq (by decide)

end

end Usb
