import Mathlib.Data.BitVec

namespace ProtocolStack
open List

structure Packet where
  buf : BitVec 64
  len : BitVec 64
  deriving DecidableEq

structure Layer where
  header : BitVec 64
  filterPacket : Packet → Bool
  preparePacket : Packet → Bool

namespace Layer

def attachProtocolHeader (l : Layer) (p : Packet) : Packet := ⟨p.buf - l.header,p.len + l.header⟩

def detachProtocolHeader (l : Layer) (p : Packet) : Packet := ⟨p.buf + l.header,p.len - l.header⟩

@[simp] lemma detach_attach (l : Layer) (p : Packet) :
    l.detachProtocolHeader (l.attachProtocolHeader p) = p := by
  simp [attachProtocolHeader,detachProtocolHeader]

@[simp] lemma attach_detach (l : Layer) (p : Packet) :
    l.attachProtocolHeader (l.detachProtocolHeader p) = p := by
  simp [attachProtocolHeader,detachProtocolHeader]

end Layer

section
variable (base : Packet → Bool)

def descend (prepare : Layer → Packet → Bool) : List Layer → Packet → Bool × Packet × List Packet
  | [], p => (base p,p,[p])
  | l :: ls, p =>
    let p' := l.attachProtocolHeader p
    if prepare l p' then
      match descend prepare ls p' with
      | (true,q,given) => (true,q,given)
      | (false,q,given) => (false,l.detachProtocolHeader q,given)
    else (false,l.detachProtocolHeader p',[])

def reuseRxBuffer := descend base fun _ _ => true

def transmitPacket := descend base Layer.preparePacket

def receivePacket (popped : Option Packet) : List Layer → Option Packet × List Packet
  | [] => (popped,[])
  | l :: ls => match receivePacket popped ls with
    | (none,given) => (none,given)
    | (some p,given) =>
      if l.filterPacket p then (some (l.detachProtocolHeader p),given)
      else (none,given ++ (reuseRxBuffer base ls p).2.2)

end

def fetchTxBuffer (fetched : Option Packet) : List Layer → Option Packet
  | [] => fetched
  | l :: ls => (fetchTxBuffer fetched ls).map l.detachProtocolHeader

def lowered : List Layer → Packet → Packet
  | [], p => p
  | l :: ls, p => lowered ls (l.attachProtocolHeader p)

def raised : List Layer → Packet → Packet
  | [], p => p
  | l :: ls, p => l.detachProtocolHeader (raised ls p)

section
variable (base : Packet → Bool) (ls : List Layer) (p : Packet)

lemma lowered_raised : lowered ls (raised ls p) = p := by
  induction ls with
  | nil => rfl
  | cons l ls ih => rw [raised,lowered,Layer.attach_detach,ih]

lemma descend_given (prepare : Layer → Packet → Bool) :
    (descend base prepare ls p).2.2 = [lowered ls p] ∨
      (descend base prepare ls p).2.2 = [] ∧ ∃ l q, prepare l q = false := by
  induction ls generalizing p with
  | nil => exact .inl rfl
  | cons l ls ih =>
    have hi := ih (l.attachProtocolHeader p)
    simp only [descend]
    split_ifs with hp
    · split <;> simp_all [lowered]
    · exact .inr ⟨rfl,l,_,Bool.eq_false_iff.mpr hp⟩

lemma descend_failed {prepare : Layer → Packet → Bool} (h : (descend base prepare ls p).1 = false) :
    (descend base prepare ls p).2.1 = p := by
  induction ls generalizing p with
  | nil => rfl
  | cons l ls ih =>
    have hi := ih (l.attachProtocolHeader p)
    simp only [descend] at h ⊢
    split_ifs at h ⊢
    · split at h <;> simp_all
    · exact l.detach_attach p

lemma reuse_given : (reuseRxBuffer base ls p).2.2 = [lowered ls p] := by
  rcases descend_given base ls p fun _ _ => true with h | ⟨-,l,q,h⟩
  · exact h
  · cases h

lemma fetch_eq : fetchTxBuffer (some p) ls = some (raised ls p) := by
  induction ls with
  | nil => rfl
  | cons l ls ih => rw [fetchTxBuffer,ih,Option.map_some,raised]

lemma receive_eq : receivePacket base (some p) ls = (some (raised ls p),[]) ∨
    receivePacket base (some p) ls = (none,[p]) := by
  induction ls with
  | nil => exact .inl rfl
  | cons l ls ih =>
    rw [receivePacket]
    rcases ih with ih | ih
    · simp only [ih]
      split_ifs
      · exact .inl rfl
      · rw [reuse_given,lowered_raised]
        exact .inr rfl
    · exact .inr (by rw [ih])

end

theorem packets_restored (base : Packet → Bool) (ls : List Layer) (p : Packet) :
    (∀ q, fetchTxBuffer (some q) ls = some p ∨ (receivePacket base (some q) ls).1 = some p →
      (reuseRxBuffer base ls p).2.2 = [q] ∧ ∀ r ∈ (transmitPacket base ls p).2.2, r = q) ∧
    (receivePacket base (some p) ls).2 =
      (if (receivePacket base (some p) ls).1.isSome then [] else [p]) ∧
    ((reuseRxBuffer base ls p).1 = false → (reuseRxBuffer base ls p).2.1 = p) ∧
    ((transmitPacket base ls p).1 = false → (transmitPacket base ls p).2.1 = p) := by
  refine ⟨fun q hq => ?_,?_,descend_failed base ls p,descend_failed base ls p⟩
  · have hp : p = raised ls q := by
      rcases hq with hq | hq
      · exact Option.some.inj (hq.symm.trans (fetch_eq ls q))
      · rcases receive_eq base ls q with hr | hr <;> rw [hr] at hq
        · exact (Option.some.inj hq).symm
        · cases hq
    rw [reuse_given,hp,lowered_raised]
    refine ⟨rfl,fun r hr => ?_⟩
    rcases descend_given base ls _ Layer.preparePacket with hg | ⟨hg,-⟩
    · rw [transmitPacket,hg,lowered_raised] at hr
      exact mem_singleton.mp hr
    · rw [transmitPacket,hg] at hr
      cases hr
  · rcases receive_eq base ls p with hr | hr <;> rw [hr] <;> rfl

end ProtocolStack
