import RaphKernel.Raph
import RaphKernel.Library.Bytes
import RaphKernel.Library.Fallible

namespace Fs
open Bytes

inductive IoReturnState where
  | ok
  | pending
  | errInvalid
  | errHardware
  | errNoHwResource
  | errNoSwResource
  | errNotFound
  deriving DecidableEq, Repr

inductive Failure where
  | state (s : IoReturnState)
  | panic (p : Raph.Panic)
  | spin
  deriving DecidableEq, Repr

structure Storage where
  bytes : ℕ → Byte
  status : ℕ → ℕ → ℕ → IoReturnState
  clock : ℕ

abbrev Io := Fallible Storage Failure

namespace Storage

def tick (st : Storage) : Storage := { st with clock := st.clock + 1 }

def put (st : Storage) (offset : ℕ) (data : List Byte) : Storage :=
  { st with bytes := overwrite st.bytes offset data }

def read (offset size : ℕ) : Io (List Byte) := fun st =>
  match st.status st.clock offset size with
  | .ok => (.ok (slice st.bytes offset size),st.tick)
  | s => (.error (.state s),st.tick)

def write (offset : ℕ) (data : List Byte) : Io Unit := fun st =>
  match st.status st.clock offset data.length with
  | .ok => (.ok (),(st.put offset data).tick)
  | s => (.error (.state s),st.tick)

def Working (st : Storage) : Prop := ∀ n offset size, st.status n offset size = .ok

variable {st : Storage} {off size : ℕ} {data : List Byte}

@[simp]
lemma put_bytes (st : Storage) (off : ℕ) (data : List Byte) :
    (st.put off data).bytes = overwrite st.bytes off data := rfl

lemma put_status (st : Storage) (off : ℕ) (data : List Byte) :
    (st.put off data).status = st.status := rfl

lemma Working.tick (h : st.Working) : st.tick.Working := h

lemma Working.put (h : st.Working) : (st.put off data).Working := h

lemma read_ok (h : st.status st.clock off size = .ok) :
    read off size st = (.ok (slice st.bytes off size),st.tick) := by
  rw [read,h]

lemma read_error (h : st.status st.clock off size ≠ .ok) :
    read off size st = (.error (.state (st.status st.clock off size)),st.tick) := by
  unfold read
  split
  · contradiction
  · rfl

lemma write_ok (h : st.status st.clock off data.length = .ok) :
    write off data st = (.ok (),(st.put off data).tick) := by
  rw [write,h]

end Storage

def Steady {A : Type} (x : Io A) : Prop := ∀ st, (x st).2.status = st.status

section
variable {A B : Type} {x : Io A} {f : A → Io B}

lemma steady_pure (a : A) : Steady (pure a : Io A) := fun _ => rfl

lemma steady_fail (e : Failure) : Steady (Fallible.fail e : Io A) := fun _ => rfl

lemma steady_bind (hx : Steady x) (hf : ∀ a, Steady (f a)) : Steady (x >>= f) := by
  intro st
  rcases hr : x st with ⟨r,t⟩
  have ht : t.status = st.status := by
    rw [← hx st,hr]
  cases r with
  | error e => rw [Fallible.bind_of_error hr,ht]
  | ok a => rw [Fallible.bind_of_ok hr,hf a t,ht]

lemma steady_read (off size : ℕ) : Steady (Storage.read off size) := by
  intro st
  unfold Storage.read
  split
  · rfl
  · rfl

lemma steady_write (off : ℕ) (data : List Byte) : Steady (Storage.write off data) := by
  intro st
  unfold Storage.write
  split
  · rfl
  · rfl

lemma Steady.working {st : Storage} (hx : Steady x) (hw : st.Working) : (x st).2.Working := by
  intro n off size
  rw [hx st]
  exact hw n off size

end

end Fs
