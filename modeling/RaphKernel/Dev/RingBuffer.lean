import Mathlib.Data.List.Basic

namespace Dev
open Function List Nat

variable {T : Type} {S : ℕ}

structure RingBuffer (T : Type) (S : ℕ) where
  buffer : ℕ → T
  head : ℕ
  tail : ℕ
  head_lt : head < S + 1
  tail_lt : tail < S + 1

namespace RingBuffer

def new (memory : ℕ → T) : RingBuffer T S := ⟨memory,0,0,S.succ_pos,S.succ_pos⟩

def ntail (r : RingBuffer T S) : ℕ := (r.tail + 1) % (S + 1)

lemma ntail_lt (r : RingBuffer T S) : r.ntail < S + 1 := mod_lt _ S.succ_pos

def store (r : RingBuffer T S) (data : T) : RingBuffer T S :=
  ⟨update r.buffer r.tail data,r.head,r.ntail,r.head_lt,r.ntail_lt⟩

def advance (r : RingBuffer T S) : RingBuffer T S :=
  ⟨r.buffer,(r.head + 1) % (S + 1),r.tail,Nat.mod_lt _ S.succ_pos,r.tail_lt⟩

def push (r : RingBuffer T S) (data : T) : Bool × RingBuffer T S :=
  if r.ntail ≠ r.head then (true,r.store data) else (false,r)

def pop (r : RingBuffer T S) : Option (T × RingBuffer T S) :=
  if r.head ≠ r.tail then some (r.buffer r.head,r.advance) else none

def isFull (r : RingBuffer T S) : Bool := decide (r.ntail = r.head)

def isEmpty (r : RingBuffer T S) : Bool := decide (r.tail = r.head)

def size (r : RingBuffer T S) : ℕ := (r.tail + (S + 1) - r.head) % (S + 1)

def contents (r : RingBuffer T S) : List T :=
  (List.range r.size).map fun i => r.buffer ((r.head + i) % (S + 1))

section

lemma wrap_eq {n : ℕ} (h : n < 2 * (S + 1) := by omega) :
    n % (S + 1) = if n < S + 1 then n else n - (S + 1) := by
  split_ifs with hn
  · exact mod_eq_of_lt hn
  · rw [mod_eq_sub_mod (by omega),mod_eq_of_lt (by omega)]

variable (r : RingBuffer T S)

lemma ntail_eq : r.ntail = if r.tail < S then r.tail + 1 else 0 := by
  have ht := r.tail_lt
  rw [ntail,wrap_eq]
  split_ifs <;> omega

lemma size_eq : r.size = if r.head ≤ r.tail then r.tail - r.head else r.tail + (S + 1) - r.head := by
  have hh := r.head_lt
  have ht := r.tail_lt
  rw [size,wrap_eq]
  split_ifs <;> omega

lemma size_le : r.size ≤ S := le_of_lt_succ (mod_lt _ S.succ_pos)

lemma length_contents : r.contents.length = r.size := by
  rw [contents,length_map,length_range]

lemma ntail_head : r.ntail = r.head ↔ r.size = S := by
  have hh := r.head_lt
  have ht := r.tail_lt
  rw [ntail_eq,size_eq]
  split_ifs <;> omega

lemma head_tail : r.head = r.tail ↔ r.size = 0 := by
  have hh := r.head_lt
  have ht := r.tail_lt
  rw [size_eq]
  split_ifs <;> omega

lemma slot_ne_tail {i : ℕ} (h : i < r.size) : (r.head + i) % (S + 1) ≠ r.tail := by
  have hh := r.head_lt
  have ht := r.tail_lt
  have hle := r.size_le
  rw [size_eq] at h hle
  rw [wrap_eq]
  split_ifs at h ⊢ <;> omega

lemma slot_size : (r.head + r.size) % (S + 1) = r.tail := by
  have hh := r.head_lt
  have ht := r.tail_lt
  have hle := r.size_le
  rw [size_eq] at hle ⊢
  rw [wrap_eq]
  split_ifs <;> omega

end

section
variable (r : RingBuffer T S)

lemma contents_new (memory : ℕ → T) : (new memory : RingBuffer T S).contents = [] := by
  have hs : (new memory : RingBuffer T S).size = 0 := (head_tail _).mp rfl
  rw [contents,hs]
  rfl

lemma push_full (h : r.contents.length = S) (data : T) : r.push data = (false,r) := by
  rw [length_contents] at h
  rw [push,if_neg (not_not.mpr (r.ntail_head.mpr h))]

lemma size_store (h : r.size < S) (data : T) : (r.store data).size = r.size + 1 := by
  have hh := r.head_lt
  have ht := r.tail_lt
  rw [size_eq] at h
  rw [size_eq,size_eq r]
  simp only [store,ntail_eq]
  split_ifs at h ⊢ <;> omega

lemma push_contents (h : r.contents.length < S) (data : T) :
    r.push data = (true,r.store data) ∧ (r.store data).contents = r.contents ++ [data] := by
  rw [length_contents] at h
  have hr : r.ntail ≠ r.head := fun heq => Nat.ne_of_lt h (r.ntail_head.mp heq)
  refine ⟨if_pos hr,?_⟩
  rw [contents,r.size_store h,List.range_succ,map_append,contents]
  congr 1
  · refine map_congr_left fun i hi => ?_
    exact update_of_ne (r.slot_ne_tail (mem_range.mp hi)) data r.buffer
  · have hl : (r.store data).buffer ((r.head + r.size) % (S + 1)) = data := by
      rw [r.slot_size]
      exact update_self ..
    rw [map_singleton]
    exact congrArg (fun last => [last]) hl

lemma pop_empty (h : r.contents = []) : r.pop = none := by
  have hs : r.size = 0 := by
    rw [← length_contents,h]
    rfl
  rw [pop,if_neg (not_not.mpr (r.head_tail.mpr hs))]

lemma size_advance {n : ℕ} (h : r.size = n + 1) : r.advance.size = n := by
  have hh := r.head_lt
  have ht := r.tail_lt
  rw [size_eq] at h ⊢
  simp only [advance,wrap_eq (by omega : r.head + 1 < 2 * (S + 1))]
  split_ifs at h ⊢ <;> omega

lemma pop_contents {data : T} {rest : List T} (h : r.contents = data :: rest) :
    r.pop = some (data,r.advance) ∧ r.advance.contents = rest := by
  have hs : r.size = rest.length + 1 := by
    rw [← length_contents,h]
    rfl
  have hne : r.head ≠ r.tail := fun heq => by
    have hz := r.head_tail.mp heq
    omega
  rw [contents,hs,range_succ_eq_map,map_cons,List.map_map] at h
  obtain ⟨hf,hr⟩ := List.cons.inj h
  rw [Nat.add_zero,mod_eq_of_lt r.head_lt] at hf
  refine ⟨by rw [pop,if_pos hne,hf],?_⟩
  rw [contents,r.size_advance hs]
  refine Eq.trans (map_congr_left fun i _ => ?_) hr
  simp only [advance,comp_apply,mod_add_mod,succ_eq_add_one]
  rw [Nat.add_assoc,Nat.add_comm 1 i]

lemma isFull_iff : r.isFull = true ↔ r.contents.length = S := by
  rw [isFull,decide_eq_true_iff,ntail_head,length_contents]

lemma isEmpty_iff : r.isEmpty = true ↔ r.contents = [] := by
  rw [isEmpty,decide_eq_true_iff,eq_comm,head_tail,← length_contents,length_eq_zero_iff]

lemma push_size (h : ¬ r.isFull = true) (data : T) : (r.push data).2.size = r.size + 1 := by
  rw [isFull_iff,length_contents] at h
  have hlt := Nat.lt_of_le_of_ne r.size_le h
  rw [(r.push_contents (by rwa [length_contents]) data).1,r.size_store hlt]

end

inductive Request (T : Type) where
  | push (data : T)
  | pop
  | isFull
  | isEmpty

def serve (r : RingBuffer T S) : Request T → (Bool × Option T) × RingBuffer T S
  | .push data => (((r.push data).1,none),(r.push data).2)
  | .pop => match r.pop with
    | some (data,r') => ((true,some data),r')
    | none => ((false,none),r)
  | .isFull => ((r.isFull,none),r)
  | .isEmpty => ((r.isEmpty,none),r)

def queue (S : ℕ) : List T → Request T → (Bool × Option T) × List T
  | q, .push data => if q.length < S then ((true,none),q ++ [data]) else ((false,none),q)
  | [], .pop => ((false,none),[])
  | data :: q, .pop => ((true,some data),q)
  | q, .isFull => ((decide (q.length = S),none),q)
  | q, .isEmpty => ((decide (q = []),none),q)

lemma serve_step (r : RingBuffer T S) (o : Request T) :
    Prod.map id contents (r.serve o) = queue S r.contents o := by
  have hl : r.contents.length ≤ S := r.length_contents ▸ r.size_le
  cases o with
  | push data =>
    rcases Nat.lt_or_eq_of_le hl with hl | hl
    · obtain ⟨hp,hc⟩ := r.push_contents hl data
      simp [serve,queue,hp,hc,hl]
    · simp [serve,queue,r.push_full hl data,hl]
  | pop =>
    cases hc : r.contents with
    | nil => simp [serve,queue,r.pop_empty hc,hc]
    | cons data q =>
      obtain ⟨hp,hq⟩ := r.pop_contents hc
      simp [serve,queue,hp,hq]
  | isFull => simp [serve,queue,← isFull_iff]
  | isEmpty => simp [serve,queue,← isEmpty_iff]

lemma serve_failed {r : RingBuffer T S} {o : Request T} (h : (r.serve o).1.1 = false) :
    (r.serve o).2 = r := by
  cases o <;> simp only [serve,push,pop] at h ⊢ <;> split_ifs at h ⊢ <;> simp_all

lemma serve_run (r : RingBuffer T S) (os : List (Request T)) :
    (os.foldl (fun r o => (r.serve o).2) r).contents =
      os.foldl (fun q o => (queue S q o).2) r.contents := by
  induction os generalizing r with
  | nil => rfl
  | cons o os ih => rw [foldl_cons,ih,foldl_cons,← serve_step,Prod.map_snd]

theorem ringBuffer_fifo (memory : ℕ → T) (os : List (Request T)) (o : Request T) :
    let r : RingBuffer T S := os.foldl (fun r o => (r.serve o).2) (new memory)
    let q := os.foldl (fun q o => (queue S q o).2) []
    r.contents = q ∧ (r.serve o).1 = (queue S q o).1 ∧
      (r.serve o).2.contents = (queue S q o).2 ∧ ((r.serve o).1.1 = false → (r.serve o).2 = r) := by
  intro r q
  have hq : r.contents = q := (serve_run _ os).trans (by rw [contents_new])
  have hs := serve_step r o
  rw [hq] at hs
  exact ⟨hq,congrArg Prod.fst hs,congrArg Prod.snd hs,serve_failed⟩

end RingBuffer

end Dev
