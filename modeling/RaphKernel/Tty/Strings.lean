import Mathlib.Data.List.Perm.Basic
import RaphKernel.Library.Bytes
import RaphKernel.Dev.RingBuffer

namespace Tty
open Bytes Function List
open Dev (RingBuffer)

inductive Kind
  | single
  | queue
  | buffered
  deriving DecidableEq

structure Chunk where
  id : ℕ
  type : Kind
  str : ℕ → Byte
  offset : ℕ

abbrev Str := Chunk × List Chunk

structure Store where
  buf : RingBuffer Str 64
  heap : ℕ → ℕ → Byte
  fresh : ℕ
  freed : List ℕ

def Store.new (w : Store) : Chunk × Store :=
  (⟨w.fresh,.queue,w.heap w.fresh,0⟩,{w with fresh := w.fresh + 1})

def Store.get (w : Store) : Str × Store :=
  match w.buf.pop with
  | some (s,buf) => (s,{w with buf := buf})
  | none => ((w.new.1,[]),w.new.2)

def init : ℕ → Store → Store
  | 0, w => w
  | n + 1, w =>
    if w.buf.isFull then w
    else init n ⟨(w.buf.push (⟨w.fresh,.buffered,w.heap w.fresh,0⟩,[])).2,w.heap,w.fresh + 1,w.freed⟩

def Chunk.put (ch : Chunk) (c : Byte) : Chunk :=
  {ch with str := update ch.str ch.offset c, offset := ch.offset + 1}

lemma get_measure (w : Store) :
    w.get.2.buf.size < w.buf.size ∨ w.get = ((w.new.1,[]),w.new.2) := by
  rw [Store.get]
  cases hc : w.buf.contents with
  | nil => exact .inr (by rw [w.buf.pop_empty hc])
  | cons s rest =>
    obtain ⟨hp,hr⟩ := w.buf.pop_contents hc
    refine .inl ?_
    rw [hp,← RingBuffer.length_contents,← RingBuffer.length_contents w.buf,hc]
    simp [hr]

def write (c : Byte) (w : Store) (ch : Chunk) (next : List Chunk) : Str × Store :=
  if _hfull : ch.offset = 100 then
    match next with
    | n :: ns =>
      let r := write c w n ns
      ((ch,r.1.1 :: r.1.2),r.2)
    | [] =>
      match ch.type with
      | .queue =>
        let r := write c w.new.2 w.new.1 []
        ((ch,r.1.1 :: r.1.2),r.2)
      | .buffered =>
        let r := write c w.get.2 w.get.1.1 w.get.1.2
        ((ch,r.1.1 :: r.1.2),r.2)
      | .single => ((ch,[]),w)
  else ((ch.put c,next),w)
termination_by (w.buf.size,next.length + if ch.offset = 100 then 1 else 0)
decreasing_by
  · refine Prod.Lex.right _ ?_
    simp only [_hfull,if_true,length_cons]
    split <;> omega
  · refine Prod.Lex.right _ ?_
    simp [_hfull,Store.new]
  · obtain hless | heq := get_measure w
    · exact Prod.Lex.left _ _ hless
    · rw [heq]
      refine Prod.Lex.right _ ?_
      simp [_hfull,Store.new]

def Store.vprintf (w : Store) (text : List Byte) : Str × Store :=
  (text ++ [0]).foldl (fun p c => write c p.2 p.1.1 p.1.2) w.get

def printLoop (str : ℕ → Byte) (next : List Byte) : ℕ → ℕ → List Byte
  | 0, _ => next
  | n + 1, i => if str i = 0 then [] else str i :: printLoop str next n (i + 1)

def printString : List Chunk → List Byte
  | [] => []
  | ch :: next => printLoop ch.str (printString next) 100 0

def Str.chunks (s : Str) : List Chunk := s.1 :: s.2

def Chunk.reset (ch : Chunk) : Str := ({ch with offset := 0},[])

def delete : List Chunk → Store → Option Store
  | [], w => some w
  | ch :: next, w =>
    match delete next w with
    | none => none
    | some w =>
      match ch.type with
      | .single => none
      | .queue => some {w with freed := w.freed ++ [ch.id]}
      | .buffered =>
        match w.buf.push ch.reset with
        | (true,buf) => some {w with buf := buf}
        | (false,_) => none

def Chunk.pooled (ch : Chunk) : Bool := ch.type = .buffered

structure Store.Holds (w : Store) (held : List Chunk) (k : ℕ) : Prop where
  reset : ∀ s ∈ w.buf.contents, s.1.pooled = true ∧ s.1.offset = 0 ∧ s.2 = []
  ids : (w.buf.contents.map (·.1.id) ++ held.map Chunk.id ++ w.freed).Perm (range w.fresh)
  count : w.buf.contents.length + held.countP Chunk.pooled = k
  room : k ≤ 64
  kinds : ∀ ch ∈ held, ch.type ≠ .single

inductive Spells : List Chunk → List Byte → Prop
  | last {ch : Chunk} (h : ch.offset ≤ 100) : Spells [ch] ((range ch.offset).map ch.str)
  | more {ch : Chunk} {cs : List Chunk} {text : List Byte} (hch : ch.offset = 100)
      (hcs : Spells cs text) : Spells (ch :: cs) ((range 100).map ch.str ++ text)

section
variable {w : Store} {held held' cs next : List Chunk} {ch ch' : Chunk} {k : ℕ} {c : Byte}
  {text : List Byte}

lemma Store.Holds.perm (h : w.Holds held k) (hp : held.Perm held') : w.Holds held' k where
  reset := h.reset
  ids := (((hp.symm.map _).append_left _).append_right _).trans h.ids
  count := by rw [← hp.countP_eq,h.count]
  room := h.room
  kinds := fun ch hch => h.kinds ch (hp.mem_iff.mpr hch)

lemma Store.Holds.set (h : w.Holds (ch :: held) k) (hid : ch'.id = ch.id)
    (ht : ch'.type = ch.type) : w.Holds (ch' :: held) k where
  reset := h.reset
  ids := by simpa [hid] using h.ids
  count := by simpa [Chunk.pooled,ht,countP_cons] using h.count
  room := h.room
  kinds := by simpa [ht] using h.kinds

lemma perm_last (a : ℕ) (l m n : List ℕ) : (l ++ a :: m ++ n).Perm (l ++ m ++ n ++ [a]) := by
  rw [append_assoc,cons_append]
  refine perm_middle.trans ?_
  rw [← append_assoc]
  exact (perm_append_singleton ..).symm

lemma Store.Holds.new (h : w.Holds held k) : w.new.2.Holds (w.new.1 :: held) k where
  reset := h.reset
  ids := by
    have hid := h.ids.append_right [w.fresh]
    rw [← range_succ] at hid
    exact (perm_last ..).trans hid
  count := by simpa [Store.new,Chunk.pooled] using h.count
  room := h.room
  kinds := by simpa [Store.new] using h.kinds

lemma Store.Holds.get (h : w.Holds held k) :
    w.get.1.2 = [] ∧ w.get.1.1.offset = 0 ∧ w.get.2.Holds (w.get.1.1 :: held) k := by
  cases hc : w.buf.contents with
  | nil =>
    rw [Store.get,w.buf.pop_empty hc]
    exact ⟨rfl,rfl,h.new⟩
  | cons s rest =>
    obtain ⟨hpo,hr⟩ := w.buf.pop_contents hc
    obtain ⟨hp,ho,hn⟩ := h.reset s (by simp [hc])
    obtain ⟨hre,hid,hco,hro,hk⟩ := h
    rw [hc] at hre hid hco
    rw [Store.get,hpo]
    refine ⟨hn,ho,?_⟩
    constructor
    · rw [hr]
      exact fun t ht => hre t (mem_cons_of_mem s ht)
    · rw [hr]
      exact Perm.trans (by simp) hid
    · rw [hr]
      simp only [length_cons,countP_cons_of_pos hp] at hco ⊢
      omega
    · exact hro
    · refine forall_mem_cons.mpr ⟨?_,hk⟩
      simp [of_decide_eq_true hp]

lemma write_put (h : ch.offset ≠ 100) : write c w ch next = ((ch.put c,next),w) := by
  rw [write.eq_def,dif_neg h]

lemma put_text (ch : Chunk) (c : Byte) :
    (range (ch.put c).offset).map (ch.put c).str = (range ch.offset).map ch.str ++ [c] := by
  have hs : ∀ i ∈ range ch.offset, (ch.put c).str i = ch.str i := by
    intro i hi
    simp [Chunk.put,(mem_range.mp hi).ne]
  have hl : (ch.put c).str ch.offset = c := by simp [Chunk.put]
  change (range (ch.offset + 1)).map _ = _
  rw [range_succ,map_append,map_congr_left hs,map_singleton,hl]

lemma write_extend (hf : ch.offset = 100) (hch' : ch'.offset = 0)
    (hw : w.Holds (ch' :: ch :: held) k) :
    (write c w ch' []).2.Holds (ch :: (write c w ch' []).1.chunks ++ held) k ∧
      Spells (ch :: (write c w ch' []).1.chunks) ((range ch.offset).map ch.str ++ [c]) := by
  rw [write_put (by rw [hch']; decide)]
  have hp : w.Holds (ch'.put c :: ch :: held) k := hw.set rfl rfl
  refine ⟨hp.perm (Perm.swap ..),?_⟩
  have hl : Spells [ch'.put c] _ := .last (by simp [Chunk.put,hch'])
  rw [put_text,hch',range_zero,map_nil,nil_append] at hl
  rw [hf]
  exact .more hf hl

lemma write_spec (hw : w.Holds (ch :: next ++ held) k) (ht : Spells (ch :: next) text) :
    (write c w ch next).2.Holds ((write c w ch next).1.chunks ++ held) k ∧
      Spells (write c w ch next).1.chunks (text ++ [c]) := by
  induction next generalizing ch text held with
  | nil =>
    obtain ⟨hle⟩ | ⟨-,hni⟩ := ht
    · by_cases hf : ch.offset = 100
      · rw [write.eq_def,dif_pos hf]
        cases hty : ch.type with
        | single => exact absurd hty (hw.kinds ch (by simp))
        | queue => exact write_extend hf rfl hw.new
        | buffered =>
          obtain ⟨hn,ho,hg⟩ := hw.get
          rw [hn]
          exact write_extend hf ho hg
      · rw [write_put hf]
        have hl : Spells [ch.put c] _ := .last (Nat.lt_of_le_of_ne hle hf)
        rw [put_text] at hl
        exact ⟨hw.set rfl rfl,hl⟩
    · cases hni
  | cons n ns ih =>
    cases ht with
    | more hf hcs =>
      rw [write.eq_def,dif_pos hf,append_assoc]
      have hm : (ch :: n :: ns ++ held).Perm (n :: ns ++ ch :: held) := perm_middle.symm
      obtain ⟨hh,hs⟩ := ih (hw.perm hm) hcs
      exact ⟨hh.perm perm_middle,.more hf hs⟩

lemma printLoop_eq (str : ℕ → Byte) (rest : List Byte) (n i : ℕ) :
    printLoop str (rest.takeWhile (· ≠ 0)) n i =
      ((range' i n).map str ++ rest).takeWhile (· ≠ 0) := by
  induction n generalizing i with
  | zero => rfl
  | succ n ih =>
    rw [printLoop,ih,range'_succ,map_cons,cons_append,takeWhile_cons]
    by_cases hz : str i = 0 <;> simp [hz]

lemma printString_spells (h : Spells cs text) :
    ∃ rest, printString cs = (text ++ rest).takeWhile (· ≠ 0) := by
  induction h with
  | @last ch hle =>
    obtain ⟨m,hm⟩ := Nat.exists_eq_add_of_le hle
    have hl := printLoop_eq ch.str [] 100 0
    rw [append_nil,← range_eq_range',hm,range_add,map_append,← hm] at hl
    exact ⟨_,hl⟩
  | @more ch cs text hch hcs ih =>
    obtain ⟨rest,hr⟩ := ih
    refine ⟨rest,?_⟩
    rw [printString,hr,printLoop_eq,← range_eq_range',append_assoc]

lemma Store.Holds.free (h : w.Holds (ch :: held) k) (hch : ch.pooled = false) :
    {w with freed := w.freed ++ [ch.id]}.Holds held k where
  reset := h.reset
  ids := by
    rw [← append_assoc]
    exact (perm_last ..).symm.trans h.ids
  count := by simpa [hch] using h.count
  room := h.room
  kinds := fun ch hch => h.kinds ch (mem_cons_of_mem _ hch)

lemma Store.Holds.push (h : w.Holds (ch :: held) k) (hch : ch.pooled = true) :
    w.buf.push ch.reset = (true,w.buf.store ch.reset) ∧
      (w.buf.store ch.reset).contents = w.buf.contents ++ [ch.reset] ∧
      {w with buf := w.buf.store ch.reset}.Holds held k := by
  have hco := h.count
  have hr := h.room
  rw [countP_cons_of_pos hch] at hco
  obtain ⟨hp,hc⟩ := w.buf.push_contents (by omega) ch.reset
  refine ⟨hp,hc,?_⟩
  constructor
  · rw [hc,forall_mem_append]
    exact ⟨h.reset,by simpa [Chunk.reset,Chunk.pooled] using hch⟩
  · rw [hc]
    exact Perm.trans (by simp [Chunk.reset]) h.ids
  · rw [hc,length_append,length_singleton]
    omega
  · exact h.room
  · exact fun ch hch => h.kinds ch (mem_cons_of_mem _ hch)

lemma Store.Holds.init {n : ℕ} (h : w.Holds [] k) (hn : k + n = 64) : (init n w).Holds [] 64 := by
  induction n generalizing w k with
  | zero =>
    obtain rfl : k = 64 := hn
    exact h
  | succ n ih =>
    have hco : w.buf.contents.length = k := h.count
    have hf : ¬ w.buf.isFull = true := by
      rw [RingBuffer.isFull_iff]
      omega
    obtain ⟨hp,hc⟩ := w.buf.push_contents (by omega) _
    rw [Tty.init,if_neg hf,hp]
    refine ih (k := k + 1) ?_ (by omega)
    constructor
    · rw [hc,forall_mem_append]
      exact ⟨h.reset,by simp [Chunk.pooled]⟩
    · rw [hc,range_succ]
      refine Perm.trans ?_ (h.ids.append_right [w.fresh])
      simpa using perm_last w.fresh (w.buf.contents.map (·.1.id)) [] w.freed
    · rw [hc,length_append,hco]
      rfl
    · omega
    · exact fun _ hch => absurd hch not_mem_nil

lemma delete_spec (hw : w.Holds (cs ++ held) k) : ∃ w', delete cs w = some w' ∧ w'.Holds held k ∧
      w'.buf.contents = w.buf.contents ++ (cs.reverse.filter Chunk.pooled).map Chunk.reset ∧
      w'.freed = w.freed ++ (cs.reverse.filter (!·.pooled)).map Chunk.id := by
  induction cs generalizing held with
  | nil => exact ⟨w,rfl,hw,by simp,by simp⟩
  | cons ch next ih =>
    have hm : (ch :: next ++ held).Perm (next ++ ch :: held) := perm_middle.symm
    obtain ⟨w',hd,hh,hc,hf⟩ := ih (hw.perm hm)
    rw [delete,hd,reverse_cons,filter_append,filter_append,map_append,map_append,
      ← append_assoc,← append_assoc,← hc,← hf]
    cases ht : ch.type with
    | single => exact absurd ht (hw.kinds ch (by simp))
    | queue =>
      have hch : ch.pooled = false := by simp [Chunk.pooled,ht]
      exact ⟨_,rfl,hh.free hch,by simp [hch],by simp [hch]⟩
    | buffered =>
      have hch : ch.pooled = true := by simp [Chunk.pooled,ht]
      obtain ⟨hp,hs,ha⟩ := hh.push hch
      simp only [hp]
      exact ⟨_,rfl,ha,by simp [hch,hs],by simp [hch]⟩

lemma writes_spec {s : Str} (hw : w.Holds (s.chunks ++ held) k) (hs : Spells s.chunks text)
    (l : List Byte) {p : Str × Store} (hp : p = l.foldl (fun p c => write c p.2 p.1.1 p.1.2) (s,w)) :
    p.2.Holds (p.1.chunks ++ held) k ∧ Spells p.1.chunks (text ++ l) := by
  induction l generalizing s w text with
  | nil =>
    subst hp
    exact ⟨hw,by rwa [append_nil]⟩
  | cons c l ih =>
    obtain ⟨hn,hsp⟩ := write_spec (c := c) hw hs
    rw [append_cons]
    exact ih hn hsp hp

lemma vprintf_spec (hw : w.Holds held k) (text : List Byte) :
    (w.vprintf text).2.Holds ((w.vprintf text).1.chunks ++ held) k ∧
      Spells (w.vprintf text).1.chunks (text ++ [0]) := by
  obtain ⟨hn,ho,_⟩ := hw.get
  have hc : w.get.1.chunks = [w.get.1.1] := by rw [Str.chunks,hn]
  have he : Spells w.get.1.chunks [] := by
    have hl : Spells [w.get.1.1] _ := .last (by rw [ho]; decide)
    rwa [ho,← hc] at hl
  exact writes_spec (by rwa [hc]) he _ rfl

theorem string_printed_deleted (hw : w.Holds held k) (htext : 0 ∉ text) :
    printString (w.vprintf text).1.chunks = text ∧
    ∃ w', delete (w.vprintf text).1.chunks (w.vprintf text).2 = some w' ∧ w'.Holds held k ∧
      w'.buf.contents = (w.vprintf text).2.buf.contents ++
        ((w.vprintf text).1.chunks.reverse.filter Chunk.pooled).map Chunk.reset ∧
      w'.freed = (w.vprintf text).2.freed ++
        ((w.vprintf text).1.chunks.reverse.filter (!·.pooled)).map Chunk.id := by
  obtain ⟨hh,hs⟩ := vprintf_spec hw text
  obtain ⟨rest,hp⟩ := printString_spells hs
  refine ⟨?_,delete_spec hh⟩
  have ha : ∀ c ∈ text, decide (c ≠ 0) = true := fun c hc =>
    decide_eq_true fun heq => htext (heq ▸ hc)
  rw [hp,append_assoc,takeWhile_append_of_pos ha,singleton_append,
    takeWhile_cons_of_neg (by decide),append_nil]

@[irreducible]
def setup : Store :=
  init 64 ⟨.new fun _ => (⟨0,.single,fun _ => 0,0⟩,[]),fun _ _ => 0,0,[]⟩

lemma setup_holds : setup.Holds [] 64 := by
  rw [setup]
  refine Store.Holds.init (k := 0) ?_ rfl
  constructor <;> simp [RingBuffer.contents_new]

theorem string_printed_deleted_setup :
    printString (setup.vprintf (replicate 250 65)).1.chunks = replicate 250 65 ∧
    ∃ w', delete (setup.vprintf (replicate 250 65)).1.chunks
      (setup.vprintf (replicate 250 65)).2 = some w' ∧ w'.Holds [] 64 := by
  obtain ⟨hp,w',hd,hh,-⟩ := string_printed_deleted setup_holds fun h : 0 ∈ replicate 250 65 =>
      absurd (eq_of_mem_replicate h) (by decide)
  exact ⟨hp,w',hd,hh⟩

end

inductive Event
  | vprintf (text : List Byte)
  | flush
  | handle
  | start

structure Console where
  store : Store
  queue : List Str
  valid : Bool
  started : Bool
  out : List Byte

def handle (t : Console) : List Str → Option Console
  | [] => some {t with queue := []}
  | s :: queue =>
    match delete s.chunks t.store with
    | none => none
    | some w => handle {t with store := w, out := t.out ++ printString s.chunks} queue

def Console.doString (t : Console) (s : Str) : Console :=
  if t.valid && t.started then {t with queue := t.queue ++ [s]}
  else {t with out := t.out ++ printString s.chunks}

def step (t : Console) : Event → Option Console
  | .vprintf text =>
    some (Console.doString {t with store := (t.store.vprintf text).2} (t.store.vprintf text).1)
  | .flush => handle t t.queue
  | .handle => handle t t.queue
  | .start => some {t with started := true}

def run : List Event → Console → Option Console
  | [], t => some t
  | e :: es, t => (step t e).bind (run es)

def Queued (valid : Bool) : Bool → List Event → Prop
  | _, [] => True
  | started, .vprintf _ :: es => (valid && started) = true ∧ Queued valid started es
  | _, .start :: es => Queued valid true es
  | started, _ :: es => Queued valid started es

section
variable {w : Store} {held lost : List Chunk} {k : ℕ} {t : Console} {queue : List Str}

def unprinted (queue : List Str) : List Chunk := queue.flatMap Str.chunks

lemma unprinted_snoc (queue : List Str) (s : Str) :
    unprinted (queue ++ [s]) ++ lost = unprinted queue ++ (s.chunks ++ lost) := by
  simp [unprinted]

lemma handle_spec (h : t.store.Holds (unprinted queue ++ lost) k) :
    ∃ t', handle t queue = some t' ∧ t'.store.Holds lost k ∧ t'.queue = [] ∧ t'.valid = t.valid ∧
      t'.started = t.started := by
  induction queue generalizing t with
  | nil => exact ⟨_,rfl,h,rfl,rfl,rfl⟩
  | cons s queue ih =>
    rw [unprinted,flatMap_cons,append_assoc] at h
    obtain ⟨w,hw,hh,-⟩ := delete_spec h
    rw [handle,hw]
    exact ih (t := {t with store := w, out := _}) hh

lemma run_spec (es : List Event) (h : t.store.Holds (unprinted t.queue ++ lost) k) :
    ∃ t' lost', run es t = some t' ∧ t'.store.Holds (unprinted t'.queue ++ lost') k ∧
      (lost' = [] ↔ lost = [] ∧ Queued t.valid t.started es) := by
  induction es generalizing t lost with
  | nil => exact ⟨t,lost,rfl,h,by simp [Queued]⟩
  | cons e es ih =>
    cases e with
    | vprintf text =>
      have hh := (vprintf_spec h text).1.perm (perm_append_comm_assoc ..)
      rw [run]
      by_cases hon : (t.valid && t.started) = true
      · have hp : step t (.vprintf text) = some ⟨(t.store.vprintf text).2,
            t.queue ++ [(t.store.vprintf text).1],t.valid,t.started,t.out⟩ := congrArg some (if_pos hon)
        rw [← unprinted_snoc] at hh
        rw [hp]
        obtain ⟨t',lost',hru,hr,hl⟩ := ih (t := ⟨_,_,t.valid,t.started,t.out⟩) hh
        exact ⟨t',lost',hru,hr,hl.trans (by rw [Queued,and_iff_right hon])⟩
      · have hpr : step t (.vprintf text) = some ⟨(t.store.vprintf text).2,t.queue,t.valid,
            t.started,t.out ++ printString (t.store.vprintf text).1.chunks⟩ :=
          congrArg some (if_neg hon)
        rw [hpr]
        obtain ⟨t',lost',hru,hr,hl⟩ := ih (t := ⟨_,t.queue,t.valid,t.started,_⟩) hh
        refine ⟨t',lost',hru,hr,hl.trans (iff_of_false ?_ ?_)⟩
        · simp [Str.chunks]
        · exact fun hqu => hon hqu.2.1
    | flush | handle =>
      obtain ⟨t₁,hru,_,hq,hv,hs⟩ := handle_spec h
      have hf : t₁.store.Holds (unprinted t₁.queue ++ lost) k := by rwa [hq]
      simp only [run,step,hru,Queued,← hv,← hs]
      exact ih hf
    | start => exact ih (t := {t with started := true}) h

lemma lost_iff (h : w.Holds (held ++ lost) k) : w.Holds held k ↔ lost = [] := by
  constructor
  · intro hh
    have ha := h.ids.length_eq
    have hf := hh.ids.length_eq
    simp only [map_append,length_append,length_map] at ha hf
    exact length_eq_zero_iff.mp (by omega)
  · rintro rfl
    rwa [append_nil] at h

theorem strings_kept_iff (hstore : t.store.Holds [] k) (hqueue : t.queue = [])
    (es : List Event) : ∃ t', run es t = some t' ∧
      (t'.store.Holds (unprinted t'.queue) k ↔ Queued t.valid t.started es) := by
  have hs : t.store.Holds (unprinted t.queue ++ []) k := by rwa [hqueue]
  obtain ⟨t',lost,hr,hh,hl⟩ := run_spec es hs
  refine ⟨t',hr,?_⟩
  rw [lost_iff hh,hl]
  exact and_iff_right rfl

def console (started : Bool) : Console := ⟨setup,[],true,started,[]⟩

theorem strings_kept_started : ∃ t', run [.vprintf [65],.flush] (console true) = some t' ∧
    t'.store.Holds (unprinted t'.queue) 64 := by
  obtain ⟨t',hr,hk⟩ := strings_kept_iff (t := console true) setup_holds rfl [.vprintf [65],.flush]
  exact ⟨t',hr,hk.mpr ⟨rfl,trivial⟩⟩

theorem strings_leaked : ∃ t', run [.vprintf [65]] (console false) = some t' ∧
    ¬ t'.store.Holds (unprinted t'.queue) 64 := by
  have hs : (console false).store.Holds (unprinted (console false).queue ++ []) 64 := setup_holds
  obtain ⟨t',lost,hr,hh,hl⟩ := run_spec [.vprintf [65]] hs
  refine ⟨t',hr,?_⟩
  rw [lost_iff hh,hl]
  exact fun h => absurd h.2.1 (by decide)

end

end Tty
