import RaphKernel.Library.Tokens
import RaphKernel.Libc.Strcpy

namespace Shell
open Bytes Libc Function List Nat Tokens

def kCommandSize : ℕ := 100

def kArgumentMax : ℕ := 10

inductive Arg
  | unset
  | null
  | name (i : ℕ)
  deriving DecidableEq

inductive Fault
  | overrun
  | unset
  deriving DecidableEq

structure ExecContainer where
  name : ℕ → Byte
  argc : ℕ
  argv : ℕ → Arg

namespace ExecContainer

def new (heap : ℕ → Byte) : ExecContainer := {name := heap, argc := 0, argv := fun _ => .unset}

def put (ec : ExecContainer) (i : ℕ) (c : Byte) : ExecContainer :=
  {ec with name := update ec.name i c}

def addArgument (ec : ExecContainer) (i : ℕ) : ExecContainer :=
  if ec.argc < kArgumentMax then
    {ec with
      argv := update (update ec.argv ec.argc (.name i)) (ec.argc + 1) .null
      argc := ec.argc + 1}
  else ec

end ExecContainer

open ExecContainer

def tokenizeLoop : ℕ → ℕ → Bool → ExecContainer → ExecContainer
  | 0, _, _, ec => ec
  | n + 1, i, inToken, ec =>
    if ec.name i = 0 then ec
    else if ec.name i = 35 then ec.put i 0
    else if inToken then
      if ec.name i = 32 then tokenizeLoop n (i + 1) false (ec.put i 0)
      else tokenizeLoop n (i + 1) true ec
    else if ec.name i = 32 then tokenizeLoop n (i + 1) false (ec.put i 0)
    else tokenizeLoop n (i + 1) true (ec.addArgument i)

-- strcpy fills name[kCommandSize] without a bound
def tokenize (ec : ExecContainer) (command : CString) : Except Fault ExecContainer :=
  if command.strlen < kCommandSize then
    .ok (tokenizeLoop (kCommandSize - 1) 0 false {ec with name := strcpy ec.name 0 command.chars})
  else .error .overrun

structure Liner where
  command : ℕ → Byte
  nextCommand : ℕ

namespace Liner

def reset (l : Liner) : Liner := {command := update l.command 0 0, nextCommand := 0}

def setup : Liner := reset {command := fun _ => 0, nextCommand := 0}

def readCh (heap : ℕ → Byte) (l : Liner) (c : Byte) : Except Fault (Liner × Option ExecContainer) :=
  if c = 10 then do
    let ec ← tokenize (.new heap) (.read l.command 0 kCommandSize)
    .ok (l.reset,some ec)
  else if c = 8 then
    if 0 < l.nextCommand then
      .ok ({command := update l.command (l.nextCommand - 1) 0,
            nextCommand := l.nextCommand - 1},none)
    else .ok (l,none)
  else if l.nextCommand ≠ kCommandSize - 1 then
    .ok ({command := update (update l.command l.nextCommand c)
            (l.nextCommand + 1) 0,
          nextCommand := l.nextCommand + 1},none)
  else .ok (l,none)

def run (heap : ℕ → Byte) (l : Liner) : List Byte → Except Fault (Liner × List ExecContainer)
  | [] => .ok (l,[])
  | c :: input => do
    let (l,ec) ← readCh heap l c
    let (l,ecs) ← run heap l input
    .ok (l,ec.toList ++ ecs)

structure Holds (l : Liner) (line : List Byte) : Prop where
  next : l.nextCommand = line.length
  short : line.length ≤ kCommandSize - 1
  spells : Spells l.command 0 line

end Liner

def edit (line : List Byte) (c : Byte) : List Byte :=
  if c = 10 then []
  else if c = 8 then line.dropLast
  else if line.length < kCommandSize - 1 then line ++ [c]
  else line

def blank (c : Byte) : Bool := c == 32

def uncommented (line : List Byte) : List Byte := line.takeWhile (· ≠ 35)

def tokens (line : List Byte) : List (List Byte) := Tokens.words blank (uncommented line)

structure Argv (ec : ExecContainer) (first : ℕ) (ws : List (List Byte)) : Prop where
  argc : ec.argc = first + ws.length
  null : 0 < ec.argc → ec.argv ec.argc = .null
  each : ∀ j w, ws[j]? = some w → ∃ p, ec.argv (first + j) = .name p ∧ Spells ec.name p w ∧
    p + w.length < kCommandSize

section
variable {ec r : ExecContainer} {i n first p : ℕ} {c : Byte} {cs w : List Byte}
  {ws : List (List Byte)} {inToken : Bool}

lemma Argv.cons (h : Argv ec (first + 1) ws) (hp : ec.argv first = .name p)
    (hw : Spells ec.name p w) (hin : p + w.length < kCommandSize) : Argv ec first (w :: ws) where
  argc := by rw [h.argc,length_cons]; omega
  null := h.null
  each j v hv := by
    cases j with
    | zero =>
      obtain rfl : w = v := by simpa using hv
      exact ⟨p,hp,hw,hin⟩
    | succ j =>
      have hat := h.each j v (by simpa using hv)
      rwa [Nat.add_right_comm,Nat.add_assoc] at hat

lemma addArgument_null (hn : 0 < ec.argc → ec.argv ec.argc = .null) (i : ℕ)
    (h : 0 < (ec.addArgument i).argc) :
    (ec.addArgument i).argv (ec.addArgument i).argc = .null := by
  rw [addArgument] at h ⊢
  split at h
  · rw [if_pos ‹_›]
    exact update_self ..
  · rw [if_neg ‹_›]
    exact hn h

lemma addArgument_name (ec : ExecContainer) (i : ℕ) : (ec.addArgument i).name = ec.name := by
  rw [addArgument]
  split <;> rfl

lemma uncommented_comment (h : c = 35) : uncommented (c :: cs) = [] := by
  rw [uncommented,takeWhile_cons_of_neg (by simp [h])]

lemma uncommented_cons (h : c ≠ 35) : uncommented (c :: cs) = c :: uncommented cs := by
  rw [uncommented,takeWhile_cons_of_pos (by simpa using h)]
  rfl

lemma uncommented_length (cs : List Byte) : (uncommented cs).length ≤ cs.length :=
  (List.takeWhile_prefix _).length_le

def rest (inToken : Bool) (cs : List Byte) : List Byte :=
  if inToken then (uncommented cs).dropWhile (!blank ·) else uncommented cs

structure Scanned (ec r : ExecContainer) (i : ℕ) (inToken : Bool) (cs : List Byte) : Prop where
  before : ∀ j < i, r.name j = ec.name j
  kept : ∀ k < ec.argc, r.argv k = ec.argv k
  args : Argv r ec.argc ((Tokens.words blank (rest inToken cs)).take (kArgumentMax - ec.argc))
  token : Spells r.name i ((uncommented cs).takeWhile (!blank ·))
  untouched : r.argc = ec.argc → r.argv = ec.argv

lemma scanned_end (hn : 0 < ec.argc → ec.argv ec.argc = .null)
    (hcs : uncommented cs = []) (hz : r.name i = 0) (hb : ∀ j < i, r.name j = ec.name j)
    (har : r.argc = ec.argc) (ha : r.argv = ec.argv) : Scanned ec r i inToken cs where
  before := hb
  kept k _ := congrFun ha k
  args := by
    have hr : rest inToken cs = [] := by cases inToken <;> simp [rest,hcs]
    rw [hr,words_nil,take_nil]
    exact ⟨har,by rwa [har,ha],by simp⟩
  token := by
    rw [hcs]
    exact hz
  untouched _ := ha

lemma Scanned.separator (h : Scanned (ec.put i 0) r (i + 1) false cs) (hc : c = 32) :
    Scanned ec r i inToken (c :: cs) := by
  have hb : blank c = true := beq_iff_eq.mpr hc
  have hl : uncommented (c :: cs) = c :: uncommented cs := uncommented_cons (by simp [hc])
  have hw : words blank (rest inToken (c :: cs)) = words blank (rest false cs) := by
    cases inToken <;> simp [rest,hl,hb,words_separator hb]
  constructor
  · exact fun j hj => (h.before j (lt_succ_of_lt hj)).trans
      (update_of_ne hj.ne 0 ec.name)
  · exact h.kept
  · rw [hw]
    exact h.args
  · rw [hl,takeWhile_cons_of_neg (by simp [hb])]
    exact (h.before i (lt_succ_self i)).trans (update_self i 0 ec.name)
  · exact h.untouched

lemma Scanned.inside (h : Scanned ec r (i + 1) true cs) (hn : ec.name i = c) (hc : c ≠ 32)
    (hco : c ≠ 35) : Scanned ec r i true (c :: cs) := by
  have hb : (!blank c) = true := by simpa [blank] using hc
  have hl : uncommented (c :: cs) = c :: uncommented cs := uncommented_cons hco
  constructor
  · exact fun j hj => h.before j (lt_succ_of_lt hj)
  · exact h.kept
  · have hr : rest true (c :: cs) = rest true cs := by simp [rest,hl,hb]
    rw [hr]
    exact h.args
  · rw [hl,takeWhile_cons_of_pos (by exact hb)]
    exact ⟨(h.before i (lt_succ_self i)).trans hn,h.token⟩
  · exact h.untouched

lemma Scanned.start (h : Scanned (ec.addArgument i) r (i + 1) true cs) (hn : ec.name i = c)
    (hc : c ≠ 32) (hco : c ≠ 35) (hi : i + (c :: cs).length < kCommandSize) :
    Scanned ec r i false (c :: cs) := by
  have hb : blank c = false := by simpa [blank] using hc
  have hl : uncommented (c :: cs) = c :: uncommented cs := uncommented_cons hco
  have hw : words blank (rest false (c :: cs)) =
      (c :: (uncommented cs).takeWhile (!blank ·)) :: words blank (rest true cs) := by
    simp [rest,hl,words_cons hb,hb]
  have ht : Spells r.name i (c :: (uncommented cs).takeWhile (!blank ·)) :=
    ⟨(h.before i (lt_succ_self i)).trans ((congrFun (addArgument_name ec i) i).trans hn),h.token⟩
  have hs : Spells r.name i ((uncommented (c :: cs)).takeWhile (!blank ·)) := by
    rwa [hl,takeWhile_cons_of_pos (by simp [hb])]
  by_cases hma : ec.argc < kArgumentMax
  · rw [addArgument,if_pos hma] at h
    have hfi : r.argv ec.argc = .name i := (h.kept ec.argc (lt_succ_self _)).trans
        ((update_of_ne (Nat.ne_of_lt (lt_succ_self _)) _ _).trans
          (update_self ..))
    constructor
    · exact fun j hj => h.before j (lt_succ_of_lt hj)
    · exact fun k hk => (h.kept k (lt_succ_of_lt hk)).trans
        ((update_of_ne (Nat.ne_of_lt (lt_succ_of_lt hk)) _ _).trans
          (update_of_ne hk.ne _ _))
    · obtain ⟨k,hk⟩ := exists_eq_add_one.mpr (Nat.sub_pos_of_lt hma)
      have ha := h.args
      rw [show kArgumentMax - (ec.argc + 1) = k by omega] at ha
      rw [hw,hk,take_succ_cons]
      refine ha.cons hfi ht ?_
      have hwo := (List.takeWhile_prefix (!blank ·) (l := uncommented cs)).length_le
      have hle := uncommented_length cs
      rw [length_cons] at hi ⊢
      omega
    · exact hs
    · intro _
      have hm : ec.argc + 1 ≤ r.argc := h.args.argc ▸ Nat.le_add_right _ _
      omega
  · rw [addArgument,if_neg hma] at h
    have hf := Nat.sub_eq_zero_of_le (Nat.not_lt.mp hma)
    have ha := h.args
    rw [hf,take_zero] at ha
    constructor
    · exact fun j hj => h.before j (lt_succ_of_lt hj)
    · exact h.kept
    · rw [hf,take_zero]
      exact ha
    · exact hs
    · exact h.untouched

lemma tokenizeLoop_scanned (hcs : Spells ec.name i cs) (hz : 0 ∉ cs) (hn : cs.length ≤ n)
    (hi : i + cs.length < kCommandSize) (hnu : 0 < ec.argc → ec.argv ec.argc = .null) :
    Scanned ec (tokenizeLoop n i inToken ec) i inToken cs := by
  -- the induction is on the text still to be read, of which name holds a copy from i on
  induction cs generalizing n i inToken ec with
  | nil =>
    have hze : ec.name i = 0 := hcs
    have hs : tokenizeLoop n i inToken ec = ec := by
      cases n with
      | zero => rfl
      | succ n => rw [tokenizeLoop,if_pos hze]
    rw [hs]
    exact scanned_end hnu rfl hze (fun _ _ => rfl) rfl rfl
  | cons c cs ih =>
    obtain ⟨n,rfl⟩ := exists_eq_add_one.mpr (zero_lt_of_lt hn)
    obtain ⟨hc,hcs⟩ := hcs
    have hne : c ≠ 0 := fun hze => hz (hze ▸ mem_cons_self)
    have hz : 0 ∉ cs := fun hm => hz (mem_cons_of_mem c hm)
    have hn := le_of_succ_le_succ hn
    have hnx : i + 1 + cs.length < kCommandSize := by rw [length_cons] at hi; omega
    have hp : Spells (ec.put i 0).name (i + 1) cs :=
      hcs.congr fun j hj => update_of_ne (Nat.ne_of_gt hj) 0 ec.name
    rw [tokenizeLoop,hc,if_neg hne]
    by_cases hco : c = 35
    · rw [if_pos hco]
      exact scanned_end hnu (uncommented_comment hco) (update_self i 0 ec.name)
        (fun j hj => update_of_ne hj.ne 0 ec.name) rfl rfl
    rw [if_neg hco]
    by_cases hb : c = 32
    · simp only [if_pos hb,ite_self]
      exact (ih hp hz hn hnx hnu).separator hb
    · simp only [if_neg hb]
      cases inToken with
      | true => exact (ih hcs hz hn hnx hnu).inside hc hb hco
      | false =>
        have hna : Spells (ec.addArgument i).name (i + 1) cs := by rwa [addArgument_name]
        exact (ih hna hz hn hnx (addArgument_null hnu i)).start hc hb hco hi

lemma tokenize_scanned {command : CString} (h : command.strlen < kCommandSize) (heap : ℕ → Byte) :
    ∃ ec, tokenize (.new heap) command = .ok ec ∧
      Argv ec 0 ((tokens command.chars).take kArgumentMax) ∧
      Spells ec.name 0 ((uncommented command.chars).takeWhile (!blank ·)) ∧
      (ec.argc = 0 → ec.argv 0 = .unset) := by
  rw [tokenize,if_pos h]
  have hs : Scanned _ (tokenizeLoop (kCommandSize - 1) 0 false
      {new heap with name := strcpy heap 0 command.chars}) 0 false command.chars :=
    tokenizeLoop_scanned (spells_strcpy heap 0 command.chars) command.nonzero
      (le_sub_one_of_lt h) (by rwa [Nat.zero_add]) fun ha => absurd ha (Nat.lt_irrefl 0)
  exact ⟨_,rfl,hs.args,hs.token,fun ha => congrFun (hs.untouched ha) 0⟩

end

section
variable {l : Liner} {line : List Byte} {m : ℕ → Byte} {c : Byte}

lemma spells_push (h : Spells m 0 line) (c : Byte) :
    Spells (update (update m line.length c) (line.length + 1) 0) 0
      (line ++ [c]) := by
  refine h.append ?_ ?_ ?_
  all_goals rw [Nat.zero_add]
  · rw [update_of_ne (Nat.ne_of_lt (lt_succ_self _)),update_self]
  · rw [update_self]
  · intro j hj
    rw [update_of_ne (Nat.ne_of_lt (lt_succ_of_lt hj)),update_of_ne hj.ne]

lemma spells_erase (h : Spells m 0 line) (hli : 0 < line.length) :
    Spells (update m (line.length - 1) 0) 0 line.dropLast := by
  have hl := dropLast_concat_getLast (ne_nil_of_length_pos hli)
  rw [← hl] at h
  rw [← length_dropLast]
  refine h.initial ?_ ?_
  all_goals rw [Nat.zero_add]
  · rw [update_self]
  · exact fun j hj => update_of_ne hj.ne 0 m

lemma Liner.reset_holds (l : Liner) : l.reset.Holds [] :=
  ⟨rfl,Nat.zero_le _,update_self 0 0 l.command⟩

section
variable (h : l.Holds line) (heap : ℕ → Byte)
include h heap

lemma Liner.Holds.readCh_newline : ∃ ec, l.readCh heap 10 = .ok (l.reset,some ec) ∧
      Argv ec 0 ((tokens (text line)).take kArgumentMax) ∧
      Spells ec.name 0 ((uncommented (text line)).takeWhile (!blank ·)) := by
  have hr : line.length < kCommandSize := lt_of_le_pred (by decide) h.short
  have hc := read_chars h.spells hr
  have hre : (CString.read l.command 0 kCommandSize).strlen < kCommandSize := by
    rw [CString.strlen,hc]
    exact Nat.lt_of_le_of_lt (text_length line) hr
  obtain ⟨ec,hec,ha,hn,-⟩ := tokenize_scanned hre heap
  rw [hc] at ha hn
  refine ⟨ec,?_,ha,hn⟩
  rw [Liner.readCh,if_pos rfl,hec]
  rfl

lemma Liner.Holds.readCh (c : Byte) :
    ∃ l' ec, l.readCh heap c = .ok (l',ec) ∧ l'.Holds (edit line c) := by
  by_cases hn : c = 10
  · obtain ⟨ec,hr,-⟩ := h.readCh_newline heap
    rw [edit,if_pos hn,hn]
    exact ⟨_,_,hr,l.reset_holds⟩
  rw [Liner.readCh,edit,if_neg hn,if_neg hn]
  by_cases hb : c = 8
  · rw [if_pos hb,if_pos hb,h.next]
    cases hl : line.length with
    | zero =>
      obtain rfl : line = [] := length_eq_zero_iff.mp hl
      exact ⟨l,none,rfl,h⟩
    | succ n =>
      rw [if_pos (zero_lt_succ n),← hl]
      refine ⟨_,_,rfl,length_dropLast.symm,?_,spells_erase h.spells (by omega)⟩
      rw [length_dropLast]
      exact Nat.le_trans (sub_le _ _) h.short
  · rw [if_neg hb,if_neg hb,h.next]
    by_cases hf : line.length < kCommandSize - 1
    · rw [if_pos hf.ne,if_pos hf]
      refine ⟨_,_,rfl,by rw [length_append]; rfl,?_,spells_push h.spells c⟩
      rw [length_append,length_singleton]
      omega
    · have hm := Nat.le_antisymm h.short (Nat.not_lt.mp hf)
      rw [if_neg (not_not.mpr hm),if_neg hf]
      exact ⟨l,none,rfl,h⟩

lemma run_holds (input : List Byte) :
    ∃ l' ecs, l.run heap input = .ok (l',ecs) ∧ l'.Holds (input.foldl edit line) := by
  induction input generalizing l line with
  | nil => exact ⟨l,[],rfl,h⟩
  | cons c input ih =>
    obtain ⟨l₁,ec,hr,h₁⟩ := h.readCh heap c
    obtain ⟨l₂,ecs,hru,h₂⟩ := ih h₁
    refine ⟨l₂,ec.toList ++ ecs,?_,h₂⟩
    rw [Liner.run,hr]
    change (l₁.run heap input >>= fun x => .ok (x.1,ec.toList ++ x.2)) = _
    rw [hru]
    rfl

end

theorem readCh_edits_tokenize_splits (heap : ℕ → Byte) (input : List Byte) :
    (∃ l ecs, Liner.setup.run heap input = .ok (l,ecs) ∧ l.Holds (input.foldl edit [])) ∧
    ∀ command : CString, command.strlen ≤ 99 → ∃ ec, tokenize (.new heap) command = .ok ec ∧
      Argv ec 0 ((tokens command.chars).take 10) := by
  refine ⟨run_holds (Liner.reset_holds _) heap input,?_⟩
  intro command hc
  obtain ⟨ec,hec,ha,-⟩ := tokenize_scanned (Nat.lt_succ_of_le hc) heap
  exact ⟨ec,hec,ha⟩

theorem readCh_edits_tokenize_splits_line :
    (∃ l ecs, Liner.setup.run (fun _ => 7) [97,98,8,32,99] = .ok (l,ecs) ∧ l.Holds [97,32,99]) ∧
    ∃ ec, tokenize (.new fun _ => 7) ⟨[32,97,32,32,99,35,100],by decide⟩ = .ok ec ∧
      Argv ec 0 [[97],[99]] :=
  ⟨(readCh_edits_tokenize_splits (fun _ => 7) [97,98,8,32,99]).1,
    (readCh_edits_tokenize_splits (fun _ => 7) []).2 ⟨[32,97,32,32,99,35,100],by decide⟩ (by decide)⟩

end

end Shell
