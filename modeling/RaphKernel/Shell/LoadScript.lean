import RaphKernel.Library.Numerals
import RaphKernel.Dev.NetDevCtrl
import RaphKernel.Shell.Tokenize

namespace LoadScript
open Bytes Libc Shell Dev Loop Numerals BitVec

structure Log where
  echoed : List (List Byte) := []
  messages : List String := []
  executed : List ExecContainer := []
  delays : List (BitVec 32) := []

def Log.merge (l k : Log) : Log :=
  ⟨l.echoed ++ k.echoed,l.messages ++ k.messages,l.executed ++ k.executed,l.delays ++ k.delays⟩

inductive Action
  | next (log : Log) (timeout : BitVec 32)
  | resume (log : Log)
  | poll (dev : ℕ) (log : Log)

inductive Phase
  | script
  | polling (dev polls : ℕ)

structure Env (D : Type) where
  data : List Byte
  heap : ℕ → ℕ → Byte
  netdev : NetDevCtrl D
  linkUp : ℕ → ℕ → ℕ → Bool

structure State where
  i : ℕ
  phase : Phase
  finished : List Log
  current : Log

def waitName : List Byte := [119,97,105,116]

def linkupName : List Byte :=
  [119,97,105,116,95,117,110,116,105,108,95,108,105,110,107,117,112]

def terminator (c : Byte) : Bool := c == 10 || c == 0

def scan : List Byte → ℕ → ℕ
  | [], i => i
  | c :: rest, i => if terminator c then i else scan rest (i + 1)

def cstring (l : List Byte) : CString where
  chars := text l
  nonzero h := by simpa using List.mem_takeWhile_imp h

def argument (ec : ExecContainer) (k : ℕ) : Except Fault ℕ :=
  match ec.argv k with
  | .name p => .ok p
  | .null => .error .unset
  | .unset => .error .unset

def operand (ec : ExecContainer) : Except Fault (Option CString) :=
  if ec.argc = 2 then do
    let p ← argument ec 1
    .ok (some (.read ec.name p kCommandSize))
  else .ok none

def parseWait (t : BitVec 32) : List Byte → Option (BitVec 32)
  | [] => some t
  | c :: cs => if isDecimal c then parseWait (t * 10 + c.setWidth 32 - 48) cs else none

def invalidArgument : String := "invalid argument.\n"

def wait (line : List Byte) : Option CString → Action
  | none => .next {echoed := [line], messages := [invalidArgument]} 10
  | some arg =>
    match parseWait 0 arg.chars with
    | none => .next {echoed := [line], messages := [invalidArgument]} (0 * 1000 * 1000)
    | some t => .next {echoed := [line]} (t * 1000 * 1000)

section
variable {D : Type}

def waitUntilLinkup (netdev : NetDevCtrl D) (line : List Byte) : Option CString → Action
  | none => .resume {echoed := [line], messages := [invalidArgument]}
  | some name =>
    match netdev.getDeviceInfo name with
    | none => .resume {echoed := [line], messages := ["no such device.\n"]}
    | some dev => .poll dev {echoed := [line]}

def process (heap : ℕ → Byte) (netdev : NetDevCtrl D) (buffer : CString) : Except Fault Action := do
  let ec ← tokenize (.new heap) buffer
  if buffer.strlen ≠ 0 then do
    let p ← argument ec 0
    if strcmp ec.name p waitName = 0 then do
      let arg ← operand ec
      .ok (wait buffer.chars arg)
    else if strcmp ec.name p linkupName = 0 then do
      let arg ← operand ec
      .ok (waitUntilLinkup netdev buffer.chars arg)
    else .ok (.next {echoed := [buffer.chars], executed := [ec]} 10)
  else .ok (.next {} 10)

def advance (env : Env D) (s : State) (i : ℕ) :
    Except Fault Action → Sum State (Except Fault (List Log))
  | .error f => .inr (.error f)
  | .ok (.next log timeout) =>
    if i < env.data.length then
      .inl ⟨i + 1,.script,s.finished ++ [(s.current.merge log).merge {delays := [timeout]}],{}⟩
    else .inr (.ok (s.finished ++ [s.current.merge log]))
  | .ok (.resume log) => .inl ⟨i,.script,s.finished,(s.current.merge log).merge {delays := [10]}⟩
  | .ok (.poll dev log) => .inl ⟨i,.polling dev 0,s.finished,s.current.merge log⟩

def body (env : Env D) (s : State) : Sum State (Except Fault (List Log)) :=
  match s.phase with
  | .script =>
    let i := scan (env.data.drop s.i) s.i
    advance env s i
      (process (env.heap s.i) env.netdev (cstring ((env.data.drop s.i).take (i - s.i))))
  | .polling dev polls =>
    if env.linkUp s.i dev polls then
      .inl {s with phase := .script, current := s.current.merge {delays := [10]}}
    else .inl {s with phase := .polling dev (polls + 1)}

def loadScript (env : Env D) (r : Except Fault (List Log)) : Prop :=
  Returns (body env) ⟨0,.script,[],{}⟩ r

end

def lines (data : List Byte) : List (List Byte) := data.splitOnP terminator

def isCommand (line : List Byte) : Bool :=
  match tokens line with
  | [] => false
  | w :: _ => w ≠ waitName ∧ w ≠ linkupName

structure Handled (line : List Byte) (log : Log) : Prop where
  once : log.echoed = if line = [] then [] else [line]
  executed : if isCommand line then
      ∃ ec, log.executed = [ec] ∧ Argv ec 0 ((tokens line).take kArgumentMax)
    else log.executed = []
  waits : ∀ arg, tokens line = [waitName,arg] → (∀ c ∈ arg, isDecimal c = true) →
    ∀ us ∈ log.delays, (value 10 (arg.map decimal) * 1000000 : ℕ) ≤ us.toInt

def Plays {D : Type} (env : Env D) : Prop :=
  ∃ logs, loadScript env (.ok logs) ∧ List.Forall₂ Handled (lines env.data) logs

structure Proper {D : Type} (env : Env D) (i : ℕ) (line : List Byte) : Prop where
  short : line.length ≤ 99
  token : line ≠ [] → tokens line ≠ []
  up : ∀ (name : CString) dev, tokens line = [linkupName,name.chars] →
    env.netdev.getDeviceInfo name = some dev → ∃ polls, env.linkUp i dev polls = true

def Brief (line : List Byte) : Prop :=
  ∀ arg, tokens line = [waitName,arg] → (∀ c ∈ arg, isDecimal c = true) →
    value 10 (arg.map decimal) * 1000000 < 2 ^ 31

def Sound {D : Type} (env : Env D) : ℕ → List (List Byte) → Prop
  | _, [] => True
  | i, line :: rest =>
    Proper env (i + line.length) line ∧ (rest ≠ [] → Brief line) ∧
      Sound env (i + line.length + 1) rest

section
variable {D : Type} {line w arg : List Byte} {ec : ExecContainer} {ws : List (List Byte)} {k : ℕ}

def second : List (List Byte) → Option CString
  | [arg] => some (cstring arg)
  | _ => none

def action (netdev : NetDevCtrl D) (line : List Byte) (ec : ExecContainer) :
    List (List Byte) → Action
  | [] => .next {} 10
  | w :: ws =>
    if w = waitName then wait line (second ws)
    else if w = linkupName then waitUntilLinkup netdev line (second ws)
    else .next {echoed := [line], executed := [ec]} 10

lemma cstring_chars (h : 0 ∉ line) : (cstring line).chars = line := text_eq_self h

lemma cstring_ext {s t : CString} (h : s.chars = t.chars) : s = t := by
  obtain ⟨_,_⟩ := s
  obtain ⟨_,_⟩ := t
  obtain rfl := h
  rfl

lemma token_nonzero (hl : 0 ∉ line) (hw : w ∈ tokens line) : 0 ∉ w := fun hm =>
  hl ((List.takeWhile_sublist _).mem (Tokens.words_subset hw hm))

lemma argument_token (h : Argv ec 0 (ws.take kArgumentMax)) (hk : k < kArgumentMax)
    (hw : ws[k]? = some w) :
    ∃ p, argument ec k = .ok p ∧ Spells ec.name p w ∧ p + w.length < kCommandSize := by
  obtain ⟨p,hp,hs⟩ := h.each k w (by rwa [List.getElem?_take_of_lt hk])
  rw [Nat.zero_add] at hp
  exact ⟨p,by rw [argument,hp],hs⟩

lemma operand_second (h : Argv ec 0 ((w :: ws).take kArgumentMax)) :
    operand ec = .ok (second ws) := by
  have ha : ec.argc = 2 ↔ ws.length = 1 := by
    rw [h.argc,List.length_take,List.length_cons,kArgumentMax]
    omega
  rw [operand]
  match ws with
  | [arg] =>
    obtain ⟨p,hp,hs,_⟩ := argument_token h (k := 1) (w := arg) (by decide) rfl
    have hr : CString.read ec.name p kCommandSize = cstring arg :=
      cstring_ext (read_chars hs (by omega))
    rw [if_pos (ha.mpr rfl),hp,second,← hr]
    rfl
  | [] => rw [if_neg (mt ha.mp (by simp))]; rfl
  | _ :: _ :: _ => rw [if_neg (mt ha.mp (by simp))]; rfl

lemma process_ok (heap : ℕ → Byte) (netdev : NetDevCtrl D) (hz : 0 ∉ line)
    (hs : line.length ≤ 99) (hto : line ≠ [] → tokens line ≠ []) :
    ∃ ec, Argv ec 0 ((tokens line).take kArgumentMax) ∧
      process heap netdev (cstring line) = .ok (action netdev line ec (tokens line)) := by
  have hc := cstring_chars hz
  have hr : (cstring line).strlen < kCommandSize := by
    rw [CString.strlen,hc]
    exact Nat.lt_succ_of_le hs
  obtain ⟨ec,hec,ha,-⟩ := tokenize_scanned hr heap
  rw [hc] at ha
  refine ⟨ec,ha,?_⟩
  rw [process,hec]
  change (if (cstring line).strlen ≠ 0 then _ else _) = _
  rw [CString.strlen,hc]
  by_cases he : line = []
  · subst he
    rfl
  rw [if_pos (mt List.length_eq_zero_iff.mp he)]
  cases ht : tokens line with
  | nil => exact absurd ht (hto he)
  | cons w ws =>
    rw [ht] at ha
    have hw : 0 ∉ w := token_nonzero hz (ht ▸ List.mem_cons_self)
    obtain ⟨p,hp,hsp,-⟩ := argument_token ha (k := 0) (w := w) (by decide) rfl
    have hco : ∀ v, 0 ∉ v → (strcmp ec.name p v = 0 ↔ w = v) := fun v hv =>
      strcmp_eq_zero hsp hw hv
    rw [hp,operand_second ha]
    change (if strcmp ec.name p waitName = 0 then _ else _) = _
    simp only [hco waitName (by decide),hco linkupName (by decide),action]
    split
    · rfl
    · split <;> rfl

lemma process_fault {heap : ℕ → Byte} {netdev : NetDevCtrl D} {act : Action} (hz : 0 ∉ line)
    (h : process heap netdev (cstring line) = .ok act) :
    line.length ≤ 99 ∧ (line ≠ [] → tokens line ≠ []) := by
  have hc := cstring_chars hz
  have hr : (cstring line).strlen < kCommandSize := by
    by_contra hlong
    rw [process,tokenize,if_neg hlong] at h
    cases h
  refine ⟨Nat.le_of_lt_succ (by rwa [CString.strlen,hc] at hr),fun hne ht => ?_⟩
  obtain ⟨ec,hec,ha,-,hu⟩ := tokenize_scanned hr heap
  rw [hc,ht] at ha
  have hf : argument ec 0 = .error .unset := by rw [argument,hu ha.argc]
  rw [process,hec] at h
  change (if (cstring line).strlen ≠ 0 then _ else _) = _ at h
  rw [CString.strlen,hc,if_pos (mt List.length_eq_zero_iff.mp hne),hf] at h
  cases h

end

section
variable {D : Type} {env : Env D} {line : List Byte} {s : State} {out finished : List Log}
  {i dev k : ℕ} {act : Action} {log : Log}

def again (more : Bool) (timeout : BitVec 32) : Log :=
  if more then {delays := [timeout]} else {}

def Action.logged (more : Bool) : Action → Log
  | .next log timeout => log.merge (again more timeout)
  | .resume log => (log.merge {delays := [10]}).merge (again more 10)
  | .poll _ log => (log.merge {delays := [10]}).merge (again more 10)

def Action.Ends (env : Env D) (i : ℕ) : Action → Prop
  | .poll dev _ => ∃ polls, env.linkUp i dev polls = true
  | _ => True

def lineAt (env : Env D) (i : ℕ) : List Byte := (env.data.drop i).takeWhile (!terminator ·)

def Continues (env : Env D) (i : ℕ) (finished out : List Log) : Prop :=
  if i < env.data.length then Returns (body env) ⟨i + 1,.script,finished,{}⟩ (.ok out)
  else out = finished

lemma merge_empty (l : Log) : l.merge {} = l := by simp [Log.merge]

lemma empty_merge (l : Log) : Log.merge {} l = l := rfl

lemma scan_eq (l : List Byte) (i : ℕ) : scan l i = i + (l.takeWhile (!terminator ·)).length := by
  induction l generalizing i with
  | nil => rfl
  | cons c l ih =>
    rw [scan]
    cases hc : terminator c with
    | true => simp [hc]
    | false =>
      simp only [hc,Bool.false_eq_true,if_false,ih,List.takeWhile_cons,Bool.not_false,if_true,
        List.length_cons]
      omega

lemma body_script (hs : s.phase = .script) :
    body env s = advance env s (s.i + (lineAt env s.i).length)
      (process (env.heap s.i) env.netdev (cstring (lineAt env s.i))) := by
  have ht : (env.data.drop s.i).take (lineAt env s.i).length = lineAt env s.i :=
    (List.prefix_iff_eq_take.mp (List.takeWhile_prefix _)).symm
  rw [body,hs]
  simp only [scan_eq]
  rw [← lineAt,Nat.add_sub_cancel_left,ht]

lemma returns_next {timeout : BitVec 32} (hs : s.phase = .script)
    (h : process (env.heap s.i) env.netdev (cstring (lineAt env s.i)) = .ok (.next log timeout)) :
    Returns (body env) s (.ok out) ↔ Continues env (s.i + (lineAt env s.i).length)
      (s.finished ++ [(s.current.merge log).merge
        (again (decide (s.i + (lineAt env s.i).length < env.data.length)) timeout)]) out := by
  have hb : body env s = _ := body_script hs
  rw [h,advance] at hb
  rw [Continues,again]
  by_cases hm : s.i + (lineAt env s.i).length < env.data.length
  · rw [if_pos hm] at hb
    rw [if_pos hm,if_pos (decide_eq_true hm)]
    exact returns_step_iff hb
  · rw [if_neg hm] at hb
    rw [if_neg hm,if_neg (by simpa using hm),merge_empty,returns_exit_iff hb,Except.ok.injEq]

lemma returns_resumed (hl : lineAt env i = []) :
    Returns (body env) ⟨i,.script,finished,log⟩ (.ok out) ↔ Continues env i
      (finished ++ [log.merge (again (decide (i < env.data.length)) 10)]) out := by
  have hn : process (env.heap i) env.netdev (cstring (lineAt env i)) = .ok (.next {} 10) := by
    rw [hl]
    rfl
  rw [returns_next rfl hn,hl,merge_empty]
  rfl

lemma returns_polling : Returns (body env) ⟨i,.polling dev k,finished,log⟩ (.ok out) ↔
    (∃ polls ≥ k, env.linkUp i dev polls = true) ∧
      Returns (body env) ⟨i,.script,finished,log.merge {delays := [10]}⟩ (.ok out) := by
  have hs : ∀ k, body env ⟨i,.polling dev k,finished,log⟩ =
      if env.linkUp i dev k then .inl ⟨i,.script,finished,log.merge {delays := [10]}⟩
      else .inl ⟨i,.polling dev _,finished,log⟩ := fun _ => rfl
  constructor
  · rintro ⟨fuel,hf⟩
    induction fuel generalizing k with
    | zero => cases hf
    | succ fuel ih =>
      rw [iterate,hs] at hf
      cases hk : env.linkUp i dev k with
      | true =>
        rw [hk] at hf
        exact ⟨⟨k,Nat.le_refl k,hk⟩,fuel,hf⟩
      | false =>
        rw [hk] at hf
        obtain ⟨⟨polls,hp,hup⟩,hr⟩ := ih hf
        exact ⟨⟨polls,Nat.le_of_succ_le hp,hup⟩,hr⟩
  · rintro ⟨⟨polls,hp,hup⟩,hr⟩
    obtain ⟨n,rfl⟩ := Nat.exists_eq_add_of_le hp
    clear hp
    induction n generalizing k with
    | zero => exact (returns_step_iff ((hs k).trans (if_pos hup))).mpr hr
    | succ n ih =>
      have hn := ih (k := k + 1) (by rwa [Nat.add_right_comm])
      cases hk : env.linkUp i dev k with
      | true => exact (returns_step_iff ((hs k).trans (if_pos hk))).mpr hr
      | false => exact (returns_step_iff ((hs k).trans (hk ▸ rfl))).mpr hn

lemma returns_line (he : lineAt env (i + (lineAt env i).length) = []) :
    Returns (body env) ⟨i,.script,finished,{}⟩ (.ok out) ↔
    ∃ act, process (env.heap i) env.netdev (cstring (lineAt env i)) = .ok act ∧
      act.Ends env (i + (lineAt env i).length) ∧
      Continues env (i + (lineAt env i).length)
        (finished ++ [act.logged (decide (i + (lineAt env i).length < env.data.length))]) out := by
  have hb : body env ⟨i,.script,finished,{}⟩ = _ := body_script rfl
  cases hp : process (env.heap i) env.netdev _ with
  | error f =>
    rw [hp] at hb
    simp [returns_exit_iff hb]
  | ok act =>
    rw [hp] at hb
    simp only [Except.ok.injEq,exists_eq_left']
    cases act with
    | next log timeout =>
      rw [returns_next rfl hp]
      exact (and_iff_right trivial).symm
    | resume log =>
      rw [returns_step_iff hb,returns_resumed he]
      exact (and_iff_right trivial).symm
    | poll dev log =>
      rw [returns_step_iff hb,returns_polling,returns_resumed he]
      simp [Action.Ends,Action.logged,empty_merge]

lemma takeWhile_line {w r : List Byte} (hw : ∀ c ∈ w, terminator c = false)
    (hr : ∀ c ∈ r.head?, terminator c = true) : (w ++ r).takeWhile (!terminator ·) = w := by
  rw [List.takeWhile_append_of_pos (by simpa using hw)]
  cases r with
  | nil => simp
  | cons c r => simp [hr c rfl]

lemma lines_cons {rest : List (List Byte)} (hi : i ≤ env.data.length)
    (h : lines (env.data.drop i) = line :: rest) :
    lineAt env i = line ∧ lineAt env (i + line.length) = [] ∧
      (i + line.length = env.data.length ∧ rest = [] ∨
       i + line.length < env.data.length ∧ lines (env.data.drop (i + line.length + 1)) = rest) := by
  have hle : (env.data.drop i).length = env.data.length - i := List.length_drop
  rw [lineAt,lineAt,← List.drop_drop,Nat.add_assoc,← List.drop_drop]
  obtain ⟨hal,hs⟩ | ⟨w,a,r,hd,hw,ha,hs⟩ := Tokens.splitOnP_first terminator (env.data.drop i)
  · rw [lines,hs,List.cons.injEq] at h
    obtain ⟨rfl,rfl⟩ := h
    have hl := takeWhile_line hal (r := []) (by simp)
    rw [List.append_nil] at hl
    exact ⟨hl,by rw [List.drop_length]; rfl,.inl ⟨by omega,rfl⟩⟩
  · rw [lines,hs,List.cons.injEq] at h
    obtain ⟨rfl,rfl⟩ := h
    rw [hd,List.length_append,List.length_cons] at hle
    rw [hd]
    refine ⟨takeWhile_line hw (by simpa using ha),?_,.inr ⟨by omega,?_⟩⟩
    · rw [List.drop_left,List.takeWhile_cons_of_neg (by simp [ha])]
    · rw [← List.drop_drop,List.drop_left]
      rfl

lemma body_keeps : (∀ t, body env s = .inl t → s.finished <+: t.finished) ∧
    ∀ out, body env s = .inr (.ok out) → s.finished <+: out := by
  cases hph : s.phase with
  | polling dev polls =>
    have hp : ∃ current phase, body env s = .inl ⟨s.i,phase,s.finished,current⟩ := by
      rw [body,hph]
      exact (ite_eq_or_eq _ _ _).elim (⟨_,_,·⟩) (⟨_,_,·⟩)
    obtain ⟨_,_,hp⟩ := hp
    simp [hp]
  | script =>
    rw [body_script hph]
    cases process (env.heap s.i) env.netdev _ with
    | error f => simp [advance]
    | ok act =>
      cases act with
      | next log timeout =>
        rw [advance]
        split <;> simp
      | resume log | poll dev log => simp [advance]

lemma returns_keeps (h : Returns (body env) s (.ok out)) : s.finished <+: out := by
  refine returns_invariant (P := fun t => s.finished <+: t.finished)
    (Q := fun r => ∀ out, r = .ok out → s.finished <+: out) ?_ ?_ List.prefix_rfl h out rfl
  · exact fun t u ht hu => ht.trans (body_keeps.1 u hu)
  · rintro t _ ht hr out rfl
    exact ht.trans (body_keeps.2 out hr)

end

section
variable {D : Type} {env : Env D} {line : List Byte} {i : ℕ} {more : Bool}

lemma parseWait_decimal (ds : List ℕ) (arg : List Byte) :
    parseWait (BitVec.ofNat 32 (value 10 ds)) arg =
      if ∀ c ∈ arg, isDecimal c = true then
        some (BitVec.ofNat 32 (value 10 (ds ++ arg.map decimal))) else none := by
  induction arg generalizing ds with
  | nil => simp [parseWait]
  | cons c arg ih =>
    rw [parseWait]
    by_cases hc : isDecimal c = true
    · have hd : c.setWidth 32 = BitVec.ofNat 32 (decimal c) + 48 := by
        have hr := isDecimal_iff.mp hc
        have hz : (48 : BitVec 32).toNat = 48 := rfl
        apply eq_of_toNat_eq
        rw [toNat_setWidth,toNat_add,toNat_ofNat,hz,decimal]
        omega
      have hs : BitVec.ofNat 32 (value 10 ds) * 10 + c.setWidth 32 - 48 =
          BitVec.ofNat 32 (value 10 (ds ++ [decimal c])) := by
        rw [hd,← BitVec.add_assoc,BitVec.add_sub_cancel,value_snoc,ofNat_add,ofNat_mul]
        rfl
      rw [if_pos hc,hs,ih]
      simp [hc]
    · simp [hc]

lemma delay_enough {n : ℕ} :
    (n * 1000000 : ℕ) ≤ (BitVec.ofNat 32 n * 1000 * 1000).toInt ↔ n * 1000000 < 2 ^ 31 := by
  have hd : BitVec.ofNat 32 n * 1000 * 1000 = BitVec.ofNat 32 (n * 1000000) := by
    rw [BitVec.mul_assoc,ofNat_mul]
    rfl
  rw [hd]
  constructor
  · intro h
    have hlt := toInt_lt (x := BitVec.ofNat 32 (n * 1000000))
    omega
  · intro h
    rw [toInt_eq_toNat_of_lt,toNat_ofNat,Nat.mod_eq_of_lt (by omega)]
    rw [toNat_ofNat,Nat.mod_eq_of_lt (by omega)]
    omega

lemma wait_decimal {arg : List Byte} (ha : 0 ∉ arg) (h : ∀ c ∈ arg, isDecimal c = true) :
    wait line (second [arg]) = .next {echoed := [line]}
      (BitVec.ofNat 32 (value 10 (arg.map decimal)) * 1000 * 1000) := by
  have hp : parseWait 0 arg = _ := parseWait_decimal [] arg
  rw [second,wait,cstring_chars ha,hp,if_pos h]
  rfl

lemma builtin_log (more : Bool) (netdev : NetDevCtrl D) (arg : Option CString) :
    ∀ act ∈ [wait line arg,waitUntilLinkup netdev line arg],
      (act.logged more).echoed = [line] ∧ (act.logged more).executed = [] := by
  have hw : ∃ messages t, wait line arg = .next {echoed := [line], messages := messages} t := by
    cases arg with
    | none => exact ⟨_,_,rfl⟩
    | some arg =>
      rw [wait]
      cases parseWait 0 arg.chars <;> exact ⟨_,_,rfl⟩
  have hl : ∃ messages, waitUntilLinkup netdev line arg =
        .resume {echoed := [line], messages := messages} ∨
      ∃ dev, waitUntilLinkup netdev line arg = .poll dev {echoed := [line]} := by
    cases arg with
    | none => exact ⟨_,.inl rfl⟩
    | some name =>
      rw [waitUntilLinkup]
      cases netdev.getDeviceInfo name with
      | none => exact ⟨_,.inl rfl⟩
      | some dev => exact ⟨[],.inr ⟨dev,rfl⟩⟩
  obtain ⟨_,_,hw⟩ := hw
  obtain ⟨_,hl | ⟨_,hl⟩⟩ := hl <;> rw [hw,hl] <;> cases more <;>
    simp [Action.logged,Log.merge,again]

lemma action_log {ec : ExecContainer} (netdev : NetDevCtrl D) (more : Bool)
    (hto : line ≠ [] → tokens line ≠ [])
    (ha : Argv ec 0 ((tokens line).take kArgumentMax)) {log : Log}
    (hl : log = (action netdev line ec (tokens line)).logged more) :
    (log.echoed = if line = [] then [] else [line]) ∧ if isCommand line then
      ∃ ec, log.executed = [ec] ∧ Argv ec 0 ((tokens line).take kArgumentMax)
    else log.executed = [] := by
  subst hl
  rw [isCommand]
  cases ht : tokens line with
  | nil =>
    obtain rfl : line = [] := by
      by_contra hne
      exact hto hne ht
    cases more <;> exact ⟨rfl,rfl⟩
  | cons w ws =>
    have hne : line ≠ [] := by
      rintro rfl
      cases ht
    rw [ht] at ha
    rw [action,if_neg hne]
    split
    · next hw =>
      rw [if_neg (by simp [hw])]
      exact builtin_log more netdev (second ws) _ (by simp)
    split
    · next hw =>
      rw [if_neg (by simp [hw])]
      exact builtin_log more netdev (second ws) _ (by simp)
    · next hwait hlinkup =>
      rw [if_pos (by simp [hwait,hlinkup])]
      cases more <;> exact ⟨rfl,ec,rfl,ha⟩

lemma action_ends {ec : ExecContainer} (env : Env D) (i : ℕ) (hz : 0 ∉ line) :
    (action env.netdev line ec (tokens line)).Ends env i ↔
      ∀ (name : CString) dev, tokens line = [linkupName,name.chars] →
        env.netdev.getDeviceInfo name = some dev → ∃ polls, env.linkUp i dev polls = true := by
  constructor
  · intro h name dev ht hd
    have hn : cstring name.chars = name := cstring_ext (text_eq_self name.nonzero)
    rw [ht,action,if_neg (by decide),if_pos rfl,second,waitUntilLinkup,hn,hd] at h
    exact h
  · intro hup
    cases ht : tokens line with
    | nil => trivial
    | cons w ws =>
      rw [action]
      split
      · cases second ws with
        | none => trivial
        | some arg =>
          rw [wait]
          cases parseWait 0 arg.chars <;> trivial
      split
      · next hw =>
        match ws with
        | [name] =>
          rw [second,waitUntilLinkup]
          cases hd : env.netdev.getDeviceInfo _ with
          | none => trivial
          | some dev =>
            have hn : 0 ∉ name := token_nonzero hz (by rw [ht]; simp)
            exact hup _ dev (by rw [ht,hw,cstring_chars hn]) hd
        | [] => trivial
        | _ :: _ :: _ => trivial
      · trivial

lemma line_handled_iff (env : Env D) (i : ℕ) (more : Bool) (hz : 0 ∉ line) (heap : ℕ → Byte) :
    (∃ act, process heap env.netdev (cstring line) = .ok act ∧ act.Ends env i ∧
      Handled line (act.logged more)) ↔ Proper env i line ∧ (more = true → Brief line) := by
  have hw : ∀ {ec arg}, tokens line = [waitName,arg] → (∀ c ∈ arg, isDecimal c = true) →
      ((action env.netdev line ec (tokens line)).logged more).delays = if more then
        [BitVec.ofNat 32 (value 10 (arg.map decimal)) * 1000 * 1000] else [] := by
    intro ec arg ht hd
    have har : 0 ∉ arg := token_nonzero hz (by rw [ht]; simp)
    rw [ht,action,if_pos rfl,wait_decimal har hd]
    cases more <;> rfl
  constructor
  · rintro ⟨act,hac,hen,hh⟩
    obtain ⟨hs,hto⟩ := process_fault hz hac
    obtain ⟨ec,-,hpr⟩ := process_ok heap env.netdev hz hs hto
    obtain rfl : act = action env.netdev line ec (tokens line) := by
      simpa using hac.symm.trans hpr
    refine ⟨⟨hs,hto,(action_ends env i hz).mp hen⟩,?_⟩
    intro hm arg ht hd
    refine delay_enough.mp (hh.waits arg ht hd _ ?_)
    rw [hw ht hd,if_pos hm]
    exact List.mem_singleton_self _
  · rintro ⟨hp,hb⟩
    obtain ⟨ec,ha,hpr⟩ := process_ok heap env.netdev hz hp.short hp.token
    obtain ⟨ho,he⟩ := action_log env.netdev more hp.token ha rfl
    refine ⟨_,hpr,(action_ends env i hz).mpr hp.up,ho,he,?_⟩
    intro arg ht hd us hus
    rw [hw ht hd] at hus
    split at hus
    · next hm =>
      rw [List.mem_singleton.mp hus]
      exact delay_enough.mpr (hb hm arg ht hd)
    · cases hus

lemma plays_from {ls : List (List Byte)} (hi : i ≤ env.data.length)
    (hls : lines (env.data.drop i) = ls) (finished : List Log) :
    (∃ logs, Returns (body env) ⟨i,.script,finished,{}⟩ (.ok (finished ++ logs)) ∧
      List.Forall₂ Handled ls logs) ↔ Sound env i ls := by
  induction ls generalizing i finished with
  | nil => exact absurd hls (List.splitOnP_ne_nil _ _)
  | cons line rest ih =>
    obtain ⟨hli,hen,hr⟩ := lines_cons hi hls
    have hz : 0 ∉ line := fun hme =>
      absurd (Tokens.mem_splitOnP (hls ▸ List.mem_cons_self) hme).2 (by decide)
    have hif := fun more => line_handled_iff env (i + line.length) more hz (env.heap i)
    rw [← hli] at hen
    simp only [returns_line hen,hli,Sound]
    obtain ⟨hs,rfl⟩ | ⟨hm,hn⟩ := hr
    · have hla := Nat.not_lt.mpr (Nat.le_of_eq hs.symm)
      simp only [Continues,if_neg hla,decide_eq_false hla,List.append_cancel_left_eq]
      constructor
      · rintro ⟨_,⟨act,ha,he,rfl⟩,hh⟩
        obtain ⟨hp,-⟩ := (hif false).mp ⟨act,ha,he,(List.forall₂_cons.mp hh).1⟩
        exact ⟨hp,absurd rfl,trivial⟩
      · rintro ⟨hp,-⟩
        obtain ⟨act,ha,he,hh⟩ := (hif false).mpr ⟨hp,nofun⟩
        exact ⟨_,⟨act,ha,he,rfl⟩,.cons hh .nil⟩
    · have hne : rest ≠ [] := hn ▸ List.splitOnP_ne_nil _ _
      have hr := fun log => ih hm hn (finished ++ [log])
      simp only [List.append_assoc,List.singleton_append] at hr
      simp only [Continues,if_pos hm,decide_eq_true hm]
      constructor
      · rintro ⟨_ | ⟨log,logs⟩,⟨act,ha,he,hre⟩,hh⟩
        · cases hh
        · obtain ⟨hf,hl⟩ := List.forall₂_cons.mp hh
          obtain ⟨later,hlo⟩ := returns_keeps hre
          obtain ⟨rfl,rfl⟩ : act.logged true = log ∧ later = logs := by simpa using hlo
          obtain ⟨hp,hb⟩ := (hif true).mp ⟨act,ha,he,hf⟩
          exact ⟨hp,fun _ => hb rfl,(hr _).mp ⟨_,hre,hl⟩⟩
      · rintro ⟨hp,hb,hso⟩
        obtain ⟨act,ha,he,hf⟩ := (hif true).mpr ⟨hp,fun _ => hb hne⟩
        obtain ⟨logs,hre,hl⟩ := (hr _).mpr hso
        exact ⟨_ :: logs,⟨act,ha,he,hre⟩,.cons hf hl⟩

theorem script_plays_iff (env : Env D) : Plays env ↔ Sound env 0 (lines env.data) :=
  plays_from (Nat.zero_le _) rfl []

def offline (data : List Byte) : Env Unit where
  data := data
  heap := fun _ _ => 0
  netdev := {devTable := [], name := fun _ => []}
  linkUp := fun _ _ _ => false

theorem script_misplayed : ¬ Plays (offline [32]) ∧ ¬ Plays (offline (List.replicate 100 97)) ∧
      ¬ Plays (offline (waitName ++ [32,50,49,52,56,10] ++ [104,97,108,116])) := by
  refine ⟨?_,?_,?_⟩
  · rintro ⟨logs,hr,-⟩
    have hbl : loadScript (offline [32]) (.error .unset) := returns_of_exit rfl
    cases returns_unique hr hbl
  · rintro ⟨logs,hr,-⟩
    have hl : lineAt (offline (List.replicate 100 97)) 0 = List.replicate 100 97 := by decide
    have hb : body (offline (List.replicate 100 97)) ⟨0,.script,[],{}⟩ = _ := body_script rfl
    rw [hl,process,tokenize,if_neg (by decide)] at hb
    cases (returns_exit_iff hb).mp hr
  · rintro ⟨logs,hr,ha⟩
    have hs : body (offline (waitName ++ [32,50,49,52,56,10] ++ [104,97,108,116]))
        ⟨0,.script,[],{}⟩ = .inl ⟨10,.script,
          [⟨[waitName ++ [32,50,49,52,56]],[],[],[2148 * 1000 * 1000]⟩],{}⟩ := rfl
    obtain ⟨later,rfl⟩ := returns_keeps ((returns_step_iff hs).mp hr)
    obtain ⟨hf,-⟩ := List.forall₂_cons.mp ha
    have hw := hf.waits [50,49,52,56] (by decide) (by decide) (2148 * 1000 * 1000) (by simp)
    exact absurd hw (by decide)

end

end LoadScript
