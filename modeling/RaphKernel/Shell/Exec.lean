import RaphKernel.Raph
import RaphKernel.Shell.Tokenize

namespace Shell
open Bytes Libc Raph List Nat

def kBufSize : ℕ := 20

def kNameSize : ℕ := 10

structure NameFuncMapping (F : Type) where
  name : List Byte
  func : F

inductive Outcome (F : Type)
  | ran (func : F) (argc : ℕ) (argv : ℕ → Arg)
  | unknown (name : List Byte)

section
variable {F : Type}

-- the mapping is static storage, so what strncpy leaves of the field is zero
def entry (name : CString) (func : F) : NameFuncMapping F where
  name := strncpy name.mem name.strlen ++ List.replicate (kNameSize - name.strlen) 0
  func := func

def register (mapping : List (NameFuncMapping F)) (name : CString) (func : F) :
    Except Panic (List (NameFuncMapping F)) :=
  if mapping.length = kBufSize then kernelPanic "Shell" "command buffer is full"
  else if name.strlen < kNameSize then .ok (mapping ++ [entry name func])
  else kernelPanic "Shell" "command name is too long"

def registerAll (mapping : List (NameFuncMapping F)) :
    List (CString × F) → Except Panic (List (NameFuncMapping F))
  | [] => .ok mapping
  | r :: rs => do
    let mapping ← register mapping r.1 r.2
    registerAll mapping rs

def exec (name : ℕ → Byte) (argc : ℕ) (argv : ℕ → Arg) : List (NameFuncMapping F) → Outcome F
  | [] => .unknown (CString.read name 0 kCommandSize).chars
  | m :: mapping =>
    if strncmp name (fun j => (m.name[j]?).getD 0) (text m.name).length = 0 then
      .ran m.func argc argv
    else exec name argc argv mapping

def execute (mapping : List (NameFuncMapping F)) (ec : ExecContainer) : Option (Outcome F) :=
  if 0 < ec.argc then some (exec ec.name ec.argc ec.argv mapping) else none

def registered (names : List CString) (func : ℕ → F) : List (CString × F) :=
  names.mapIdx fun i name => (name,func i)

def Right (names : List CString) (func : ℕ → F) (token : List Byte) (ec : ExecContainer)
    (o : Outcome F) : Prop :=
  match names.findIdx? (·.chars = token) with
  | some i => o = .ran (func i) ec.argc ec.argv
  | none => ∃ name, o = .unknown name

end

def Dispatches (names : List CString) (line token : List Byte) : Prop :=
  ∀ (F : Type) (func : ℕ → F) (heap : ℕ → Byte) (l : Liner), l.Holds line →
    ∃ mapping ec o, registerAll [] (registered names func) = .ok mapping ∧
      l.readCh heap 10 = .ok (l.reset,some ec) ∧ execute mapping ec = some o ∧
      Right names func token ec o

def Unshadowed (names : List CString) (line token : List Byte) : Prop :=
  if line.head? = some 32 then ∀ name : CString, name ∈ names → name.chars ≠ token ∧ name.chars ≠ []
  else ∀ (i : ℕ) (name : CString), names[i]? = some name → name.chars <+: token →
    name.chars ≠ token → ∃ j < i, ∃ earlier : CString, names[j]? = some earlier ∧ earlier.chars = token

def leading (line : List Byte) : List Byte := (uncommented line).takeWhile (!blank ·)

section
variable {A : Type} {p q : A → Bool} {l : List A}

lemma findIdx_eq_iff : l.findIdx? p = l.findIdx? q ↔
    ∀ (i : ℕ) (x : A), l[i]? = some x → p x ≠ q x →
      ∃ j < i, ∃ y, l[j]? = some y ∧ p y = true ∧ q y = true := by
  induction l with
  | nil => simp
  | cons x l ih =>
    rw [findIdx?_cons,findIdx?_cons]
    by_cases hs : p x = q x
    · cases hp : p x with
      | true =>
        have hq := hs.symm.trans hp
        rw [hq,if_pos rfl]
        refine iff_of_true rfl fun i y hy hne => ?_
        cases i with
        | zero =>
          obtain rfl : x = y := by simpa using hy
          exact absurd hs hne
        | succ i => exact ⟨0,zero_lt_succ i,x,rfl,hp,hq⟩
      | false =>
        have hq := hs.symm.trans hp
        rw [hq,if_neg Bool.false_ne_true,if_neg Bool.false_ne_true,
          (Option.map_injective (add_left_injective 1)).eq_iff,ih]
        constructor
        · intro h i y hy hne
          cases i with
          | zero =>
            obtain rfl : x = y := by simpa using hy
            exact absurd hs hne
          | succ i =>
            obtain ⟨j,hj,z,hz,hb⟩ := h i y (by simpa using hy) hne
            exact ⟨j + 1,succ_lt_succ hj,z,by simpa using hz,hb⟩
        · intro h i y hy hne
          obtain ⟨j,hj,z,hz,hpz,hqz⟩ := h (i + 1) y (by simpa using hy) hne
          cases j with
          | zero =>
            obtain rfl : x = z := by simpa using hz
            exact absurd (hp.symm.trans hpz) Bool.false_ne_true
          | succ j => exact ⟨j,lt_of_succ_lt_succ hj,z,by simpa using hz,hpz,hqz⟩
    · refine iff_of_false (fun heq => hs ?_) fun h => ?_
      · cases hp : p x <;> cases hq : q x <;> simp [hp,hq] at heq ⊢
      · obtain ⟨j,hj,-⟩ := h 0 x rfl hs
        exact absurd hj (not_lt_zero j)

end

section
variable {F : Type} {names : List CString} {func : ℕ → F} {name : CString} {m : ℕ → Byte}
  {w line token : List Byte} {mapping : List (NameFuncMapping F)} {l : Liner}

lemma entry_name (name : CString) (func : F) :
    (entry name func).name = name.chars ++ List.replicate (kNameSize - name.strlen) 0 := by
  rw [entry,CString.strlen,strncpy_length name.nonzero fun i hi => name.mem_lt hi]

lemma text_entry (name : CString) (func : F) : text (entry name func).name = name.chars := by
  have hch : ∀ c ∈ name.chars, decide (c ≠ 0) = true :=
    fun c hc => decide_eq_true fun hz => name.nonzero (hz ▸ hc)
  rw [entry_name,text,takeWhile_append_of_pos hch]
  cases kNameSize - name.strlen <;> simp [List.replicate_succ]

lemma spells_initial {v : List Byte} {start : ℕ} (h : Spells m start w) (hv : 0 ∉ v)
    (z : List Byte) :
    (∀ i < v.length, m (start + i) = ((v ++ z)[i]?).getD 0) ↔ v <+: w := by
  induction v generalizing start w with
  | nil => simp
  | cons c v ih =>
    have hc : c ≠ 0 := fun hz => hv (hz ▸ mem_cons_self)
    cases w with
    | nil =>
      have hz : m start = 0 := h
      refine iff_of_false (fun ha => hc ?_) (by simp)
      exact (ha 0 (zero_lt_succ _)).symm.trans hz
    | cons a w =>
      rw [cons_prefix_cons,← ih h.2 fun hm => hv (mem_cons_of_mem c hm)]
      constructor
      · intro ha
        refine ⟨(ha 0 (zero_lt_succ _)).symm.trans h.1,fun i hi => ?_⟩
        rw [add_right_comm]
        exact ha _ (succ_lt_succ hi)
      · rintro ⟨rfl,ha⟩ i hi
        cases i with
        | zero => exact h.1
        | succ i =>
          have hat := ha i (lt_of_succ_lt_succ hi)
          rw [add_right_comm] at hat
          exact hat

lemma registered_cons (name : CString) (names : List CString) (func : ℕ → F) :
    registered (name :: names) func = (name,func 0) :: registered names fun i => func (i + 1) :=
  mapIdx_cons

lemma registerAll_ok (hna : mapping.length + names.length ≤ kBufSize)
    (hs : ∀ name, name ∈ names → name.strlen < kNameSize) (func : ℕ → F) :
    registerAll mapping (registered names func) =
      .ok (mapping ++ (registered names func).map fun r => entry r.1 r.2) := by
  induction names generalizing mapping func with
  | nil => simp [registered,registerAll]
  | cons name names ih =>
    have hr : mapping.length ≠ kBufSize := by rw [length_cons] at hna; omega
    have hf : register mapping name (func 0) = .ok (mapping ++ [entry name (func 0)]) := by
      rw [register,if_neg hr,if_pos (hs name mem_cons_self)]
    have hsp : (mapping ++ [entry name (func 0)]).length + names.length ≤ kBufSize := by
      rw [length_append,length_singleton]
      rw [length_cons] at hna
      omega
    have hre := ih hsp (fun n hn => hs n (mem_cons_of_mem name hn)) fun i => func (i + 1)
    rw [registered_cons,registerAll,hf]
    refine Eq.trans hre ?_
    rw [List.append_assoc]
    rfl

lemma exec_registered (h : Spells m 0 w) (argc : ℕ) (argv : ℕ → Arg)
    (names : List CString) (func : ℕ → F) :
    exec m argc argv ((registered names func).map fun r => entry r.1 r.2) =
      match names.findIdx? (·.chars <+: w) with
      | some i => .ran (func i) argc argv
      | none => .unknown (CString.read m 0 kCommandSize).chars := by
  induction names generalizing func with
  | nil => rfl
  | cons name names ih =>
    have hm : strncmp m (fun j => ((entry name (func 0)).name[j]?).getD 0) name.chars.length = 0 ↔
        name.chars <+: w := by
      rw [strncmp_eq_zero,entry_name,← spells_initial h name.nonzero (List.replicate (kNameSize - name.strlen) 0)]
      simp only [zero_add]
    rw [registered_cons,map_cons,exec,text_entry,findIdx?_cons]
    by_cases hin : name.chars <+: w
    · rw [if_pos (hm.mpr hin),if_pos (decide_eq_true hin)]
      rfl
    · rw [if_neg (mt hm.mp hin),if_neg (by simpa using hin),ih]
      cases names.findIdx? (·.chars <+: w) <;> rfl

lemma submitted (h : l.Holds line) (hl : 0 ∉ line) (hto : (tokens line).head? = some token)
    (hna : names.length ≤ kBufSize)
    (hs : ∀ name, name ∈ names → name.strlen < kNameSize) (func : ℕ → F)
    (heap : ℕ → Byte) :
    ∃ mapping ec o, registerAll [] (registered names func) = .ok mapping ∧
      l.readCh heap 10 = .ok (l.reset,some ec) ∧ execute mapping ec = some o ∧
      o = match names.findIdx? (·.chars <+: leading line) with
        | some i => .ran (func i) ec.argc ec.argv
        | none => .unknown (CString.read ec.name 0 kCommandSize).chars := by
  obtain ⟨ec,hr,ha,hn⟩ := h.readCh_newline heap
  rw [text_eq_self hl] at ha hn
  have har : 0 < ec.argc := by
    rw [ha.argc]
    cases ht : tokens line with
    | nil => simp [ht] at hto
    | cons w ws => simp [kArgumentMax]
  refine ⟨_,ec,_,registerAll_ok (by rwa [length_nil,zero_add]) hs func,hr,
    by rw [execute,if_pos har],?_⟩
  exact exec_registered hn ec.argc ec.argv names func

lemma dispatches_iff_findIdx (hli : 0 ∉ line) (hle : line.length ≤ kCommandSize - 1)
    (ht : (tokens line).head? = some token) (hn : names.length ≤ kBufSize)
    (hs : ∀ name, name ∈ names → name.strlen < kNameSize) :
    Dispatches names line token ↔
      names.findIdx? (·.chars <+: leading line) = names.findIdx? (·.chars = token) := by
  constructor
  · intro h
    -- telling the functions apart by their index shows which registration was run
    let l : Liner := {command := strcpy (fun _ => 0) 0 line, nextCommand := line.length}
    have hl : l.Holds line := ⟨rfl,hle,spells_strcpy _ 0 line⟩
    obtain ⟨mapping,ec,o,hm,hr,ho,hri⟩ := h ℕ id (fun _ => 0) l hl
    obtain ⟨mapping',ec',o',hm',hr',ho',hru⟩ := submitted hl hli ht hn hs id (fun _ => 0)
    obtain rfl : mapping = mapping' := by simpa [hm] using hm'
    obtain rfl : ec = ec' := by simpa using hr.symm.trans hr'
    obtain rfl : o = o' := by simpa [ho] using ho'
    rw [Right,hru] at hri
    cases hf : names.findIdx? (·.chars <+: leading line) <;>
      cases he : names.findIdx? (·.chars = token) <;> simp_all
  · intro h F func heap l hl
    obtain ⟨mapping,ec,o,hm,hr,ho,hru⟩ := submitted hl hli ht hn hs func heap
    refine ⟨mapping,ec,o,hm,hr,ho,?_⟩
    rw [Right,hru,h]
    cases names.findIdx? (·.chars = token) with
    | none => exact ⟨_,rfl⟩
    | some i => rfl

lemma leading_blank (h : line.head? = some 32) : leading line = [] := by
  cases line with
  | nil => rfl
  | cons c cs =>
    obtain rfl : c = 32 := by simpa using h
    rw [leading,uncommented_cons (by decide),takeWhile_cons_of_neg (by decide)]

lemma leading_token (h : line.head? ≠ some 32) (ht : (tokens line).head? = some token) :
    leading line = token := by
  cases line with
  | nil => simp [tokens,uncommented,Tokens.words_nil] at ht
  | cons c cs =>
    have hb : blank c = false := by simpa [blank] using h
    by_cases hc : c = 35
    · simp [tokens,uncommented_comment hc,Tokens.words_nil] at ht
    · rw [tokens,uncommented_cons hc,Tokens.words_cons hb,head?_cons] at ht
      rw [leading,uncommented_cons hc]
      exact Option.some.inj ht

lemma token_ne_nil (ht : (tokens line).head? = some token) : token ≠ [] := by
  rintro rfl
  have hm := mem_of_head? ht
  simp [tokens,Tokens.words] at hm

theorem line_runs_registered_iff (names : List CString) (line token : List Byte) (hline : 0 ∉ line)
    (hlength : line.length ≤ 99) (htoken : (tokens line).head? = some token)
    (hnames : names.length ≤ 20) (hshort : ∀ name : CString, name ∈ names → name.strlen < 10) :
    Dispatches names line token ↔ Unshadowed names line token := by
  rw [dispatches_iff_findIdx hline hlength htoken hnames hshort,findIdx_eq_iff,Unshadowed]
  have hne := token_ne_nil htoken
  by_cases hh : line.head? = some 32
  · rw [if_pos hh,leading_blank hh]
    constructor
    · intro h name hn
      obtain ⟨i,hi⟩ := mem_iff_getElem?.mp hn
      by_contra hbad
      have hd : decide (name.chars <+: []) ≠ decide (name.chars = token) := by
        intro heq
        have hif : name.chars = [] ↔ name.chars = token := by simpa using heq
        exact hbad ⟨fun he => hne (he.symm.trans (hif.mpr he)),
          fun hem => hne ((hif.mp hem).symm.trans hem)⟩
      obtain ⟨j,-,y,-,hem,he⟩ := h i name hi hd
      exact hne ((of_decide_eq_true he).symm.trans (prefix_nil.mp (of_decide_eq_true hem)))
    · intro h i name hi hd
      obtain ⟨he,hem⟩ := h name (mem_of_getElem? hi)
      exact absurd (by simp [he,hem]) hd
  · rw [if_neg hh,leading_token hh htoken]
    constructor
    · intro h i name hi hin ho
      obtain ⟨j,hj,y,hy,-,he⟩ := h i name hi (by simp [hin,ho])
      exact ⟨j,hj,y,hy,of_decide_eq_true he⟩
    · intro h i name hi hd
      have ho : name.chars ≠ token := by
        rintro rfl
        exact hd (by simp)
      have hin : name.chars <+: token := by
        by_contra hnot
        exact hd (by simp [hnot,ho])
      obtain ⟨j,hj,y,hy,he⟩ := h i name hi hin ho
      exact ⟨j,hj,y,hy,by simp [he],decide_eq_true he⟩

theorem line_runs_registered_iff_halt :
    Dispatches [⟨[104,97,108,116],by decide⟩] [104,97,108,116,32,49] [104,97,108,116] := by
  refine (line_runs_registered_iff _ _ _ (by decide) (by decide) (by decide) (by decide)
    (by simp [CString.strlen])).mpr ?_
  rw [Unshadowed,if_neg (by decide)]
  intro i name hi _ ho
  have hn := mem_of_getElem? hi
  rw [mem_singleton] at hn
  exact absurd (congrArg CString.chars hn) ho

theorem line_misdispatched :
    ¬ Dispatches [⟨[104,97,108,116],by decide⟩] [104,97,108,116,115] [104,97,108,116,115] ∧
    ¬ Dispatches [⟨[104,97,108,116],by decide⟩] [32,104,97,108,116] [104,97,108,116] := by
  constructor
  · rw [dispatches_iff_findIdx (by decide) (by decide) (by decide) (by decide)
      (by simp [CString.strlen,kNameSize])]
    decide
  · rw [dispatches_iff_findIdx (by decide) (by decide) (by decide) (by decide)
      (by simp [CString.strlen,kNameSize])]
    decide

end

end Shell
