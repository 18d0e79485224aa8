import RaphKernel.Libc
import RaphKernel.Library.Numerals

namespace Net
open Bytes Numerals Libc Function List Nat

def parseLoop : List Byte → ℕ → (ℕ → Byte) → Bool × (ℕ → Byte)
  | [], i, addr => (decide (i = 3),addr)
  | c :: cs, i, addr =>
    if i ≠ 3 ∧ c = 46 then parseLoop cs (i + 1) addr
    else if isDecimal c then parseLoop cs i (update addr i (addr i * 10 + (c - 48)))
    else (false,addr)

def parseIpaddr (c : CString) (addr : ℕ → Byte) : Bool × (ℕ → Byte) := parseLoop c.chars 0 addr

def fields (cs : List Byte) : List (List Byte) := cs.splitOn 46

def number (field : List Byte) : ℕ := value 10 (field.map decimal)

structure DottedDigits (cs : List Byte) : Prop where
  four : (fields cs).length = 4
  digits : ∀ field ∈ fields cs, ∀ c ∈ field, isDecimal c = true

structure DottedQuad (cs : List Byte) : Prop extends DottedDigits cs where
  present : ∀ field ∈ fields cs, field ≠ []
  byte : ∀ field ∈ fields cs, number field ≤ 255

section
variable {c : Byte} {cs field : List Byte} {rest : List (List Byte)} {i j k : ℕ} {addr : ℕ → Byte}

lemma fields_nil : fields [] = [[]] := splitOn_nil _

lemma fields_dot (cs : List Byte) : fields (46 :: cs) = [] :: fields cs := by
  rw [fields,splitOn_cons_eq_if_modifyHead]
  rfl

lemma fields_char (hc : c ≠ 46) (h : fields cs = field :: rest) :
    fields (c :: cs) = (c :: field) :: rest := by
  rw [fields] at h
  rw [fields,splitOn_cons_eq_if_modifyHead,if_neg (by simpa using hc),h]
  rfl

lemma exists_fields (cs : List Byte) : ∃ field rest, fields cs = field :: rest :=
  exists_cons_of_ne_nil (splitOn_ne_nil _ cs)

lemma decimal_ne_dot (hc : isDecimal c = true) : c ≠ 46 := by
  rintro rfl
  exact absurd hc (by decide)

lemma parseLoop_dot (hi : i ≠ 3) : parseLoop (46 :: cs) i addr = parseLoop cs (i + 1) addr :=
  if_pos ⟨hi,rfl⟩

lemma parseLoop_digit (hc : isDecimal c = true) : parseLoop (c :: cs) i addr =
    parseLoop cs i (update addr i (addr i * 10 + (c - 48))) := by
  rw [parseLoop,if_neg fun h => decimal_ne_dot hc h.2,if_pos hc]

lemma parseLoop_stop (hc : ¬ (i ≠ 3 ∧ c = 46)) (hd : isDecimal c = false) :
    parseLoop (c :: cs) i addr = (false,addr) := by
  rw [parseLoop,if_neg hc,if_neg (Bool.eq_false_iff.mp hd)]

lemma parseLoop_true_iff (hi : i ≤ 3) : (parseLoop cs i addr).1 = true ↔
    (fields cs).length + i = 4 ∧ ∀ field ∈ fields cs, ∀ c ∈ field, isDecimal c = true := by
  induction cs generalizing i addr with
  | nil =>
    rw [fields_nil,parseLoop,decide_eq_true_iff]
    simp only [length_singleton,forall_mem_singleton,not_mem_nil,false_implies,
      implies_true,and_true]
    omega
  | cons c cs ih =>
    obtain ⟨field,rest,hf⟩ := exists_fields cs
    have hs : 0 < (fields cs).length := by
      rw [hf]
      exact succ_pos _
    cases hd : isDecimal c with
    | true =>
      rw [parseLoop_digit hd,ih hi,fields_char (decimal_ne_dot hd) hf,hf]
      simp [hd]
    | false =>
      by_cases hdo : c = 46
      · subst hdo
        by_cases h3 : i = 3
        · rw [parseLoop_stop (fun h => h.1 h3) hd,fields_dot]
          refine iff_of_false Bool.false_ne_true fun h => ?_
          have hl := h.1
          rw [length_cons] at hl
          omega
        · rw [parseLoop_dot h3,ih (by omega),fields_dot,length_cons,forall_mem_cons]
          refine and_congr (by omega) (iff_and_self.mpr fun _ c hc => ?_)
          exact absurd hc not_mem_nil
      · rw [parseLoop_stop (fun h => hdo h.2) hd,fields_char hdo hf]
        refine iff_of_false Bool.false_ne_true fun h => ?_
        have hc := h.2 _ mem_cons_self c mem_cons_self
        rw [hd] at hc
        cases hc

lemma parseLoop_below (hj : j < i) : (parseLoop cs i addr).2 j = addr j := by
  induction cs generalizing i addr with
  | nil => rfl
  | cons c cs ih =>
    rw [parseLoop]
    split_ifs
    · exact ih (by omega)
    · rw [ih hj,update_of_ne hj.ne]
    · rfl

-- each digit of the field that is being read is in the byte already, the later fields are untouched
lemma parseLoop_addr (hi : i ≤ 3) (h : (parseLoop cs i addr).1 = true)
    (hk : (fields cs)[k]? = some field) :
    (parseLoop cs i addr).2 (i + k) = accumulate 10 (addr (i + k)) (field.map decimal) := by
  induction cs generalizing i k addr field with
  | nil =>
    rw [fields_nil] at hk
    cases k with
    | zero =>
      cases hk
      rfl
    | succ k => cases hk
  | cons c cs ih =>
    obtain ⟨first,rest,hf⟩ := exists_fields cs
    cases hd : isDecimal c with
    | true =>
      rw [parseLoop_digit hd] at h ⊢
      rw [fields_char (decimal_ne_dot hd) hf] at hk
      rw [hf] at ih
      cases k with
      | zero =>
        cases hk
        rw [ih hi h rfl,add_zero,update_self,sub_zero_char hd]
        rfl
      | succ k =>
        rw [ih hi h hk,update_of_ne (by omega)]
    | false =>
      by_cases hdo : i ≠ 3 ∧ c = 46
      · obtain ⟨h3,rfl⟩ := hdo
        rw [parseLoop_dot h3] at h ⊢
        rw [fields_dot] at hk
        cases k with
        | zero =>
          cases hk
          exact parseLoop_below (lt_succ_self i)
        | succ k =>
          have hr := ih (by omega) h hk
          rw [add_assoc,add_comm 1 k] at hr
          exact hr
      · rw [parseLoop_stop hdo hd] at h
        cases h

end

def zeroed : ℕ → Byte := fun _ => 0

lemma parseIpaddr_true_iff (c : CString) :
    (parseIpaddr c zeroed).1 = true ↔ DottedDigits c.chars := by
  rw [parseIpaddr,parseLoop_true_iff (zero_le 3)]
  exact ⟨fun h => ⟨h.1,h.2⟩,fun h => ⟨h.four,h.digits⟩⟩

lemma parseIpaddr_byte {c : CString} (h : DottedDigits c.chars) {i : ℕ} {field : List Byte}
    (hi : (fields c.chars)[i]? = some field) :
    (parseIpaddr c zeroed).2 i = BitVec.ofNat 8 (number field) := by
  have ha := parseLoop_addr (zero_le 3) ((parseIpaddr_true_iff c).mpr h) hi
  rw [zero_add] at ha
  exact ha.trans (accumulate_value 10 [] (field.map decimal))

structure Parsed (c : CString) : Prop where
  accepts : (parseIpaddr c zeroed).1 = true ↔ DottedQuad c.chars
  bytes : DottedQuad c.chars → ∀ i field, (fields c.chars)[i]? = some field →
    ((parseIpaddr c zeroed).2 i).toNat = number field

theorem parseIpaddr_iff (c : CString) : Parsed c ↔
    (DottedDigits c.chars → ∀ field ∈ fields c.chars, field ≠ [] ∧ number field ≤ 255) := by
  constructor
  · intro h hd field hfi
    have hq := h.accepts.mp ((parseIpaddr_true_iff c).mpr hd)
    exact ⟨hq.present field hfi,hq.byte field hfi⟩
  · intro h
    refine ⟨?_,fun hq i field hi => ?_⟩
    · rw [parseIpaddr_true_iff]
      exact ⟨fun hd => ⟨hd,fun f hf => (h hd f hf).1,fun f hf => (h hd f hf).2⟩,
        fun hq => hq.toDottedDigits⟩
    · have hle := hq.byte field (mem_of_getElem? hi)
      rw [parseIpaddr_byte hq.toDottedDigits hi,BitVec.toNat_ofNat]
      exact mod_eq_of_lt (by omega)

def fourEmpty : CString := ⟨[46,46,46],by decide⟩

def overflowing : CString := ⟨[51,48,48,46,48,46,48,46,49],by decide⟩

theorem parseIpaddr_accepts_malformed :
    ((parseIpaddr fourEmpty zeroed).1 = true ∧ ¬ DottedQuad fourEmpty.chars) ∧
    (parseIpaddr overflowing zeroed).1 = true ∧ ¬ DottedQuad overflowing.chars ∧
      (parseIpaddr overflowing zeroed).2 0 = 44 := by
  refine ⟨⟨by decide,fun h => ?_⟩,by decide,fun h => ?_,by decide⟩
  · exact h.present [] (by decide) rfl
  · exact absurd (h.byte [51,48,48] (by decide)) (by decide)

end Net
