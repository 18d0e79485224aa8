import RaphKernel.Library.Bytes

namespace DevUsbKeyboard
open Bytes List

abbrev Report := Fin 8 → Byte

def kScanCode (c : Byte) : Char :=
  if c.toNat < 128 then
    ("!!!!abcdefghijklmnopqrstuvwxyz1234567890\n!\x08\t -=[]\\!;'!,./".toList).getD c.toNat '!'
  else Char.ofNat 0

def slots : List (Fin 8) := [2,3,4,5,6,7]

-- the report's bytes are unsigned, the stored ones are plain chars
def matched (c prev : Byte) : Bool := (c.toNat : ℤ) = prev.toInt

def same (prev buf : Report) : Bool := slots.all fun i => matched (buf i) (prev i)

def exist (prev : Report) (c : Byte) : Bool := (finRange 8).any fun j => matched c (prev j)

def pushed (prev buf : Report) : List (Fin 8) :=
  slots.filter fun i => buf i ≠ 0 && (same prev buf || !exist prev (buf i))

def handle (prev buf : Report) : List Char := (pushed prev buf).map fun i => kScanCode (buf i)

abbrev Absent (prev : Report) (c : Byte) : Prop := ∀ j ∈ slots, prev j ≠ c

abbrev Unchanged (prev buf : Report) : Prop := ∀ i ∈ slots, buf i = prev i

def reported (prev buf : Report) : List (Fin 8) :=
  slots.filter fun i => buf i ≠ 0 ∧ (Unchanged prev buf ∨ Absent prev (buf i))

def Right : Report → List Report → Prop
  | _, [] => True
  | prev, buf :: bufs => pushed prev buf = reported prev buf ∧ Right buf bufs

def Plain (prev buf : Report) : Prop :=
  ∀ i ∈ slots, buf i ≠ 0 →
    if Unchanged prev buf then (buf i).toNat < 128 → ∀ j ∈ slots, (buf j).toNat < 128
    else if (buf i).toNat < 128 then Absent prev (buf i) → prev 0 ≠ buf i ∧ prev 1 ≠ buf i
    else Absent prev (buf i)

def AllPlain : Report → List Report → Prop
  | _, [] => True
  | prev, buf :: bufs => Plain prev buf ∧ AllPlain buf bufs

section
variable {prev buf : Report}

lemma matched_iff {c p : Byte} : matched c p = true ↔ c = p ∧ c.toNat < 128 := by
  rw [matched,decide_eq_true_iff,BitVec.toInt_eq_toNat_cond,← BitVec.toNat_inj]
  have hc := c.isLt
  have hp := p.isLt
  split_ifs <;> omega

lemma same_iff : same prev buf = true ↔ Unchanged prev buf ∧ ∀ i ∈ slots, (buf i).toNat < 128 := by
  simp only [same,all_eq_true,matched_iff,Unchanged]
  exact forall₂_and

lemma exist_iff {c : Byte} : exist prev c = true ↔
    c.toNat < 128 ∧ ¬ (Absent prev c ∧ prev 0 ≠ c ∧ prev 1 ≠ c) := by
  have hs : (∀ j, prev j ≠ c) ↔ Absent prev c ∧ prev 0 ≠ c ∧ prev 1 ≠ c := by
    simp only [Fin.forall_fin_succ,Absent,slots,forall_mem_cons,not_mem_nil]
    grind
  simp only [exist,any_eq_true,matched_iff,← hs]
  grind

lemma filter_eq_iff {A : Type} {p q : A → Bool} {l : List A} :
    l.filter p = l.filter q ↔ ∀ x ∈ l, p x = true ↔ q x = true := by
  constructor
  · intro h x hx
    simpa [hx] using congrArg (x ∈ ·) h
  · exact fun h => filter_congr fun x hx => Bool.eq_iff_iff.mpr (h x hx)

lemma pushed_iff : pushed prev buf = reported prev buf ↔ Plain prev buf := by
  rw [pushed,reported,filter_eq_iff,Plain]
  refine forall₂_congr fun i hi => ?_
  rw [Bool.and_eq_true,Bool.or_eq_true,Bool.not_eq_true',decide_eq_true_iff,decide_eq_true_iff,
    and_congr_right_iff,← Bool.not_eq_true,same_iff,exist_iff]
  refine imp_congr_right fun _ => ?_
  by_cases hu : Unchanged prev buf
  · have ha : ¬ Absent prev (buf i) := fun h => h i hi (hu i hi).symm
    rw [if_pos hu]
    tauto
  · rw [if_neg hu]
    split_ifs <;> tauto

end

theorem keyboard_reports_iff (prev : Report) (bufs : List Report) :
    Right prev bufs ↔ AllPlain prev bufs := by
  induction bufs generalizing prev with
  | nil => exact Iff.rfl
  | cons buf bufs ih => exact and_congr pushed_iff (ih buf)

theorem keyboard_drops_key :
    let prev : Report := fun i => if i = 0 then 4 else 0
    let buf : Report := fun i => if i = 2 then 4 else 0
    handle prev buf = [] ∧ (reported prev buf).map (fun i => kScanCode (buf i)) = ['a'] := by
  decide

end DevUsbKeyboard
