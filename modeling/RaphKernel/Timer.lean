import RaphKernel.Raph

namespace Timer
open Raph BitVec

def getCntAfterPeriod (cntClkPeriod cur : Word) (us : BitVec 32) : Word :=
  cur + (us.signExtend 64 * 1000) / cntClkPeriod

def isGreater (n1 n2 : Word) : Bool :=
  if n2 ≤ n1 then true
  else if n1 < 0x1000000000000000 ∧ 0xF000000000000000 < n2 then true
  else false

def isTimePassed (cur time : Word) : Bool := isGreater cur time

def wrapRegion : Word := 0xF000000000000000

lemma isGreater_below {n1 n2 : Word} (h : n2 ≤ wrapRegion) :
    isGreater n1 n2 = true ↔ n2 ≤ n1 := by
  unfold isGreater
  split
  · rename_i hle
    exact iff_of_true rfl hle
  · rename_i hle
    have hn : ¬ (n1 < 0x1000000000000000 ∧ 0xF000000000000000 < n2) :=
      fun hc => BitVec.not_le.mpr hc.2 h
    rw [if_neg hn]
    exact iff_of_false Bool.false_ne_true hle

lemma isGreater_iff (n1 n2 : Word) : isGreater n1 n2 = true ↔
    n2.toNat ≤ n1.toNat ∨ n1.toNat < 2 ^ 60 ∧ 15 * 2 ^ 60 < n2.toNat := by
  simp only [isGreater,Bool.if_true_left,Bool.if_false_right,Bool.and_true,Bool.or_eq_true,
    decide_eq_true_eq,le_def,lt_def]
  rfl

def Wraps (cur : Word) (d : ℕ) : Prop := 2 ^ 64 ≤ cur.toNat + d

lemma isGreater_elapsed (cur : Word) {d e : ℕ} (hd : d < 2 ^ 60) (he : e < 2 ^ 60) :
    isGreater (cur + BitVec.ofNat 64 e) (cur + BitVec.ofNat 64 d) = true ↔
      d ≤ e ∨ Wraps cur d ∧ ¬ Wraps cur e := by
  have hc := cur.isLt
  simp only [isGreater_iff,Wraps,toNat_add,toNat_ofNat]
  omega

end Timer
