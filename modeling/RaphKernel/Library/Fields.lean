import Mathlib.Data.Nat.Bitwise
import Mathlib.Tactic.Ring

namespace Fields
open BitVec Nat

variable {w : ℕ} {x y mask : BitVec w}

lemma mask_toNat {k s : ℕ} (x : BitVec w) (h : mask.toNat = (2 ^ k - 1) * 2 ^ s) :
    (x &&& mask).toNat = x.toNat / 2 ^ s % 2 ^ k * 2 ^ s := by
  rw [toNat_and,h]
  apply eq_of_testBit_eq
  intro i
  simp only [testBit_and,testBit_mul_two_pow,testBit_two_pow_sub_one,
    testBit_mod_two_pow,testBit_div_two_pow]
  rcases Nat.lt_or_ge i s with hi | hi
  · simp [Nat.not_le.mpr hi]
  · simp [hi,Nat.sub_add_cancel hi,Bool.and_comm]

lemma masked_iff {k s : ℕ} (h : mask.toNat = (2 ^ k - 1) * 2 ^ s) :
    x &&& mask = x ↔ 2 ^ s ∣ x.toNat ∧ x.toNat < 2 ^ (k + s) := by
  have hx := mask_toNat x h
  constructor
  · intro he
    rw [he] at hx
    refine ⟨Dvd.intro_left _ hx.symm,?_⟩
    rw [hx,pow_add]
    exact Nat.mul_lt_mul_of_pos_right (mod_lt _ (Nat.two_pow_pos k)) (Nat.two_pow_pos s)
  · rintro ⟨hd,hlt⟩
    apply eq_of_toNat_eq
    rw [hx,mod_eq_of_lt,Nat.div_mul_cancel hd]
    rw [Nat.div_lt_iff_lt_mul (Nat.two_pow_pos s),← pow_add]
    exact hlt

lemma masked_or (hx : x &&& mask = x) (hy : y &&& mask = 0) : (x ||| y) &&& mask = x := by
  rw [BitVec.and_or_distrib_right,hx,hy]
  simp

lemma zero_or (hx : x &&& mask = 0) (hy : y &&& mask = 0) : (x ||| y) &&& mask = 0 := by
  rw [BitVec.and_or_distrib_right,hx,hy]
  simp

lemma mask_and {narrow : BitVec w} (hn : narrow &&& mask = narrow) (hx : x &&& mask = 0) :
    x &&& narrow = 0 := by
  rw [← hn,BitVec.and_comm narrow,← BitVec.and_assoc,hx]
  simp

lemma or_cancel {z : BitVec w} (hx : x &&& mask = x) (hy : y &&& mask = 0)
    (hz : z &&& mask = 0) (h : x ||| y = x ||| z) : y = z := by
  apply eq_of_getLsbD_eq
  intro i _
  have hx := congrArg (fun b : BitVec w => b.getLsbD i) hx
  have hy := congrArg (fun b : BitVec w => b.getLsbD i) hy
  have hz := congrArg (fun b : BitVec w => b.getLsbD i) hz
  have h := congrArg (fun b : BitVec w => b.getLsbD i) h
  simp only [getLsbD_and,getLsbD_or,ofNat_eq_ofNat,getLsbD_zero] at hx hy hz h
  cases hb : x.getLsbD i <;> simp_all

lemma bit_or {bit : BitVec w} (hb : bit ≠ 0) (x : BitVec w) : (x ||| bit) &&& bit ≠ 0 := by
  rw [BitVec.and_or_distrib_right,BitVec.and_self]
  intro h
  exact hb (BitVec.or_eq_zero_iff.mp h).2

lemma and_not (h : x &&& mask = 0) : x &&& ~~~mask = x := by
  apply eq_of_getLsbD_eq
  intro i hi
  have hbi := congrArg (fun b : BitVec w => b.getLsbD i) h
  simp only [getLsbD_and,getLsbD_not,ofNat_eq_ofNat,getLsbD_zero,hi] at hbi ⊢
  cases hb : x.getLsbD i <;> simp_all

lemma or_toNat {s : ℕ} (hx : 2 ^ s ∣ x.toNat) (hy : y.toNat < 2 ^ s) :
    (x ||| y).toNat = x.toNat + y.toNat := by
  obtain ⟨q,hq⟩ := hx
  rw [toNat_or,hq,two_pow_add_eq_or_of_lt hy]

lemma toNat_signExtend {v : ℕ} (hv : w ≤ v) (h : 2 * x.toNat < 2 ^ w) :
    (x.signExtend v).toNat = x.toNat := by
  have hm := msb_eq_false_iff_two_mul_lt.mpr h
  rw [signExtend_eq_setWidth_of_msb_false hm,toNat_setWidth]
  exact mod_eq_of_lt (x.isLt.trans_le (Nat.pow_le_pow_right Nat.two_pos hv))

end Fields
