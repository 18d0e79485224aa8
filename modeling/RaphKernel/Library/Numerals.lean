import Mathlib.Data.Nat.Digits.Lemmas
import RaphKernel.Library.Bytes

namespace Numerals
open Bytes List

def value (b : ℕ) (ds : List ℕ) : ℕ := Nat.ofDigits b ds.reverse

variable {b d w : ℕ} {ds es : List ℕ} {c : Byte}

lemma value_snoc : value b (ds ++ [d]) = value b ds * b + d := by
  rw [value,reverse_append,reverse_singleton,singleton_append,Nat.ofDigits_cons,
    Nat.mul_comm,Nat.add_comm]
  rfl

lemma value_append : value b (ds ++ es) = value b ds * b ^ es.length + value b es := by
  rw [value,reverse_append,Nat.ofDigits_append,length_reverse,Nat.mul_comm,Nat.add_comm]
  rfl

def accumulate (b acc : BitVec w) (ds : List ℕ) : BitVec w :=
  ds.foldl (fun acc d => acc * b + BitVec.ofNat w d) acc

lemma accumulate_value (b : ℕ) (ds es : List ℕ) :
    accumulate (BitVec.ofNat w b) (BitVec.ofNat w (value b ds)) es =
      BitVec.ofNat w (value b (ds ++ es)) := by
  induction es generalizing ds with
  | nil => rw [append_nil,accumulate,foldl_nil]
  | cons e es ih =>
    rw [accumulate,foldl_cons,← BitVec.ofNat_mul,← BitVec.ofNat_add,← value_snoc,← accumulate,ih,
      append_assoc,singleton_append]

def isDecimal (c : Byte) : Bool := 48 ≤ c && c ≤ 57

def decimal (c : Byte) : ℕ := c.toNat - 48

lemma isDecimal_iff : isDecimal c = true ↔ 48 ≤ c.toNat ∧ c.toNat ≤ 57 := by
  rw [isDecimal,Bool.and_eq_true,decide_eq_true_iff,decide_eq_true_iff]
  rfl

lemma sub_zero_char (h : isDecimal c = true) : c - 48 = BitVec.ofNat 8 (decimal c) := by
  have hr := isDecimal_iff.mp h
  have hlt := c.isLt
  have hz : (48 : Byte).toNat = 48 := rfl
  apply BitVec.eq_of_toNat_eq
  rw [BitVec.toNat_sub,BitVec.toNat_ofNat,hz,decimal]
  omega

end Numerals
