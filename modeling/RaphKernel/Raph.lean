import Mathlib.Tactic.Ring
import Mathlib.Tactic.Linarith

namespace Raph
open BitVec Nat

abbrev Word := BitVec 64

inductive Panic where
  | kassert
  | kernelPanic (className errStr : String)
  | nullPointer
  deriving DecidableEq, Repr

def kassert (flag : Bool) : Except Panic Unit :=
  if flag then .ok () else .error .kassert

def kernelPanic {A : Type} (className errStr : String) : Except Panic A :=
  .error (.kernelPanic className errStr)

def align (val base : Word) : Word := (val / base) * base

def alignUp (val base : Word) : Word := align (val + base - 1) base

def roundUp (n base : ℕ) : ℕ := (n + base - 1) / base * base

lemma kassert_ok {flag : Bool} {u : Unit} : kassert flag = .ok u ↔ flag = true := by
  cases flag <;> simp [kassert]

lemma bind_ok {A B : Type} {x : Except Panic A} {f : A → Except Panic B} {b : B} :
    (x >>= f) = .ok b ↔ ∃ a, x = .ok a ∧ f a = .ok b := by
  cases x <;> simp [bind,Except.bind]

lemma kassert_bind_ok {B : Type} {flag : Bool} {f : Unit → Except Panic B} {b : B} :
    (kassert flag >>= f) = .ok b ↔ flag = true ∧ f () = .ok b := by
  cases flag <;> simp [kassert,bind,Except.bind]

lemma align_one (val : Word) : align val 1 = val := by
  apply eq_of_toNat_eq
  simp [align]

lemma alignUp_one (val : Word) : alignUp val 1 = val := by
  rw [alignUp,align_one]
  exact BitVec.add_sub_cancel val 1

lemma roundUp_ge (n base : ℕ) (hb : 0 < base := by norm_num) : n ≤ roundUp n base := by
  have h := lt_div_mul_add hb (a := n + base - 1)
  unfold roundUp
  omega

lemma roundUp_dvd (n base : ℕ) : base ∣ roundUp n base := Dvd.intro_left _ rfl

lemma roundUp_lt (n base : ℕ) (hb : 0 < base) : roundUp n base < n + base := by
  have h := div_mul_le_self (n + base - 1) base
  unfold roundUp
  omega

lemma roundUp_le_of_dvd {n m base : ℕ} (hb : 0 < base) (hn : n ≤ m) (hm : base ∣ m) :
    roundUp n base ≤ m := by
  obtain ⟨q,rfl⟩ := hm
  have hd : (n + base - 1) / base ≤ q := by
    rw [div_le_iff_le_mul_add_pred hb]
    omega
  unfold roundUp
  rw [Nat.mul_comm base q]
  exact Nat.mul_le_mul_right base hd

lemma roundUp_one (n : ℕ) : roundUp n 1 = n := by simp [roundUp]

def powerOfTwo (k : ℕ) : Word := BitVec.ofNat 64 (2 ^ k)

lemma powerOfTwo_toNat {k : ℕ} (hk : k < 64) : (powerOfTwo k).toNat = 2 ^ k := by
  rw [powerOfTwo,toNat_ofNat]
  exact mod_eq_of_lt (Nat.pow_lt_pow_right (by omega) hk)

lemma align_toNat_le (val base : Word) : (val / base).toNat * base.toNat < 2 ^ 64 := by
  rw [toNat_udiv]
  exact lt_of_le_of_lt (div_mul_le_self _ _) val.isLt

lemma align_toNat (val base : Word) : (align val base).toNat = val.toNat / base.toNat * base.toNat := by
  rw [align,toNat_mul,mod_eq_of_lt (align_toNat_le val base),toNat_udiv]

lemma alignUp_toNat {val : Word} {k : ℕ} (hk : k < 64) (h : roundUp val.toNat (2 ^ k) < 2 ^ 64) :
    (alignUp val (powerOfTwo k)).toNat = roundUp val.toNat (2 ^ k) := by
  have hp : 0 < 2 ^ k := by positivity
  have hle := roundUp_ge val.toNat (2 ^ k) hp
  have hd := roundUp_dvd val.toNat (2 ^ k)
  have hs : val.toNat + 2 ^ k - 1 < 2 ^ 64 := by
    by_contra hc
    have hk64 := Nat.pow_dvd_pow 2 hk.le
    have hb : 2 ^ 64 / 2 ^ k ≤ (val.toNat + 2 ^ k - 1) / 2 ^ k := Nat.div_le_div_right (by omega)
    have := Nat.mul_le_mul_right (2 ^ k) hb
    rw [Nat.div_mul_cancel hk64] at this
    unfold roundUp at h
    omega
  rw [alignUp,align_toNat,powerOfTwo_toNat hk]
  have hv : (val + powerOfTwo k - 1).toNat = val.toNat + 2 ^ k - 1 := by
    have ht := powerOfTwo_toNat hk
    bv_omega
  rw [hv,roundUp]

lemma alignUp_overflow {val : Word} {k : ℕ} (hk : k < 64)
    (h : 2 ^ 64 ≤ roundUp val.toNat (2 ^ k)) : alignUp val (powerOfTwo k) = 0 := by
  have hp : 0 < 2 ^ k := by positivity
  have hlt := roundUp_lt val.toNat _ hp
  have hva := val.isLt
  have hpk : 2 ^ k < 2 ^ 64 := Nat.pow_lt_pow_right (by omega) hk
  have hs : 2 ^ 64 ≤ val.toNat + 2 ^ k - 1 := by omega
  apply eq_of_toNat_eq
  rw [alignUp,align_toNat,powerOfTwo_toNat hk]
  have hv : (val + powerOfTwo k - 1).toNat = val.toNat + 2 ^ k - 1 - 2 ^ 64 := by
    have ht := powerOfTwo_toNat hk
    bv_omega
  rw [hv,div_eq_of_lt (by omega)]
  simp

end Raph
