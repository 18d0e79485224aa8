import RaphKernel.Library.Bytes
import Mathlib.Algebra.BigOperators.Group.List.Basic

namespace OnesComplement
open Bytes List

def add (a b : ℕ) : ℕ := (a + b) / 65536 + (a + b) % 65536

def sum (words : List ℕ) : ℕ := words.foldl add 0

def reduce (n : ℕ) : ℕ := if n = 0 then 0 else (n - 1) % 65535 + 1

def words : List Byte → List ℕ
  | [] => []
  | [high] => [high.toNat * 256]
  | high :: low :: data => (high.toNat * 256 + low.toNat) :: words data

lemma reduce_le (n : ℕ) : reduce n ≤ 65535 := by
  unfold reduce
  split_ifs <;> omega

lemma reduce_small {n : ℕ} (h : n ≤ 65535) : reduce n = n := by
  unfold reduce
  split_ifs <;> omega

lemma reduce_carry (n : ℕ) : reduce (n / 65536 + n % 65536) = reduce n := by
  unfold reduce
  split_ifs <;> omega

lemma reduce_add (a b : ℕ) : reduce (reduce a + b) = reduce (a + b) := by
  unfold reduce
  split_ifs <;> omega

lemma add_eq {a b : ℕ} (ha : a ≤ 65535) (hb : b ≤ 65535) : add a b = reduce (a + b) := by
  rw [← reduce_carry,reduce_small (by omega),add]

lemma foldl_add {l : List ℕ} (h : ∀ w ∈ l, w ≤ 65535) {a : ℕ} (ha : a ≤ 65535) :
    l.foldl add a = reduce (a + l.sum) := by
  induction l generalizing a with
  | nil => exact (reduce_small ha).symm
  | cons w l ih =>
    have hw := h w mem_cons_self
    have hs := ih (fun v hv => h v (mem_cons_of_mem w hv)) (reduce_le (a + w))
    rw [foldl_cons,add_eq ha hw,hs,reduce_add,sum_cons,Nat.add_assoc]

lemma sum_eq {l : List ℕ} (h : ∀ w ∈ l, w ≤ 65535) : sum l = reduce l.sum := by
  rw [sum,foldl_add h (Nat.zero_le _),Nat.zero_add]

lemma reduce_multiple (q : ℕ) : reduce (65535 * q + 65535) = 65535 := by
  have hp : 65535 * q + 65535 - 1 = 65534 + 65535 * q := by omega
  rw [reduce,if_neg (by omega),hp,Nat.add_mul_mod_self_left]

lemma reduce_full {n : ℕ} : reduce n = 65535 ↔ n ≠ 0 ∧ 65535 ∣ n := by
  unfold reduce
  split_ifs with hn
  · simp [hn]
  · constructor
    · exact fun h => ⟨hn,by omega⟩
    · rintro ⟨_,k,_⟩
      omega

lemma reduce_complement (n : ℕ) : reduce (n + (65535 - reduce n)) = 65535 := by
  cases n with
  | zero => exact reduce_multiple 0
  | succ n =>
    have hr : reduce (n + 1) = n % 65535 + 1 := rfl
    have hd := Nat.div_add_mod n 65535
    have hlt := Nat.mod_lt n (by norm_num : 65535 > 0)
    have hs : n + 1 + (65535 - reduce (n + 1)) = 65535 * (n / 65535) + 65535 := by omega
    rw [hs,reduce_multiple]

lemma words_le (data : List Byte) : ∀ w ∈ words data, w ≤ 65535 := by
  induction data using words.induct with
  | case1 => simp [words]
  | case2 high =>
    intro w hw
    rw [mem_singleton.mp hw]
    omega
  | case3 high low data ih =>
    intro w hw
    rcases mem_cons.mp hw with rfl | hw
    · omega
    · exact ih w hw

lemma words_append {data : List Byte} (rest : List Byte) {k : ℕ} (h : data.length = 2 * k) :
    words (data ++ rest) = words data ++ words rest := by
  induction data using words.induct generalizing k with
  | case1 => rfl
  | case2 high =>
    rw [length_singleton] at h
    omega
  | case3 high low data ih =>
    simp only [length_cons] at h
    have hr : data.length = 2 * (k - 1) := by omega
    exact congrArg _ (ih hr)

end OnesComplement
