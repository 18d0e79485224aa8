import RaphKernel.Library.OnesComplement

namespace Ipv4Layer
open Bytes OnesComplement List Nat

def fold (acc : ℕ) : ℕ := acc % 65536 + acc / 65536

def sumLoop : ℕ → List Byte → ℕ
  | acc, [] => acc
  | acc, [last] => (acc + last.toNat) % 2 ^ 64
  | acc, low :: high :: buf =>
    let acc := (acc + (low.toNat + 256 * high.toNat)) % 2 ^ 64
    sumLoop (if acc.testBit 31 then fold acc else acc) buf

def foldLoop (acc : ℕ) : ℕ := if acc / 65536 = 0 then acc else foldLoop (fold acc)
termination_by acc
decreasing_by
  unfold fold
  omega

def checkSum (buf : List Byte) : BitVec 16 := (~~~ BitVec.ofNat 64 (foldLoop (sumLoop 0 buf))).setWidth 16

def littleWords : List Byte → List ℕ
  | [] => []
  | [last] => [last.toNat]
  | low :: high :: buf => (low.toNat + 256 * high.toNat) :: littleWords buf

lemma foldLoop_eq (acc : ℕ) : foldLoop acc = reduce acc := by
  induction acc using foldLoop.induct with
  | case1 acc h => rw [foldLoop,if_pos h,reduce_small (by omega)]
  | case2 acc h ih => rw [foldLoop,if_neg h,ih,fold,add_comm,reduce_carry]

lemma sumLoop_reduce {acc : ℕ} (buf : List Byte) (h : acc < 2 ^ 31) :
    reduce (sumLoop acc buf) = reduce (acc + (littleWords buf).sum) := by
  induction buf using littleWords.induct generalizing acc with
  | case1 => simp [sumLoop,littleWords]
  | case2 last => rw [sumLoop,mod_eq_of_lt (by omega),littleWords,sum_singleton]
  | case3 low high buf ih =>
    simp only [sumLoop,littleWords,sum_cons]
    rw [mod_eq_of_lt (by omega),← add_assoc acc _ (littleWords buf).sum]
    have hn : acc + (low.toNat + 256 * high.toNat) < 2 ^ 32 := by omega
    generalize acc + (low.toNat + 256 * high.toNat) = n at hn ⊢
    split_ifs with ht
    · have hf : fold n < 2 ^ 31 := by
        unfold fold
        omega
      have hc : reduce (fold n) = reduce n := by rw [fold,add_comm,reduce_carry]
      rw [ih hf,← reduce_add,hc,reduce_add]
    · rw [testBit_eq_decide_div_mod_eq,decide_eq_true_iff] at ht
      exact ih (by omega)

lemma littleWords_le (buf : List Byte) : ∀ w ∈ littleWords buf, w ≤ 65535 := by
  induction buf using littleWords.induct with
  | case1 => simp [littleWords]
  | case2 last =>
    have hl := last.isLt
    simp only [littleWords,forall_mem_singleton]
    omega
  | case3 low high buf ih => exact forall_mem_cons.mpr ⟨by omega,ih⟩

lemma littleWords_append {buf : List Byte} (rest : List Byte) (h : 2 ∣ buf.length) :
    littleWords (buf ++ rest) = littleWords buf ++ littleWords rest := by
  induction buf using littleWords.induct with
  | case1 => rfl
  | case2 last => simp at h
  | case3 low high buf ih => exact congrArg (cons _) (ih (by simp only [length_cons] at h; omega))

lemma checkSum_eq (buf : List Byte) : (checkSum buf).toNat = 65535 - reduce (littleWords buf).sum := by
  have hr := reduce_le (littleWords buf).sum
  have hs := sumLoop_reduce buf (by norm_num : 0 < 2 ^ 31)
  rw [zero_add] at hs
  rw [checkSum,foldLoop_eq,hs,BitVec.toNat_setWidth,BitVec.toNat_not,BitVec.toNat_ofNat]
  omega

theorem checkSum_ones_complement (buf pre post : List Byte) :
    (checkSum buf).toNat = 65535 - OnesComplement.sum (littleWords buf) ∧
    (2 ∣ pre.length →
      checkSum (pre ++ (encode 2 (checkSum (pre ++ 0 :: 0 :: post)).toNat ++ post)) = 0) := by
  refine ⟨by rw [sum_eq (littleWords_le buf),checkSum_eq],fun hp => BitVec.eq_of_toNat_eq ?_⟩
  have hw (w : BitVec 16) : (littleWords (pre ++ (encode 2 w.toNat ++ post))).sum =
      (littleWords pre).sum + (littleWords post).sum + w.toNat := by
    have hl := w.isLt
    rw [littleWords_append _ hp,List.sum_append_nat]
    simp only [encode,cons_append,nil_append,littleWords,sum_cons,BitVec.toNat_ofNat]
    omega
  have hz : pre ++ 0 :: 0 :: post = pre ++ (encode 2 (0#16).toNat ++ post) := rfl
  rw [checkSum_eq,hw,checkSum_eq,hz,hw,BitVec.toNat_zero,add_zero,reduce_complement]
  rfl

end Ipv4Layer
