import Mathlib.Tactic.Ring

namespace Bytes
open Function List Nat

abbrev Byte := BitVec 8

section
variable {B : Type}

def slice (m : ℕ → B) (start n : ℕ) : List B := (List.range n).map fun i => m (start + i)

def overwrite (m : ℕ → B) (start : ℕ) (data : List B) : ℕ → B :=
  fun i => if start ≤ i then (data[i - start]?).getD (m i) else m i

def writeAll (m : ℕ → B) (writes : List (ℕ × List B)) : ℕ → B :=
  writes.foldl (fun m w => overwrite m w.1 w.2) m

def patch (buf : List B) (pos : ℕ) (data : List B) : List B :=
  buf.take pos ++ (data ++ buf.drop (pos + data.length))

variable {m m' : ℕ → B} {start n i : ℕ} {data : List B}

@[simp]
lemma length_slice (m : ℕ → B) (start n : ℕ) : (slice m start n).length = n := by
  simp [slice]

lemma slice_get? (m : ℕ → B) (start : ℕ) (h : i < n) :
    (slice m start n)[i]? = some (m (start + i)) := by
  simp [slice,h]

lemma slice_congr (h : ∀ i, start ≤ i → i < start + n → m i = m' i) :
    slice m start n = slice m' start n := by
  refine map_congr_left fun i hi => ?_
  have hlt := mem_range.mp hi
  exact h _ (by omega) (by omega)

lemma slice_succ (m : ℕ → B) (start n : ℕ) :
    slice m start (n + 1) = m start :: slice m (start + 1) n := by
  unfold slice
  rw [range_succ_eq_map,map_cons,List.map_map]
  refine congrArg _ (map_congr_left fun i _ => ?_)
  exact congrArg m (by simp only [succ_eq_add_one]; omega)

lemma slice_append (m : ℕ → B) (start n k : ℕ) :
    slice m start (n + k) = slice m start n ++ slice m (start + n) k := by
  unfold slice
  rw [range_add,map_append,List.map_map]
  congr 1
  refine map_congr_left fun i _ => ?_
  simp [Nat.add_assoc]

lemma overwrite_inside (m : ℕ → B) (start : ℕ) (h : i < data.length) :
    overwrite m start data (start + i) = data[i] := by
  simp [overwrite,h]

lemma overwrite_before (m : ℕ → B) (data : List B) (h : i < start) :
    overwrite m start data i = m i := by
  rw [overwrite,if_neg (by omega)]

lemma overwrite_after (m : ℕ → B) (h : start + data.length ≤ i) :
    overwrite m start data i = m i := by
  rw [overwrite,if_pos (by omega),List.getElem?_eq_none (by omega)]
  rfl

lemma overwrite_outside (m : ℕ → B) (h : i < start ∨ start + data.length ≤ i) :
    overwrite m start data i = m i := by
  rcases h with h | h
  · exact overwrite_before m data h
  · exact overwrite_after m h

lemma overwrite_nil (m : ℕ → B) (start : ℕ) : overwrite m start [] = m := by
  funext i
  simp [overwrite]

lemma overwrite_slice_succ (m f : ℕ → B) (start pos n : ℕ) :
    overwrite m start (slice f pos (n + 1)) =
      update (overwrite m start (slice f pos n)) (start + n) (f (pos + n)) := by
  have hl (k : ℕ) : (slice f pos k).length = k := by simp [slice]
  funext i
  by_cases hi : i = start + n
  · subst hi
    rw [update_self,overwrite_inside m start (by rw [hl]; omega)]
    simp [slice]
  · rw [update_of_ne hi]
    by_cases hin : start ≤ i ∧ i < start + n
    · obtain ⟨j,rfl⟩ : ∃ j, i = start + j := ⟨i - start,by omega⟩
      rw [overwrite_inside m start (by rw [hl]; omega),overwrite_inside m start (by rw [hl]; omega)]
      simp [slice]
    · rw [overwrite_outside m (by rw [hl]; omega),overwrite_outside m (by rw [hl]; omega)]

lemma slice_overwrite (m : ℕ → B) (start : ℕ) (data : List B) :
    slice (overwrite m start data) start data.length = data := by
  refine ext_getElem (by simp) fun i hi hi' => ?_
  rw [List.getElem_eq_iff,slice_get? _ _ hi',overwrite_inside m start hi']

lemma slice_overwrite_outside (m : ℕ → B) {pos : ℕ}
    (h : start + n ≤ pos ∨ pos + data.length ≤ start) :
    slice (overwrite m pos data) start n = slice m start n :=
  slice_congr fun i hlo hhi => overwrite_outside m (by omega)

lemma writeAll_outside {writes : List (ℕ × List B)} (m : ℕ → B)
    (h : ∀ w ∈ writes, start + n ≤ w.1 ∨ w.1 + w.2.length ≤ start) :
    slice (writeAll m writes) start n = slice m start n := by
  induction writes generalizing m with
  | nil => rfl
  | cons w writes ih =>
    have hr := ih (overwrite m w.1 w.2) fun v hv => h v (mem_cons_of_mem w hv)
    exact hr.trans (slice_overwrite_outside m (h w mem_cons_self))

lemma writeAll_at {writes : List (ℕ × List B)} {pos : ℕ} (m : ℕ → B) (k : ℕ)
    (hk : writes[k]? = some (pos,data)) (hn : data.length = n)
    (h : ∀ w ∈ writes.drop (k + 1), pos + n ≤ w.1 ∨ w.1 + w.2.length ≤ pos := by simp) :
    slice (writeAll m writes) pos n = data := by
  obtain ⟨_,hg⟩ := List.getElem?_eq_some_iff.mp hk
  have hs : writes = writes.take k ++ (pos,data) :: writes.drop (k + 1) := by
    rw [← hg,getElem_cons_drop,take_append_drop]
  have ha : writeAll m writes =
      writeAll (overwrite (writeAll m (writes.take k)) pos data) (writes.drop (k + 1)) := by
    conv_lhs => rw [hs]
    rw [writeAll,foldl_append]
    rfl
  subst hn
  rw [ha,writeAll_outside _ h,slice_overwrite]

lemma length_patch {buf : List B} {pos : ℕ} (h : pos + data.length ≤ buf.length) :
    (patch buf pos data).length = buf.length := by
  simp only [patch,length_append,length_take,length_drop]
  omega

lemma overwrite_patch (m : ℕ → B) (start : ℕ) {pos : ℕ} (h : pos + data.length ≤ n) :
    overwrite m start (patch (slice m start n) pos data) = overwrite m (start + pos) data := by
  have hl : (patch (slice m start n) pos data).length = n := by
    rw [length_patch (by rw [length_slice]; exact h),length_slice]
  funext i
  by_cases ho : i < start ∨ start + n ≤ i
  · rw [overwrite_outside m (by rw [hl]; exact ho),overwrite_outside m (by omega)]
  · obtain ⟨j,rfl⟩ : ∃ j, i = start + j := ⟨i - start,by omega⟩
    have hj : j < n := by omega
    rw [overwrite_inside m start (by rw [hl]; exact hj),List.getElem_eq_iff,patch]
    have ht : ((slice m start n).take pos).length = pos := by
      rw [length_take,length_slice]
      omega
    rcases lt_or_ge j pos with hlt | _
    · rw [getElem?_append_left (by omega),getElem?_take_of_lt hlt,slice_get? m start hj,
        overwrite_before m data (by omega)]
    · rw [getElem?_append_right (by omega),ht]
      rcases lt_or_ge _ data.length with hin | ha
      · have heq : start + j = start + pos + (j - pos) := by omega
        rw [getElem?_append_left hin,heq,overwrite_inside m _ hin,
          List.getElem?_eq_getElem hin]
      · have heq : pos + data.length + (j - pos - data.length) = j := by omega
        rw [getElem?_append_right ha,getElem?_drop,heq,slice_get? m start hj,
          overwrite_after m (by omega)]

lemma slice_overwrite_part (m : ℕ → B) (start : ℕ) {pos : ℕ} (h : pos + data.length ≤ n) :
    slice (overwrite m (start + pos) data) start n = patch (slice m start n) pos data := by
  have hl : (patch (slice m start n) pos data).length = n := by
    rw [length_patch (by rw [length_slice]; exact h),length_slice]
  rw [← overwrite_patch m start h]
  nth_rewrite 2 [← hl]
  exact slice_overwrite m start _

lemma slice_slice (m : ℕ → B) (start : ℕ) {pos k : ℕ} (h : pos + k ≤ n) :
    ((slice m start n).drop pos).take k = slice m (start + pos) k := by
  have hn : n = pos + (k + (n - pos - k)) := by omega
  rw [hn,slice_append,drop_left' (length_slice ..),slice_append,take_left' (length_slice ..)]

lemma chunk_flatMap {A : Type} {f : A → List B} {w k : ℕ} (hf : ∀ x, (f x).length = w)
    {l : List A} (h : k < l.length) : ((l.flatMap f).drop (w * k)).take w = f l[k] := by
  induction l generalizing k with
  | nil => simp at h
  | cons x l ih =>
    rw [flatMap_cons]
    cases k with
    | zero => exact take_left' (hf x)
    | succ k =>
      have hk : w * (k + 1) = (f x).length + w * k := by
        rw [hf,mul_succ,Nat.add_comm]
      rw [hk,drop_length_add_append]
      exact ih (lt_of_succ_lt_succ h)

end

def encode : ℕ → ℕ → List Byte
  | 0, _ => []
  | n + 1, x => BitVec.ofNat 8 x :: encode n (x / 256)

def decode : List Byte → ℕ
  | [] => 0
  | b :: data => b.toNat + 256 * decode data

@[simp]
lemma length_encode (n x : ℕ) : (encode n x).length = n := by
  induction n generalizing x with
  | zero => rfl
  | succ n ih => simp [encode,ih]

lemma decode_encode (n x : ℕ) : decode (encode n x) = x % 256 ^ n := by
  induction n generalizing x with
  | zero => simp [encode,decode,mod_one]
  | succ n ih =>
    calc decode (encode (n + 1) x)
        = x % 2 ^ 8 + 256 * (x / 256 % 256 ^ n) := by
          rw [encode,decode,ih,BitVec.toNat_ofNat]
      _ = x % (256 * 256 ^ n) := (mod_mul (x := x)).symm
      _ = x % 256 ^ (n + 1) := by rw [Nat.pow_succ']

def field (w : ℕ) (data : List Byte) (offset : ℕ) : BitVec (8 * w) :=
  BitVec.ofNat (8 * w) (decode ((data.drop offset).take w))

section
variable {w k : ℕ}

lemma field_append_right {pre rest : List Byte} (h : pre.length ≤ k := by simp) :
    field w (pre ++ rest) k = field w rest (k - pre.length) := by
  rw [field,field,drop_append,drop_eq_nil_of_le h,nil_append]

lemma field_encode (x : BitVec (8 * w)) (rest : List Byte) :
    field w (encode w x.toNat ++ rest) 0 = x := by
  have hp : 256 ^ w = 2 ^ (8 * w) := by rw [Nat.pow_mul]
  rw [field,drop_zero,take_left' (length_encode w _),decode_encode,hp,
    mod_eq_of_lt x.isLt,BitVec.ofNat_toNat,BitVec.setWidth_eq]

lemma field_flatMap {l : List (BitVec (8 * w))} (h : k < l.length) :
    field w (l.flatMap fun x => encode w x.toNat) (w * k) = l[k] := by
  induction l generalizing k with
  | nil => simp at h
  | cons x l ih =>
    rw [flatMap_cons]
    cases k with
    | zero => exact field_encode x _
    | succ k =>
      have hk : w * (k + 1) - (encode w x.toNat).length = w * k := by
        rw [length_encode,mul_succ,Nat.add_sub_cancel]
      rw [field_append_right (by rw [length_encode,mul_succ]; omega),hk]
      exact ih (lt_of_succ_lt_succ h)

end

end Bytes
