import Mathlib.Algebra.Order.BigOperators.Group.Finset

namespace Custody
open Finset Multiset List

variable {I T : Type} [Fintype I] {pool : List T} {hold hold' : I → List T} {i j : I} {t : T}

def Kept (pool : List T) (hold : I → List T) : Prop := ∑ i, (hold i : Multiset T) = (pool : Multiset T)

lemma kept_single (i : I) (hi : hold i = pool) (ho : ∀ k, k ≠ i → hold k = []) :
    Kept pool hold := by
  rw [Kept,sum_eq_single i,hi]
  · intro k _ hk
    rw [ho k hk]
    rfl
  · exact fun hn => absurd (mem_univ i) hn

section
variable (h : Kept pool hold)
include h

lemma Kept.perm {pool' : List T} (hp : pool.Perm pool') : Kept pool' hold :=
  h.trans (coe_eq_coe.mpr hp)

lemma Kept.length : ∑ i, (hold i).length = pool.length := by
  have hc := congrArg Multiset.card h
  rw [card_sum] at hc
  exact hc

lemma Kept.mem : t ∈ pool ↔ ∃ i, t ∈ hold i := by
  rw [← Multiset.mem_coe,← h,Multiset.mem_sum]
  simp

lemma Kept.count [DecidableEq T] (t : T) : ∑ i, (hold i).count t = pool.count t := by
  have hc := congrArg (Multiset.count t) h
  simp only [count_sum',coe_count] at hc
  exact hc

lemma Kept.nodup [DecidableEq T] (hp : pool.Nodup) (i : I) : (hold i).Nodup := by
  rw [List.nodup_iff_count_le_one]
  intro t
  have hle := single_le_sum (fun k _ => Nat.zero_le ((hold k).count t)) (mem_univ i)
  exact (hle.trans_eq (h.count t)).trans (List.nodup_iff_count_le_one.mp hp t)

end

section
variable [DecidableEq I]

lemma sum_pair {M : Type} [AddCommMonoid M] (f : I → M) (hij : i ≠ j) :
    ∑ k, f k = f i + (f j + ∑ k ∈ (univ.erase i).erase j, f k) := by
  have hm := mem_erase.mpr ⟨hij.symm,mem_univ j⟩
  rw [add_sum_erase _ _ hm,add_sum_erase _ _ (mem_univ i)]

lemma Kept.move (h : Kept pool hold) (hij : i ≠ j) (hi : (hold i).Perm (t :: hold' i))
    (hj : (hold' j).Perm (t :: hold j)) (ho : ∀ k, k ≠ i → k ≠ j → hold' k = hold k) :
    Kept pool hold' := by
  have hr : ∑ k ∈ (univ.erase i).erase j, (hold' k : Multiset T) =
      ∑ k ∈ (univ.erase i).erase j, (hold k : Multiset T) := by
    refine sum_congr rfl fun k hk => ?_
    obtain ⟨hkj,hk⟩ := mem_erase.mp hk
    rw [ho k (ne_of_mem_erase hk) hkj]
  have hs : (hold i : Multiset T) = t ::ₘ (hold' i : Multiset T) := coe_eq_coe.mpr hi
  have ht : (hold' j : Multiset T) = t ::ₘ (hold j : Multiset T) := coe_eq_coe.mpr hj
  rw [Kept,sum_pair _ hij] at h ⊢
  rw [hr,ht,← h,hs,cons_add,cons_add,add_cons]

lemma Kept.grow (h : Kept pool hold) (hj : (hold' j).Perm (t :: hold j))
    (ho : ∀ k, k ≠ j → hold' k = hold k) : Kept (t :: pool) hold' := by
  have hr : ∑ k ∈ univ.erase j, (hold' k : Multiset T) =
      ∑ k ∈ univ.erase j, (hold k : Multiset T) :=
    sum_congr rfl fun k hk => by rw [ho k (ne_of_mem_erase hk)]
  have ht : (hold' j : Multiset T) = t ::ₘ (hold j : Multiset T) := coe_eq_coe.mpr hj
  rw [Kept,← add_sum_erase _ _ (mem_univ j)] at h ⊢
  rw [hr,ht,cons_add,h,cons_coe]

lemma Kept.room (h : Kept pool hold) (hij : i ≠ j) (ht : t ∈ hold i) :
    (hold j).length < pool.length := by
  have hto := h.length
  have hp := length_pos_of_mem ht
  rw [sum_pair _ hij] at hto
  omega

lemma Kept.unique [DecidableEq T] (h : Kept pool hold) (hp : pool.Nodup) (ht : t ∈ pool) :
    ∃! i, t ∈ hold i := by
  obtain ⟨i,hi⟩ := h.mem.mp ht
  refine ⟨i,hi,fun j hj => ?_⟩
  by_contra hne
  have hto := h.count t
  have hle := nodup_iff_count_le_one.mp hp t
  have hs := count_pos_iff.mpr hi
  have hta := count_pos_iff.mpr hj
  rw [sum_pair _ (Ne.symm hne)] at hto
  omega

end

end Custody
