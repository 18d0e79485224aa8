import RaphKernel.Libc.Strcpy

namespace Libc
open Bytes Loop List

def examined : (ℕ → Byte) → (ℕ → Byte) → ℕ → ℕ
  | _, _, 0 => 0
  | s1, s2, n + 1 =>
    if s1 0 ≠ s2 0 then 1 else examined (fun i => s1 (i + 1)) (fun i => s2 (i + 1)) n + 1

def strstrBody (s2 : ℕ → Byte) (len : ℕ) : (ℕ → Byte) × ℕ → Sum ((ℕ → Byte) × ℕ) (Option ℕ)
  | (s1,i) =>
    if s1 0 = 0 then .inr none
    else if strncmp s1 s2 len = 0 then .inr (some i) else .inl (fun j => s1 (j + 1),i + 1)

def strstr (s1 s2 : ℕ → Byte) (r : Option ℕ) : Prop :=
  ∃ len, Returns (CString.strlenBody s2) 0 len ∧ Returns (strstrBody s2 len) (s1,0) r

structure Stored (m : ℕ → Byte) (s : List Byte) : Prop where
  spells : Spells m 0 s
  text : 0 ∉ s

def compare : List Byte → List Byte → ℕ → ℤ
  | _, _, 0 => 0
  | s, t, n + 1 =>
    if s.headD 0 ≠ t.headD 0 then (s.headD 0).toNat - (t.headD 0).toNat
    else if s = [] then 0 else compare s.tail t.tail n

def Compares (m1 m2 : ℕ → Byte) (s t : List Byte) (n : ℕ) : Prop :=
  (strncmp m1 m2 n < 0 ↔ compare s t n < 0) ∧ (strncmp m1 m2 n = 0 ↔ compare s t n = 0) ∧
    examined m1 m2 n ≤ s.length + 1 ∧ examined m1 m2 n ≤ t.length + 1

def Finds (m1 m2 : ℕ → Byte) (s t : List Byte) : Prop :=
  strstr m1 m2 (s.tails.findIdx? (t.isPrefixOf ·))

def Comparable : List Byte → List Byte → ℕ → Prop
  | _, _, 0 => True
  | s, t, n + 1 =>
    if s.headD 0 ≠ t.headD 0 then ((s.headD 0).toNat < 128 ↔ (t.headD 0).toNat < 128)
    else if s = [] then n = 0 else Comparable s.tail t.tail n

section
variable {m m1 m2 : ℕ → Byte} {s t : List Byte} {n : ℕ}

lemma spells_shift {start : ℕ} :
    Spells (fun i => m (i + 1)) start s ↔ Spells m (start + 1) s := by
  induction s generalizing start with
  | nil => exact Iff.rfl
  | cons a s ih => exact and_congr_right fun _ => ih

lemma stored_cons {a : Byte} :
    Stored m (a :: s) ↔ m 0 = a ∧ a ≠ 0 ∧ Stored (fun i => m (i + 1)) s := by
  constructor
  · rintro ⟨⟨ha,hs⟩,ht⟩
    exact ⟨ha,fun h => ht (h ▸ mem_cons_self),spells_shift.mpr hs,fun h => ht (mem_cons_of_mem a h)⟩
  · rintro ⟨ha,hz,hs⟩
    exact ⟨⟨ha,spells_shift.mp hs.spells⟩,fun h => (mem_cons.mp h).elim (fun h => hz h.symm) hs.text⟩

lemma Stored.head (h : Stored m s) : m 0 = s.headD 0 ∧ (s.headD 0 = 0 ↔ s = []) := by
  cases s with
  | nil => exact ⟨h.spells,by simp⟩
  | cons a s => exact ⟨h.spells.1,by simpa using (stored_cons.mp h).2.1⟩

lemma Stored.tail (h : Stored m s) (hs : s ≠ []) :
    Stored (fun i => m (i + 1)) s.tail ∧ s.length = s.tail.length + 1 := by
  cases s with
  | nil => exact absurd rfl hs
  | cons a s => exact ⟨(stored_cons.mp h).2.2,rfl⟩

lemma examined_eq_zero (m1 m2 : ℕ → Byte) : examined m1 m2 n = 0 ↔ n = 0 := by
  cases n with
  | zero => simp [examined]
  | succ n =>
    rw [examined]
    split <;> simp

lemma compares_iff (hs : Stored m1 s) (ht : Stored m2 t) :
    Compares m1 m2 s t n ↔ Comparable s t n := by
  induction n generalizing m1 m2 s t with
  | zero => simp [Compares,Comparable,strncmp,compare,examined]
  | succ n ih =>
    obtain ⟨hs0,hs'⟩ := hs.head
    obtain ⟨ht0,ht'⟩ := ht.head
    rw [Compares,Comparable,strncmp,examined,compare,hs0,ht0]
    by_cases hne : s.headD 0 = t.headD 0
    · rw [if_neg (not_not.mpr hne),if_neg (not_not.mpr hne),if_neg (not_not.mpr hne),
        if_neg (not_not.mpr hne)]
      by_cases hn : s = []
      · have hn' : t = [] := by rw [← ht',← hne,hs',hn]
        have hm := examined_eq_zero (fun i => m1 (i + 1)) (fun i => m2 (i + 1)) (n := n)
        rw [if_pos hn,if_pos hn,hn,hn']
        constructor
        · intro h
          exact hm.mp (by simpa using h.2.2.1)
        · rintro rfl
          simp [strncmp,examined]
      · obtain ⟨hsr,hsl⟩ := hs.tail hn
        obtain ⟨htr,htl⟩ := ht.tail fun h => hn (hs'.mp (hne.trans (ht'.mpr h)))
        rw [if_neg hn,if_neg hn,← ih hsr htr,Compares,hsl,htl]
        simp only [Nat.add_le_add_iff_right]
    · have hb : (s.headD 0).toNat ≠ (t.headD 0).toNat := fun h => hne (BitVec.eq_of_toNat_eq h)
      rw [if_pos hne,if_pos hne,if_pos hne,if_pos hne,BitVec.toInt_eq_toNat_cond,
        BitVec.toInt_eq_toNat_cond]
      split_ifs <;> omega

lemma strlen_spells {k : ℕ} (h : Spells m k s) (hs : 0 ∉ s) :
    Returns (CString.strlenBody m) k (k + s.length) := by
  induction s generalizing k with
  | nil => exact returns_of_exit (if_neg (not_not.mpr h))
  | cons a s ih =>
    obtain ⟨ha,hn⟩ := not_or.mp fun h => hs (mem_cons.mpr h)
    have hb : CString.strlenBody m k = .inl (k + 1) := if_pos (h.1 ▸ Ne.symm ha)
    rw [returns_step_iff hb,length_cons,Nat.add_comm s.length,← Nat.add_assoc]
    exact ih h.2 hn

lemma strncmp_prefix (hs : Stored m1 s) (ht : Stored m2 t) :
    strncmp m1 m2 t.length = 0 ↔ t.isPrefixOf s = true := by
  induction t generalizing m1 m2 s with
  | nil => simp [strncmp]
  | cons b t ih =>
    obtain ⟨hb,hz,ht⟩ := stored_cons.mp ht
    rw [length_cons,strncmp,hb]
    cases s with
    | nil =>
      have hb0 : b.toInt ≠ 0 := fun h => hz (BitVec.eq_of_toInt_eq h)
      rw [show m1 0 = 0 from hs.spells,if_pos (Ne.symm hz)]
      simpa using hb0
    | cons a s =>
      obtain ⟨ha,-,hs⟩ := stored_cons.mp hs
      rw [ha,isPrefixOf_cons_cons,Bool.and_eq_true,beq_iff_eq,← ih hs ht]
      by_cases hab : a = b
      · simp [hab]
      · rw [if_pos hab]
        refine iff_of_false (fun h => hab (BitVec.eq_of_toInt_eq ?_)) fun h => hab h.1.symm
        omega

lemma strstr_returns {r : Option ℕ} {i : ℕ} (hs : Stored m1 s) (ht : Stored m2 t)
    (hne : s ≠ [] ∨ t ≠ []) (hr : r = (s.tails.findIdx? (t.isPrefixOf ·)).map (i + ·)) :
    Returns (strstrBody m2 t.length) (m1,i) r := by
  induction s generalizing m1 i r with
  | nil =>
    have ht' : ¬ t.isPrefixOf [] = true := by simpa using hne
    obtain rfl : r = none := by simpa [ht'] using hr
    exact returns_of_exit (if_pos hs.spells)
  | cons a s ih =>
    have hcm := strncmp_prefix hs ht
    obtain ⟨ha,hz,hs⟩ := stored_cons.mp hs
    have hc : ¬ m1 0 = 0 := ha ▸ hz
    rw [tails,findIdx?_cons] at hr
    by_cases hp : t.isPrefixOf (a :: s) = true
    · obtain rfl : r = some i := by simpa [hp] using hr
      exact returns_of_exit ((if_neg hc).trans (if_pos (hcm.mpr hp)))
    · have hst : strstrBody m2 t.length (m1,i) = .inl (fun j => m1 (j + 1),i + 1) :=
        (if_neg hc).trans (if_neg fun h => hp (hcm.mp h))
      refine (returns_step_iff hst).mpr (ih hs (.inr fun h => hp (by simp [h])) ?_)
      rw [hr,if_neg hp,Option.map_map]
      congr 1
      funext j
      simp; omega

lemma finds_iff (hs : Stored m1 s) (ht : Stored m2 t) : Finds m1 m2 s t ↔ s ≠ [] ∨ t ≠ [] := by
  constructor
  · rintro ⟨len,-,hr⟩
    by_contra h
    simp only [not_or,not_not] at h
    obtain ⟨rfl,rfl⟩ := h
    have he : strstrBody m2 len (m1,0) = .inr none := if_pos hs.spells
    simpa using (returns_exit_iff he).mp hr
  · intro h
    exact ⟨t.length,by simpa using strlen_spells ht.spells ht.text,
      strstr_returns hs ht h (by simp)⟩

theorem strncmp_strstr_iff (hs : Stored m1 s) (ht : Stored m2 t) (n : ℕ) :
    Compares m1 m2 s t n ∧ Finds m1 m2 s t ↔ Comparable s t n ∧ (s ≠ [] ∨ t ≠ []) :=
  and_congr (compares_iff hs ht) (finds_iff hs ht)

end

def ofList (s : List Byte) : ℕ → Byte := fun i => s.getD i 0

theorem strncmp_strstr_letter : Compares (ofList [97]) (ofList [97]) [97] [97] 2 ∧
    Finds (ofList [97]) (ofList [97]) [97] [97] := by
  have hs : Stored (ofList [97]) [97] := ⟨⟨rfl,rfl⟩,by decide⟩
  exact (strncmp_strstr_iff hs hs 2).mpr ⟨by simp [Comparable],.inl (by simp)⟩

theorem strncmp_strstr_diverge : ¬ Compares (ofList []) (ofList []) [] [] 2 ∧
    ¬ Compares (ofList [128]) (ofList [97]) [128] [97] 1 ∧ ¬ Finds (ofList []) (ofList []) [] [] := by
  have hn : Stored (ofList []) [] := ⟨rfl,by decide⟩
  have hh : Stored (ofList [128]) [128] := ⟨⟨rfl,rfl⟩,by decide⟩
  have hl : Stored (ofList [97]) [97] := ⟨⟨rfl,rfl⟩,by decide⟩
  rw [compares_iff hn hn,compares_iff hh hl,finds_iff hn hn]
  simp [Comparable]

end Libc
