import RaphKernel.Library.Probing
import RaphKernel.Library.Bytes

namespace ArpRecords
open Bytes Probing Function Option

abbrev Address := BitVec 32
abbrev Mac := Vector Byte 6

abbrev Table := BitVec 8 → Address × Mac

def setup (memory : Table) : Table := fun i => (0,(memory i).2)

def hash (s : Address) : BitVec 8 := s.setWidth 8

def probe (s : BitVec 8) : BitVec 8 := s + 1

def index (t : Table) (ipaddr : Address) : Option (BitVec 8) :=
  search probe 0 t ipaddr 8 (hash ipaddr)

def add (t : Table) (ipaddr : Address) (macaddr : Mac) : Bool × Table :=
  match index t ipaddr with
  | none => (false,t)
  | some i => (true,if (t i).1 = 0 then update t i (ipaddr,macaddr) else t)

def find (t : Table) (ipaddr : Address) : Option Mac :=
  (index t ipaddr).bind fun i => if (t i).1 = 0 then none else some (t i).2

def existsRecord (t : Table) (ipaddr : Address) : Bool :=
  (index t ipaddr).any fun i => if (t i).1 = 0 then false else true

def run (memory : Table) (calls : List (Address × Mac)) : Table × List (Address × Mac) :=
  calls.foldl (fun s c => ((add s.1 c.1 c.2).2,if (add s.1 c.1 c.2).1 then s.2 ++ [c] else s.2))
    (setup memory,[])

abbrev Kept (t : Table) : Prop := Stored probe 0 hash 8 t

section
variable {t : Table} {log : List (Address × Mac)} {x ipaddr : Address} {m macaddr : Mac}

lemma Kept.find_iff (h : Kept t) : find t x = some m ↔ x ≠ 0 ∧ ∃ i, t i = (x,m) := by
  constructor
  · intro hf
    obtain ⟨i,hi,hf⟩ := bind_eq_some_iff.mp hf
    split_ifs at hf with hz
    have hx := (search_stop hi).resolve_left hz
    exact ⟨hx ▸ hz,i,Prod.ext hx (some.inj hf)⟩
  · rintro ⟨hx,i,hi⟩
    have hs : index t (t i).1 = some i := h i (by rwa [hi])
    rw [hi] at hs
    rw [find,hs,bind_some,hi,if_neg hx]

lemma Kept.add (h : Kept t) (ipaddr : Address) (macaddr : Mac) : Kept (add t ipaddr macaddr).2 := by
  unfold ArpRecords.add
  split
  · exact h
  · rename_i i hi
    split_ifs with hz
    · exact h.update hi hz
    · exact h

lemma Kept.find_zero (h : Kept t) : find t 0 = none :=
  eq_none_iff_forall_ne_some.mpr fun _ hf => (h.find_iff.mp hf).1 rfl

lemma Kept.find_add (h : Kept t) (hx : x ≠ 0) (ipaddr : Address) (macaddr : Mac) :
    find (ArpRecords.add t ipaddr macaddr).2 x = (find t x).or
      (if (ArpRecords.add t ipaddr macaddr).1 ∧ ipaddr = x then some macaddr else none) := by
  have ha := h.add ipaddr macaddr
  unfold ArpRecords.add at ha ⊢
  cases hi : index t ipaddr with
  | none => simp
  | some i =>
    simp only [hi] at ha
    by_cases hz : (t i).1 = 0
    · rw [if_pos hz] at ha
      simp only [hz,if_true,true_and]
      split_ifs with he
      · subst he
        have hn : find t ipaddr = none := by rw [find,hi,bind_some,if_pos hz]
        rw [hn,none_or]
        exact ha.find_iff.mpr ⟨hx,i,update_self ..⟩
      · rw [or_none]
        refine ext fun m => ?_
        rw [ha.find_iff,h.find_iff]
        refine and_congr_right fun _ => exists_congr fun j => ?_
        by_cases hj : j = i
        · subst hj
          rw [update_self]
          exact iff_of_false (fun e => he (congrArg Prod.fst e))
            fun e => hx ((congrArg Prod.fst e).symm.trans hz)
        · rw [update_of_ne hj]
    · have hs := (search_stop hi).resolve_left hz
      simp only [hz,if_false,true_and]
      split_ifs with he
      · subst he
        rw [find,hi,bind_some,if_neg hz,some_or]
      · rw [or_none]

lemma run_kept (memory : Table) (calls : List (Address × Mac)) : Kept (run memory calls).1 ∧
    ∀ x, x ≠ 0 → find (run memory calls).1 x =
      ((run memory calls).2.find? fun c => c.1 = x).map Prod.snd := by
  have hz : Kept (setup memory) := fun _ hj => absurd rfl hj
  refine List.foldlRecOn calls _ (motive := fun s : Table × List _ => Kept s.1 ∧ ∀ x, x ≠ 0 →
    find s.1 x = (s.2.find? fun c => c.1 = x).map Prod.snd) ⟨hz,fun x _ => ?_⟩ ?_
  · rfl
  · rintro ⟨t,log⟩ ⟨h,hl⟩ c -
    refine ⟨h.add c.1 c.2,fun x hx => ?_⟩
    rw [h.find_add hx,hl x hx]
    simp only
    split_ifs <;> simp_all

end

theorem arpTable_found (memory : Table) (calls : List (Address × Mac)) (x : Address) :
    let s := run memory calls
    find s.1 x = (if x = 0 then none else (s.2.find? fun c => c.1 = x).map Prod.snd) ∧
    existsRecord s.1 x = (find s.1 x).isSome ∧ ∀ ipaddr macaddr,
      ((add s.1 ipaddr macaddr).1 = false → (add s.1 ipaddr macaddr).2 = s.1) ∧
      find (add s.1 0 macaddr).2 x = find s.1 x := by
  obtain ⟨hk,hl⟩ := run_kept memory calls
  refine ⟨?_,?_,fun ipaddr macaddr => ⟨?_,?_⟩⟩
  · split_ifs with hx
    · exact hx ▸ hk.find_zero
    · exact hl x hx
  · unfold existsRecord find
    cases index (run memory calls).1 x with
    | none => rfl
    | some i =>
      rw [any_some,bind_some]
      split_ifs <;> rfl
  · unfold add
    split <;> simp
  · by_cases hx : x = 0
    · rw [hx,hk.find_zero,(hk.add 0 macaddr).find_zero]
    · rw [hk.find_add hx,if_neg fun h => hx h.2.symm,or_none]

end ArpRecords
