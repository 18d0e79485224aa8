import Mathlib.Algebra.Group.Nat.Defs
import RaphKernel.Library.Loop

namespace Records
open Loop

variable {w : ℕ} {S E : Type}

structure Walk (w : ℕ) (S : Type) where
  offset : BitVec w
  visited : List ℕ
  state : S

def step (len : ℕ → ℕ) (bound : ℕ) (visit : ℕ → S → Except E S) (k : Walk w S) :
    Sum (Walk w S) (List ℕ × Except E S) :=
  if k.offset.toNat < bound then
    match visit k.offset.toNat k.state with
    | .ok s => .inl ⟨k.offset + BitVec.ofNat w (len k.offset.toNat),k.visited ++ [k.offset.toNat],s⟩
    | .error e => .inr (k.visited ++ [k.offset.toNat],.error e)
  else .inr (k.visited,.ok k.state)

inductive Chain (len : ℕ → ℕ) (stop : ℕ) : ℕ → List ℕ → Prop
  | done : Chain len stop stop []
  | record {p : ℕ} {ps : List ℕ} : p < stop → 0 < len p → p + len p ≤ stop →
    Chain len stop (p + len p) ps → Chain len stop p (p :: ps)

def run (visit : ℕ → S → Except E S) : List ℕ → S → List ℕ × Except E S
  | [], s => ([],.ok s)
  | p :: ps, s =>
    match visit p s with
    | .ok s => (p :: (run visit ps s).1,(run visit ps s).2)
    | .error e => ([p],.error e)

variable {len : ℕ → ℕ} {bound p : ℕ} {visit : ℕ → S → Except E S} {ps : List ℕ} {s s' : S}
  {visited : List ℕ} {k : Walk w S}

lemma run_cons_ok (h : visit p s = .ok s') :
    run visit (p :: ps) s = (p :: (run visit ps s').1,(run visit ps s').2) := by
  rw [run,h]

lemma run_cons_error {e : E} (h : visit p s = .error e) :
    run visit (p :: ps) s = ([p],.error e) := by
  rw [run,h]

lemma run_initial (visit : ℕ → S → Except E S) (ps : List ℕ) (s : S) :
    (run visit ps s).1 <+: ps := by
  induction ps generalizing s with
  | nil => exact ⟨[],rfl⟩
  | cons p ps ih =>
    cases hv : visit p s with
    | ok s' =>
      rw [run_cons_ok hv]
      exact List.cons_prefix_cons.mpr ⟨rfl,ih s'⟩
    | error e =>
      rw [run_cons_error hv]
      exact ⟨ps,rfl⟩

lemma run_complete (h : (run visit ps s).2 = .ok s') : (run visit ps s).1 = ps := by
  induction ps generalizing s with
  | nil => rfl
  | cons p ps ih =>
    cases hv : visit p s with
    | ok t =>
      rw [run_cons_ok hv] at h ⊢
      rw [ih h]
    | error e =>
      rw [run_cons_error hv] at h
      cases h

lemma step_ok (hlt : k.offset.toNat < bound) (hv : visit k.offset.toNat k.state = .ok s) :
    step len bound visit k = .inl ⟨k.offset + BitVec.ofNat w (len k.offset.toNat),
      k.visited ++ [k.offset.toNat],s⟩ := by
  rw [step,if_pos hlt,hv]

lemma step_error {e : E} (hlt : k.offset.toNat < bound)
    (hv : visit k.offset.toNat k.state = .error e) :
    step len bound visit k = .inr (k.visited ++ [k.offset.toNat],.error e) := by
  rw [step,if_pos hlt,hv]

lemma step_exit (hle : bound ≤ k.offset.toNat) :
    step len bound visit k = .inr (k.visited,.ok k.state) := by
  rw [step,if_neg (not_lt.mpr hle)]

lemma offset_next {off : BitVec w} (h : off.toNat + len off.toNat < 2 ^ w) :
    (off + BitVec.ofNat w (len off.toNat)).toNat = off.toNat + len off.toNat := by
  rw [BitVec.toNat_add,BitVec.toNat_ofNat,Nat.add_mod_mod,Nat.mod_eq_of_lt h]

lemma Chain.pos (h : Chain len bound p ps) (hlt : p < bound) : 0 < len p := by
  cases h with
  | done => exact absurd hlt (lt_irrefl _)
  | record _ hp _ _ => exact hp

lemma Chain.inside (h : Chain len bound p ps) : ∀ q ∈ ps, q + len q ≤ bound := by
  induction h with
  | done => exact fun q hq => absurd hq List.not_mem_nil
  | record _ _ hle _ ih => exact List.forall_mem_cons.mpr ⟨hle,ih⟩

lemma Chain.returns (h : Chain len bound p ps) (hb : bound < 2 ^ w) (visit : ℕ → S → Except E S) :
    ∀ k : Walk w S, k.offset.toNat = p → Returns (step len bound visit) k
      (k.visited ++ (run visit ps k.state).1,(run visit ps k.state).2) := by
  induction h with
  | done =>
    intro k hk
    rw [run,List.append_nil]
    exact returns_of_exit (step_exit (Nat.le_of_eq hk.symm))
  | @record p ps hlt _ hle _ ih =>
    rintro k rfl
    cases hv : visit k.offset.toNat k.state with
    | error e =>
      rw [run_cons_error hv]
      exact returns_of_exit (step_error hlt hv)
    | ok s =>
      rw [run_cons_ok hv]
      refine (returns_step_iff (step_ok hlt hv)).mpr ?_
      have hr := ih ⟨k.offset + BitVec.ofNat w _,
        k.visited ++ [k.offset.toNat],s⟩ (offset_next (by omega))
      rw [List.append_assoc] at hr
      exact hr

lemma iterate_visited {n : ℕ} {r : List ℕ × Except E S}
    (h : iterate (step len bound visit) n k = some r) : k.visited ⊆ r.1 := by
  induction n generalizing k with
  | zero => cases h
  | succ n ih =>
    rw [iterate] at h
    by_cases hlt : k.offset.toNat < bound
    · cases hv : visit k.offset.toNat k.state with
      | error e =>
        rw [step_error hlt hv] at h
        cases h
        exact List.subset_append_left _ _
      | ok s =>
        rw [step_ok hlt hv] at h
        exact List.Subset.trans (List.subset_append_left _ _) (ih h)
    · rw [step_exit (not_lt.mp hlt)] at h
      cases h
      exact List.Subset.refl _

-- induction on the fuel: a visited record that stays inside keeps the offset from wrapping
lemma chain_of_iterate {n : ℕ} (hb : bound < 2 ^ w) (hk : k.offset.toNat ≤ bound)
    {s : S} (h : iterate (step len bound visit) n k = some (visited,.ok s))
    (hin : ∀ p ∈ visited, p + len p ≤ bound) : ∃ ps, Chain len bound k.offset.toNat ps := by
  induction n generalizing k with
  | zero => cases h
  | succ n ih =>
    rw [iterate] at h
    by_cases hlt : k.offset.toNat < bound
    · cases hv : visit k.offset.toNat k.state with
      | error e =>
        rw [step_error hlt hv] at h
        cases h
      | ok s =>
        rw [step_ok hlt hv] at h
        have hm := iterate_visited h (List.mem_append_right _ (List.mem_singleton_self _))
        have hle := hin _ hm
        have hn : (k.offset + BitVec.ofNat w (len k.offset.toNat)).toNat =
          k.offset.toNat + len k.offset.toNat := offset_next (by omega)
        obtain ⟨ps,hps⟩ := ih (by rw [hn]; exact hle) h
        rw [hn] at hps
        have hp : 0 < len k.offset.toNat := by
          by_contra hzero
          rw [Nat.eq_zero_of_not_pos hzero,Nat.add_zero] at hps
          exact hzero (hps.pos hlt)
        exact ⟨_,.record hlt hp hle hps⟩
    · exact ⟨[],le_antisymm hk (not_lt.mp hlt) ▸ .done⟩

def Walk.begin (s : S) : Walk w S := ⟨0,[],s⟩

lemma begin_offset (s : S) : (Walk.begin s : Walk w S).offset.toNat = 0 := BitVec.toNat_ofNat ..

lemma chain_of_returns (hb : bound < 2 ^ w)
    (h : Returns (step len bound visit) (Walk.begin s : Walk w S) (visited,.ok s'))
    (hin : ∀ p ∈ visited, p + len p ≤ bound) : Chain len bound 0 visited := by
  obtain ⟨n,hn⟩ := h
  obtain ⟨ps,hps⟩ := chain_of_iterate hb (by rw [begin_offset]; exact Nat.zero_le _) hn hin
  rw [begin_offset] at hps
  have hr := returns_unique ⟨n,hn⟩ (hps.returns hb visit _ (begin_offset s))
  obtain ⟨hv,hs⟩ := Prod.mk.inj hr
  rw [run_complete hs.symm] at hv
  rw [hv]
  exact hps

lemma run_total (hv : ∀ p s, ∃ s', visit p s = .ok s') (ps : List ℕ) (s : S) :
    ∃ s', run visit ps s = (ps,.ok s') := by
  induction ps generalizing s with
  | nil => exact ⟨s,rfl⟩
  | cons p ps ih =>
    obtain ⟨t,ht⟩ := hv p s
    obtain ⟨s',hs'⟩ := ih t
    exact ⟨s',by rw [run_cons_ok ht,hs']⟩

lemma iterate_trapped {P : BitVec w → Prop} (hlt : ∀ off, P off → off.toNat < bound)
    (hn : ∀ off, P off → P (off + BitVec.ofNat w (len off.toNat)))
    (hv : ∀ p s, ∃ s', visit p s = .ok s') (n : ℕ) :
    ∀ k, P k.offset → iterate (step len bound visit) n k = none := by
  induction n with
  | zero => exact fun _ _ => rfl
  | succ n ih =>
    intro k hk
    obtain ⟨s,hs⟩ := hv k.offset.toNat k.state
    rw [iterate,step_ok (hlt _ hk) hs]
    exact ih _ (hn _ hk)

lemma iterate_unbounded (hb : 2 ^ w ≤ bound) (hv : ∀ p s, ∃ s', visit p s = .ok s') (n : ℕ)
    (k : Walk w S) : iterate (step len bound visit) n k = none :=
  iterate_trapped (P := fun _ => True) (fun off _ => lt_of_lt_of_le off.isLt hb)
    (fun _ _ => trivial) hv n k trivial

lemma iterate_stuck (hlt : k.offset.toNat < bound) (hl : len k.offset.toNat = 0)
    (hv : ∀ p s, ∃ s', visit p s = .ok s') (n : ℕ) : iterate (step len bound visit) n k = none := by
  refine iterate_trapped (P := fun off => off = k.offset) ?_ ?_ hv n k rfl
  · rintro off rfl
    exact hlt
  · rintro off rfl
    rw [hl,BitVec.add_zero]

end Records
