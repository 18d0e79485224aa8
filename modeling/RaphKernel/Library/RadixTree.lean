import Mathlib.Data.List.Infix

namespace RadixTree
open Function List

inductive Slot (P : Type) where
  | absent
  | leaf
  | table (page : P)
  deriving DecidableEq, Repr

variable {P I E : Type} (view : ℕ → E → Slot P)

def walk (heap : P → I → E) : ℕ → P → List I → Option (ℕ × E)
  | _, _, [] => none
  | d, p, i :: rest =>
    match view d (heap p i) with
    | .absent => none
    | .leaf => some (d,heap p i)
    | .table q => walk heap (d + 1) q rest

def tableAt (heap : P → I → E) : ℕ → P → List I → Option P
  | _, p, [] => some p
  | d, p, i :: rest =>
    match view d (heap p i) with
    | .absent => none
    | .leaf => none
    | .table q => tableAt heap (d + 1) q rest

def Reaches (heap : P → I → E) (root page : P) : Prop :=
  ∃ path, tableAt view heap 0 root path = some page

def Distinct (heap : P → I → E) (root : P) : Prop :=
  ∀ page path other, tableAt view heap 0 root path = some page →
    tableAt view heap 0 root other = some page → path = other

def Agrees (heap heap' : P → I → E) (d : ℕ) (p : P) (path : List I) : Prop :=
  ∀ pre i q, pre ++ [i] <+: path → tableAt view heap d p pre = some q → heap' q i = heap q i

variable {view} {heap heap' : P → I → E} {root page : P} {path other : List I}

lemma tableAt_append (d : ℕ) (p : P) (path other : List I) :
    tableAt view heap d p (path ++ other) =
      (tableAt view heap d p path).bind (fun q => tableAt view heap (d + path.length) q other) := by
  induction path generalizing d p with
  | nil => rfl
  | cons i path ih =>
    simp only [List.cons_append,tableAt]
    cases view d (heap p i) with
    | absent => rfl
    | leaf => rfl
    | table q => simp only [ih,length_cons,Nat.add_right_comm d 1,Nat.add_assoc d]

lemma walk_append {d : ℕ} {p q : P} (h : tableAt view heap d p path = some q) (other : List I) :
    walk view heap d p (path ++ other) = walk view heap (d + path.length) q other := by
  induction path generalizing d p with
  | nil =>
    cases h
    rfl
  | cons i path ih =>
    simp only [tableAt] at h
    simp only [List.cons_append,walk]
    cases hv : view d (heap p i) with
    | absent | leaf => simp [hv] at h
    | table r =>
      rw [hv] at h
      simp only [ih h,length_cons,Nat.add_right_comm d 1,Nat.add_assoc d]

lemma Agrees.head {d : ℕ} {p : P} {i : I} {rest : List I}
    (h : Agrees view heap heap' d p (i :: rest)) : heap' p i = heap p i :=
  h [] i p ⟨rest,rfl⟩ rfl

lemma Agrees.tail {d : ℕ} {p q : P} {i : I} {rest : List I}
    (h : Agrees view heap heap' d p (i :: rest)) (hq : view d (heap p i) = .table q) :
    Agrees view heap heap' (d + 1) q rest := by
  intro pre j r hpr hr
  refine h (i :: pre) j r (cons_prefix_cons.mpr ⟨rfl,hpr⟩) ?_
  simpa [tableAt,hq] using hr

lemma tableAt_congr {d : ℕ} {p : P} (h : Agrees view heap heap' d p path) :
    tableAt view heap' d p path = tableAt view heap d p path := by
  induction path generalizing d p with
  | nil => rfl
  | cons i path ih =>
    simp only [tableAt,h.head]
    cases hv : view d (heap p i) with
    | absent => rfl
    | leaf => rfl
    | table q => exact ih (h.tail hv)

lemma walk_congr {d : ℕ} {p : P} (h : Agrees view heap heap' d p path) :
    walk view heap' d p path = walk view heap d p path := by
  induction path generalizing d p with
  | nil => rfl
  | cons i path ih =>
    simp only [walk,h.head]
    cases hv : view d (heap p i) with
    | absent => rfl
    | leaf => rfl
    | table q => exact ih (h.tail hv)

lemma distinct_congr (h : ∀ path, tableAt view heap' 0 root path = tableAt view heap 0 root path)
    (hd : Distinct view heap root) : Distinct view heap' root := by
  intro page path other hp ho
  exact hd page path other (by rw [← h,hp]) (by rw [← h,ho])

lemma walk_view {d k : ℕ} {p : P} {e : E} (h : walk view heap d p path = some (k,e)) :
    view k e = .leaf := by
  induction path generalizing d p with
  | nil => cases h
  | cons i rest ih =>
    rw [walk] at h
    cases hv : view d (heap p i) with
    | absent =>
      rw [hv] at h
      cases h
    | leaf =>
      rw [hv] at h
      cases h
      exact hv
    | table q =>
      rw [hv] at h
      exact ih h

lemma blank_walk {blank : E} {q : P} (hb : ∀ d, view d blank = .absent)
    (hq : ∀ i, heap q i = blank) (d : ℕ) (path : List I) : walk view heap d q path = none := by
  cases path with
  | nil => rfl
  | cons i rest => simp [walk,hq,hb]

lemma blank_tableAt {blank : E} {q : P} (hb : ∀ d, view d blank = .absent)
    (hq : ∀ i, heap q i = blank) {d : ℕ} {path : List I} {r : P}
    (h : tableAt view heap d q path = some r) : path = [] ∧ r = q := by
  cases path with
  | nil => exact ⟨rfl,(Option.some.inj h).symm⟩
  | cons i rest => simp [tableAt,hq,hb] at h

lemma single_walk {blank : E} {p q : P} {d : ℕ} {i : I} (hb : ∀ d, view d blank = .absent)
    (hp : ∀ j, j ≠ i → heap p j = blank) (hi : view d (heap p i) = .table q)
    (hq : ∀ rest, walk view heap (d + 1) q rest = none) (path : List I) :
    walk view heap d p path = none := by
  cases path with
  | nil => rfl
  | cons j rest =>
    by_cases hj : j = i
    · simp [walk,hj,hi,hq]
    · simp [walk,hp j hj,hb]

lemma single_tableAt {blank : E} {p q r : P} {d : ℕ} {i : I}
    (hb : ∀ d, view d blank = .absent) (hp : ∀ j, j ≠ i → heap p j = blank)
    (hi : view d (heap p i) = .table q) {path : List I}
    (h : tableAt view heap d p path = some r) :
    path = [] ∧ r = p ∨ ∃ rest, path = i :: rest ∧ tableAt view heap (d + 1) q rest = some r := by
  cases path with
  | nil => exact .inl ⟨rfl,(Option.some.inj h).symm⟩
  | cons j rest =>
    by_cases hj : j = i
    · subst hj
      exact .inr ⟨rest,rfl,by simpa [tableAt,hi] using h⟩
    · simp [tableAt,hp j hj,hb] at h

section
variable (hp : tableAt view heap 0 root path = some page)
include hp

lemma absent_tableAt {i : I} (h : view path.length (heap page i) = .absent) (rest : List I) :
    tableAt view heap 0 root (path ++ i :: rest) = none := by
  rw [tableAt_append,hp]
  simp [tableAt,h]

lemma absent_walk {i : I} (h : view path.length (heap page i) = .absent) (rest : List I) :
    walk view heap 0 root (path ++ i :: rest) = none := by
  rw [walk_append hp]
  simp [walk,h]

lemma tableAt_snoc {i : I} {q : P} (h : view path.length (heap page i) = .table q) :
    tableAt view heap 0 root (path ++ [i]) = some q := by
  rw [tableAt_append,hp]
  simp [tableAt,h]

lemma leaf_walk {i : I} (h : view path.length (heap page i) = .leaf) (rest : List I) :
    walk view heap 0 root (path ++ i :: rest) = some (path.length,heap page i) := by
  rw [walk_append hp]
  simp [walk,h]

end

lemma not_extends_self (path : List I) (i : I) : ¬ path ++ [i] <+: path := by
  intro h
  have hle := h.length_le
  rw [length_append,length_singleton] at hle
  exact Nat.not_succ_le_self _ hle

structure Attachable (view : ℕ → E → Slot P) (heap : P → I → E) (root page : P) (path : List I)
    (i : I) (q : P) (blank link : E) : Prop where
  distinct : Distinct view heap root
  place : tableAt view heap 0 root path = some page
  absent : view path.length (heap page i) = .absent
  fresh : ¬ Reaches view heap root q
  blank : ∀ d, view d blank = .absent
  link : view path.length link = .table q

lemma Attachable.ne {i : I} {q : P} {blank link : E}
    (h : Attachable view heap root page path i q blank link) : q ≠ page := by
  rintro rfl
  exact h.fresh ⟨path,h.place⟩

section

variable [DecidableEq P]

def clear (heap : P → I → E) (page : P) (blank : E) : P → I → E :=
  update heap page (fun _ => blank)

lemma clear_here (heap : P → I → E) (page : P) (blank : E) (i : I) :
    clear heap page blank page i = blank := by simp [clear]

lemma clear_other (heap : P → I → E) {page q : P} (blank : E) (h : q ≠ page) :
    clear heap page blank q = heap q := by simp [clear,h]

lemma clear_agrees (hf : ¬ Reaches view heap root page) (blank : E) (other : List I) :
    Agrees view heap (clear heap page blank) 0 root other := by
  intro pre j q _ hq
  have hne : q ≠ page := by
    rintro rfl
    exact hf ⟨pre,hq⟩
  rw [clear_other heap blank hne]

lemma Attachable.cleared {i : I} {q : P} {blank link : E}
    (h : Attachable view heap root page path i q blank link)
    (other : List I) :
    tableAt view (clear heap q blank) 0 root other = tableAt view heap 0 root other :=
  tableAt_congr (clear_agrees h.fresh blank other)

variable [DecidableEq I]

def write (heap : P → I → E) (page : P) (i : I) (e : E) : P → I → E :=
  update heap page (update (heap page) i e)

lemma write_here (heap : P → I → E) (page : P) (i : I) (e : E) : write heap page i e page i = e := by
  simp [write]

lemma write_other (heap : P → I → E) {page q : P} {i j : I} (e : E) (h : q ≠ page ∨ j ≠ i) :
    write heap page i e q j = heap q j := by
  rcases eq_or_ne q page with rfl | hq
  · simp [write,h.resolve_left (not_not.mpr rfl)]
  · simp [write,hq]

section
variable (hd : Distinct view heap root) (hp : tableAt view heap 0 root path = some page)
include hd hp

lemma write_agrees {i : I} (e : E) (hn : ¬ path ++ [i] <+: other) :
    Agrees view heap (write heap page i e) 0 root other := by
  intro pre j q hpr hq
  apply write_other
  by_contra hc
  obtain ⟨rfl,rfl⟩ : q = page ∧ j = i := by simpa [not_or] using hc
  exact hn (hd q path pre hp hq ▸ hpr)

lemma write_tableAt_self (i : I) (e : E) :
    tableAt view (write heap page i e) 0 root path = some page := by
  rw [tableAt_congr (write_agrees hd hp e (not_extends_self path i)),hp]

lemma write_leaf_walk {i : I} {e : E} (he : view path.length e = .leaf) (rest : List I) :
    walk view (write heap page i e) 0 root (path ++ i :: rest) = some (path.length,e) := by
  rw [leaf_walk (write_tableAt_self hd hp i e) (by rw [write_here,he]),write_here]

lemma write_leaf_tableAt {i : I} {e : E} (hi : view path.length (heap page i) = .absent)
    (he : view path.length e = .leaf) (other : List I) :
    tableAt view (write heap page i e) 0 root other = tableAt view heap 0 root other := by
  rcases Classical.em (path ++ [i] <+: other) with ⟨rest,rfl⟩ | hn
  · rw [List.append_assoc]
    rw [singleton_append,absent_tableAt hp hi,tableAt_append,write_tableAt_self hd hp i e]
    simp [tableAt,write_here,he]
  · exact tableAt_congr (write_agrees hd hp e hn)

lemma write_leaf_other {i : I} (e : E) (hn : ¬ path ++ [i] <+: other) :
    walk view (write heap page i e) 0 root other = walk view heap 0 root other :=
  walk_congr (write_agrees hd hp e hn)

end

def attach (heap : P → I → E) (page : P) (i : I) (q : P) (blank link : E) : P → I → E :=
  write (clear heap q blank) page i link

lemma attach_other (heap : P → I → E) {page q r : P} {i j : I} (blank link : E) (hq : r ≠ q)
    (h : r ≠ page ∨ j ≠ i) : attach heap page i q blank link r j = heap r j := by
  rw [attach,write_other _ _ h,clear_other _ _ hq]

section

variable {i : I} {q : P} {blank link : E}

section
variable (h : Attachable view heap root page path i q blank link)
include h

lemma Attachable.agrees (hn : ¬ path ++ [i] <+: other) :
    Agrees view (clear heap q blank) (attach heap page i q blank link) 0 root other :=
  write_agrees (distinct_congr h.cleared h.distinct) (by rw [h.cleared,h.place]) link hn

lemma Attachable.row (j : I) : attach heap page i q blank link q j = blank := by
  rw [attach,write_other _ _ (.inl h.ne),clear_here]

lemma Attachable.place_after :
    tableAt view (attach heap page i q blank link) 0 root path = some page := by
  rw [tableAt_congr (h.agrees (not_extends_self path i)),h.cleared,h.place]

lemma attach_tableAt_below (rest : List I) :
    tableAt view (attach heap page i q blank link) 0 root (path ++ i :: rest) =
      tableAt view (attach heap page i q blank link) (path.length + 1) q rest := by
  rw [tableAt_append,h.place_after]
  simp [tableAt,attach,write_here,h.link]

lemma attach_tableAt_other (hn : ¬ path ++ [i] <+: other) :
    tableAt view (attach heap page i q blank link) 0 root other = tableAt view heap 0 root other := by
  rw [tableAt_congr (h.agrees hn),h.cleared]

lemma attach_tableAt_inv {r : P}
    (hr : tableAt view (attach heap page i q blank link) 0 root other = some r) :
    (r = q ∧ other = path ++ [i]) ∨ tableAt view heap 0 root other = some r := by
  rcases Classical.em (path ++ [i] <+: other) with ⟨rest,rfl⟩ | hn
  · rw [List.append_assoc,singleton_append,attach_tableAt_below h] at hr
    obtain ⟨rfl,rfl⟩ := blank_tableAt h.blank h.row hr
    exact .inl ⟨rfl,append_nil _⟩
  · exact .inr (attach_tableAt_other h hn ▸ hr)

lemma attach_tableAt_kept {r : P} (hr : tableAt view heap 0 root other = some r) :
    tableAt view (attach heap page i q blank link) 0 root other = some r := by
  rw [attach_tableAt_other h ?_,hr]
  rintro ⟨rest,rfl⟩
  rw [List.append_assoc,singleton_append,absent_tableAt h.place h.absent] at hr
  cases hr

lemma attach_distinct : Distinct view (attach heap page i q blank link) root := by
  intro r p o hp ho
  rcases attach_tableAt_inv h hp with ⟨rfl,rfl⟩ | hp'
  · rcases attach_tableAt_inv h ho with ⟨_,rfl⟩ | ho'
    · rfl
    · exact absurd ⟨o,ho'⟩ h.fresh
  · rcases attach_tableAt_inv h ho with ⟨rfl,_⟩ | ho'
    · exact absurd ⟨p,hp'⟩ h.fresh
    · exact h.distinct r p o hp' ho'

lemma attach_walk (other : List I) :
    walk view (attach heap page i q blank link) 0 root other = walk view heap 0 root other := by
  rcases Classical.em (path ++ [i] <+: other) with ⟨rest,rfl⟩ | hn
  · rw [List.append_assoc,singleton_append,absent_walk h.place h.absent,walk_append h.place_after]
    simp [walk,attach,write_here,h.link]
    exact blank_walk h.blank h.row _ _
  · rw [walk_congr (h.agrees hn),walk_congr (clear_agrees h.fresh blank other)]

end

end

end

end RadixTree
