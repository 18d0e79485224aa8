import Mathlib.Data.List.Nodup
import Mathlib.Logic.Relation

namespace Links
open List

variable {P : Type} {next prev next' prev' : P → Option P} {head tail t : P} {l l₁ l₂ : List P}

def final : P → List P → P
  | p, [] => p
  | _, q :: rest => final q rest

lemma final_append (p : P) (l₁ l₂ : List P) : final p (l₁ ++ l₂) = final (final p l₁) l₂ := by
  induction l₁ generalizing p with
  | nil => rfl
  | cons q rest ih => exact ih q

lemma final_mem (p : P) (l : List P) : final p l ∈ p :: l := by
  induction l generalizing p with
  | nil => exact mem_singleton.mpr rfl
  | cons q rest ih => exact mem_cons_of_mem p (ih q)

def Follows (next : P → Option P) : P → List P → Prop
  | _, [] => True
  | p, q :: rest => next p = some q ∧ Follows next q rest

def Precedes (prev : P → Option P) : P → List P → Prop
  | _, [] => True
  | p, q :: rest => prev q = some p ∧ Precedes prev q rest

lemma follows_append {p : P} :
    Follows next p (l₁ ++ l₂) ↔ Follows next p l₁ ∧ Follows next (final p l₁) l₂ := by
  induction l₁ generalizing p with
  | nil => simp [Follows,final]
  | cons q rest ih => simp [Follows,final,ih,and_assoc]

lemma precedes_append {p : P} :
    Precedes prev p (l₁ ++ l₂) ↔ Precedes prev p l₁ ∧ Precedes prev (final p l₁) l₂ := by
  induction l₁ generalizing p with
  | nil => simp [Precedes,final]
  | cons q rest ih => simp [Precedes,final,ih,and_assoc]

lemma follows_reaches {p q : P} (h : Follows next p l) (hq : q ∈ p :: l) :
    Relation.ReflTransGen (fun a b => next a = some b) p q := by
  induction l generalizing p with
  | nil =>
    rw [mem_singleton.mp hq]
  | cons r rest ih =>
    rcases mem_cons.mp hq with rfl | hq
    · exact .refl
    · exact .head h.1 (ih h.2 hq)

lemma follows_congr {p : P} (h : Follows next p l) (hd : (p :: l).Nodup)
    (hn : ∀ x ∈ p :: l, x ≠ final p l → next' x = next x) : Follows next' p l := by
  induction l generalizing p with
  | nil => trivial
  | cons q rest ih =>
    obtain ⟨hno,hd'⟩ := nodup_cons.mp hd
    refine ⟨?_,ih h.2 hd' (fun x hx hne => hn x (mem_cons_of_mem p hx) hne)⟩
    rw [hn p (by simp) (fun he => hno (he ▸ final_mem q rest)),h.1]

lemma precedes_congr {p : P} (h : Precedes prev p l) (hp : ∀ x ∈ l, prev' x = prev x) :
    Precedes prev' p l := by
  induction l generalizing p with
  | nil => trivial
  | cons q rest ih =>
    refine ⟨?_,ih h.2 (fun x hx => hp x (mem_cons_of_mem q hx))⟩
    rw [hp q (by simp),h.1]

structure Sll (next : P → Option P) (head : P) (l : List P) : Prop where
  linked : Follows next head l
  stop : next (final head l) = none
  nodup : (head :: l).Nodup

lemma Sll.congr (h : Sll next head l) (hn : ∀ x ∈ head :: l, next' x = next x) :
    Sll next' head l :=
  ⟨follows_congr h.linked h.nodup (fun x hx _ => hn x hx),
    (hn _ (final_mem head l)).trans h.stop,h.nodup⟩

lemma Sll.after (h : Sll next head (l₁ ++ l₂)) : next (final head l₁) = l₂.head? := by
  have hs := h.stop
  rw [final_append] at hs
  cases l₂ with
  | nil => exact hs
  | cons n rest => exact (follows_append.mp h.linked).2.1

lemma Sll.first (h : Sll next head l) : next head = l.head? := by
  have ha : Sll next head ([] ++ l) := h
  exact ha.after

lemma Sll.next_eq (h : Sll next head (l₁ ++ t :: l₂)) : next t = l₂.head? := by
  have hs : l₁ ++ t :: l₂ = (l₁ ++ [t]) ++ l₂ := by simp
  rw [hs] at h
  have ha := h.after
  rwa [final_append] at ha

lemma Sll.parts (h : Sll next head (l₁ ++ l₂)) :
    (head :: l₁).Nodup ∧ l₂.Nodup ∧ ∀ x ∈ head :: l₁, x ∉ l₂ := by
  have hd := h.nodup
  rw [← List.cons_append] at hd
  obtain ⟨h1,h2,hdi⟩ := nodup_append.mp hd
  exact ⟨h1,h2,fun x hx hy => hdi x hx x hy rfl⟩

lemma Sll.notMem (h : Sll next head (l₁ ++ t :: l₂)) : t ∉ head :: (l₁ ++ l₂) := by
  have hp : Perm (head :: (l₁ ++ t :: l₂)) (t :: (head :: (l₁ ++ l₂))) :=
    (Perm.cons _ perm_middle).trans (Perm.swap _ _ _)
  exact (nodup_cons.mp (hp.nodup_iff.mp h.nodup)).1

lemma kept_after (hf : final head l₁ ∉ l₂)
    (hn : ∀ x ∈ head :: (l₁ ++ l₂), x ≠ final head l₁ → next' x = next x) :
    ∀ x ∈ l₂, next' x = next x := by
  intro x hx
  refine hn x (mem_cons_of_mem head (mem_append_right l₁ hx)) ?_
  rintro rfl
  exact hf hx

lemma Sll.insert (h : Sll next head (l₁ ++ l₂)) (ht : t ∉ head :: (l₁ ++ l₂))
    (hl : next' (final head l₁) = some t) (hnw : next' t = l₂.head?)
    (hn : ∀ x ∈ head :: (l₁ ++ l₂), x ≠ final head l₁ → next' x = next x) :
    Sll next' head (l₁ ++ t :: l₂) := by
  obtain ⟨hd1,hd2,hd⟩ := h.parts
  obtain ⟨hl1,hl2⟩ := follows_append.mp h.linked
  have hn2 := kept_after (hd _ (final_mem head l₁)) hn
  refine ⟨follows_append.mpr ⟨?_,hl,?_⟩,?_,?_⟩
  · exact follows_congr hl1 hd1 (fun x hx hne =>
      hn x (List.cons_append ▸ mem_append_left l₂ hx) hne)
  · cases l₂ with
    | nil => trivial
    | cons n rest => exact ⟨hnw,follows_congr hl2.2 hd2 (fun x hx _ => hn2 x hx)⟩
  · have hs := h.stop
    rw [final_append] at hs ⊢
    cases l₂ with
    | nil => exact hnw
    | cons n rest => exact (hn2 _ (final_mem n rest)).trans hs
  · have hp : Perm (t :: (head :: (l₁ ++ l₂))) (head :: (l₁ ++ t :: l₂)) :=
      (Perm.swap head t _).trans (Perm.cons head perm_middle.symm)
    exact hp.nodup (nodup_cons.mpr ⟨ht,h.nodup⟩)

lemma Sll.push (h : Sll next head l) (ht : t ∉ head :: l) (hl : next' (final head l) = some t)
    (hs : next' t = none) (hn : ∀ x ∈ head :: l, x ≠ final head l → next' x = next x) :
    Sll next' head (l ++ [t]) := by
  rw [← append_nil l] at h ht hn
  exact h.insert ht (by simpa using hl) hs (by simpa using hn)

lemma Sll.unlink (h : Sll next head (l₁ ++ t :: l₂)) (hl : next' (final head l₁) = next t)
    (hn : ∀ x ∈ head :: (l₁ ++ l₂), x ≠ final head l₁ → next' x = next x) :
    Sll next' head (l₁ ++ l₂) := by
  obtain ⟨hd1,hd2,hd⟩ := h.parts
  obtain ⟨hl1,_,hl2⟩ := follows_append.mp h.linked
  have hnt := h.next_eq
  have hn2 := kept_after (fun hf => hd _ (final_mem head l₁) (mem_cons_of_mem t hf)) hn
  refine ⟨follows_append.mpr ⟨?_,?_⟩,?_,?_⟩
  · exact follows_congr hl1 hd1 (fun x hx hne =>
      hn x (List.cons_append ▸ mem_append_left l₂ hx) hne)
  · cases l₂ with
    | nil => trivial
    | cons n rest =>
      exact ⟨hl.trans hnt,follows_congr hl2.2 (nodup_cons.mp hd2).2 (fun x hx _ => hn2 x hx)⟩
  · have hs := h.stop
    rw [final_append] at hs ⊢
    cases l₂ with
    | nil => exact hl.trans hs
    | cons n rest => exact (hn2 _ (final_mem n rest)).trans hs
  · have hsu : Sublist (head :: (l₁ ++ l₂)) (head :: (l₁ ++ t :: l₂)) := by simp
    exact hsu.nodup h.nodup

structure Dll (next prev : P → Option P) (head tail : P) (l : List P) : Prop where
  forward : Sll next head l
  back : Precedes prev head l
  last : final head l = tail

lemma Dll.congr (h : Dll next prev head tail l) (hn : ∀ x ∈ head :: l, next' x = next x)
    (hp : ∀ x ∈ l, prev' x = prev x) : Dll next' prev' head tail l :=
  ⟨h.forward.congr hn,precedes_congr h.back hp,h.last⟩

lemma Dll.tail_mem (h : Dll next prev head tail l) : tail ∈ head :: l := h.last ▸ final_mem head l

lemma Dll.push (h : Dll next prev head tail l) (ht : t ∉ head :: l)
    (hl : next' tail = some t) (hs : next' t = none) (hba : prev' t = some tail)
    (hn : ∀ x ∈ head :: l, x ≠ tail → next' x = next x) (hp : ∀ x ∈ l, prev' x = prev x) :
    Dll next' prev' head t (l ++ [t]) := by
  obtain ⟨hf,hb,rfl⟩ := h
  refine ⟨?_,precedes_append.mpr ⟨precedes_congr hb hp,hba,trivial⟩,final_append _ _ _⟩
  exact hf.push ht hl hs hn

section
variable (h : Dll next prev head tail (l₁ ++ t :: l₂))
include h

lemma Dll.prev_eq : prev t = some (final head l₁) := (precedes_append.mp h.back).2.1


lemma Dll.tail_iff : t = tail ↔ l₂ = [] := by
  have hl := h.last
  rw [final_append] at hl
  cases l₂ with
  | nil => exact iff_of_true hl rfl
  | cons n rest =>
    refine iff_of_false ?_ (cons_ne_nil n rest)
    rintro rfl
    have hd := (h.forward.parts).2.1
    have hm := final_mem n rest
    exact (nodup_cons.mp hd).1 (hl ▸ hm)

lemma Dll.unlink (hli : next' (final head l₁) = next t)
    (hb : ∀ n, next t = some n → prev' n = some (final head l₁))
    (hn : ∀ x ∈ head :: (l₁ ++ l₂), x ≠ final head l₁ → next' x = next x)
    (hp : ∀ x ∈ l₁ ++ l₂, next t ≠ some x → prev' x = prev x) :
    Dll next' prev' head (if l₂ = [] then final head l₁ else tail) (l₁ ++ l₂) := by
  obtain ⟨_,hd2,hd⟩ := h.forward.parts
  obtain ⟨hb1,_,hb2⟩ := precedes_append.mp h.back
  have hnt := h.forward.next_eq
  refine ⟨h.forward.unlink hli hn,precedes_append.mpr ⟨?_,?_⟩,?_⟩
  · refine precedes_congr hb1 (fun x hx => hp x (mem_append_left l₂ hx) ?_)
    intro he
    rw [hnt] at he
    exact hd x (mem_cons_of_mem head hx) (mem_cons_of_mem t (mem_of_mem_head? he))
  · cases l₂ with
    | nil => trivial
    | cons n rest =>
      refine ⟨hb n hnt,precedes_congr hb2.2 (fun x hx => ?_)⟩
      refine hp x (mem_append_right l₁ (mem_cons_of_mem n hx)) ?_
      rw [hnt]
      intro he
      obtain rfl := Option.some.inj he
      exact (nodup_cons.mp (nodup_cons.mp hd2).2).1 hx
  · have hl := h.last
    rw [final_append] at hl ⊢
    cases l₂ with
    | nil => rfl
    | cons n rest => simpa [final] using hl

end

end Links
