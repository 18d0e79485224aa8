import RaphKernel.Library.Links
import RaphKernel.Library.Loop
import RaphKernel.Raph
import RaphKernel.Sync.SpinLock

namespace Container
open Raph Function List Option
open Sync
open Links

abbrev Ptr := ℕ

inductive Lock where
  | list
  | container (c : Ptr)
  deriving DecidableEq, Repr

structure Containers (T : Type) where
  first : Option Ptr
  last : Option Ptr
  next : Ptr → Option Ptr
  prev : Ptr → Option Ptr
  obj : Ptr → T

structure State (T : Type) where
  list : Containers T
  flag : Lock → Word32

inductive Flow where
  | next
  | brk
  | ret (c : Option Ptr)
  deriving DecidableEq, Repr

def Flow.leave : Flow → Flow
  | .brk => .next
  | flow => flow

variable {T : Type}

namespace Containers

def new (m : Containers T) (c : Ptr) (x : T) : Containers T :=
  { m with
    obj := update m.obj c x
    next := update m.next c none
    prev := update m.prev c none }

def setFirst (m : Containers T) (c : Ptr) : Except Panic (Containers T) := do
  kassert m.first.isNone
  kassert m.last.isNone
  return { m with first := some c, last := some c }

def link (m : Containers T) (c1 c2 : Ptr) : Except Panic (Containers T) :=
  let tmp := m.next c1
  let m := { m with
    next := update (update m.next c1 (some c2)) c2 tmp
    prev := update m.prev c2 (some c1) }
  match tmp with
  | none => .ok m
  | some t => do
    kassert (m.prev t == some c1)
    return { m with prev := update m.prev t (some c2) }

def detachEnds (m : Containers T) (c : Ptr) (next prev : Option Ptr) :
    Except Panic (Containers T) :=
  if m.first = some c then
    match next with
    | none => do
      kassert (m.last == some c)
      return { m with first := none, last := none }
    | some _ => do
      kassert (m.last != some c)
      return { m with first := m.next c }
  else if m.last = some c then do
    kassert prev.isSome
    return { m with last := prev }
  else .ok m

def setPrev (m : Containers T) (c : Option Ptr) (p : Option Ptr) : Containers T :=
  match c with
  | none => m
  | some c => { m with prev := update m.prev c p }

def setNext (m : Containers T) (c : Option Ptr) (n : Option Ptr) : Containers T :=
  match c with
  | none => m
  | some c => { m with next := update m.next c n }

def removeSub (m : Containers T) (c : Ptr) : Containers T :=
  let next := m.next c
  let prev := m.prev c
  let m := { m with next := update m.next c none, prev := update m.prev c none }
  (m.setPrev next prev).setNext prev next

end Containers

namespace State

def held (s : State T) (l : Lock) : Bool := isOdd (s.flag l)

def trylock (s : State T) (l : Lock) : Option (State T) :=
  if isOdd (s.flag l) then none
  else some { s with flag := update s.flag l (s.flag l + 1) }

def unlock (s : State T) (l : Lock) : Except Panic (State T) := do
  kassert (isOdd (s.flag l))
  return { s with flag := update s.flag l (s.flag l + 1) }

def tryNeighbour (s : State T) : Option Ptr → Option (State T)
  | none => some s
  | some n => s.trylock (.container n)

def unlockNeighbour (s : State T) : Option Ptr → Except Panic (State T)
  | none => .ok s
  | some n => s.unlock (.container n)

def tryScope (l : Lock) (body : State T → Except Panic (Flow × State T)) (s : State T) :
    Except Panic (Flow × State T) :=
  match s.trylock l with
  | none => .ok (.next,s)
  | some s => do
    let (flow,s) ← body s
    let s ← s.unlock l
    return (flow.leave,s)

def appendLast (c : Ptr) (e : Ptr) (s : State T) : Except Panic (Flow × State T) := do
  let m ← s.list.link e c
  return (.ret (some c),{ s with list := { m with last := some c } })

def pushInner (c : Ptr) (s : State T) : Except Panic (Flow × State T) :=
  match s.list.first with
  | none => do
    let m ← s.list.setFirst c
    return (.ret (some c),{ s with list := m })
  | some _ =>
    match s.list.last with
    | none => .error .nullPointer
    | some e => tryScope (.container e) (appendLast c e) s

def unlinkInner (c : Ptr) (next prev : Option Ptr) (s : State T) : Except Panic (Flow × State T) := do
  let m ← s.list.detachEnds c next prev
  let s := { s with list := m.removeSub c }
  let s ← s.unlockNeighbour next
  let s ← s.unlockNeighbour prev
  return (.ret next,s)

def removeInner (c : Ptr) (s : State T) : Except Panic (Flow × State T) :=
  let next := s.list.next c
  let prev := s.list.prev c
  match s.tryNeighbour next with
  | none => .ok (.brk,s)
  | some s =>
    match s.tryNeighbour prev with
    | none => .ok (.brk,s)
    | some s => unlinkInner c next prev s

def pushAttempt (c : Ptr) : State T → Except Panic (Flow × State T) := tryScope .list (pushInner c)

def removeAttempt (c : Ptr) : State T → Except Panic (Flow × State T) :=
  tryScope .list (tryScope (.container c) (removeInner c))

def again (attempt : State T → Except Panic (Flow × State T)) (s : State T) :
    Sum (State T) (Except Panic (Option Ptr × State T)) :=
  match attempt s with
  | .error e => .inr (.error e)
  | .ok (.ret c,s) => .inr (.ok (c,s))
  | .ok (_,s) => .inl s

def pushBack (fuel : ℕ) (c : Ptr) (x : T) (s : State T) :
    Option (Except Panic (Option Ptr × State T)) :=
  Loop.iterate (again (pushAttempt c)) fuel { s with list := s.list.new c x }

def remove (fuel : ℕ) (c : Ptr) (s : State T) : Option (Except Panic (Option Ptr × State T)) :=
  Loop.iterate (again (removeAttempt c)) fuel s

def getBegin (s : State T) : Option Ptr := s.list.first

def getNext (s : State T) (c : Ptr) : Option Ptr := s.list.next c

def walk (s : State T) : ℕ → Option Ptr → Option (List (Ptr × T))
  | _, none => some []
  | 0, some _ => none
  | n + 1, some c => (s.walk n (s.getNext c)).map ((c,s.list.obj c) :: ·)

end State

namespace Containers

def nextOf (m : Containers T) : Option Ptr → Option (Option Ptr)
  | none => m.first.map some
  | some c => (m.next c).map some

def prevOf (m : Containers T) : Option Ptr → Option (Option Ptr)
  | none => none
  | some c => some (m.prev c)

structure Ok (m : Containers T) (l : List Ptr) : Prop where
  dll : Dll m.nextOf m.prevOf none m.last (l.map some)

variable {m m' : Containers T} {l l₁ l₂ : List Ptr} {c : Ptr}

lemma Ok.nodup (h : m.Ok l) : l.Nodup := Nodup.of_map _ (nodup_cons.mp h.dll.forward.nodup).2

lemma Ok.push (h : m.Ok l) (hc : c ∉ l) (hl : m'.last = some c)
    (hli : m'.nextOf m.last = some (some c)) (hs : m'.next c = none)
    (hb : m'.prev c = m.last)
    (hn : ∀ x ∈ none :: l.map some, x ≠ m.last → m'.nextOf x = m.nextOf x)
    (hp : ∀ x ∈ l, m'.prev x = m.prev x) : m'.Ok (l ++ [c]) := by
  refine ⟨?_⟩
  rw [hl,map_append]
  refine h.dll.push (by simpa using hc) hli ?_ (congrArg some hb) hn ?_
  · rw [nextOf,hs]
    rfl
  · intro x hx
    obtain ⟨y,hy,rfl⟩ := List.mem_map.mp hx
    exact congrArg some (hp y hy)

lemma Ok.empty (h : m.Ok []) : m.first = none ∧ m.last = none := by
  have hf := h.dll.forward.stop
  exact ⟨map_eq_none_iff.mp hf,h.dll.last.symm⟩

lemma Ok.first_eq (h : m.Ok l) : m.first = l.head? := by
  have hf := h.dll.forward.first
  rw [head?_map] at hf
  exact map_injective (some_injective _) hf

lemma Ok.last_eq (h : m.Ok l) : m.last = l.getLast? := by
  have hf : ∀ (p : Option Ptr) (l : List Ptr), final p (l.map some) = (l.getLast?).or p := by
    intro p l
    induction l generalizing p with
    | nil => simp [final]
    | cons x rest ih =>
      rw [map_cons,final,ih,getLast?_cons]
      cases rest.getLast? <;> rfl
  rw [← h.dll.last,hf,or_none]

lemma Ok.next_eq (h : m.Ok (l₁ ++ c :: l₂)) : m.next c = l₂.head? := by
  have hd := h.dll
  rw [map_append,map_cons] at hd
  have hn := hd.forward.next_eq
  rw [head?_map] at hn
  exact map_injective (some_injective _) hn

lemma Ok.prev_eq (h : m.Ok (l₁ ++ c :: l₂)) : m.prev c = final none (l₁.map some) := by
  have hd := h.dll
  rw [map_append,map_cons] at hd
  exact Option.some.inj hd.prev_eq

lemma Ok.new (h : m.Ok l) (hc : c ∉ l) (x : T) : (m.new c x).Ok l := by
  refine ⟨h.dll.congr ?_ ?_⟩
  · intro y hy
    cases y with
    | none => rfl
    | some y =>
      have hne : y ≠ c := by
        rintro rfl
        exact hc (by simpa using hy)
      exact congrArg (Option.map some) (update_of_ne hne _ _)
  · intro y hy
    obtain ⟨z,hz,rfl⟩ := List.mem_map.mp hy
    have hne : z ≠ c := by
      rintro rfl
      exact hc hz
    exact congrArg some (update_of_ne hne _ _)

lemma Ok.setFirst (h : m.Ok []) (hn : m.next c = none) (hp : m.prev c = none) :
    m.setFirst c = .ok { m with first := some c, last := some c } ∧
      ({ m with first := some c, last := some c } : Containers T).Ok ([] ++ [c]) := by
  obtain ⟨hf,hl⟩ := h.empty
  constructor
  · rw [Containers.setFirst,hf,hl]
    rfl
  · refine h.push (not_mem_nil) rfl ?_ hn (hp.trans hl.symm) ?_ nofun
    · rw [hl]
      rfl
    · intro x hx hne
      rw [mem_singleton.mp hx,hl] at hne
      exact absurd rfl hne

lemma Ok.last_next {e : Ptr} (h : m.Ok l) (he : m.last = some e) : m.next e = none := by
  have hs := h.dll.forward.stop
  rw [h.dll.last,he] at hs
  exact map_eq_none_iff.mp hs

lemma Ok.last_mem {e : Ptr} (h : m.Ok l) (he : m.last = some e) : e ∈ l := by
  rw [h.last_eq] at he
  exact mem_of_getLast? he

lemma Ok.link {e : Ptr} (h : m.Ok l) (hc : c ∉ l) (he : m.last = some e) :
    ∃ m', m.link e c = .ok m' ∧ m'.obj = m.obj ∧
      ({ m' with last := some c } : Containers T).Ok (l ++ [c]) := by
  have hs := h.last_next he
  have hne : e ≠ c := by
    rintro rfl
    exact hc (h.last_mem he)
  have ho : ∀ x ∈ l, x ≠ c := by
    rintro x hx rfl
    exact hc hx
  refine ⟨{ m with
    next := update (update m.next e (some c)) c none
    prev := update m.prev c (some e) },?_,rfl,?_⟩
  · simp only [Containers.link,hs]
  · refine h.push hc rfl ?_ (update_self ..) ?_ ?_ fun x hx => update_of_ne (ho x hx) _ _
    · rw [he]
      change (update (update m.next e (some c)) c none e).map some = _
      rw [update_of_ne hne,update_self]
      rfl
    · exact (update_self ..).trans he.symm
    · intro x hx hxe
      cases x with
      | none => rfl
      | some x =>
        rw [he] at hxe
        have hxe' : x ≠ e := fun heq => hxe (congrArg some heq)
        have hxc := ho x (by simpa using hx)
        exact congrArg (Option.map some) ((update_of_ne hxc _ _).trans (update_of_ne hxe' _ _))

lemma removeSub_first (m : Containers T) (c : Ptr) : (m.removeSub c).first = m.first := by
  unfold removeSub setNext setPrev
  cases m.prev c <;> cases m.next c <;> rfl

lemma removeSub_last (m : Containers T) (c : Ptr) : (m.removeSub c).last = m.last := by
  unfold removeSub setNext setPrev
  cases m.prev c <;> cases m.next c <;> rfl

lemma removeSub_obj (m : Containers T) (c : Ptr) : (m.removeSub c).obj = m.obj := by
  unfold removeSub setNext setPrev
  cases m.prev c <;> cases m.next c <;> rfl

lemma removeSub_next (m : Containers T) (c x : Ptr) : (m.removeSub c).next x =
    if m.prev c = some x then m.next c else if x = c then none else m.next x := by
  unfold removeSub setNext setPrev
  cases m.prev c <;> cases m.next c <;> simp [update_apply,eq_comm]

lemma removeSub_prev (m : Containers T) (c x : Ptr) : (m.removeSub c).prev x =
    if m.next c = some x then m.prev c else if x = c then none else m.prev x := by
  unfold removeSub setNext setPrev
  cases m.prev c <;> cases m.next c <;> simp [update_apply,eq_comm]

section
variable (h : m.Ok (l₁ ++ c :: l₂))
include h

lemma Ok.outside : c ∉ l₁ ++ l₂ := (nodup_cons.mp (perm_middle.nodup_iff.mp h.nodup)).1

lemma Ok.first_iff : m.first = some c ↔ l₁ = [] := by
  have ho := h.outside
  rw [h.first_eq]
  cases l₁ with
  | nil => simp
  | cons x rest =>
    have hne : x ≠ c := by
      rintro rfl
      exact ho mem_cons_self
    simp [hne]

lemma Ok.prev_none_iff : m.prev c = none ↔ l₁ = [] := by
  rw [h.prev_eq]
  rcases eq_nil_or_concat l₁ with rfl | ⟨rest,x,rfl⟩
  · simp [final]
  · simp [final_append,final]

lemma Ok.last_iff : m.last = some c ↔ l₂ = [] := by
  have hd := h.dll
  rw [map_append,map_cons] at hd
  rw [eq_comm,hd.tail_iff,map_eq_nil_iff]

lemma Ok.unlink (hli : m'.nextOf (m.prev c) = m.nextOf (some c))
    (hb : ∀ n, m.next c = some n → m'.prev n = m.prev c)
    (hn : ∀ x, x ≠ some c → x ≠ m.prev c → m'.nextOf x = m.nextOf x)
    (hp : ∀ x, x ≠ c → m.next c ≠ some x → m'.prev x = m.prev x)
    (hl : m'.last = if l₂ = [] then m.prev c else m.last) : m'.Ok (l₁ ++ l₂) := by
  have ho := h.outside
  have hpr := h.prev_eq
  have hd := h.dll
  rw [map_append,map_cons] at hd
  refine ⟨?_⟩
  have hif : (if l₂ = [] then m.prev c else m.last) =
      if l₂.map some = [] then final none (l₁.map some) else m.last := by
    rw [hpr]
    simp only [map_eq_nil_iff]
  rw [hl,hif,map_append]
  have hne : ∀ x ∈ l₁ ++ l₂, x ≠ c := by
    rintro x hx rfl
    exact ho hx
  refine hd.unlink (hpr ▸ hli) ?_ ?_ ?_
  · intro x hx
    obtain ⟨n,hnt,rfl⟩ := map_eq_some_iff.mp hx
    exact congrArg some ((hb n hnt).trans hpr)
  · intro x hx _
    refine hn x ?_ (by rwa [hpr])
    rintro rfl
    rcases mem_cons.mp hx with hba | hx
    · cases hba
    · rw [← map_append] at hx
      obtain ⟨y,hy,hyc⟩ := List.mem_map.mp hx
      exact hne y hy (Option.some.inj hyc)
  · intro x hx hnx
    rw [← map_append] at hx
    obtain ⟨y,hy,rfl⟩ := List.mem_map.mp hx
    refine congrArg some (hp y (hne y hy) fun hba => hnx ?_)
    change (m.next c).map some = _
    rw [hba]
    rfl

lemma Ok.detachEnds : m.detachEnds c (m.next c) (m.prev c) = .ok { m with
    first := if l₁ = [] then m.next c else m.first
    last := if l₂ = [] then m.prev c else m.last } := by
  have hn := h.next_eq
  unfold Containers.detachEnds
  by_cases hf : l₁ = []
  · have hp := h.prev_none_iff.mpr hf
    rw [if_pos (h.first_iff.mpr hf),if_pos hf,hp]
    cases l₂ with
    | nil =>
      have hl := h.last_iff.mpr rfl
      rw [hn,hl,if_pos rfl]
      simp [kassert,bind,Except.bind,pure,Except.pure]
    | cons n rest =>
      have hl := bne_iff_ne.mpr fun hb =>
        cons_ne_nil n rest (h.last_iff.mp hb)
      rw [hn,hl,if_neg (cons_ne_nil n rest)]
      simp [kassert,bind,Except.bind,pure,Except.pure]
  · rw [if_neg (fun hb => hf (h.first_iff.mp hb)),if_neg hf]
    by_cases hl : l₂ = []
    · have hp := isSome_iff_ne_none.mpr fun hb => hf (h.prev_none_iff.mp hb)
      rw [if_pos (h.last_iff.mpr hl),if_pos hl,hp]
      rfl
    · rw [if_neg (fun hb => hl (h.last_iff.mp hb)),if_neg hl]

lemma Ok.prev_ne : m.prev c ≠ some c := by
  intro hb
  have hm := final_mem none (l₁.map some)
  rw [← h.prev_eq,hb] at hm
  exact h.outside (mem_append_left _ (by simpa using hm))

lemma Ok.next_ne : m.next c ≠ some c := by
  intro hb
  rw [h.next_eq] at hb
  exact h.outside (mem_append_right _ (mem_of_mem_head? hb))

lemma Ok.removed : ∃ m₁, m.detachEnds c (m.next c) (m.prev c) = .ok m₁ ∧
    (m₁.removeSub c).obj = m.obj ∧ (m₁.removeSub c).Ok (l₁ ++ l₂) := by
  refine ⟨_,h.detachEnds,removeSub_obj ..,h.unlink ?_ ?_ ?_ ?_ (removeSub_last ..)⟩
  · cases hp : m.prev c with
    | none =>
      change (Option.map some (removeSub _ c).first) = _
      rw [removeSub_first]
      exact congrArg _ (if_pos (h.prev_none_iff.mp hp))
    | some p =>
      change (Option.map some ((removeSub _ c).next p)) = _
      rw [removeSub_next]
      exact congrArg _ (if_pos hp)
  · intro n hn
    rw [removeSub_prev]
    exact if_pos hn
  · intro x hxc hxp
    cases x with
    | none =>
      change (Option.map some (removeSub _ c).first) = _
      rw [removeSub_first]
      exact congrArg _ (if_neg fun hb => hxp (h.prev_none_iff.mpr hb).symm)
    | some x =>
      have hne : x ≠ c := fun he => hxc (congrArg some he)
      change (Option.map some ((removeSub _ c).next x)) = _
      rw [removeSub_next]
      exact congrArg _ ((if_neg (Ne.symm hxp)).trans (if_neg hne))
  · intro x hne hnx
    rw [removeSub_prev]
    exact (if_neg hnx).trans (if_neg hne)

end

end Containers

end Container
