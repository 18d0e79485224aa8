import RaphKernel.Container.List

namespace Container
open Raph Function List State
open Sync
open Links

variable {T : Type} {s s₁ : State T} {l l₁ l₂ : List Ptr} {c : Ptr}

namespace State

def bump (s : State T) (k : Lock) : State T :=
  { s with flag := update s.flag k (s.flag k + 1) }

lemma bump_held (s : State T) (k : Lock) : (s.bump k).held = update s.held k (!s.held k) := by
  funext j
  change isOdd (update s.flag k (s.flag k + 1) j) = _
  rcases eq_or_ne j k with rfl | hne
  · rw [update_self,update_self,isOdd_succ]
    rfl
  · rw [update_of_ne hne,update_of_ne hne]
    rfl

lemma bump_restores {s₁ : State T} {k : Lock} (hs : s₁.held = (s.bump k).held) :
    (s₁.bump k).held = s.held := by
  rw [bump_held,hs,bump_held,update_self,update_idem,Bool.not_not,update_eq_self]

lemma trylock_held {k : Lock} (h : s.held k = true) : s.trylock k = none := if_pos h

lemma trylock_free {k : Lock} (h : s.held k = false) : s.trylock k = some (s.bump k) :=
  if_neg (by rw [held] at h; simp [h])

lemma unlock_held {k : Lock} (h : s.held k = true) : s.unlock k = .ok (s.bump k) := by
  rw [held] at h
  rw [unlock,h]
  rfl

variable {b : State T → Except Panic (Flow × State T)} {k : Lock} {f : Flow}

lemma tryScope_held (h : s.held k = true) : tryScope k b s = .ok (.next,s) := by
  rw [tryScope,trylock_held h]

lemma tryScope_free (h : s.held k = false) (hb : b (s.bump k) = .ok (f,s₁))
    (hk : s₁.held k = true) :
    tryScope k b s = .ok (f.leave,s₁.bump k) := by
  simp only [tryScope,trylock_free h,hb,bind,Except.bind,unlock_held hk]
  rfl

end State

def setHeld (held : Lock → Bool) (o : Option Ptr) (b : Bool) : Lock → Bool :=
  match o with
  | none => held
  | some x => update held (.container x) b

namespace State

def busy (s : State T) (o : Option Ptr) : Bool :=
  match o with
  | none => false
  | some x => s.held (.container x)

lemma tryNeighbour_busy {o : Option Ptr} (h : s.busy o = true) : s.tryNeighbour o = none := by
  cases o with
  | none => cases h
  | some x => exact trylock_held h

lemma tryNeighbour_free {o : Option Ptr} (h : s.busy o = false) :
    ∃ s', s.tryNeighbour o = some s' ∧ s'.list = s.list ∧ s'.held = setHeld s.held o true := by
  cases o with
  | none => exact ⟨s,rfl,rfl,rfl⟩
  | some x =>
    refine ⟨_,trylock_free h,rfl,?_⟩
    have hf : s.held (.container x) = false := h
    rw [bump_held,hf]
    rfl

lemma unlockNeighbour_held {o : Option Ptr} (h : ∀ x, o = some x → s.held (.container x) = true) :
    ∃ s', s.unlockNeighbour o = .ok s' ∧ s'.list = s.list ∧ s'.held = setHeld s.held o false := by
  cases o with
  | none => exact ⟨s,rfl,rfl,rfl⟩
  | some x =>
    refine ⟨_,unlock_held (h x rfl),rfl,?_⟩
    rw [bump_held,h x rfl]
    rfl

end State

lemma setHeld_restore {hl : Lock → Bool} {n p : Option Ptr}
    (hn : ∀ x, n = some x → hl (.container x) = false)
    (hp : ∀ x, p = some x → hl (.container x) = false) :
    setHeld (setHeld (setHeld (setHeld hl n true) p true) n false) p false = hl := by
  funext k
  cases n with
  | none =>
    cases p with
    | none => rfl
    | some y =>
      rcases eq_or_ne k (.container y) with rfl | hk
      · simp [setHeld,hp y rfl]
      · simp [setHeld,hk]
  | some x =>
    cases p with
    | none =>
      rcases eq_or_ne k (.container x) with rfl | hk
      · simp [setHeld,hn x rfl]
      · simp [setHeld,hk]
    | some y =>
      rcases eq_or_ne k (.container y) with rfl | hk
      · simp [setHeld,hp y rfl]
      · rcases eq_or_ne k (.container x) with rfl | hkx
        · simp [setHeld,hk,hn x rfl]
        · simp [setHeld,hk,hkx]

lemma Containers.Ok.neighbours_ne {m : Containers T} (h : m.Ok (l₁ ++ c :: l₂)) {x : Ptr}
    (hn : m.next c = some x) : m.prev c ≠ some x := by
  intro hp
  have hr : x ∈ l₂ := by
    rw [h.next_eq] at hn
    exact mem_of_mem_head? hn
  have hl : x ∈ l₁ := by
    have hm := final_mem none (l₁.map some)
    rw [← h.prev_eq,hp] at hm
    simpa using hm
  have hno := perm_middle.nodup_iff.mp h.nodup
  exact (disjoint_of_nodup_append (nodup_cons.mp hno).2) hl hr

namespace State

lemma setHeld_of_ne {hl : Lock → Bool} {o : Option Ptr} {b : Bool} {k : Lock}
    (h : ∀ x, o = some x → k ≠ .container x) : setHeld hl o b k = hl k := by
  cases o with
  | none => rfl
  | some x => exact update_of_ne (h x rfl) _ _

lemma setHeld_bump {o : Option Ptr} {b : Bool} {k : Lock} (ho : ∀ x, o = some x → k ≠ .container x)
    (hs : s₁.held = setHeld s.held o b) : (s₁.bump k).held = setHeld (s.bump k).held o b := by
  rw [bump_held,hs,bump_held,setHeld_of_ne ho]
  cases o with
  | none => rfl
  | some x => exact update_comm (ho x rfl).symm _ _ _

lemma busy_congr {o : Option Ptr} (h : ∀ x, o = some x → s₁.held (.container x) = s.held (.container x)) :
    s₁.busy o = s.busy o := by
  cases o with
  | none => rfl
  | some x => exact h x rfl

lemma unlinkInner_ok (h : s.list.Ok (l₁ ++ c :: l₂))
    (hn : ∀ x, s.list.next c = some x → s.held (.container x) = true)
    (hp : ∀ x, s.list.prev c = some x → s.held (.container x) = true) :
    ∃ s', unlinkInner c (s.list.next c) (s.list.prev c) s = .ok (.ret (s.list.next c),s') ∧
      s'.list.Ok (l₁ ++ l₂) ∧ s'.list.obj = s.list.obj ∧
      s'.held = setHeld (setHeld s.held (s.list.next c) false) (s.list.prev c) false := by
  obtain ⟨m,hm,ho,hok⟩ := h.removed
  obtain ⟨s₁,h₁,hlist₁,hheld₁⟩ := unlockNeighbour_held (s := { s with list := m.removeSub c }) hn
  have hp₁ : ∀ x, s.list.prev c = some x → s₁.held (.container x) = true := by
    intro x hx
    rw [hheld₁,setHeld_of_ne]
    · exact hp x hx
    · rintro y hy he
      obtain rfl : x = y := Lock.container.inj he
      exact h.neighbours_ne hy hx
  obtain ⟨s₂,h₂,hlist₂,hheld₂⟩ := unlockNeighbour_held hp₁
  refine ⟨s₂,?_,?_,?_,?_⟩
  · simp only [unlinkInner,hm,h₁,h₂,bind,Except.bind]
    rfl
  · rw [hlist₂,hlist₁]
    exact hok
  · rw [hlist₂,hlist₁]
    exact ho
  · rw [hheld₂,hheld₁]
    rfl

lemma busy_prev (h : s.list.Ok (l₁ ++ c :: l₂))
    (hh : s₁.held = setHeld s.held (s.list.next c) true) :
    s₁.busy (s.list.prev c) = s.busy (s.list.prev c) := by
  refine busy_congr fun x hx => ?_
  rw [hh,setHeld_of_ne]
  rintro y hy he
  obtain rfl : x = y := Lock.container.inj he
  exact h.neighbours_ne hy hx

lemma removeInner_blocked (h : s.busy (s.list.next c) = true) :
    removeInner c s = .ok (.brk,s) := by
  rw [removeInner,tryNeighbour_busy h]

lemma removeInner_leaks (h : s.list.Ok (l₁ ++ c :: l₂)) (hn : s.busy (s.list.next c) = false)
    (hp : s.busy (s.list.prev c) = true) :
    ∃ s', removeInner c s = .ok (.brk,s') ∧ s'.list = s.list ∧
      s'.held = setHeld s.held (s.list.next c) true := by
  obtain ⟨s₁,h₁,hlist₁,hheld₁⟩ := tryNeighbour_free hn
  have hp₁ := (busy_prev h hheld₁).trans hp
  refine ⟨s₁,?_,hlist₁,hheld₁⟩
  simp only [removeInner,h₁,tryNeighbour_busy hp₁]

lemma removeInner_completes (h : s.list.Ok (l₁ ++ c :: l₂)) (hn : s.busy (s.list.next c) = false)
    (hp : s.busy (s.list.prev c) = false) :
    ∃ s', removeInner c s = .ok (.ret l₂.head?,s') ∧ s'.list.Ok (l₁ ++ l₂) ∧
      s'.list.obj = s.list.obj ∧ s'.held = s.held := by
  obtain ⟨s₁,h₁,hlist₁,hheld₁⟩ := tryNeighbour_free hn
  have hp₁ := (busy_prev h hheld₁).trans hp
  obtain ⟨s₂,h₂,hlist₂,hheld₂⟩ := tryNeighbour_free hp₁
  have hlist := hlist₂.trans hlist₁
  have hf : s₂.held = setHeld (setHeld s.held (s.list.next c) true) (s.list.prev c) true := by
    rw [hheld₂,hheld₁]
  have hne : ∀ x, s₂.list.next c = some x → s₂.held (.container x) = true := by
    intro x hx
    rw [hlist] at hx
    rw [hf,setHeld_of_ne,hx]
    · exact update_self ..
    · rintro y hy he
      obtain rfl : x = y := Lock.container.inj he
      exact h.neighbours_ne hx hy
  have hpr : ∀ x, s₂.list.prev c = some x → s₂.held (.container x) = true := by
    intro x hx
    rw [hlist] at hx
    rw [hf,hx]
    exact update_self ..
  obtain ⟨s₃,h₃,hok,ho,hheld₃⟩ := unlinkInner_ok (hlist ▸ h) hne hpr
  refine ⟨s₃,?_,hok,by rw [ho,hlist],?_⟩
  · rw [hlist] at h₃
    simp only [removeInner,h₁,h₂,h₃]
    rw [h.next_eq]
  · rw [hheld₃,hf,hlist]
    refine setHeld_restore (fun x hx => ?_) fun x hx => ?_
    · rw [hx] at hn
      exact hn
    · rw [hx] at hp
      exact hp

def entered (s : State T) (c : Ptr) : State T := (s.bump .list).bump (.container c)

section
variable (hlist : s.held .list = false) (hself : s.held (.container c) = false)
include hlist hself

lemma entered_held :
    (s.entered c).held = update (update s.held .list true) (.container c) true := by
  have hs : (s.bump .list).held (.container c) = false := by
    rw [bump_held,update_of_ne (by simp),hself]
  rw [entered,bump_held,hs,bump_held,hlist]
  rfl

lemma entered_busy {o : Option Ptr} (ho : o ≠ some c) : (s.entered c).busy o = s.busy o := by
  refine busy_congr fun x hx => ?_
  have hne : x ≠ c := by
    rintro rfl
    exact ho hx
  rw [entered_held hlist hself,update_of_ne (by simpa using hne),update_of_ne (by simp)]

lemma removeAttempt_of_inner {f : Flow} {o : Option Ptr} {b : Bool} (ho : o ≠ some c)
    (hin : removeInner c (s.entered c) = .ok (f,s₁))
    (hh : s₁.held = setHeld (s.entered c).held o b) :
    ∃ s', removeAttempt c s = .ok (f.leave.leave,s') ∧ s'.list = s₁.list ∧
      s'.held = setHeld s.held o b := by
  have hc : ∀ x, o = some x → Lock.container c ≠ .container x := by
    rintro x rfl he
    exact ho (congrArg some (Lock.container.inj he).symm)
  have hl : ∀ x, o = some x → Lock.list ≠ .container x := fun x _ => nofun
  have hke : s₁.held (.container c) = true := by
    rw [hh,setHeld_of_ne hc,entered_held hlist hself,update_self]
  have hk : s₁.held .list = true := by
    rw [hh,setHeld_of_ne hl,entered_held hlist hself,update_of_ne (by simp),update_self]
  have hse : (s.bump .list).held (.container c) = false := by
    rw [bump_held,update_of_ne (by simp),hself]
  have hf := tryScope_free hse hin hke
  have hs : (s₁.bump (.container c)).held .list = true := by
    rw [bump_held,update_of_ne (by simp),hk]
  refine ⟨_,tryScope_free hlist hf hs,rfl,?_⟩
  rw [setHeld_bump hl (setHeld_bump hc hh),entered,bump_restores (bump_restores rfl)]

end

lemma removeAttempt_list (h : s.held .list = true) : removeAttempt c s = .ok (.next,s) :=
  tryScope_held h

lemma removeAttempt_self (hlist : s.held .list = false) (hself : s.held (.container c) = true) :
    ∃ s', removeAttempt c s = .ok (.next,s') ∧ s'.list = s.list ∧ s'.held = s.held := by
  have hse : (s.bump .list).held (.container c) = true := by
    rw [bump_held,update_of_ne (by simp),hself]
  have hs : (s.bump .list).held .list = true := by
    rw [bump_held,update_self,hlist]
    rfl
  exact ⟨_,tryScope_free hlist (tryScope_held hse) hs,rfl,bump_restores rfl⟩

structure Stuck (s : State T) (c : Ptr) : Prop where
  list : s.held .list = false
  self : s.held (.container c) = false
  next : ∃ n, s.list.next c = some n ∧ s.held (.container n) = false
  prev : ∃ p, s.list.prev c = some p ∧ s.held (.container p) = true

lemma removeAttempt_stuck (h : s.list.Ok (l₁ ++ c :: l₂)) (hs : s.Stuck c) :
    ∃ s', removeAttempt c s = .ok (.next,s') ∧ s'.list = s.list ∧
      s'.held = setHeld s.held (s.list.next c) true := by
  obtain ⟨n,hn,hf⟩ := hs.next
  obtain ⟨p,hp,hh⟩ := hs.prev
  have hne : (s.entered c).busy (s.list.next c) = false := by
    rw [entered_busy hs.list hs.self h.next_ne,hn]
    exact hf
  have hpr : (s.entered c).busy (s.list.prev c) = true := by
    rw [entered_busy hs.list hs.self h.prev_ne,hp]
    exact hh
  obtain ⟨s₁,h₁,hlist₁,hheld₁⟩ := removeInner_leaks (s := s.entered c) h hne hpr
  obtain ⟨s',hs',hlist,hh'⟩ := removeAttempt_of_inner hs.list hs.self h.next_ne h₁ hheld₁
  exact ⟨s',hs',hlist.trans hlist₁,hh'⟩

lemma removeAttempt_completes (h : s.list.Ok (l₁ ++ c :: l₂)) (hlist : s.held .list = false)
    (hself : s.held (.container c) = false) (hn : s.busy (s.list.next c) = false)
    (hp : s.busy (s.list.prev c) = false) :
    ∃ s', removeAttempt c s = .ok (.ret l₂.head?,s') ∧ s'.list.Ok (l₁ ++ l₂) ∧
      s'.list.obj = s.list.obj ∧ s'.held = s.held := by
  have hne := (entered_busy hlist hself h.next_ne).trans hn
  have hpr := (entered_busy hlist hself h.prev_ne).trans hp
  obtain ⟨s₁,h₁,hok,ho,hheld₁⟩ := removeInner_completes (s := s.entered c) h hne hpr
  obtain ⟨s',hs',hl',hh⟩ := removeAttempt_of_inner hlist hself (o := none) (b := true)
    (by simp) h₁ hheld₁
  exact ⟨s',hs',hl' ▸ hok,hl' ▸ ho,hh⟩

lemma removeAttempt_kept (h : s.list.Ok (l₁ ++ c :: l₂)) (hs : ¬ s.Stuck c) :
    ∃ f s', removeAttempt c s = .ok (f,s') ∧ s'.held = s.held := by
  cases hlist : s.held .list with
  | true => exact ⟨_,s,removeAttempt_list hlist,rfl⟩
  | false =>
    cases hself : s.held (.container c) with
    | true =>
      obtain ⟨s',hs',-,hh⟩ := removeAttempt_self hlist hself
      exact ⟨_,s',hs',hh⟩
    | false =>
      cases hn : s.busy (s.list.next c) with
      | true =>
        have hne := (entered_busy hlist hself h.next_ne).trans hn
        obtain ⟨s',hs',-,hh⟩ := removeAttempt_of_inner hlist hself (o := none) (b := true)
          (by simp) (removeInner_blocked hne) rfl
        exact ⟨_,s',hs',hh⟩
      | false =>
        cases hp : s.busy (s.list.prev c) with
        | false =>
          obtain ⟨s',hs',-,-,hh⟩ := removeAttempt_completes h hlist hself hn hp
          exact ⟨_,s',hs',hh⟩
        | true =>
          cases hne : s.list.next c with
          | some n =>
            rw [hne] at hn
            refine absurd ⟨hlist,hself,⟨n,hne,hn⟩,?_⟩ hs
            cases hpr : s.list.prev c with
            | none =>
              rw [hpr] at hp
              cases hp
            | some p =>
              rw [hpr] at hp
              exact ⟨p,rfl,hp⟩
          | none =>
            have hn' := (entered_busy hlist hself h.next_ne).trans hn
            have hp' := (entered_busy hlist hself h.prev_ne).trans hp
            obtain ⟨s₁,h₁,-,hheld₁⟩ := removeInner_leaks (s := s.entered c) h hn' hp'
            obtain ⟨s',hs',-,hh⟩ := removeAttempt_of_inner hlist hself h.next_ne h₁ hheld₁
            refine ⟨_,s',hs',?_⟩
            rw [hh,hne]
            rfl

theorem removeAttempt_releases_iff (s : State T) (l : List Ptr) (c : Ptr) (hok : s.list.Ok l)
    (hc : c ∈ l) :
    (∃ flow s', removeAttempt c s = .ok (flow,s') ∧ ∀ k, s'.held k = s.held k) ↔ ¬ s.Stuck c := by
  obtain ⟨l₁,l₂,rfl⟩ := append_of_mem hc
  constructor
  · rintro ⟨flow,s',hs',hsa⟩ hs
    obtain ⟨s₁,h₁,-,hh⟩ := removeAttempt_stuck hok hs
    obtain ⟨n,hn,hf⟩ := hs.next
    rw [hs'] at h₁
    cases h₁
    have hl := hsa (.container n)
    rw [hh,hn,hf] at hl
    cases (update_self _ _ _).symm.trans hl
  · intro hf
    obtain ⟨flow,s',hs',hh⟩ := removeAttempt_kept hok hf
    exact ⟨flow,s',hs',congrFun hh⟩

def trio : Containers Unit where
  first := some 1
  last := some 3
  next := fun c => if c = 1 then some 2 else if c = 2 then some 3 else none
  prev := fun c => if c = 2 then some 1 else if c = 3 then some 2 else none
  obj := fun _ => ()

lemma trio_ok : trio.Ok [1,2,3] :=
  ⟨⟨⟨⟨rfl,rfl,rfl,trivial⟩,rfl,by decide⟩,⟨rfl,rfl,rfl,trivial⟩,rfl⟩⟩

def pinned : State Unit := ⟨trio,fun k => if k = .container 1 then 1 else 0⟩

theorem removeAttempt_releases_iff_trio :
    ∃ flow s', removeAttempt 2 ⟨trio,fun _ => 0⟩ = .ok (flow,s') ∧
      ∀ k, s'.held k = State.held ⟨trio,fun _ => 0⟩ k :=
  (removeAttempt_releases_iff ⟨trio,fun _ => 0⟩ [1,2,3] 2 trio_ok (by decide)).mpr
    fun hs => by
      obtain ⟨p,-,hp⟩ := hs.prev
      cases hp

theorem removeAttempt_leaks_next : pinned.list.Ok [1,2,3] ∧ pinned.held (.container 3) = false ∧
    ∃ s', removeAttempt 2 pinned = .ok (.next,s') ∧ s'.held (.container 3) = true :=
  ⟨trio_ok,rfl,_,rfl,rfl⟩

def Free (s : State T) : Prop := ∀ k, s.held k = false

lemma bump_free {k : Lock} (h : s.Free) : (s.bump k).held k = true := by
  rw [bump_held,update_self,h k]
  rfl

lemma bump_bump {k : Lock} (h : s.Free) (hs : s₁.held = (s.bump k).held) : (s₁.bump k).Free := by
  intro j
  rw [bump_restores hs,h j]

lemma pushInner_first (h : s.list.Ok []) (hn : s.list.next c = none) (hp : s.list.prev c = none) :
    ∃ s', pushInner c s = .ok (.ret (some c),s') ∧ s'.list.Ok ([] ++ [c]) ∧
      s'.list.obj = s.list.obj ∧ s'.held = s.held := by
  obtain ⟨hs,hok⟩ := h.setFirst hn hp
  refine ⟨{ s with list := { s.list with first := some c, last := some c } },?_,hok,rfl,rfl⟩
  simp only [pushInner,h.empty.1,hs,bind,Except.bind]
  rfl

lemma pushInner_last {e : Ptr} (h : s.list.Ok l) (hc : c ∉ l) (hl : s.list.last = some e)
    (hf : s.held (.container e) = false) :
    ∃ s', pushInner c s = .ok (.ret (some c),s') ∧ s'.list.Ok (l ++ [c]) ∧
      s'.list.obj = s.list.obj ∧ s'.held = s.held := by
  obtain ⟨m,hm,ho,hok⟩ := h.link hc hl
  obtain ⟨f,hfi⟩ : ∃ f, s.list.first = some f := by
    rw [h.first_eq]
    obtain ⟨x,r,rfl⟩ := exists_cons_of_ne_nil (ne_nil_of_mem (h.last_mem hl))
    exact ⟨x,rfl⟩
  have ha : appendLast c e (s.bump (.container e)) =
      .ok (.ret (some c),{ s.bump (.container e) with list := { m with last := some c } }) := by
    simp only [appendLast,bump,hm,bind,Except.bind]
    rfl
  have hk : (mk { m with last := some c } (s.bump (.container e)).flag).held (.container e) =
      true := by
    change (s.bump (.container e)).held (.container e) = true
    rw [bump_held,update_self,hf]
    rfl
  refine ⟨bump { s.bump (.container e) with list := { m with last := some c } } (.container e),
    ?_,hok,ho,bump_restores rfl⟩
  simp only [pushInner,hfi,hl]
  exact tryScope_free hf ha hk

lemma pushAttempt_ok (h : s.list.Ok l) (hc : c ∉ l) (hn : s.list.next c = none)
    (hp : s.list.prev c = none) (hf : s.Free) :
    ∃ s', pushAttempt c s = .ok (.ret (some c),s') ∧ s'.list.Ok (l ++ [c]) ∧
      s'.list.obj = s.list.obj ∧ s'.Free := by
  have hin : ∃ s', pushInner c (s.bump .list) = .ok (.ret (some c),s') ∧ s'.list.Ok (l ++ [c]) ∧
      s'.list.obj = s.list.obj ∧ s'.held = (s.bump .list).held := by
    cases hl : s.list.last with
    | none =>
      rw [h.last_eq] at hl
      obtain rfl := getLast?_eq_none_iff.mp hl
      exact pushInner_first (s := s.bump .list) h hn hp
    | some e =>
      refine pushInner_last (s := s.bump .list) h hc hl ?_
      rw [bump_held,update_of_ne (by simp),hf]
  obtain ⟨s₁,h₁,hok,ho,hh⟩ := hin
  have hk : s₁.held .list = true := by
    rw [hh]
    exact bump_free hf
  exact ⟨_,tryScope_free (hf _) h₁ hk,hok,ho,bump_bump hf hh⟩

lemma again_ret {a : State T → Except Panic (Flow × State T)} {r : Option Ptr} (f : ℕ)
    (h : a s = .ok (.ret r,s₁)) :
    Loop.iterate (again a) (f + 1) s = some (.ok (r,s₁)) := by
  rw [Loop.iterate,again,h]

def new (memory : Containers T) : State T :=
  ⟨{ memory with first := none, last := none },fun _ => 0⟩

end State

structure Holds (s : State T) (elems : List (Ptr × T)) : Prop where
  ok : s.list.Ok (elems.map Prod.fst)
  obj : ∀ p ∈ elems, s.list.obj p.1 = p.2
  free : s.Free

inductive Run : State T → List (Ptr × T) → Prop where
  | new (memory : Containers T) : Run (.new memory) []
  | pushBack {s s' : State T} {elems : List (Ptr × T)} (c : Ptr) (x : T) (fuel : ℕ)
    {r : Option Ptr} : Run s elems → c ∉ elems.map Prod.fst →
    State.pushBack fuel c x s = some (.ok (r,s')) → Run s' (elems ++ [(c,x)])
  | remove {s s' : State T} {before after : List (Ptr × T)} (c : Ptr) {x : T} (fuel : ℕ)
    {r : Option Ptr} : Run s (before ++ (c,x) :: after) →
    State.remove fuel c s = some (.ok (r,s')) → Run s' (before ++ after)

section
variable {e before after : List (Ptr × T)} {x : T}

lemma holds_new (m : Containers T) : Holds (.new m) [] :=
  ⟨⟨⟨⟨trivial,rfl,nodup_singleton _⟩,trivial,rfl⟩⟩,nofun,fun _ => rfl⟩

lemma Holds.pushBack (h : Holds s e) (hc : c ∉ e.map Prod.fst) (x : T) :
    ∃ s', (∀ fuel, pushBack (fuel + 1) c x s = some (.ok (some c,s'))) ∧
      Holds s' (e ++ [(c,x)]) := by
  have hn : ({ s with list := s.list.new c x } : State T).list.Ok _ :=
    h.ok.new hc x
  obtain ⟨s',hs',hok,hob,hf⟩ := pushAttempt_ok hn hc (update_self ..) (update_self ..) h.free
  refine ⟨s',fun fuel => again_ret fuel hs',?_,fun p hp => ?_,hf⟩
  · rw [map_append]
    exact hok
  · rw [hob]
    change update s.list.obj c x p.1 = p.2
    rcases mem_append.mp hp with ho | hn
    · have hne : p.1 ≠ c := fun he => hc (he ▸ List.mem_map_of_mem ho)
      rw [update_of_ne hne,h.obj p ho]
    · rw [mem_singleton.mp hn,update_self]

lemma Holds.remove (h : Holds s (before ++ (c,x) :: after)) :
    ∃ s', (∀ fuel, remove (fuel + 1) c s = some (.ok ((after.map Prod.fst).head?,s'))) ∧
      Holds s' (before ++ after) := by
  have hok := h.ok
  rw [map_append,map_cons] at hok
  have hb : ∀ o, s.busy o = false := by
    intro o
    cases o with
    | none => rfl
    | some y => exact h.free _
  obtain ⟨s',hs',hok',ho,hh⟩ := removeAttempt_completes hok (h.free _) (h.free _) (hb _) (hb _)
  refine ⟨s',fun fuel => again_ret fuel hs',?_,fun p hp => ?_,fun k => ?_⟩
  · rw [map_append]
    exact hok'
  · rw [ho]
    refine h.obj p ?_
    rcases mem_append.mp hp with hp | hp
    · exact mem_append_left _ hp
    · exact mem_append_right _ (mem_cons_of_mem _ hp)
  · rw [hh]
    exact h.free k

lemma iterate_fuel {attempt : State T → Except Panic (Flow × State T)} {r q : Option Ptr}
    {s₂ : State T} {fuel : ℕ}
    (ha : ∀ fuel, Loop.iterate (again attempt) (fuel + 1) s = some (.ok (q,s₂)))
    (h : Loop.iterate (again attempt) fuel s = some (.ok (r,s₁))) : r = q ∧ s₁ = s₂ := by
  cases fuel with
  | zero => cases h
  | succ fuel =>
    rw [ha fuel] at h
    cases h
    exact ⟨rfl,rfl⟩

lemma holds_run (h : Run s e) : Holds s e := by
  induction h with
  | new memory => exact holds_new memory
  | pushBack c x fuel _ hc hp ih =>
    obtain ⟨s',hs',hh⟩ := ih.pushBack hc x
    obtain ⟨-,rfl⟩ := iterate_fuel hs' hp
    exact hh
  | remove c fuel _ hr ih =>
    obtain ⟨s',hs',hh⟩ := ih.remove
    obtain ⟨-,rfl⟩ := iterate_fuel hs' hr
    exact hh

lemma Holds.walk (h : Holds s e) {n : ℕ} (hs : e = before ++ after)
    (hn : after.length ≤ n) : s.walk n (after.map Prod.fst).head? = some after := by
  induction after generalizing before n with
  | nil => cases n <;> rfl
  | cons p rest ih =>
    obtain ⟨n,rfl⟩ : ∃ k, n = k + 1 := ⟨n - 1,by simp at hn; omega⟩
    have hok := h.ok
    rw [hs,map_append,map_cons] at hok
    have hs' : e = (before ++ [p]) ++ rest := by simpa using hs
    have hr := ih hs' (Nat.le_of_succ_le_succ hn)
    have ho := h.obj p (by rw [hs]; simp)
    rw [map_cons,head?_cons,walk,getNext,hok.next_eq,hr,ho]
    rfl

lemma Holds.walk_begin (h : Holds s e) {n : ℕ} (hn : e.length ≤ n) :
    s.walk n s.getBegin = some e := by
  rw [getBegin,h.ok.first_eq]
  exact h.walk (nil_append e).symm hn

theorem list_refines (s : State T) (elems : List (Ptr × T)) (h : Run s elems) :
    s.list.Ok (elems.map Prod.fst) ∧
    s.list.first = (elems.map Prod.fst).head? ∧ s.list.last = (elems.map Prod.fst).getLast? ∧
    (∀ n, elems.length ≤ n → s.walk n s.getBegin = some elems) ∧
    (∀ c x fuel, c ∉ elems.map Prod.fst → ∃ s',
      State.pushBack (fuel + 1) c x s = some (.ok (some c,s')) ∧ Run s' (elems ++ [(c,x)])) ∧
    ∀ before c x after fuel, elems = before ++ (c,x) :: after → ∃ s',
      State.remove (fuel + 1) c s = some (.ok ((after.map Prod.fst).head?,s')) ∧
      Run s' (before ++ after) := by
  have hh := holds_run h
  refine ⟨hh.ok,hh.ok.first_eq,hh.ok.last_eq,fun n hn => hh.walk_begin hn, fun c x fuel hc => ?_,?_⟩
  · obtain ⟨s',hs',-⟩ := hh.pushBack hc x
    exact ⟨s',hs' fuel,.pushBack c x _ h hc (hs' fuel)⟩
  · rintro before c x after fuel rfl
    obtain ⟨s',hs',-⟩ := hh.remove
    exact ⟨s',hs' fuel,.remove c _ h (hs' fuel)⟩

end

theorem list_refines_removed : ∃ s : State ℕ, Run s [(7,20)] ∧ s.list.first = some 7 ∧
    s.list.last = some 7 ∧ s.walk 1 s.getBegin = some [(7,20)] := by
  have hn : Run (State.new ⟨none,none,fun _ => none,fun _ => none,fun _ => 0⟩) ([] : List (Ptr × ℕ)) :=
    .new _
  obtain ⟨s₁,-,h₁⟩ := (list_refines _ _ hn).2.2.2.2.1 5 10 0 (by simp)
  obtain ⟨s₂,-,h₂⟩ := (list_refines _ _ h₁).2.2.2.2.1 7 20 0 (by simp)
  obtain ⟨s₃,-,h₃⟩ := (list_refines _ _ h₂).2.2.2.2.2 [] 5 10 [(7,20)] 0 rfl
  obtain ⟨-,hf,hl,hw,-⟩ := list_refines _ _ h₃
  exact ⟨s₃,h₃,hf,hl,hw 1 le_rfl⟩

end Container
