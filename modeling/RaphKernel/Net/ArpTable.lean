import RaphKernel.Container.ListRun
import RaphKernel.Net.UdpServer

namespace Net
namespace ArpTable
open Bytes Raph Container Loop Function Prod

def findBody (s : State ArpEntry) (ipAddr : Word32) : Option Ptr → Sum (Option Ptr) (Option Ptr)
  | none => .inr none
  | some c => if (s.list.obj c).ipAddr = ipAddr then .inr (some c) else .inl (s.getNext c)

def find (fuel : ℕ) (ipAddr : Word32) (s : State ArpEntry) : Option (Option Ptr) :=
  iterate (findBody s ipAddr) fuel s.getBegin

def assign (s : State ArpEntry) (c : Ptr) (hwAddr : Vector Byte 6) (dev : NetDev) : State ArpEntry :=
  {s with list := {s.list with
    obj := update s.list.obj c {s.list.obj c with hwAddr := hwAddr, dev := dev}}}

def set (fuel : ℕ) (node : Ptr) (ipAddr : Word32) (hwAddr : Vector Byte 6) (dev : NetDev)
    (s : State ArpEntry) : Option (Except Panic (State ArpEntry)) :=
  match find fuel ipAddr s with
  | none => none
  | some (some c) => some (.ok (assign s c hwAddr dev))
  | some none => (State.pushBack fuel node ⟨ipAddr,hwAddr,dev⟩ s).map fun r => r.map Prod.snd

def search (fuel : ℕ) (ipAddr : Word32) (s : State ArpEntry) :
    Option (Option (Vector Byte 6 × NetDev)) :=
  (find fuel ipAddr s).map fun found =>
    found.map fun c => ((s.list.obj c).hwAddr,(s.list.obj c).dev)

section
variable {entry : ArpEntry} {table before after : List ArpEntry} {ipAddr : Word32}

lemma setEntry_append (h : ∀ e ∈ table, e.ipAddr ≠ entry.ipAddr) :
    setEntry entry table = table ++ [entry] := by
  induction table with
  | nil => rfl
  | cons old table ih =>
    rw [setEntry,if_neg (h old List.mem_cons_self),ih fun e he => h e (List.mem_cons_of_mem old he)]
    rfl

lemma setEntry_replace {old : ArpEntry} (h : ∀ e ∈ before, e.ipAddr ≠ entry.ipAddr)
    (ho : old.ipAddr = entry.ipAddr) :
    setEntry entry (before ++ old :: after) = before ++ entry :: after := by
  induction before with
  | nil => exact if_pos ho
  | cons e before ih =>
    rw [List.cons_append,setEntry,if_neg (h e List.mem_cons_self),ih fun e' he => h e' (List.mem_cons_of_mem e he)]
    rfl

lemma search_setEntry (entry : ArpEntry) (table : List ArpEntry) (ipAddr : Word32) :
    Net.search ipAddr (setEntry entry table) =
      if entry.ipAddr = ipAddr then some (entry.hwAddr,entry.dev) else Net.search ipAddr table := by
  induction table with
  | nil => rfl
  | cons old table ih =>
    rw [setEntry]
    by_cases ho : old.ipAddr = entry.ipAddr
    · rw [if_pos ho,Net.search,Net.search,ho]
      split_ifs <;> rfl
    · rw [if_neg ho,Net.search,Net.search,ih]
      split_ifs with hf he
      · exact absurd (hf.trans he.symm) ho
      · rfl
      · rfl
      · rfl

lemma setEntry_addrs (entry : ArpEntry) (table : List ArpEntry) (ipAddr : Word32) :
    ipAddr ∈ (setEntry entry table).map ArpEntry.ipAddr ↔
      ipAddr = entry.ipAddr ∨ ipAddr ∈ table.map ArpEntry.ipAddr := by
  induction table with
  | nil => simp [setEntry]
  | cons old table ih =>
    rw [setEntry]
    split_ifs with ho
    · simp [ho]
    · simp only [List.map_cons,List.mem_cons,ih]
      tauto

lemma setEntry_nodup (h : (table.map ArpEntry.ipAddr).Nodup) :
    ((setEntry entry table).map ArpEntry.ipAddr).Nodup := by
  induction table with
  | nil => exact List.nodup_singleton _
  | cons old table ih =>
    obtain ⟨hou,hr⟩ := List.nodup_cons.mp h
    rw [setEntry]
    split_ifs with ho
    · exact List.nodup_cons.mpr ⟨ho ▸ hou,hr⟩
    · refine List.nodup_cons.mpr ⟨fun hm => ?_,ih hr⟩
      rcases (setEntry_addrs entry table _).mp hm with heq | hm
      · exact ho heq
      · exact hou hm

lemma search_eq_find (ipAddr : Word32) (table : List ArpEntry) : Net.search ipAddr table =
    (table.find? fun e => e.ipAddr = ipAddr).map fun e => (e.hwAddr,e.dev) := by
  induction table with
  | nil => rfl
  | cons e table ih =>
    by_cases he : e.ipAddr = ipAddr
    · simp [Net.search,he]
    · simp [Net.search,he,ih]

end

def tableOf (history : List ArpEntry) : List ArpEntry := history.foldl (fun table e => setEntry e table) []

def latest (ipAddr : Word32) (history : List ArpEntry) : Option ArpEntry :=
  history.reverse.find? fun e => e.ipAddr = ipAddr

lemma tableOf_append (history : List ArpEntry) (entry : ArpEntry) :
    tableOf (history ++ [entry]) = setEntry entry (tableOf history) := by
  simp [tableOf]

lemma search_tableOf (ipAddr : Word32) (history : List ArpEntry) :
    Net.search ipAddr (tableOf history) = (latest ipAddr history).map fun e => (e.hwAddr,e.dev) := by
  induction history using List.reverseRecOn with
  | nil => rfl
  | append_singleton history entry ih =>
    rw [tableOf_append,search_setEntry,ih]
    by_cases he : entry.ipAddr = ipAddr
    · simp [latest,he]
    · simp [latest,he]

lemma tableOf_nodup (history : List ArpEntry) : ((tableOf history).map ArpEntry.ipAddr).Nodup := by
  induction history using List.reverseRecOn with
  | nil => exact List.nodup_nil
  | append_singleton history entry ih =>
    rw [tableOf_append]
    exact setEntry_nodup ih

section
variable {s s' : State ArpEntry} {elems before after : List (Ptr × ArpEntry)} {node c : Ptr}
  {ipAddr : Word32} {entry : ArpEntry} {history : List ArpEntry}

lemma find_returns (h : Holds s elems) (hs : elems = before ++ after) :
    Returns (findBody s ipAddr) (after.map fst).head?
      ((after.find? fun p => p.2.ipAddr = ipAddr).map fst) := by
  induction after generalizing before with
  | nil => exact returns_of_exit rfl
  | cons p rest ih =>
    have ho := h.obj p (by simp [hs])
    by_cases hp : p.2.ipAddr = ipAddr
    · refine returns_of_exit ?_
      simp [findBody,ho,hp]
    · have hok := h.ok
      rw [hs,List.map_append,List.map_cons] at hok
      have hst : findBody s ipAddr (some p.1) = .inl (rest.map fst).head? := by
        simp [findBody,ho,hp,State.getNext,hok.next_eq]
      have ha : elems = (before ++ [p]) ++ rest := by simp [hs]
      rw [List.find?_cons_of_neg (by simpa using hp)]
      exact (returns_step_iff hst).mpr (ih ha)

lemma find_yields (h : Holds s elems) (ipAddr : Word32) : Yields (fun fuel => find fuel ipAddr s)
    ((elems.find? fun p => p.2.ipAddr = ipAddr).map fst) := by
  have hb : s.getBegin = (elems.map fst).head? := h.ok.first_eq
  have hr : Returns (findBody s ipAddr) (elems.map fst).head?
      ((elems.find? fun p => p.2.ipAddr = ipAddr).map fst) := find_returns h (List.nil_append _).symm
  rw [← hb] at hr
  exact yields_of_returns hr

lemma search_yields (h : Holds s elems) (ipAddr : Word32) :
    Yields (fun fuel => search fuel ipAddr s) (Net.search ipAddr (elems.map snd)) := by
  have hf := (find_yields h ipAddr).map fun found : Option Ptr =>
    found.map fun c => ((s.list.obj c).hwAddr,(s.list.obj c).dev)
  have hr : (((elems.find? fun p => p.2.ipAddr = ipAddr).map fst).map fun c =>
      ((s.list.obj c).hwAddr,(s.list.obj c).dev)) = Net.search ipAddr (elems.map snd) := by
    rw [search_eq_find,List.find?_map,comp_def]
    cases hp : elems.find? fun p => p.2.ipAddr = ipAddr with
    | none => simp
    | some p =>
      have ho := h.obj p (List.mem_of_find?_eq_some hp)
      simp [ho]
  rw [hr] at hf
  exact hf

lemma holds_assign {old : ArpEntry} (h : Holds s (before ++ (c,old) :: after))
    (hip : old.ipAddr = entry.ipAddr) :
    Holds (assign s c entry.hwAddr entry.dev) (before ++ (c,entry) :: after) := by
  have hk : (before ++ (c,entry) :: after).map fst = (before ++ (c,old) :: after).map fst := by
    simp
  have hob := h.obj (c,old) (by simp)
  have hok := h.ok
  rw [List.map_append,List.map_cons] at hok
  have ho := hok.outside
  refine ⟨⟨hk ▸ h.ok.dll⟩,fun p hp => ?_,h.free⟩
  rcases List.mem_append.mp hp with hp | hp
  · have hne : p.1 ≠ c := fun heq => ho (List.mem_append_left _ (List.mem_map.mpr ⟨p,hp,heq⟩))
    exact (update_of_ne hne _ _).trans (h.obj p (by simp [hp]))
  · rcases List.mem_cons.mp hp with rfl | hp
    · refine (update_self ..).trans ?_
      rw [hob]
      exact hip ▸ rfl
    · have hne : p.1 ≠ c := fun heq => ho (List.mem_append_right _ (List.mem_map.mpr ⟨p,hp,heq⟩))
      exact (update_of_ne hne _ _).trans (h.obj p (by simp [hp]))

lemma set_absent (h : Holds s elems) (hn : node ∉ elems.map fst)
    (hp : (elems.find? fun p => p.2.ipAddr = entry.ipAddr) = none) :
    ∃ s', Yields (fun fuel => set fuel node entry.ipAddr entry.hwAddr entry.dev s) (.ok s') ∧
      ∃ elems', Holds s' elems' ∧ elems'.map snd = setEntry entry (elems.map snd) := by
  have hno : ∀ e ∈ elems.map snd, e.ipAddr ≠ entry.ipAddr := by
    intro e he
    obtain ⟨p,hpe,rfl⟩ := List.mem_map.mp he
    simpa using List.find?_eq_none.mp hp p hpe
  obtain ⟨s',hpu,hh⟩ := h.pushBack hn entry
  have hfi := find_yields h entry.ipAddr
  rw [hp] at hfi
  refine ⟨s',hfi.next (fun fuel hf => ?_) fun fuel hf => ?_,_,hh,?_⟩
  · rw [set,hf]
  · cases fuel with
    | zero => cases hf
    | succ fuel =>
      rw [set,hf]
      exact congrArg (Option.map _) (hpu fuel)
  · rw [setEntry_append hno]
    simp

lemma set_present {p : Ptr × ArpEntry} (h : Holds s elems)
    (hp : (elems.find? fun p => p.2.ipAddr = entry.ipAddr) = some p) :
    ∃ s', Yields (fun fuel => set fuel node entry.ipAddr entry.hwAddr entry.dev s) (.ok s') ∧
      ∃ elems', Holds s' elems' ∧ elems'.map snd = setEntry entry (elems.map snd) := by
  have hfi := find_yields h entry.ipAddr
  rw [hp] at hfi
  obtain ⟨hip,before,after,rfl,hb⟩ := List.find?_eq_some_iff_append.mp hp
  have hip : p.2.ipAddr = entry.ipAddr := by simpa using hip
  refine ⟨assign s p.1 entry.hwAddr entry.dev,hfi.next (fun fuel hf => ?_) fun fuel hf => ?_,
    _,holds_assign h hip,?_⟩
  · rw [set,hf]
  · rw [set,hf]
    rfl
  · rw [List.map_append,List.map_cons,List.map_append,List.map_cons,setEntry_replace _ hip]
    intro e he
    obtain ⟨p',hp',rfl⟩ := List.mem_map.mp he
    simpa using hb p' hp'

lemma set_yields (h : Holds s elems) (hn : node ∉ elems.map fst) (entry : ArpEntry) :
    ∃ s', Yields (fun fuel => set fuel node entry.ipAddr entry.hwAddr entry.dev s) (.ok s') ∧
      ∃ elems', Holds s' elems' ∧ elems'.map snd = setEntry entry (elems.map snd) := by
  cases hp : elems.find? fun p => p.2.ipAddr = entry.ipAddr with
  | none => exact set_absent h hn hp
  | some p => exact set_present h hp

def Fresh (s : State ArpEntry) (node : Ptr) : Prop :=
  ∀ n l, s.walk n s.getBegin = some l → node ∉ l.map Prod.fst

inductive Run : State ArpEntry → List ArpEntry → Prop where
  | new (memory : Containers ArpEntry) : Run (.new memory) []
  | set {s s' : State ArpEntry} {history : List ArpEntry} (fuel : ℕ) (node : Ptr) (entry : ArpEntry) :
    Run s history → Fresh s node →
    ArpTable.set fuel node entry.ipAddr entry.hwAddr entry.dev s = some (.ok s') →
    Run s' (history ++ [entry])

lemma Run.holds (h : Run s history) : ∃ elems, Holds s elems ∧ elems.map snd = tableOf history := by
  induction h with
  | new memory => exact ⟨[],holds_new memory,rfl⟩
  | set fuel node entry _ hf hs ih =>
    obtain ⟨elems,hh,ht⟩ := ih
    obtain ⟨s',hy,elems',hh',ht'⟩ := set_yields hh (hf _ _ (hh.walk_begin le_rfl)) entry
    cases hy.eq hs
    exact ⟨elems',hh',by rw [ht',ht,tableOf_append]⟩

theorem set_search_latest (s : State ArpEntry) (history : List ArpEntry) (h : Run s history) :
    (∀ ipAddr, Yields (fun fuel => search fuel ipAddr s)
      ((latest ipAddr history).map fun e => (e.hwAddr,e.dev))) ∧
    (∀ ipAddr, latest ipAddr history = none ↔ ∀ e ∈ history, e.ipAddr ≠ ipAddr) ∧
    (∃ elems, (∀ n, elems.length ≤ n → s.walk n s.getBegin = some elems) ∧
      (elems.map fun p => p.2.ipAddr).Nodup) ∧
    ∀ node entry, Fresh s node → ∃ s',
      Yields (fun fuel => set fuel node entry.ipAddr entry.hwAddr entry.dev s) (.ok s') ∧
      Run s' (history ++ [entry]) := by
  obtain ⟨elems,hh,ht⟩ := h.holds
  refine ⟨fun ipAddr => ?_,fun ipAddr => ?_,⟨elems,fun n hn => hh.walk_begin hn,?_⟩,
    fun node entry hf => ?_⟩
  · rw [← search_tableOf,← ht]
    exact search_yields hh ipAddr
  · simp [latest]
  · have hno := tableOf_nodup history
    rw [← ht,List.map_map] at hno
    exact hno
  · obtain ⟨s',hy,_⟩ := set_yields hh (hf _ _ (hh.walk_begin le_rfl)) entry
    obtain ⟨fuel,hfu⟩ := hy.returns
    exact ⟨s',hy,h.set fuel node entry hf hfu⟩

def emptyTable : State ArpEntry :=
  .new ⟨none,none,fun _ => none,fun _ => none,fun _ => ⟨0,peerMac,gateway⟩⟩

theorem set_search_latest_twice : ∃ s, Run s [⟨1,peerMac,gateway⟩,⟨1,gateway.ethAddr,gateway⟩] ∧
    Yields (fun fuel => search fuel 1 s) (some (gateway.ethAddr,gateway)) ∧
    Yields (fun fuel => search fuel 2 s) none := by
  obtain ⟨s₁,hs₁⟩ : ∃ s₁, set 1 5 1 peerMac gateway emptyTable = some (.ok s₁) := ⟨_,rfl⟩
  obtain ⟨s₂,hs₂⟩ : ∃ s₂, set 1 6 1 gateway.ethAddr gateway s₁ = some (.ok s₂) := by
    cases hs₁
    exact ⟨_,rfl⟩
  have hf : Fresh emptyTable 5 := by
    rintro (_ | n) l hl
    · cases hl
      decide
    · cases hl
      decide
  have hfresh₁ : Fresh s₁ 6 := by
    cases hs₁
    rintro (_ | _ | n) l hl
    · cases hl
    · cases hl
      decide
    · cases hl
      decide
  have hr : Run s₂ [⟨1,peerMac,gateway⟩,⟨1,gateway.ethAddr,gateway⟩] :=
    .set 1 6 ⟨1,gateway.ethAddr,gateway⟩ (.set 1 5 ⟨1,peerMac,gateway⟩ (.new _) hf hs₁) hfresh₁ hs₂
  have hs := (set_search_latest s₂ _ hr).1
  exact ⟨s₂,hr,hs 1,hs 2⟩

end

end ArpTable
end Net
