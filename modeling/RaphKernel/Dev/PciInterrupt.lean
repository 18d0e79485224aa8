import RaphKernel.Cpu.Idt
import RaphKernel.Cpu.Ioapic
import RaphKernel.Dev.PciCapability
import RaphKernel.Library.Links

namespace Pci
open Raph Bytes Loop Links Interrupt Relation Function List

def kCommandReg : BitVec 16 := 0x04

def kCommandRegInterruptDisableFlag : BitVec 16 := 1 <<< 10

def writePciReg16 (cfg : ConfigSpace) (reg value : BitVec 16) : ConfigSpace :=
  overwrite cfg (reg &&& 0xfff).toNat [value.setWidth 8,(value >>> 8).setWidth 8]

def InterruptDisabled (cfg : ConfigSpace) : Prop :=
  readPciReg16 cfg kCommandReg &&& kCommandRegInterruptDisableFlag ≠ 0

instance (cfg : ConfigSpace) : Decidable (InterruptDisabled cfg) :=
  inferInstanceAs (Decidable (_ ≠ _))

def enableInterrupt (cfg : ConfigSpace) : ConfigSpace :=
  writePciReg16 cfg kCommandReg
    (readPciReg16 cfg kCommandReg &&& ~~~kCommandRegInterruptDisableFlag)

structure IntHandler (D : Type) where
  device : D
  next : Option ℕ

structure IrqContainer where
  irq : BitVec 32
  vector : ℕ
  inthandler : Option ℕ
  next : Option ℕ

structure Lists (D : Type) where
  container : ℕ → IrqContainer
  inthandler : ℕ → IntHandler D
  irqContainer : ℕ

variable {D : Type}

namespace Lists

def setHandler (l : Lists D) (p : ℕ) (h : IntHandler D) : Lists D :=
  {l with inthandler := update l.inthandler p h}

def newIntHandler (l : Lists D) (p : ℕ) : Lists D := l.setHandler p {l.inthandler p with next := none}

def link (l : Lists D) (ih node : ℕ) (device : D) : Lists D :=
  let l := l.newIntHandler node
  let l := l.setHandler ih {l.inthandler ih with next := some node}
  l.setHandler node {l.inthandler node with device := device}

def addDevice (l : Lists D) (ih node : ℕ) (device : D) : Except Panic (Lists D) := do
  kassert (l.inthandler ih).next.isNone
  return l.link ih node device

def setContainer (l : Lists D) (p : ℕ) (c : IrqContainer) : Lists D :=
  {l with container := update l.container p c}

def newIrqContainer (l : Lists D) (p : ℕ) : Lists D :=
  l.setContainer p {l.container p with irq := -1, inthandler := none, next := none}

def linkIrq (l : Lists D) (ic node first : ℕ) (irq : BitVec 32) (vector : ℕ) : Lists D :=
  let l := l.newIrqContainer node
  let l := l.setContainer ic {l.container ic with next := some node}
  let l := l.setContainer node {l.container node with irq := irq, vector := vector}
  let l := l.newIntHandler first
  l.setContainer node {l.container node with inthandler := some first}

def addIrq (l : Lists D) (ic node first : ℕ) (irq : BitVec 32) (vector : ℕ) :
    Except Panic (Lists D) := do
  kassert (l.container ic).next.isNone
  return l.linkIrq ic node first irq vector

def scanBody (l : Lists D) (test : IrqContainer → Bool) (ic : ℕ) : Sum ℕ (ℕ × Option ℕ) :=
  match (l.container ic).next with
  | none => .inr (ic,none)
  | some nic => if test (l.container nic) then .inr (ic,some nic) else .inl nic

def scan (l : Lists D) (test : IrqContainer → Bool) (fuel : ℕ) : Option (ℕ × Option ℕ) :=
  iterate (l.scanBody test) fuel l.irqContainer

def lastBody (l : Lists D) (ih : ℕ) : Sum ℕ ℕ :=
  match (l.inthandler ih).next with
  | none => .inr ih
  | some nih => .inl nih

end Lists

open Pci.Lists

inductive Routine where
  | legacyIntHandler
  | other (id : ℕ)
  deriving DecidableEq, Repr

structure Machine (D : Type) where
  lists : Lists D
  cpuid : ℕ
  lapicid : BitVec 8
  idt : Idt Routine Unit
  ioapic : List Ioapic.Controller
  cfg : D → ConfigSpace
  handler : D → Option ℕ

structure Nodes where
  container : ℕ
  first : ℕ
  handler : ℕ

namespace Machine

def share (m : Machine D) (fuel nic node : ℕ) (device : D) :
    Option (Except Panic (ℕ × Machine D)) :=
  match (m.lists.container nic).inthandler with
  | none => some (.error .nullPointer)
  | some ih => (iterate m.lists.lastBody fuel ih).map fun ih => do
    let lists ← m.lists.addDevice ih node device
    return ((m.lists.container nic).vector,{m with lists := lists})

def connect [DecidableEq D] (m : Machine D) (ic : ℕ) (nodes : Nodes) (irq : BitVec 32) (device : D)
    (type : EoiType) : Except Panic (ℕ × Machine D) := do
  let (vector,idt) ← m.idt.setIntCallback m.cpuid (some .legacyIntHandler) () type
  let (_,ioapic) ← Ioapic.setupIoInt m.ioapic irq m.lapicid (BitVec.ofNat 8 vector) false false
  let lists ← m.lists.addIrq ic nodes.container nodes.first irq vector
  let lists ← lists.addDevice nodes.first nodes.handler device
  let cfg := update m.cfg device (enableInterrupt (m.cfg device))
  return (vector,{m with lists := lists, idt := idt, ioapic := ioapic, cfg := cfg})

def registerLegacyIntHandler [DecidableEq D] (m : Machine D) (fuel : ℕ) (nodes : Nodes)
    (irq : BitVec 32) (device : D) (type : EoiType) : Option (Except Panic (ℕ × Machine D)) :=
  (m.lists.scan (fun c => decide (c.irq = irq)) fuel).bind fun (ic,found) =>
    match found with
    | some nic => m.share fuel nic nodes.handler device
    | none => some (m.connect ic nodes irq device type)

def callHandler (m : Machine D) (device : D) (called : List D) : List D :=
  if (m.handler device).isSome then called ++ [device] else called

def handleBody (m : Machine D) (s : ℕ × List D) : Sum (ℕ × List D) (List D) :=
  match (m.lists.inthandler s.1).next with
  | none => .inr s.2
  | some nih => .inl (nih,m.callHandler (m.lists.inthandler nih).device s.2)

def handle (m : Machine D) (fuel : ℕ) (c : IrqContainer) : Option (Except Panic (List D)) :=
  match c.inthandler with
  | none => some (.error .nullPointer)
  | some ih => (iterate m.handleBody fuel (ih,[])).map .ok

def legacyIntHandler (m : Machine D) (fuel n : ℕ) : Option (Except Panic (List D)) :=
  (m.lists.scan (fun c => decide (c.vector = n)) fuel).bind fun (_,found) =>
    match found with
    | some nic => m.handle fuel (m.lists.container nic)
    | none => some (.ok [])

def handleInt (m : Machine D) (fuel n : ℕ) : Option (Except Panic (List D)) :=
  match (m.idt.callback m.cpuid n).callback with
  | none => none
  | some .legacyIntHandler => m.legacyIntHandler fuel n
  | some (.other _) => some (.ok [])

end Machine

lemma halves (value : BitVec 16) : (value >>> 8).setWidth 8 ++ value.setWidth 8 = value := by
  apply BitVec.eq_of_getLsbD_eq
  intro i _
  rw [BitVec.getLsbD_append]
  by_cases hl : i < 8
  · simp [hl]
  · simp [hl,(by omega : 8 + (i - 8) = i)]
    omega

lemma readPciReg16_write (cfg : ConfigSpace) (reg value : BitVec 16) :
    readPciReg16 (writePciReg16 cfg reg value) reg = value := by
  simp only [readPciReg16,writePciReg16,overwrite]
  simpa using halves value

lemma enableInterrupt_clears (cfg : ConfigSpace) : ¬ InterruptDisabled (enableInterrupt cfg) := by
  rw [InterruptDisabled,enableInterrupt,readPciReg16_write,not_not,BitVec.and_assoc,
    BitVec.and_comm (~~~ _)]
  simp

section
variable {l : Lists D} {p : ℕ} {ps : List ℕ}

lemma Lists.scan_returns (l : Lists D) (test : IrqContainer → Bool)
    (h : Links.Follows (fun p => (l.container p).next) p ps)
    (hs : (l.container (final p ps)).next = none) :
    (∃ before nic after, ps = before ++ nic :: after ∧ test (l.container nic) = true ∧
        (∀ q ∈ before, test (l.container q) = false) ∧
        Returns (l.scanBody test) p (final p before,some nic)) ∨
      (∀ q ∈ ps, test (l.container q) = false) ∧ Returns (l.scanBody test) p (final p ps,none) := by
  induction ps generalizing p with
  | nil =>
    refine .inr ⟨by simp,returns_of_exit ?_⟩
    simp only [final] at hs
    simp only [scanBody,hs,final]
  | cons q ps ih =>
    have hn := h.1
    cases ht : test (l.container q) with
    | true =>
      refine .inl ⟨[],q,ps,rfl,ht,by simp,returns_of_exit ?_⟩
      simp only [scanBody,hn,ht,if_true,final]
    | false =>
      have hst : l.scanBody test p = .inl q := by
        simp only [scanBody,hn,ht,Bool.false_eq_true,if_false]
      rcases ih h.2 hs with ⟨before,nic,after,rfl,hni,hb,hr⟩ | ⟨hno,hr⟩
      · refine .inl ⟨q :: before,nic,after,rfl,hni,?_,(returns_step_iff hst).mpr hr⟩
        exact forall_mem_cons.mpr ⟨ht,hb⟩
      · exact .inr ⟨forall_mem_cons.mpr ⟨ht,hno⟩,(returns_step_iff hst).mpr hr⟩

lemma Lists.last_returns (h : Links.Follows (fun p => (l.inthandler p).next) p ps)
    (hs : (l.inthandler (final p ps)).next = none) : Returns l.lastBody p (final p ps) := by
  induction ps generalizing p with
  | nil =>
    refine returns_of_exit ?_
    simp only [final] at hs
    simp only [lastBody,hs,final]
  | cons q ps ih =>
    have hn := h.1
    have hst : l.lastBody p = .inl q := by simp only [lastBody,hn]
    exact (returns_step_iff hst).mpr (ih h.2 hs)

lemma Machine.handle_returns {m : Machine D} (called : List D)
    (h : Links.Follows (fun p => (m.lists.inthandler p).next) p ps)
    (hs : (m.lists.inthandler (final p ps)).next = none) :
    Returns m.handleBody (p,called) (called ++ (ps.map fun q => (m.lists.inthandler q).device).filter
      fun d => (m.handler d).isSome) := by
  induction ps generalizing p called with
  | nil =>
    refine returns_of_exit ?_
    simp only [final] at hs
    simp [Machine.handleBody,hs]
  | cons q ps ih =>
    have hn := h.1
    have hst : m.handleBody (p,called) =
        .inl (q,m.callHandler (m.lists.inthandler q).device called) := by
      simp only [Machine.handleBody,hn]
    refine (returns_step_iff hst).mpr ?_
    have hr := ih (m.callHandler (m.lists.inthandler q).device called) h.2 hs
    rw [map_cons,filter_cons]
    unfold Machine.callHandler at hr ⊢
    split_ifs at hr ⊢
    · rw [append_assoc] at hr
      exact hr
    · exact hr

end

structure Route (D : Type) where
  irq : BitVec 32
  vector : ℕ
  devices : List D

structure Entry (D : Type) where
  container : ℕ
  first : ℕ
  rest : List ℕ
  route : Route D

def Entry.owned (e : Entry D) : List ℕ := e.first :: e.rest

structure Mirrors (l : Lists D) (e : Entry D) : Prop where
  irq : (l.container e.container).irq = e.route.irq
  vector : (l.container e.container).vector = e.route.vector
  first : (l.container e.container).inthandler = some e.first
  linked : Sll (fun p => (l.inthandler p).next) e.first e.rest
  devices : e.rest.map (fun p => (l.inthandler p).device) = e.route.devices

structure Holds (l : Lists D) (entries : List (Entry D)) : Prop where
  containers : Sll (fun p => (l.container p).next) l.irqContainer (entries.map Entry.container)
  mirrors : ∀ e ∈ entries, Mirrors l e
  disjoint : (entries.flatMap Entry.owned).Nodup

section
variable {l l' : Lists D} {ih ic node first : ℕ} {dev : D} {e : Entry D}

lemma Mirrors.congr (h : Mirrors l e) {next : Option ℕ}
    (hc : l'.container e.container = {l.container e.container with next := next})
    (hh : ∀ p ∈ e.owned, l'.inthandler p = l.inthandler p) : Mirrors l' e := by
  refine ⟨by rw [hc,h.irq],by rw [hc,h.vector],by rw [hc,h.first],
    h.linked.congr fun p hp => congrArg IntHandler.next (hh p hp),?_⟩
  rw [← h.devices]
  exact map_congr_left fun p hp => congrArg IntHandler.device (hh p (mem_cons_of_mem _ hp))

lemma addDevice_ok (h : (l.inthandler ih).next = none) (node : ℕ) (dev : D) :
    l.addDevice ih node dev = .ok (l.link ih node dev) := by
  rw [addDevice,h]
  rfl

lemma addIrq_ok (h : (l.container ic).next = none) (node first : ℕ) (irq : BitVec 32) (vec : ℕ) :
    l.addIrq ic node first irq vec = .ok (l.linkIrq ic node first irq vec) := by
  rw [addIrq,h]
  rfl

lemma link_tail (hne : ih ≠ node) (dev : D) :
    (l.link ih node dev).inthandler ih = {l.inthandler ih with next := some node} := by
  simp [link,setHandler,newIntHandler,hne]

lemma link_node (hne : ih ≠ node) (dev : D) :
    (l.link ih node dev).inthandler node = ⟨dev,none⟩ := by
  simp [link,setHandler,newIntHandler,hne.symm]

lemma link_other {p : ℕ} (hih : p ≠ ih) (hn : p ≠ node) (dev : D) :
    (l.link ih node dev).inthandler p = l.inthandler p := by
  simp [link,setHandler,newIntHandler,hih,hn]

variable {irq : BitVec 32} {vec : ℕ}

lemma linkIrq_tail (hne : ic ≠ node) :
    (l.linkIrq ic node first irq vec).container ic = {l.container ic with next := some node} := by
  simp [linkIrq,setContainer,newIrqContainer,newIntHandler,setHandler,hne]

lemma linkIrq_node (hne : ic ≠ node) :
    (l.linkIrq ic node first irq vec).container node = ⟨irq,vec,some first,none⟩ := by
  simp [linkIrq,setContainer,newIrqContainer,newIntHandler,setHandler,
    hne.symm]

lemma linkIrq_other {p : ℕ} (hic : p ≠ ic) (hn : p ≠ node) :
    (l.linkIrq ic node first irq vec).container p = l.container p := by
  simp [linkIrq,setContainer,newIrqContainer,newIntHandler,setHandler,
    hic,hn]

lemma linkIrq_first : ((l.linkIrq ic node first irq vec).inthandler first).next = none := by
  simp [linkIrq,setContainer,newIrqContainer,newIntHandler,setHandler]

lemma linkIrq_handler {p : ℕ} (hp : p ≠ first) :
    (l.linkIrq ic node first irq vec).inthandler p = l.inthandler p := by
  simp [linkIrq,setContainer,newIrqContainer,newIntHandler,setHandler,hp]

end

def Entry.extend (e : Entry D) (node : ℕ) (device : D) : Entry D :=
  {e with rest := e.rest ++ [node], route := {e.route with devices := e.route.devices ++ [device]}}

section
variable {l : Lists D} {e : Entry D} {before after es : List (Entry D)} {node : ℕ} {dev : D}

def Entry.tail (e : Entry D) : ℕ := final e.first e.rest

lemma Entry.tail_mem (e : Entry D) : e.tail ∈ e.owned := final_mem e.first e.rest

lemma Mirrors.stop (h : Mirrors l e) : (l.inthandler e.tail).next = none := h.linked.stop

lemma Mirrors.extend (h : Mirrors l e) (hn : node ∉ e.owned) (dev : D) :
    Mirrors (l.link e.tail node dev) (e.extend node dev) := by
  have hne := ne_of_mem_of_not_mem e.tail_mem hn
  have hk : ∀ p ∈ e.owned, p ≠ e.tail → (l.link e.tail node dev).inthandler p = l.inthandler p :=
    fun p hp ht => link_other ht (ne_of_mem_of_not_mem hp hn) dev
  have hd : ∀ p ∈ e.owned,
      ((l.link e.tail node dev).inthandler p).device = (l.inthandler p).device := by
    intro p hp
    by_cases ht : p = e.tail
    · rw [ht,link_tail hne]
    · rw [hk p hp ht]
  refine ⟨h.irq,h.vector,h.first,h.linked.push hn ?_ ?_ ?_,?_⟩
  · exact congrArg IntHandler.next (link_tail hne dev)
  · exact congrArg IntHandler.next (link_node hne dev)
  · exact fun p hp ht => congrArg IntHandler.next (hk p hp ht)
  · simp only [Entry.extend,map_append,map_singleton,link_node hne,← h.devices]
    refine congrArg (· ++ [dev]) (map_congr_left fun p hp => ?_)
    exact hd p (mem_cons_of_mem _ hp)

lemma owned_extend (before after : List (Entry D)) (e : Entry D) (node : ℕ) (dev : D) :
    ((before ++ e.extend node dev :: after).flatMap Entry.owned).Perm
      (node :: (before ++ e :: after).flatMap Entry.owned) := by
  have hm : ((before.flatMap Entry.owned ++ e.owned) ++ node :: after.flatMap Entry.owned).Perm
      (node :: ((before.flatMap Entry.owned ++ e.owned) ++ after.flatMap Entry.owned)) :=
    perm_middle
  simpa [flatMap_append,flatMap_cons,Entry.owned,Entry.extend] using hm

lemma tail_apart (h : ((before ++ e :: after).flatMap Entry.owned).Nodup) {e' : Entry D}
    (he' : e' ∈ before ∨ e' ∈ after) : e.tail ∉ e'.owned := by
  rw [flatMap_append,flatMap_cons] at h
  obtain ⟨_,hr,hb⟩ := nodup_append.mp h
  obtain ⟨_,_,ha⟩ := nodup_append.mp hr
  intro hm
  rcases he' with he' | he'
  · exact hb _ (mem_flatMap.mpr ⟨e',he',hm⟩) _ (mem_append_left _ e.tail_mem) rfl
  · exact ha _ e.tail_mem _ (mem_flatMap.mpr ⟨e',he',hm⟩) rfl

lemma Holds.extend (h : Holds l (before ++ e :: after))
    (hn : node ∉ (before ++ e :: after).flatMap Entry.owned) (dev : D) :
    Holds (l.link e.tail node dev) (before ++ e.extend node dev :: after) := by
  have how : ∀ e' ∈ before ++ e :: after, node ∉ e'.owned :=
    fun e' he' hm => hn (mem_flatMap.mpr ⟨e',he',hm⟩)
  refine ⟨?_,?_,?_⟩
  · have hc := h.containers
    simp only [map_append,map_cons] at hc ⊢
    exact hc
  · have ho : ∀ e' ∈ before ++ e :: after, e' ∈ before ∨ e' ∈ after →
        Mirrors (l.link e.tail node dev) e' := by
      intro e' he' ha
      refine (h.mirrors e' he').congr rfl fun p hp => ?_
      exact link_other (ne_of_mem_of_not_mem hp (tail_apart h.disjoint ha))
        (ne_of_mem_of_not_mem hp (how e' he')) dev
    intro e' he'
    rcases mem_append.mp he' with he' | he'
    · exact ho e' (mem_append_left _ he') (.inl he')
    · rcases mem_cons.mp he' with rfl | he'
      · exact (h.mirrors e (by simp)).extend (how e (by simp)) dev
      · exact ho e' (by simp [he']) (.inr he')
  · rw [(owned_extend before after e node dev).nodup_iff,nodup_cons]
    exact ⟨hn,h.disjoint⟩

structure Unused (entries : List (Entry D)) (l : Lists D) (nodes : Nodes) : Prop where
  container : nodes.container ∉ l.irqContainer :: entries.map Entry.container
  first : nodes.first ∉ entries.flatMap Entry.owned
  handler : nodes.handler ∉ entries.flatMap Entry.owned
  distinct : nodes.first ≠ nodes.handler

def Entry.single (nodes : Nodes) (irq : BitVec 32) (vector : ℕ) (device : D) : Entry D :=
  ⟨nodes.container,nodes.first,[nodes.handler],⟨irq,vector,[device]⟩⟩

def Lists.connected (l : Lists D) (ic : ℕ) (nodes : Nodes) (irq : BitVec 32) (vector : ℕ) (device : D) :
    Lists D :=
  (l.linkIrq ic nodes.container nodes.first irq vector).link nodes.first nodes.handler device

lemma mirrors_single {ic : ℕ} {ns : Nodes} (hne : ic ≠ ns.container)
    (hd : ns.first ≠ ns.handler) (irq : BitVec 32) (vec : ℕ) (dev : D) :
    Mirrors (l.connected ic ns irq vec dev) (.single ns irq vec dev) := by
  have hc : (l.connected ic ns irq vec dev).container ns.container =
    ⟨irq,vec,some ns.first,none⟩ := linkIrq_node hne
  have he : Sll (fun p =>
      ((l.linkIrq ic ns.container ns.first irq vec).inthandler p).next) ns.first [] :=
    ⟨trivial,linkIrq_first,nodup_singleton _⟩
  refine ⟨?_,?_,?_,?_,?_⟩
  · exact congrArg IrqContainer.irq hc
  · exact congrArg IrqContainer.vector hc
  · exact congrArg IrqContainer.inthandler hc
  · refine he.push (by simpa using hd.symm) ?_ ?_ fun p hp hne => ?_
    · exact congrArg IntHandler.next (link_tail hd dev)
    · exact congrArg IntHandler.next (link_node hd dev)
    · exact absurd (mem_singleton.mp hp) hne
  · exact congrArg (fun h => [IntHandler.device h]) (link_node hd dev)

lemma Mirrors.connected {ic : ℕ} {ns : Nodes} (h : Mirrors l e) (hic : ic ≠ ns.container)
    (he : e.container ≠ ns.container) (hf : ns.first ∉ e.owned)
    (hh : ns.handler ∉ e.owned) (irq : BitVec 32) (vec : ℕ) (dev : D) :
    Mirrors (l.connected ic ns irq vec dev) e := by
  have hc : ∃ next, (l.connected ic ns irq vec dev).container e.container =
      {l.container e.container with next := next} := by
    by_cases hl : e.container = ic
    · rw [hl]
      exact ⟨some ns.container,linkIrq_tail hic⟩
    · exact ⟨(l.container e.container).next,linkIrq_other hl he⟩
  obtain ⟨next,hn⟩ := hc
  refine h.congr hn fun p hp => ?_
  have hp' := ne_of_mem_of_not_mem hp hf
  exact (link_other hp' (ne_of_mem_of_not_mem hp hh) dev).trans (linkIrq_handler hp')

lemma Holds.connect {ns : Nodes} (h : Holds l es) (hn : Unused es l ns)
    (irq : BitVec 32) (vec : ℕ) (dev : D) :
    Holds (l.connected (final l.irqContainer (es.map Entry.container)) ns irq vec dev)
      (es ++ [.single ns irq vec dev]) := by
  have hne := ne_of_mem_of_not_mem (final_mem _ _) hn.container
  refine ⟨?_,?_,?_⟩
  · rw [map_append]
    refine h.containers.push hn.container ?_ ?_ fun p hp hl => ?_
    · exact congrArg IrqContainer.next (linkIrq_tail hne)
    · exact congrArg IrqContainer.next (linkIrq_node hne)
    · exact congrArg IrqContainer.next (linkIrq_other hl (ne_of_mem_of_not_mem hp hn.container))
  · intro e he
    rcases mem_append.mp he with he | he
    · have hm : e.container ∈ l.irqContainer :: es.map Entry.container :=
        mem_cons_of_mem _ (mem_map_of_mem he)
      refine (h.mirrors e he).connected hne (ne_of_mem_of_not_mem hm hn.container) ?_ ?_ _ _ _
      · exact fun hf => hn.first (mem_flatMap.mpr ⟨e,he,hf⟩)
      · exact fun hh => hn.handler (mem_flatMap.mpr ⟨e,he,hh⟩)
    · rw [mem_singleton.mp he]
      exact mirrors_single hne hn.distinct irq vec dev
  · rw [flatMap_append,nodup_append]
    refine ⟨h.disjoint,?_,?_⟩
    · simp [Entry.single,Entry.owned,hn.distinct]
    · intro p hp q hq
      simp only [Entry.single,Entry.owned,flatMap_singleton,mem_cons,not_mem_nil,or_false] at hq
      rcases hq with rfl | rfl
      · exact ne_of_mem_of_not_mem hp hn.first
      · exact ne_of_mem_of_not_mem hp hn.handler

end

end Pci
