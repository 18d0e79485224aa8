import RaphKernel.Dev.PciInterrupt

namespace Pci
open Raph Loop Links Interrupt Relation Function List Entry Machine

variable {D : Type}

def Lists.Listed (l : Lists D) (p : ℕ) : Prop :=
  ReflTransGen (fun a b => (l.container a).next = some b) l.irqContainer p

def Lists.Chained (l : Lists D) (p : ℕ) : Prop := ∃ c ih, l.Listed c ∧
  (l.container c).inthandler = some ih ∧
  ReflTransGen (fun a b => (l.inthandler a).next = some b) ih p

structure Fresh (l : Lists D) (nodes : Nodes) : Prop where
  container : ¬ l.Listed nodes.container
  first : ¬ l.Chained nodes.first
  handler : ¬ l.Chained nodes.handler
  distinct : nodes.first ≠ nodes.handler

structure Reg (D : Type) where
  irq : BitVec 32
  device : D
  vector : ℕ

def devicesOf (regs : List (Reg D)) (irq : BitVec 32) : List D :=
  (regs.filter fun r => decide (r.irq = irq)).map Reg.device

lemma devicesOf_same (regs : List (Reg D)) (irq : BitVec 32) (dev : D) (vec : ℕ) :
    devicesOf (regs ++ [⟨irq,dev,vec⟩]) irq = devicesOf regs irq ++ [dev] := by
  simp [devicesOf]

lemma devicesOf_other (regs : List (Reg D)) {irq irq' : BitVec 32} (h : irq ≠ irq') (dev : D)
    (vec : ℕ) : devicesOf (regs ++ [⟨irq,dev,vec⟩]) irq' = devicesOf regs irq' := by
  simp [devicesOf,h]

structure Wiring (m : Machine D) (regs : List (Reg D)) (entries : List (Entry D)) : Prop where
  holds : Holds m.lists entries
  irqs : (entries.map fun e => e.route.irq).Nodup
  vectors : (entries.map fun e => e.route.vector).Nodup
  busy : ∀ e ∈ entries, (m.idt.callback m.cpuid e.route.vector).callback = some .legacyIntHandler
  devices : ∀ e ∈ entries, e.route.devices = devicesOf regs e.route.irq
  routed : ∀ r ∈ regs, ∃ e ∈ entries, e.route.irq = r.irq ∧ e.route.vector = r.vector
  known : ∀ e ∈ entries, ∃ r ∈ regs, r.irq = e.route.irq

section
variable {l : Lists D} {m m' : Machine D} {es before after : List (Entry D)} {e : Entry D}
  {ns : Nodes} {irq : BitVec 32} {dev : D} {type : EoiType} {vec : ℕ}

lemma Holds.listed (h : Holds l es) {p : ℕ}
    (hp : p ∈ l.irqContainer :: es.map container) : l.Listed p :=
  follows_reaches h.containers.linked hp

lemma Holds.chained (h : Holds l es) {p : ℕ} (hp : p ∈ es.flatMap owned) :
    l.Chained p := by
  obtain ⟨e,he,hme⟩ := mem_flatMap.mp hp
  have hm := h.mirrors e he
  exact ⟨e.container,e.first,h.listed (mem_cons_of_mem _ (List.mem_map_of_mem he)),
    hm.first,follows_reaches hm.linked.linked hme⟩

lemma Holds.unused (h : Holds l es) (hf : Fresh l ns) : Unused es l ns :=
  ⟨fun hp => hf.container (h.listed hp),fun hp => hf.first (h.chained hp),
    fun hp => hf.handler (h.chained hp),hf.distinct⟩

lemma Holds.scan_yields (h : Holds l es) (test : IrqContainer → Bool) :
    (∃ before e after, es = before ++ e :: after ∧ test (l.container e.container) = true ∧
      (∀ e' ∈ before, test (l.container e'.container) = false) ∧
      ∃ ic, Yields (l.scan test) (ic,some e.container)) ∨
    (∀ e ∈ es, test (l.container e.container) = false) ∧
      Yields (l.scan test) (final l.irqContainer (es.map container),none) := by
  rcases l.scan_returns test h.containers.linked h.containers.stop with
    ⟨before',nic,after',hs,hni,hb,hr⟩ | ⟨hn,hr⟩
  · obtain ⟨before,rest,rfl,rfl,hre⟩ := map_eq_append_iff.mp hs
    obtain ⟨e,after,rfl,rfl,rfl⟩ := map_eq_cons_iff.mp hre
    refine .inl ⟨before,e,after,rfl,hni,?_,_,yields_of_returns hr⟩
    exact fun e' he' => hb _ (List.mem_map_of_mem he')
  · exact .inr ⟨fun e he => hn _ (List.mem_map_of_mem he),yields_of_returns hr⟩

lemma Machine.share_steady (m : Machine D) (nic node : ℕ) (dev : D) :
    Steady fun fuel => m.share fuel nic node dev := by
  unfold share
  cases (m.lists.container nic).inthandler with
  | none => exact steady_const _
  | some ih => exact (steady_iterate _ _).map _

lemma Holds.share_yields (h : Holds m.lists es) (he : e ∈ es) (node : ℕ) (dev : D) :
    Yields (fun fuel => m.share fuel e.container node dev)
      (.ok (e.route.vector,{m with lists := m.lists.link e.tail node dev})) := by
  have hm := h.mirrors e he
  have hl := yields_of_returns (Lists.last_returns hm.linked.linked hm.linked.stop)
  have hv : (do
      let lists ← m.lists.addDevice e.tail node dev
      return ((m.lists.container e.container).vector,{m with lists := lists})) =
      .ok (e.route.vector,{m with lists := m.lists.link e.tail node dev}) := by
    rw [addDevice_ok hm.stop,hm.vector]
    rfl
  rw [← hv]
  unfold share
  rw [hm.first]
  exact hl.map _

lemma Wiring.share {regs : List (Reg D)} (h : Wiring m regs (before ++ e :: after))
    (hn : Unused (before ++ e :: after) m.lists ns) (dev : D) :
    Wiring {m with lists := m.lists.link e.tail ns.handler dev}
      (regs ++ [⟨e.route.irq,dev,e.route.vector⟩])
      (before ++ e.extend ns.handler dev :: after) := by
  obtain ⟨hh,hir,hv,hb,hd,hru,hk⟩ := h
  have ha : ∀ e' ∈ before ++ after, e.route.irq ≠ e'.route.irq := by
    rw [map_append,map_cons,nodup_middle,nodup_cons,← map_append] at hir
    exact fun e' he' heq => hir.1 (heq ▸ List.mem_map_of_mem he')
  rw [forall_mem_append,forall_mem_cons] at hb hd hk
  rw [forall_mem_append] at ha
  refine ⟨hh.extend hn.handler dev,?_,?_,?_,?_,?_,?_⟩
  · simpa [Entry.extend] using hir
  · simpa [Entry.extend] using hv
  · exact forall_mem_append.mpr ⟨hb.1,forall_mem_cons.mpr hb.2⟩
  · refine forall_mem_append.mpr ⟨?_,forall_mem_cons.mpr ⟨?_,?_⟩⟩
    · intro e' he'
      exact (hd.1 e' he').trans (devicesOf_other regs (ha.1 e' he') dev _).symm
    · exact (congrArg (· ++ [dev]) hd.2.1).trans (devicesOf_same regs _ dev _).symm
    · intro e' he'
      exact (hd.2.2 e' he').trans (devicesOf_other regs (ha.2 e' he') dev _).symm
  · refine forall_mem_append.mpr ⟨fun r hr => ?_,forall_mem_singleton.mpr ?_⟩
    · obtain ⟨e',he',hro⟩ := hru r hr
      rcases mem_append.mp he' with he' | he'
      · exact ⟨e',mem_append_left _ he',hro⟩
      rcases mem_cons.mp he' with rfl | he'
      · exact ⟨e'.extend ns.handler dev,by simp,hro⟩
      · exact ⟨e',by simp [he'],hro⟩
    · exact ⟨e.extend ns.handler dev,by simp,rfl,rfl⟩
  · have ho : ∀ e' : Entry D, (∃ r ∈ regs, r.irq = e'.route.irq) →
        ∃ r ∈ regs ++ [⟨e.route.irq,dev,e.route.vector⟩], r.irq = e'.route.irq := by
      rintro e' ⟨r,hr,hiq⟩
      exact ⟨r,mem_append_left _ hr,hiq⟩
    exact forall_mem_append.mpr ⟨fun e' he' => ho e' (hk.1 e' he'),
      forall_mem_cons.mpr ⟨ho e hk.2.1,fun e' he' => ho e' (hk.2.2 e' he')⟩⟩

lemma Wiring.occupied {regs : List (Reg D)} (h : Wiring m regs es) (he : e ∈ es) :
    m.idt.isFree m.cpuid e.route.vector = false := by
  rw [Idt.isFree,h.busy e he]
  rfl

lemma Wiring.unrouted {regs : List (Reg D)} (h : Wiring m regs es)
    (hn : ∀ e ∈ es, e.route.irq ≠ irq) : devicesOf regs irq = [] := by
  refine map_eq_nil_iff.mpr (filter_eq_nil_iff.mpr fun r hr => ?_)
  obtain ⟨e,he,hir,_⟩ := h.routed r hr
  simpa [← hir] using hn e he

variable [DecidableEq D]

lemma Holds.register_yields (h : Holds m.lists es) (ns : Nodes) (irq : BitVec 32)
    (dev : D) (type : EoiType) :
    (∃ before e after, es = before ++ e :: after ∧ e.route.irq = irq ∧
      Yields (fun fuel => m.registerLegacyIntHandler fuel ns irq dev type)
        (.ok (e.route.vector,{m with lists := m.lists.link e.tail ns.handler dev}))) ∨
    (∀ e ∈ es, e.route.irq ≠ irq) ∧
      Yields (fun fuel => m.registerLegacyIntHandler fuel ns irq dev type)
        (m.connect (final m.lists.irqContainer (es.map container)) ns irq dev
          type) := by
  rcases h.scan_yields fun c => decide (c.irq = irq) with
    ⟨before,e,after,rfl,he,_,ic,hscan⟩ | ⟨hnone,hscan⟩
  · have hm : e ∈ before ++ e :: after := by simp
    refine .inl ⟨before,e,after,rfl,?_,?_⟩
    · rw [← (h.mirrors e hm).irq]
      exact of_decide_eq_true he
    · exact hscan.bind (h.share_yields hm ns.handler dev) (steady_iterate _ _)
        (m.share_steady _ _ _)
  · refine .inr ⟨fun e he => ?_,hscan.bind (yields_const _) (steady_iterate _ _) (steady_const _)⟩
    rw [← (h.mirrors e he).irq]
    exact of_decide_eq_false (hnone e he)

def VectorFree (m : Machine D) : Prop := ∃ v, 64 ≤ v ∧ v < 256 ∧ m.idt.isFree m.cpuid v = true

structure Connected (m : Machine D) (entries : List (Entry D)) (nodes : Nodes) (irq : BitVec 32)
    (device : D) (vector : ℕ) (m' : Machine D) : Prop where
  lists : m'.lists = m.lists.connected (final m.lists.irqContainer (entries.map Entry.container)) nodes
    irq vector device
  cpuid : m'.cpuid = m.cpuid
  handler : m'.handler = m.handler
  cfg : m'.cfg = update m.cfg device (enableInterrupt (m.cfg device))
  free : m.idt.isFree m.cpuid vector = true
  stored : (m'.idt.callback m.cpuid vector).callback = some .legacyIntHandler
  kept : ∀ v, m.idt.isFree m.cpuid v = false → m'.idt.callback m.cpuid v = m.idt.callback m.cpuid v

lemma one_isPow : IsPow 1 := ⟨0,by decide⟩

lemma setIntCallback_new {idt idt' : Idt Routine Unit} {cpuid : ℕ}
    (hf : ∃ v, 64 ≤ v ∧ v < 256 ∧ idt.isFree cpuid v = true)
    (h : idt.setIntCallback cpuid (some .legacyIntHandler) () type = .ok (vec,idt')) :
    idt.isFree cpuid vec = true ∧
      (idt'.callback cpuid vec).callback = some .legacyIntHandler ∧
      ∀ v, idt.isFree cpuid v = false → idt'.callback cpuid v = idt.callback cpuid v := by
  have hr : idt.isGenInitialized = true := by
    rw [Idt.setIntCallback,kassert_bind_ok] at h
    exact h.1
  have hs := answers_served (c := .one cpuid Routine.legacyIntHandler () type) hr h
  have hne : vec ≠ kError := by
    intro he
    rcases hs.error_iff.mp he with hp | hn
    · exact hp one_isPow
    · obtain ⟨v,hl,hh,hv⟩ := hf
      refine hn v ⟨hl,by exact hh,one_dvd v,fun i hi => ?_⟩
      rw [Nat.lt_one_iff.mp hi]
      exact hv
  refine ⟨(hs.fits hne).free 0 Nat.zero_lt_one,?_,fun v hv => hs.busy hv⟩
  exact congrArg IntCallback.callback (hs.stored hne 0 Nat.zero_lt_one)

lemma Holds.connect_spec (h : Holds m.lists es) (hf : VectorFree m)
    (hok : m.connect (final m.lists.irqContainer (es.map container)) ns irq dev type =
      .ok (vec,m')) : Connected m es ns irq dev vec m' := by
  obtain ⟨⟨v,idt⟩,hse,hok⟩ := bind_ok.mp hok
  obtain ⟨⟨flag,ioapic⟩,_,hok⟩ := bind_ok.mp hok
  obtain ⟨lists,hir,hok⟩ := bind_ok.mp hok
  rw [addIrq_ok h.containers.stop] at hir
  cases hir
  obtain ⟨lists,hd,hok⟩ := bind_ok.mp hok
  rw [addDevice_ok linkIrq_first] at hd
  cases hd
  cases hok
  obtain ⟨hv,hs,hk⟩ := setIntCallback_new hf hse
  exact ⟨rfl,rfl,rfl,rfl,hv,hs,hk⟩

lemma Wiring.connect {regs : List (Reg D)} (h : Wiring m regs es)
    (hn : Unused es m.lists ns) (hne : ∀ e ∈ es, e.route.irq ≠ irq)
    (hc : Connected m es ns irq dev vec m') :
    Wiring m' (regs ++ [⟨irq,dev,vec⟩]) (es ++ [.single ns irq vec dev]) := by
  have ha : ∀ e ∈ es, e.route.vector ≠ vec := by
    intro e he heq
    have hf := hc.free
    rw [← heq,h.occupied he] at hf
    cases hf
  refine ⟨?_,?_,?_,?_,?_,?_,?_⟩
  · rw [hc.lists]
    exact h.holds.connect hn irq vec dev
  · rw [map_append]
    exact h.irqs.append (nodup_singleton _) (by simpa [single] using hne)
  · rw [map_append]
    exact h.vectors.append (nodup_singleton _) (by simpa [single] using ha)
  · refine forall_mem_append.mpr ⟨fun e he => ?_,forall_mem_singleton.mpr ?_⟩
    · rw [hc.cpuid,hc.kept _ (h.occupied he)]
      exact h.busy e he
    · rw [hc.cpuid]
      exact hc.stored
  · refine forall_mem_append.mpr ⟨fun e he => ?_,forall_mem_singleton.mpr ?_⟩
    · exact (h.devices e he).trans (devicesOf_other regs (hne e he).symm dev vec).symm
    · refine Eq.trans ?_ (devicesOf_same regs irq dev vec).symm
      rw [h.unrouted hne]
      rfl
  · refine forall_mem_append.mpr ⟨fun r hr => ?_,forall_mem_singleton.mpr ?_⟩
    · obtain ⟨e,he,hro⟩ := h.routed r hr
      exact ⟨e,mem_append_left _ he,hro⟩
    · exact ⟨.single ns irq vec dev,by simp,rfl,rfl⟩
  · refine forall_mem_append.mpr ⟨fun e he => ?_,forall_mem_singleton.mpr ?_⟩
    · obtain ⟨r,hr,hir⟩ := h.known e he
      exact ⟨r,mem_append_left _ hr,hir⟩
    · exact ⟨⟨irq,dev,vec⟩,by simp,rfl⟩

lemma Wiring.register {regs : List (Reg D)} (h : Wiring m regs es) (hf : Fresh m.lists ns)
    (hfr : (∀ r ∈ regs, r.irq ≠ irq) → VectorFree m) {fuel : ℕ}
    (hok : m.registerLegacyIntHandler fuel ns irq dev type = some (.ok (vec,m'))) :
    (∃ entries', Wiring m' (regs ++ [⟨irq,dev,vec⟩]) entries') ∧ m'.handler = m.handler ∧
      ((∃ r ∈ regs, r.irq = irq) → m'.cfg = m.cfg) ∧
      ((∀ r ∈ regs, r.irq ≠ irq) →
        m'.cfg = update m.cfg dev (enableInterrupt (m.cfg dev))) := by
  have hno := h.holds.unused hf
  rcases h.holds.register_yields ns irq dev type with
    ⟨before,e,after,rfl,rfl,hy⟩ | ⟨hne,hy⟩
  · cases hy.eq hok
    obtain ⟨r,hr,hir⟩ := h.known e (by simp)
    exact ⟨⟨_,h.share hno dev⟩,rfl,fun _ => rfl,fun hn => absurd hir (hn r hr)⟩
  · have hn : ∀ r ∈ regs, r.irq ≠ irq := by
      intro r hr hir
      obtain ⟨e,he,hro,_⟩ := h.routed r hr
      exact hne e he (hro.trans hir)
    have hc := h.holds.connect_spec (hfr hn) (hy.eq hok).symm
    refine ⟨⟨_,h.connect hno hne hc⟩,hc.handler,?_,fun _ => hc.cfg⟩
    rintro ⟨r,hr,hir⟩
    exact absurd hir (hn r hr)

end

inductive Run [DecidableEq D] (m₀ : Machine D) : List (Reg D) → Machine D → Prop
  | start : (m₀.lists.container m₀.lists.irqContainer).next = none → Run m₀ [] m₀
  | register {regs : List (Reg D)} {m m' : Machine D} (fuel : ℕ) (nodes : Nodes) (irq : BitVec 32)
    (device : D) (type : EoiType) (vector : ℕ) : Run m₀ regs m → Fresh m.lists nodes →
    (∀ r ∈ regs, r.device ≠ device) → ((∀ r ∈ regs, r.irq ≠ irq) → VectorFree m) →
    m.registerLegacyIntHandler fuel nodes irq device type = some (.ok (vector,m')) →
    Run m₀ (regs ++ [⟨irq,device,vector⟩]) m'

section
variable {m : Machine D} {es : List (Entry D)} {e : Entry D} {regs : List (Reg D)}

lemma Machine.handle_steady (m : Machine D) (c : IrqContainer) : Steady fun fuel => m.handle fuel c := by
  unfold handle
  cases c.inthandler with
  | none => exact steady_const _
  | some ih => exact (steady_iterate _ _).map _

lemma Mirrors.handle_yields (h : Mirrors m.lists e) :
    Yields (fun fuel => m.handle fuel (m.lists.container e.container))
      (.ok (e.route.devices.filter fun d => (m.handler d).isSome)) := by
  have hr := handle_returns [] h.linked.linked h.linked.stop
  rw [nil_append,h.devices] at hr
  unfold handle
  rw [h.first]
  exact (yields_of_returns hr).map _

lemma Wiring.handleInt_yields (h : Wiring m regs es) (he : e ∈ es) :
    Yields (fun fuel => m.handleInt fuel e.route.vector)
      (.ok ((devicesOf regs e.route.irq).filter fun d => (m.handler d).isSome)) := by
  unfold handleInt
  rw [h.busy e he]
  rcases h.holds.scan_yields fun c => decide (c.vector = e.route.vector) with
    ⟨before,e',after,hsplit,hvector,_,ic,hscan⟩ | ⟨hnone,_⟩
  · have he' : e' ∈ es := hsplit ▸ (by simp)
    have hs : e'.route.vector = e.route.vector :=
      (h.holds.mirrors e' he').vector.symm.trans (of_decide_eq_true hvector)
    obtain rfl := inj_on_of_nodup_map h.vectors he' he hs
    rw [← h.devices e' he]
    exact hscan.bind (h.holds.mirrors e' he).handle_yields (steady_iterate _ _) (m.handle_steady _)
  · exact absurd (h.holds.mirrors e he).vector (of_decide_eq_false (hnone e he))

structure Wired (m : Machine D) (regs : List (Reg D)) : Prop where
  vectors : ∀ r ∈ regs, ∀ r' ∈ regs, r.vector = r'.vector ↔ r.irq = r'.irq
  delivered : ∀ r ∈ regs, ∃ called, Yields (fun fuel => m.handleInt fuel r.vector) (.ok called) ∧
    called.Nodup ∧ ∀ d, d ∈ called ↔ (m.handler d).isSome = true ∧
      ∃ r' ∈ regs, r'.irq = r.irq ∧ r'.device = d
  enabled : ∀ r ∈ regs, ¬ InterruptDisabled (m.cfg r.device)

lemma Wiring.vectors_iff (h : Wiring m regs es) {r r' : Reg D} (hr : r ∈ regs) (hr' : r' ∈ regs) :
    r.vector = r'.vector ↔ r.irq = r'.irq := by
  obtain ⟨e,he,hir,hv⟩ := h.routed r hr
  obtain ⟨e',he',hir',hv'⟩ := h.routed r' hr'
  rw [← hir,← hv,← hir',← hv']
  constructor
  · intro heq
    rw [inj_on_of_nodup_map h.vectors he he' heq]
  · intro heq
    rw [inj_on_of_nodup_map h.irqs he he' heq]

lemma Wiring.delivered (h : Wiring m regs es) (ho : (regs.map Reg.device).Nodup) {r : Reg D}
    (hr : r ∈ regs) : ∃ called, Yields (fun fuel => m.handleInt fuel r.vector) (.ok called) ∧
      called.Nodup ∧ ∀ d, d ∈ called ↔ (m.handler d).isSome = true ∧
        ∃ r' ∈ regs, r'.irq = r.irq ∧ r'.device = d := by
  obtain ⟨e,he,hir,hv⟩ := h.routed r hr
  have hy := h.handleInt_yields he
  rw [hir,hv] at hy
  refine ⟨_,hy,?_,fun d => ?_⟩
  · have hs : (devicesOf regs r.irq).Sublist (regs.map Reg.device) := (filter_sublist ..).map _
    exact (hs.nodup ho).filter _
  · simp [devicesOf,and_comm,and_assoc]

variable [DecidableEq D] {m₀ : Machine D}

section
variable (h : Run m₀ regs m)
include h

lemma Run.wiring : ∃ es, Wiring m regs es := by
  induction h with
  | start he =>
    refine ⟨[],⟨⟨trivial,he,nodup_singleton _⟩,nofun,nodup_nil⟩,nodup_nil,
      nodup_nil,nofun,nofun,nofun,nofun⟩
  | register fuel ns irq dev type vec _ hf _ hfr hok ih =>
    obtain ⟨es,hw⟩ := ih
    exact (hw.register hf hfr hok).1

theorem Run.register_returns (ns : Nodes) (irq : BitVec 32) (dev : D) (type : EoiType) :
    ∃ result, Yields (fun fuel => m.registerLegacyIntHandler fuel ns irq dev type) result := by
  obtain ⟨es,hw⟩ := h.wiring
  rcases hw.holds.register_yields ns irq dev type with
    ⟨_,_,_,_,_,hy⟩ | ⟨_,hy⟩
  · exact ⟨_,hy⟩
  · exact ⟨_,hy⟩

lemma Run.once : (regs.map Reg.device).Nodup := by
  induction h with
  | start => exact nodup_nil
  | register fuel ns irq dev type vec _ _ ho _ _ ih =>
    rw [map_append]
    exact ih.append (nodup_singleton _) (by simpa using ho)

lemma Run.cfg_fresh {d : D} (hd : d ∉ regs.map Reg.device) : m.cfg d = m₀.cfg d := by
  induction h with
  | start => rfl
  | @register regs m m' fuel ns irq dev type vec hr hf _ hfr hok ih =>
    rw [map_append,mem_append,not_or] at hd
    have hne : d ≠ dev := fun heq => hd.2 (heq ▸ mem_singleton_self _)
    obtain ⟨es,hw⟩ := hr.wiring
    obtain ⟨_,_,hs,hfi⟩ := hw.register hf hfr hok
    refine Eq.trans ?_ (ih hd.1)
    by_cases hk : ∃ r ∈ regs, r.irq = irq
    · rw [hs hk]
    · push Not at hk
      rw [hfi hk,update_of_ne hne]

lemma Run.cfg_registered : ∀ pre r post, regs = pre ++ r :: post →
    (InterruptDisabled (m.cfg r.device) ↔
      (∃ r' ∈ pre, r'.irq = r.irq) ∧ InterruptDisabled (m₀.cfg r.device)) := by
  induction h with
  | start => simp
  | @register regs m m' fuel ns irq dev type vec hr hfr ho hfe hok ih =>
    intro pre r post hs
    obtain ⟨es,hw⟩ := hr.wiring
    obtain ⟨_,_,hsh,hf⟩ := hw.register hfr hfe hok
    rcases eq_nil_or_concat post with rfl | ⟨post',last,rfl⟩
    · obtain ⟨rfl,hl⟩ := append_inj' hs rfl
      cases hl
      have hb := hr.cfg_fresh (by simpa using ho)
      by_cases hk : ∃ r ∈ regs, r.irq = irq
      · rw [hsh hk,hb]
        exact (and_iff_right hk).symm
      · have hn := hk
        push Not at hn
        rw [hf hn]
        refine iff_of_false ?_ fun hbo => hk hbo.1
        rw [update_self]
        exact enableInterrupt_clears _
    · rw [concat_eq_append,← List.cons_append,← List.append_assoc] at hs
      obtain ⟨rfl,_⟩ := append_inj' hs rfl
      rw [← ih pre r post' rfl]
      have hne := ho r (by simp)
      by_cases hk : ∃ r' ∈ pre ++ r :: post', r'.irq = irq
      · rw [hsh hk]
      · push Not at hk
        rw [hf hk,update_of_ne hne]

end

theorem registrations_wired_iff {m₀ m : Machine D} {regs : List (Reg D)} (h : Run m₀ regs m) :
    Wired m regs ↔ ∀ pre r post, regs = pre ++ r :: post → (∃ r' ∈ pre, r'.irq = r.irq) →
      ¬ InterruptDisabled (m₀.cfg r.device) := by
  obtain ⟨entries,hw⟩ := h.wiring
  constructor
  · rintro ⟨_,_,he⟩ pre r post hs hsh hd
    refine he r (by simp [hs]) ?_
    exact (h.cfg_registered pre r post hs).mpr ⟨hsh,hd⟩
  · intro hc
    refine ⟨fun r hr r' hr' => hw.vectors_iff hr hr',fun r hr => hw.delivered h.once hr,?_⟩
    intro r hr hd
    obtain ⟨pre,post,hs⟩ := append_of_mem hr
    obtain ⟨hsh,hb⟩ := (h.cfg_registered pre r post hs).mp hd
    exact hc pre r post hs hsh hb

end

section

def blank (cfg : Bool → ConfigSpace) : Machine Bool where
  lists := ⟨fun _ => ⟨-1,0,none,none⟩,fun _ => ⟨false,none⟩,0⟩
  cpuid := 1
  lapicid := 2
  idt := ⟨fun _ _ => ⟨none,(),.kNone⟩,true⟩
  ioapic := [Ioapic.Op.quiet]
  cfg := cfg
  handler _ := some 0

def result (m : Machine Bool) : Option (Except Panic (ℕ × Machine Bool)) → Machine Bool
  | some (.ok (_,m')) => m'
  | _ => m

def first (cfg : Bool → ConfigSpace) : Machine Bool :=
  result (blank cfg) ((blank cfg).registerLegacyIntHandler 1 ⟨1,2,3⟩ 9 false .kIoapic)

def second (cfg : Bool → ConfigSpace) : Machine Bool :=
  result (first cfg) ((first cfg).registerLegacyIntHandler 2 ⟨4,5,6⟩ 9 true .kIoapic)

variable (cfg : Bool → ConfigSpace)

lemma first_run : Run (blank cfg) [⟨9,false,64⟩] (first cfg) := by
  have hl : ∀ p, (blank cfg).lists.Listed p → p = 0 := by
    intro p hp
    induction hp with
    | refl => rfl
    | tail _ hs _ => cases hs
  have hc : ∀ p, ¬ (blank cfg).lists.Chained p := by
    rintro p ⟨c,ih,_,hih,_⟩
    cases hih
  refine (Run.start rfl).register 1 ⟨1,2,3⟩ 9 false .kIoapic 64 ?_ nofun (fun _ => ?_) rfl
  · exact ⟨fun h => absurd (hl _ h) (by decide),hc _,hc _,by decide⟩
  · exact ⟨64,by decide,by decide,rfl⟩

lemma second_run : Run (blank cfg) [⟨9,false,64⟩,⟨9,true,64⟩] (second cfg) := by
  have hl : ∀ p, (first cfg).lists.Listed p → p = 0 ∨ p = 1 := by
    intro p hp
    induction hp with
    | refl => exact .inl rfl
    | @tail a b _ hs ih =>
      rcases ih with rfl | rfl
      · exact .inr (Option.some.inj hs).symm
      · cases hs
  have hch : ∀ p, (first cfg).lists.Chained p → p = 2 ∨ p = 3 := by
    rintro p ⟨c,ih,hc,hih,hp⟩
    have hh : ih = 2 := by
      rcases hl c hc with rfl | rfl
      · cases hih
      · exact (Option.some.inj hih).symm
    rw [hh] at hp
    induction hp with
    | refl => exact .inl rfl
    | @tail a b _ hs ih =>
      rcases ih with rfl | rfl
      · exact .inr (Option.some.inj hs).symm
      · cases hs
  refine (first_run cfg).register 2 ⟨4,5,6⟩ 9 true .kIoapic 64 ?_ (by simp) (fun h => ?_) rfl
  · exact ⟨fun h => absurd (hl _ h) (by decide),fun h => absurd (hch _ h) (by decide),
      fun h => absurd (hch _ h) (by decide),by decide⟩
  · exact absurd rfl (h _ (mem_singleton_self _))

theorem second_run_returns : ∃ result, Yields (fun fuel => (second fun _ _ => 0).registerLegacyIntHandler
    fuel ⟨7,8,9⟩ 9 true .kIoapic) result := (second_run _).register_returns _ _ _ _

def disabled : ConfigSpace := fun i => if i = 5 then 4 else 0

theorem shared_stays_disabled : ∃ m, Run (blank fun _ => disabled) [⟨9,false,64⟩,⟨9,true,64⟩] m ∧
    ¬ InterruptDisabled (m.cfg false) ∧ InterruptDisabled (m.cfg true) :=
  ⟨_,second_run _,by decide,by decide⟩

theorem registrations_wired_enabled : ∃ m, Run (blank fun d => if d then fun _ => 0 else disabled)
      [⟨9,false,64⟩,⟨9,true,64⟩] m ∧ Wired m [⟨9,false,64⟩,⟨9,true,64⟩] := by
  refine ⟨_,second_run _,(registrations_wired_iff (second_run _)).mpr ?_⟩
  intro pre r post hs hsh
  rcases pre with _ | ⟨x,_ | ⟨y,pre⟩⟩
  · obtain ⟨_,hm,_⟩ := hsh
    cases hm
  · obtain ⟨_,rfl,_⟩ : _ ∧ (⟨9,true,64⟩ : Reg Bool) = r ∧ _ := by simpa using hs
    decide
  · simp at hs

end

end Pci
