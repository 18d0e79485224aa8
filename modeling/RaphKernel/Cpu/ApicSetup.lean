import RaphKernel.Cpu.Acpi
import RaphKernel.Cpu.Ioapic

namespace Acpi
open Raph Bytes Loop Records Function BitVec Nat

def enabled (flags : Word32) : Bool := flags &&& 1 ≠ 0

namespace Madt

def size : ℕ := 44

def kMmioBaseAddr : Word32 := 0xfee00000

inductive StType where
  | kLocalAPIC
  | kIOAPIC
  | kLocalX2Apic
  | other
  deriving DecidableEq, Repr

def stType (type : Byte) : StType :=
  if type = 0 then .kLocalAPIC
  else if type = 1 then .kIOAPIC
  else if type = 9 then .kLocalX2Apic
  else .other

def castSize (type : Byte) : ℕ :=
  match stType type with
  | .kLocalAPIC => 8
  | .kIOAPIC => 12
  | .kLocalX2Apic => 16
  | .other => 2

def lapicCtrlAddr (t : Table) : Word32 := dword t 36

structure Count where
  ncpu : Word32
  ioapicNum : Word32

def countVisit (t : Table) (p : ℕ) (c : Count) : Except Panic Count :=
  let ptr := size + p
  match stType (t ptr) with
  | .kLocalAPIC => if enabled (dword t (ptr + 4)) then .ok {c with ncpu := c.ncpu + 1} else .ok c
  | .kLocalX2Apic => if enabled (dword t (ptr + 8)) then .ok {c with ncpu := c.ncpu + 1} else .ok c
  | .kIOAPIC => .ok {c with ioapicNum := c.ioapicNum + 1}
  | .other => .ok c

structure Filled where
  ncpu : Word32
  ioapicNum : Word32
  apicInfo : ℤ → Option Word32
  controller : ℤ → Option Ioapic.Controller

def Filled.addCpu (f : Filled) (id : Word32) : Filled :=
  {f with apicInfo := update f.apicInfo f.ncpu.toInt (some id), ncpu := f.ncpu + 1}

def Filled.addIoapic (f : Filled) (c : Ioapic.Controller) : Filled :=
  {f with
    controller := update f.controller f.ioapicNum.toInt (some c)
    ioapicNum := f.ioapicNum + 1}

def fillVisit (t : Table) (mmio : Word32 → Word32 → Word32) (p : ℕ) (f : Filled) :
    Except Panic Filled :=
  let ptr := size + p
  match stType (t ptr) with
  | .kLocalAPIC =>
    if enabled (dword t (ptr + 4)) then
      if lapicCtrlAddr t = kMmioBaseAddr then .ok (f.addCpu ((t (ptr + 3)).setWidth 32))
      else kernelPanic "lapic" "unexpected local APIC control address"
    else .ok f
  | .kLocalX2Apic =>
    if enabled (dword t (ptr + 8)) then .ok (f.addCpu (dword t (ptr + 4))) else .ok f
  | .kIOAPIC =>
    .ok (f.addIoapic (Ioapic.Controller.setup (mmio (dword t (ptr + 4))) (dword t (ptr + 8))))
  | .other => .ok f

def countPass (t : Table) : ℕ → Option (List ℕ × Except Panic Count) :=
  walk t size (countVisit t) ⟨0,0⟩

def fillPass (t : Table) (mmio : Word32 → Word32 → Word32) :
    ℕ → Option (List ℕ × Except Panic Filled) :=
  walk t size (fillVisit t mmio) ⟨0,0,fun _ => none,fun _ => none⟩

structure Apic where
  ncpu : Word32
  apicInfo : ℤ → Option Word32
  controllerNum : Word32
  controller : ℤ → Option Ioapic.Controller

def store (c : Count) (f : Filled) : Apic where
  ncpu := c.ncpu
  apicInfo i := if 0 ≤ i ∧ i < f.ncpu.toInt then f.apicInfo i else none
  controllerNum := c.ioapicNum
  controller := f.controller

def fillAfter (t : Table) (mmio : Word32 → Word32 → Word32) (c : Except Panic Count) (fuel : ℕ) :
    Option (Except Panic Apic) :=
  match c with
  | .error e => some (.error e)
  | .ok c =>
    if c.ioapicNum = 0 then some (kernelPanic "ApicCtrl" "No I/O APIC controller")
    else (fillPass t mmio fuel).map fun r => r.2.map (store c)

def setup (timer : Bool) (madt : Option Table) (mmio : Word32 → Word32 → Word32) (fuel : ℕ) :
    Option (Except Panic Apic) :=
  match timer, madt with
  | true, some t => (countPass t fuel).bind fun r => fillAfter t mmio r.2 fuel
  | _, _ => some (.error .kassert)

def cpu (t : Table) (p : ℕ) : Bool :=
  match stType (t (size + p)) with
  | .kLocalAPIC => enabled (dword t (size + p + 4))
  | .kLocalX2Apic => enabled (dword t (size + p + 8))
  | _ => false

def ioapic (t : Table) (p : ℕ) : Bool :=
  match stType (t (size + p)) with
  | .kIOAPIC => true
  | _ => false

section
variable {t : Table} {mmio : Word32 → Word32 → Word32} {p : ℕ} {ps : List ℕ} {c : Count}
  {f f' : Filled}

lemma countVisit_eq (t : Table) (p : ℕ) (c : Count) :
    countVisit t p c = .ok ⟨c.ncpu + BitVec.ofNat 32 (if cpu t p then 1 else 0),
      c.ioapicNum + BitVec.ofNat 32 (if ioapic t p then 1 else 0)⟩ := by
  cases ht : stType (t (size + p)) with
  | kLocalAPIC =>
    cases he : enabled (dword t (size + p + 4)) <;> simp [countVisit,cpu,ioapic,ht,he]
  | kLocalX2Apic =>
    cases he : enabled (dword t (size + p + 8)) <;> simp [countVisit,cpu,ioapic,ht,he]
  | kIOAPIC | other => simp [countVisit,cpu,ioapic,ht]

lemma count_run (t : Table) (ps : List ℕ) (c : Count) :
    run (countVisit t) ps c = (ps,.ok ⟨c.ncpu + BitVec.ofNat 32 (ps.countP (cpu t)),
      c.ioapicNum + BitVec.ofNat 32 (ps.countP (ioapic t))⟩) := by
  induction ps generalizing c with
  | nil => simp [run]
  | cons p ps ih =>
    rw [run_cons_ok (countVisit_eq t p c),ih,List.countP_cons,List.countP_cons,
      add_comm (ps.countP _),add_comm (ps.countP _),ofNat_add,
      ofNat_add,BitVec.add_assoc,BitVec.add_assoc]

inductive Filling (t : Table) (p : ℕ) (f : Filled) : Filled → Prop
  | adds (id : Word32) : cpu t p = true → ioapic t p = false → Filling t p f (f.addCpu id)
  | joins (c : Ioapic.Controller) : cpu t p = false → ioapic t p = true →
    Filling t p f (f.addIoapic c)
  | skip : cpu t p = false → ioapic t p = false → Filling t p f f

lemma fillVisit_cases (t : Table) (mmio : Word32 → Word32 → Word32) (p : ℕ) (f : Filled) :
    (∃ f', fillVisit t mmio p f = .ok f' ∧ Filling t p f f') ∨
      fillVisit t mmio p f = kernelPanic "lapic" "unexpected local APIC control address" := by
  have hc := cpu.eq_def t p
  have hio := ioapic.eq_def t p
  rw [fillVisit]
  cases ht : stType _ with
  | kLocalAPIC =>
    rw [ht] at hc hio
    cases he : enabled _ with
    | false => exact .inl ⟨f,by simp,.skip (hc.trans he) hio⟩
    | true =>
      by_cases ha : lapicCtrlAddr t = kMmioBaseAddr
      · refine .inl ⟨_,?_,.adds ((t (size + p + 3)).setWidth 32) (hc.trans he) hio⟩
        simp [ha]
      · exact .inr (by simp [ha])
  | kLocalX2Apic =>
    rw [ht] at hc hio
    cases he : enabled (dword t (size + p + 8)) with
    | false => exact .inl ⟨f,by simp,.skip (hc.trans he) hio⟩
    | true =>
      exact .inl ⟨_,by simp,.adds (dword t (size + p + 4)) (hc.trans he) hio⟩
  | kIOAPIC =>
    rw [ht] at hc hio
    exact .inl ⟨_,rfl,.joins _ hc hio⟩
  | other =>
    rw [ht] at hc hio
    exact .inl ⟨f,rfl,.skip hc hio⟩

def Slots {A : Type} (m : ℤ → Option A) (n : ℕ) : Prop := ∀ i, (m i).isSome ↔ 0 ≤ i ∧ i < n

lemma Slots.add {A : Type} {m : ℤ → Option A} {n : ℕ} (h : Slots m n) (a : A) :
    Slots (update m n (some a)) (n + 1) := by
  intro i
  by_cases hi : i = n
  · subst hi
    simp
  · rw [update_of_ne hi,h i]
    omega

structure Stored (f : Filled) (m n : ℕ) : Prop where
  ncpu : f.ncpu = BitVec.ofNat 32 m
  apicInfo : Slots f.apicInfo m
  ioapicNum : f.ioapicNum = BitVec.ofNat 32 n
  controller : Slots f.controller n

lemma toInt_index {n : ℕ} : (BitVec.ofNat 32 n).toInt = n ↔ n < 2 ^ 31 := by
  rw [toInt_eq_toNat_cond,toNat_ofNat]
  split <;> omega

lemma Filling.stored (h : Filling t p f f') {m n : ℕ} (hf : Stored f m n) (hm : m < 2 ^ 31)
    (hn : n < 2 ^ 31) :
    Stored f' (m + if cpu t p then 1 else 0) (n + if ioapic t p then 1 else 0) := by
  cases h with
  | adds id hc hi =>
    rw [if_pos hc,if_neg (Bool.eq_false_iff.mp hi)]
    refine ⟨?_,?_,hf.ioapicNum,hf.controller⟩
    · rw [ofNat_add,← hf.ncpu]
      rfl
    · rw [Filled.addCpu,hf.ncpu,toInt_index.mpr hm]
      exact hf.apicInfo.add id
  | joins c hc hi =>
    rw [if_neg (Bool.eq_false_iff.mp hc),if_pos hi]
    refine ⟨hf.ncpu,hf.apicInfo,?_,?_⟩
    · rw [ofNat_add,← hf.ioapicNum]
      rfl
    · rw [Filled.addIoapic,hf.ioapicNum,toInt_index.mpr hn]
      exact hf.controller.add c
  | skip hc hi =>
    rw [if_neg (Bool.eq_false_iff.mp hc),if_neg (Bool.eq_false_iff.mp hi)]
    exact hf

lemma fill_run_stored {m n : ℕ} (hf : Stored f m n) (hm : m + ps.countP (cpu t) < 2 ^ 31)
    (hn : n + ps.countP (ioapic t) < 2 ^ 31) (h : (run (fillVisit t mmio) ps f).2 = .ok f') :
    Stored f' (m + ps.countP (cpu t)) (n + ps.countP (ioapic t)) := by
  induction ps generalizing f m n with
  | nil =>
    cases h
    exact hf
  | cons p ps ih =>
    rw [List.countP_cons,add_comm (ps.countP _),← add_assoc] at hm ⊢
    rw [List.countP_cons,add_comm (ps.countP _),← add_assoc] at hn ⊢
    rcases fillVisit_cases t mmio p f with ⟨g,hg,hfi⟩ | he
    · rw [run_cons_ok hg] at h
      exact ih (hfi.stored hf (by omega) (by omega)) hm hn h
    · rw [run_cons_error he] at h
      cases h

lemma fill_run_error {e : Panic} (h : (run (fillVisit t mmio) ps f).2 = .error e) :
    e = .kernelPanic "lapic" "unexpected local APIC control address" := by
  induction ps generalizing f with
  | nil => cases h
  | cons p ps ih =>
    rcases fillVisit_cases t mmio p f with ⟨g,hg,-⟩ | he
    · rw [run_cons_ok hg] at h
      exact ih h
    · rw [run_cons_error he] at h
      cases h
      rfl

end

def tally (t : Table) (ps : List ℕ) : Count where
  ncpu := BitVec.ofNat 32 (ps.countP (cpu t))
  ioapicNum := BitVec.ofNat 32 (ps.countP (ioapic t))

def finish (c : Count) (f : Except Panic Filled) : Except Panic Apic :=
  if c.ioapicNum = 0 then kernelPanic "ApicCtrl" "No I/O APIC controller" else f.map (store c)

structure Walked (t : Table) (mmio : Word32 → Word32 → Word32) (visited : List ℕ) (c : Count)
    (refill : List ℕ × Except Panic Filled) (result : Except Panic Apic) : Prop where
  counts : Yields (countPass t) (visited,.ok c)
  inside : Inside t size castSize visited
  ncpu : c.ncpu.toInt = visited.countP (cpu t)
  ioapicNum : c.ioapicNum.toInt = visited.countP (ioapic t)
  fills : Yields (fillPass t mmio) refill
  retraces : refill.1 <+: visited
  same : ∀ f, refill.2 = .ok f → refill.1 = visited
  returns : Yields (setup true (some t) mmio) result
  stored : ∀ a, result = .ok a →
    (∀ i, (a.apicInfo i).isSome ↔ 0 ≤ i ∧ i < a.ncpu.toInt) ∧
    ∀ i, (a.controller i).isSome ↔ 0 ≤ i ∧ i < a.controllerNum.toInt
  refused : ∀ e, result = .error e → e = .kernelPanic "ApicCtrl" "No I/O APIC controller" ∨
    e = .kernelPanic "lapic" "unexpected local APIC control address"

structure Fits (t : Table) (ps : List ℕ) : Prop where
  laid : Laid t size castSize ps
  cpus : ps.countP (cpu t) < 2 ^ 31
  ioapics : ps.countP (ioapic t) < 2 ^ 31

section
variable {t : Table} {mmio : Word32 → Word32 → Word32} {ps visited : List ℕ} {c : Count}
  {f : Filled} {refill : List ℕ × Except Panic Filled} {result : Except Panic Apic}

lemma fillAfter_steady (t : Table) (mmio : Word32 → Word32 → Word32) (c : Except Panic Count) :
    Steady (fillAfter t mmio c) := by
  cases c with
  | error e => exact steady_const _
  | ok c =>
    by_cases h : c.ioapicNum = 0
    · simp only [Steady,fillAfter,if_pos h]
      exact steady_const _
    · simp only [Steady,fillAfter,if_neg h]
      exact (walk_steady t size _ _).map _

lemma fillAfter_yields (h : Yields (fillPass t mmio) refill) (c : Count) :
    Yields (fillAfter t mmio (.ok c)) (finish c refill.2) := by
  by_cases hz : c.ioapicNum = 0
  · simp only [Yields,fillAfter,finish,if_pos hz]
    exact yields_const _
  · simp only [Yields,fillAfter,finish,if_neg hz]
    exact h.map _

lemma setup_yields (hc : Yields (countPass t) (visited,.ok c))
    (hf : Yields (fillPass t mmio) refill) :
    Yields (setup true (some t) mmio) (finish c refill.2) := by
  have ha := fillAfter_yields hf c
  exact hc.bind ha (walk_steady t size _ _) (fillAfter_steady t mmio _)

lemma setup_none {fuel : ℕ} (h : countPass t fuel = none) :
    setup true (some t) mmio fuel = none := by
  rw [setup,h,Option.bind_none]

lemma Stored.store {m n : ℕ} (h : Stored f m n) (hm : m < 2 ^ 31) (c : Count) :
    Slots (store c f).apicInfo m ∧ Slots (store c f).controller n := by
  refine ⟨fun i => ?_,h.controller⟩
  have hn : f.ncpu.toInt = m := by rw [h.ncpu,toInt_index.mpr hm]
  by_cases hi : 0 ≤ i ∧ i < m
  · simp only [Madt.store,hn,if_pos hi,h.apicInfo i]
  · simp [Madt.store,hn,hi]

lemma count_yields (h : Laid t size castSize ps) :
    Yields (countPass t) (ps,.ok (tally t ps)) := by
  have hy := h.yields (countVisit t) ⟨0,0⟩
  rw [count_run] at hy
  simp only [ofNat_eq_ofNat,BitVec.zero_add] at hy
  exact hy

lemma finish_stored {a : Apic} (h : Fits t ps) (hf : ∀ f, refill.2 = .ok f →
      Stored f (ps.countP (cpu t)) (ps.countP (ioapic t)))
    (ha : finish (tally t ps) refill.2 = .ok a) :
    (∀ i, (a.apicInfo i).isSome ↔ 0 ≤ i ∧ i < a.ncpu.toInt) ∧
      ∀ i, (a.controller i).isSome ↔ 0 ≤ i ∧ i < a.controllerNum.toInt := by
  rw [finish] at ha
  split at ha
  · cases ha
  · cases hfi : refill.2 with
    | error e =>
      rw [hfi] at ha
      cases ha
    | ok f =>
      rw [hfi] at ha
      cases ha
      have hs := (hf f hfi).store h.cpus (tally t ps)
      have hn : (store (tally t ps) f).ncpu.toInt = ps.countP (cpu t) := toInt_index.mpr h.cpus
      have hnu : (store (tally t ps) f).controllerNum.toInt = ps.countP (ioapic t) :=
        toInt_index.mpr h.ioapics
      rw [hn,hnu]
      exact hs

lemma finish_refused {e : Panic} (hf : ∀ e, refill.2 = .error e →
      e = .kernelPanic "lapic" "unexpected local APIC control address")
    (he : finish c refill.2 = .error e) : e = .kernelPanic "ApicCtrl" "No I/O APIC controller" ∨
      e = .kernelPanic "lapic" "unexpected local APIC control address" := by
  rw [finish] at he
  split at he
  · cases he
    exact .inl rfl
  · cases hfi : refill.2 with
    | error e' =>
      rw [hfi] at he
      cases he
      exact .inr (hf _ hfi)
    | ok f =>
      rw [hfi] at he
      cases he

lemma begin_stored : Stored ⟨0,0,fun _ => none,fun _ => none⟩ 0 0 := by
  refine ⟨rfl,fun i => ?_,rfl,fun i => ?_⟩
  all_goals
    simp only [Option.isSome_none,Bool.false_eq_true,false_iff]
    omega

lemma Fits.walked (h : Fits t ps) (mmio : Word32 → Word32 → Word32) :
    ∃ c refill result, Walked t mmio ps c refill result := by
  have hc := count_yields h.laid
  have hfi := h.laid.yields (fillVisit t mmio) ⟨0,0,fun _ => none,fun _ => none⟩
  refine ⟨tally t ps,_,_,hc,h.laid.inside,toInt_index.mpr h.cpus,toInt_index.mpr h.ioapics,
    hfi,run_initial _ _ _,fun f hf => run_complete hf,setup_yields hc hfi,
    fun a ha => finish_stored h (fun f hf => ?_) ha,
    fun e he => finish_refused (fun e he => fill_run_error he) he⟩
  have hs := fill_run_stored begin_stored ((zero_add _).trans_lt h.cpus)
    ((zero_add _).trans_lt h.ioapics) hf
  rw [zero_add,zero_add] at hs
  exact hs

lemma Walked.fits (h : Walked t mmio visited c refill result) : Fits t visited := by
  have hl := laid_of_walk (by decide) (fun p c => ⟨_,countVisit_eq t p c⟩) h.counts h.inside
  have hc : c = tally t visited := by
    have heq := (count_yields hl).eq h.counts.returns.choose_spec
    exact Except.ok.inj (Prod.mk.inj heq).2
  subst hc
  exact ⟨hl,toInt_index.mp h.ncpu,toInt_index.mp h.ioapicNum⟩

lemma walked_iff (t : Table) (mmio : Word32 → Word32 → Word32) :
    (∃ visited c refill result, Walked t mmio visited c refill result) ↔ ∃ ps, Fits t ps := by
  constructor
  · rintro ⟨visited,c,refill,result,h⟩
    exact ⟨visited,h.fits⟩
  · rintro ⟨ps,h⟩
    exact ⟨ps,h.walked mmio⟩

end

end Madt

namespace Srat

def size : ℕ := 48

inductive StructType where
  | kLocalApicAffinity
  | kMemoryAffinity
  | kLocalX2ApicAffinity
  | other
  deriving DecidableEq, Repr

def structType (type : Byte) : StructType :=
  if type = 0 then .kLocalApicAffinity
  else if type = 1 then .kMemoryAffinity
  else if type = 2 then .kLocalX2ApicAffinity
  else .other

def castSize (type : Byte) : ℕ :=
  match structType type with
  | .kMemoryAffinity => 40
  | _ => 2

structure MemAffinity where
  proximityDomain : Word32
  baseAddr : Word
  length : Word

def memAffinity (t : Table) (ptr : ℕ) : MemAffinity :=
  ⟨dword t (ptr + 2),qword t (ptr + 8),qword t (ptr + 16)⟩

def visit (t : Table) (p : ℕ) (printed : List MemAffinity) : Except Panic (List MemAffinity) :=
  let ptr := size + p
  match structType (t ptr) with
  | .kMemoryAffinity =>
    if enabled (dword t (ptr + 28)) then .ok (printed ++ [memAffinity t ptr]) else .ok printed
  | .kLocalApicAffinity => .ok printed
  | .kLocalX2ApicAffinity => .ok printed
  | .other => .ok printed

def pass (t : Table) : ℕ → Option (List ℕ × Except Panic (List MemAffinity)) :=
  walk t size (visit t) []

def init (srat : Option Table) (fuel : ℕ) : Option (Except Panic (List MemAffinity)) :=
  match srat with
  | some t => (pass t fuel).map Prod.snd
  | none => some (.ok [])

lemma visit_total (t : Table) (p : ℕ) (printed : List MemAffinity) :
    ∃ printed', visit t p printed = .ok printed' := by
  rw [visit]
  cases structType _ with
  | kMemoryAffinity =>
    cases enabled _ with
    | false => exact ⟨_,rfl⟩
    | true => exact ⟨_,rfl⟩
  | _ => exact ⟨_,rfl⟩

structure Walked (t : Table) (visited : List ℕ) (printed : List MemAffinity) : Prop where
  walks : Yields (pass t) (visited,.ok printed)
  inside : Inside t size castSize visited
  returns : Yields (init (some t)) (.ok printed)

lemma walked_iff (t : Table) :
    (∃ visited printed, Walked t visited printed) ↔ ∃ ps, Laid t size castSize ps := by
  refine Iff.trans ?_ (walk_inside_iff (by decide) (visit_total t) [])
  constructor
  · rintro ⟨visited,printed,h⟩
    exact ⟨visited,printed,h.walks,h.inside⟩
  · rintro ⟨visited,printed,hw,hin⟩
    exact ⟨visited,printed,hw,hin,hw.map Prod.snd⟩

end Srat

theorem tables_walked_iff (madt srat : Table) (mmio : Word32 → Word32 → Word32) :
    ((∃ visited c refill result, Madt.Walked madt mmio visited c refill result) ∧
      ∃ visited printed, Srat.Walked srat visited printed) ↔
    (∃ ps, Madt.Fits madt ps) ∧ ∃ ps, Laid srat Srat.size Srat.castSize ps := by
  rw [Madt.walked_iff,Srat.walked_iff]

def table (header : ℕ) (length : Byte) (records : List Byte) : Table := fun i =>
  if i < header then if i = 4 then length else 0 else records.getD (i - header) 0

example : Madt.Fits (table Madt.size 64 [0,8,0,7,1,0,0,0,1,12,2,0,0,0,0xc0,0xfe,0,0,0,0]) [0,8] where
  laid := ⟨by decide,.record (by decide) (by decide) (by decide)
    (.record (by decide) (by decide) (by decide) .done),by decide⟩
  cpus := by decide
  ioapics := by decide

theorem tables_mislead :
    (∀ mmio fuel, Madt.setup true (some (table Madt.size 46 [0xff,0])) mmio fuel = none) ∧
    (∀ mmio fuel, Madt.setup true (some (table Madt.size 0 [])) mmio fuel = none) ∧
    (∀ fuel, Srat.init (some (table Srat.size 50 [2,0])) fuel = none) ∧
    ∃ c, Madt.countPass (table Madt.size 48 [0,8,0,0]) 2 = some ([0],.ok c) ∧
      ¬ Inside (table Madt.size 48 [0,8,0,0]) Madt.size Madt.castSize [0] := by
  refine ⟨fun mmio fuel => Madt.setup_none ?_,fun mmio fuel => Madt.setup_none ?_,fun fuel => ?_,?_⟩
  · exact walk_stuck (by decide) (by decide) (fun p c => ⟨_,Madt.countVisit_eq _ p c⟩) _ fuel
  · exact walk_overlong (by decide) (by decide) (fun p c => ⟨_,Madt.countVisit_eq _ p c⟩) _ fuel
  · rw [Srat.init,Srat.pass,walk_stuck (by decide) (by decide) (Srat.visit_total _) _ fuel,
      Option.map_none]
  · refine ⟨⟨0,0⟩,rfl,fun h => ?_⟩
    exact absurd (h 0 List.mem_cons_self) (by decide)

end Acpi
