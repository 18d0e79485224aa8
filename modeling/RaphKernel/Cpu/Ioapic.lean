import RaphKernel.Library.Fields
import RaphKernel.Raph

namespace Ioapic
open Raph Function List

abbrev Word32 := BitVec 32

def kRegRedTbl : Word32 := 0x10

def kRegRedTblFlagValueDeliveryFixed : Word32 := 0b000 <<< 8

def kRegRedTblFlagDestModePhys : Word32 := 0 <<< 11

def kRegRedTblFlagDeliveryStatus : Word32 := 1 <<< 12

def kRegRedTblFlagPolarityHighActive : Word32 := 0 <<< 13

def kRegRedTblFlagPolarityLowActive : Word32 := 1 <<< 13

def kRegRedTblFlagTriggerModeEdge : Word32 := 0 <<< 15

def kRegRedTblFlagTriggerModeLevel : Word32 := 1 <<< 15

def kRegRedTblFlagMask : Word32 := 1 <<< 16

def kRegRedTblOffsetDest : ℕ := 24

structure Controller where
  index : Word32
  reg : Word32 → Word32
  intBase : Word32
  intMax : BitVec 8

namespace Controller

def select (c : Controller) (index : Word32) : Controller := {c with index := index}

def read (c : Controller) (index : Word32) : Word32 × Controller :=
  let c := c.select index
  (c.reg c.index,c)

def write (c : Controller) (index data : Word32) : Controller :=
  let c := c.select index
  {c with reg := update c.reg c.index data}

def low (irq : Word32) : Word32 := kRegRedTbl + 2 * irq

def high (irq : Word32) : Word32 := kRegRedTbl + 2 * irq + 1

def disableEntry (c : Controller) (i : ℕ) : Controller :=
  (c.write (low (BitVec.ofNat 32 i)) kRegRedTblFlagMask).write (high (BitVec.ofNat 32 i)) 0

def disableInt (c : Controller) : Controller :=
  (List.range (c.intMax.toNat + 1)).foldl disableEntry c

def isIrqPending (c : Controller) (irq : Word32) : Bool × Controller :=
  let (data,c) := c.read (low irq)
  (data &&& kRegRedTblFlagDeliveryStatus ≠ 0,c)

def route (vector : BitVec 8) (triggerMode polarity : Bool) : Word32 :=
  kRegRedTblFlagValueDeliveryFixed ||| kRegRedTblFlagDestModePhys |||
    (if triggerMode then kRegRedTblFlagTriggerModeEdge else kRegRedTblFlagTriggerModeLevel) |||
    (if polarity then kRegRedTblFlagPolarityHighActive else kRegRedTblFlagPolarityLowActive) |||
    vector.setWidth 32

def setupInt (c : Controller) (irq : Word32) (lapicid vector : BitVec 8)
    (triggerMode polarity : Bool) : Except Panic Bool × Controller :=
  let (data,c) := c.read (low irq)
  if data ||| kRegRedTblFlagMask = 0 then (.ok false,c)
  else
    let (pending,c) := c.isIrqPending irq
    if pending then (kernelPanic "APIC" "try to assign to a pending irq",c)
    else
      let c := c.write (high irq) (lapicid.setWidth 32 <<< kRegRedTblOffsetDest)
      let c := c.write (low irq) (route vector triggerMode polarity)
      (.ok true,c)

def masked (flag : Bool) (data : Word32) : Word32 :=
  if flag then data ||| kRegRedTblFlagMask else data &&& ~~~kRegRedTblFlagMask

def maskEntry (vector : BitVec 8) (flag : Bool) (c : Controller) (i : ℕ) : Controller :=
  let (data,c) := c.read (low (BitVec.ofNat 32 i))
  if data &&& 0xff = vector.setWidth 32 then
    let (old,c) := c.read (low (BitVec.ofNat 32 i))
    c.write (low (BitVec.ofNat 32 i)) (masked flag old)
  else c

def maskInt (c : Controller) (vector : BitVec 8) (flag : Bool) : Controller :=
  (List.range (c.intMax.toNat + 1)).foldl (maskEntry vector flag) c

def InUse (c : Controller) (irq : Word32) : Prop := c.reg (low irq) &&& kRegRedTblFlagMask = 0

instance (c : Controller) (irq : Word32) : Decidable (c.InUse irq) :=
  inferInstanceAs (Decidable (_ = _))

def entry (c : Controller) (irq : Word32) : Word32 × Word32 := (c.reg (low irq),c.reg (high irq))

section
variable {c : Controller} {irq irq' r : Word32} {i j n : ℕ} {vec : BitVec 8} {flag : Bool}

lemma low_ne_high (irq irq' : Word32) : low irq ≠ high irq' := by
  unfold low high kRegRedTbl
  bv_omega

lemma high_inj (h : high irq = high irq') : low irq = low irq' := by
  unfold high at h
  unfold low
  bv_omega

lemma low_inj (hi : i < 2 ^ 31) (hj : j < 2 ^ 31)
    (h : low (BitVec.ofNat 32 i) = low (BitVec.ofNat 32 j)) : i = j := by
  unfold low kRegRedTbl at h
  bv_omega

@[simp] lemma write_reg (c : Controller) (r data : Word32) :
    (c.write r data).reg = update c.reg r data := rfl

lemma maskEntry_reg (c : Controller) (vec : BitVec 8) (flag : Bool) (i : ℕ) :
    (c.maskEntry vec flag i).reg =
      if c.reg (low (BitVec.ofNat 32 i)) &&& 0xff = vec.setWidth 32 then
        update c.reg (low (BitVec.ofNat 32 i)) (masked flag (c.reg (low (BitVec.ofNat 32 i))))
      else c.reg := by
  by_cases hm : c.reg (low (BitVec.ofNat 32 i)) &&& 0xff = vec.setWidth 32
  · rw [if_pos hm]
    exact congrArg reg (if_pos hm)
  · have hk : c.maskEntry vec flag i = c.select (low (BitVec.ofNat 32 i)) := if_neg hm
    rw [if_neg hm,hk]
    rfl

lemma maskEntry_other (c : Controller) (vec : BitVec 8) (flag : Bool)
    (hr : r ≠ low (BitVec.ofNat 32 i)) : (c.maskEntry vec flag i).reg r = c.reg r := by
  rw [maskEntry_reg]
  split_ifs
  · exact update_of_ne hr _ _
  · rfl

def Swept (n : ℕ) (r : Word32) : Prop := ∃ i < n, r = low (BitVec.ofNat 32 i)

lemma swept_succ : Swept (n + 1) r ↔ Swept n r ∨ r = low (BitVec.ofNat 32 n) := by
  simp only [Swept,Nat.lt_succ_iff_lt_or_eq]
  constructor
  · rintro ⟨i,hi | rfl,hr⟩
    · exact .inl ⟨i,hi,hr⟩
    · exact .inr hr
  · rintro (⟨i,hi,hr⟩ | hr)
    · exact ⟨i,.inl hi,hr⟩
    · exact ⟨n,.inr rfl,hr⟩

lemma maskRange_reg (hn : n ≤ 2 ^ 31) :
    ((List.range n).foldl (maskEntry vec flag) c).reg r = masked flag (c.reg r) ∧
        Swept n r ∧ c.reg r &&& 0xff = vec.setWidth 32 ∨
      ((List.range n).foldl (maskEntry vec flag) c).reg r = c.reg r ∧
        ¬ (Swept n r ∧ c.reg r &&& 0xff = vec.setWidth 32) := by
  induction n generalizing r with
  | zero => exact .inr ⟨rfl,by simp [Swept]⟩
  | succ n ih =>
    rw [List.range_succ,foldl_append,foldl_cons,foldl_nil,swept_succ]
    rcases eq_or_ne r (low (BitVec.ofNat 32 n)) with rfl | hr
    · have hf : ¬ Swept n (low (BitVec.ofNat 32 n)) := by
        rintro ⟨i,_,heq⟩
        exact absurd (low_inj (by omega) (by omega) heq) (by omega)
      have hb : ((List.range n).foldl (maskEntry vec flag) c).reg (low (BitVec.ofNat 32 n)) =
          c.reg (low (BitVec.ofNat 32 n)) := by
        rcases ih (r := low _) (by omega) with ⟨_,hswept,_⟩ | ⟨hsame,_⟩
        · exact absurd hswept hf
        · exact hsame
      rw [maskEntry_reg,hb]
      split_ifs with hm
      · exact .inl ⟨update_self ..,.inr rfl,hm⟩
      · exact .inr ⟨hb,fun h => hm h.2⟩
    · rw [maskEntry_other _ _ _ hr,or_iff_left hr]
      exact ih (by omega)

lemma disableEntry_reg (c : Controller) (i : ℕ) : (c.disableEntry i).reg =
    update (update c.reg (low (BitVec.ofNat 32 i)) kRegRedTblFlagMask)
      (high (BitVec.ofNat 32 i)) 0 := rfl

lemma disableRange_low (irq : Word32) :
    Swept n (low irq) ∧ ((List.range n).foldl disableEntry c).reg (low irq) = kRegRedTblFlagMask ∨
      ¬ Swept n (low irq) ∧ ((List.range n).foldl disableEntry c).entry irq = c.entry irq := by
  induction n with
  | zero => exact .inr ⟨by simp [Swept],rfl⟩
  | succ n ih =>
    rw [List.range_succ,foldl_append,foldl_cons,foldl_nil,swept_succ]
    simp only [entry,disableEntry_reg] at ih ⊢
    rw [update_of_ne (low_ne_high irq _)]
    rcases eq_or_ne _ _ with heq | hne
    · exact .inl ⟨.inr heq,by rw [heq,update_self]⟩
    · have hh : high irq ≠ high (BitVec.ofNat 32 n) := fun h => hne (high_inj h)
      rw [update_of_ne hne,update_of_ne hh,update_of_ne (low_ne_high _ irq).symm,or_iff_left hne]
      exact ih

end

section
variable {c : Controller} {irq : Word32} {lapicid vec : BitVec 8} {tm pol : Bool}

def routed (c : Controller) (irq : Word32) (lapicid vector : BitVec 8) (triggerMode polarity : Bool) :
    Controller :=
  ((c.select (low irq)).write (high irq) (lapicid.setWidth 32 <<< kRegRedTblOffsetDest)).write
    (low irq) (route vector triggerMode polarity)

lemma setupInt_eq (c : Controller) (irq : Word32) (lapicid vec : BitVec 8)
    (tm pol : Bool) : c.setupInt irq lapicid vec tm pol =
      if c.reg (low irq) &&& kRegRedTblFlagDeliveryStatus ≠ 0 then
        (kernelPanic "APIC" "try to assign to a pending irq",c.select (low irq))
      else (.ok true,c.routed irq lapicid vec tm pol) := by
  have hf : c.reg (low irq) ||| kRegRedTblFlagMask ≠ 0 := by
    have hb : (c.reg (low irq) ||| kRegRedTblFlagMask) &&& kRegRedTblFlagMask ≠ 0 :=
      Fields.bit_or (by decide) _
    intro h
    rw [h] at hb
    exact hb BitVec.zero_and
  refine (if_neg hf).trans ?_
  by_cases hp : c.reg (low irq) &&& kRegRedTblFlagDeliveryStatus ≠ 0
  · rw [if_pos hp]
    exact if_pos (decide_eq_true hp)
  · rw [if_neg hp]
    exact if_neg fun h => hp (of_decide_eq_true h)

lemma route_unmasked (vec : BitVec 8) (tm pol : Bool) :
    route vec tm pol &&& kRegRedTblFlagMask = 0 := by
  have hv : ∀ v : BitVec 8, v.setWidth 32 &&& kRegRedTblFlagMask = 0 := by decide
  refine Fields.zero_or ?_ (hv vec)
  cases tm <;> cases pol <;> rfl

lemma route_vector (vec : BitVec 8) (tm pol : Bool) :
    (route vec tm pol).setWidth 8 = vec := by
  cases tm <;> cases pol <;>
    simp [route,kRegRedTblFlagValueDeliveryFixed,kRegRedTblFlagDestModePhys,
      kRegRedTblFlagTriggerModeEdge,kRegRedTblFlagTriggerModeLevel,
      kRegRedTblFlagPolarityHighActive,kRegRedTblFlagPolarityLowActive]

structure Routes (c : Controller) (irq : Word32) (lapicid vector : BitVec 8)
    (triggerMode polarity : Bool) : Prop where
  inUse : c.InUse irq
  dest : c.reg (high irq) = lapicid.setWidth 32 <<< kRegRedTblOffsetDest
  vector : (c.reg (low irq)).setWidth 8 = vector
  triggerMode : c.reg (low irq) &&& kRegRedTblFlagTriggerModeLevel = 0 ↔ triggerMode = true
  polarity : c.reg (low irq) &&& kRegRedTblFlagPolarityLowActive = 0 ↔ polarity = true

lemma routed_other {r : Word32} (hl : r ≠ low irq) (hh : r ≠ high irq) :
    (c.routed irq lapicid vec tm pol).reg r = c.reg r := by
  simp [routed,hl,hh,select]

lemma routed_routes (c : Controller) (irq : Word32) (lapicid vec : BitVec 8)
    (tm pol : Bool) : (c.routed irq lapicid vec tm pol).Routes irq
      lapicid vec tm pol := by
  have hlo : (c.routed irq lapicid vec tm pol).reg (low irq) =
      route vec tm pol := by
    simp [routed]
  have hh : (c.routed irq lapicid vec tm pol).reg (high irq) =
      lapicid.setWidth 32 <<< kRegRedTblOffsetDest := by
    simp [routed,(low_ne_high irq irq).symm]
  have hl : ∀ v, ∀ t p, route v t p &&& kRegRedTblFlagTriggerModeLevel = 0 ↔ t = true := by
    decide
  have ha : ∀ v, ∀ t p, route v t p &&& kRegRedTblFlagPolarityLowActive = 0 ↔
      p = true := by
    decide
  refine ⟨?_,hh,?_,?_,?_⟩
  · rw [InUse,hlo,route_unmasked]
  · rw [hlo,route_vector]
  · rw [hlo,hl]
  · rw [hlo,ha]

structure Contract (c : Controller) (irq : Word32) (lapicid vector : BitVec 8)
    (triggerMode polarity : Bool) : Prop where
  refused : c.InUse irq → (c.setupInt irq lapicid vector triggerMode polarity).1 = .ok false ∧
    (c.setupInt irq lapicid vector triggerMode polarity).2.reg = c.reg
  routed : (c.setupInt irq lapicid vector triggerMode polarity).1 = .ok true →
    (∀ r, r ≠ low irq → r ≠ high irq →
      (c.setupInt irq lapicid vector triggerMode polarity).2.reg r = c.reg r) ∧
    (c.setupInt irq lapicid vector triggerMode polarity).2.Routes irq lapicid vector
      triggerMode polarity

lemma contract_iff : c.Contract irq lapicid vec tm pol ↔ ¬ c.InUse irq := by
  constructor
  · intro h hu
    have hf := (h.refused hu).1
    rw [setupInt_eq] at hf
    split_ifs at hf <;> cases hf
  · intro hfr
    refine ⟨fun hu => absurd hu hfr,?_⟩
    rw [setupInt_eq]
    split_ifs with hp
    · exact nofun
    · exact fun _ => ⟨fun _ hl hh => routed_other hl hh,routed_routes ..⟩

end

end Controller

open Controller

inductive Op where
  | setupInt (irq : Word32) (lapicid vector : BitVec 8) (triggerMode polarity : Bool)
  | maskInt (vector : BitVec 8) (flag : Bool)
  | disableInt

namespace Op

def exec (c : Controller) : Op → Except Panic Unit × Controller
  | setupInt irq lapicid vector triggerMode polarity =>
    ((c.setupInt irq lapicid vector triggerMode polarity).1.map fun _ => (),
      (c.setupInt irq lapicid vector triggerMode polarity).2)
  | maskInt vector flag => (.ok (),c.maskInt vector flag)
  | disableInt => (.ok (),c.disableInt)

def Honest (c : Controller) : Op → Prop
  | setupInt irq lapicid vector triggerMode polarity =>
    c.Contract irq lapicid vector triggerMode polarity
  | _ => True

def Masked (c : Controller) : Op → Prop
  | setupInt irq _ _ _ _ => ¬ c.InUse irq
  | _ => True

def trace : List Op → Controller → List (Controller × Op)
  | [], _ => []
  | op :: ops, c => (c,op) ::
    match (op.exec c).1 with
    | .ok _ => trace ops (op.exec c).2
    | .error _ => []

def KeepsRoutes (ops : List Op) (c : Controller) : Prop :=
  ∀ irq, (∀ p ∈ trace ops c, p.1.InUse irq ∧ (p.2.exec p.1).2.InUse irq) →
    ∀ p ∈ trace ops c, (p.2.exec p.1).2.entry irq = c.entry irq

section
variable {c : Controller} {op : Op} {ops : List Op} {irq : Word32}

lemma honest_iff : op.Honest c ↔ op.Masked c := by
  cases op with
  | setupInt irq lapicid vec tm pol => exact contract_iff
  | maskInt vec flag => exact Iff.rfl
  | disableInt => exact Iff.rfl

lemma maskInt_entry {vec : BitVec 8} {flag : Bool} (hbe : c.InUse irq)
    (ha : (c.maskInt vec flag).InUse irq) : (c.maskInt vec flag).entry irq = c.entry irq := by
  have hb : c.intMax.toNat + 1 ≤ 2 ^ 31 := by omega
  have hh : (c.maskInt vec flag).reg (high irq) = c.reg (high irq) := by
    rcases maskRange_reg (r := high irq) hb with ⟨_,⟨i,_,hi⟩,_⟩ | ⟨hsame,_⟩
    · exact absurd hi.symm (low_ne_high _ _)
    · exact hsame
  have hl : (c.maskInt vec flag).reg (low irq) = c.reg (low irq) := by
    rcases maskRange_reg (r := low irq) hb with ⟨hm,_⟩ | ⟨hsame,_⟩
    · change (c.maskInt vec flag).reg (low irq) = _ at hm
      cases flag with
      | false => exact hm.trans (Fields.and_not hbe)
      | true =>
        rw [Controller.InUse,hm] at ha
        exact absurd ha (Fields.bit_or (by decide) _)
    · exact hsame
  rw [entry,entry,hl,hh]

lemma disableInt_entry (ha : c.disableInt.InUse irq) : c.disableInt.entry irq = c.entry irq := by
  rcases disableRange_low irq with ⟨_,hm⟩ | ⟨_,hs⟩
  · change c.disableInt.reg (low irq) = _ at hm
    rw [Controller.InUse,hm] at ha
    exact absurd ha (by decide)
  · exact hs

lemma setupInt_entry {irq' : Word32} {lapicid vec : BitVec 8} {tm pol : Bool}
    (hf : ¬ c.InUse irq') (hb : c.InUse irq) :
    (c.setupInt irq' lapicid vec tm pol).2.entry irq = c.entry irq := by
  have hne : low irq ≠ low irq' := by
    intro h
    rw [Controller.InUse,h] at hb
    exact hf hb
  rw [setupInt_eq]
  split_ifs
  · rfl
  · exact Prod.ext (routed_other hne (low_ne_high _ _))
      (routed_other (low_ne_high _ _).symm fun h => hne (high_inj h))

lemma exec_entry (hm : op.Masked c) (hb : c.InUse irq) (ha : (op.exec c).2.InUse irq) :
    (op.exec c).2.entry irq = c.entry irq := by
  cases op with
  | setupInt irq' lapicid vec tm pol => exact setupInt_entry hm hb
  | maskInt vec flag => exact maskInt_entry hb ha
  | disableInt => exact disableInt_entry ha

lemma keepsRoutes (h : ∀ p ∈ trace ops c, p.2.Masked p.1) : KeepsRoutes ops c := by
  intro irq hu
  induction ops generalizing c with
  | nil => exact fun p hp => nomatch hp
  | cons op ops ih =>
    have hf := hu _ mem_cons_self
    have he := exec_entry (h _ mem_cons_self) hf.1 hf.2
    intro p hp
    rcases mem_cons.mp hp with rfl | hp
    · exact he
    · cases hok : (op.exec c).1 with
      | error e =>
        rw [hok] at hp
        cases hp
      | ok u =>
        have hs : ∀ q ∈ trace ops (op.exec c).2, q ∈ trace (op :: ops) c := by
          intro q hq
          refine mem_cons_of_mem _ ?_
          rw [hok]
          exact hq
        rw [hok] at hp
        rw [ih (fun q hq => h q (hs q hq)) (fun q hq => hu q (hs q hq)) p hp,he]

theorem setupInt_run_iff (c : Controller) (ops : List Op) :
    (∀ p ∈ trace ops c, p.2.Honest p.1) ∧ KeepsRoutes ops c ↔ ∀ p ∈ trace ops c, p.2.Masked p.1 := by
  simp only [honest_iff]
  exact and_iff_left_of_imp keepsRoutes

def quiet : Controller := ⟨0,fun _ => kRegRedTblFlagMask,0,23⟩

theorem setupInt_reroutes : ∃ c c' : Controller,
    quiet.setupInt 9 0 0x41 false false = (.ok true,c) ∧ c.InUse 9 ∧
    c.setupInt 9 2 0x42 false false = (.ok true,c') ∧
    (c.reg (Controller.low 9)).setWidth 8 = (0x41 : BitVec 8) ∧
    (c'.reg (Controller.low 9)).setWidth 8 = (0x42 : BitVec 8) ∧
    c'.reg (Controller.high 9) = 0x2000000 :=
  ⟨_,_,rfl,by decide,rfl,by decide,by decide,by decide⟩

end

end Op

def covers (c : Controller) (irq : Word32) : Bool :=
  decide (c.intBase ≤ irq) && decide (irq ≤ c.intBase + c.intMax.setWidth 32)

def setupInt (irq : Word32) (lapicid vector : BitVec 8) (triggerMode polarity : Bool) :
    List Controller → Except Panic (Bool × List Controller)
  | [] => kernelPanic "APIC" "IRQ out of range"
  | c :: controllers =>
    if covers c irq then
      match c.setupInt (irq - c.intBase) lapicid vector triggerMode polarity with
      | (.ok flag,c) => .ok (flag,c :: controllers)
      | (.error e,_) => .error e
    else do
      let (flag,controllers) ← setupInt irq lapicid vector triggerMode polarity controllers
      return (flag,c :: controllers)

def setupIoInt (controllers : List Controller) (irq : Word32) (lapicid vector : BitVec 8)
    (triggerMode polarity : Bool) : Except Panic (Bool × List Controller) := do
  kassert (decide (32 ≤ vector))
  setupInt irq lapicid vector triggerMode polarity controllers

def kRegVer : Word32 := 0x1

def Controller.setup (reg : Word32 → Word32) (glblIntBase : Word32) : Controller :=
  let (ver,c) := (⟨0,reg,glblIntBase,0⟩ : Controller).read kRegVer
  {c with intMax := (ver >>> 16 &&& 0xff).setWidth 8}

end Ioapic
