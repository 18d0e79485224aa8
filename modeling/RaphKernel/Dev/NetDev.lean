import RaphKernel.Dev.RingBuffer
import RaphKernel.Library.Custody
import RaphKernel.Raph

namespace Dev
open Raph Custody Function List RingBuffer

def kBufSize : ℕ := 300

inductive Side where
  | tx
  | rx
  deriving DecidableEq, Repr

inductive Queue where
  | reserved
  | buffered
  deriving DecidableEq, Repr

structure NetDev (P : Type) where
  ring : Side → Queue → RingBuffer P kBufSize

namespace NetDev
variable {P : Type}

def new (memory : ℕ → P) : NetDev P := ⟨fun _ _ => .new memory⟩

def setRing (dev : NetDev P) (side : Side) (queue : Queue) (ring : RingBuffer P kBufSize) : NetDev P :=
  ⟨fun side' queue' => if side' = side ∧ queue' = queue then ring else dev.ring side' queue'⟩

def push (dev : NetDev P) (side : Side) (queue : Queue) (packet : P) : Bool × NetDev P :=
  let (flag,ring) := (dev.ring side queue).push packet
  (flag,dev.setRing side queue ring)

def pop (dev : NetDev P) (side : Side) (queue : Queue) : Option (P × NetDev P) :=
  match (dev.ring side queue).pop with
  | none => none
  | some (packet,ring) => some (packet,dev.setRing side queue ring)

def pushReserved (dev : NetDev P) (side : Side) (packet : P) : Except Panic (NetDev P) := do
  let (flag,dev) := dev.push side .reserved packet
  kassert flag
  return dev

def reuseRxBuffer (dev : NetDev P) (packet : P) : Except Panic (NetDev P) :=
  dev.pushReserved .rx packet

def reuseTxBuffer (dev : NetDev P) (packet : P) : Except Panic (NetDev P) :=
  dev.pushReserved .tx packet

def getTxPacket (dev : NetDev P) : Option (P × NetDev P) := dev.pop .tx .reserved

def transmitPacket (dev : NetDev P) (packet : P) : Bool × NetDev P := dev.push .tx .buffered packet

def receivePacket (dev : NetDev P) : Option (P × NetDev P) := dev.pop .rx .buffered

def fill {S : ℕ} (alloc : ℕ → P) (n : ℕ) (ring : RingBuffer P S) : Except Panic (RingBuffer P S) :=
  if hfull : ring.isFull = true then .ok ring else do
    kassert (ring.push (alloc n)).1
    fill alloc (n + 1) (ring.push (alloc n)).2
termination_by S - ring.size
decreasing_by
  have hsize := ring.push_size hfull (alloc n)
  have hle := RingBuffer.size_le (ring.push (alloc n)).2
  omega

def initPacketBuffer (side : Side) (alloc : ℕ → P) (dev : NetDev P) : Except Panic (NetDev P) := do
  return dev.setRing side .reserved (← fill alloc 0 (dev.ring side .reserved))

def initTxPacketBuffer (alloc : ℕ → P) (dev : NetDev P) : Except Panic (NetDev P) :=
  initPacketBuffer .tx alloc dev

def initRxPacketBuffer (alloc : ℕ → P) (dev : NetDev P) : Except Panic (NetDev P) :=
  initPacketBuffer .rx alloc dev

def driverTakeTx (dev : NetDev P) : Except Panic (Option (P × NetDev P)) :=
  if (dev.ring .tx .buffered).isEmpty then .ok none else
    match dev.pop .tx .buffered with
    | none => .error .kassert
    | some taken => .ok (some taken)

def driverTakeRx (dev : NetDev P) : Option (P × NetDev P) := dev.pop .rx .reserved

def driverDeliverRx (dev : NetDev P) (packet : P) : Except Panic (Bool × NetDev P) :=
  match dev.push .rx .buffered packet with
  | (true,dev) => .ok (true,dev)
  | (false,dev) => do return (false,← dev.pushReserved .rx packet)

end NetDev

open NetDev

inductive Holder where
  | client
  | driver
  deriving DecidableEq, Repr

inductive Place where
  | ring (queue : Queue)
  | held (holder : Holder)
  deriving DecidableEq, Repr

instance : Fintype Place :=
  ⟨{.ring .reserved,.ring .buffered,.held .client,.held .driver},
    fun place => by rcases place with ⟨⟨⟩⟩ | ⟨⟨⟩⟩ <;> decide⟩

inductive Action (P : Type) where
  | getTxPacket
  | transmitPacket (packet : P)
  | reuseTxBuffer (packet : P)
  | driverTakeTx
  | driverReuseTx (packet : P)
  | driverTakeRx
  | driverDeliverRx (packet : P)
  | receivePacket
  | reuseRxBuffer (packet : P)
  deriving DecidableEq, Repr

def Action.pushes {P : Type} : Action P → Bool
  | .transmitPacket _ => true
  | .reuseTxBuffer _ => true
  | .driverReuseTx _ => true
  | .driverDeliverRx _ => true
  | .reuseRxBuffer _ => true
  | _ => false

structure State (P : Type) where
  dev : NetDev P
  held : Side → Holder → List P

namespace State
variable {P : Type}

def hold (s : State P) (side : Side) : Place → List P
  | .ring queue => (s.dev.ring side queue).contents
  | .held holder => s.held side holder

def setHeld (s : State P) (side : Side) (holder : Holder) (packets : List P) : State P :=
  ⟨s.dev,fun side' holder' => if side' = side ∧ holder' = holder then packets else s.held side' holder'⟩

def boot (memory : ℕ → P) (alloc : Side → ℕ → P) : Except Panic (State P) := do
  let dev ← (NetDev.new memory).initTxPacketBuffer (alloc .tx)
  let dev ← dev.initRxPacketBuffer (alloc .rx)
  return ⟨dev,fun _ _ => []⟩

def Allowed (s : State P) : Action P → Prop
  | .transmitPacket packet => packet ∈ s.held .tx .client
  | .reuseTxBuffer packet => packet ∈ s.held .tx .client
  | .driverReuseTx packet => packet ∈ s.held .tx .driver
  | .driverDeliverRx packet => packet ∈ s.held .rx .driver
  | .reuseRxBuffer packet => packet ∈ s.held .rx .client
  | _ => True

def obtained (s : State P) (side : Side) (holder : Holder) : Option (P × NetDev P) → Bool × State P
  | none => (false,s)
  | some (packet,dev) => (true,setHeld ⟨dev,s.held⟩ side holder (packet :: s.held side holder))

variable [DecidableEq P]

def released (s : State P) (side : Side) (holder : Holder) (packet : P) (dev : NetDev P) : State P :=
  setHeld ⟨dev,s.held⟩ side holder ((s.held side holder).erase packet)

def perform (s : State P) : Action P → Except Panic (Bool × State P)
  | .getTxPacket => .ok (s.obtained .tx .client s.dev.getTxPacket)
  | .transmitPacket packet =>
    match s.dev.transmitPacket packet with
    | (true,dev) => .ok (true,s.released .tx .client packet dev)
    | (false,dev) => .ok (false,{s with dev})
  | .reuseTxBuffer packet => do
    return (true,s.released .tx .client packet (← s.dev.reuseTxBuffer packet))
  | .driverTakeTx => do return s.obtained .tx .driver (← s.dev.driverTakeTx)
  | .driverReuseTx packet => do
    return (true,s.released .tx .driver packet (← s.dev.reuseTxBuffer packet))
  | .driverTakeRx => .ok (s.obtained .rx .driver s.dev.driverTakeRx)
  | .driverDeliverRx packet => do
    let (flag,dev) ← s.dev.driverDeliverRx packet
    return (flag,s.released .rx .driver packet dev)
  | .receivePacket => .ok (s.obtained .rx .client s.dev.receivePacket)
  | .reuseRxBuffer packet => do
    return (true,s.released .rx .client packet (← s.dev.reuseRxBuffer packet))

def Step (s s' : State P) : Prop := ∃ a flag, s.Allowed a ∧ s.perform a = .ok (flag,s')

def Run : State P → State P → Prop := Relation.ReflTransGen Step

end State

namespace State
variable {P : Type} {s : State P} {pool : Side → List P} {side : Side} {q : Queue}
  {holder : Holder} {pkt : P}

structure Settled (pool : Side → List P) (s : State P) : Prop where
  size : ∀ side, (pool side).length = kBufSize
  kept : ∀ side, Kept (pool side) (s.hold side)

lemma hold_ring (s : State P) (ring : RingBuffer P kBufSize) (packets : List P) (place : Place) :
    (setHeld ⟨s.dev.setRing side q ring,s.held⟩ side holder packets).hold side place =
      if place = .ring q then ring.contents else
        if place = .held holder then packets else s.hold side place := by
  cases place with
  | ring q' =>
    by_cases hq : q' = q
    · simp [hold,setHeld,setRing,hq]
    · simp [hold,setHeld,setRing,hq]
  | held holder' =>
    by_cases hh : holder' = holder
    · simp [hold,setHeld,hh]
    · simp [hold,setHeld,hh]

lemma hold_other (s : State P) (ring : RingBuffer P kBufSize) (packets : List P) {side' : Side}
    (hs : side' ≠ side) :
    (setHeld ⟨s.dev.setRing side q ring,s.held⟩ side holder packets).hold side' = s.hold side' := by
  funext place
  cases place with
  | ring q' => simp [hold,setHeld,setRing,hs]
  | held holder' => simp [hold,setHeld,hs]

lemma Settled.moved (h : Settled pool s) {ring : RingBuffer P kBufSize} {packets : List P}
    (hk : Kept (pool side)
      ((setHeld ⟨s.dev.setRing side q ring,s.held⟩ side holder packets).hold side)) :
    Settled pool (setHeld ⟨s.dev.setRing side q ring,s.held⟩ side holder packets) := by
  refine ⟨h.size,fun side' => ?_⟩
  by_cases hs : side' = side
  · subst hs
    exact hk
  · rw [hold_other s ring packets hs]
    exact h.kept side'

lemma Settled.pop (h : Settled pool s) (side : Side) (q : Queue) (holder : Holder) :
    Settled pool (s.obtained side holder (s.dev.pop side q)).2 := by
  cases hring : (s.dev.ring side q).contents with
  | nil => rwa [NetDev.pop,pop_empty _ hring]
  | cons pkt rest =>
    obtain ⟨hpop,hrest⟩ := (s.dev.ring side q).pop_contents hring
    rw [NetDev.pop,hpop]
    refine h.moved ((h.kept side).move (t := pkt) (i := .ring q) (j := .held holder)
      Place.noConfusion ?_ ?_ ?_)
    · rw [hold_ring,if_pos rfl,hrest]
      exact .of_eq hring
    · rw [hold_ring,if_neg Place.noConfusion,if_pos rfl]
      rfl
    · intro place hi hj
      rw [hold_ring,if_neg hi,if_neg hj]

lemma driverTakeTx_eq (dev : NetDev P) : dev.driverTakeTx = .ok (dev.pop .tx .buffered) := by
  unfold driverTakeTx NetDev.pop
  cases hr : (dev.ring .tx .buffered).contents with
  | nil => rw [if_pos ((RingBuffer.isEmpty_iff _).mpr hr),pop_empty _ hr]
  | cons pkt rest =>
    have he : ¬ (dev.ring .tx .buffered).isEmpty = true := by
      rw [RingBuffer.isEmpty_iff,hr]
      exact cons_ne_nil _ _
    rw [if_neg he,(pop_contents _ hr).1]

variable [DecidableEq P]

lemma Settled.push (h : Settled pool s) (hp : pkt ∈ s.held side holder) (q : Queue) :
    ∃ dev, s.dev.push side q pkt = (true,dev) ∧
      Settled pool (s.released side holder pkt dev) := by
  have hroom : (s.hold side (.ring q)).length < (pool side).length :=
    (h.kept side).room (i := .held holder) Place.noConfusion hp
  rw [h.size] at hroom
  obtain ⟨hpush,hcontents⟩ := (s.dev.ring side q).push_contents hroom pkt
  refine ⟨_,by rw [NetDev.push,hpush],?_⟩
  refine h.moved ((h.kept side).move (t := pkt) (i := .held holder) (j := .ring q)
    Place.noConfusion ?_ ?_ ?_)
  · rw [hold_ring,if_neg Place.noConfusion,if_pos rfl]
    exact perm_cons_erase hp
  · rw [hold_ring,if_pos rfl,hcontents]
    exact perm_append_singleton pkt _
  · intro place hi hj
    rw [hold_ring,if_neg hj,if_neg hi]

lemma Settled.pushReserved (h : Settled pool s) (hp : pkt ∈ s.held side holder) :
    ∃ dev, s.dev.pushReserved side pkt = .ok dev ∧
      Settled pool (s.released side holder pkt dev) := by
  obtain ⟨dev,hpu,hs⟩ := h.push hp .reserved
  refine ⟨dev,?_,hs⟩
  rw [NetDev.pushReserved,hpu]
  rfl

lemma Settled.perform {a : Action P} (h : Settled pool s) (ha : s.Allowed a) :
    ∃ flag s', s.perform a = .ok (flag,s') ∧ (a.pushes = true → flag = true) ∧ Settled pool s' := by
  cases a with
  | getTxPacket => exact ⟨_,_,rfl,Bool.noConfusion,h.pop .tx .reserved .client⟩
  | driverTakeRx => exact ⟨_,_,rfl,Bool.noConfusion,h.pop .rx .reserved .driver⟩
  | receivePacket => exact ⟨_,_,rfl,Bool.noConfusion,h.pop .rx .buffered .client⟩
  | driverTakeTx =>
    have ht : s.perform .driverTakeTx = .ok (s.obtained .tx .driver (s.dev.pop .tx .buffered)) := by
      rw [State.perform,driverTakeTx_eq]
      rfl
    exact ⟨_,_,ht,Bool.noConfusion,h.pop .tx .buffered .driver⟩
  | transmitPacket pkt =>
    obtain ⟨dev,hp,hs⟩ := h.push ha .buffered
    refine ⟨true,_,?_,fun _ => rfl,hs⟩
    rw [State.perform,transmitPacket,hp]
  | driverDeliverRx pkt =>
    obtain ⟨dev,hp,hs⟩ := h.push ha .buffered
    refine ⟨true,_,?_,fun _ => rfl,hs⟩
    rw [State.perform,driverDeliverRx,hp]
    rfl
  | reuseTxBuffer pkt | driverReuseTx pkt =>
    obtain ⟨dev,hp,hs⟩ := h.pushReserved ha
    refine ⟨true,_,?_,fun _ => rfl,hs⟩
    rw [State.perform,reuseTxBuffer,hp]
    rfl
  | reuseRxBuffer pkt =>
    obtain ⟨dev,hp,hs⟩ := h.pushReserved ha
    refine ⟨true,_,?_,fun _ => rfl,hs⟩
    rw [State.perform,reuseRxBuffer,hp]
    rfl

lemma Settled.run {s' : State P} (h : Settled pool s) (hr : Run s s') : Settled pool s' := by
  induction hr with
  | refl => exact h
  | tail _ hs ih =>
    obtain ⟨a,flag,ha,hp⟩ := hs
    obtain ⟨flag',s'',hp',_,hse⟩ := ih.perform ha
    rw [hp] at hp'
    cases hp'
    exact hse

end State

section
variable {P : Type}

lemma fill_contents {S : ℕ} (alloc : ℕ → P) (k : ℕ) : ∀ (n : ℕ) (ring : RingBuffer P S),
    ring.contents.length + k = S → ∃ ring', fill alloc n ring = .ok ring' ∧
      ring'.contents = ring.contents ++ (range' n k).map alloc := by
  induction k with
  | zero =>
    intro n ring hs
    refine ⟨ring,?_,(append_nil _).symm⟩
    rw [fill,dif_pos ((isFull_iff ring).mpr hs)]
  | succ k ih =>
    intro n ring _
    have hr : ring.contents.length < S := by omega
    have hfull : ¬ ring.isFull = true := fun hfull =>
      Nat.ne_of_lt hr ((isFull_iff ring).mp hfull)
    obtain ⟨hp,hc⟩ := ring.push_contents hr _
    have hn : (ring.store (alloc n)).contents.length + k = S := by
      rw [hc,length_append,length_singleton]
      omega
    obtain ⟨ring',hfi,hf⟩ := ih _ _ hn
    refine ⟨ring',?_,?_⟩
    · rw [fill,dif_neg hfull,hp]
      exact hfi
    · rw [hf,hc,range'_succ,map_cons,List.append_assoc]
      rfl

def packets (alloc : Side → ℕ → P) (side : Side) : List P := (List.range kBufSize).map (alloc side)

lemma initPacketBuffer_ring (alloc : ℕ → P) {side : Side} {dev : NetDev P}
    (h : (dev.ring side .reserved).contents = []) : ∃ ring,
    dev.initPacketBuffer side alloc = .ok (dev.setRing side .reserved ring) ∧
      ring.contents = (List.range kBufSize).map alloc := by
  have hs : (dev.ring side .reserved).contents.length + kBufSize = kBufSize := by
    rw [h]
    exact Nat.zero_add _
  obtain ⟨ring,hf,hc⟩ := fill_contents alloc kBufSize 0 _ hs
  rw [h,nil_append,← range_eq_range'] at hc
  refine ⟨ring,?_,hc⟩
  rw [initPacketBuffer,hf]
  rfl

lemma boot_settled (memory : ℕ → P) (alloc : Side → ℕ → P) :
    ∃ s, State.boot memory alloc = .ok s ∧ s.Settled (packets alloc) := by
  have he : (new memory : RingBuffer P kBufSize).contents = [] := contents_new memory
  have hn : ((NetDev.new memory).ring .tx .reserved).contents = [] := he
  obtain ⟨tx,hii,htx⟩ := initPacketBuffer_ring _ hn
  have hn' : (((NetDev.new memory).setRing .tx .reserved tx).ring .rx .reserved).contents = [] := he
  obtain ⟨rx,hin,hrx⟩ := initPacketBuffer_ring (alloc .rx) hn'
  have hb : State.boot memory alloc = .ok ⟨((NetDev.new memory).setRing .tx .reserved tx).setRing
      .rx .reserved rx,fun _ _ => []⟩ := by
    rw [State.boot,initTxPacketBuffer,hii]
    simp only [bind,Except.bind,initRxPacketBuffer,hin]
    rfl
  refine ⟨_,hb,fun _ => ?_,fun side => kept_single (.ring .reserved) ?_ fun place hp => ?_⟩
  · rw [packets,length_map,length_range]
  · cases side with
    | tx => exact htx
    | rx => exact hrx
  · rcases place with ⟨⟨⟩⟩ | _
    · exact absurd rfl hp
    · cases side with
      | tx => exact he
      | rx => exact he
    · rfl

lemma packets_nodup {alloc : Side → ℕ → P} {side : Side} (h : Injective (alloc side)) :
    (packets alloc side).Nodup := nodup_range.map h

variable [DecidableEq P]

theorem packets_conserved (memory : ℕ → P) (alloc : Side → ℕ → P)
    (halloc : ∀ side, Injective (alloc side)) :
    ∃ s₀, State.boot memory alloc = .ok s₀ ∧ ∀ s, State.Run s₀ s →
      (∀ side, ∑ place, (s.hold side place).length = kBufSize ∧
        (∀ packet, packet ∈ packets alloc side ↔ ∃ place, packet ∈ s.hold side place) ∧
        (∀ packet ∈ packets alloc side, ∃! place, packet ∈ s.hold side place) ∧
        ∀ place, (s.hold side place).Nodup) ∧
      ∀ a, s.Allowed a → ∃ flag s', s.perform a = .ok (flag,s') ∧ (a.pushes = true → flag = true) := by
  obtain ⟨s₀,hb,hse⟩ := boot_settled memory alloc
  refine ⟨s₀,hb,fun s hr => ?_⟩
  have hs := hse.run hr
  refine ⟨fun side => ?_,fun a ha => ?_⟩
  · have hk := hs.kept side
    have hn := packets_nodup (halloc side)
    exact ⟨hk.length.trans (hs.size side),fun _ => hk.mem,fun _ => hk.unique hn, hk.nodup hn⟩
  · obtain ⟨flag,s',hp,hf,_⟩ := hs.perform ha
    exact ⟨flag,s',hp,hf⟩

def numbered : Side → ℕ → ℕ
  | .tx => fun n => 2 * n
  | .rx => fun n => 2 * n + 1

lemma numbered_injective (side : Side) : Injective (numbered side) := by
  cases side with
  | tx | rx => exact fun a b h => by simp only [numbered] at h; omega

theorem packets_conserved_numbered : (∀ side, Injective (numbered side)) ∧
    ∃ s₀, State.boot (fun _ => 0) numbered = .ok s₀ ∧ ∀ s, State.Run s₀ s →
      (∀ side, ∑ place, (s.hold side place).length = kBufSize ∧
        (∀ packet, packet ∈ packets numbered side ↔ ∃ place, packet ∈ s.hold side place) ∧
        (∀ packet ∈ packets numbered side, ∃! place, packet ∈ s.hold side place) ∧
        ∀ place, (s.hold side place).Nodup) ∧
      ∀ a, s.Allowed a → ∃ flag s', s.perform a = .ok (flag,s') ∧ (a.pushes = true → flag = true) :=
  ⟨numbered_injective,packets_conserved (fun _ => 0) numbered numbered_injective⟩

end

namespace NetDev
variable {P : Type}

lemma pop_ring {dev dev' : NetDev P} {side : Side} {q : Queue} {p : P}
    (h : dev.pop side q = some (p,dev')) {side' : Side} {q' : Queue}
    (ho : ¬ (side' = side ∧ q' = q)) : dev'.ring side' q' = dev.ring side' q' := by
  unfold pop at h
  cases hp : (dev.ring side q).pop with
  | none => simp [hp] at h
  | some found =>
    simp only [hp,Option.some.injEq,Prod.mk.injEq] at h
    rw [← h.2]
    exact if_neg ho

lemma getTxPacket_ring {dev dev' : NetDev P} {p : P} (h : dev.getTxPacket = some (p,dev')) :
    dev'.ring .rx .reserved = dev.ring .rx .reserved := pop_ring h (by simp)

lemma transmitPacket_ring (dev : NetDev P) (p : P) :
    (dev.transmitPacket p).2.ring .rx .reserved = dev.ring .rx .reserved := by
  simp [transmitPacket,push,setRing]

lemma reuseRxBuffer_full {dev : NetDev P} (h : (dev.ring .rx .reserved).contents.length = kBufSize)
    (p : P) : dev.reuseRxBuffer p = .error .kassert := by
  rw [reuseRxBuffer,pushReserved,push,push_full _ h p]
  rfl

lemma reuseRxBuffer_room {dev : NetDev P} (h : (dev.ring .rx .reserved).contents.length < kBufSize)
    (p : P) : ∃ dev', dev.reuseRxBuffer p = .ok dev' ∧
      (dev'.ring .rx .reserved).contents = (dev.ring .rx .reserved).contents ++ [p] := by
  obtain ⟨hp,hc⟩ := push_contents _ h p
  refine ⟨dev.setRing .rx .reserved ((dev.ring .rx .reserved).store p),?_,?_⟩
  · rw [reuseRxBuffer,pushReserved,push,hp]
    rfl
  · rw [← hc]
    rfl

lemma receivePacket_some {dev : NetDev P} {p : P} {rest : List P}
    (h : (dev.ring .rx .buffered).contents = p :: rest) :
    ∃ dev', dev.receivePacket = some (p,dev') ∧ dev'.ring .rx .reserved = dev.ring .rx .reserved ∧
      dev'.getTxPacket.isSome = dev.getTxPacket.isSome := by
  obtain ⟨hp,_⟩ := pop_contents _ h
  have hr : dev.receivePacket =
      some (p,dev.setRing .rx .buffered (dev.ring .rx .buffered).advance) := by
    rw [receivePacket,pop,hp]
  refine ⟨_,hr,pop_ring hr (by simp),?_⟩
  have htx := pop_ring hr (by simp : ¬ (Side.tx = .rx ∧ Queue.reserved = .buffered))
  unfold getTxPacket pop
  rw [htx]
  cases (dev.ring .tx .reserved).pop <;> rfl

end NetDev

lemma State.Settled.returnable {P : Type} {s : State P} {pool : Side → List P} {p : P} {rest : List P}
    (h : Settled pool s) (hb : (s.dev.ring .rx .buffered).contents = p :: rest) :
    (s.dev.ring .rx .reserved).contents.length < kBufSize := by
  have hm : p ∈ s.hold .rx (.ring .buffered) := by
    rw [hold,hb]
    exact mem_cons_self
  have hr := (h.kept .rx).room (j := .ring .reserved) (by simp) hm
  rw [h.size] at hr
  exact hr

end Dev
