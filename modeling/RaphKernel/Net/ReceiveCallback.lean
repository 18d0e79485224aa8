import RaphKernel.Dev.NetDev
import RaphKernel.Library.Fallible
import RaphKernel.Net.UdpServer

namespace Net
open Bytes Raph Fallible

def mclBytes : ℕ := 1 <<< 11

structure Packet where
  buf : ℕ → Byte
  len : ℕ
  fits : len ≤ mclBytes

structure Station (P : Type) where
  world : World
  dev : Dev.NetDev P
  reads : List ℕ
  payload : List ℕ

abbrev Callback (P : Type) := Fallible (Station P) Panic

variable {P A : Type}

def Station.start (world : World) (dev : Dev.NetDev P) : Station P := ⟨world,dev,[],[]⟩

def Station.looked (s : Station P) (indices : List ℕ) : Station P :=
  {s with reads := s.reads ++ indices}

def Station.onto (s : Station P) (world : World) : Station P := {s with world := world}

namespace Callback

def embed (handler : Handler A) : Callback P A := fun s =>
  ((handler.exec s.world).1,s.onto (handler.exec s.world).2)

def look (indices : List ℕ) : Callback P Unit := update fun s => s.looked indices

def peek (packet : Packet) (i : ℕ) : Callback P Byte := do
  look [i]
  return packet.buf i

def memcmp (packet : Packet) (i : ℕ) : List Byte → Callback P Bool
  | [] => return true
  | c :: data => do
    let b ← peek packet i
    if b ≠ c then return false else memcmp packet (i + 1) data

def isType (packet : Packet) (low : Byte) : Callback P Bool := do
  let b ← peek packet 12
  if b = 0x08 then
    let b ← peek packet 13
    return decide (b = low)
  else return false

def receivePacket : Callback P (Option P) := fun s =>
  match s.dev.receivePacket with
  | none => (.ok none,s)
  | some (p,dev) => (.ok (some p),{s with dev := dev})

def getTxPacket : Callback P P := fun s =>
  match s.dev.getTxPacket with
  | none => (.error .kassert,s)
  | some (p,dev) => (.ok p,{s with dev := dev})

def transmitPacket (p : P) : Callback P Unit :=
  update fun s => {s with dev := (s.dev.transmitPacket p).2}

def reuseRxBuffer (p : P) : Callback P Unit := fun s =>
  match s.dev.reuseRxBuffer p with
  | .error e => (.error e,s)
  | .ok dev => embed Net.reuseRxBuffer {s with dev := dev}

def arpReplied (eth : NetDev) (packet : Packet) : Callback P Unit := do
  look [31,30,29,28]
  let targetAddrInt := addrInt (addrAt packet.buf 28)
  embed (print ([97,114,112,32] ++ hexDigits targetAddrInt ++ [10]))
  look (List.range' 22 6)
  embed (modify fun w =>
    {w with arpTable := setEntry ⟨targetAddrInt,macAt packet.buf 22,eth⟩ w.arpTable})

def arpAnswer (eth : NetDev) (myAddrInt : Word32) (packet : Packet) : Callback P Unit := do
  look (List.range' 6 6)
  look (List.range' 22 6)
  look (List.range' 28 4)
  let tpacket ← getTxPacket
  embed (modify fun w =>
    {w with transmitted := w.transmitted ++ [slice (arpReply eth myAddrInt packet.buf) 0 42]})
  transmitPacket tpacket

def arp (eth : NetDev) (myAddrInt : Word32) (packet : Packet) : Callback P Unit := do
  let operation ← peek packet 21
  if operation = 0x02 then arpReplied eth packet
  let operation ← peek packet 21
  if operation = 0x01 then
    let same ← memcmp packet 38 (addrBytes myAddrInt)
    if same then arpAnswer eth myAddrInt packet

def udp (packet : Packet) (start : ℕ) : Callback P Unit := do
  look [start,start + 1]
  look [start + 2,start + 3]
  look [start + 4,start + 5]
  let udpDataLength := halfWord packet.buf (start + 4) - 8
  let data := List.range' (start + 8) udpDataLength.toNat
  look data
  update fun s => {s with payload := s.payload ++ data}
  embed (Net.udp fun i => packet.buf (start + i))

instance instNeZeroOctets : NeZero 4 := ⟨Nat.succ_ne_zero 3⟩

def store (packet : Packet) (haddress : Option (Vector Byte 4)) (n : Fin 4) (i : ℕ) :
    Callback P (Option (Vector Byte 4)) := do
  let b ← peek packet i
  embed (uptrWrite haddress n b)

def ipv4Whole (packet : Packet) (haddress : Option (Vector Byte 4)) (ipv4HeaderLength : ℕ) :
    Callback P Unit := do
  let protocol ← peek packet 23
  let haddress ← store packet haddress 0 26
  let haddress ← store packet haddress 1 27
  let haddress ← store packet haddress 2 28
  let haddress ← store packet haddress 3 29
  let haddress ← store packet haddress 0 30
  let haddress ← store packet haddress 1 31
  let haddress ← store packet haddress 2 32
  let _ ← store packet haddress 3 33
  if protocol = 17 then udp packet (14 + ipv4HeaderLength)

def ipv4 (haddress : Option (Vector Byte 4)) (packet : Packet) : Callback P Unit := do
  let first ← peek packet 14
  if first >>> 4 ≠ 0x4 then return else
    let first ← peek packet 14
    let ipv4HeaderLength := (first &&& 0x0F).toNat * 4
    if ipv4HeaderLength < 20 then return else
      look [20,21]
      let foffset := halfWord packet.buf 20
      if foffset &&& (1 <<< 13) ≠ 0 ∨ foffset &&& 0x1FFF ≠ 0 then return else
        ipv4Whole packet haddress ipv4HeaderLength

def inspect (eth : NetDev) (myAddrInt : Word32) (packet : Packet) : Callback P Unit := do
  let isArp ← isType packet 0x06
  if isArp then arp eth myAddrInt packet
  let isIpv4 ← isType packet 0x00
  if isIpv4 then ipv4 none packet

def handle (eth : NetDev) (p : P) (packet : Packet) : Callback P Unit :=
  match eth.ipv4Address with
  | none => fail .kassert
  | some myAddrInt => do
    inspect eth myAddrInt packet
    reuseRxBuffer p

def receive (eth : NetDev) (frames : P → Packet) : Callback P Unit := do
  embed (print [42])
  let rpacket ← receivePacket
  match rpacket with
  | none => return
  | some p => handle eth p (frames p)

def compared (buf : ℕ → Byte) (i : ℕ) : List Byte → List ℕ
  | [] => []
  | c :: data => i :: if buf i ≠ c then [] else compared buf (i + 1) data

lemma memcmp_exec (s : Station P) (pkt : Packet) (i : ℕ) (data : List Byte) :
    memcmp pkt i data s =
      (.ok (decide (slice pkt.buf i data.length = data)),s.looked (compared pkt.buf i data)) := by
  induction data generalizing i s with
  | nil => simp [memcmp,compared,Station.looked,slice,pure]
  | cons c data ih =>
    have hp : peek pkt i s = (.ok (pkt.buf i),s.looked [i]) := rfl
    rw [memcmp,bind_of_ok hp]
    by_cases hc : pkt.buf i = c
    · simp [hc,ih,compared,Station.looked,slice_succ]
    · simp [hc,compared,slice_succ,pure]

end Callback

namespace Station

@[simp] lemma looked_dev (s : Station P) (indices : List ℕ) : (s.looked indices).dev = s.dev := rfl

@[simp] lemma onto_dev (s : Station P) (w : World) : (s.onto w).dev = s.dev := rfl

end Station

section
variable {q : Request} {eth : NetDev} {pkt : Packet} {s : Station P}

namespace Callback

lemma peek_bind {f : Byte → Callback P A} (i : ℕ) :
    (peek pkt i >>= f) s = f (pkt.buf i) (s.looked [i]) := bind_of_ok rfl

lemma ipv4_null (h : Carries q pkt.buf) (s : Station P) :
    ∃ t, ipv4 none pkt s = (.error .nullPointer,t) ∧ t.world = s.world := by
  obtain ⟨hv,hl,hf⟩ := h.checks
  rw [ipv4,peek_bind,if_neg hv,peek_bind]
  simp only [hl]
  rw [if_neg (by decide),look,update_bind,if_neg hf,ipv4Whole,peek_bind]
  exact ⟨_,bind_of_error rfl,rfl⟩

lemma inspect_null (eth : NetDev) (h : Carries q pkt.buf) (my : Word32) (s : Station P) :
    ∃ t, inspect eth my pkt s = (.error .nullPointer,t) ∧ t.world = s.world := by
  obtain ⟨hh,hm⟩ := two_bytes h.type
  have ht : ∀ (low : Byte) (s : Station P), isType pkt low s =
      (.ok (decide (pkt.buf 13 = low)),(s.looked [12]).looked [13]) := by
    intro low s
    rw [isType,peek_bind,if_pos hh,peek_bind]
    rfl
  obtain ⟨t,hi,hw⟩ := ipv4_null h ((((s.looked [12]).looked [13]).looked [12]).looked [13])
  refine ⟨t,(bind_of_ok (ht _ _)).trans ?_,hw⟩
  rw [if_neg (by rw [hm]; decide)]
  refine (bind_of_ok (ht _ _)).trans ?_
  rw [if_pos (decide_eq_true hm)]
  exact hi

end Callback

def Answered (eth : NetDev) (q : Request) (frames : P → Packet) (p : P) (w : World)
    (received : Dev.NetDev P) : Prop :=
  datagram (fun i => (frames p).buf (34 + i)) = ⟨12345,q.targetPort,q.data⟩ ∧
  ∃ t, Callback.receive eth frames (.start w received) = (.ok (),t) ∧ t.world =
    {w with output := w.output ++ [42] ++ q.data ++ [10], reused := w.reused + 1}

variable {p : P} {rest : List P} {frames : P → Packet} {received : Dev.NetDev P}

lemma receive_handles (hr : (received.ring .rx .buffered).contents = p :: rest) (eth : NetDev)
    (frames : P → Packet) (w : World) :
    ∃ t : Station P, t.world = {w with output := w.output ++ [42]} ∧
      Callback.receive eth frames (.start w received) = Callback.handle eth p (frames p) t := by
  obtain ⟨dev,hp,_⟩ := Dev.NetDev.receivePacket_some hr
  have hg : Callback.receivePacket ((Station.start w received).onto
      {w with output := w.output ++ [42]}) =
      (.ok (some p),⟨{w with output := w.output ++ [42]},dev,[],[]⟩) := by
    rw [Callback.receivePacket,Station.onto_dev,Station.start,hp]
    rfl
  exact ⟨_,rfl,(bind_of_ok rfl).trans (bind_of_ok hg)⟩

lemma receive_null (hr : (received.ring .rx .buffered).contents = p :: rest)
    (h : Carries q (frames p).buf) {my : Word32} (hip : eth.ipv4Address = some my) (w : World) :
    ∃ t, Callback.receive eth frames (.start w received) = (.error .nullPointer,t) ∧
      t.world = {w with output := w.output ++ [42]} := by
  obtain ⟨s,hs,he⟩ := receive_handles hr eth frames w
  obtain ⟨t,hi,ht⟩ := Callback.inspect_null eth h my s
  rw [he,Callback.handle,hip]
  exact ⟨t,bind_of_error hi,ht.trans hs⟩

theorem sent_never_answered (table : List ArpEntry) (q : Request) {dev : NetDev} {packet : List Byte}
    (hsent : send table q = .ok (.transmitted dev packet)) {received : Dev.NetDev P} {p : P}
    {rest : List P} (hbuffered : (received.ring .rx .buffered).contents = p :: rest)
    {frames : P → Packet} (hbuf : slice (frames p).buf 0 packet.length = packet) (eth : NetDev)
    (w : World) : ¬ Answered eth q frames p w received := by
  rintro ⟨_,t,ht,_⟩
  cases hip : eth.ipv4Address with
  | none =>
    obtain ⟨s,_,he⟩ := receive_handles hbuffered eth frames w
    rw [he,Callback.handle,hip] at ht
    cases ht
  | some my =>
    obtain ⟨s,he,_⟩ := receive_null hbuffered (sent_carries hsent hbuf).1 hip w
    cases he.symm.trans ht

end

def lent : Dev.NetDev ℕ := ((Dev.NetDev.new fun _ => 0).push .rx .buffered 0).2

def greetingPacket : Packet where
  buf := greeting.frame peerMac 0x0100007f gateway
  len := greeting.offset
  fits := by decide

lemma greeting_sent : send gatewayTable greeting =
    .ok (.transmitted gateway (slice greetingPacket.buf 0 greeting.offset)) :=
  send_eq (by decide) rfl rfl (by decide)

theorem sent_never_answered_greeting : ∃ packet,
    send gatewayTable greeting = .ok (.transmitted gateway packet) ∧
    (lent.ring .rx .buffered).contents = [0] ∧
    slice greetingPacket.buf 0 packet.length = packet ∧
    ¬ Answered gateway greeting (fun _ => greetingPacket) 0 idle lent := by
  have hb := congrArg (slice greetingPacket.buf 0)
    (length_slice greetingPacket.buf 0 greeting.offset)
  exact ⟨_,greeting_sent,rfl,hb,
    sent_never_answered gatewayTable greeting greeting_sent rfl hb gateway idle⟩

theorem greeting_faults : ∃ packet, send gatewayTable greeting = .ok (.transmitted gateway packet) ∧
    (lent.ring .rx .buffered).contents = [0] ∧
    slice greetingPacket.buf 0 packet.length = packet ∧
    ∃ t, Callback.receive gateway (fun _ => greetingPacket) (.start idle lent) =
      (.error .nullPointer,t) ∧ t.world = ⟨gatewayTable,[42],[],0⟩ :=
  ⟨_,greeting_sent,rfl,congrArg _ (length_slice ..),
    receive_null rfl (frame_carries greeting peerMac 0x0100007f gateway) rfl idle⟩

end Net
