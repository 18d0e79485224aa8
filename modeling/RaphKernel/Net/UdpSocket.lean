import RaphKernel.Net.ArpRecords
import RaphKernel.Net.Ipv4
import Mathlib.Tactic.IntervalCases

namespace UdpSocket
open Bytes ArpRecords List

def htons (n : BitVec 16) : BitVec 16 := ((n &&& 0xff) <<< 8) ||| ((n &&& 0xff00) >>> 8)

def htonl (n : BitVec 32) : BitVec 32 :=
  ((n &&& 0xff) <<< 24) ||| ((n &&& 0xff00) <<< 8) ||| ((n &&& 0xff0000) >>> 8) |||
    ((n &&& 0xff000000) >>> 24)

structure Socket where
  macAddress : Mac
  ipv4Addr : Address
  port : BitVec 16
  peerAddr : Address
  peerPort : BitVec 16

namespace Socket
variable (s : Socket)

def prepareUdp (packet : List Byte) : Option (List Byte) :=
  if s.peerPort = 0xffff then none else
    some (encode 2 (htons s.port).toNat ++ encode 2 (htons s.peerPort).toNat ++
      encode 2 (htons (BitVec.ofNat 16 (8 + packet.length))).toNat ++ encode 2 0 ++ packet)

def ipHeader (id : BitVec 16) (len : ℕ) (checksum : BitVec 16) : List Byte :=
  [0x45,0] ++ encode 2 (htons (BitVec.ofNat 16 len)).toNat ++ encode 2 id.toNat ++
    encode 2 (htons 0x4000).toNat ++ [64,0x11] ++ encode 2 checksum.toNat ++
    encode 4 (htonl s.ipv4Addr).toNat ++ encode 4 (htonl s.peerAddr).toNat

def prepareIpv4 (id : BitVec 16) (packet : List Byte) : List Byte :=
  let len := 20 + packet.length
  s.ipHeader id len (Ipv4Layer.checkSum (s.ipHeader id len 0)) ++ packet

def prepareEthernet (t : Table) (packet : List Byte) : Option (List Byte) :=
  (find t (htonl (field 4 packet 16))).map fun daddr =>
    daddr.toList ++ s.macAddress.toList ++ encode 2 (htons 0x0800).toNat ++ packet

def transmit (t : Table) (id : BitVec 16) (payload : List Byte) : Option (List Byte) := do
  s.prepareEthernet t (s.prepareIpv4 id (← s.prepareUdp payload))

def filterEthernet (packet : List Byte) : Bool :=
  (packet.take 6 = s.macAddress.toList ∨ packet.take 6 = replicate 6 0xff ∨
    packet.take 6 = replicate 6 0) ∧ htons (field 2 packet 12) = 0x0800

def filterIpv4 (packet : List Byte) : Bool × Socket :=
  if packet[9]? = some 0x11 ∧ htonl (field 4 packet 16) = s.ipv4Addr ∧
    ¬ (s.peerAddr ≠ 0 ∧ htonl (field 4 packet 12) ≠ s.peerAddr) then (true,{s with peerAddr := 0})
  else (false,s)

def filterUdp (packet : List Byte) : Bool :=
  ¬ (s.peerPort ≠ 0xffff ∧ htons (field 2 packet 0) ≠ s.peerPort) ∧
    htonl ((field 2 packet 2).setWidth 32) = s.port.setWidth 32

def receive (frame : List Byte) : Option (List Byte) × Socket :=
  if s.filterEthernet frame then
    let packet := frame.drop 14
    match s.filterIpv4 packet with
    | (true,s) =>
      let packet := packet.drop 20
      (if s.filterUdp packet then some (packet.drop 8) else none,s)
    | (false,s) => (none,s)
  else (none,s)

def mirror (mac : Mac) : Socket := ⟨mac,s.peerAddr,s.peerPort,s.ipv4Addr,s.port⟩

end Socket

section
variable (n : BitVec 16)

lemma htons_htons : htons (htons n) = n := by
  refine BitVec.eq_of_getLsbD_eq fun i hi => ?_
  interval_cases i <;> simp [htons]

lemma htonl_htonl (n : BitVec 32) : htonl (htonl n) = n := by
  refine BitVec.eq_of_getLsbD_eq fun i hi => ?_
  interval_cases i <;> simp [htonl]

lemma htonl_htons : htonl ((htons n).setWidth 32) = n.setWidth 32 <<< 16 := by
  refine BitVec.eq_of_getLsbD_eq fun i hi => ?_
  interval_cases i <;> simp [htonl,htons]

lemma port_passes_iff : htonl ((htons n).setWidth 32) = n.setWidth 32 ↔ n = 0 := by
  have hn := n.isLt
  rw [htonl_htons,← BitVec.toNat_inj,← BitVec.toNat_inj,BitVec.toNat_shiftLeft,
    BitVec.toNat_setWidth,Nat.shiftLeft_eq]
  change _ ↔ n.toNat = 0
  omega

end

lemma field_at {w k : ℕ} {pre rest : List Byte} (h : pre.length = k) (x : BitVec (8 * w)) :
    field w (pre ++ (encode w x.toNat ++ rest)) k = x := by
  rw [field_append_right h.le,h,Nat.sub_self,field_encode]

lemma field_drop (w : ℕ) (data : List Byte) (j k : ℕ) :
    field w (data.drop j) k = field w data (j + k) := by
  rw [field,field,drop_drop]

namespace Socket
variable (s : Socket) (id : BitVec 16) (packet payload : List Byte)

lemma udp_fields (h : s.prepareUdp payload = some packet) :
    field 2 packet 0 = htons s.port ∧ field 2 packet 2 = htons s.peerPort ∧
      packet.drop 8 = payload := by
  unfold prepareUdp at h
  split_ifs at h
  cases h
  refine ⟨?_,?_,drop_left' (by simp)⟩
  · simp only [append_assoc]
    exact field_encode (w := 2) _ _
  · simp only [append_assoc]
    exact field_at (w := 2) (length_encode ..) _

lemma ip_fields : (s.prepareIpv4 id packet)[9]? = some 0x11 ∧
    field 4 (s.prepareIpv4 id packet) 12 = htonl s.ipv4Addr ∧
    field 4 (s.prepareIpv4 id packet) 16 = htonl s.peerAddr ∧
    (s.prepareIpv4 id packet).drop 20 = packet := by
  refine ⟨by simp [prepareIpv4,ipHeader,encode],?_,?_,drop_left' (by simp [ipHeader])⟩
  · rw [prepareIpv4,ipHeader,append_assoc,append_assoc]
    exact field_at (w := 4) (by simp) _
  · rw [prepareIpv4,ipHeader,append_assoc]
    exact field_at (w := 4) (by simp) _

lemma eth_fields {t : Table} {mac : Mac} {frame : List Byte}
    (hf : find t (htonl (field 4 packet 16)) = some mac)
    (h : s.prepareEthernet t packet = some frame) : frame.take 6 = mac.toList ∧
      field 2 frame 12 = htons 0x0800 ∧ frame.drop 14 = packet := by
  rw [prepareEthernet,hf,Option.map_some] at h
  cases h
  refine ⟨?_,?_,drop_left' (by simp)⟩
  · rw [append_assoc,append_assoc,take_left' (by simp)]
  · rw [append_assoc]
    exact field_at (w := 2) (by simp) _

end Socket

open Socket

theorem udp_delivered_iff (s : Socket) (t : Table) (mac : Mac) (h : find t s.peerAddr = some mac)
    (id : BitVec 16) (payload : List Byte) :
    (∃ frame, s.transmit t id payload = some frame ∧ ((s.mirror mac).receive frame).1 = some payload ∧
      htonl (field 4 frame 26) = s.ipv4Addr ∧ htons (field 2 frame 34) = s.port) ↔
    s.peerPort = 0 := by
  cases hu : s.prepareUdp payload with
  | none =>
    have hp : s.peerPort = 0xffff := by simpa [prepareUdp] using hu
    simp [transmit,hu,hp]
  | some packet =>
    obtain ⟨hsp,hdp,hd⟩ := s.udp_fields packet payload hu
    obtain ⟨hpi,hsa,hda,hi⟩ := s.ip_fields id packet
    have hf : find t (htonl (field 4 (s.prepareIpv4 id packet) 16)) = some mac := by
      rw [hda,htonl_htonl,h]
    cases ht : s.transmit t id payload with
    | none => simp [transmit,hu,prepareEthernet,hf] at ht
    | some frame =>
      have he : s.prepareEthernet t (s.prepareIpv4 id packet) = some frame := by
        simpa [transmit,hu] using ht
      obtain ⟨hm,hy,hr⟩ := s.eth_fields _ hf he
      have hs : htonl (field 4 frame 26) = s.ipv4Addr := by
        rw [← field_drop 4 frame 14 12,hr,hsa,htonl_htonl]
      have hq : htons (field 2 frame 34) = s.port := by
        rw [← field_drop 2 frame 14 20,hr,← field_drop 2 _ 20 0,hi,hsp,htons_htons]
      have hE : (s.mirror mac).filterEthernet frame = true := by
        simp [filterEthernet,mirror,hm,hy,htons_htons]
      have hI : (s.mirror mac).filterIpv4 (s.prepareIpv4 id packet) =
          (true,{s.mirror mac with peerAddr := 0}) := by
        simp [filterIpv4,mirror,hpi,hda,hsa,htonl_htonl]
      have hU : filterUdp {s.mirror mac with peerAddr := 0} packet = decide (s.peerPort = 0) := by
        simp [filterUdp,mirror,hsp,hdp,htons_htons,port_passes_iff]
      have hv : ((s.mirror mac).receive frame).1 = if s.peerPort = 0 then some payload else none := by
        simp only [receive,hE,hr,hI,hi,hU,hd,if_true,decide_eq_true_iff]
      simp [hv,hs,hq]

theorem udp_delivered_port_zero :
    ∃ (s : Socket) (t : Table) (frame : List Byte), s.transmit t 0 [1] = some frame ∧
      ((s.mirror (.replicate 6 2)).receive frame).1 = some [1] := by
  let s : Socket := ⟨.replicate 6 1,1,9,2,0⟩
  let t := (add (setup fun _ => (0,.replicate 6 0)) 2 (.replicate 6 2)).2
  obtain ⟨frame,hf,hr,_⟩ := (udp_delivered_iff s t (.replicate 6 2) (by decide) 0 [1]).mpr rfl
  exact ⟨s,t,frame,hf,hr⟩

theorem udp_port_filtered : ∃ (s : Socket) (packet : List Byte), s.peerPort = 7 ∧
    s.prepareUdp [1] = some packet ∧ (s.mirror (.replicate 6 2)).filterUdp packet = false :=
  ⟨⟨.replicate 6 1,1,9,2,7⟩,_,rfl,rfl,by decide⟩

end UdpSocket
