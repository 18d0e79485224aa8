import RaphKernel.Net.Checksum

namespace Net
open Bytes Raph OnesComplement

def pseudoBytes (q : Request) (myAddrInt : Word32) : List Byte :=
  addrBytes myAddrInt ++ (q.targetAddr.toList ++ ([0,17] ++ lengthBytes (8 + q.data.length)))

def segmentBytes (q : Request) : List Byte :=
  [0x30,0x39] ++ (portBytes q.targetPort ++ (lengthBytes (8 + q.data.length) ++ ([0,0] ++ q.data)))

def wordSum (q : Request) (myAddrInt : Word32) : ℕ :=
  (words (pseudoBytes q myAddrInt)).sum + (words (segmentBytes q)).sum

lemma headers_segment (q : Request) (mac : Vector Byte 6) (my : Word32) (dev : NetDev) :
    slice (q.headers mac my dev) 34 (8 + q.data.length) = segmentBytes q := by
  have hp := udpSegment_ports (ipv4Header (ethernet q.buf mac dev.ethAddr) q.id
    (addrBytes my) q.targetAddr.toList) q.targetPort q.data
  have hs : 8 + q.data.length = 2 + (2 + (2 + (2 + q.data.length))) := by omega
  rw [hs,slice_append,slice_append,slice_append,slice_append,segmentBytes]
  refine congrArg₂ (· ++ ·) hp.1 (congrArg₂ (· ++ ·) hp.2 (congrArg₂ (· ++ ·)
    (udpSegment_length ..) (congrArg₂ (· ++ ·) (udpSegment_checksum ..) (udpSegment_data ..))))

section
variable {q : Request} (mac : Vector Byte 6) (my : Word32) (dev : NetDev)

lemma wordSum_pos (q : Request) (my : Word32) : wordSum q my ≠ 0 := by
  have hp : (words (segmentBytes q)).sum ≠ 0 := by
    simp [segmentBytes,words]
  unfold wordSum
  omega

lemma frame_checksum (hl : q.data.length ≤ 1475) :
    ∃ ck, ck.toNat = reduce (wordSum q my) ∧
      slice (q.frame mac my dev) 40 2 = checksumBytes ck := by
  have hu : q.offset - udpHeaderStart = 8 + q.data.length := by
    unfold Request.offset udpHeaderStart
    omega
  have hsu := udpChecksum_sum (q.headers mac my dev)
    (pseudoHeader (addrBytes my) q.targetAddr.toList (8 + q.data.length)) hl
  rw [padded_below (by omega),headers_segment,pseudoHeader_bytes] at hsu
  refine ⟨_,(foldLoop_toNat _).trans (congrArg reduce hsu),?_⟩
  have hs : 34 + (8 + q.data.length) = q.offset := by
    unfold Request.offset
    omega
  rw [frame_segment _ _ _ _ (by omega),hu,hs]
  exact slice_overwrite _ 40 _

lemma checksumBytes_zero {ck : Word32} (h : ck.toNat ≤ 65535) :
    checksumBytes ck = [0,0] ↔ ck.toNat = 65535 := by
  constructor
  · intro hz
    have hs := words_checksumBytes h
    rw [hz] at hs
    have hn : (words [(0 : Byte),0]).sum = 0 := rfl
    omega
  · intro hf
    have hw : ck = 0xffff := BitVec.eq_of_toNat_eq hf
    rw [hw]
    decide

lemma frame_checksum_zero_iff (hl : q.data.length ≤ 1475) :
    slice (q.frame mac my dev) 40 2 = [0,0] ↔ 65535 ∣ wordSum q my := by
  obtain ⟨ck,hv,hf⟩ := frame_checksum mac my dev hl
  have hle := reduce_le (wordSum q my)
  rw [hf,checksumBytes_zero (by omega),hv,reduce_full]
  exact and_iff_right (wordSum_pos q my)

end

theorem send_checksum_nonzero_iff (table : List ArpEntry) (q : Request) {targetMac : Vector Byte 6}
    {dev : NetDev} {myAddrInt : Word32}
    (hsearch : search (addrInt q.targetAddr) table = some (targetMac,dev))
    (hip : dev.ipv4Address = some myAddrInt) (htx : dev.txReserved = true)
    (hlen : q.data.length ≤ 1475) :
    ∃ packet, send table q = .ok (.transmitted dev packet) ∧
      ((packet.drop 40).take 2 ≠ [0,0] ↔ ¬ 65535 ∣ wordSum q myAddrInt) := by
  refine ⟨_,send_eq hsearch hip htx hlen,?_⟩
  have hp : 40 + 2 ≤ q.offset := by
    unfold Request.offset
    omega
  rw [slice_slice _ 0 hp,Nat.zero_add]
  exact not_congr (frame_checksum_zero_iff targetMac myAddrInt dev hlen)

def balanced : Request := {greeting with data := [0xd1,0x4d]}

theorem send_checksum_zero : balanced.data.length ≤ 1475 ∧ ∃ packet,
    send gatewayTable balanced = .ok (.transmitted gateway packet) ∧
    (packet.drop 40).take 2 = [0,0] := by
  have hs : search (addrInt balanced.targetAddr) gatewayTable = some (peerMac,gateway) := by
    decide
  have hp : 40 + 2 ≤ balanced.offset := by decide
  refine ⟨by decide,_,send_eq hs rfl rfl (by decide),?_⟩
  rw [slice_slice _ 0 hp,Nat.zero_add]
  exact (frame_checksum_zero_iff peerMac 0x0100007f gateway (by decide)).mpr (by decide)

theorem send_checksum_nonzero_greeting : search (addrInt greeting.targetAddr) gatewayTable =
      some (peerMac,gateway) ∧ greeting.data.length ≤ 1475 ∧
    ∃ packet, send gatewayTable greeting = .ok (.transmitted gateway packet) ∧
      (packet.drop 40).take 2 ≠ [0,0] := by
  have hs : search (addrInt greeting.targetAddr) gatewayTable = some (peerMac,gateway) := by
    decide
  obtain ⟨packet,hse,hif⟩ := send_checksum_nonzero_iff gatewayTable greeting hs rfl rfl (by decide)
  exact ⟨hs,by decide,packet,hse,hif.mpr (by decide)⟩

end Net
