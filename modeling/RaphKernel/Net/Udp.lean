import RaphKernel.Library.Bytes
import RaphKernel.Raph

namespace Net
open Bytes Raph

abbrev Word16 := BitVec 16

abbrev Word32 := BitVec 32

structure NetDev where
  ipv4Address : Option Word32
  ethAddr : Vector Byte 6
  txReserved : Bool
  deriving DecidableEq, Repr

structure ArpEntry where
  ipAddr : Word32
  hwAddr : Vector Byte 6
  dev : NetDev
  deriving DecidableEq, Repr

def search (ipAddr : Word32) : List ArpEntry → Option (Vector Byte 6 × NetDev)
  | [] => none
  | entry :: table =>
    if entry.ipAddr = ipAddr then some (entry.hwAddr,entry.dev) else search ipAddr table

def addrInt (addr : Vector Byte 4) : Word32 :=
  (addr[3].setWidth 32 <<< 24) ||| (addr[2].setWidth 32 <<< 16) ||| (addr[1].setWidth 32 <<< 8) |||
    addr[0].setWidth 32

def addrBytes (addr : Word32) : List Byte :=
  [((addr >>> 0) &&& 0xff).setWidth 8,((addr >>> 8) &&& 0xff).setWidth 8,
    ((addr >>> 16) &&& 0xff).setWidth 8,((addr >>> 24) &&& 0xff).setWidth 8]

def lengthBytes (n : ℕ) : List Byte := [BitVec.ofNat 8 (n / 256),BitVec.ofNat 8 n]

def portBytes (port : Word16) : List Byte := [(port >>> 8).setWidth 8,(port &&& 0xff).setWidth 8]

def wordAt (buf : ℕ → Byte) (i : ℕ) : Word32 :=
  ((buf i).setWidth 32 <<< 8) + (buf (i + 1)).setWidth 32

def sumLoop (buf : ℕ → Byte) (i stop : ℕ) (checksum : Word32) : Word32 :=
  if i < stop then sumLoop buf (i + 2) stop (checksum + wordAt buf i) else checksum
termination_by stop - i

def carry (checksum : Word32) : Word32 := (checksum >>> 16) + (checksum &&& 0xffff)

lemma carry_toNat (ck : Word32) :
    (carry ck).toNat = ck.toNat / 65536 + ck.toNat % 65536 := by
  have hm : (ck &&& 0xffff).toNat = ck.toNat % 65536 := by
    rw [BitVec.toNat_and]
    exact Nat.and_two_pow_sub_one_eq_mod ck.toNat 16
  have hs : (ck >>> 16).toNat = ck.toNat / 65536 := by
    rw [BitVec.toNat_ushiftRight,Nat.shiftRight_eq_div_pow]
  have hlt := ck.isLt
  rw [carry,BitVec.toNat_add,hm,hs]
  omega

def foldLoop (checksum : Word32) : Word32 :=
  if 0xffff < checksum then foldLoop (carry checksum) else checksum
termination_by checksum.toNat
decreasing_by
  rename_i h
  have hlt : 65535 < checksum.toNat := h
  rw [carry_toNat]
  omega

def checksumBytes (checksum : Word32) : List Byte :=
  [(~~~ checksum >>> 8).setWidth 8,(~~~ checksum).setWidth 8]

def ethernet (buf : ℕ → Byte) (targetMac myMac : Vector Byte 6) : ℕ → Byte :=
  writeAll buf [(0,targetMac.toList),(6,myMac.toList),(12,[0x08,0x00])]

def ipv4HeaderStart : ℕ := 14

def datagramLengthOffset : ℕ := 16

def ipv4ChecksumOffset : ℕ := 24

def ipv4HeaderEnd : ℕ := 34

def foffset : Word16 := 0 ||| (1 <<< 14)

def ipv4Header (buf : ℕ → Byte) (id : Byte × Byte) (myAddr targetAddr : List Byte) : ℕ → Byte :=
  writeAll buf [(ipv4HeaderStart,[((0x4 : Byte) <<< 4) ||| 0x5]),(15,[0]),(18,[id.1,id.2]),
    (20,[(foffset >>> 8).setWidth 8,foffset.setWidth 8]),(22,[0xff]),(23,[17]),
    (ipv4ChecksumOffset,[0,0]),(26,myAddr),(30,targetAddr)]

def udpHeaderStart : ℕ := 34

def udpLengthOffset : ℕ := 38

def udpChecksumOffset : ℕ := 40

def udpSegment (buf : ℕ → Byte) (targetPort : Word16) (data : List Byte) : ℕ → Byte :=
  writeAll buf [(udpHeaderStart,[0x30,0x39]),(36,portBytes targetPort),(udpChecksumOffset,[0,0]),
    (42,data),(udpLengthOffset,lengthBytes (42 + data.length - udpHeaderStart))]

def pseudoHeader (myAddr targetAddr : List Byte) (udpLength : ℕ) : ℕ → Byte :=
  writeAll (fun _ => 0) [(0,[0,0,0,0,0,0,0,0,0,17,0,0]),(0,myAddr),(4,targetAddr),
    (10,lengthBytes udpLength)]

def udpChecksum (buf pseudo : ℕ → Byte) (offset : ℕ) : ℕ → Byte :=
  let checksum := sumLoop pseudo 0 12 0
  let buf := if (offset - udpHeaderStart) % 2 = 1 then overwrite buf offset [0] else buf
  let checksum := foldLoop (sumLoop buf udpHeaderStart offset checksum)
  overwrite buf udpChecksumOffset (checksumBytes checksum)

def ipv4Length (buf : ℕ → Byte) (offset : ℕ) : ℕ → Byte :=
  overwrite buf datagramLengthOffset (lengthBytes (offset - ipv4HeaderStart))

def ipv4Checksum (buf : ℕ → Byte) : ℕ → Byte :=
  let checksum := foldLoop (sumLoop buf ipv4HeaderStart ipv4HeaderEnd 0)
  overwrite buf ipv4ChecksumOffset (checksumBytes checksum)

structure Request where
  buf : ℕ → Byte
  id : Byte × Byte
  targetAddr : Vector Byte 4
  targetPort : Word16
  data : List Byte

def Request.offset (q : Request) : ℕ := 42 + q.data.length

def Request.headers (q : Request) (targetMac : Vector Byte 6) (myAddrInt : Word32) (dev : NetDev) :
    ℕ → Byte :=
  let buf := ethernet q.buf targetMac dev.ethAddr
  let buf := ipv4Header buf q.id (addrBytes myAddrInt) q.targetAddr.toList
  udpSegment buf q.targetPort q.data

def Request.frame (q : Request) (targetMac : Vector Byte 6) (myAddrInt : Word32) (dev : NetDev) :
    ℕ → Byte :=
  let buf := q.headers targetMac myAddrInt dev
  let pseudo := pseudoHeader (addrBytes myAddrInt) q.targetAddr.toList (q.offset - udpHeaderStart)
  let buf := udpChecksum buf pseudo q.offset
  let buf := ipv4Length buf q.offset
  ipv4Checksum buf

inductive Sent where
  | printed (text : String)
  | transmitted (dev : NetDev) (packet : List Byte)
  deriving DecidableEq, Repr

def send (table : List ArpEntry) (q : Request) : Except Panic Sent :=
  match search (addrInt q.targetAddr) table with
  | none => .ok (.printed "cannot solve mac address from ARP Table.\n")
  | some (targetMac,dev) =>
    match dev.ipv4Address with
    | none => .error .kassert
    | some myAddrInt => do
      let buf := q.frame targetMac myAddrInt dev
      kassert (decide (q.offset < 1518))
      kassert dev.txReserved
      return .transmitted dev (slice buf 0 q.offset)

end Net
