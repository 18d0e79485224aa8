import RaphKernel.Net.Checksum

namespace Net
open Bytes Raph BitVec
variable {m buf : ℕ → Byte} {start : ℕ} {table : List ArpEntry} {dev : NetDev}
  {packet : List Byte} {a : Byte}

structure World where
  arpTable : List ArpEntry
  output : List Byte
  transmitted : List (List Byte)
  reused : ℕ
  deriving DecidableEq, Repr

abbrev Handler := ExceptT Panic (StateM World)

def Handler.exec {A : Type} (handler : Handler A) (w : World) : Except Panic A × World :=
  handler.run.run w

def print (text : List Byte) : Handler Unit := modify fun w => {w with output := w.output ++ text}

def setEntry (entry : ArpEntry) : List ArpEntry → List ArpEntry
  | [] => [entry]
  | old :: table => if old.ipAddr = entry.ipAddr then entry :: table else old :: setEntry entry table

def hexDigits (n : Word32) : List Byte :=
  (Nat.toDigits 16 n.toNat).map fun c => BitVec.ofNat 8 c.toUpper.toNat

def macAt (buf : ℕ → Byte) (start : ℕ) : Vector Byte 6 := Vector.ofFn fun i => buf (start + i)

def addrAt (buf : ℕ → Byte) (start : ℕ) : Vector Byte 4 := Vector.ofFn fun i => buf (start + i)

def arpReply (eth : NetDev) (myAddrInt : Word32) (buf : ℕ → Byte) : ℕ → Byte :=
  writeAll (fun _ => 0) [(12,[0x08,0x06]),(14,[0x00,0x01]),(16,[0x08,0x00]),(18,[0x06]),(19,[0x04]),
    (20,[0x00,0x02]),(0,slice buf 6 6),(6,eth.ethAddr.toList),(22,eth.ethAddr.toList),
    (28,addrBytes myAddrInt),(32,slice buf 22 6),(38,slice buf 28 4)]

def halfWord (data : ℕ → Byte) (i : ℕ) : Word16 :=
  ((data i).setWidth 16 <<< 8) ||| (data (i + 1)).setWidth 16

structure Datagram where
  hport : Word16
  tport : Word16
  data : List Byte
  deriving DecidableEq, Repr

def datagram (ipv4Data : ℕ → Byte) : Datagram :=
  let udpLength := halfWord ipv4Data 4
  let udpDataLength := udpLength - 8
  ⟨halfWord ipv4Data 0,halfWord ipv4Data 2,slice ipv4Data 8 udpDataLength.toNat⟩

def printEach : List Byte → Handler Unit
  | [] => pure ()
  | c :: data => do
    print [c]
    printEach data

def udp (ipv4Data : ℕ → Byte) : Handler Unit := do
  printEach (datagram ipv4Data).data
  print [10]

def uptrWrite (obj : Option (Vector Byte 4)) (n : Fin 4) (value : Byte) :
    Handler (Option (Vector Byte 4)) :=
  match obj with
  | none => throw .nullPointer
  | some storage => pure (some (storage.set n value))

def reuseRxBuffer : Handler Unit := modify fun w => {w with reused := w.reused + 1}

section
variable {q : Request}

structure Carries (q : Request) (buf : ℕ → Byte) : Prop where
  type : slice buf 12 2 = [0x08,0x00]
  version : slice buf 14 1 = [0x45]
  fragment : slice buf 20 2 = [0x40,0x00]
  protocol : slice buf 23 1 = [17]
  hport : slice buf 34 2 = [0x30,0x39]
  tport : slice buf 36 2 = portBytes q.targetPort
  length : slice buf 38 2 = lengthBytes (8 + q.data.length)
  data : slice buf 42 q.data.length = q.data

lemma ethernet_type (buf : ℕ → Byte) (mac myMac : Vector Byte 6) :
    slice (ethernet buf mac myMac) 12 2 = [0x08,0x00] :=
  writeAll_at buf 2 rfl rfl

lemma ipv4Header_fixed (buf : ℕ → Byte) (id : Byte × Byte) (my : Word32)
    (targetAddr : Vector Byte 4) :
    slice (ipv4Header buf id (addrBytes my) targetAddr.toList) 14 1 = [0x45] ∧
    slice (ipv4Header buf id (addrBytes my) targetAddr.toList) 20 2 = [0x40,0x00] ∧
    slice (ipv4Header buf id (addrBytes my) targetAddr.toList) 23 1 = [17] := by
  rw [ipv4Header]
  exact ⟨writeAll_at buf 0 rfl rfl (by simp [ipv4ChecksumOffset]),
    writeAll_at buf 3 rfl rfl (by simp [ipv4ChecksumOffset]),
    writeAll_at buf 5 rfl rfl (by simp [ipv4ChecksumOffset])⟩

lemma frame_carries (q : Request) (mac : Vector Byte 6) (my : Word32) (dev : NetDev) :
    Carries q (q.frame mac my dev) := by
  obtain ⟨hv,hf,hp⟩ :=
    ipv4Header_fixed _ q.id my q.targetAddr
  refine ⟨?_,?_,?_,?_,?_,?_,frame_udpLength ..,?_⟩
  · rw [frame_headers _ _ _ _ (by omega),headers_ipv4 _ _ _ _ (by omega),
      ipv4Header_outside _ _ (by omega),ethernet_type]
  · rw [frame_headers _ _ _ _ (by omega),headers_ipv4 _ _ _ _ (by omega),hv]
  · rw [frame_headers _ _ _ _ (by omega),headers_ipv4 _ _ _ _ (by omega),hf]
  · rw [frame_headers _ _ _ _ (by omega),headers_ipv4 _ _ _ _ (by omega),hp]
  · rw [frame_headers _ _ _ _ (by omega)]
    exact (udpSegment_ports _ _ _).1
  · rw [frame_headers _ _ _ _ (by omega)]
    exact (udpSegment_ports _ _ _).2
  · rw [frame_segment _ _ _ _ (by omega),udpChecksum_data (by unfold Request.offset; omega)]
    exact udpSegment_data _ _ _

lemma Carries.of_same {frame : ℕ → Byte} (h : Carries q frame)
    (hs : slice buf 0 q.offset = slice frame 0 q.offset) : Carries q buf := by
  have hp : ∀ {pos k : ℕ}, pos + k ≤ 42 + q.data.length → slice buf pos k = slice frame pos k := by
    intro pos k hk
    have hb := slice_slice buf 0 hk
    have hf := slice_slice frame 0 hk
    rw [Nat.zero_add] at hb hf
    rw [← hb,← hf]
    exact congrArg (fun l => (l.drop pos).take k) hs
  exact ⟨(hp (by omega)).trans h.type,(hp (by omega)).trans h.version,
    (hp (by omega)).trans h.fragment,(hp (by omega)).trans h.protocol,
    (hp (by omega)).trans h.hport,(hp (by omega)).trans h.tport,
    (hp (by omega)).trans h.length,(hp (by omega)).trans h.data⟩

lemma send_transmitted (h : send table q = .ok (.transmitted dev packet)) :
    ∃ mac my, packet = slice (q.frame mac my dev) 0 q.offset ∧
      q.data.length ≤ 1475 := by
  unfold send at h
  cases hs : search (addrInt q.targetAddr) table with
  | none => simp [hs] at h
  | some found =>
    obtain ⟨mac,found⟩ := found
    cases hip : found.ipv4Address with
    | none => simp [hs,hip] at h
    | some my =>
      simp only [hs,hip,kassert_bind_ok,decide_eq_true_eq] at h
      obtain ⟨ho,_,hse⟩ := h
      unfold Request.offset at ho
      cases hse
      exact ⟨mac,my,rfl,by omega⟩

lemma sent_carries
    (h : send table q = .ok (.transmitted dev packet)) (hb : slice buf 0 packet.length = packet) :
    Carries q buf ∧ q.data.length ≤ 1475 := by
  obtain ⟨mac,my,rfl,hl⟩ := send_transmitted h
  rw [length_slice] at hb
  exact ⟨(frame_carries q mac my dev).of_same hb,hl⟩

end

lemma two_bytes {b : Byte} (h : slice m start 2 = [a,b]) : m start = a ∧ m (start + 1) = b := by
  rw [slice_succ,slice_succ] at h
  exact ⟨(List.cons.inj h).1,(List.cons.inj (List.cons.inj h).2).1⟩

lemma one_byte (h : slice m start 1 = [a]) : m start = a := by
  rw [slice_succ] at h
  exact (List.cons.inj h).1

lemma Carries.checks {q : Request} (h : Carries q buf) : ¬ buf 14 >>> 4 ≠ 0x4 ∧
    (buf 14 &&& 0x0F).toNat * 4 = 20 ∧
    ¬ (halfWord buf 20 &&& (1 <<< 13) ≠ 0 ∨ halfWord buf 20 &&& 0x1FFF ≠ 0) := by
  have hf : halfWord buf 20 = 0x4000 := by
    obtain ⟨hh,hl⟩ := two_bytes h.fragment
    simp only [halfWord,hh,hl]
    rfl
  rw [one_byte h.version,hf]
  decide

def idle : World := ⟨gatewayTable,[],[],0⟩

end Net
