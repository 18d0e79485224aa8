import RaphKernel.Library.OnesComplement
import RaphKernel.Net.Udp

namespace Net
open Bytes Raph OnesComplement BitVec Request
variable {buf pseudo : ℕ → Byte} {off i stop n : ℕ} {q : Request}

lemma wordAt_toNat (buf : ℕ → Byte) (i : ℕ) :
    (wordAt buf i).toNat = (buf i).toNat * 256 + (buf (i + 1)).toNat := by
  have hh := (buf i).isLt
  have hl := (buf (i + 1)).isLt
  simp only [wordAt,toNat_add,toNat_shiftLeft,toNat_setWidth,Nat.shiftLeft_eq]
  omega

lemma foldLoop_toNat (ck : Word32) : (foldLoop ck).toNat = reduce ck.toNat := by
  induction ck using foldLoop.induct with
  | case1 ck h ih => rw [foldLoop,if_pos h,ih,carry_toNat,reduce_carry]
  | case2 ck h =>
    have hle := BitVec.not_lt.mp h
    rw [foldLoop,if_neg h,reduce_small hle]

lemma sumLoop_step (h : i < stop) (ck : Word32) :
    sumLoop buf i stop ck = sumLoop buf (i + 2) stop (ck + wordAt buf i) := by
  rw [sumLoop,if_pos h]

lemma sumLoop_done (h : stop ≤ i) (ck : Word32) :
    sumLoop buf i stop ck = ck := by
  rw [sumLoop,if_neg (not_lt.mpr h)]

lemma add_word (buf : ℕ → Byte) (i : ℕ) {ck : Word32} (h : ck.toNat + 65536 < 2 ^ 32) :
    (ck + wordAt buf i).toNat =
      ck.toNat + ((buf i).toNat * 256 + (buf (i + 1)).toNat) := by
  have hh := (buf i).isLt
  have hl := (buf (i + 1)).isLt
  rw [toNat_add,wordAt_toNat]
  omega

lemma sumLoop_toNat (buf : ℕ → Byte) (n : ℕ) : ∀ i ck,
    ck.toNat + n * 65536 < 2 ^ 32 → (n % 2 = 1 → buf (i + n) = 0) →
    (sumLoop buf i (i + n) ck).toNat = ck.toNat + (words (slice buf i n)).sum := by
  induction n using Nat.twoStepInduction with
  | zero =>
    intro i ck _ _
    rw [sumLoop_done (by omega)]
    rfl
  | one =>
    intro i ck hr ho
    rw [sumLoop_step (by omega),sumLoop_done (by omega),add_word buf i (by omega),ho rfl,slice_succ]
    rfl
  | more n ih _ =>
    intro i ck _ ho
    have hsm : ck.toNat + 65536 < 2 ^ 32 := by omega
    have ha := add_word buf i hsm
    have hh := (buf i).isLt
    have hl := (buf (i + 1)).isLt
    have hs : i + (n + 2) = i + 2 + n := by omega
    have hre := ih _ (ck + wordAt buf i) (by omega)
      (fun h => by rw [← hs]; exact ho (by omega))
    rw [sumLoop_step (by omega),hs,hre,ha,slice_succ,slice_succ,words,List.sum_cons,Nat.add_assoc]

section
variable {m : ℕ → Byte} {start n k base : ℕ} {ck : Word32}

lemma slice_split (m : ℕ → Byte) (start : ℕ) (h : 2 * k + 2 ≤ n) :
    slice m start n = slice m start (2 * k) ++ (slice m (start + 2 * k) 2 ++
      slice m (start + 2 * k + 2) (n - 2 * k - 2)) := by
  have hn : n = 2 * k + (2 + (n - 2 * k - 2)) := by omega
  rw [← slice_append,← slice_append,← hn]

lemma words_split (m : ℕ → Byte) (start : ℕ) (h : 2 * k + 2 ≤ n) :
    (words (slice m start n)).sum = (words (slice m start (2 * k))).sum +
      ((words (slice m (start + 2 * k) 2)).sum +
        (words (slice m (start + 2 * k + 2) (n - 2 * k - 2))).sum) := by
  rw [slice_split m start h,words_append _ (length_slice ..),
    words_append _ ((length_slice ..).trans (Nat.mul_one 2).symm),List.sum_append,List.sum_append]

lemma words_overwrite {field : List Byte} (hf : field.length = 2)
    (hz : slice m (start + 2 * k) 2 = [0,0]) (h : 2 * k + 2 ≤ n) :
    (words (slice (overwrite m (start + 2 * k) field) start n)).sum =
      (words (slice m start n)).sum + (words field).sum := by
  have hh := slice_overwrite m (start + 2 * k) field
  rw [hf] at hh
  have hb : slice (overwrite m (start + 2 * k) field) start (2 * k) = slice m start (2 * k) :=
    slice_overwrite_outside m (.inl le_rfl)
  have ha : slice (overwrite m (start + 2 * k) field) (start + 2 * k + 2) (n - 2 * k - 2) =
      slice m (start + 2 * k + 2) (n - 2 * k - 2) :=
    slice_overwrite_outside m (.inr (by omega))
  rw [words_split _ start h,words_split m start h,hb,ha,hh,hz]
  have hn : (0 : Byte).toNat = 0 := rfl
  simp only [words,List.sum_cons,List.sum_nil]
  omega

lemma words_checksumBytes (h : ck.toNat ≤ 65535) :
    (words (checksumBytes ck)).sum = 65535 - ck.toNat := by
  simp only [checksumBytes,words,List.sum_cons,List.sum_nil,toNat_setWidth,
    toNat_ushiftRight,toNat_not,Nat.shiftRight_eq_div_pow]
  omega

lemma words_sealed (hz : slice m (start + 2 * k) 2 = [0,0]) (h : 2 * k + 2 ≤ n)
    (hs : ck.toNat = base + (words (slice m start n)).sum) :
    reduce (base + (words (slice (overwrite m (start + 2 * k)
      (checksumBytes (foldLoop ck))) start n)).sum) = 65535 := by
  have hf := foldLoop_toNat ck
  have hle := reduce_le ck.toNat
  rw [words_overwrite rfl hz h,words_checksumBytes (by omega),hf,← Nat.add_assoc,← hs,
    reduce_complement]

end

section
variable (buf : ℕ → Byte) (targetPort : Word16) (data : List Byte) (id : Byte × Byte)
  (my : Word32) (targetAddr : Vector Byte 4) {start n : ℕ}

lemma udpSegment_outside (h : start + n ≤ 34) :
    slice (udpSegment buf targetPort data) start n = slice buf start n := by
  refine writeAll_outside buf ?_
  simp [udpHeaderStart,udpChecksumOffset,udpLengthOffset]
  omega

lemma udpSegment_length : slice (udpSegment buf targetPort data) 38 2 =
    lengthBytes (8 + data.length) := by
  have hl : 42 + data.length - udpHeaderStart = 8 + data.length := by
    unfold udpHeaderStart
    omega
  rw [udpSegment,hl]
  exact writeAll_at buf 4 rfl rfl

lemma udpSegment_checksum : slice (udpSegment buf targetPort data) 40 2 = [0,0] := by
  rw [udpSegment]
  exact writeAll_at buf 2 rfl rfl (by simp [udpLengthOffset,lengthBytes])

lemma udpSegment_data : slice (udpSegment buf targetPort data) 42 data.length = data := by
  rw [udpSegment]
  exact writeAll_at buf 3 rfl rfl (by simp [udpLengthOffset,lengthBytes])

lemma udpSegment_ports : slice (udpSegment buf targetPort data) 34 2 = [0x30,0x39] ∧
    slice (udpSegment buf targetPort data) 36 2 = portBytes targetPort := by
  rw [udpSegment]
  exact ⟨writeAll_at buf 0 rfl rfl (by simp [udpLengthOffset,udpChecksumOffset]),
    writeAll_at buf 1 rfl rfl (by simp [udpLengthOffset,udpChecksumOffset])⟩

lemma ipv4Header_outside {myAddr target : List Byte} (h : start + n ≤ 14) :
    slice (ipv4Header buf id myAddr target) start n = slice buf start n := by
  refine writeAll_outside buf ?_
  simp [ipv4HeaderStart,ipv4ChecksumOffset]
  omega

lemma ipv4Header_checksum : slice (ipv4Header buf id (addrBytes my) targetAddr.toList) 24 2 =
    [0,0] := by
  rw [ipv4Header]
  exact writeAll_at buf 6 rfl rfl

lemma ipv4Header_addresses :
    slice (ipv4Header buf id (addrBytes my) targetAddr.toList) 26 8 =
      addrBytes my ++ targetAddr.toList := by
  rw [slice_append _ 26 4 4,ipv4Header]
  exact congrArg₂ _ (writeAll_at buf 7 rfl rfl)
    (writeAll_at buf 8 rfl Vector.length_toList)

lemma pseudoHeader_bytes (udpLength : ℕ) :
    slice (pseudoHeader (addrBytes my) targetAddr.toList udpLength) 0 12 =
      addrBytes my ++ (targetAddr.toList ++ ([0,17] ++ lengthBytes udpLength)) := by
  have ht : targetAddr.toList.length = 4 := Vector.length_toList
  have hf : slice (overwrite (fun _ => (0 : Byte)) 0 [0,0,0,0,0,0,0,0,0,17,0,0]) 8 2 = [0,17] := rfl
  rw [slice_append _ 0 4 8,slice_append _ 4 4 4,slice_append _ 8 2 2,pseudoHeader]
  refine congrArg₂ _ (writeAll_at _ 1 rfl rfl) ?_
  refine congrArg₂ _ (writeAll_at _ 2 rfl ht) ?_
  refine congrArg₂ _ ?_ (writeAll_at _ 3 rfl rfl)
  have hl : ∀ w ∈ [(0,addrBytes my),(4,targetAddr.toList),(10,lengthBytes udpLength)],
      8 + 2 ≤ w.1 ∨ w.1 + w.2.length ≤ 8 := by
    simp [addrBytes]
  exact (writeAll_outside _ hl).trans hf

end

section
variable {buf pseudo : ℕ → Byte} {len : ℕ}

def padded (buf : ℕ → Byte) (offset : ℕ) : ℕ → Byte :=
  if (offset - udpHeaderStart) % 2 = 1 then overwrite buf offset [0] else buf

lemma padded_below {start : ℕ} (h : start + n ≤ off) :
    slice (padded buf off) start n = slice buf start n := by
  unfold padded
  split_ifs
  · exact slice_overwrite_outside buf (.inl h)
  · rfl

lemma padded_end (h : (8 + len) % 2 = 1) : padded buf (42 + len) (34 + (8 + len)) = 0 := by
  have ho : (42 + len - udpHeaderStart) % 2 = 1 := by
    unfold udpHeaderStart
    omega
  have he : 34 + (8 + len) = 42 + len + 0 := by omega
  have hin : overwrite buf (42 + len) [0] (42 + len + 0) = ([0] : List Byte)[0] :=
    overwrite_inside buf _ Nat.zero_lt_one
  rw [padded,if_pos ho,he,hin]
  rfl

lemma words_sum_le (data : List Byte) : (words data).sum ≤ data.length * 65536 := by
  induction data using words.induct with
  | case1 => exact le_rfl
  | case2 hig =>
    simp only [words,List.sum_cons,List.sum_nil,List.length_singleton]
    omega
  | case3 hig low data ih =>
    simp only [words,List.sum_cons,List.length_cons]
    omega

lemma udpChecksum_sum (buf pseudo : ℕ → Byte) (hl : len ≤ 1475) :
    (sumLoop (padded buf (42 + len)) 34 (34 + (8 + len)) (sumLoop pseudo 0 12 0)).toNat =
      (words (slice pseudo 0 12)).sum + (words (slice (padded buf (42 + len)) 34 (8 + len))).sum := by
  have hb : (sumLoop pseudo 0 12 0).toNat = (words (slice pseudo 0 12)).sum :=
    (sumLoop_toNat pseudo 12 0 0 (by decide) (by norm_num)).trans (Nat.zero_add _)
  have hle := words_sum_le (slice pseudo 0 12)
  rw [length_slice] at hle
  have hs := sumLoop_toNat (padded buf (42 + len)) _ 34 (sumLoop pseudo 0 12 0)
    (by omega) padded_end
  rw [hb] at hs
  exact hs

lemma udpChecksum_sealed (hz : slice buf 40 2 = [0,0]) (hl : len ≤ 1475) :
    reduce ((words (slice pseudo 0 12)).sum +
      (words (slice (udpChecksum buf pseudo (42 + len)) 34 (8 + len))).sum) = 65535 := by
  have hst : 42 + len = 34 + (8 + len) := by omega
  have hf : slice (padded buf (42 + len)) (34 + 2 * 3) 2 = [0,0] :=
    (padded_below (by omega)).trans hz
  have hs := words_sealed hf (by omega : 2 * 3 + 2 ≤ 8 + len) (udpChecksum_sum buf pseudo hl)
  rw [← hst] at hs
  exact hs

lemma ipv4Checksum_sealed (hz : slice buf 24 2 = [0,0]) :
    reduce (words (slice (ipv4Checksum buf) 14 20)).sum = 65535 := by
  have hsu := sumLoop_toNat buf 20 14 0 (by decide) (by norm_num)
  have hs := words_sealed (k := 5) hz (by norm_num) hsu
  rw [show (0 : Word32).toNat = 0 from rfl,Nat.zero_add] at hs
  exact hs

end

section
variable (q : Request) (mac : Vector Byte 6) (my : Word32) (dev : NetDev) {start n : ℕ}

lemma ipv4Checksum_outside (h : start + n ≤ 24 ∨ 26 ≤ start) :
    slice (ipv4Checksum buf) start n = slice buf start n := slice_overwrite_outside buf h

lemma ipv4Length_outside (h : start + n ≤ 16 ∨ 18 ≤ start) :
    slice (ipv4Length buf off) start n = slice buf start n := slice_overwrite_outside buf h

lemma udpChecksum_below (ho : 40 ≤ off)
    (h : start + n ≤ 40) : slice (udpChecksum buf pseudo off) start n = slice buf start n :=
  (slice_overwrite_outside _ (.inl h)).trans (padded_below (h.trans ho))

lemma udpChecksum_data (h : 42 + n ≤ off) :
    slice (udpChecksum buf pseudo off) 42 n = slice buf 42 n :=
  (slice_overwrite_outside _ (.inr le_rfl)).trans (padded_below h)

lemma frame_headers (h : start + n ≤ 16 ∨ 18 ≤ start ∧ start + n ≤ 24 ∨ 26 ≤ start ∧ start + n ≤ 40) :
    slice (q.frame mac my dev) start n =
      slice (q.headers mac my dev) start n := by
  rw [frame,ipv4Checksum_outside (by omega),ipv4Length_outside (by omega),
    udpChecksum_below (by unfold offset; omega) (by omega)]

lemma headers_ipv4 (h : start + n ≤ 34) : slice (q.headers mac my dev) start n =
    slice (ipv4Header (ethernet q.buf mac dev.ethAddr) q.id (addrBytes my)
      q.targetAddr.toList) start n := udpSegment_outside _ _ _ h

lemma frame_segment (h : 26 ≤ start) : slice (q.frame mac my dev) start n =
    slice (udpChecksum (q.headers mac my dev) (pseudoHeader (addrBytes my)
      q.targetAddr.toList (q.offset - udpHeaderStart)) q.offset) start n := by
  rw [frame,ipv4Checksum_outside (.inr h),ipv4Length_outside (.inr (by omega))]

lemma frame_totalLength : slice (q.frame mac my dev) 16 2 =
    lengthBytes (28 + q.data.length) := by
  have hl : q.offset - ipv4HeaderStart = 28 + q.data.length := by
    unfold offset ipv4HeaderStart
    omega
  rw [frame,ipv4Checksum_outside (.inl (by omega)),ipv4Length,hl]
  exact slice_overwrite _ 16 _

lemma frame_udpLength : slice (q.frame mac my dev) 38 2 =
    lengthBytes (8 + q.data.length) := by
  rw [frame_headers _ _ _ _ (by omega)]
  exact udpSegment_length _ _ _

lemma frame_addresses : slice (q.frame mac my dev) 26 8 =
    addrBytes my ++ q.targetAddr.toList := by
  rw [frame_headers _ _ _ _ (by omega),headers_ipv4 _ _ _ _ (by omega)]
  exact ipv4Header_addresses _ _ _ _

lemma frame_header_sum :
    reduce (words (slice (q.frame mac my dev) 14 20)).sum = 65535 := by
  refine ipv4Checksum_sealed ?_
  rw [ipv4Length_outside (.inr (by omega)),udpChecksum_below (by unfold offset; omega) (by omega),
    headers_ipv4 _ _ _ _ (by omega)]
  exact ipv4Header_checksum _ _ _ _

lemma frame_segment_sum (hl : q.data.length ≤ 1475) :
    reduce ((words (addrBytes my ++ (q.targetAddr.toList ++
      ([0,17] ++ lengthBytes (8 + q.data.length))))).sum +
      (words (slice (q.frame mac my dev) 34 (8 + q.data.length))).sum) = 65535 := by
  have hu : q.offset - udpHeaderStart = 8 + q.data.length := by
    unfold offset udpHeaderStart
    omega
  rw [frame_segment _ _ _ _ (by omega),hu,← pseudoHeader_bytes]
  exact udpChecksum_sealed (udpSegment_checksum _ _ _) hl

end

structure Framed (q : Request) (myAddrInt : Word32) (packet : List Byte) : Prop where
  length : packet.length = 42 + q.data.length
  totalLength : words ((packet.drop 16).take 2) = [28 + q.data.length]
  udpLength : words ((packet.drop 38).take 2) = [8 + q.data.length]
  addresses : (packet.drop 26).take 8 = addrBytes myAddrInt ++ q.targetAddr.toList
  headerSum : OnesComplement.sum (words ((packet.drop 14).take 20)) = 0xffff
  segmentSum : OnesComplement.sum (words (addrBytes myAddrInt ++ (q.targetAddr.toList ++
    ([0,17] ++ (packet.drop 38).take 2)) ++ packet.drop 34)) = 0xffff

lemma words_lengthBytes (h : n < 65536) : words (lengthBytes n) = [n] := by
  simp only [lengthBytes,words,toNat_ofNat,List.cons.injEq,and_true]
  omega

lemma frame_framed (mac : Vector Byte 6) (my : Word32) (dev : NetDev)
    (hl : q.data.length ≤ 1475) :
    Framed q my (slice (q.frame mac my dev) 0 q.offset) := by
  have hp : ∀ {pos k : ℕ}, pos + k ≤ 42 + q.data.length →
      ((slice (q.frame mac my dev) 0 q.offset).drop pos).take k =
        slice (q.frame mac my dev) pos k := by
    intro pos k h
    rw [offset,slice_slice _ 0 h,Nat.zero_add]
  have hu := hp (by omega : 38 + 2 ≤ 42 + q.data.length)
  have hs : (slice (q.frame mac my dev) 0 q.offset).drop 34 =
      slice (q.frame mac my dev) 34 (8 + q.data.length) := by
    have ha : ((slice (q.frame mac my dev) 0 q.offset).drop 34).length ≤
        8 + q.data.length := by
      rw [List.length_drop,length_slice,offset]
      omega
    rw [← hp (by omega : 34 + (8 + q.data.length) ≤ 42 + q.data.length),List.take_of_length_le ha]
  rw [frame_udpLength] at hu
  refine ⟨length_slice ..,?_,?_,?_,?_,?_⟩
  · rw [hp (by omega),frame_totalLength,words_lengthBytes (by omega)]
  · rw [hu,words_lengthBytes (by omega)]
  · rw [hp (by omega),frame_addresses]
  · rw [hp (by omega),sum_eq (words_le _),frame_header_sum]
  · rw [hu,hs,sum_eq (words_le _),words_append (k := 6),List.sum_append,
      frame_segment_sum q mac my dev hl]
    rw [List.length_append,List.length_append,List.length_append,Vector.length_toList]
    rfl

lemma send_eq {table : List ArpEntry} {mac : Vector Byte 6} {dev : NetDev}
    {my : Word32} (hs : search (addrInt q.targetAddr) table = some (mac,dev))
    (hip : dev.ipv4Address = some my) (htx : dev.txReserved = true)
    (hl : q.data.length ≤ 1475) :
    send table q = .ok (.transmitted dev (slice (q.frame mac my dev) 0 q.offset)) := by
  have ho : q.offset < 1518 := by
    unfold offset
    omega
  simp [send,hs,hip,htx,ho,kassert,bind,Except.bind,pure,Except.pure]

theorem send_checksums (table : List ArpEntry) (q : Request) {targetMac : Vector Byte 6}
    {dev : NetDev} {myAddrInt : Word32}
    (hsearch : search (addrInt q.targetAddr) table = some (targetMac,dev))
    (hip : dev.ipv4Address = some myAddrInt) (htx : dev.txReserved = true)
    (hlen : q.data.length ≤ 1475) :
    ∃ packet, send table q = .ok (.transmitted dev packet) ∧ Framed q myAddrInt packet :=
  ⟨_,send_eq hsearch hip htx hlen,frame_framed targetMac myAddrInt dev hlen⟩

def gateway : NetDev := ⟨some 0x0100007f,⟨#[2,0,0,0,0,1],rfl⟩,true⟩

def peerMac : Vector Byte 6 := ⟨#[2,0,0,0,0,2],rfl⟩

def gatewayTable : List ArpEntry := [⟨0x0200007f,peerMac,gateway⟩]

def greeting : Request := ⟨fun _ => 0,(0,0),⟨#[127,0,0,2],rfl⟩,80,[104,105,33]⟩

theorem send_checksums_greeting : search (addrInt greeting.targetAddr) gatewayTable =
      some (peerMac,gateway) ∧ gateway.ipv4Address = some 0x0100007f ∧
    gateway.txReserved = true ∧ greeting.data.length ≤ 1475 ∧
    ∃ packet, send gatewayTable greeting = .ok (.transmitted gateway packet) ∧
      Framed greeting 0x0100007f packet :=
  have hs : search (addrInt greeting.targetAddr) gatewayTable = some (peerMac,gateway) := by
    decide
  ⟨hs,rfl,rfl,by decide,send_checksums gatewayTable greeting hs rfl rfl (by decide)⟩

end Net
