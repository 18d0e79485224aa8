import RaphKernel.Net.Checksum

namespace Net
open Bytes Raph

structure Scratch where
  buf : ℕ → Byte
  touched : List ℕ
  taken : Bool

namespace Scratch

def touch (l : Scratch) (indices : List ℕ) : Scratch := {l with touched := l.touched ++ indices}

def put (l : Scratch) (start : ℕ) (data : List Byte) : Scratch :=
  {l.touch (List.range' start data.length) with buf := overwrite l.buf start data}

def putAll (l : Scratch) (writes : List (ℕ × List Byte)) : Scratch :=
  writes.foldl (fun l w => l.put w.1 w.2) l

def readSum (l : Scratch) (i stop : ℕ) (checksum : Word32) : Word32 × Scratch :=
  if i < stop then (l.touch [i,i + 1]).readSum (i + 2) stop (checksum + wordAt l.buf i)
  else (checksum,l)
termination_by stop - i

end Scratch

open Scratch

def intOffset (len : ℕ) : ℤ := (BitVec.ofNat 32 (42 + len)).toInt

def sizeT (n : ℤ) : ℕ := (BitVec.ofInt 64 n).toNat

namespace Request

def fillHeaders (q : Request) (targetMac : Vector Byte 6) (myAddrInt : Word32) (dev : NetDev)
    (l : Scratch) : Scratch :=
  let l := l.putAll [(0,targetMac.toList),(6,dev.ethAddr.toList),(12,[0x08,0x00])]
  let l := l.putAll [(ipv4HeaderStart,[((0x4 : Byte) <<< 4) ||| 0x5]),(15,[0]),(18,[q.id.1,q.id.2]),
    (20,[(foffset >>> 8).setWidth 8,foffset.setWidth 8]),(22,[0xff]),(23,[17]),
    (ipv4ChecksumOffset,[0,0]),(26,addrBytes myAddrInt),(30,q.targetAddr.toList)]
  let l := l.putAll [(udpHeaderStart,[0x30,0x39]),(36,portBytes q.targetPort),(udpChecksumOffset,[0,0])]
  l.put 42 q.data

def fillUdp (q : Request) (myAddrInt : Word32) (l : Scratch) : Scratch :=
  let offset := intOffset q.data.length
  let udpLength := sizeT (offset - udpHeaderStart)
  let l := l.put udpLengthOffset (lengthBytes udpLength)
  let checksum := sumLoop (pseudoHeader (addrBytes myAddrInt) q.targetAddr.toList udpLength) 0 12 0
  let l := if (offset - udpHeaderStart).tmod 2 = 1 then l.put offset.toNat [0] else l
  let (checksum,l) := l.readSum udpHeaderStart offset.toNat checksum
  l.put udpChecksumOffset (checksumBytes (foldLoop checksum))

def fillIpv4 (q : Request) (l : Scratch) : Scratch :=
  let l := l.put datagramLengthOffset (lengthBytes (sizeT (intOffset q.data.length - ipv4HeaderStart)))
  let (checksum,l) := l.readSum ipv4HeaderStart ipv4HeaderEnd 0
  l.put ipv4ChecksumOffset (checksumBytes (foldLoop checksum))

def fill (q : Request) (targetMac : Vector Byte 6) (myAddrInt : Word32) (dev : NetDev) : Scratch :=
  q.fillIpv4 (q.fillUdp myAddrInt (q.fillHeaders targetMac myAddrInt dev ⟨q.buf,[],false⟩))

end Request

def sendTraced (table : List ArpEntry) (q : Request) : Except Panic Sent × Scratch :=
  match search (addrInt q.targetAddr) table with
  | none => (.ok (.printed "cannot solve mac address from ARP Table.\n"),⟨q.buf,[],false⟩)
  | some (targetMac,dev) =>
    match dev.ipv4Address with
    | none => (.error .kassert,⟨q.buf,[],false⟩)
    | some myAddrInt =>
      let l := q.fill targetMac myAddrInt dev
      let offset := intOffset q.data.length
      if offset < 1518 then
        if dev.txReserved then
          (.ok (.transmitted dev (slice l.buf 0 (sizeT offset))),
            {l.touch (List.range (sizeT offset)) with taken := true})
        else (.error .kassert,l)
      else (.error .kassert,l)

namespace Scratch
variable {l : Scratch} {start i stop : ℕ} {data : List Byte} {ck : Word32}

def Inside (l : Scratch) : Prop := ∀ i ∈ l.touched, i < 1518

@[simp] lemma put_buf (l : Scratch) (start : ℕ) (data : List Byte) :
    (l.put start data).buf = overwrite l.buf start data := rfl

@[simp] lemma put_taken (l : Scratch) (start : ℕ) (data : List Byte) :
    (l.put start data).taken = l.taken := rfl

lemma putAll_taken (l : Scratch) (writes : List (ℕ × List Byte)) :
    (l.putAll writes).taken = l.taken := by
  induction writes generalizing l with
  | nil => rfl
  | cons w writes ih => exact ih _

lemma putAll_buf (l : Scratch) (writes : List (ℕ × List Byte)) :
    (l.putAll writes).buf = writeAll l.buf writes := by
  induction writes generalizing l with
  | nil => rfl
  | cons w writes ih => exact ih _

lemma readSum_buf (l : Scratch) (i stop : ℕ) (ck : Word32) :
    (l.readSum i stop ck).1 = sumLoop l.buf i stop ck ∧
      (l.readSum i stop ck).2.buf = l.buf ∧ (l.readSum i stop ck).2.taken = l.taken := by
  induction l, i, ck using readSum.induct stop with
  | case1 l i ck h ih =>
    rw [readSum,if_pos h,sumLoop_step h]
    exact ih
  | case2 l i ck h =>
    rw [readSum,if_neg h,sumLoop_done (not_lt.mp h)]
    exact ⟨rfl,rfl,rfl⟩

lemma put_inside : (l.put start data).Inside ↔
    l.Inside ∧ ∀ i, start ≤ i → i < start + data.length → i < 1518 := by
  simp only [Inside,put,touch,List.mem_append,List.mem_range'_1]
  constructor
  · exact fun h => ⟨fun i hi => h i (.inl hi),fun i hlo hhi => h i (.inr ⟨hlo,hhi⟩)⟩
  · rintro ⟨hl,hd⟩ i (hi | ⟨hlo,hhi⟩)
    · exact hl i hi
    · exact hd i hlo hhi

lemma putAll_inside {writes : List (ℕ × List Byte)} (h : ∀ w ∈ writes, w.1 + w.2.length ≤ 1518) :
    (l.putAll writes).Inside ↔ l.Inside := by
  induction writes generalizing l with
  | nil => exact Iff.rfl
  | cons w writes ih =>
    have hw := h w List.mem_cons_self
    refine (ih fun w' hw' => h w' (List.mem_cons_of_mem w hw')).trans ?_
    rw [put_inside]
    exact and_iff_left fun i _ hhi => by omega

lemma readSum_inside (h : (l.readSum i stop ck).2.Inside) : l.Inside := by
  induction l, i, ck using readSum.induct stop with
  | case1 l i ck hlt ih =>
    rw [readSum,if_pos hlt] at h
    exact fun j hj => ih h j (List.mem_append_left _ hj)
  | case2 l i ck hlt =>
    rw [readSum,if_neg hlt] at h
    exact h

lemma inside_readSum (hl : l.Inside) (hi : i ≤ stop) (hs : stop ≤ 1518)
    (ho : (stop - i) % 2 = 1 → stop < 1518) : (l.readSum i stop ck).2.Inside := by
  induction l, i, ck using readSum.induct stop with
  | case1 l i ck hlt ih =>
    rw [readSum,if_pos hlt]
    have ht : (l.touch [i,i + 1]).Inside := by
      intro j hj
      rcases List.mem_append.mp hj with hj | hj
      · exact hl j hj
      · simp only [List.mem_cons,List.not_mem_nil,or_false] at hj
        omega
    by_cases hn : i + 2 ≤ stop
    · exact ih ht hn (fun h => ho (by omega))
    · rw [readSum,if_neg (by omega)]
      exact ht
  | case2 l i ck hlt =>
    rw [readSum,if_neg hlt]
    exact hl

end Scratch

section
variable {len : ℕ}

lemma intOffset_eq (h : 42 + len < 2 ^ 31) : intOffset len = (42 + len : ℕ) := by
  rw [intOffset,BitVec.toInt_eq_toNat_of_lt]
  · rw [BitVec.toNat_ofNat,Nat.mod_eq_of_lt (by omega)]
  · rw [BitVec.toNat_ofNat,Nat.mod_eq_of_lt (by omega)]
    omega

lemma sizeT_natCast {n : ℕ} (h : n < 2 ^ 64) : sizeT n = n := by
  rw [sizeT,BitVec.ofInt_natCast,BitVec.toNat_ofNat,Nat.mod_eq_of_lt h]

lemma sizeT_offset {start : ℕ} (h : 42 + len < 2 ^ 31) (hs : start ≤ 42) :
    sizeT (intOffset len - start) = 42 + len - start := by
  rw [intOffset_eq h,← Int.natCast_sub (by omega),sizeT_natCast (by omega)]

lemma odd_offset (h : 42 + len < 2 ^ 31) :
    (intOffset len - udpHeaderStart).tmod 2 = 1 ↔ (42 + len - udpHeaderStart) % 2 = 1 := by
  have hc : intOffset len - udpHeaderStart = ((42 + len - udpHeaderStart : ℕ) : ℤ) := by
    rw [intOffset_eq h]
    unfold udpHeaderStart
    omega
  rw [hc,Int.tmod_eq_emod_of_nonneg (Int.natCast_nonneg _)]
  omega

end

namespace Request
variable (q : Request) (targetMac : Vector Byte 6) (myAddrInt : Word32) (dev : NetDev) (l : Scratch)

lemma fillHeaders_inside : (q.fillHeaders targetMac myAddrInt dev l).Inside ↔
    l.Inside ∧ ∀ i, 42 ≤ i → i < 42 + q.data.length → i < 1518 := by
  rw [fillHeaders,put_inside,putAll_inside,putAll_inside,
    putAll_inside]
  · simp
  · simp [ipv4HeaderStart,ipv4ChecksumOffset,addrBytes]
  · simp [udpHeaderStart,udpChecksumOffset,portBytes]

lemma fillUdp_inside (h : (q.fillUdp myAddrInt l).Inside) : l.Inside := by
  have hs := readSum_inside (put_inside.mp h).1
  split_ifs at hs
  · exact (put_inside.mp (put_inside.mp hs).1).1
  · exact (put_inside.mp hs).1

lemma fillIpv4_inside : (q.fillIpv4 l).Inside ↔ l.Inside := by
  constructor
  · intro h
    exact (put_inside.mp (readSum_inside (put_inside.mp h).1)).1
  · intro h
    have hl : (l.put datagramLengthOffset
        (lengthBytes (sizeT (intOffset q.data.length - ipv4HeaderStart)))).Inside :=
      put_inside.mpr ⟨h,fun i _ hi => by
        simp only [lengthBytes,datagramLengthOffset,List.length_cons,List.length_nil] at hi
        omega⟩
    refine put_inside.mpr ⟨inside_readSum hl ?_ ?_ ?_,fun i _ hi => ?_⟩
    · decide
    · decide
    · decide
    · simp only [checksumBytes,ipv4ChecksumOffset,List.length_cons,List.length_nil] at hi
      omega

variable {q} in
lemma inside_fillUdp (hle : q.data.length ≤ 1476) (h : l.Inside) : (q.fillUdp myAddrInt l).Inside := by
  have hs : 42 + q.data.length < 2 ^ 31 := by omega
  have ho := intOffset_eq hs
  have hl : (l.put udpLengthOffset
      (lengthBytes (sizeT (intOffset q.data.length - udpHeaderStart)))).Inside :=
    Scratch.put_inside.mpr ⟨h,fun i _ hi => by
      simp only [lengthBytes,udpLengthOffset,List.length_cons,List.length_nil] at hi
      omega⟩
  refine Scratch.put_inside.mpr ⟨Scratch.inside_readSum ?_ ?_ ?_ ?_,fun i _ hi => ?_⟩
  · split_ifs with hod
    · rw [odd_offset hs,udpHeaderStart] at hod
      refine Scratch.put_inside.mpr ⟨hl,fun i _ hi => ?_⟩
      rw [ho,Int.toNat_natCast,List.length_singleton] at hi
      omega
    · exact hl
  · rw [ho,Int.toNat_natCast,udpHeaderStart]
    omega
  · rw [ho,Int.toNat_natCast]
    omega
  · rw [ho,Int.toNat_natCast,udpHeaderStart]
    omega
  · simp only [checksumBytes,udpChecksumOffset,List.length_cons,List.length_nil] at hi
    omega

lemma fill_inside_iff : (q.fill targetMac myAddrInt dev).Inside ↔ q.data.length ≤ 1476 := by
  have he : (⟨q.buf,[],false⟩ : Scratch).Inside := fun i hi => nomatch hi
  rw [fill,fillIpv4_inside]
  constructor
  · intro h
    have hd := ((fillHeaders_inside ..).mp (fillUdp_inside _ _ _ h)).2 1518 (by omega)
    omega
  · intro h
    exact inside_fillUdp _ _ h ((fillHeaders_inside ..).mpr ⟨he,fun i _ hi => by omega⟩)

lemma fill_taken : (q.fill targetMac myAddrInt dev).taken = false := by
  simp only [fill,fillIpv4,fillUdp,put_taken,(readSum_buf ..).2.2]
  split_ifs <;> simp [fillHeaders,putAll_taken]

section
variable {q} (h : 42 + q.data.length < 2 ^ 31)
include h

lemma fillUdp_buf : (q.fillUdp myAddrInt l).buf =
    udpChecksum (overwrite l.buf udpLengthOffset (lengthBytes (q.offset - udpHeaderStart)))
      (pseudoHeader (addrBytes myAddrInt) q.targetAddr.toList (q.offset - udpHeaderStart))
      q.offset := by
  have hs : sizeT (intOffset q.data.length - udpHeaderStart) = q.offset - udpHeaderStart :=
    sizeT_offset h (by decide)
  have hn : (intOffset q.data.length).toNat = q.offset := by
    rw [intOffset_eq h,Int.toNat_natCast]
    rfl
  have ho : (intOffset q.data.length - udpHeaderStart).tmod 2 = 1 ↔
      (q.offset - udpHeaderStart) % 2 = 1 := odd_offset h
  simp only [fillUdp,udpChecksum,put_buf,(readSum_buf ..).1,(readSum_buf ..).2.1,hs,hn,ho,
    apply_ite Scratch.buf]

lemma fillIpv4_buf : (q.fillIpv4 l).buf = ipv4Checksum (ipv4Length l.buf q.offset) := by
  have hs : sizeT (intOffset q.data.length - ipv4HeaderStart) = q.offset - ipv4HeaderStart :=
    sizeT_offset h (by decide)
  simp only [fillIpv4,ipv4Checksum,ipv4Length,put_buf,(readSum_buf ..).1,(readSum_buf ..).2.1,hs]

lemma fill_buf : (q.fill targetMac myAddrInt dev).buf = q.frame targetMac myAddrInt dev := by
  rw [fill,fillIpv4_buf _ h,fillUdp_buf _ _ h,fillHeaders,put_buf,putAll_buf,putAll_buf,putAll_buf]
  rfl

end

end Request

variable {table : List ArpEntry} {q : Request}

-- without the record of indices this is the send of the checksum results, as long as offset does
-- not leave int
lemma sendTraced_result (h : 42 + q.data.length < 2 ^ 31) : (sendTraced table q).1 = send table q := by
  unfold sendTraced send
  cases search (addrInt q.targetAddr) table with
  | none => rfl
  | some found =>
    obtain ⟨targetMac,dev⟩ := found
    cases hip : dev.ipv4Address with
    | none => simp only [hip]
    | some my =>
      have hs : sizeT (intOffset q.data.length) = q.offset := by
        rw [intOffset_eq h,sizeT_natCast (by omega)]
        rfl
      have hf : intOffset q.data.length < 1518 ↔ q.offset < 1518 := by
        rw [intOffset_eq h,Request.offset]
        omega
      simp only [hip,hf,hs,Request.fill_buf _ _ _ h]
      by_cases hlt : q.offset < 1518
      · cases dev.txReserved <;> simp [hlt,kassert] <;> rfl
      · simp [hlt,kassert]
        rfl

-- the device and the source address come first, so no other request reaches the frame buffer
lemma sendTraced_untouched (h : ∀ targetMac dev myAddrInt,
      search (addrInt q.targetAddr) table = some (targetMac,dev) → dev.ipv4Address ≠ some myAddrInt) :
    (sendTraced table q).2 = ⟨q.buf,[],false⟩ ∧
      ∀ dev packet, (sendTraced table q).1 ≠ .ok (.transmitted dev packet) := by
  rcases hsearch : search (addrInt q.targetAddr) table with _ | ⟨targetMac,dev⟩
  · simp [sendTraced,hsearch]
  cases hip : dev.ipv4Address with
  | none => simp [sendTraced,hsearch,hip]
  | some myAddrInt => exact absurd hip (h targetMac dev myAddrInt hsearch)

section
variable {targetMac : Vector Byte 6} {dev : NetDev} {myAddrInt : Word32}
  (hsearch : search (addrInt q.targetAddr) table = some (targetMac,dev))
  (hip : dev.ipv4Address = some myAddrInt)

include hsearch hip

lemma sendTraced_inside_iff : (sendTraced table q).2.Inside ↔ q.data.length ≤ 1476 := by
  have hf := q.fill_inside_iff targetMac myAddrInt dev
  refine Iff.trans ?_ hf
  simp only [sendTraced,hsearch,hip]
  by_cases hlt : intOffset q.data.length < 1518
  · cases htx : dev.txReserved
    · simp only [hlt,if_true,Bool.false_eq_true,if_false]
    · simp only [hlt,if_true]
      constructor
      · intro h i hi
        exact h i (List.mem_append_left _ hi)
      · intro h i hi
        rcases List.mem_append.mp hi with hi | hi
        · exact h i hi
        have hl := hf.mp h
        rw [intOffset_eq (by omega)] at hi hlt
        rw [sizeT_natCast (by omega),List.mem_range] at hi
        omega
  · simp only [hlt,if_false]

lemma sendTraced_rejected (hl : q.data.length = 1476) : (sendTraced table q).2.taken = false ∧
    ∀ dev packet, (sendTraced table q).1 ≠ .ok (.transmitted dev packet) := by
  have hlt : ¬ intOffset q.data.length < 1518 := by
    rw [hl]
    decide
  simp only [sendTraced,hsearch,hip,hlt,if_false]
  exact ⟨q.fill_taken ..,by simp⟩

end

structure Safe (table : List ArpEntry) (q : Request) : Prop where
  inside : (sendTraced table q).2.Inside
  rejected : 1518 ≤ 42 + q.data.length → (sendTraced table q).2.taken = false ∧
    ∀ dev packet, (sendTraced table q).1 ≠ .ok (.transmitted dev packet)

theorem send_safe_iff (table : List ArpEntry) (q : Request) : Safe table q ↔
    ∀ targetMac dev myAddrInt, search (addrInt q.targetAddr) table = some (targetMac,dev) →
      dev.ipv4Address = some myAddrInt → q.data.length ≤ 1476 := by
  constructor
  · intro h targetMac dev myAddrInt hsearch hip
    exact (sendTraced_inside_iff hsearch hip).mp h.inside
  · intro h
    by_cases hk : ∃ targetMac dev myAddrInt,
        search (addrInt q.targetAddr) table = some (targetMac,dev) ∧ dev.ipv4Address = some myAddrInt
    · obtain ⟨targetMac,dev,myAddrInt,hsearch,hip⟩ := hk
      have hle := h targetMac dev myAddrInt hsearch hip
      refine ⟨(sendTraced_inside_iff hsearch hip).mpr hle,fun hl => ?_⟩
      exact sendTraced_rejected hsearch hip (by omega)
    · have hu := sendTraced_untouched fun targetMac dev myAddrInt hsearch hip =>
        hk ⟨targetMac,dev,myAddrInt,hsearch,hip⟩
      refine ⟨fun i hi => ?_,fun _ => ⟨?_,hu.2⟩⟩
      · rw [hu.1] at hi
        exact absurd hi List.not_mem_nil
      · rw [hu.1]

def oversized : Request := {greeting with data := List.replicate 1477 0}

theorem send_overruns : oversized.data.length = 1477 ∧ (sendTraced gatewayTable oversized).2.taken = false ∧
    ∃ i ∈ (sendTraced gatewayTable oversized).2.touched, 1518 ≤ i := by
  have hsearch : search (addrInt oversized.targetAddr) gatewayTable = some (peerMac,gateway) := by
    decide
  have hip : gateway.ipv4Address = some 0x0100007f := rfl
  have hl : oversized.data.length = 1477 := List.length_replicate
  have hf : ¬ intOffset oversized.data.length < 1518 := by
    rw [hl]
    decide
  refine ⟨hl,?_,?_⟩
  · simp only [sendTraced,hsearch,hip,hf,if_false]
    exact oversized.fill_taken ..
  · by_contra hnone
    push Not at hnone
    have hin := (sendTraced_inside_iff hsearch hip).mp hnone
    omega

end Net
