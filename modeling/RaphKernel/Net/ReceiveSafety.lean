import RaphKernel.Library.Meets
import RaphKernel.Net.ReceiveCallback

namespace Net
open Bytes Raph Fallible Station Dev.NetDev

variable {P A : Type}

namespace Callback

lemma range_inside {len start n : ℕ} (hn : 0 < n) :
    (∀ i ∈ List.range' start n, i < len) ↔ start + n ≤ len := by
  simp only [List.mem_range'_1]
  constructor
  · intro h
    have hl := h (start + n - 1) (by omega)
    omega
  · intro h i _
    omega

lemma compared_inside {buf : ℕ → Byte} {len i : ℕ} {data : List Byte} :
    (∀ j ∈ compared buf i data, j < len) ↔
      ∀ k < data.length, slice buf i k = data.take k → i + k < len := by
  induction data generalizing i with
  | nil => simp [compared]
  | cons c data ih =>
    constructor
    · intro h k hk hs
      cases k with
      | zero => exact h i List.mem_cons_self
      | succ k =>
        rw [slice_succ,List.take_succ_cons,List.cons.injEq] at hs
        have hn := ih.mp fun j hj => h j (List.mem_cons_of_mem i (by
          rw [if_neg (not_not.mpr hs.1)]
          exact hj))
        have hlt := hn k (Nat.lt_of_succ_lt_succ hk) hs.2
        omega
    · intro h j hj
      rcases List.mem_cons.mp hj with rfl | hj
      · exact h 0 (Nat.succ_pos _) rfl
      · split_ifs at hj with hc
        · exact absurd hj List.not_mem_nil
        · refine ih.mpr (fun k hk hs => ?_) j hj
          have hlt := h _ (Nat.succ_lt_succ hk) (by
            rw [slice_succ,List.take_succ_cons,not_not.mp hc,hs])
          omega

section
variable {s : Station P} {pkt : Packet}

@[simp] lemma meets_look {Q : Unit → Station P → Prop} {indices : List ℕ} :
    Meets Q (look indices) s ↔ Q () (s.looked indices) := meets_update

@[simp] lemma meets_peek {Q : Byte → Station P → Prop} {i : ℕ} :
    Meets Q (peek pkt i) s ↔ Q (pkt.buf i) (s.looked [i]) := meets_of_ok rfl

lemma meets_embed {Q : A → Station P → Prop} {ha : Handler A} {a : A} {w : World}
    (h : ha.exec s.world = (.ok a,w)) : Meets Q (embed ha) s ↔ Q a (s.onto w) :=
  meets_of_ok (by rw [embed,h])

@[simp] lemma meets_print {Q : Unit → Station P → Prop} {text : List Byte} :
    Meets Q (embed (print text)) s ↔ Q () (s.onto {s.world with output := s.world.output ++ text}) :=
  meets_embed rfl

@[simp] lemma meets_modify {Q : Unit → Station P → Prop} {f : World → World} :
    Meets Q (embed (modify f)) s ↔ Q () (s.onto (f s.world)) := meets_embed rfl

lemma meets_isType {Q : Bool → Station P → Prop} {low : Byte} : Meets Q (isType pkt low) s ↔
      if pkt.buf 12 = 0x08 then Q (decide (pkt.buf 13 = low)) ((s.looked [12]).looked [13])
      else Q false (s.looked [12]) := by
  simp [isType]

lemma meets_memcmp {Q : Bool → Station P → Prop} {i : ℕ} {data : List Byte} :
    Meets Q (memcmp pkt i data) s ↔
      Q (decide (slice pkt.buf i data.length = data)) (s.looked (compared pkt.buf i data)) :=
  meets_of_ok (memcmp_exec s pkt i data)

end

end Callback

structure Station.Good (len : ℕ) (reserved : List P) (s : Station P) : Prop where
  reads : ∀ i ∈ s.reads, i < len
  payload : ∀ i ∈ s.payload, i < len
  reserved : (s.dev.ring .rx .reserved).contents = reserved

namespace Station
variable {len : ℕ} {reserved : List P} {s : Station P}

@[simp] lemma good_looked {indices : List ℕ} :
    (s.looked indices).Good len reserved ↔ s.Good len reserved ∧ ∀ i ∈ indices, i < len := by
  constructor
  · intro h
    exact ⟨⟨fun i hi => h.reads i (List.mem_append_left _ hi),h.payload,h.reserved⟩,
      fun i hi => h.reads i (List.mem_append_right _ hi)⟩
  · rintro ⟨h,hin⟩
    exact ⟨fun i hi => (List.mem_append.mp hi).elim (h.reads i) (hin i),h.payload,h.reserved⟩

@[simp] lemma good_onto {w : World} : (s.onto w).Good len reserved ↔ s.Good len reserved :=
  ⟨fun h => ⟨h.reads,h.payload,h.reserved⟩,fun h => ⟨h.reads,h.payload,h.reserved⟩⟩

lemma good_dev {dev : Dev.NetDev P} (h : dev.ring .rx .reserved = s.dev.ring .rx .reserved) :
    ({s with dev := dev} : Station P).Good len reserved ↔ s.Good len reserved := by
  constructor
  · exact fun hg => ⟨hg.reads,hg.payload,(congrArg _ h).symm.trans hg.reserved⟩
  · exact fun hg => ⟨hg.reads,hg.payload,(congrArg _ h).trans hg.reserved⟩

end Station

namespace Callback
variable {len : ℕ} {reserved : List P} {s : Station P} {pkt : Packet} {p : P}

lemma arpReplied_good (eth : NetDev) : Meets (fun _ t => t.Good len reserved) (arpReplied eth pkt) s ↔
    s.Good len reserved ∧ 32 ≤ len := by
  simp only [arpReplied,meets_bind,meets_look,meets_print,meets_modify,good_onto,
    good_looked,and_assoc,range_inside (by decide : 0 < 6)]
  refine and_congr_right fun _ => ?_
  simp
  omega

lemma getTxPacket_good {Q : P → Station P → Prop} {C : Prop}
    (hQ : ∀ p dev, s.dev.getTxPacket = some (p,dev) → (Q p {s with dev := dev} ↔ C)) :
    Meets Q getTxPacket s ↔ C ∧ s.dev.getTxPacket.isSome = true := by
  cases htx : s.dev.getTxPacket with
  | none => exact iff_of_false (meets_of_error (by rw [getTxPacket,htx])) (by simp)
  | some found =>
    obtain ⟨p,dev⟩ := found
    rw [meets_of_ok (by rw [getTxPacket,htx]),hQ p dev htx]
    simp

lemma arpAnswer_good (eth : NetDev) (my : Word32) :
    Meets (fun _ t => t.Good len reserved) (arpAnswer eth my pkt) s ↔
      (s.Good len reserved ∧ 32 ≤ len) ∧ s.dev.getTxPacket.isSome = true := by
  simp only [arpAnswer,meets_bind,meets_look,meets_modify]
  refine getTxPacket_good fun p dev hd => ?_
  rw [transmitPacket,meets_update,good_dev (transmitPacket_ring _ _),good_onto,
    good_dev (getTxPacket_ring hd)]
  simp only [good_looked,and_assoc,range_inside (by decide : 0 < 6),
    range_inside (by decide : 0 < 4)]
  refine and_congr_right fun _ => ?_
  omega

lemma reuseRxBuffer_good : Meets (fun _ t => t.Good len (reserved ++ [p])) (reuseRxBuffer p) s ↔
    s.Good len reserved ∧ reserved.length < Dev.kBufSize := by
  have hle := (s.dev.ring .rx .reserved).size_le
  rw [← Dev.RingBuffer.length_contents] at hle
  rcases hle.eq_or_lt with hf | hr
  · refine iff_of_false (meets_of_error (by rw [reuseRxBuffer,reuseRxBuffer_full hf p])) ?_
    rintro ⟨hg,hlt⟩
    rw [← hg.reserved] at hlt
    omega
  · obtain ⟨dev,hre,hri⟩ := reuseRxBuffer_room hr p
    rw [meets_of_ok (by rw [reuseRxBuffer,hre]; rfl)]
    constructor
    · intro h
      have hk := List.append_cancel_right (hri.symm.trans h.reserved)
      exact ⟨⟨h.reads,h.payload,hk⟩,hk ▸ hr⟩
    · rintro ⟨h,_⟩
      exact ⟨h.reads,h.payload,hri.trans (congrArg (· ++ [p]) h.reserved)⟩

end Callback

structure ArpSafe (myAddrInt : Word32) (packet : Packet) (tx : Bool) : Prop where
  operation : 22 ≤ packet.len
  reply : packet.buf 21 = 0x02 → 32 ≤ packet.len
  compared : packet.buf 21 = 0x01 → ∀ k < 4,
    slice packet.buf 38 k = (addrBytes myAddrInt).take k → 38 + k < packet.len
  answer : packet.buf 21 = 0x01 → slice packet.buf 38 4 = addrBytes myAddrInt → tx = true

structure Ipv4Safe (packet : Packet) : Prop where
  version : 15 ≤ packet.len
  fragment : packet.buf 14 >>> 4 = 0x4 → 20 ≤ (packet.buf 14 &&& 0x0F).toNat * 4 →
    22 ≤ packet.len ∧ (halfWord packet.buf 20 &&& (1 <<< 13) ≠ 0 ∨ halfWord packet.buf 20 &&& 0x1FFF ≠ 0)

def Typed (packet : Packet) : Prop :=
  13 ≤ packet.len ∧ (packet.buf 12 = 0x08 → 14 ≤ packet.len)

structure Harmless (myAddrInt : Word32) (packet : Packet) (tx : Bool) : Prop where
  type : Typed packet
  arp : packet.buf 12 = 0x08 → packet.buf 13 = 0x06 → ArpSafe myAddrInt packet tx
  ipv4 : packet.buf 12 = 0x08 → packet.buf 13 = 0x00 → Ipv4Safe packet

namespace Callback
variable {reserved : List P} {s : Station P} {pkt : Packet} {p : P}

lemma request_good (eth : NetDev) (my : Word32) : Meets (fun same t => if same = true then
        Meets (fun _ t => t.Good pkt.len reserved) (arpAnswer eth my pkt) t
      else t.Good pkt.len reserved) (memcmp pkt 38 (addrBytes my)) s ↔
      s.Good pkt.len reserved ∧
      (∀ k < 4, slice pkt.buf 38 k = (addrBytes my).take k → 38 + k < pkt.len) ∧
      (slice pkt.buf 38 4 = addrBytes my → s.dev.getTxPacket.isSome = true) := by
  have hl : (addrBytes my).length = 4 := rfl
  rw [meets_memcmp,hl]
  by_cases hs : slice pkt.buf 38 4 = addrBytes my
  · rw [if_pos (decide_eq_true hs),arpAnswer_good,good_looked,compared_inside,looked_dev,hl]
    constructor
    · rintro ⟨⟨⟨hg,hin⟩,_⟩,htx⟩
      exact ⟨hg,hin,fun _ => htx⟩
    · rintro ⟨hg,hin,htx⟩
      have hla := hin 0 (by omega) rfl
      exact ⟨⟨⟨hg,hin⟩,by omega⟩,htx hs⟩
  · rw [if_neg (by simpa using hs),good_looked,compared_inside,hl]
    exact and_congr_right fun _ => (and_iff_left fun h => absurd h hs).symm

lemma arp_good (eth : NetDev) (my : Word32) :
    Meets (fun _ t => t.Good pkt.len reserved) (arp eth my pkt) s ↔
      s.Good pkt.len reserved ∧ ArpSafe my pkt s.dev.getTxPacket.isSome := by
  simp only [arp,meets_bind,meets_peek,meets_ite,meets_pure]
  by_cases hre : pkt.buf 21 = 0x02
  · have hr : pkt.buf 21 ≠ 0x01 := by
      rw [hre]
      decide
    simp only [if_pos hre,if_neg hr,good_looked,meets_and,arpReplied_good,List.forall_mem_singleton]
    constructor
    · rintro ⟨⟨⟨hg,_⟩,hl⟩,_⟩
      exact ⟨hg,by omega,fun _ => hl,fun h => absurd h hr,fun h => absurd h hr⟩
    · rintro ⟨hg,h⟩
      have hl := h.reply hre
      exact ⟨⟨⟨hg,by omega⟩,hl⟩,by omega⟩
  by_cases hr : pkt.buf 21 = 0x01
  · simp only [if_neg hre,if_pos hr,request_good,good_looked,looked_dev,List.forall_mem_singleton]
    constructor
    · rintro ⟨⟨⟨hg,hl⟩,_⟩,hc,htx⟩
      exact ⟨hg,hl,fun h => absurd h hre,fun _ => hc,fun _ => htx⟩
    · rintro ⟨hg,h⟩
      exact ⟨⟨⟨hg,h.operation⟩,h.operation⟩,h.compared hr,h.answer hr⟩
  · simp only [if_neg hre,if_neg hr,good_looked,List.forall_mem_singleton]
    constructor
    · rintro ⟨⟨hg,hl⟩,_⟩
      exact ⟨hg,hl,fun h => absurd h hre,fun h => absurd h hr,fun h => absurd h hr⟩
    · rintro ⟨hg,h⟩
      exact ⟨⟨hg,h.operation⟩,h.operation⟩

-- the pointer to the host address is never given storage
lemma ipv4Whole_null {Q : Unit → Station P → Prop} {ipv4HeaderLength : ℕ} :
    ¬ Meets Q (ipv4Whole pkt none ipv4HeaderLength) s := by
  have hs : ∀ {R : Option (Vector Byte 4) → Station P → Prop} {i : ℕ} {t : Station P},
      ¬ Meets R (store pkt none 0 i) t := by
    intro R i t
    rw [store,meets_bind,meets_peek]
    exact meets_of_error rfl
  simp only [ipv4Whole,meets_bind,meets_peek]
  exact hs

lemma ipv4_good : Meets (fun _ t => t.Good pkt.len reserved) (ipv4 none pkt) s ↔
    s.Good pkt.len reserved ∧ Ipv4Safe pkt := by
  simp only [ipv4,meets_bind,meets_peek,meets_ite,meets_pure,meets_look,good_looked,
    List.forall_mem_singleton,List.forall_mem_cons,ipv4Whole_null]
  by_cases hv : pkt.buf 14 >>> 4 = 0x4
  · rw [if_neg (not_not.mpr hv)]
    by_cases hs : (pkt.buf 14 &&& 0x0F).toNat * 4 < 20
    · rw [if_pos hs]
      constructor
      · rintro ⟨⟨hg,hle⟩,_⟩
        exact ⟨hg,hle,fun _ hl => by omega⟩
      · rintro ⟨hg,h⟩
        exact ⟨⟨hg,h.version⟩,h.version⟩
    · rw [if_neg hs]
      constructor
      · intro h
        split_ifs at h with hf
        obtain ⟨⟨⟨hg,hle⟩,_⟩,_,hfl⟩ := h
        exact ⟨hg,hle,fun _ _ => ⟨hfl,hf⟩⟩
      · rintro ⟨hg,h⟩
        obtain ⟨hle,hf⟩ := h.fragment hv (not_lt.mp hs)
        rw [if_pos hf]
        exact ⟨⟨⟨hg,h.version⟩,h.version⟩,by omega,hle⟩
  · rw [if_pos hv]
    exact and_congr_right fun _ => ⟨fun hle => ⟨hle,fun h => absurd h hv⟩,fun h => h.version⟩

lemma isType_good {x : Callback P Unit} {Q : Unit → Station P → Prop} {C K : Prop} {low : Byte}
    (hQ : ∀ t, Q () t ↔ t.Good pkt.len reserved ∧ K)
    (hx : ∀ t, t.dev = s.dev → (Meets Q x t ↔ t.Good pkt.len reserved ∧ C ∧ K)) :
    Meets (fun flag t => if flag = true then Meets Q x t else Q () t) (isType pkt low) s ↔
      s.Good pkt.len reserved ∧
        Typed pkt ∧ (pkt.buf 12 = 0x08 → pkt.buf 13 = low → C) ∧ K := by
  rw [meets_isType]
  by_cases ht : pkt.buf 12 = 0x08
  · have hty : Typed pkt ↔ 12 < pkt.len ∧ 13 < pkt.len :=
      and_congr_right fun _ => ⟨fun h => h ht,fun h _ => h⟩
    rw [if_pos ht,hty]
    by_cases hl : pkt.buf 13 = low
    · rw [if_pos (decide_eq_true hl),hx ((s.looked [12]).looked [13]) rfl,good_looked,
        good_looked,List.forall_mem_singleton,List.forall_mem_singleton]
      simp [ht,hl,and_assoc]
    · rw [if_neg (by simpa using hl),hQ,good_looked,good_looked,
        List.forall_mem_singleton,List.forall_mem_singleton]
      simp [hl,and_assoc]
  · have hty : Typed pkt ↔ 12 < pkt.len := and_iff_left fun h => absurd h ht
    rw [if_neg ht,if_neg Bool.false_ne_true,hQ,good_looked,List.forall_mem_singleton,hty,and_assoc]
    exact and_congr_right fun _ => and_congr_right fun _ =>
      (and_iff_right fun h => absurd h ht).symm

lemma inspect_good (eth : NetDev) (my : Word32) :
    Meets (fun _ t => t.Good pkt.len reserved) (inspect eth my pkt) s ↔
      s.Good pkt.len reserved ∧ Harmless my pkt s.dev.getTxPacket.isSome := by
  simp only [inspect,meets_bind,meets_ite,meets_pure]
  have hip4 : ∀ t, Meets (fun flag t => if flag = true then
        Meets (fun _ t => t.Good pkt.len reserved) (ipv4 none pkt) t
      else t.Good pkt.len reserved) (isType pkt 0x00) t ↔ t.Good pkt.len reserved ∧
        Typed pkt ∧ (pkt.buf 12 = 0x08 → pkt.buf 13 = 0x00 → Ipv4Safe pkt) ∧ True := by
    intro t
    refine isType_good (fun _ => (and_iff_left trivial).symm) fun t _ => ?_
    rw [ipv4_good,and_true]
  refine (isType_good (C := ArpSafe my pkt s.dev.getTxPacket.isSome) hip4
    fun t ht => ?_).trans (and_congr_right fun _ => ?_)
  · rw [meets_congr fun _ t => hip4 t,meets_and,arp_good,and_assoc,ht]
  · constructor
    · rintro ⟨hty,ha,_,hip4,_⟩
      exact ⟨hty,ha,hip4⟩
    · intro h
      exact ⟨h.type,h.arp,h.type,h.ipv4,trivial⟩

lemma handle_unset {eth : NetDev} (hip : eth.ipv4Address = none) {Q : Unit → Station P → Prop} :
    ¬ Meets Q (handle eth p pkt) s := by
  rw [handle,hip]
  exact meets_fail

lemma handle_good {eth : NetDev} {my : Word32} (hip : eth.ipv4Address = some my) :
    Meets (fun _ t => t.Good pkt.len (reserved ++ [p])) (handle eth p pkt) s ↔
      s.Good pkt.len reserved ∧ reserved.length < Dev.kBufSize ∧
        Harmless my pkt s.dev.getTxPacket.isSome := by
  simp only [handle,hip,meets_bind,reuseRxBuffer_good,meets_and,inspect_good]
  exact and_right_comm.trans and_assoc

end Callback

lemma receive_good {eth : NetDev} {frames : P → Packet} (world : World) {dev : Dev.NetDev P} {p : P}
    {rest : List P} (hre : (dev.ring .rx .buffered).contents = p :: rest) :
    Meets (fun _ t => t.Good (frames p).len ((dev.ring .rx .reserved).contents ++ [p]))
      (Callback.receive eth frames) (.start world dev) ↔
      (dev.ring .rx .reserved).contents.length < Dev.kBufSize ∧ ∃ my,
        eth.ipv4Address = some my ∧ Harmless my (frames p) dev.getTxPacket.isSome := by
  obtain ⟨dev',hr,hri,htx⟩ := receivePacket_some hre
  rw [Callback.receive,meets_bind,Callback.meets_print,meets_bind,
    meets_of_ok (by rw [Callback.receivePacket,onto_dev,start,hr])]
  cases hip : eth.ipv4Address with
  | none => exact iff_of_false (Callback.handle_unset hip) (by simp)
  | some my =>
    rw [Callback.handle_good hip]
    simp only [Option.some.injEq,exists_eq_left',htx]
    have hn : ∀ i ∈ ([] : List ℕ), i < (frames p).len := fun i hi => absurd hi List.not_mem_nil
    refine and_iff_right ⟨hn,hn,?_⟩
    exact congrArg Dev.RingBuffer.contents hri

def Served (eth : NetDev) (frames : P → Packet) (world : World) (dev : Dev.NetDev P) : Prop :=
  ∀ p rest, (dev.ring .rx .buffered).contents = p :: rest →
    Meets (fun _ t => t.Good (frames p).len ((dev.ring .rx .reserved).contents ++ [p]))
      (Callback.receive eth frames) (.start world dev)

theorem served_iff (eth : NetDev) (frames : P → Packet) (world : World) (dev : Dev.NetDev P) :
    Served eth frames world dev ↔ ∀ p rest, (dev.ring .rx .buffered).contents = p :: rest →
      (dev.ring .rx .reserved).contents.length < Dev.kBufSize ∧ ∃ myAddrInt,
        eth.ipv4Address = some myAddrInt ∧ Harmless myAddrInt (frames p) dev.getTxPacket.isSome :=
  forall_congr' fun _ => forall_congr' fun _ => imp_congr_right fun hr =>
    receive_good world hr

theorem served_in_run [DecidableEq P] (memory : ℕ → P) (alloc : Dev.Side → ℕ → P) :
    ∃ s₀, Dev.State.boot memory alloc = .ok s₀ ∧ ∀ s, Dev.State.Run s₀ s → ∀ eth frames world,
      Served eth frames world s.dev ↔ ∀ p rest, (s.dev.ring .rx .buffered).contents = p :: rest →
        ∃ my, eth.ipv4Address = some my ∧ Harmless my (frames p) s.dev.getTxPacket.isSome := by
  obtain ⟨s₀,hb,hse⟩ := Dev.boot_settled memory alloc
  refine ⟨s₀,hb,fun s hr eth frames world => ?_⟩
  refine forall_congr' fun p => forall_congr' fun _ => imp_congr_right fun hp => ?_
  exact (receive_good world hp).trans (and_iff_right ((hse.run hr).returnable hp))

def header : Packet where
  buf i := if i = 12 then 0x08 else if i = 14 then 0x45 else 0
  len := 34
  fits := by decide

theorem header_faults : (lent.ring .rx .buffered).contents = [0] ∧
    (Callback.receive gateway (fun _ => header) (.start idle lent)).1 = .error .nullPointer ∧
    ¬ Served gateway (fun _ => header) idle lent := by
  have hl : (lent.ring .rx .buffered).contents = [0] := rfl
  have hf : (Callback.receive gateway (fun _ => header) (.start idle lent)).1 =
    .error .nullPointer := rfl
  refine ⟨hl,hf,fun h => ?_⟩
  obtain ⟨_,_,hok,_⟩ := h 0 [] hl
  rw [hok] at hf
  cases hf

end Net
