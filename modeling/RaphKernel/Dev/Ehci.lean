import RaphKernel.Mem.PagingRefine

namespace Ehci
open Raph Paging Physmem List BitVec

structure TdContainer where
  interruptOnComplete : Bool
  dataToggle : Bool
  pid : BitVec 8
  totalBytes : ℕ
  buf : Word

def k2p (m : PagingCtrl) (addr : Word) : Except Panic Word := do
  PhysAddr.getAddr (← m.convertVirtMemToPhysMem addr none)

def fill (stop : ℕ) : ℕ → ℕ → List Word
  | 0, _ => []
  | n + 1, bufP =>
    if bufP ≤ stop then BitVec.ofNat 64 bufP :: fill stop n (bufP + 4096) else 0 :: fill stop n bufP

def pointers (bufP totalBytes : ℕ) : List Word :=
  BitVec.ofNat 64 bufP :: fill (bufP + totalBytes) 4 ((bufP + 4096) / 4096 * 4096)

namespace TdContainer
variable (c : TdContainer) (m : PagingCtrl)

def token : BitVec 32 :=
  (if c.dataToggle then 0x80000000 else 0) ||| BitVec.ofNat 32 c.totalBytes <<< 16 |||
    (if c.interruptOnComplete then 0x8000 else 0) ||| 0xC00 ||| c.pid.setWidth 32 <<< 8 ||| 0x80

-- a pointer is given as the address that the words of the descriptor hold
def setTokenAndBuffer (supported : ℕ → Bool) (held : Word → Word) :
    Except Panic (BitVec 32 × List Word) := do
  kassert (c.totalBytes ≤ 0x5000)
  let bufP ← k2p m c.buf
  if supported (bufP.toNat + c.totalBytes) then
    return (c.token,(pointers bufP.toNat c.totalBytes).map held)
  else kernelPanic "Ehci" "64-bit address is not supported"

def setTokenAndBuffer32 : Except Panic (BitVec 32 × List Word) :=
  c.setTokenAndBuffer m (· ≤ 0xFFFFFFFF) fun p => (p.setWidth 32).setWidth 64

def setTokenAndBuffer64 : Except Panic (BitVec 32 × List Word) :=
  c.setTokenAndBuffer m (fun _ => true) fun p => (p >>> 32).setWidth 32 ++ p.setWidth 32

def Fits : Prop := c.buf.toNat % 4096 + c.totalBytes ≤ 5 * 4096

def Touched (i : ℕ) : Prop := 0 < i ∧ (c.buf.toNat / 4096 + i) * 4096 < c.buf.toNat + c.totalBytes

def pageAt (i : ℕ) : Word := BitVec.ofNat 64 ((c.buf.toNat / 4096 + i) * 4096)

def Covers (ps : List Word) : Prop := (∃ p, ps[0]? = some p ∧ m.translate c.buf = some p) ∧
  ∀ i, c.Touched i → ∃ p, ps[i]? = some p ∧ m.translate (c.pageAt i) = some p

def Right (r : Except Panic (BitVec 32 × List Word)) : Prop :=
  (c.Fits → ∃ d, r = .ok d ∧ c.Covers m d.2) ∧ (¬ c.Fits → ∃ e, r = .error e)

def Contiguous (p : Word) : Prop := ∀ i, c.Touched i →
  m.translate (c.pageAt i) = some (BitVec.ofNat 64 ((p.toNat / 4096 + i) * 4096))

def Suits (supported : ℕ → Bool) : Prop :=
  (c.Fits → ∃ p, m.translate c.buf = some p ∧ supported (p.toNat + c.totalBytes) = true ∧
    c.Contiguous m p) ∧
  (¬ c.Fits → 0x5000 < c.totalBytes ∨
    ∀ p, m.translate c.buf = some p → supported (p.toNat + c.totalBytes) = false)

end TdContainer

section
variable {c : TdContainer} {m : PagingCtrl} {p : Word} {supported : ℕ → Bool} {held : Word → Word}
  {stop n b i : ℕ}

lemma fill_get (hi : i < n) (h : b + 4096 * i ≤ stop) :
    (fill stop n b)[i]? = some (BitVec.ofNat 64 (b + 4096 * i)) := by
  induction n generalizing i b with
  | zero => cases hi
  | succ n ih =>
    rw [fill,if_pos (by omega)]
    cases i with
    | zero => rfl
    | succ i =>
      rw [getElem?_cons_succ,ih (by omega) (by omega)]
      congr 2
      omega

lemma fill_low (hs : stop < 2 ^ 32) : ∀ q ∈ fill stop n b, q.toNat < 2 ^ 32 := by
  induction n generalizing b with
  | zero => simp [fill]
  | succ n ih =>
    rw [fill]
    split_ifs
    · refine forall_mem_cons.mpr ⟨?_,ih⟩
      rw [toNat_ofNat]
      omega
    · exact forall_mem_cons.mpr ⟨by decide,ih⟩

lemma translate_offset {a : Word} (h : m.translate a = some p) :
    p.toNat % 4096 = a.toNat % 4096 := by
  obtain ⟨l,hl,rfl⟩ := Option.map_eq_some_iff.mp h
  rw [frame_located (RadixTree.walk_view hl),located,toNat_ofNat]
  omega

namespace TdContainer

lemma covers_iff (hf : c.Fits) (h : m.translate c.buf = some p) :
    c.Covers m (pointers p.toNat c.totalBytes) ↔ c.Contiguous m p := by
  have ho := translate_offset h
  refine (and_iff_right ⟨p,by rw [pointers,ofNat_toNat,setWidth_eq]; rfl,h⟩).trans
    (forall₂_congr fun i ⟨hi,ht⟩ => ?_)
  unfold Fits at hf
  obtain ⟨i,rfl⟩ := Nat.exists_eq_add_of_le' hi
  have he : (p.toNat + 4096) / 4096 * 4096 + 4096 * i = (p.toNat / 4096 + (i + 1)) * 4096 := by
    omega
  rw [pointers,getElem?_cons_succ,fill_get (by omega) (by omega),he]
  simp [eq_comm]

lemma set_eq (hb : c.totalBytes ≤ 0x5000) : c.setTokenAndBuffer m supported held =
    match m.translate c.buf with
    | none => .error .kassert
    | some p => if supported (p.toNat + c.totalBytes) then
        .ok (c.token,(pointers p.toNat c.totalBytes).map held)
      else kernelPanic "Ehci" "64-bit address is not supported" := by
  rw [setTokenAndBuffer,kassert,if_pos (decide_eq_true hb),k2p,PagingCtrl.convertVirtMemToPhysMem_eq]
  cases m.translate c.buf <;> rfl

lemma right_iff (h : ∀ b, supported (b + c.totalBytes) = true →
      ∀ q ∈ pointers b c.totalBytes, held q = q) :
    c.Right m (c.setTokenAndBuffer m supported held) ↔ c.Suits m supported := by
  unfold Right Suits
  by_cases hb : c.totalBytes ≤ 0x5000
  · rw [set_eq hb]
    cases ht : m.translate c.buf with
    | none => simp
    | some p =>
      cases hs : supported (p.toNat + c.totalBytes) with
      | false => simp [hs,kernelPanic]
      | true =>
        have hm := (map_congr_left (h _ hs)).trans (map_id _)
        by_cases hf : c.Fits
        · simp [hs,hf,hm,covers_iff hf ht]
        · simp [hs,hf,Nat.not_lt.mpr hb]
  · have hf : ¬ c.Fits := fun hf => by
      unfold Fits at hf
      omega
    rw [setTokenAndBuffer,kassert,if_neg (by simpa using hb)]
    exact iff_of_true ⟨fun h => absurd h hf,fun _ => ⟨_,rfl⟩⟩
      ⟨fun h => absurd h hf,fun _ => .inl (Nat.lt_of_not_le hb)⟩

end TdContainer
end

theorem ehci_pointers_iff (c : TdContainer) (m : PagingCtrl) :
    (c.Right m (c.setTokenAndBuffer32 m) ↔ c.Suits m (· ≤ 0xFFFFFFFF)) ∧
    (c.Right m (c.setTokenAndBuffer64 m) ↔ c.Suits m fun _ => true) := by
  refine ⟨TdContainer.right_iff fun b hb q hq => ?_,TdContainer.right_iff fun _ _ q _ => ?_⟩
  · have hs : b + c.totalBytes < 2 ^ 32 := Nat.lt_succ_of_le (of_decide_eq_true hb)
    have hl : q.toNat < 2 ^ 32 := by
      obtain rfl | hq := mem_cons.mp hq
      · rw [toNat_ofNat]
        omega
      · exact fill_low hs q hq
    apply eq_of_toNat_eq
    rw [toNat_setWidth,toNat_setWidth]
    omega
  · apply eq_of_getLsbD_eq
    intro i hi
    rw [getLsbD_append]
    by_cases h : i < 32
    · simp [h]
    · simp [h,Nat.add_sub_cancel' (not_lt.mp h)]
      omega

def scattered : PagingCtrl :=
  { bootPaging with tables := fun _ i => if i = 1 then 0x5001 else 0x1001 }

theorem ehci_skips_page : (TdContainer.setTokenAndBuffer64 ⟨false,false,0,8192,0⟩ scattered).map
      Prod.snd = .ok [0x1000,0x2000,0x3000,0,0] ∧
    scattered.translate 0 = some 0x1000 ∧ scattered.translate 0x1000 = some 0x5000 :=
  ⟨rfl,by decide,by decide⟩

end Ehci
