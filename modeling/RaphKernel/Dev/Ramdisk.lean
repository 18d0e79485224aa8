import RaphKernel.Library.Fields
import RaphKernel.Fs.Storage

namespace Ramdisk
open Raph Bytes Fs Function BitVec List

structure Image where
  content : ℕ → Byte
  len : Word

namespace Image

def getLen (image : Image) : Word := image.len

def index (image : Image) (n : BitVec 32) : Except Panic ℕ := do
  kassert (decide (0 ≤ n.toInt) && decide (n.signExtend 64 < image.len))
  return n.toNat

end Image

def readByte (image : Image) (offset : Word) (buf : ℕ → Byte) (i : ℕ) :
    Except Panic (ℕ → Byte) := do
  let n ← image.index ((BitVec.ofNat 64 i + offset).setWidth 32)
  return update buf i (image.content n)

def read (image : Image) (buf : ℕ → Byte) (offset size : Word) :
    Except Panic (IoReturnState × (ℕ → Byte)) :=
  if image.getLen < offset + size then .ok (.errInvalid,buf)
  else do
    let buf ← (List.range size.toNat).foldlM (readByte image offset) buf
    return (.ok,buf)

def writeByte (buf : ℕ → Byte) (offset : Word) (image : Image) (i : ℕ) : Except Panic Image := do
  let n ← image.index ((BitVec.ofNat 64 i + offset).setWidth 32)
  return { image with content := update image.content n (buf i) }

def write (image : Image) (buf : ℕ → Byte) (offset size : Word) :
    Except Panic (IoReturnState × Image) :=
  if image.getLen < offset + size then .ok (.errInvalid,image)
  else do
    let image ← (List.range size.toNat).foldlM (writeByte buf offset) image
    return (.ok,image)

def Contained (image : Image) (offset size : Word) : Prop :=
  offset.toNat + size.toNat ≤ image.len.toNat

def Image.filled (image : Image) (offset size : Word) (buf : ℕ → Byte) : Image :=
  { image with content := overwrite image.content offset.toNat (slice buf 0 size.toNat) }

structure Serves (image : Image) (offset size : Word) : Prop where
  refused : ¬ Contained image offset size → ∀ buf,
    read image buf offset size = .ok (.errInvalid,buf) ∧
      write image buf offset size = .ok (.errInvalid,image)
  copied : Contained image offset size → ∀ buf,
    read image buf offset size =
      .ok (.ok,overwrite buf 0 (slice image.content offset.toNat size.toNat))
  stored : Contained image offset size → ∀ buf,
    write image buf offset size = .ok (.ok,image.filled offset size buf)
  returned : Contained image offset size → ∀ buf buf',
    read (image.filled offset size buf) buf' offset size =
      .ok (.ok,overwrite buf' 0 (slice buf 0 size.toNat))

structure Sound (image : Image) (offset size : Word) : Prop where
  wrap : 2 ^ 64 ≤ offset.toNat + size.toNat →
    image.len.toNat + 2 ^ 64 < offset.toNat + size.toNat
  short : Contained image offset size → size = 0 ∨ offset.toNat + size.toNat ≤ 2 ^ 31

section
variable {im image' : Image} {off size : Word} {buf : ℕ → Byte} {k n : ℕ}

lemma index_ok {x : BitVec 32} : im.index x = .ok k ↔
    x.toNat = k ∧ k < 2 ^ 31 ∧ k < im.len.toNat := by
  have hx : 0 ≤ x.toInt ↔ x.toNat < 2 ^ 31 := by
    rw [toInt_eq_toNat_cond]
    omega
  have hlt : x.toNat < 2 ^ 31 → (x.signExtend 64 < im.len ↔ x.toNat < im.len.toNat) := by
    intro h
    rw [lt_def,Fields.toNat_signExtend (by decide) (by omega)]
  simp only [Image.index,kassert_bind_ok,Bool.and_eq_true,decide_eq_true_eq,hx]
  constructor
  · rintro ⟨⟨hp,hlen⟩,hk⟩
    cases hk
    exact ⟨rfl,hp,(hlt hp).mp hlen⟩
  · rintro ⟨rfl,hp,hlen⟩
    exact ⟨⟨hp,(hlt hp).mpr hlen⟩,rfl⟩

lemma index_at (h : off.toNat + n < 2 ^ 31) (hlen : off.toNat + n < im.len.toNat) :
    im.index ((BitVec.ofNat 64 n + off).setWidth 32) = .ok (off.toNat + n) := by
  refine index_ok.mpr ⟨?_,h,hlen⟩
  rw [toNat_setWidth,toNat_add,toNat_ofNat]
  omega

lemma accepted_iff : ¬ im.getLen < off + size ↔
    (off.toNat + size.toNat) % 2 ^ 64 ≤ im.len.toNat := by
  rw [Image.getLen,lt_def,toNat_add,not_lt]

section
variable (hlen : off.toNat + n ≤ im.len.toNat) (hshort : n = 0 ∨ off.toNat + n ≤ 2 ^ 31)
include hlen hshort

lemma read_loop : (List.range n).foldlM (readByte im off) buf =
      .ok (overwrite buf 0 (slice im.content off.toNat n)) := by
  induction n with
  | zero => exact congrArg Except.ok (overwrite_nil buf 0).symm
  | succ n ih =>
    have hb := ih (by omega) (by omega)
    have hat : im.index ((BitVec.ofNat 64 n + off).setWidth 32) = .ok (off.toNat + n) :=
      index_at (by omega) (by omega)
    rw [range_succ,foldlM_append,hb,overwrite_slice_succ,Nat.zero_add]
    simp [readByte,hat,bind,Except.bind,pure,Except.pure]

lemma write_loop : (List.range n).foldlM (writeByte buf off) im =
      .ok { im with content := overwrite im.content off.toNat (slice buf 0 n) } := by
  induction n with
  | zero => exact congrArg (fun m => Except.ok { im with content := m }) (overwrite_nil ..).symm
  | succ n ih =>
    have hb := ih (by omega) (by omega)
    have hat {m : ℕ → Byte} : Image.index ⟨m,im.len⟩
        ((BitVec.ofNat 64 n + off).setWidth 32) = .ok (off.toNat + n) :=
      index_at (by omega) (by exact hlen)
    rw [range_succ,foldlM_append,hb,overwrite_slice_succ,Nat.zero_add]
    simp [writeByte,hat,bind,Except.bind,pure,Except.pure]

end

lemma contained_accepted (h : Contained im off size) : ¬ im.getLen < off + size := by
  have hlen := im.len.isLt
  unfold Contained at h
  rw [accepted_iff,Nat.mod_eq_of_lt (by omega)]
  exact h

lemma read_contained (h : Contained im off size)
    (hshort : size = 0 ∨ off.toNat + size.toNat ≤ 2 ^ 31) (buf : ℕ → Byte) :
    read im buf off size =
      .ok (.ok,overwrite buf 0 (slice im.content off.toNat size.toNat)) := by
  have hl : (range size.toNat).foldlM (readByte im off) buf = _ :=
    read_loop h (hshort.imp_left fun h0 => congrArg BitVec.toNat h0)
  rw [read,if_neg (contained_accepted h),hl]
  rfl

lemma write_contained (h : Contained im off size)
    (hshort : size = 0 ∨ off.toNat + size.toNat ≤ 2 ^ 31) (buf : ℕ → Byte) :
    write im buf off size = .ok (.ok,im.filled off size buf) := by
  have hl : (range size.toNat).foldlM (writeByte buf off) im = _ :=
    write_loop h (hshort.imp_left fun h0 => congrArg BitVec.toNat h0)
  rw [write,if_neg (contained_accepted h),hl]
  rfl

lemma refused_of_wrap (h : ¬ Contained im off size)
    (hw : 2 ^ 64 ≤ off.toNat + size.toNat →
      im.len.toNat + 2 ^ 64 < off.toNat + size.toNat) : im.getLen < off + size := by
  have ho := off.isLt
  have hs := size.isLt
  unfold Contained at h
  by_contra hacc
  rw [accepted_iff] at hacc
  by_cases hlt : off.toNat + size.toNat < 2 ^ 64
  · rw [Nat.mod_eq_of_lt hlt] at hacc
    exact h hacc
  · have hov := hw (by omega)
    omega

lemma Sound.serves (h : Sound im off size) : Serves im off size where
  refused hout buf := by
    have hlen := refused_of_wrap hout h.wrap
    exact ⟨if_pos hlen,if_pos hlen⟩
  copied hin buf := read_contained hin (h.short hin) buf
  stored hin buf := write_contained hin (h.short hin) buf
  returned hin buf buf' := by
    have hf : Contained (im.filled off size buf) off size := hin
    have hs := slice_overwrite im.content off.toNat (slice buf 0 size.toNat)
    rw [length_slice] at hs
    rw [read_contained hf (h.short hin),Image.filled,hs]

lemma read_accepted (h : ¬ im.getLen < off + size) {b : ℕ → Byte} :
    read im buf off size ≠ .ok (.errInvalid,b) := by
  rw [read,if_neg h]
  cases (range size.toNat).foldlM (readByte im off) buf <;>
    simp [bind,Except.bind,pure,Except.pure]

lemma writeByte_beyond {i : ℕ} (h : writeByte buf off im i = .ok image') (hk : 2 ^ 31 ≤ k) :
    image'.content k = im.content k := by
  obtain ⟨n,hn,hw⟩ := bind_ok.mp h
  obtain ⟨-,_,-⟩ := index_ok.mp hn
  cases hw
  exact update_of_ne (by omega) ..

lemma write_loop_beyond {l : List ℕ} (h : l.foldlM (writeByte buf off) im = .ok image')
    (hk : 2 ^ 31 ≤ k) : image'.content k = im.content k := by
  induction l generalizing im with
  | nil =>
    cases h
    rfl
  | cons i l ih =>
    obtain ⟨next,hb,hr⟩ := bind_ok.mp h
    exact (ih hr).trans (writeByte_beyond hb hk)

lemma write_beyond {e : IoReturnState} (h : write im buf off size = .ok (e,image'))
    (hk : 2 ^ 31 ≤ k) : image'.content k = im.content k := by
  unfold write at h
  split_ifs at h
  · cases h
    rfl
  · obtain ⟨last,hl,hd⟩ := bind_ok.mp h
    cases hd
    exact write_loop_beyond hl hk

lemma filled_last (b : Byte) (h : 0 < size.toNat) :
    (im.filled off size fun _ => b).content (off.toNat + (size.toNat - 1)) = b := by
  have hl : size.toNat - 1 < (slice (fun _ => b) 0 size.toNat).length := by
    rw [length_slice]
    omega
  exact (overwrite_inside im.content off.toNat hl).trans (by simp [slice])

lemma Serves.short (h : Serves im off size) (hin : Contained im off size) :
    size = 0 ∨ off.toNat + size.toNat ≤ 2 ^ 31 := by
  by_contra hlong
  obtain ⟨h0,_⟩ := not_or.mp hlong
  have hp : size.toNat ≠ 0 := fun hz => h0 (eq_of_toNat_eq hz)
  -- the last byte of the request lies past every index an int can name
  have hk := write_beyond (k := off.toNat + (size.toNat - 1))
    (h.stored hin fun _ => im.content (off.toNat + (size.toNat - 1)) + 1) (by omega)
  rw [filled_last _ (by omega)] at hk
  simp at hk

end

theorem serves_iff (image : Image) (offset size : Word) :
    Serves image offset size ↔ Sound image offset size := by
  constructor
  · intro h
    refine ⟨fun hw => ?_,h.short⟩
    have hlen := image.len.isLt
    by_contra hover
    have hou : ¬ Contained image offset size := by
      unfold Contained
      omega
    have ha : ¬ image.getLen < offset + size := by
      have ho := offset.isLt
      have hs := size.isLt
      rw [accepted_iff]
      omega
    exact read_accepted ha (h.refused hou fun _ => 0).1
  · exact Sound.serves

theorem wrapped_request : ¬ Contained ⟨fun _ => 0,1⟩ (-1) 2 ∧
    read ⟨fun _ => 0,1⟩ (fun _ => 0) (-1) 2 = .error .kassert ∧
    write ⟨fun _ => 0,1⟩ (fun _ => 0) (-1) 2 = .error .kassert :=
  ⟨by unfold Contained; decide,rfl,rfl⟩

namespace Image

def storage (image : Image) (clock : ℕ) : Storage where
  bytes := image.content
  status _ offset size := if offset + size ≤ image.len.toNat then .ok else .errInvalid
  clock := clock

end Image

section
variable {im : Image} {off size : Word}

theorem storage_read (h : Sound im off size) (n : ℕ) (buf : ℕ → Byte) :
    (∃ buf', read im buf off size = .ok (.ok,buf') ∧
      Storage.read off.toNat size.toNat (im.storage n) =
        (.ok (slice buf' 0 size.toNat),im.storage (n + 1))) ∨
    read im buf off size = .ok (.errInvalid,buf) ∧
      Storage.read off.toNat size.toNat (im.storage n) =
        (.error (.state .errInvalid),im.storage (n + 1)) := by
  by_cases hin : Contained im off size
  · have hs := slice_overwrite buf 0 (slice im.content off.toNat size.toNat)
    rw [length_slice] at hs
    refine .inl ⟨_,h.serves.copied hin buf,?_⟩
    rw [hs]
    exact Storage.read_ok (if_pos hin)
  · have hst : (im.storage n).status (im.storage n).clock off.toNat size.toNat =
        .errInvalid := if_neg hin
    refine .inr ⟨(h.serves.refused hin buf).1,?_⟩
    rw [Storage.read,hst]
    rfl

theorem storage_read_byte : Storage.read 0 1 ((⟨fun _ => 7,1⟩ : Image).storage 0) =
    (.ok [7],(⟨fun _ => 7,1⟩ : Image).storage 1) := by
  have hs : Sound ⟨fun _ => 7,1⟩ 0 1 := ⟨by decide,fun _ => .inr (by decide)⟩
  obtain ⟨_,hr,hd⟩ | ⟨hr,_⟩ := storage_read hs 0 fun _ => 0
  · cases hr
    exact hd
  · cases hr

theorem storage_write (h : Sound im off size) (n : ℕ) (buf : ℕ → Byte) :
    write im buf off size = .ok (.ok,im.filled off size buf) ∧
      Storage.write off.toNat (slice buf 0 size.toNat) (im.storage n) =
        (.ok (),(im.filled off size buf).storage (n + 1)) ∨
    write im buf off size = .ok (.errInvalid,im) ∧
      Storage.write off.toNat (slice buf 0 size.toNat) (im.storage n) =
        (.error (.state .errInvalid),im.storage (n + 1)) := by
  have hlen := length_slice buf 0 size.toNat
  by_cases hin : Contained im off size
  · refine .inl ⟨h.serves.stored hin buf,Storage.write_ok ?_⟩
    rw [hlen]
    exact if_pos hin
  · have hs : (im.storage n).status (im.storage n).clock off.toNat
        (slice buf 0 size.toNat).length = .errInvalid := by
      rw [hlen]
      exact if_neg hin
    refine .inr ⟨(h.serves.refused hin buf).2,?_⟩
    rw [Storage.write,hs]
    rfl

theorem storage_write_byte : Storage.write 0 [9] ((⟨fun _ => 7,1⟩ : Image).storage 0) =
    (.ok (),((⟨fun _ => 7,1⟩ : Image).filled 0 1 fun _ => 9).storage 1) := by
  have hs : Sound ⟨fun _ => 7,1⟩ 0 1 := ⟨by decide,fun _ => .inr (by decide)⟩
  obtain ⟨_,hd⟩ | ⟨hw,_⟩ := storage_write hs 0 fun _ => 9
  · exact hd
  · cases hw

end

end Ramdisk
