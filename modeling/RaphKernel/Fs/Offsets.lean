import RaphKernel.Library.Fields
import RaphKernel.Fs.V6fs

namespace Fs
open BlockCtrl BitVec

inductive Place where
  | inode (inum : Word32)
  | bitmap (b : Word32)
  | cleared (b : Word32)
  | entry (addr : Word32) (index : Fin 128)
  | data (addr : Word32) (offset : Raph.Word)

namespace Place

def offset (sb : SuperBlock) : Place → Raph.Word
  | .inode inum => (sb.inodestart * 512).setWidth 64 + 64 * inum.signExtend 64
  | .bitmap b => (sb.bmapstart * 512 + b / 8).setWidth 64
  | .cleared b => (b * 512).setWidth 64
  | .entry addr index => (addr * 512).setWidth 64 + BitVec.ofNat 64 index * 4
  | .data addr offset => (addr * 512).setWidth 64 + offset % 512

def block (sb : SuperBlock) : Place → ℕ
  | .inode inum => sb.inodestart.toNat + inum.toNat / 8
  | .bitmap b => sb.bmapstart.toNat + b.toNat / 8 / 512
  | .cleared b => b.toNat
  | .entry addr _ => addr.toNat
  | .data addr _ => addr.toNat

def position : Place → ℕ
  | .inode inum => 64 * (inum.toNat % 8)
  | .bitmap b => b.toNat / 8 % 512
  | .cleared _ => 0
  | .entry _ index => 4 * index
  | .data _ offset => offset.toNat % 512

def Fits (sb : SuperBlock) : Place → Prop
  | .inode inum => sb.inodestart.toNat < 2 ^ 23 ∧ inum.toNat < 2 ^ 31
  | .bitmap b => sb.bmapstart.toNat * 512 + b.toNat / 8 < 2 ^ 32
  | .cleared b => b.toNat < 2 ^ 23
  | .entry addr _ => addr.toNat < 2 ^ 23
  | .data addr _ => addr.toNat < 2 ^ 23

def Exact (sb : SuperBlock) (p : Place) : Prop :=
  (p.offset sb).toNat = p.block sb * 512 + p.position

variable {sb : SuperBlock} {inum b addr : Word32}

lemma position_lt (p : Place) : p.position < 512 := by
  cases p <;> simp only [position] <;> omega

lemma toNat_block (b : Word32) : ((b * 512).setWidth 64).toNat = b.toNat * 512 % 2 ^ 32 := by
  rw [toNat_setWidth,toNat_mul]
  exact Nat.mod_eq_of_lt (by omega)

lemma toNat_signed (h : inum.toNat < 2 ^ 31) : (inum.signExtend 64).toNat = inum.toNat :=
  Fields.toNat_signExtend (by decide) (by omega)

lemma toNat_negative (h : 2 ^ 31 ≤ inum.toNat) :
    (inum.signExtend 64).toNat = inum.toNat + (2 ^ 64 - 2 ^ 32) := by
  have hm : inum.msb = true := msb_eq_true_iff_two_mul_ge.mpr (by omega)
  rw [BitVec.toNat_signExtend,hm,toNat_setWidth]
  have hlt := inum.isLt
  rw [Nat.mod_eq_of_lt (by omega)]
  rfl

lemma offset_inode (sb : SuperBlock) (inum : Word32) : ((Place.inode inum).offset sb).toNat =
    (sb.inodestart.toNat * 512 % 2 ^ 32 + 64 * (inum.signExtend 64).toNat) % 2 ^ 64 := by
  have hm : (64 * inum.signExtend 64).toNat = 64 * (inum.signExtend 64).toNat % 2 ^ 64 :=
    toNat_mul ..
  rw [offset,toNat_add,toNat_block,hm,Nat.add_mod_mod]

lemma offset_bitmap (sb : SuperBlock) (b : Word32) : ((Place.bitmap b).offset sb).toNat =
    (sb.bmapstart.toNat * 512 + b.toNat / 8) % 2 ^ 32 := by
  have hm : (sb.bmapstart * 512).toNat = sb.bmapstart.toNat * 512 % 2 ^ 32 := toNat_mul ..
  have hd : (b / 8).toNat = b.toNat / 8 := toNat_udiv
  rw [offset,toNat_setWidth,toNat_add,hm,hd,Nat.mod_add_mod]
  omega

lemma offset_entry (sb : SuperBlock) (addr : Word32) (index : Fin 128) :
    ((Place.entry addr index).offset sb).toNat = addr.toNat * 512 % 2 ^ 32 + 4 * index := by
  have hm : (BitVec.ofNat 64 index * 4).toNat = index.val % 2 ^ 64 * 4 % 2 ^ 64 := by
    rw [toNat_mul,toNat_ofNat]
    rfl
  rw [offset,toNat_add,toNat_block,hm]
  omega

lemma offset_data (sb : SuperBlock) (addr : Word32) (x : Raph.Word) :
    ((Place.data addr x).offset sb).toNat = addr.toNat * 512 % 2 ^ 32 + x.toNat % 512 := by
  have hm : (x % 512).toNat = x.toNat % 512 := toNat_umod
  rw [offset,toNat_add,toNat_block,hm]
  omega

-- the offset at which the driver's functions address a place; an inode index is an int
def driven (sb : SuperBlock) : Place → ℕ
  | .inode inum => inodeOffset sb inum.toNat
  | .bitmap b => bitmapOffset sb b
  | .cleared b => blockOffset b
  | .entry addr index => entryOffset addr index
  | .data addr offset => blockOffset addr + offset.toNat % blockSize

lemma offset_driven (sb : SuperBlock) (p : Place) (h : ∀ inum, p = .inode inum → inum.toNat < 2 ^ 31) :
    (p.offset sb).toNat = p.driven sb := by
  have hb : ∀ addr : Word32, blockOffset addr = addr.toNat * 512 % 2 ^ 32 := fun _ => toNat_mul ..
  cases p with
  | inode inum =>
    have hi := h inum rfl
    have hm : (sb.inodestart * 512).toNat = sb.inodestart.toNat * 512 % 2 ^ 32 := toNat_mul ..
    rw [offset_inode,toNat_signed hi,driven,inodeOffset,hm]
    omega
  | bitmap b =>
    rw [offset,driven,bitmapOffset,toNat_setWidth]
    exact Nat.mod_eq_of_lt (by omega)
  | cleared b => rw [offset,toNat_block,driven,hb]
  | entry addr index =>
    rw [offset_entry,driven,entryOffset,hb]
    omega
  | data addr x =>
    rw [offset_data,driven,hb]
    rfl

lemma exact_iff (sb : SuperBlock) (p : Place) : p.Exact sb ↔ p.Fits sb := by
  cases p with
  | inode inum =>
    rw [Exact,offset_inode,Fits,block,position]
    have hi := inum.isLt
    have hs := sb.inodestart.isLt
    by_cases hl : inum.toNat < 2 ^ 31
    · rw [toNat_signed hl]
      omega
    · rw [toNat_negative (by omega)]
      omega
  | bitmap b =>
    rw [Exact,offset_bitmap,Fits,block,position]
    omega
  | cleared b =>
    rw [Exact,offset,toNat_block,Fits,block,position]
    omega
  | entry addr index =>
    rw [Exact,offset_entry,Fits,block,position]
    omega
  | data addr x =>
    rw [Exact,offset_data,Fits,block,position]
    omega

lemma Exact.inj {p q : Place} (hp : p.Exact sb) (hq : q.Exact sb)
    (h : p.offset sb = q.offset sb) : p.block sb = q.block sb ∧ p.position = q.position := by
  have hpo := p.position_lt
  have hpo' := q.position_lt
  have hn := congrArg BitVec.toNat h
  unfold Exact at hp hq
  omega

lemma fits_below_iff (sb : SuperBlock) :
    (∀ addr x, addr < sb.size → (Place.data addr x).Fits sb) ↔ sb.size.toNat ≤ 2 ^ 23 := by
  constructor
  · intro h
    by_contra hlt
    exact absurd (h 0x800000 0 (lt_def.mpr (not_le.mp hlt))) (lt_irrefl _)
  · exact fun h addr x hlt => (lt_def.mp hlt).trans_le h

end Place

theorem offsets_exact (sb : SuperBlock) (p q : Place) : (p.Exact sb ∧ q.Exact sb ∧
      ((p.block sb,p.position) ≠ (q.block sb,q.position) → p.offset sb ≠ q.offset sb)) ↔
    p.Fits sb ∧ q.Fits sb := by
  rw [Place.exact_iff,Place.exact_iff]
  constructor
  · rintro ⟨hp,hq,_⟩
    exact ⟨hp,hq⟩
  · rintro ⟨hp,hq⟩
    refine ⟨hp,hq,fun hne heq => hne ?_⟩
    have hpa := Place.Exact.inj ((Place.exact_iff sb p).mpr hp) ((Place.exact_iff sb q).mpr hq) heq
    rw [hpa.1,hpa.2]

def wideDisk : SuperBlock := ⟨0x800001,0,0,0,0,0,0⟩

theorem blocks_collide : (0x800000 : Word32) < wideDisk.size ∧
    ((Place.data 0x800000 0).block wideDisk,(Place.data 0x800000 0).position) ≠
      ((Place.data 0 0).block wideDisk,(Place.data 0 0).position) ∧
    (Place.data 0x800000 0).offset wideDisk = (Place.data 0 0).offset wideDisk := by
  decide

end Fs
