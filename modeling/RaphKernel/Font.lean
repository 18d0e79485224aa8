import Mathlib.Data.Int.Range
import RaphKernel.Library.Bytes

namespace Font
open Bytes Function List

structure Glyph where
  width : ℕ
  height : ℕ
  xOffset : ℤ
  yOffset : ℤ
  deviceWidth : ℤ

structure Face where
  buf : ℕ → Byte
  maxh : ℕ
  asce : ℕ

def Face.half (t : Face) (i : ℕ) : BitVec 16 := t.buf i ++ t.buf (i + 1)

def Face.glyph (t : Face) (offset : ℕ) : Glyph where
  width := (t.half offset).toNat
  height := (t.half (offset + 2)).toNat
  xOffset := (t.half (offset + 4)).toInt
  yOffset := (t.half (offset + 6)).toInt
  deviceWidth := (t.half (offset + 8)).toInt

abbrev Cell := Bool × ℤ × ℤ

def Face.bit (t : Face) (c : ℕ × ℕ) : Bool := (t.buf c.1).getLsbD c.2

def advance (c : ℕ × ℕ) : ℕ × ℕ := if c.2 = 0 then (c.1 + 1,7) else (c.1,c.2 - 1)

def blank (left right y : ℤ) : List Cell := (Int.range left right).map (false,·,y)

section
variable (t : Face) (g : Glyph)

def bitmapBottom : ℤ := t.asce - g.yOffset

def bitmapTop : ℤ := bitmapBottom t g - g.height

def bitmapRight : ℤ := g.xOffset + g.width

def drawBits (x y : ℤ) : ℕ → ℕ × ℕ → List Cell × ℕ × ℕ
  | 0, c => ([],c)
  | n + 1, c => ((t.bit c,x,y) :: (drawBits (x + 1) y n (advance c)).1,(drawBits (x + 1) y n (advance c)).2)

def drawRows (y : ℤ) : ℕ → ℕ × ℕ → List Cell
  | 0, _ => []
  | n + 1, c => blank 0 g.xOffset y ++ (drawBits t g.xOffset y g.width c).1 ++
    blank (bitmapRight g) g.deviceWidth y ++ drawRows (y + 1) n (drawBits t g.xOffset y g.width c).2

def blankRows (top bottom : ℤ) : List Cell :=
  (Int.range top bottom).flatMap (blank 0 g.deviceWidth)

def print (offset : ℕ) : List Cell :=
  blankRows g 0 (bitmapTop t g) ++ drawRows t g (bitmapTop t g) g.height (offset + 10,7) ++
    blankRows g (bitmapBottom t g) t.maxh

def cellIndex (c : Cell) : ℤ := c.2.2 * g.deviceWidth + c.2.1

def store (data : ℤ → Bool) (c : Cell) : ℤ → Bool := update data (cellIndex g c) c.1

def getData (offset : ℕ) (data : ℤ → Bool) : ℤ → Bool := (print t g offset).foldl (store g) data

def cursor (offset k : ℕ) : ℕ × ℕ := (offset + 10 + k / 8,7 - k % 8)

def bitAt (offset k : ℕ) : Bool := t.bit (cursor offset k)

def glyphBit (offset : ℕ) (x y : ℤ) : Bool :=
  bitAt t offset ((y - bitmapTop t g).toNat * g.width + (x - g.xOffset).toNat)

def InBox (x y : ℤ) : Prop :=
  (g.xOffset ≤ x ∧ x < bitmapRight g) ∧ bitmapTop t g ≤ y ∧ y < bitmapBottom t g

instance (x y : ℤ) : Decidable (InBox t g x y) := inferInstanceAs (Decidable (_ ∧ _))

def InCell (x y : ℤ) : Prop := (0 ≤ x ∧ x < g.deviceWidth) ∧ 0 ≤ y ∧ y < t.maxh

def picture (offset : ℕ) (x y : ℤ) : Bool := if InBox t g x y then glyphBit t g offset x y else false

structure Pictured (offset : ℕ) : Prop where
  print : ∀ f x y, (f,x,y) ∈ print t g offset ↔ InCell t g x y ∧ f = picture t g offset x y
  written : ∀ data x y, InCell t g x y →
    getData t g offset data (y * g.deviceWidth + x) = picture t g offset x y
  kept : ∀ data i, (∀ x y, InCell t g x y → y * g.deviceWidth + x ≠ i) →
    getData t g offset data i = data i

structure Fits : Prop where
  columns : 0 < g.height → min 0 g.deviceWidth ≤ g.xOffset ∧ bitmapRight g ≤ max 0 g.deviceWidth ∧
    (g.deviceWidth < 0 → g.width = 0)
  rows : 0 < g.deviceWidth → 0 ≤ bitmapTop t g ∧ bitmapBottom t g ≤ t.maxh

end

section
variable {t : Face} {g : Glyph} {off : ℕ} {f : Bool} {x y : ℤ}

lemma mem_blank {left right y' : ℤ} :
    (f,x,y) ∈ blank left right y' ↔ f = false ∧ (left ≤ x ∧ x < right) ∧ y = y' := by
  simp only [blank,mem_map,Int.mem_range_iff,Prod.mk.injEq]
  constructor
  · rintro ⟨_,hx,rfl,rfl,rfl⟩
    exact ⟨rfl,hx,rfl⟩
  · rintro ⟨rfl,hx,rfl⟩
    exact ⟨x,hx,rfl,rfl,rfl⟩

lemma mem_blankRows {top bottom : ℤ} : (f,x,y) ∈ blankRows g top bottom ↔
    f = false ∧ (0 ≤ x ∧ x < g.deviceWidth) ∧ top ≤ y ∧ y < bottom := by
  simp only [blankRows,mem_flatMap,Int.mem_range_iff,mem_blank]
  constructor
  · rintro ⟨_,hy,hf,hx,rfl⟩
    exact ⟨hf,hx,hy⟩
  · rintro ⟨hf,hx,hy⟩
    exact ⟨y,hy,hf,hx,rfl⟩

lemma advance_cursor (k : ℕ) : advance (cursor off k) = cursor off (k + 1) := by
  rw [advance,cursor,cursor]
  split <;> rw [Prod.mk.injEq] <;> dsimp only at * <;> omega

lemma drawBits_cursor (x y : ℤ) (n k : ℕ) :
    (drawBits t x y n (cursor off k)).2 = cursor off (k + n) := by
  induction n generalizing x k with
  | zero => rfl
  | succ n ih => rw [drawBits,advance_cursor,ih,Nat.add_right_comm,Nat.add_assoc]

lemma mem_drawBits {x' y' : ℤ} {n k : ℕ} :
    (f,x,y) ∈ (drawBits t x' y' n (cursor off k)).1 ↔
      (x' ≤ x ∧ x < x' + n) ∧ y = y' ∧ f = bitAt t off (k + (x - x').toNat) := by
  induction n generalizing x' k with
  | zero =>
    simp only [drawBits,not_mem_nil,false_iff]
    omega
  | succ n ih =>
    rw [drawBits,advance_cursor,mem_cons,ih,Prod.mk.injEq,Prod.mk.injEq]
    obtain rfl | _ := eq_or_ne x x'
    · simp [bitAt]
      grind
    · have hin (hx : x' ≤ x) : k + 1 + (x - (x' + 1)).toNat = k + (x - x').toNat := by omega
      grind

lemma mem_drawRows {y' : ℤ} {n k : ℕ} :
    (f,x,y) ∈ drawRows t g y' n (cursor off k) ↔ (y' ≤ y ∧ y < y' + n) ∧
      (f = false ∧ (0 ≤ x ∧ x < g.xOffset ∨ bitmapRight g ≤ x ∧ x < g.deviceWidth) ∨
        (g.xOffset ≤ x ∧ x < bitmapRight g) ∧
          f = bitAt t off (k + (y - y').toNat * g.width + (x - g.xOffset).toNat)) := by
  induction n generalizing y' k with
  | zero =>
    simp only [drawRows,not_mem_nil,false_iff]
    omega
  | succ n ih =>
    rw [drawRows,drawBits_cursor,mem_append,ih]
    simp only [mem_append,mem_blank,mem_drawBits]
    rw [← bitmapRight]
    obtain rfl | _ := eq_or_ne y y'
    · simp
      grind
    · have hin (hy : y' < y) : k + g.width + (y - (y' + 1)).toNat * g.width =
          k + (y - y').toNat * g.width := by
        have : (y - y').toNat = (y - (y' + 1)).toNat + 1 := by omega
        rw [this,Nat.add_mul]
        omega
      grind

lemma mem_print : (f,x,y) ∈ print t g off ↔
    f = false ∧ (0 ≤ x ∧ x < g.deviceWidth) ∧
        (0 ≤ y ∧ y < bitmapTop t g ∨ bitmapBottom t g ≤ y ∧ y < t.maxh) ∨
      (bitmapTop t g ≤ y ∧ y < bitmapBottom t g) ∧
        (f = false ∧ (0 ≤ x ∧ x < g.xOffset ∨ bitmapRight g ≤ x ∧ x < g.deviceWidth) ∨
          (g.xOffset ≤ x ∧ x < bitmapRight g) ∧ f = glyphBit t g off x y) := by
  have hr : (f,x,y) ∈ drawRows t g (bitmapTop t g) g.height (off + 10,7) ↔ _ :=
    mem_drawRows (k := 0)
  rw [bitmapTop,Int.sub_add_cancel,Nat.zero_add,← bitmapTop,← glyphBit] at hr
  rw [print,mem_append,mem_append,mem_blankRows,mem_blankRows,hr,or_right_comm,← and_or_left,
    ← and_or_left]

lemma mem_print_iff (h : Fits t g) :
    (f,x,y) ∈ print t g off ↔ InCell t g x y ∧ f = picture t g off x y := by
  obtain ⟨_,_⟩ := h
  rw [mem_print]
  simp only [InCell,picture,InBox]
  have hw : bitmapRight g = g.xOffset + g.width := rfl
  have hh : bitmapTop t g = bitmapBottom t g - g.height := rfl
  grind

lemma fits_of_print (h : ∀ f x y, (f,x,y) ∈ print t g off → InCell t g x y) : Fits t g := by
  have hw : bitmapRight g = g.xOffset + g.width := rfl
  have hh : bitmapTop t g = bitmapBottom t g - g.height := rfl
  have hc (x y : ℤ) (hxy : (0 ≤ x ∧ x < g.deviceWidth) ∧
      (0 ≤ y ∧ y < bitmapTop t g ∨ bitmapBottom t g ≤ y ∧ y < t.maxh) ∨
      (bitmapTop t g ≤ y ∧ y < bitmapBottom t g) ∧ (0 ≤ x ∧ x < g.xOffset ∨
        bitmapRight g ≤ x ∧ x < g.deviceWidth ∨ g.xOffset ≤ x ∧ x < bitmapRight g)) : InCell t g x y := by
    by_cases hb : (bitmapTop t g ≤ y ∧ y < bitmapBottom t g) ∧ g.xOffset ≤ x ∧ x < bitmapRight g
    · exact h (glyphBit t g off x y) x y (mem_print.mpr (.inr ⟨hb.1,.inr ⟨hb.2,rfl⟩⟩))
    · exact h false x y (mem_print.mpr (by grind))
  have hco : 0 < g.height → min 0 g.deviceWidth ≤ g.xOffset ∧
      bitmapRight g ≤ max 0 g.deviceWidth ∧ (g.deviceWidth < 0 → g.width = 0) := by
    intro hp
    have h1 := hc g.xOffset (bitmapTop t g)
    have h2 := hc (bitmapRight g - 1) (bitmapTop t g)
    have h3 := hc (g.xOffset - 1) (bitmapTop t g)
    simp only [InCell] at h1 h2 h3
    omega
  refine ⟨hco,fun hp => ?_⟩
  have h1 := hc 0 (bitmapTop t g)
  have h2 := hc 0 (bitmapBottom t g - 1)
  have h3 := hc 0 (bitmapBottom t g)
  simp only [InCell] at h1 h2 h3
  omega

lemma foldl_store {data : ℤ → Bool} {l : List Cell} {i : ℤ} {v : Bool}
    (hv : ∀ c ∈ l, cellIndex g c = i → c.1 = v) (h : data i = v ∨ ∃ c ∈ l, cellIndex g c = i) :
    l.foldl (store g) data i = v := by
  induction l generalizing data with
  | nil => simpa using h
  | cons c l ih =>
    refine ih (fun c' hc' => hv c' (mem_cons_of_mem _ hc')) ?_
    by_cases hc : cellIndex g c = i
    · exact .inl (by rw [store,hc,update_self,hv c mem_cons_self hc])
    · rw [store,update_of_ne (Ne.symm hc)]
      simpa [hc] using h

lemma cell_inj {x' y' : ℤ} (h : InCell t g x y) (h' : InCell t g x' y')
    (heq : y * g.deviceWidth + x = y' * g.deviceWidth + x') : x = x' ∧ y = y' := by
  have hx := congrArg (· % g.deviceWidth) heq
  simp only [Int.add_comm _ x,Int.add_comm _ x',Int.add_mul_emod_self_right] at hx
  rw [Int.emod_eq_of_lt h.1.1 h.1.2,Int.emod_eq_of_lt h'.1.1 h'.1.2] at hx
  subst hx
  have hp : g.deviceWidth ≠ 0 := fun hz => by
    have := h.1
    omega
  exact ⟨rfl,Int.eq_of_mul_eq_mul_right hp (by omega)⟩

lemma pictured_iff : Pictured t g off ↔ Fits t g := by
  constructor
  · exact fun h => fits_of_print fun f x y hm => ((h.print f x y).mp hm).1
  · intro h
    refine ⟨fun f x y => mem_print_iff h,fun data x y hin => foldl_store ?_ (.inr ?_),
      fun data i ho => foldl_store ?_ (.inl rfl)⟩
    · rintro ⟨f,x',y'⟩ hc heq
      obtain ⟨hin',rfl⟩ := (mem_print_iff h).mp hc
      obtain ⟨rfl,rfl⟩ := cell_inj hin' hin heq
      rfl
    · exact ⟨(_,x,y),(mem_print_iff h).mpr ⟨hin,rfl⟩,rfl⟩
    · rintro ⟨f,x,y⟩ hc heq
      exact absurd heq (ho x y ((mem_print_iff h).mp hc).1)

theorem glyph_pictured_iff (t : Face) (offset : ℕ) :
    Pictured t (t.glyph offset) offset ↔ Fits t (t.glyph offset) := pictured_iff

def overhang : Face := ⟨fun i => [0,2,0,1,0xff,0xff,0,0,0,2].getD i 0xff,2,1⟩

theorem glyph_overhang : ¬ Pictured overhang (overhang.glyph 0) 0 := by
  intro h
  exact absurd ((h.print true (-1) 0).mp (by decide)).1.1.1 (by decide)

end

end Font
