import RaphKernel.Library.Bytes
import RaphKernel.Library.Records
import RaphKernel.Raph

namespace Acpi
open Raph Bytes Loop Records BitVec

abbrev Table := ℕ → Byte

abbrev Word32 := BitVec 32

def dword (t : Table) (i : ℕ) : Word32 := t (i + 3) ++ t (i + 2) ++ t (i + 1) ++ t i

def qword (t : Table) (i : ℕ) : Word := dword t (i + 4) ++ dword t i

def length (t : Table) : Word32 := dword t 4

def bound (t : Table) (header : ℕ) : ℕ := ((length t).setWidth 64 - BitVec.ofNat 64 header).toNat

def recordLength (t : Table) (header p : ℕ) : ℕ := (t (header + p + 1)).toNat

section
variable {S : Type}

def walk (t : Table) (header : ℕ) (visit : ℕ → S → Except Panic S) (s : S) (fuel : ℕ) :
    Option (List ℕ × Except Panic S) :=
  iterate (step (recordLength t header) (bound t header) visit) fuel (Walk.begin s : Walk 32 S)

def Inside (t : Table) (header : ℕ) (castSize : Byte → ℕ) (visited : List ℕ) : Prop :=
  ∀ p ∈ visited, header + p + max (recordLength t header p) (castSize (t (header + p))) ≤
    (length t).toNat

structure Laid (t : Table) (header : ℕ) (castSize : Byte → ℕ) (ps : List ℕ) : Prop where
  header_fits : header ≤ (length t).toNat
  chain : Chain (recordLength t header) ((length t).toNat - header) 0 ps
  cast_fits : ∀ p ∈ ps, header + p + castSize (t (header + p)) ≤ (length t).toNat

variable {t : Table} {header : ℕ} {castSize : Byte → ℕ} {visit : ℕ → S → Except Panic S} {s s' : S}
  {ps : List ℕ}

lemma bound_eq (h : header ≤ (length t).toNat) : bound t header = (length t).toNat - header := by
  have hlt := (length t).isLt
  rw [bound,toNat_sub,toNat_setWidth,toNat_ofNat]
  omega

lemma bound_wraps (hh : header < 2 ^ 32) (h : (length t).toNat < header) :
    2 ^ 32 ≤ bound t header := by
  have hlt := (length t).isLt
  rw [bound,toNat_sub,toNat_setWidth,toNat_ofNat]
  omega

lemma walk_steady (t : Table) (header : ℕ) (visit : ℕ → S → Except Panic S) (s : S) :
    Steady (walk t header visit s) := steady_iterate _ _

lemma Laid.inside (h : Laid t header castSize ps) : Inside t header castSize ps := by
  intro p hp
  have hl := h.chain.inside p hp
  have hc := h.cast_fits p hp
  have hf := h.header_fits
  omega

lemma Laid.yields (h : Laid t header castSize ps) (visit : ℕ → S → Except Panic S) (s : S) :
    Yields (walk t header visit s) (run visit ps s) := by
  have hlt := (length t).isLt
  have hc := h.chain
  have hb := bound_eq h.header_fits
  rw [← hb] at hc
  exact yields_of_returns (hc.returns (by rw [hb]; omega) visit _ (begin_offset s))

lemma walk_overlong (hh : header < 2 ^ 32) (h : (length t).toNat < header)
    (hv : ∀ p s, ∃ s', visit p s = .ok s') (s : S) (n : ℕ) : walk t header visit s n = none :=
  iterate_unbounded (bound_wraps hh h) hv n _

lemma walk_stuck (h : 0 < bound t header) (hl : recordLength t header 0 = 0)
    (hv : ∀ p s, ∃ s', visit p s = .ok s') (s : S) (n : ℕ) : walk t header visit s n = none := by
  refine iterate_stuck ?_ ?_ hv n
  · rw [begin_offset]
    exact h
  · rw [begin_offset]
    exact hl

lemma laid_of_walk (hh : header < 2 ^ 32) (hv : ∀ p s, ∃ s', visit p s = .ok s')
    (hw : Yields (walk t header visit s) (ps,.ok s')) (hin : Inside t header castSize ps) :
    Laid t header castSize ps := by
  obtain ⟨n,hn⟩ := hw.returns
  have hlt := (length t).isLt
  have hf : header ≤ (length t).toNat := by
    by_contra hshort
    rw [walk_overlong hh (not_le.mp hshort) hv] at hn
    cases hn
  have hb := bound_eq hf
  refine ⟨hf,?_,fun p hp => ?_⟩
  · rw [← hb]
    refine chain_of_returns (w := 32) (by rw [hb]; omega) ⟨n,hn⟩ fun p hp => ?_
    have hle := hin p hp
    rw [hb]
    omega
  · have hle := hin p hp
    omega

lemma walk_inside_iff (hh : header < 2 ^ 32) (hv : ∀ p s, ∃ s', visit p s = .ok s') (s : S) :
    (∃ ps s', Yields (walk t header visit s) (ps,.ok s') ∧ Inside t header castSize ps) ↔
      ∃ ps, Laid t header castSize ps := by
  constructor
  · rintro ⟨ps,s',hw,hin⟩
    exact ⟨ps,laid_of_walk hh hv hw hin⟩
  · rintro ⟨ps,h⟩
    obtain ⟨s',hr⟩ := run_total hv ps s
    exact ⟨ps,s',hr ▸ h.yields visit s,h.inside⟩

end

end Acpi
