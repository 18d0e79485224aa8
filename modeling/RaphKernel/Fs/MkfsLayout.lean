import RaphKernel.Fs.MapRun
import RaphKernel.Fs.Mkfs
import RaphKernel.Fs.ReadData

namespace Fs.Mkfs
open Bytes Fallible BlockCtrl Function List InodeStruct

structure Layout (m : ℕ → Byte) (s : InodeStruct) (n : ℕ) (own : Set ℕ) : Prop where
  mapped : ∀ k, s.entry m k ≠ 0 ↔ k < n
  within : ∀ k < n, (s.entry m k).toNat ∈ own
  holder : s.addrs 12 ≠ 0 ↔ 12 < n
  indirect : s.addrs 12 ≠ 0 → (s.addrs 12).toNat ∈ own
  apart : ∀ k < n, s.entry m k ≠ s.addrs 12
  inj : ∀ j < n, ∀ k < n, s.entry m j = s.entry m k → j = k
  small : ∀ b ∈ own, b < 1000

structure Holds (m : ℕ → Byte) (s : InodeStruct) (n : ℕ) (own : Set ℕ) (data : List Byte) : Prop where
  layout : Layout m s n own
  fits : data.length ≤ 512 * n
  bytes : slice (fileByte s m) 0 (512 * n) = data ++ List.replicate (512 * n - data.length) 0

section
variable {m m' : ℕ → Byte} {s : InodeStruct} {n k : ℕ} {own : Set ℕ} {data : List Byte}

section
variable (h : Layout m s n own)
include h

lemma Layout.below : n ≤ 140 := by
  by_contra hn
  exact (h.mapped 140).mpr (by omega) (entry_far le_rfl)

lemma Layout.unmapped (hk : n ≤ k) : s.entry m k = 0 := by
  by_contra h0
  exact absurd ((h.mapped k).mp h0) (not_lt.mpr hk)

lemma Layout.unheld (hn : n ≤ 12) : s.addrs 12 = 0 := by
  by_contra h0
  exact absurd (h.holder.mp h0) (not_lt.mpr hn)

lemma Layout.small_entry (hk : k < n) : (s.entry m k).toNat < 2 ^ 23 :=
  (h.small _ (h.within k hk)).trans (by norm_num)

lemma Layout.small_holder (h0 : s.addrs 12 ≠ 0) : (s.addrs 12).toNat < 2 ^ 23 :=
  (h.small _ (h.indirect h0)).trans (by norm_num)

section
variable (hsame : s.addrs 12 ≠ 0 → ∀ x ∈ block (s.addrs 12).toNat, m' x = m x)
include hsame

lemma Layout.entry_same (k : ℕ) : s.entry m' k = s.entry m k := entry_congr s h.small_holder hsame

lemma Layout.congr : Layout m' s n own := by
  have he := h.entry_same hsame
  refine ⟨fun k => ?_,fun k hk => ?_,h.holder,h.indirect,fun k hk => ?_,fun j hj k hk => ?_,h.small⟩
  · rw [he]
    exact h.mapped k
  · rw [he]
    exact h.within k hk
  · rw [he]
    exact h.apart k hk
  · rw [he,he]
    exact h.inj j hj k hk

end

end

lemma fileByte_block (m : ℕ → Byte) (s : InodeStruct) (x : ℕ) :
    512 * (s.entry m (x / 512)).toNat + x % 512 ∈ block (s.entry m (x / 512)).toNat :=
  ⟨by omega,by omega⟩

lemma Holds.congr (h : Holds m s n own data) (hsame : ∀ b ∈ own, ∀ x ∈ block b, m' x = m x) :
    Holds m' s n own data := by
  have hh : s.addrs 12 ≠ 0 → ∀ x ∈ block (s.addrs 12).toNat, m' x = m x := fun h0 =>
    hsame _ (h.layout.indirect h0)
  refine ⟨h.layout.congr hh,h.fits,?_⟩
  rw [← h.bytes]
  refine slice_congr fun x _ hx => ?_
  have hk : x / 512 < n := by omega
  rw [fileByte,h.layout.entry_same hh]
  exact hsame _ (h.layout.within _ hk) _ (fileByte_block m s x)

lemma Holds.part (h : Holds m s n own data) {x c : ℕ} (hx : x + c ≤ data.length) :
    slice (fileByte s m) x c = (data.drop x).take c := by
  have hs := slice_slice (fileByte s m) 0 (hx.trans h.fits)
  rw [h.bytes,Nat.zero_add] at hs
  have hd : x - data.length = 0 := by omega
  have ht : c - (data.length - x) = 0 := by omega
  rw [← hs,drop_append,take_append,length_drop,hd,ht,take_zero,append_nil]

lemma patch_zeros (data c : List Byte) (r : ℕ) :
    patch (data ++ List.replicate r 0) data.length c =
      data ++ c ++ List.replicate (r - c.length) 0 := by
  rw [patch,take_left,drop_length_add_append,drop_replicate,List.append_assoc]

lemma overwrite_block (m : ℕ → Byte) {b pos x : ℕ} {c : List Byte} (hc : pos + c.length ≤ 512)
    (hx : x ∉ block b) : overwrite m (512 * b + pos) c x = m x := by
  refine overwrite_outside m ?_
  by_contra hin
  exact hx ⟨by omega,by omega⟩

lemma block_eq {a b x : ℕ} (ha : x ∈ block a) (hb : x ∈ block b) : a = b := by
  by_contra hne
  exact Set.disjoint_left.mp (block_disjoint hne) ha hb

lemma Holds.write (h : Holds m s n own data) {c : List Byte} (hk : data.length / 512 < n)
    (hc : c.length ≤ 512 - data.length % 512) :
    Holds (overwrite m (512 * (s.entry m (data.length / 512)).toNat + data.length % 512) c) s n own
      (data ++ c) := by
  have hl := h.layout
  have hsame : s.addrs 12 ≠ 0 → ∀ x ∈ block (s.addrs 12).toNat,
      overwrite m (512 * (s.entry m (data.length / 512)).toNat + data.length % 512) c x = m x := by
    intro _ x hx
    refine overwrite_block m (by omega) fun hx' => hl.apart _ hk (BitVec.eq_of_toNat_eq ?_)
    exact block_eq hx' hx
  have hb : ∀ x < 512 * n, fileByte s
      (overwrite m (512 * (s.entry m (data.length / 512)).toNat + data.length % 512) c) x =
      overwrite (fileByte s m) data.length c x := by
    intro x hx
    rw [fileByte,hl.entry_same hsame]
    by_cases hin : data.length ≤ x ∧ x < data.length + c.length
    · obtain ⟨j,rfl⟩ : ∃ j, x = data.length + j := ⟨x - data.length,by omega⟩
      have hj : j < c.length := by omega
      have hd : (data.length + j) / 512 = data.length / 512 := by omega
      have hm : (data.length + j) % 512 = data.length % 512 + j := by omega
      rw [hd,hm,← Nat.add_assoc,overwrite_inside m _ hj,overwrite_inside _ _ hj]
    · rw [overwrite_outside (fileByte s m) (by omega),fileByte]
      by_cases hd : x / 512 = data.length / 512
      · rw [hd]
        exact overwrite_outside m (by omega)
      · refine overwrite_block m (by omega) fun hx' => hd ?_
        refine hl.inj _ (by omega) _ hk (BitVec.eq_of_toNat_eq ?_)
        exact block_eq (fileByte_block m s x) hx'
  have hf : data.length + c.length ≤ 512 * n := by omega
  refine ⟨hl.congr hsame,by rw [length_append]; exact hf,?_⟩
  have hp := slice_overwrite_part (fileByte s m) 0 hf
  rw [Nat.zero_add,h.bytes,patch_zeros] at hp
  rw [slice_congr fun x _ hx => hb x (by omega),hp,length_append,Nat.sub_sub]

end

section
variable {m m' : ℕ → Byte} {s s' : InodeStruct} {n : ℕ} {own own' : Set ℕ} {data : List Byte}
  {x : Word32}

structure Grown (m : ℕ → Byte) (s : InodeStruct) (n : ℕ) (own : Set ℕ) (m' : ℕ → Byte)
    (s' : InodeStruct) (own' : Set ℕ) (x : Word32) : Prop where
  old : ∀ k < n, s'.entry m' k = s.entry m k
  new : s'.entry m' n = x
  far : ∀ k, n < k → s'.entry m' k = 0
  nonzero : x ≠ 0
  unused : x.toNat ∉ own
  grows : own ⊆ own'
  mem : x.toNat ∈ own'
  small : ∀ b ∈ own', b < 1000
  holder : s'.addrs 12 ≠ 0 ↔ 12 < n + 1
  indirect : s'.addrs 12 ≠ 0 → (s'.addrs 12).toNat ∈ own'
  apart : ∀ k ≤ n, s'.entry m' k ≠ s'.addrs 12
  same : ∀ b ∈ own, b ≠ (s'.addrs 12).toNat → ∀ i ∈ block b, m' i = m i
  zero : ∀ i ∈ block x.toNat, m' i = 0

lemma Layout.grow (h : Layout m s n own) (hg : Grown m s n own m' s' own' x) :
    Layout m' s' (n + 1) own' := by
  have hf : ∀ k < n, s.entry m k ≠ x := by
    rintro k hk rfl
    exact hg.unused (h.within k hk)
  refine ⟨fun k => ?_,fun k hk => ?_,hg.holder,hg.indirect,fun k hk => hg.apart k (by omega),?_,
    hg.small⟩
  · rcases lt_trichotomy k n with hk | rfl | hk
    · rw [hg.old k hk]
      exact iff_of_true ((h.mapped k).mpr hk) (by omega)
    · rw [hg.new]
      exact iff_of_true hg.nonzero (by omega)
    · exact iff_of_false (not_not.mpr (hg.far k hk)) (by omega)
  · rcases Nat.lt_succ_iff_lt_or_eq.mp hk with hk | rfl
    · rw [hg.old k hk]
      exact hg.grows (h.within k hk)
    · rw [hg.new]
      exact hg.mem
  · intro j hj k hk heq
    rcases Nat.lt_succ_iff_lt_or_eq.mp hj with hj | rfl
    · rw [hg.old j hj] at heq
      rcases Nat.lt_succ_iff_lt_or_eq.mp hk with hk | rfl
      · rw [hg.old k hk] at heq
        exact h.inj j hj k hk heq
      · rw [hg.new] at heq
        exact absurd heq (hf j hj)
    · rcases Nat.lt_succ_iff_lt_or_eq.mp hk with hk | rfl
      · rw [hg.new,hg.old k hk] at heq
        exact absurd heq.symm (hf k hk)
      · rfl

lemma Holds.grow (h : Holds m s n own data) (hg : Grown m s n own m' s' own' x) :
    Holds m' s' (n + 1) own' data := by
  have ho : ∀ p < 512 * n, fileByte s' m' p = fileByte s m p := by
    intro p hp
    have hk : p / 512 < n := by omega
    have hne : (s.entry m (p / 512)).toNat ≠ (s'.addrs 12).toNat := by
      intro heq
      refine hg.apart _ hk.le (BitVec.eq_of_toNat_eq ?_)
      rw [hg.old _ hk,heq]
    rw [fileByte,hg.old _ hk]
    exact hg.same _ (h.layout.within _ hk) hne _ (fileByte_block m s p)
  have hn : slice (fileByte s' m') (512 * n) 512 = List.replicate 512 0 := by
    refine eq_replicate_iff.mpr ⟨length_slice ..,fun b hb => ?_⟩
    obtain ⟨i,hi,rfl⟩ := List.mem_map.mp hb
    have hlt := mem_range.mp hi
    have hd : (512 * n + i) / 512 = n := by omega
    have hm : (512 * n + i) % 512 = i := by omega
    rw [fileByte,hd,hm,hg.new]
    exact hg.zero _ ⟨by omega,by omega⟩
  have hf := h.fits
  refine ⟨h.layout.grow hg,by omega,?_⟩
  rw [Nat.mul_succ,slice_append,Nat.zero_add,slice_congr fun p _ hp => ho p (by omega),h.bytes,
    hn,List.append_assoc,replicate_append_replicate,Nat.sub_add_comm hf]

def cost (n : ℕ) : ℕ := if n = 12 then 2 else 1

lemma cost_pos (n : ℕ) : 0 < cost n := by
  unfold cost
  split_ifs <;> omega

def claimed (own : Set ℕ) (free n : ℕ) : Set ℕ := own ∪ Set.Ico free (free + cost n)

lemma claimed_small {free : ℕ} (ho : ∀ b ∈ own, b < free) (hr : free + cost n ≤ 1000) :
    ∀ b ∈ claimed own free n, b < 1000 := by
  rintro b (hb | hb)
  · exact (ho b hb).trans_le (by omega)
  · exact hb.2.trans_le hr

lemma grown_direct (h : Layout m s n own) (hn : n < 12) {b : Word32} (hlo : 0 < b.toNat)
    (how : ∀ a ∈ own, a < b.toNat) (hr : b.toNat + cost n ≤ 1000)
    (hc : ∀ i, 512 * b.toNat ≤ i → m i = 0) :
    Grown m s n own m (setAddr s (Fin.ofNat 13 n) b) (claimed own b.toNat n) b := by
  have hva : ∀ k < 12, (Fin.ofNat 13 k).val = k := fun k hk => Nat.mod_eq_of_lt (by omega)
  have h12 : (setAddr s (Fin.ofNat 13 n) b).addrs 12 = s.addrs 12 := by
    refine update_of_ne (fun heq => ?_) _ _
    have hv := congrArg Fin.val heq
    rw [hva n hn] at hv
    exact absurd hv.symm (by change n ≠ 12; omega)
  have hnu := h.unheld hn.le
  have hnw : (setAddr s (Fin.ofNat 13 n) b).entry m n = b := by
    rw [entry_direct hn]
    exact update_self ..
  have hne : b ≠ 0 := by
    rintro rfl
    exact absurd hlo (lt_irrefl 0)
  have ho : ∀ k, k ≠ n → (setAddr s (Fin.ofNat 13 n) b).entry m k = s.entry m k := by
    intro k hk
    rcases lt_or_ge k 12 with hk12 | hk12
    · rw [entry_direct hk12,entry_direct hk12]
      refine update_of_ne (fun heq => hk ?_) _ _
      have hv := congrArg Fin.val heq
      rwa [hva k hk12,hva n hn] at hv
    · rw [entry_null hk12 (h12.trans hnu),entry_null hk12 hnu]
  have hco := cost_pos n
  refine ⟨fun k hk => ho k hk.ne,hnw,fun k hk => (ho k hk.ne').trans (h.unmapped hk.le),hne,
    fun hb => lt_irrefl _ (how _ hb),Set.subset_union_left,.inr ⟨le_rfl,by omega⟩,
    claimed_small how hr,?_,?_,?_,fun _ _ _ _ _ => rfl,fun i hi => hc i hi.1⟩
  · rw [h12]
    exact iff_of_false (not_not.mpr hnu) (by omega)
  · rw [h12]
    exact absurd hnu
  · intro k hk
    rw [h12,hnu]
    rcases hk.lt_or_eq with hk | rfl
    · rw [ho k hk.ne]
      exact (h.mapped k).mpr hk
    · rw [hnw]
      exact hne

lemma indirectEntry_overwrite (m : ℕ → Byte) {a b : Word32} (ha : a.toNat < 2 ^ 23) (j k : ℕ) :
    indirectEntry (overwrite m (512 * a.toNat + 4 * j) (encode 4 b.toNat)) a k =
      if k = j then b else indirectEntry m a k := by
  have ho : ∀ i, entryOffset a i = 512 * a.toNat + 4 * i := fun i => by
    rw [entryOffset,blockOffset_eq ha,Nat.mul_comm i 4]
  split_ifs with hk
  · subst hk
    have hs := slice_overwrite m (512 * a.toNat + 4 * k) (encode 4 b.toNat)
    rw [length_encode] at hs
    rw [indirectEntry,ho,hs]
    have hf := field_encode (w := 4) b []
    rwa [append_nil] at hf
  · rw [indirectEntry,indirectEntry,ho,slice_congr fun i hlo hhi => overwrite_outside m ?_]
    rw [length_encode]
    omega

lemma grown_indirect (h : Layout m s n own) (hn : 12 ≤ n) (hf : n < 140) {a b : Word32} {free : ℕ}
    (hd : ∀ k, k ≠ 12 → s'.addrs k = s.addrs k) (hh : s'.addrs 12 = a) (ha : a ≠ 0)
    (hin : ∀ k, 12 ≤ k → k < 140 → indirectEntry m a (k - 12) = s.entry m k)
    (hap : ∀ k < n, s.entry m k ≠ a) (hm : a.toNat ∈ claimed own free n) (hab : a ≠ b)
    (hb : b.toNat + 1 = free + cost n) (how : ∀ a ∈ own, a < free) (hlo : 0 < free)
    (hr : free + cost n ≤ 1000) (hc : ∀ i, 512 * free ≤ i → m i = 0) :
    Grown m s n own (overwrite m (512 * a.toNat + 4 * (n - 12)) (encode 4 b.toNat)) s'
      (claimed own free n) b := by
  have hs := claimed_small how hr
  have ha23 : a.toNat < 2 ^ 23 := (hs _ hm).trans (by norm_num)
  have hco := cost_pos n
  have he : ∀ k, 12 ≤ k → k < 140 →
      s'.entry (overwrite m (512 * a.toNat + 4 * (n - 12)) (encode 4 b.toNat)) k =
        if k = n then b else s.entry m k := by
    intro k hk hk'
    rw [entry_indirect hk hk' (hh ▸ ha),hh,indirectEntry_overwrite m ha23,hin k hk hk']
    exact if_congr (by omega) rfl rfl
  have ho : ∀ k < n,
      s'.entry (overwrite m (512 * a.toNat + 4 * (n - 12)) (encode 4 b.toNat)) k = s.entry m k := by
    intro k hk
    rcases lt_or_ge k 12 with hk12 | hk12
    · rw [entry_direct hk12,entry_direct hk12]
      refine hd _ fun heq => ?_
      have hv : k % 13 = 12 := congrArg Fin.val heq
      omega
    · rw [he k hk12 (by omega),if_neg hk.ne]
  have hnw := (he n hn hf).trans (if_pos rfl)
  have hl : 4 * (n - 12) + (encode 4 b.toNat).length ≤ 512 := by
    rw [length_encode]
    omega
  have hbn : b ≠ 0 := by
    rintro rfl
    have hz : (0 : Word32).toNat = 0 := rfl
    omega
  refine ⟨ho,hnw,fun k hk => ?_,hbn,fun hb' => ?_,Set.subset_union_left,
    .inr ⟨by omega,by omega⟩,hs,?_,?_,fun k hk => ?_,fun c _ hne i hi => ?_,fun i hi => ?_⟩
  · rcases lt_or_ge k 140 with hk' | hk'
    · rw [he k (by omega) hk',if_neg hk.ne']
      exact h.unmapped hk.le
    · exact entry_far hk'
  · have hlt := how _ hb'
    omega
  · rw [hh]
    exact iff_of_true ha (by omega)
  · rw [hh]
    exact fun _ => hm
  · rw [hh]
    rcases hk.lt_or_eq with hk | rfl
    · rw [ho k hk]
      exact hap k hk
    · rw [hnw]
      exact hab.symm
  · rw [hh] at hne
    exact overwrite_block m hl fun hi' => hne (block_eq hi hi')
  · rw [overwrite_block m hl fun hi' => hab (BitVec.eq_of_toNat_eq (block_eq hi' hi))]
    have hlo' := hi.1
    exact hc i (by omega)

end

end Fs.Mkfs
