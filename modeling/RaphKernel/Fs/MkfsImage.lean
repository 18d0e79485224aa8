import Mathlib.Algebra.Order.BigOperators.Group.Finset
import RaphKernel.Fs.MkfsRun

namespace Fs.Mkfs
open Bytes Fallible BlockCtrl List

def directory (files : List HostFile) : List Byte :=
  dirent 1 dot ++ (dirent 1 dotdot ++
    (files.mapIdx fun k f => dirent (BitVec.ofNat 16 (k + 2)) f.name).flatten)

def tree (files : List HostFile) : ℕ → List Byte
  | 0 => []
  | 1 => directory files
  | k + 2 => files[k]?.elim [] HostFile.contents

section
variable {h h' : Host} {c i : ℕ} {d : ℕ → List Byte} {o : ℕ → Set ℕ} {cs : List Byte}
  {im : Word32}

lemma take_append_rest (q cs : List Byte) :
    q ++ cs.take 512 ++ cs.drop 512 = q ++ cs := by
  rw [List.append_assoc,take_append_drop]

section
variable (hb : Built h c d o) (h1 : 1 ≤ i) (hi : i < c) (hinum : im.toNat = i)
include hb h1 hi hinum

lemma copyContents_built {u : Unit} (hca : copyContents im cs h = (.ok u,h')) :
    ∃ o', Built h' c (Function.update d i (d i ++ cs)) o' := by
  induction hlen : cs.length using Nat.strong_induction_on
    generalizing cs d o h with
  | h n ih =>
    by_cases hc : cs = []
    · subst hc
      rw [copyContents,dif_pos rfl] at hca
      cases hca
      refine ⟨o,?_⟩
      rw [append_nil,Function.update_eq_self]
      exact hb
    · have hp := length_pos_of_ne_nil hc
      rw [copyContents,dif_neg hc] at hca
      obtain ⟨_,_,hf,hr⟩ := bind_ok.mp hca
      obtain ⟨o₁,hb₁⟩ := iappend_built hb h1 hi hinum hf
      obtain ⟨o₂,hb₂⟩ := ih _ (by rw [length_drop]; omega) hb₁ hr rfl
      rw [Function.update_self,Function.update_idem,take_append_rest] at hb₂
      exact ⟨o₂,hb₂⟩

lemma copyContents_ok (hfi : Fits h (d i).length cs.length) :
    ∃ h', copyContents im cs h = (.ok (),h') := by
  induction hlen : cs.length using Nat.strong_induction_on
    generalizing cs d o h with
  | h n ih =>
    by_cases hc : cs = []
    · subst hc
      rw [copyContents,dif_pos rfl]
      exact ⟨_,rfl⟩
    · have hp := length_pos_of_ne_nil hc
      have hfa := hfi.far
      have hro := hfi.room
      have ht : (cs.take 512).length ≤ cs.length := length_take_le' ..
      have hd : (cs.take 512).length + (cs.drop 512).length = cs.length := by
        rw [← length_append,take_append_drop]
      have hf : Fits h (d i).length (cs.take 512).length := by
        have hm := used_mono (blocks_mono (Nat.add_le_add_left ht (d i).length))
        exact ⟨by omega,by omega⟩
      obtain ⟨h₁,o₁,hcall₁,hb₁⟩ := iappend_ok hb h1 hi hinum hf
      have hto := total_update d hi (d i ++ cs.take 512)
      have hfr := hb.free
      have hfree₁ := hb₁.free
      have hr : Fits h₁ (Function.update d i (d i ++ cs.take 512) i).length
          (cs.drop 512).length := by
        rw [Function.update_self,length_append]
        rw [length_append] at hto
        refine ⟨by omega,?_⟩
        rw [Nat.add_assoc,hd]
        omega
      obtain ⟨h₂,hcall₂⟩ := ih _ (by rw [length_drop]; omega) hb₁ hr rfl
      rw [copyContents,dif_neg hc,bind_of_ok hcall₁]
      exact ⟨h₂,hcall₂⟩

end

end

section
variable {h h' : Host} {o : ℕ → Set ℕ} {d fl : List HostFile} {f : HostFile} {r : Word32}

lemma directory_concat (dn : List HostFile) (f : HostFile) : directory (dn ++ [f]) =
    directory dn ++ dirent (BitVec.ofNat 16 (dn.length + 2)) f.name := by
  unfold directory
  rw [mapIdx_concat,flatten_concat]
  simp only [List.append_assoc]

lemma tree_concat (dn : List HostFile) (f : HostFile) :
    Function.update (Function.update (Function.update (tree dn) (dn.length + 2) []) 1
      (directory dn ++ dirent (BitVec.ofNat 16 (dn.length + 2)) f.name)) (dn.length + 2)
        f.contents = tree (dn ++ [f]) := by
  funext i
  by_cases hi : i = dn.length + 2
  · subst hi
    rw [Function.update_self,tree,getElem?_concat_length]
    rfl
  · rw [Function.update_of_ne hi]
    by_cases h1 : i = 1
    · subst h1
      rw [Function.update_self,tree,directory_concat]
    · rw [Function.update_of_ne h1,Function.update_of_ne hi]
      match i, h1, hi with
      | 0, _, _ => rfl
      | k + 2, _, hk =>
        rw [tree,tree]
        rcases lt_or_ge k dn.length with hlt | hge
        · rw [getElem?_append_left hlt]
        · rw [List.getElem?_eq_none hge,List.getElem?_eq_none]
          rw [length_append,length_singleton]
          omega

@[simp]
lemma length_dirent (im : BitVec 16) (n : List Byte) : (dirent im n).length = 16 := by
  simp only [dirent,strncpy,length_append,length_encode,length_take,length_replicate]
  omega

lemma length_directory (fs : List HostFile) :
    (directory fs).length = 16 * (fs.length + 2) := by
  induction fs using reverseRecOn with
  | nil => simp [directory]
  | append_singleton fs f ih =>
    rw [directory_concat,length_append,length_dirent,ih,length_append,length_singleton]
    omega

lemma kind_file (k : ℕ) : kind (k + 2) = 2 := by
  rw [kind,if_neg (by omega)]

lemma inum_width {im : Word32} {k : ℕ} (hinum : im.toNat = k) :
    im.setWidth 16 = BitVec.ofNat 16 k := by
  rw [← hinum,BitVec.ofNat_toNat]

lemma addFile_built (hb : Built h (d.length + 2) (tree d) o) (hd : d.length < 214)
    (hr : r.toNat = 1) {u : Unit} (hc : addFile r f h = (.ok u,h')) :
    ∃ o', Built h' (d.length + 3) (tree (d ++ [f])) o' := by
  unfold addFile at hc
  split_ifs at hc with hs
  · cases hc
  · have hinum := hb.inodes
    obtain ⟨_,o₁,ha,hb₁⟩ := ialloc_ok hb (by omega) (by omega)
    rw [kind_file] at ha
    rw [bind_of_ok ha,inum_width hinum] at hc
    obtain ⟨_,_,hn,hco⟩ := bind_ok.mp hc
    obtain ⟨o₂,hb₂⟩ := iappend_built hb₁ le_rfl (by omega) hr hn
    have hne : d.length + 2 ≠ 1 := by omega
    have hdi : Function.update (tree d) (d.length + 2) [] 1 = directory d :=
      Function.update_of_ne hne.symm _ _
    rw [hdi] at hb₂
    obtain ⟨o₃,hb₃⟩ := copyContents_built hb₂ (by omega) (by omega) hinum hco
    rw [Function.update_of_ne hne,Function.update_self,nil_append,tree_concat] at hb₃
    exact ⟨o₃,hb₃⟩

lemma addFiles_built (hb : Built h (d.length + 2) (tree d) o)
    (hco : d.length + fl.length ≤ 214) (hro : r.toNat = 1) {u : Unit}
    (hc : addFiles r fl h = (.ok u,h')) :
    ∃ o', Built h' ((d ++ fl).length + 2) (tree (d ++ fl)) o' := by
  induction fl generalizing d h o with
  | nil =>
    cases hc
    rw [append_nil]
    exact ⟨o,hb⟩
  | cons f fl ih =>
    rw [length_cons] at hco
    rw [addFiles] at hc
    obtain ⟨_,_,hf,hr⟩ := bind_ok.mp hc
    obtain ⟨o₁,hb₁⟩ := addFile_built hb (by omega) hro hf
    have hl : (d ++ [f]).length + 2 = d.length + 3 := by simp
    rw [← hl] at hb₁
    obtain ⟨o₂,hb₂⟩ := ih hb₁ (by rw [length_append,length_singleton]; omega) hr
    rw [List.append_assoc,singleton_append] at hb₂
    exact ⟨o₂,hb₂⟩

end

section
variable {h : Host} {o : ℕ → Set ℕ} {d fl : List HostFile} {f : HostFile} {r : Word32}

lemma total_mono {c : ℕ} {x d' : ℕ → List Byte}
    (hle : ∀ i < c, (x i).length ≤ (d' i).length) : total c x ≤ total c d' :=
  Finset.sum_le_sum fun i hi => used_mono (blocks_mono (hle i (Finset.mem_range.mp hi)))

lemma Built.fits {c i : ℕ} {x : ℕ → List Byte} {p : List Byte} (hb : Built h c x o)
    (hi : i < c) (hfa : (x i).length + p.length ≤ 71680)
    (hr : 59 + total c (Function.update x i (x i ++ p)) ≤ 1000) :
    Fits h (x i).length p.length := by
  have ht := total_update x hi (x i ++ p)
  have hf := hb.free
  rw [length_append] at ht
  exact ⟨hfa,by omega⟩

lemma addFile_ok (hb : Built h (d.length + 2) (tree d) o) (hd : d.length < 214)
    (hro : r.toNat = 1) (hs : slash ∉ f.argv) (hf : f.contents.length ≤ 71680)
    (hr : 59 + total (d.length + 3) (tree (d ++ [f])) ≤ 1000) :
    ∃ h', addFile r f h = (.ok (),h') := by
  have hinum := hb.inodes
  have hne : d.length + 2 ≠ 1 := by omega
  obtain ⟨h₁,o₁,ha,hb₁⟩ := ialloc_ok hb (by omega) (by omega)
  rw [kind_file] at ha
  have hdi : Function.update (tree d) (d.length + 2) [] 1 = directory d :=
    Function.update_of_ne hne.symm _ _
  have hn : Fits h₁ (Function.update (tree d) (d.length + 2) [] 1).length
      (dirent (BitVec.ofNat 16 (d.length + 2)) f.name).length := by
    refine hb₁.fits (by omega) ?_ (le_trans (Nat.add_le_add_left (total_mono fun i hi => ?_) _) hr)
    · rw [hdi,length_directory,length_dirent]
      omega
    · rw [← tree_concat,hdi]
      by_cases hi2 : i = d.length + 2
      · subst hi2
        rw [Function.update_of_ne hne,Function.update_self]
        exact Nat.zero_le _
      · rw [Function.update_of_ne hi2]
  obtain ⟨h₂,o₂,hcall₂,hb₂⟩ := iappend_ok hb₁ le_rfl (by omega) hro hn
  rw [hdi] at hb₂
  have hc : Function.update (Function.update (tree d) (d.length + 2) []) 1
      (directory d ++ dirent (BitVec.ofNat 16 (d.length + 2)) f.name) (d.length + 2) = [] := by
    rw [Function.update_of_ne hne,Function.update_self]
  have hco : Fits h₂ (Function.update (Function.update (tree d) (d.length + 2) []) 1
      (directory d ++ dirent (BitVec.ofNat 16 (d.length + 2)) f.name) (d.length + 2)).length
      f.contents.length := by
    refine hb₂.fits (by omega) ?_ ?_
    · rw [hc]
      simpa using hf
    · rw [hc,nil_append,tree_concat]
      exact hr
  obtain ⟨h₃,hcall₃⟩ := copyContents_ok hb₂ (by omega) (by omega) hinum hco
  refine ⟨h₃,?_⟩
  rw [addFile,if_neg hs,bind_of_ok ha,inum_width hinum,bind_of_ok hcall₂]
  exact hcall₃

lemma tree_append (fs m : List HostFile) (i : ℕ) :
    (tree fs i).length ≤ (tree (fs ++ m) i).length := by
  match i with
  | 0 => exact le_rfl
  | 1 =>
    rw [tree,tree,length_directory,length_directory,length_append]
    omega
  | k + 2 =>
    rw [tree,tree]
    rcases lt_or_ge k fs.length with hk | hk
    · rw [getElem?_append_left hk]
    · rw [List.getElem?_eq_none hk]
      exact Nat.zero_le _

lemma total_append (fs m : List HostFile) : total (fs.length + 2) (tree fs) ≤
    total ((fs ++ m).length + 2) (tree (fs ++ m)) := by
  have hs : Finset.range (fs.length + 2) ⊆ Finset.range ((fs ++ m).length + 2) := by
    refine Finset.range_subset_range.mpr ?_
    rw [length_append]
    omega
  exact (total_mono fun i _ => tree_append fs m i).trans (Finset.sum_le_sum_of_subset hs)

structure Capacity (files : List HostFile) : Prop where
  count : files.length ≤ 214
  names : ∀ f ∈ files, slash ∉ f.argv
  sizes : ∀ f ∈ files, f.contents.length ≤ 71680
  room : total (files.length + 2) (tree files) ≤ 941

lemma addFiles_ok (hb : Built h (d.length + 2) (tree d) o) (hr : r.toNat = 1)
    (hca : Capacity (d ++ fl)) : ∃ h', addFiles r fl h = (.ok (),h') := by
  induction fl generalizing d h o with
  | nil => exact ⟨h,rfl⟩
  | cons f fl ih =>
    have hl : (d ++ [f]).length + 2 = d.length + 3 := by simp
    have ha : d ++ f :: fl = (d ++ [f]) ++ fl := by simp
    have hm : f ∈ d ++ f :: fl := by simp
    have hc := hca.count
    have hro := hca.room
    rw [length_append,length_cons] at hc
    have ht := total_append (d ++ [f]) fl
    rw [← ha,hl] at ht
    obtain ⟨_,hcall₁⟩ := addFile_ok hb (by omega) hr (hca.names f hm) (hca.sizes f hm) (by omega)
    obtain ⟨o₁,hb₁⟩ := addFile_built hb (by omega) hr hcall₁
    rw [← hl] at hb₁
    rw [ha] at hca
    obtain ⟨h₂,hcall₂⟩ := ih hb₁ hca
    exact ⟨h₂,(bind_of_ok hcall₁).trans hcall₂⟩

end

lemma overwrite_zeros (s n : ℕ) :
    overwrite (fun _ => (0 : Byte)) s (List.replicate n 0) = fun _ => 0 := by
  funext i
  unfold overwrite
  split_ifs with hi
  · rw [getElem?_replicate]
    split_ifs <;> rfl
  · rfl

lemma wipe_ok {h : Host} (him : h.image = fun _ => 0) (hl : h.length = 0) {n : ℕ}
    (hn : n ≤ 1000) : wipe n h = (.ok (),{ h with length := 512 * n }) := by
  induction n with
  | zero =>
    have hs : { h with length := 512 * 0 } = h := by
      rw [Nat.mul_zero,← hl]
    rw [hs]
    rfl
  | succ n ih =>
    have hv : (BitVec.ofNat 32 n).toNat = n := by
      rw [BitVec.toNat_ofNat]
      omega
    have ho : blockOffset (BitVec.ofNat 32 n) = 512 * n := by
      rw [blockOffset_eq (by omega),hv]
    have hm : max (512 * n) (512 * n + blockSize) = 512 * (n + 1) := by
      unfold blockSize
      omega
    rw [wipe,bind_of_ok (ih (by omega)),wsect,update,ho]
    dsimp only
    rw [him,overwrite_zeros,hm]

def blank : Host where
  image := overwrite (fun _ => 0) 512 (serialize superblock ++ List.replicate 484 0)
  length := 512000
  freeinode := 1
  freeblock := 59

def onlyRoot (q : List Byte) : ℕ → List Byte := Function.update (fun _ => []) 1 q

lemma onlyRoot_one (q : List Byte) : onlyRoot q 1 = q := Function.update_self ..

lemma onlyRoot_update (q r : List Byte) : Function.update (onlyRoot q) 1 r = onlyRoot r :=
  Function.update_idem ..

lemma total_onlyRoot (q : List Byte) : total 2 (onlyRoot q) = used (blocks q.length) := by
  have hn : onlyRoot q 0 = [] := Function.update_of_ne (by norm_num) _ _
  have hz : used (blocks (onlyRoot q 0).length) = 0 := by
    rw [hn]
    rfl
  rw [total,Finset.sum_range_succ,Finset.sum_range_one,hz,onlyRoot_one,Nat.zero_add]

lemma tree_nil : onlyRoot (dirent ((1 : Word32).setWidth 16) dot ++
    dirent ((1 : Word32).setWidth 16) dotdot) = tree [] := by
  funext i
  match i with
  | 0 => rfl
  | 1 => exact onlyRoot_one _
  | k + 2 => exact Function.update_of_ne (by omega) _ _

lemma blank_built : Built blank 1 (onlyRoot []) fun _ => ∅ := by
  have hl : (serialize superblock ++ List.replicate 484 (0 : Byte)).length = 512 := by
    rw [length_append,length_serialize,length_replicate]
  have hf : blank.freeblock.toNat = 59 := by decide
  refine ⟨fun i => ⟨rfl,?_,?_,fun b hb => absurd hb (Set.notMem_empty b),fun x hx => ?_⟩,by decide,
    by norm_num,?_,fun i h1 hi => ?_,fun i j _ => Set.disjoint_empty _,?_⟩
  · omega
  · omega
  · change overwrite (fun _ => 0) 512 _ x = 0
    rw [overwrite_outside]
    rw [hl]
    omega
  · have hp : ((slice blank.image 512 512).drop 0).take 28 = slice blank.image (512 + 0) 28 :=
      slice_slice blank.image 512 (by norm_num)
    have ha := slice_overwrite (fun _ => (0 : Byte)) 512
      (serialize superblock ++ List.replicate 484 0)
    rw [hl] at ha
    rw [← hp]
    change ((slice (overwrite (fun _ => (0 : Byte)) 512 _) 512 512).drop 0).take 28 = _
    rw [ha,drop_zero,take_left' (length_serialize _)]
  · omega
  · rw [hf]
    rfl

lemma makeRoot_ok {h : Host} {o : ℕ → Set ℕ} (hb : Built h 1 (onlyRoot []) o)
    (h1 : h.freeinode = 1) :
    ∃ h' o', makeRoot h = (.ok h.freeinode,h') ∧ Built h' 2 (tree []) o' := by
  have hinum := hb.inodes
  have hki : kind 1 = 1 := rfl
  obtain ⟨h₁,o₁,ha,hb₁⟩ := ialloc_ok hb le_rfl (by norm_num)
  rw [hki] at ha
  rw [onlyRoot_update] at hb₁
  have hfit₁ : Fits h₁ (onlyRoot [] 1).length (dirent (h.freeinode.setWidth 16) dot).length := by
    refine hb₁.fits (by norm_num) ?_ ?_
    · rw [onlyRoot_one,length_dirent]
      norm_num
    · rw [onlyRoot_update,onlyRoot_one,total_onlyRoot,nil_append,length_dirent]
      decide
  obtain ⟨h₂,o₂,hcall₂,hb₂⟩ := iappend_ok hb₁ le_rfl (by norm_num) hinum hfit₁
  rw [onlyRoot_update,onlyRoot_one,nil_append] at hb₂
  have hfit₂ : Fits h₂ (onlyRoot (dirent (h.freeinode.setWidth 16) dot) 1).length
      (dirent (h.freeinode.setWidth 16) dotdot).length := by
    refine hb₂.fits (by norm_num) ?_ ?_
    · rw [onlyRoot_one,length_dirent,length_dirent]
      norm_num
    · rw [onlyRoot_update,onlyRoot_one,total_onlyRoot,length_append,length_dirent,length_dirent]
      decide
  obtain ⟨h₃,o₃,hcall₃,hb₃⟩ := iappend_ok hb₂ le_rfl (by norm_num) hinum hfit₂
  rw [onlyRoot_update,onlyRoot_one,h1] at hb₃
  refine ⟨h₃,o₃,?_,tree_nil ▸ hb₃⟩
  rw [makeRoot,bind_of_ok ha,if_neg (not_not.mpr h1),bind_of_ok hcall₂,bind_of_ok hcall₃]
  rfl

lemma length_mark (l : List ℕ) (b : List Byte) : (l.foldl mark b).length = b.length := by
  induction l generalizing b with
  | nil => rfl
  | cons i l ih => rw [foldl_cons,ih,mark,length_modify]

lemma length_bitmap (u : ℕ) : (bitmap u).length = 512 := by
  rw [bitmap,length_mark,length_replicate]

lemma mark_later (l : List ℕ) (b : List Byte) (hl : ∀ i ∈ l, 8 ≤ i) :
    (l.foldl mark b)[0]? = b[0]? := by
  induction l generalizing b with
  | nil => rfl
  | cons i l ih =>
    have hi := hl i mem_cons_self
    have hne : i / 8 ≠ 0 := by omega
    rw [foldl_cons,ih _ fun j hj => hl j (mem_cons_of_mem i hj),mark,getElem?_modify]
    simp [hne]

lemma bitmap_first {u : ℕ} (h : 8 ≤ u) : (bitmap u)[0]? = some 0xff := by
  obtain ⟨r,rfl⟩ : ∃ r, u = 8 + r := ⟨u - 8,by omega⟩
  rw [bitmap,range_add,foldl_append,mark_later]
  · rfl
  · intro i hi
    obtain ⟨j,_,rfl⟩ := List.mem_map.mp hi
    omega

structure Finished (m : ℕ → Byte) (files : List HostFile) (own : ℕ → Set ℕ) : Prop where
  super : SuperBlock.parse (slice m 512 28) = superblock
  rootType : (inodeAt superblock m 1).type = 1
  rootSize : (inodeAt superblock m 1).size.toNat = 512 * ((files.length + 2) / 32 + 1)
  root : Holds m (inodeAt superblock m 1) (blocks (directory files).length) (own 1) (directory files)
  file : ∀ k (hk : k < files.length), k < 206 → FileAt m (k + 2) 2 files[k].contents (own (k + 2))
  marked : m 29696 = 0xff

def Host.finish (h : Host) (size : Word32) : Host :=
  (h.inode 1 { inodeAt superblock h.image 1 with size := size }).put 29696
    (bitmap h.freeblock.toNat)

section
variable {h : Host} {fl : List HostFile} {o : ℕ → Set ℕ} {s : Word32}

lemma finish_outside (h : Host) (n : Word32) {x : ℕ} (hi : x ∉ inodeBytes superblock 1)
    (hb : x < 29696 ∨ 30208 ≤ x) : (h.finish n).image x = h.image x := by
  have hp : (h.finish n).image x =
      (h.inode 1 { inodeAt superblock h.image 1 with size := n }).image x :=
    overwrite_outside _ (by rw [length_bitmap]; exact hb)
  rw [hp,inode_outside _ _ hi]

lemma finish_root (h : Host) (n : Word32) :
    inodeAt superblock (h.finish n).image 1 = { inodeAt superblock h.image 1 with size := n } := by
  rw [← inode_at (i := 1) h { inodeAt superblock h.image 1 with size := n }]
  refine inodeAt_congr fun x hx => overwrite_outside _ (.inl ?_)
  have hhi := hx.2
  rw [inodeOffset_eq] at hhi
  omega

lemma Built.finish (hb : Built h (fl.length + 2) (tree fl) o)
    (hs : s.toNat = 512 * ((fl.length + 2) / 32 + 1)) :
    Finished (h.finish s).image fl o := by
  have hr := hb.file 1 le_rfl (by omega)
  have ho : ∀ i, ∀ b ∈ o i, ∀ x ∈ block b, (h.finish s).image x = h.image x := by
    intro i b hb' x hx
    have hb59 := ((hb.ready i).range b hb').1
    refine finish_outside h s (fun hx' => ?_) (.inr ?_)
    · exact inodeBytes_outside (by norm_num) hx' hb59 hx
    · have hlo := hx.1
      omega
  refine ⟨?_,?_,?_,?_,fun k hk hk' => ?_,?_⟩
  · have hsa : slice (h.finish s).image 512 28 = slice h.image 512 28 := by
      refine slice_congr fun x hlo hhi => finish_outside h s (fun hx => ?_) (.inl (by omega))
      have hx16 := (inodeBytes_bounds (by norm_num) hx).1
      omega
    rw [hsa,hb.super,parse_serialize]
  · rw [finish_root]
    exact hr.type
  · rw [finish_root]
    exact hs
  · rw [finish_root]
    exact (hr.holds.congr (ho 1)).resize s
  · have hf := hb.file (k + 2) (by omega) (by omega)
    have ht : tree fl (k + 2) = fl[k].contents := by
      rw [tree,List.getElem?_eq_getElem hk]
      rfl
    rw [kind_file,ht] at hf
    refine hf.congr (fun x hx => finish_outside h s (fun hx' => ?_) (.inl ?_)) (ho _)
    · exact Set.disjoint_left.mp (inodeBytes_disjoint (by omega)) hx hx'
    · have hhi := hx.2
      rw [inodeOffset_eq] at hhi
      omega
  · have hlw := (hb.ready 0).low
    have hfi := bitmap_first (by omega : 8 ≤ h.freeblock.toNat)
    have hl : 0 < (bitmap h.freeblock.toNat).length := by
      rw [length_bitmap]
      norm_num
    have him := overwrite_inside
      (h.inode 1 { inodeAt superblock h.image 1 with size := s }).image 29696 hl
    refine him.trans ?_
    rw [List.getElem_eq_iff]
    exact hfi

def rootSize (files : List HostFile) : Word32 :=
  BitVec.ofNat 32 (((directory files).length / 512 + 1) * 512)

lemma rootSize_toNat (hc : fl.length ≤ 214) :
    (rootSize fl).toNat = 512 * ((fl.length + 2) / 32 + 1) := by
  rw [rootSize,BitVec.toNat_ofNat,length_directory]
  omega

lemma Built.close (hb : Built h (fl.length + 2) (tree fl) o) {r : Word32}
    (hro : r.toNat = 1) :
    (do
      fixSize r
      let u ← asks Host.freeblock
      balloc u : Build Unit) h = (.ok (),h.finish (rootSize fl)) := by
  have hs := (hb.file 1 le_rfl (by omega)).size
  have hr := hb.ready 0
  have hrm := hr.room
  have hw : ∀ d, winode r d h = (.ok (),h.inode 1 d) := fun d => by
    rw [winode_ok hr.length (by omega),hro]
    rfl
  have hf : fixSize r h = (.ok (),h.inode 1 { inodeAt superblock h.image 1 with
      size := rootSize fl }) := by
    rw [fixSize,bind_of_ok (hb.rinode (by omega) hro),hw,hs]
    rfl
  have hu : h.freeblock.toNat < blockSize * 8 := by
    unfold blockSize
    omega
  have hbm : superblock.bmapstart.toNat = 58 := by decide
  have hba : ∀ d, balloc h.freeblock (h.inode 1 d) =
      (.ok (),(h.inode 1 d).put 29696 (bitmap h.freeblock.toNat)) := by
    intro d
    have hl : (h.inode 1 d).length = 512000 := hr.length
    rw [balloc,if_pos hu,wsect_ok hl (by omega),hbm]
  rw [bind_of_ok hf,asks_bind]
  exact hba _

end

lemma format_bind {g : Host → Host} {x y z : Build Unit} {s t u : Host} (hx : x (g s) = (.ok (),t))
    (hy : y t = (.ok (),u)) :
    (do
      update g
      x
      y
      z : Build Unit) s = z u := by
  rw [update_bind,bind_of_ok hx,bind_of_ok hy]

lemma main_blank (fl : List HostFile) : main fl truncated = populate fl blank := by
  have hm : BitVec.ofNat 32 nmeta = 59 := by decide
  have hp : blockSize - 28 = 484 := rfl
  have hw : wipe fssize (start truncated) =
      (.ok (),⟨fun _ => 0,512000,1,BitVec.ofNat 32 nmeta⟩) := wipe_ok rfl rfl le_rfl
  have hs : wsect 1 (serialize superblock ++ List.replicate (blockSize - 28) 0)
      ⟨fun _ => 0,512000,1,BitVec.ofNat 32 nmeta⟩ = (.ok (),blank) := by
    have ho : (1 : Word32).toNat < 1000 := by decide
    rw [wsect_ok rfl ho,hp,hm]
    rfl
  rw [main]
  exact format_bind hw hs

section
variable {h h' : Host} {fl : List HostFile} {o : ℕ → Set ℕ}

lemma populate_finished (hb : Built h 1 (onlyRoot []) o) (h1 : h.freeinode = 1)
    (hco : fl.length ≤ 214) {u : Unit} (hca : populate fl h = (.ok u,h')) :
    ∃ own', Finished h'.image fl own' := by
  have hinum := hb.inodes
  obtain ⟨h₁,own₁,hr,hb₁⟩ := makeRoot_ok hb h1
  have hn : Built h₁ (([] : List HostFile).length + 2) (tree []) own₁ := hb₁
  rw [populate,bind_of_ok hr] at hca
  obtain ⟨_,_,ha,hc⟩ := bind_ok.mp hca
  have hs : ([] : List HostFile).length + fl.length ≤ 214 := by simpa using hco
  obtain ⟨own₂,hb₂⟩ := addFiles_built hn hs hinum ha
  rw [nil_append] at hb₂
  rw [hb₂.close hinum] at hc
  cases hc
  exact ⟨own₂,hb₂.finish (rootSize_toNat hco)⟩

lemma populate_ok (hb : Built h 1 (onlyRoot []) o) (h1 : h.freeinode = 1)
    (hc : Capacity fl) : ∃ h', populate fl h = (.ok (),h') := by
  have hinum := hb.inodes
  obtain ⟨h₁,own₁,hr,hb₁⟩ := makeRoot_ok hb h1
  have hn : Built h₁ (([] : List HostFile).length + 2) (tree []) own₁ := hb₁
  obtain ⟨h₂,ha⟩ := addFiles_ok hn hinum hc
  have hs : ([] : List HostFile).length + fl.length ≤ 214 := by simpa using hc.count
  obtain ⟨own₂,hb₂⟩ := addFiles_built hn hs hinum ha
  rw [nil_append] at hb₂
  refine ⟨h₂.finish (rootSize fl),?_⟩
  rw [populate,bind_of_ok hr,bind_of_ok ha]
  exact hb₂.close hinum

lemma main_finished (hco : fl.length ≤ 214) {u : Unit}
    (hc : main fl truncated = (.ok u,h)) : ∃ o, Finished h.image fl o := by
  rw [main_blank] at hc
  exact populate_finished blank_built rfl hco hc

lemma main_ok (hc : Capacity fl) : ∃ h, main fl truncated = (.ok (),h) := by
  rw [main_blank]
  exact populate_ok blank_built rfl hc

lemma populate_built (hb : Built h 1 (onlyRoot []) o) (h1 : h.freeinode = 1)
    (hco : fl.length ≤ 214) {u : Unit} (hca : populate fl h = (.ok u,h')) :
    ∃ d o, Built d (fl.length + 2) (tree fl) o ∧ h' = d.finish (rootSize fl) := by
  obtain ⟨h₁,o₁,hr,hb₁⟩ := makeRoot_ok hb h1
  rw [populate,bind_of_ok hr] at hca
  obtain ⟨_,d,ha,hc⟩ := bind_ok.mp hca
  have hs : ([] : List HostFile).length + fl.length ≤ 214 := by simpa using hco
  obtain ⟨o,hd⟩ := addFiles_built (d := []) hb₁ hs hb.inodes ha
  rw [nil_append] at hd
  rw [hd.close hb.inodes] at hc
  cases hc
  exact ⟨d,o,hd,rfl⟩

lemma bitmap_marked {b u : ℕ} (hb : b < u) (hu : u ≤ 4096) :
    ((bitmap u)[b / 8]?.getD 0).getLsbD (b % 8) = true := by
  induction u with
  | zero => cases hb
  | succ u ih =>
    have hs : bitmap (u + 1) = mark (bitmap u) u := by
      rw [bitmap,range_succ,foldl_append]
      rfl
    have hk : b / 8 < (bitmap u).length := by
      rw [length_bitmap]
      omega
    rw [hs,mark,getElem?_modify,List.getElem?_eq_getElem hk]
    rcases Nat.lt_succ_iff_lt_or_eq.mp hb with hb | rfl
    · have hi := ih hb (by omega)
      rw [List.getElem?_eq_getElem hk] at hi
      by_cases he : u / 8 = b / 8 <;> simp_all
    · simp [Nat.mod_lt]

def Uses (m : ℕ → Byte) (i b : ℕ) : Prop := b ≠ 0 ∧
  (b = ((inodeAt superblock m i).addrs 12).toNat ∨
    ∃ k, b = ((inodeAt superblock m i).entry m k).toNat)

lemma Layout.uses {m : ℕ → Byte} {i n b : ℕ} {own : Set ℕ}
    (hl : Layout m (inodeAt superblock m i) n own) (hu : Uses m i b) : b ∈ own := by
  obtain ⟨h0,rfl | ⟨k,rfl⟩⟩ := hu
  · exact hl.indirect fun hz => h0 (by rw [hz]; rfl)
  · exact hl.within k ((hl.mapped k).mp fun hz => h0 (by rw [hz]; rfl))

theorem blocks_unshared (hco : fl.length ≤ 206) {u : Unit} (hc : main fl truncated = (.ok u,h)) :
    ∀ k ≤ fl.length, ∀ b, Uses h.image (k + 1) b → 59 ≤ b ∧ b < 1000 ∧
      (h.image (29696 + b / 8)).getLsbD (b % 8) = true ∧
      ∀ l ≤ fl.length, Uses h.image (l + 1) b → k = l := by
  rw [main_blank] at hc
  obtain ⟨d,o,hb,he⟩ := populate_built blank_built rfl (by omega) hc
  have hf : Finished h.image fl o := he ▸ hb.finish (rootSize_toNat (by omega))
  have ho : ∀ k ≤ fl.length, ∀ b, Uses h.image (k + 1) b → b ∈ o (k + 1) := by
    intro k hk b hu
    cases k with
    | zero => exact hf.root.layout.uses hu
    | succ k => exact (hf.file k hk (by omega)).holds.layout.uses hu
  intro k hk b hu
  have hm := ho k hk b hu
  obtain ⟨hlo,hhi⟩ := (hb.ready _).range b hm
  have hro := (hb.ready 0).room
  refine ⟨hlo,by omega,?_,fun l hl hv => ?_⟩
  · have hn := bitmap_marked hhi (by omega)
    have hi : b / 8 < (bitmap d.freeblock.toNat).length := by
      rw [length_bitmap]
      omega
    have hp : h.image = overwrite _ 29696 _ := congrArg Host.image he
    rw [List.getElem?_eq_getElem hi] at hn
    rw [hp,overwrite_inside _ _ hi]
    exact hn
  · by_contra hne
    exact Set.disjoint_left.mp (hb.disjoint _ _ (by omega)) hm (ho l hl b hv)

theorem blocks_unshared_single : ∃ h, main [⟨[97],[104]⟩] truncated = (.ok (),h) ∧
    ∀ b, Uses h.image 1 b → ¬ Uses h.image 2 b := by
  have hc : Capacity [⟨[97],[104]⟩] := ⟨by decide,by decide,by decide,by decide⟩
  obtain ⟨h,hm⟩ := main_ok hc
  refine ⟨h,hm,fun b hu hv => ?_⟩
  cases (blocks_unshared (by decide) hm 0 (by decide) b hu).2.2.2 1 (by decide) hv

end

end Fs.Mkfs
