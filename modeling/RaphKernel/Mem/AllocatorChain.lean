import RaphKernel.Mem.Allocator

namespace Allocators
open Raph List Relation

structure Chained (a : Allocator) : Prop where
  parted : ∃ l₁ l₂, a.list = l₁ ++ l₂ ∧ l₁ ≠ [] ∧ (∀ k ∈ l₁, full k.flag = false) ∧
    ∀ k ∈ l₂, full k.flag = true
  created : (a.list.map Container.addr).Perm (range (a.extended + 1))

section
variable {a c : Allocator} {k k' : Container} {l l' l₁ l₂ : List Container}

lemma rotate_run (tmp : Container) (hn : l₁ ≠ []) (h₁ : ∀ k ∈ l₁, full k.flag = false)
    (h₂ : ∀ k ∈ l₂, full k.flag = true) : rotate tmp (l₁ ++ l₂) = l₁ ++ tmp :: l₂ := by
  induction l₁ with
  | nil => exact absurd rfl hn
  | cons cur l₁ ih =>
    cases l₁ with
    | nil =>
      cases l₂ with
      | nil => rfl
      | cons next l₂ => simp [rotate,h₂ next]
    | cons next l₁ =>
      have hr := ih (cons_ne_nil _ _) fun k hk => h₁ k (mem_cons_of_mem cur hk)
      simp only [cons_append] at hr ⊢
      simp [rotate,h₁ next,hr]

lemma Chained.replace (h : Chained a) (hl : a.list.Perm (k :: l)) (hl' : l'.Perm (k' :: l))
    (hk : k'.addr = k.addr) : (l'.map Container.addr).Perm (range (a.extended + 1)) := by
  refine (hl'.map _).trans (Perm.trans ?_ ((hl.map _).symm.trans h.created))
  rw [map_cons,map_cons,hk]

lemma Chained.alloc {virtmem : Bool} {p : Option Entry} (h : Chained a)
    (hc : a.alloc virtmem = some (.ok (p,c))) : Chained c := by
  obtain ⟨l₁,l₂,hl,hn,h₁,h₂⟩ := h.parted
  obtain ⟨head,l₁,rfl⟩ := exists_cons_of_ne_nil hn
  have hf := h₁ head mem_cons_self
  have ht k (hk : k ∈ l₁) := h₁ k (mem_cons_of_mem head hk)
  obtain ⟨hi,_⟩ := firstClear_spec hf
  simp only [Allocator.alloc,hl,cons_append,hf,Bool.false_eq_true,if_false,dif_pos hi] at hc
  set head' : Container := { head with flag := head.flag ||| (1 : Word) <<< firstClear head.flag 64 }
  have hp : a.list.Perm (head :: (l₁ ++ l₂)) := hl ▸ .refl _
  have hr l' (hl : List.Perm l' (head' :: (l₁ ++ l₂))) := h.replace hp hl rfl
  split at hc
  · rename_i hf'
    cases l₁ with
    | nil =>
      have he : Allocator.extend virtmem { a with list := head' :: l₂ } ⟨head.addr,⟨_,hi⟩⟩ =
          .ok (p,c) := by
        cases l₂ with
        | nil => exact Option.some.inj hc
        | cons next l₂ =>
          simp only [nil_append,h₂ next mem_cons_self,if_true] at hc
          exact Option.some.inj hc
      obtain ⟨-,rfl⟩ := extend_ok he
      refine ⟨⟨[_],head' :: l₂,rfl,cons_ne_nil _ _,by simp [full],?_⟩,?_⟩
      · exact forall_mem_cons.mpr ⟨hf',h₂⟩
      · rw [range_succ]
        exact ((hr _ (.refl _)).cons _).trans (perm_append_singleton _ _).symm
    | cons next l₁ =>
      simp only [cons_append,ht next mem_cons_self,Bool.false_eq_true,if_false] at hc
      cases hc
      have hro := rotate_run head' (cons_ne_nil next l₁) ht h₂
      refine ⟨⟨_,_,hro,cons_ne_nil _ _,ht,forall_mem_cons.mpr ⟨hf',h₂⟩⟩,hr _ (rotate_perm _ _)⟩
  · rename_i hf'
    cases hc
    refine ⟨⟨head' :: l₁,l₂,rfl,cons_ne_nil _ _,?_,h₂⟩,hr _ (.refl _)⟩
    exact forall_mem_cons.mpr ⟨Bool.eq_false_iff.mpr hf',ht⟩

lemma freeLoop_exists {data : Entry} (h : freeLoop data l₁ l = .ok l') :
    ∃ k ∈ l, k.addr = data.container := by
  induction l generalizing l₁ with
  | nil => cases h
  | cons cur rest ih =>
    unfold freeLoop at h
    split at h
    · rename_i hc
      exact ⟨cur,mem_cons_self,hc⟩
    · obtain ⟨k,hk,ha⟩ := ih h
      exact ⟨k,mem_cons_of_mem cur hk,ha⟩

lemma Chained.free {e : Entry} (h : Chained a) (hc : a.free e = .ok c) : Chained c := by
  unfold Allocator.free at hc
  obtain ⟨l',hf,hc⟩ := bind_ok.mp hc
  cases hc
  obtain ⟨pre,k,post,hl,ha,hk⟩ := freeLoop_found (freeLoop_exists hf) []
  obtain rfl := Except.ok.inj (hf.symm.trans hk)
  have hp : a.list.Perm (k :: (pre ++ post)) := hl ▸ perm_middle
  let k' : Container := { k with flag := k.flag &&& freeMask e.index }
  have hr l' (hl : List.Perm l' (k' :: (pre ++ post))) := h.replace hp hl rfl
  have hz : full k'.flag = false := full_freed k.flag e.index
  obtain ⟨l₁,l₂,hl',hn,h₁,h₂⟩ := h.parted
  have hs : (∃ x, pre = l₁ ++ x ∧ l₂ = x ++ k :: post) ∨
      ∃ y, l₁ = pre ++ k :: y ∧ post = y ++ l₂ := by
    rcases append_eq_append_iff.mp (hl'.symm.trans hl) with hx | ⟨_ | ⟨j,y⟩,hp,hy⟩
    · exact .inl hx
    · exact .inl ⟨[],by simp [hp],hy.symm⟩
    · obtain ⟨rfl,ht⟩ := cons.inj hy
      exact .inr ⟨y,hp,ht⟩
  rcases hs with ⟨x,rfl,rfl⟩ | ⟨y,rfl,rfl⟩
  · rw [nil_append,if_pos (by simp [h₂ k,hn])]
    refine ⟨⟨k' :: l₁,x ++ post,by simp [k'],cons_ne_nil _ _,forall_mem_cons.mpr ⟨hz,h₁⟩,?_⟩,
      hr _ (.refl _)⟩
    exact fun j hj => h₂ j (by grind)
  · rw [nil_append,if_neg (by simp [h₁ k])]
    refine ⟨⟨pre ++ k' :: y,l₂,by simp [k'],by simp,?_,h₂⟩,hr _ perm_middle⟩
    exact fun j hj => by grind

end

inductive Called (a c : Allocator) : Prop
  | alloc (virtmem : Bool) (p : Option Entry) : a.alloc virtmem = some (.ok (p,c)) → Called a c
  | free (data : Entry) : a.free data = .ok c → Called a c

theorem chain_parted {a : Allocator} (h : ReflTransGen Called initial a) : Chained a := by
  induction h with
  | refl => exact ⟨⟨[⟨0,0⟩],[],rfl,cons_ne_nil _ _,by decide,by simp⟩,by decide⟩
  | tail _ hs ih =>
    cases hs with
    | alloc _ _ hc => exact ih.alloc hc
    | free _ hc => exact ih.free hc

def allocated (n : ℕ) : Allocator := ⟨[⟨0,BitVec.ofNat 64 (2 ^ n - 1)⟩],0⟩

lemma allocated_succ : ∀ n : Fin 63, Allocator.alloc true (allocated n) =
    some (.ok (some ⟨0,n.castSucc⟩,allocated (n + 1))) := by
  decide +kernel

lemma allocated_reached {n : ℕ} (hn : n ≤ 63) : ReflTransGen Called initial (allocated n) := by
  induction n with
  | zero => exact .refl
  | succ n ih => exact (ih (by omega)).tail (.alloc true _ (allocated_succ ⟨n,hn⟩))

theorem chain_parted_extended : ReflTransGen Called initial ⟨[⟨1,0⟩,⟨0,BitVec.allOnes 64⟩],1⟩ ∧
    Chained ⟨[⟨1,0⟩,⟨0,BitVec.allOnes 64⟩],1⟩ := by
  have hr : ReflTransGen Called initial ⟨[⟨1,0⟩,⟨0,BitVec.allOnes 64⟩],1⟩ :=
    (allocated_reached le_rfl).tail (.alloc true (some ⟨0,63⟩) (by decide +kernel))
  exact ⟨hr,chain_parted hr⟩

end Allocators
