import Mathlib.Data.List.Basic
import Mathlib.Data.List.TakeWhile
import Mathlib.Algebra.Group.Nat.Defs

namespace Usb
open Function List Nat

inductive Node
  | head
  | frame (i : ℕ)
  | qh (q : ℕ)
  deriving DecidableEq

inductive Controller
  | uhci
  | ehci

structure Schedule where
  next : Node → Option Node
  qhBuf : List ℕ

def Controller.init (qhBuf : List ℕ) : Controller → Schedule
  | .uhci => ⟨fun | .frame _ => some .head | _ => none,qhBuf⟩
  | .ehci => ⟨fun | .head => some .head | _ => none,qhBuf⟩

def insertHorizontalNext (next : Node → Option Node) (h q : Node) : Node → Option Node :=
  update (update next q (next h)) h (some q)

def sendControlTransfer (tds : Bool) (s : Schedule) : Schedule :=
  match s.qhBuf with
  | [] => s
  | q :: rest =>
    ⟨if tds then insertHorizontalNext (update s.next (.qh q) none) .head (.qh q) else s.next,rest ++ [q]⟩

def shifts (interval : ℕ) : ℕ := if 1 < interval then shifts (interval / 2) + 1 else 0

def rounded (interval : ℕ) : ℕ := 2 ^ shifts interval

def Controller.enter (q : ℕ) (next : Node → Option Node) (i : ℕ) : Controller → Node → Option Node
  | .uhci => insertHorizontalNext next (.frame i) (.qh q)
  | .ehci => update next (.frame i) (some (.qh q))

def Controller.enterAll (c : Controller) (q : ℕ) : List ℕ → (Node → Option Node) → Node → Option Node
  | [], next => next
  | i :: l, next => c.enterAll q l (c.enter q next i)

def frames (p : ℕ) : List ℕ := (range 1024).filter (· % p = 0)

lemma mem_frames {i p : ℕ} : i ∈ frames p ↔ i < 1024 ∧ i % p = 0 := by simp [frames]

lemma frames_sorted (p : ℕ) : (frames p).Pairwise (· < ·) := pairwise_lt_range.filter _

lemma zero_mem_frames (p : ℕ) : 0 ∈ frames p := mem_frames.mpr ⟨by decide,zero_mod p⟩

attribute [irreducible] frames

def setupInterruptTransfer (c : Controller) (interval : ℕ) (s : Schedule) : Schedule :=
  match s.qhBuf with
  | [] => s
  | q :: rest => ⟨c.enterAll q (frames (rounded interval)) (update s.next (.qh q) none),rest⟩

def Path (next : Node → Option Node) : Node → List Node → Option Node → Prop
  | a, [], b => next a = b
  | a, c :: l, b => next a = some c ∧ Path next c l b

inductive Event
  | control (tds : Bool)
  | interrupt (interval : ℕ)

def step (c : Controller) (s : Schedule) : Event → Schedule
  | .control tds => sendControlTransfer tds s
  | .interrupt interval => setupInterruptTransfer c interval s

def Controller.close : Controller → Option Node
  | .uhci => none
  | .ehci => some .head

def Controlled (c : Controller) (s : Schedule) : Prop :=
  ∃ l, Path s.next .head l c.close ∧ ∀ q ∈ s.qhBuf, .qh q ∉ l

def Every (P : Schedule → Prop) (c : Controller) : List Event → Schedule → Prop
  | [], s => P s
  | e :: es, s => P s ∧ Every P c es (step c s e)

def Unlinked (c : Controller) : List Event → Schedule → Prop
  | [], _ => True
  | e :: es, s => (e = .control true → s.qhBuf = []) ∧ Unlinked c es (step c s e)

lemma enterAll_other {c : Controller} {q : ℕ} {a : Node} {l : List ℕ} {next : Node → Option Node}
    (hq : a ≠ .qh q) (hl : ∀ i ∈ l, a ≠ .frame i) : c.enterAll q l next a = next a := by
  induction l generalizing next with
  | nil => rfl
  | cons i l ih =>
    rw [Controller.enterAll,ih fun j hj => hl j (mem_cons_of_mem _ hj)]
    cases c <;> simp [Controller.enter,insertHorizontalNext,hq,hl i mem_cons_self]

lemma setup_head (c : Controller) (interval : ℕ) (s : Schedule) :
    (setupInterruptTransfer c interval s).next .head = s.next .head := by
  rw [setupInterruptTransfer]
  split
  · rfl
  · simp only [enterAll_other (a := .head),ne_eq,reduceCtorEq,not_false_eq_true,implies_true,update_of_ne]

lemma controlled_of_head {c : Controller} {s : Schedule} (h : s.next .head = c.close) :
    Controlled c s := ⟨[],h,fun _ _ => not_mem_nil⟩

lemma not_controlled {c : Controller} {s : Schedule} {q : ℕ} (h : s.next .head = some (.qh q))
    (hq : q ∈ s.qhBuf) : ¬ Controlled c s := by
  rintro ⟨l,hp,hf⟩
  cases l with
  | nil => cases c <;> cases h.symm.trans hp
  | cons a l =>
    cases h.symm.trans hp.1
    exact hf q hq mem_cons_self

lemma controlled_every {c : Controller} (es : List Event) {s : Schedule} (h : s.next .head = c.close) :
    Every (Controlled c) c es s ↔ Unlinked c es s := by
  induction es generalizing s with
  | nil => exact iff_of_true (controlled_of_head h) trivial
  | cons e es ih =>
    rw [Every,and_iff_right (controlled_of_head h),Unlinked]
    have hk (hh : (step c s e).next .head = c.close) (he : e = .control true → s.qhBuf = []) :
        Every (Controlled c) c es (step c s e) ↔
          (e = .control true → s.qhBuf = []) ∧ Unlinked c es (step c s e) := by
      rw [ih hh,and_iff_right he]
    cases e with
    | interrupt interval => exact hk ((setup_head ..).trans h) nofun
    | control tds =>
      cases hq : s.qhBuf with
      | nil => exact hq ▸ hk (by simpa [step,sendControlTransfer,hq] using h) fun _ => hq
      | cons q rest =>
        cases tds with
        | false => exact hq ▸ hk (by simpa [step,sendControlTransfer,hq] using h) nofun
        | true =>
          have hl : ¬ Controlled c (step c s (.control true)) := by
            refine not_controlled (q := q) ?_ ?_ <;>
              simp [step,sendControlTransfer,hq,insertHorizontalNext]
          refine iff_of_false (fun ha => hl ?_) fun ha => nomatch ha.1 rfl
          cases es with
          | nil => exact ha
          | cons e es => exact ha.1

theorem control_list_iff (c : Controller) (qhBuf : List ℕ) (es : List Event) :
    Every (Controlled c) c es (c.init qhBuf) ↔ Unlinked c es (c.init qhBuf) :=
  controlled_every es (by cases c <;> rfl)

theorem control_list_stale : ¬ Every (Controlled .uhci) .uhci [.control true] (Controller.uhci.init [5]) ∧
    ¬ Every (Controlled .ehci) .ehci [.control true] (Controller.ehci.init [5]) := by
  rw [controlled_every _ rfl,controlled_every _ rfl]
  simp [Unlinked,Controller.init]

def Scheduled (next : Node → Option Node) (eps : List (ℕ × ℕ)) : Prop :=
  ∀ i < 1024, ∃ l, Path next (.frame i) l none ∧ ∀ e ∈ eps, i % e.2 = 0 → .qh e.1 ∈ l

def Reached (c : Controller) : List ℕ → Schedule → List (ℕ × ℕ) → Prop
  | [], s, eps => Scheduled s.next eps
  | interval :: intervals, s, eps =>
    Scheduled s.next eps ∧ Reached c intervals (setupInterruptTransfer c interval s)
      ((s.qhBuf.head?.map (·,rounded interval)).toList ++ eps)

def Ascending : ℕ → List ℕ → Prop
  | _, [] => True
  | p, interval :: intervals => p ≤ min (rounded interval) 1024 ∧
    Ascending (min (rounded interval) 1024) intervals

def Allowed (intervals : List ℕ) : Controller → Prop
  | .uhci => Ascending 0 intervals
  | .ehci => intervals.length ≤ 1

section
variable {next : Node → Option Node} {a : Node} {l l' : List Node} {eps : List (ℕ × ℕ)} {q p i : ℕ}

lemma Path.unique (h : Path next a l none) (h' : Path next a l' none) : l = l' := by
  induction l generalizing a l' with
  | nil =>
    cases l' with
    | nil => rfl
    | cons c l' => cases h.symm.trans h'.1
  | cons c l ih =>
    cases l' with
    | nil => cases h'.symm.trans h.1
    | cons c' l' =>
      cases h.1.symm.trans h'.1
      rw [ih h.2 h'.2]

def first : List (ℕ × ℕ) → Node
  | [] => .head
  | e :: _ => .qh e.1

def Linked (next : Node → Option Node) : List (ℕ × ℕ) → Prop
  | [] => next .head = none
  | e :: eps => next (.qh e.1) = some (first eps) ∧ Linked next eps

def nodes (eps : List (ℕ × ℕ)) : List Node := eps.map (.qh ·.1) ++ [.head]

lemma Linked.path (h : Linked next eps) (ha : next a = some (first eps)) :
    Path next a (nodes eps) none := by
  induction eps generalizing a with
  | nil => exact ⟨ha,h⟩
  | cons e eps ih => exact ⟨ha,ih h.2 h.1⟩

lemma Linked.drop (h : Linked next eps) (f : ℕ × ℕ → Bool) : Linked next (eps.dropWhile f) := by
  induction eps with
  | nil => exact h
  | cons e eps ih =>
    rw [dropWhile_cons]
    split
    · exact ih h.2
    · exact h

lemma Linked.congr {next' : Node → Option Node} (h : Linked next eps)
    (hh : next' .head = next .head) (hqh : ∀ e ∈ eps, next' (.qh e.1) = next (.qh e.1)) :
    Linked next' eps := by
  induction eps with
  | nil => exact hh.trans h
  | cons e eps ih =>
    exact ⟨(hqh e mem_cons_self).trans h.1,ih h.2 fun e he => hqh e (mem_cons_of_mem _ he)⟩

lemma enterAll_frame {c : Controller} {l : List ℕ} (hi : i ∈ l) :
    c.enterAll q l next (.frame i) = some (.qh q) := by
  induction l generalizing next with
  | nil => cases hi
  | cons j l ih =>
    by_cases hl : i ∈ l
    · exact ih hl
    · obtain rfl := (mem_cons.mp hi).resolve_right hl
      rw [Controller.enterAll,enterAll_other (by simp) fun k hk => by rintro ⟨⟩; exact hl hk]
      cases c <;> simp [Controller.enter,insertHorizontalNext]

lemma enterAll_last (q : ℕ) (next : Node → Option Node) {l : List ℕ} (hl : l.Pairwise (· < ·)) (hne : l ≠ []) :
    ∃ j ∈ l, (∀ k ∈ l, k ≤ j) ∧ Controller.uhci.enterAll q l next (.qh q) = next (.frame j) := by
  induction l generalizing next with
  | nil => exact absurd rfl hne
  | cons i l ih =>
    rw [pairwise_cons] at hl
    cases l with
    | nil => exact ⟨i,by simp,by simp,by simp [Controller.enterAll,Controller.enter,insertHorizontalNext]⟩
    | cons k l =>
      obtain ⟨j,hj,hm,heq⟩ := ih _ hl.2 (by simp)
      have hij := hl.1 j hj
      refine ⟨j,mem_cons_of_mem _ hj,forall_mem_cons.mpr ⟨Nat.le_of_lt hij,hm⟩,heq.trans ?_⟩
      simp [Controller.enter,insertHorizontalNext,Nat.ne_of_gt hij]

structure Uhci (next : Node → Option Node) (eps : List (ℕ × ℕ)) : Prop where
  linked : Linked next eps
  frames : ∀ i < 1024, next (.frame i) = some (first (eps.dropWhile (fun e => i % e.2 ≠ 0)))

lemma Uhci.scheduled (h : Uhci next eps) : Scheduled next eps := by
  intro i hi
  refine ⟨_,(h.linked.drop _).path (h.frames i hi),fun e he hd => ?_⟩
  rw [← takeWhile_append_dropWhile (p := fun e : ℕ × ℕ => i % e.2 ≠ 0) (l := eps),mem_append] at he
  refine mem_append_left _ (mem_map_of_mem (he.resolve_left fun hm => ?_))
  simpa [hd] using mem_takeWhile_imp hm

def cap : List (ℕ × ℕ) → ℕ
  | [] => 0
  | e :: _ => min e.2 1024

lemma mod_of_cap {m k : ℕ} (h : min (2 ^ m) 1024 ≤ min (2 ^ k) 1024) (hi : i < 1024)
    (hk : i % 2 ^ k = 0) : i % 2 ^ m = 0 := by
  by_cases hl : 1024 ≤ 2 ^ k
  · rw [mod_eq_of_lt (by omega)] at hk
    rw [hk,zero_mod]
  · have hle : 2 ^ m ≤ 2 ^ k := by omega
    have hmk := (Nat.pow_le_pow_iff_right (by decide)).mp hle
    exact mod_eq_zero_of_dvd (Nat.dvd_trans (Nat.pow_dvd_pow 2 hmk) (dvd_of_mod_eq_zero hk))

lemma mod_of_last {m k j : ℕ} (h : min (2 ^ k) 1024 < min (2 ^ m) 1024)
    (hma : ∀ i ∈ frames (2 ^ k), i ≤ j) (hj : j ∈ frames (2 ^ k)) : j % 2 ^ m ≠ 0 := by
  intro hm
  have hlt : 2 ^ k < 2 ^ m := by omega
  have hkm : k + 1 ≤ m := (Nat.pow_lt_pow_iff_right (by decide)).mp hlt
  have hk10 : 2 ^ k < 2 ^ 10 := by omega
  have hk : k + 1 ≤ 10 := (Nat.pow_lt_pow_iff_right (by decide)).mp hk10
  obtain ⟨c,hc⟩ := Nat.dvd_trans (Nat.pow_dvd_pow 2 hkm) (dvd_of_mod_eq_zero hm)
  obtain ⟨d,hd⟩ := Nat.pow_dvd_pow 2 hk
  have hjl := (mem_frames.mp hj).1
  have hcd : c < d := by
    by_contra hge
    have := Nat.mul_le_mul_left (2 ^ (k + 1)) (Nat.not_lt.mp hge)
    omega
  have hr := Nat.mul_le_mul_left (2 ^ (k + 1)) hcd
  rw [mul_succ,← hc,← hd,Nat.pow_succ] at hr
  have hp := Nat.two_pow_pos k
  have hn := hma (j + 2 ^ k) (mem_frames.mpr ⟨by omega,by
    rw [add_mod_right]
    exact (mem_frames.mp hj).2⟩)
  omega

variable {next' : Node → Option Node} {s : Schedule}

lemma uhci_setup (h : Uhci next eps) (hq : q ∉ eps.map Prod.fst)
    (hn : next' = Controller.uhci.enterAll q (frames p) (update next (.qh q) none)) :
    ∃ j ∈ frames p, (∀ i ∈ frames p, i ≤ j) ∧
      Linked next' ((q,p) :: eps.dropWhile fun e => j % e.2 ≠ 0) ∧ ∀ i < 1024,
        next' (.frame i) = some (first (((q,p) :: eps).dropWhile fun e => i % e.2 ≠ 0)) := by
  obtain ⟨j,hj,hma,hl⟩ := enterAll_last q _ (frames_sorted p)
    (ne_nil_of_mem (zero_mem_frames p))
  refine ⟨j,hj,hma,⟨?_,Linked.drop (h.linked.congr ?_ fun e he => ?_) _⟩,fun i hi => ?_⟩
  · rw [hn,hl,update_of_ne (by simp),h.frames j (mem_frames.mp hj).1]
  · rw [hn,enterAll_other (by simp) (by simp),update_of_ne (by simp)]
  · have hne : Node.qh e.1 ≠ .qh q := fun heq => hq (Node.qh.inj heq ▸ mem_map_of_mem he)
    rw [hn,enterAll_other hne (by simp),update_of_ne hne]
  · by_cases hm : i % p = 0
    · rw [hn,enterAll_frame (mem_frames.mpr ⟨hi,hm⟩)]
      simp [hm,first]
    · have ho : ∀ i' ∈ frames p, Node.frame i ≠ .frame i' := by
        rintro i' hi' ⟨⟩
        exact hm (mem_frames.mp hi').2
      rw [hn,enterAll_other (by simp) ho,update_of_ne (by simp),h.frames i hi]
      simp [hm]

lemma uhci_step {m : ℕ} (h : Uhci next eps) (hn : (q :: eps.map Prod.fst).Nodup)
    (hpo : ∀ e ∈ eps, ∃ k, e.2 = 2 ^ k)
    (hne : next' = Controller.uhci.enterAll q (frames (2 ^ m)) (update next (.qh q) none)) :
    (cap eps ≤ min (2 ^ m) 1024 → Uhci next' ((q,2 ^ m) :: eps)) ∧
      (min (2 ^ m) 1024 < cap eps → ¬ Scheduled next' ((q,2 ^ m) :: eps)) := by
  rw [nodup_cons] at hn
  obtain ⟨j,hj,hma,hl,hf⟩ := uhci_setup h hn.1 hne
  cases eps with
  | nil => exact ⟨fun _ => ⟨hl,hf⟩,fun hlt => absurd hlt (Nat.not_lt_zero _)⟩
  | cons e eps =>
    obtain ⟨k,hk⟩ := hpo e mem_cons_self
    rw [cap,hk]
    constructor
    · intro hle
      have hm : j % e.2 = 0 := hk ▸ mod_of_cap hle (mem_frames.mp hj).1 (mem_frames.mp hj).2
      exact ⟨by simpa [hm] using hl,hf⟩
    · intro hlt ha
      have hm : j % e.2 ≠ 0 := hk ▸ mod_of_last hlt hma hj
      obtain ⟨l,hp,hme⟩ := ha 0 (by decide)
      have hz := hf 0 (by decide)
      rw [dropWhile_cons_of_neg (by simp)] at hz
      rw [dropWhile_cons_of_pos (by simpa using hm)] at hl
      rw [hp.unique (hl.path hz)] at hme
      obtain ⟨⟨hq,-⟩,hs,-⟩ : (¬ q = e.1 ∧ _) ∧ e.1 ∉ eps.map Prod.fst ∧ _ := by
        simpa only [map_cons,mem_cons,not_or,nodup_cons] using hn
      have hin := hme e (by simp) (zero_mod _)
      simp only [nodes,map_cons,cons_append,mem_cons,mem_append,mem_map,Node.qh.injEq,reduceCtorEq,
        not_mem_nil,or_false] at hin
      obtain heq | ⟨e',he',heq⟩ := hin
      · exact hq heq.symm
      · exact hs (heq ▸ mem_map_of_mem ((dropWhile_sublist _).subset he'))

lemma Reached.scheduled {c : Controller} {ivs : List ℕ} (h : Reached c ivs s eps) :
    Scheduled s.next eps := by
  cases ivs with
  | nil => exact h
  | cons => exact h.1

lemma reached_empty {c : Controller} (ivs : List ℕ) (hb : s.qhBuf = []) :
    Reached c ivs s eps ↔ Scheduled s.next eps := by
  induction ivs with
  | nil => exact Iff.rfl
  | cons interval ivs ih => simp [Reached,setupInterruptTransfer,hb,ih]

lemma reached_uhci (ivs : List ℕ) (h : Uhci s.next eps)
    (hn : (eps.map Prod.fst ++ s.qhBuf).Nodup) (hp : ∀ e ∈ eps, ∃ k, e.2 = 2 ^ k) :
    Reached .uhci ivs s eps ↔ Ascending (cap eps) (ivs.take s.qhBuf.length) := by
  induction ivs generalizing s eps with
  | nil => exact iff_of_true h.scheduled (by simp [Ascending])
  | cons interval ivs ih =>
    obtain ⟨next,_ | ⟨q,rest⟩⟩ := s
    · exact iff_of_true ((reached_empty _ rfl).mpr h.scheduled) trivial
    have hc := perm_middle.nodup_iff.mp hn
    obtain ⟨hg,hb⟩ := uhci_step h (nodup_append.mp hc).1 hp rfl
    rw [Reached,and_iff_right h.scheduled,length_cons,take_succ_cons,Ascending]
    by_cases hle : cap eps ≤ min (rounded interval) 1024
    · rw [and_iff_right hle]
      exact ih (hg hle) hc (forall_mem_cons.mpr ⟨⟨_,rfl⟩,hp⟩)
    · exact iff_of_false (fun hr => hb (Nat.lt_of_not_le hle) hr.scheduled) fun ha => hle ha.1

lemma enterAll_ehci {l : List ℕ} {q' : ℕ} :
    Controller.ehci.enterAll q l next (.qh q') = next (.qh q') := by
  induction l generalizing next with
  | nil => rfl
  | cons i l ih => simp [Controller.enterAll,ih,Controller.enter]

lemma ehci_path (hn : next' = Controller.ehci.enterAll q (frames p) (update next (.qh q) none))
    (hi : i ∈ frames p) : Path next' (.frame i) [.qh q] none :=
  ⟨by rw [hn,enterAll_frame hi],by rw [Path,hn,enterAll_ehci,update_self]⟩

lemma ehci_once (interval : ℕ) (q : ℕ) (rest : List ℕ) :
    Scheduled (setupInterruptTransfer .ehci interval (Controller.ehci.init (q :: rest))).next
      [(q,rounded interval)] := by
  intro i hi
  by_cases hm : i % rounded interval = 0
  · exact ⟨_,ehci_path rfl (mem_frames.mpr ⟨hi,hm⟩),by simp⟩
  · refine ⟨[],?_,by simp [hm]⟩
    exact enterAll_other (by simp) (by rintro i' hi' ⟨⟩; exact hm (mem_frames.mp hi').2)

lemma reached_ehci {qhBuf : List ℕ} (ivs : List ℕ) (hn : qhBuf.Nodup) :
    Reached .ehci ivs (Controller.ehci.init qhBuf) [] ↔
      (ivs.take qhBuf.length).length ≤ 1 := by
  have hii : Scheduled (Controller.ehci.init qhBuf).next [] := fun i _ => ⟨[],rfl,by simp⟩
  match ivs, qhBuf with
  | [], _ => exact iff_of_true hii (by simp)
  | _ :: _, [] => exact iff_of_true ((reached_empty _ rfl).mpr hii) (by simp)
  | [interval], q :: rest => exact iff_of_true ⟨hii,ehci_once interval q rest⟩ (by simp)
  | interval :: _ :: _, [q] =>
    exact iff_of_true ⟨hii,(reached_empty _ rfl).mpr (ehci_once interval q [])⟩ (by simp)
  | interval :: _ :: _, q :: q' :: rest =>
    refine iff_of_false (fun h => ?_) (by simp)
    obtain ⟨l,hp,hm⟩ := h.2.2.scheduled 0 (by decide)
    rw [hp.unique (ehci_path rfl (zero_mem_frames _))] at hm
    have hin := hm (q,rounded interval) (by simp [Controller.init]) (zero_mod _)
    simp_all

lemma uhci_init {qhBuf : List ℕ} : Uhci (Controller.uhci.init qhBuf).next [] := ⟨rfl,fun _ _ => rfl⟩

theorem interrupt_schedules_iff {qhBuf : List ℕ} (hnodup : qhBuf.Nodup) (c : Controller)
    (intervals : List ℕ) :
    Reached c intervals (c.init qhBuf) [] ↔ Allowed (intervals.take qhBuf.length) c := by
  cases c with
  | uhci => exact reached_uhci intervals uhci_init hnodup (by simp)
  | ehci => exact reached_ehci intervals hnodup

theorem interrupt_schedules_started :
    [2,3,4,5].Nodup ∧ Reached .uhci [1,2,2,8] (Controller.uhci.init [2,3,4,5]) [] :=
  ⟨by decide,(interrupt_schedules_iff (by decide) .uhci [1,2,2,8]).mpr
    (by simp [Allowed,Ascending,rounded,shifts])⟩

theorem interrupt_schedules_lost : ¬ Reached .uhci [2,1] (Controller.uhci.init [2,3]) [] ∧
    ¬ Reached .ehci [1,2] (Controller.ehci.init [1,2]) [] := by
  rw [reached_ehci [1,2] (by decide)]
  refine ⟨fun h => ?_,by decide⟩
  have := (reached_uhci [2,1] uhci_init (by decide) (by simp)).mp h
  simp [cap,Ascending,rounded,shifts,Controller.init] at this

end

end Usb
