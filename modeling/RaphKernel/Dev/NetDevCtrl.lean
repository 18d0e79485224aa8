import Mathlib.Data.List.Nodup
import RaphKernel.Libc

namespace Dev
open Bytes Libc List

def kMaxDevNumber : ℕ := 32

def kNetworkInterfaceNameLen : ℕ := 8

structure NetDevCtrl (D : Type) where
  devTable : List D
  name : D → List Byte

structure Registration (D : Type) where
  dev : D
  ifname : CString
  stack : ℕ → Byte

namespace NetDevCtrl
variable {D : Type}

def digit (number : ℕ) : Byte := BitVec.ofNat 8 (number + 48)

def buildName (number : ℕ) (ifname : CString) (name : ℕ → Byte) : ℕ → Byte :=
  let name := overwrite name 0 (strncpy ifname.mem ifname.strlen)
  let name := overwrite name ifname.strlen [digit number]
  overwrite name (ifname.strlen + 1) [0]

def setName [DecidableEq D] (c : NetDevCtrl D) (dev : D) (name : ℕ → Byte) : NetDevCtrl D :=
  {c with name := Function.update c.name dev (strncpy name kNetworkInterfaceNameLen)}

def registerDevice [DecidableEq D] (c : NetDevCtrl D) (r : Registration D) : Bool × NetDevCtrl D :=
  if c.devTable.length < kMaxDevNumber then
    let c' := c.setName r.dev (buildName c.devTable.length r.ifname r.stack)
    (true,{c' with devTable := c'.devTable ++ [r.dev]})
  else (false,c)

def scan (c : NetDevCtrl D) (name : CString) : ℕ → Option ℕ
  | 0 => none
  | i + 1 =>
    match c.devTable[i]? with
    | none => scan c name i
    | some dev =>
      if strncmp (fun j => ((c.name dev)[j]?).getD 0) name.mem name.strlen = 0 then some i
      else scan c name i

def getDeviceInfo (c : NetDevCtrl D) (name : CString) : Option ℕ := c.scan name c.devTable.length

def getName (c : NetDevCtrl D) (dev : D) : List Byte := text (c.name dev)

def nameAt (c : NetDevCtrl D) (i : ℕ) (name : List Byte) : Prop :=
  ∃ dev, c.devTable[i]? = some dev ∧ c.getName dev = name

def Matches (c : NetDevCtrl D) (q : CString) (i : ℕ) : Prop := ∃ name, c.nameAt i name ∧ q.chars <+: name

structure Looked (c : NetDevCtrl D) (q : CString) : Prop where
  found : ∀ i, c.getDeviceInfo q = some i → c.nameAt i q.chars
  null_iff : c.getDeviceInfo q = none ↔ ∀ dev ∈ c.devTable, c.getName dev ≠ q.chars

def Unshadowed (c : NetDevCtrl D) (q : CString) : Prop :=
  ∀ j name, c.nameAt j name → q.chars <+: name → name ≠ q.chars → ∃ i, j < i ∧ c.nameAt i q.chars

section
variable {c : NetDevCtrl D} {q : CString} {i j n : ℕ}

lemma scan_succ (c : NetDevCtrl D) (q : CString) (i : ℕ) :
    c.Matches q i ∧ c.scan q (i + 1) = some i ∨ ¬ c.Matches q i ∧ c.scan q (i + 1) = c.scan q i := by
  rw [scan]
  cases hd : c.devTable[i]? with
  | none => exact .inr ⟨by simp [Matches,nameAt,hd],rfl⟩
  | some dev =>
    have hm : c.Matches q i ↔ strncmp (fun j => ((c.name dev)[j]?).getD 0) q.mem q.strlen = 0 := by
      rw [strncmp_eq_zero,text_compare]
      simp [Matches,nameAt,hd,getName]
    rw [hm]
    by_cases h : strncmp (fun j => ((c.name dev)[j]?).getD 0) q.mem q.strlen = 0
    · exact .inl ⟨h,if_pos h⟩
    · exact .inr ⟨h,if_neg h⟩

lemma scan_some (h : c.scan q n = some i) : c.Matches q i ∧ ∀ j, i < j → j < n → ¬ c.Matches q j := by
  induction n with
  | zero => cases h
  | succ n ih =>
    rcases c.scan_succ q n with ⟨hm,hs⟩ | ⟨hmi,hs⟩
    · cases hs.symm.trans h
      exact ⟨hm,fun j hij hj => by omega⟩
    · obtain ⟨hm,hl⟩ := ih (hs.symm.trans h)
      refine ⟨hm,fun j hij hj => ?_⟩
      rcases Nat.lt_succ_iff_lt_or_eq.mp hj with hj | rfl
      · exact hl j hij hj
      · exact hmi

lemma scan_none (h : c.scan q n = none) (hj : j < n) : ¬ c.Matches q j := by
  induction n with
  | zero => exact absurd hj (Nat.not_lt_zero j)
  | succ n ih =>
    rcases c.scan_succ q n with ⟨_,hs⟩ | ⟨hm,hs⟩
    · cases hs.symm.trans h
    · rcases Nat.lt_succ_iff_lt_or_eq.mp hj with hj | rfl
      · exact ih (hs.symm.trans h) hj
      · exact hm

lemma nameAt_lt {name : List Byte} (h : c.nameAt i name) : i < c.devTable.length := by
  obtain ⟨dev,hd,_⟩ := h
  exact (List.getElem?_eq_some_iff.mp hd).1

lemma Looked.unshadowed (h : c.Looked q) : c.Unshadowed q := by
  intro j name hn hl hne
  cases hs : c.getDeviceInfo q with
  | none => exact absurd ⟨name,hn,hl⟩ (scan_none hs (nameAt_lt hn))
  | some i =>
    have he := h.1 i hs
    refine ⟨i,?_,he⟩
    have hla := (scan_some hs).2 j
    rcases Nat.lt_trichotomy j i with hlt | rfl | hgt
    · exact hlt
    · obtain ⟨dev,hd,rfl⟩ := hn
      obtain ⟨dev',hd',heq⟩ := he
      cases hd.symm.trans hd'
      exact absurd heq hne
    · exact absurd ⟨name,hn,hl⟩ (hla hgt (nameAt_lt hn))

lemma Unshadowed.exact (h : c.Unshadowed q) (hs : c.getDeviceInfo q = some i) :
    c.nameAt i q.chars := by
  obtain ⟨⟨name,hn,hlo⟩,hl⟩ := scan_some hs
  by_cases heq : name = q.chars
  · exact heq ▸ hn
  · obtain ⟨k,hik,hk⟩ := h i name hn hlo heq
    exact absurd ⟨q.chars,hk,prefix_rfl⟩ (hl k hik (nameAt_lt hk))

lemma looked_iff : c.Looked q ↔ c.Unshadowed q := by
  refine ⟨Looked.unshadowed,fun h => ⟨fun i => h.exact,fun hs dev hd heq => ?_,fun hno => ?_⟩⟩
  · obtain ⟨j,hj⟩ := mem_iff_getElem?.mp hd
    have hn : c.nameAt j q.chars := ⟨dev,hj,heq⟩
    exact scan_none hs (nameAt_lt hn) ⟨q.chars,hn,prefix_rfl⟩
  · cases hs : c.getDeviceInfo q with
    | none => rfl
    | some i =>
      obtain ⟨dev,hd,heq⟩ := h.exact hs
      exact absurd heq (hno dev (mem_of_getElem? hd))

end

section
variable {number k : ℕ} {ifname ifname' : CString}

def assigned (number : ℕ) (ifname : CString) : List Byte := ifname.chars ++ [digit number]

lemma digit_ne_zero (h : number < kMaxDevNumber) : digit number ≠ 0 := by
  intro hz
  have ht : (number + 48) % 256 = 0 := congrArg BitVec.toNat hz
  unfold kMaxDevNumber at h
  omega

lemma digit_inj (hn : number < kMaxDevNumber) (hk : k < kMaxDevNumber)
    (h : digit number = digit k) : number = k := by
  have ht : (number + 48) % 256 = (k + 48) % 256 := congrArg BitVec.toNat h
  unfold kMaxDevNumber at hn hk
  omega

lemma overwrite_head (m : ℕ → Byte) (start : ℕ) (b : Byte) : overwrite m start [b] start = b := by
  simp [overwrite]

lemma overwrite_start (m : ℕ → Byte) {data : List Byte} {i : ℕ} (h : i < data.length) :
    overwrite m 0 data i = data.get ⟨i,h⟩ := by
  simp [overwrite,h]

lemma buildName_text (hn : number < kMaxDevNumber) (hlen : ifname.strlen ≤ 6) (stack : ℕ → Byte) :
    text (strncpy (buildName number ifname stack) kNetworkInterfaceNameLen) =
      assigned number ifname := by
  have hc : strncpy ifname.mem ifname.strlen = ifname.chars :=
    strncpy_length ifname.nonzero fun i hi => ifname.mem_lt hi
  have hl : (assigned number ifname).length = ifname.strlen + 1 := by
    simp [assigned,CString.strlen]
  refine text_strncpy ?_ ?_ ?_ fun i hi => ?_
  · simp only [assigned,mem_append,mem_singleton,not_or]
    exact ⟨ifname.nonzero,(digit_ne_zero hn).symm⟩
  · rw [hl]
    exact overwrite_head _ _ _
  · rw [hl,kNetworkInterfaceNameLen]
    omega
  · rw [hl] at hi
    rw [buildName,overwrite_before _ _ hi]
    rcases Nat.lt_succ_iff_lt_or_eq.mp hi with hlt | rfl
    · have hin : overwrite stack 0 ifname.chars i = ifname.chars.get ⟨i,hlt⟩ :=
        overwrite_start stack hlt
      rw [overwrite_before _ _ hlt,hc,hin]
      simp [assigned,getElem_append_left (show i < ifname.chars.length from hlt)]
    · rw [overwrite_head]
      simp [assigned,CString.strlen]

lemma assigned_inj (hn : number < kMaxDevNumber) (hk : k < kMaxDevNumber)
    (h : assigned number ifname = assigned k ifname') : number = k :=
  digit_inj hn hk (singleton_inj.mp (append_inj' h rfl).2)

structure Named (c : NetDevCtrl D) : Prop where
  bound : c.devTable.length ≤ kMaxDevNumber
  numbered : ∀ dev ∈ c.devTable, ∃ k ifname, c.devTable[k]? = some dev ∧ c.getName dev = assigned k ifname

lemma Named.unique {c : NetDevCtrl D} (h : Named c) {dev dev' : D} (hd : dev ∈ c.devTable) (hd' : dev' ∈ c.devTable)
    (heq : c.getName dev = c.getName dev') : dev = dev' := by
  obtain ⟨k,ifname,hk,hn⟩ := h.numbered dev hd
  obtain ⟨k',ifname',hk',hn'⟩ := h.numbered dev' hd'
  have hlt := (List.getElem?_eq_some_iff.mp hk).1
  have hlt' := (List.getElem?_eq_some_iff.mp hk').1
  rw [hn,hn'] at heq
  obtain rfl := assigned_inj (hlt.trans_le h.bound) (hlt'.trans_le h.bound) heq
  exact Option.some.inj (hk.symm.trans hk')

end

section
variable [DecidableEq D] {c c' : NetDevCtrl D} {r : Registration D} {rs : List (Registration D)}

def registerAll : List (Registration D) → NetDevCtrl D → Option (NetDevCtrl D)
  | [], c => some c
  | r :: rs, c =>
    match c.registerDevice r with
    | (true,c') => registerAll rs c'
    | (false,_) => none

def names : List (Registration D) → NetDevCtrl D → List (List Byte)
  | [], _ => []
  | r :: rs, c => (c.registerDevice r).2.getName r.dev :: names rs (c.registerDevice r).2

structure Registered (c : NetDevCtrl D) (r : Registration D) (c' : NetDevCtrl D) : Prop where
  room : c.devTable.length < kMaxDevNumber
  table : c'.devTable = c.devTable ++ [r.dev]
  name : r.ifname.strlen ≤ 6 → c'.getName r.dev = assigned c.devTable.length r.ifname
  others : ∀ dev, dev ≠ r.dev → c'.getName dev = c.getName dev

lemma registerDevice_true (h : c.registerDevice r = (true,c')) : Registered c r c' := by
  unfold registerDevice at h
  split_ifs at h with hr
  · obtain rfl := (Prod.mk.inj h).2
    refine ⟨hr,rfl,fun hlen => ?_,fun dev hne => ?_⟩
    · have hn := buildName_text hr hlen r.stack
      simpa [getName,setName] using hn
    · simp [getName,setName,Function.update_of_ne hne]
  · cases h

lemma registerAll_cons (h : registerAll (r :: rs) c = some c') :
    ∃ d, c.registerDevice r = (true,d) ∧ Registered c r d ∧ registerAll rs d = some c' := by
  rw [registerAll] at h
  rcases hr : c.registerDevice r with ⟨flag,d⟩
  rw [hr] at h
  cases flag with
  | false => cases h
  | true => exact ⟨d,rfl,registerDevice_true hr,h⟩

section
variable (hlen : ∀ r ∈ rs, r.ifname.strlen ≤ 6) (h : registerAll rs c = some c')
include hlen h

lemma names_assigned :
    ∀ name ∈ names rs c, ∃ k ifname, c.devTable.length ≤ k ∧ k < kMaxDevNumber ∧
      name = assigned k ifname := by
  induction rs generalizing c with
  | nil => exact fun name hn => nomatch hn
  | cons r rs ih =>
    obtain ⟨d,hre,hd,hr⟩ := registerAll_cons h
    intro name hn
    rw [names,hre] at hn
    rcases mem_cons.mp hn with rfl | hn
    · exact ⟨_,r.ifname,le_rfl,hd.room,hd.name (hlen r mem_cons_self)⟩
    · obtain ⟨k,ifname,hk,hm,rfl⟩ := ih (fun r' hr' => hlen r' (mem_cons_of_mem r hr')) hr name hn
      rw [hd.table,length_append] at hk
      exact ⟨k,ifname,by omega,hm,rfl⟩

lemma names_nodup : (names rs c).Nodup := by
  induction rs generalizing c with
  | nil => exact nodup_nil
  | cons r rs ih =>
    obtain ⟨d,hre,hd,hr⟩ := registerAll_cons h
    have hle' : ∀ r' ∈ rs, r'.ifname.strlen ≤ 6 := fun r' hr' => hlen r' (mem_cons_of_mem r hr')
    rw [names,hre,nodup_cons]
    refine ⟨fun hm => ?_,ih hle' hr⟩
    obtain ⟨k,ifname,hk,hma,heq⟩ := names_assigned hle' hr _ hm
    rw [hd.name (hlen r mem_cons_self)] at heq
    have hl := assigned_inj hd.room hma heq
    rw [hd.table,length_append,length_singleton] at hk
    omega

end

lemma Named.step (h : Named c) (hr : Registered c r c') (hlen : r.ifname.strlen ≤ 6) : Named c' := by
  refine ⟨?_,fun dev hd => ?_⟩
  · rw [hr.table,length_append,length_singleton]
    exact hr.room
  · rw [hr.table] at hd ⊢
    by_cases heq : dev = r.dev
    · subst heq
      exact ⟨c.devTable.length,r.ifname,by simp,hr.name hlen⟩
    · have ho : dev ∈ c.devTable := by simpa [heq] using hd
      obtain ⟨k,ifname,hk,hn⟩ := h.numbered dev ho
      refine ⟨k,ifname,?_,(hr.others dev heq).trans hn⟩
      rw [getElem?_append_left (List.getElem?_eq_some_iff.mp hk).1,hk]

lemma Named.run (h : Named c) (hlen : ∀ r ∈ rs, r.ifname.strlen ≤ 6)
    (hru : registerAll rs c = some c') : Named c' := by
  induction rs generalizing c with
  | nil =>
    cases hru
    exact h
  | cons r rs ih =>
    obtain ⟨d,_,hd,hr⟩ := registerAll_cons hru
    exact ih (h.step hd (hlen r mem_cons_self)) (fun r' hr' => hlen r' (mem_cons_of_mem r hr')) hr

theorem interface_lookup (name : D → List Byte) (rs : List (Registration D))
    (hlen : ∀ r ∈ rs, r.ifname.strlen ≤ 6) (hrun : registerAll rs ⟨[],name⟩ = some c) :
    (names rs ⟨[],name⟩).Nodup ∧
    (∀ dev ∈ c.devTable, ∀ dev' ∈ c.devTable, c.getName dev = c.getName dev' → dev = dev') ∧
    ∀ q, c.Looked q ↔ c.Unshadowed q := by
  have he : Named (⟨[],name⟩ : NetDevCtrl D) := ⟨Nat.zero_le _,fun dev hd => nomatch hd⟩
  exact ⟨names_nodup hlen hrun,
    fun _ hd _ hd' heq => (he.run hlen hrun).unique hd hd' heq,fun _ => looked_iff⟩

def ethernetName : CString := ⟨[101,116,104],by decide⟩

def secondName : CString := ⟨[101,116,104,48],by decide⟩

def interfaces (second : CString) : List (Registration ℕ) :=
  [⟨0,ethernetName,fun _ => 0⟩,⟨1,second,fun _ => 0⟩]

theorem getDeviceInfo_shadowed : ∃ c : NetDevCtrl ℕ,
    registerAll (interfaces secondName) ⟨[],fun _ => []⟩ = some c ∧
    c.getName 0 = secondName.chars ∧ c.getName 1 ≠ secondName.chars ∧
    c.getDeviceInfo secondName = some 1 ∧
    (∀ dev ∈ c.devTable, c.getName dev ≠ ethernetName.chars) ∧
    c.getDeviceInfo ethernetName = some 1 :=
  ⟨_,rfl,by decide,by decide,by decide,by decide,by decide⟩

theorem interface_lookup_pair : ∃ c : NetDevCtrl ℕ,
    (∀ r ∈ interfaces ethernetName, r.ifname.strlen ≤ 6) ∧
    registerAll (interfaces ethernetName) ⟨[],fun _ => []⟩ = some c ∧
    (names (interfaces ethernetName) ⟨[],fun _ => []⟩).Nodup ∧ c.Looked secondName := by
  obtain ⟨c,hr⟩ : ∃ c, registerAll (interfaces ethernetName) ⟨[],fun _ => []⟩ = some c := ⟨_,rfl⟩
  have hlen : ∀ r ∈ interfaces ethernetName, r.ifname.strlen ≤ 6 := by decide
  obtain ⟨hn,_,hlo⟩ := interface_lookup (fun _ => []) _ hlen hr
  have hs : ∀ dev ∈ c.devTable, secondName.chars <+: c.getName dev →
      c.getName dev = secondName.chars := by
    cases hr
    decide
  refine ⟨c,hlen,hr,hn,(hlo secondName).mpr ?_⟩
  rintro j name ⟨dev,hd,rfl⟩ hl hne
  exact absurd (hs dev (mem_of_getElem? hd) hl) hne

end

end NetDevCtrl

end Dev
