import RaphKernel.Library.Loop
import RaphKernel.Timer

namespace Dev
open Raph Loop Function BitVec Nat

structure Hpet where
  reg : ℕ → Word
  cntClkPeriod : Word
  tableNum : BitVec 32

namespace Hpet

def kRegGenCap : ℕ := 0x0 / 8

def kRegGenConfig : ℕ := 0x10 / 8

def kBaseRegTmrConfigCap : ℕ := 0x100 / 8

def kBaseRegFsbIntRoute : ℕ := 0x110 / 8

def getRegTmrOfN (n base : ℕ) : ℕ := base + n * 0x20 / 8

def kRegGenConfigFlagEnable : Word := 1 <<< 0

def kRegGenConfigFlagLegacy : Word := 1 <<< 1

def kRegGenCapOffsetMainCntPeriod : ℕ := 32

def kRegGenCapMaskMainCntPeriod : Word := 0xffffffff00000000

def kRegGenCapLegacyRoute : Word := 1 <<< 15

def kRegGenCapOffsetNumTimer : ℕ := 8

def kRegGenCapMaskNumTimer : Word := 0x1F00

def kRegTmrConfigCapBaseFlagIntEnable : Word := 1 <<< 2

def kRegTmrConfigCapBaseFlagFsbEnable : Word := 1 <<< 14

def disable (reg : ℕ → Word) (table : ℕ) : ℕ → Word :=
  let config := getRegTmrOfN table kBaseRegTmrConfigCap
  update (update reg config (reg config &&&
    (~~~kRegTmrConfigCapBaseFlagIntEnable &&& ~~~kRegTmrConfigCapBaseFlagFsbEnable)))
    kBaseRegFsbIntRoute 0

def setFlag (reg : ℕ → Word) (i : ℕ) (flag : Word) : ℕ → Word :=
  update reg i (reg i ||| flag)

def enable (reg : ℕ → Word) : ℕ → Word :=
  let reg := setFlag reg kRegGenConfig kRegGenConfigFlagEnable
  if reg kRegGenCap &&& kRegGenCapLegacyRoute ≠ 0 then
    setFlag reg kRegGenConfig kRegGenConfigFlagLegacy
  else reg

def setupSub (hpet : Hpet) (dt : Option (ℕ → Word)) : Except Panic (Bool × Hpet) :=
  match dt with
  | none => .ok (false,hpet)
  | some reg =>
    let cntClkPeriod := ((reg kRegGenCap &&& kRegGenCapMaskMainCntPeriod) >>>
      kRegGenCapOffsetMainCntPeriod) / (1000 * 1000)
    let tableNum : BitVec 32 := (((reg kRegGenCap &&& kRegGenCapMaskNumTimer) >>>
      kRegGenCapOffsetNumTimer) + 1).setWidth 32
    if tableNum = 0 then kernelPanic "hpet" "not enough hpet timer"
    else .ok (true,⟨enable ((List.range tableNum.toNat).foldl disable reg),cntClkPeriod,tableNum⟩)

def femtoseconds (reg : ℕ → Word) : ℕ := (reg kRegGenCap).toNat / 2 ^ 32

lemma period_field (cap : Word) :
    ((cap &&& kRegGenCapMaskMainCntPeriod) >>> kRegGenCapOffsetMainCntPeriod).toNat =
      cap.toNat / 2 ^ 32 := by
  have hm : kRegGenCapMaskMainCntPeriod >>> kRegGenCapOffsetMainCntPeriod =
      BitVec.ofNat 64 (2 ^ 32 - 1) := by decide
  have hlt := cap.isLt
  rw [ushiftRight_and_distrib,hm,toNat_and,toNat_ushiftRight,
    BitVec.toNat_ofNat,mod_eq_of_lt (by norm_num),and_two_pow_sub_one_eq_mod,
    shiftRight_eq_div_pow]
  exact mod_eq_of_lt (by simp only [kRegGenCapOffsetMainCntPeriod]; omega)

lemma tableNum_ne (cap : Word) : (((cap &&& kRegGenCapMaskNumTimer) >>>
    kRegGenCapOffsetNumTimer) + 1).setWidth 32 ≠ (0 : BitVec 32) := by
  have hf : ((cap &&& kRegGenCapMaskNumTimer) >>> kRegGenCapOffsetNumTimer).toNat ≤ 31 := by
    rw [toNat_ushiftRight,toNat_and,shiftRight_eq_div_pow]
    have hle : cap.toNat &&& kRegGenCapMaskNumTimer.toNat ≤ 0x1F00 := and_le_right
    simp only [kRegGenCapOffsetNumTimer]
    omega
  intro hz
  have hna := congrArg BitVec.toNat hz
  have ho : (1 : Word).toNat = 1 := rfl
  have hn : (0 : BitVec 32).toNat = 0 := rfl
  rw [BitVec.toNat_setWidth,toNat_add,ho,hn] at hna
  omega

lemma setupSub_period (hpet : Hpet) (reg : ℕ → Word) : ∃ hpet', setupSub hpet (some reg) = .ok (true,hpet') ∧
    hpet'.cntClkPeriod.toNat = femtoseconds reg / 1000000 := by
  refine ⟨_,if_neg (tableNum_ne _),?_⟩
  rw [BitVec.toNat_udiv,period_field]
  rfl

end Hpet

end Dev

namespace Timer
open Raph Loop

def busyBody (read : ℕ → Word) (time : Word) (k : ℕ) : Sum ℕ ℕ :=
  if isTimePassed (read k) time then .inr k else .inl (k + 1)

def busyUwait (cntClkPeriod : Word) (read : ℕ → Word) (us : BitVec 32) (fuel : ℕ) : Option ℕ :=
  iterate (busyBody read (getCntAfterPeriod cntClkPeriod (read 0) us)) fuel 1

def counts (cntClkPeriod us : ℕ) : ℕ := us * 1000 / cntClkPeriod

structure Clock (cur : Word) (ticks : ℕ → ℕ) : Prop where
  start : ticks 0 = 0
  advances : Monotone ticks

def Clock.read (cur : Word) (ticks : ℕ → ℕ) (k : ℕ) : Word := cur + BitVec.ofNat 64 (ticks k)

structure OnTime (cntClkPeriod : Word) (femtoseconds : ℕ) (cur : Word) (us : BitVec 32) : Prop where
  divides : cntClkPeriod ≠ 0
  covers : us.toNat * 10 ^ 9 ≤ (getCntAfterPeriod cntClkPeriod cur us - cur).toNat * femtoseconds
  waits : ∀ ticks, Clock cur ticks → ∀ fuel k,
    busyUwait cntClkPeriod (Clock.read cur ticks) us fuel = some k →
      us.toNat * 10 ^ 9 ≤ ticks k * femtoseconds

structure Compensated (femtoseconds : ℕ) (us : ℕ) : Prop where
  nanosecond : 1000000 ≤ femtoseconds
  gain : us * 1000 % (femtoseconds / 1000000) * 1000000 ≤
    counts (femtoseconds / 1000000) us * (femtoseconds % 1000000)

section
variable {clk cur : Word} {us : BitVec 32} {femtoseconds : ℕ} {ticks : ℕ → ℕ}

lemma getCntAfterPeriod_eq (hus : us.msb = false) : getCntAfterPeriod clk cur us =
      cur + BitVec.ofNat 64 (counts clk.toNat us.toNat) := by
  have hlt := us.isLt
  have ht : (1000 : Word).toNat = 1000 := rfl
  have hn : (us.signExtend 64 * 1000).toNat = us.toNat * 1000 := by
    rw [BitVec.signExtend_eq_setWidth_of_msb_false hus,BitVec.toNat_mul,BitVec.toNat_setWidth,ht]
    omega
  rw [getCntAfterPeriod]
  congr 1
  apply BitVec.eq_of_toNat_eq
  have hle : us.toNat * 1000 / clk.toNat ≤ us.toNat * 1000 := Nat.div_le_self _ _
  rw [BitVec.toNat_udiv,hn,BitVec.toNat_ofNat,counts,Nat.mod_eq_of_lt (by omega)]

lemma counts_lt (p : ℕ) (us : BitVec 32) : counts p us.toNat < 2 ^ 60 := by
  have hlt := us.isLt
  have hle : us.toNat * 1000 / p ≤ us.toNat * 1000 := Nat.div_le_self _ _
  rw [counts]
  omega

lemma elapsed_eq (hus : us.msb = false) :
    (getCntAfterPeriod clk cur us - cur).toNat = counts clk.toNat us.toNat := by
  have hlt := counts_lt clk.toNat us
  rw [getCntAfterPeriod_eq hus,BitVec.add_comm,BitVec.add_sub_cancel,BitVec.toNat_ofNat,
    Nat.mod_eq_of_lt (by omega)]

-- the first division shortens the period by a remainder that every count gives back
lemma covers_iff (femtoseconds us : ℕ) :
    us * 10 ^ 9 ≤ counts (femtoseconds / 1000000) us * femtoseconds ↔
      us * 1000 % (femtoseconds / 1000000) * 1000000 ≤
        counts (femtoseconds / 1000000) us * (femtoseconds % 1000000) := by
  have hpe := Nat.div_add_mod femtoseconds 1000000
  have hc := Nat.div_add_mod (us * 1000) (femtoseconds / 1000000)
  generalize hp : femtoseconds / 1000000 = p at *
  generalize hr : femtoseconds % 1000000 = r at *
  have ht : counts p us * femtoseconds = p * counts p us * 1000000 + counts p us * r := by
    rw [← hpe]
    ring
  have hw : us * 10 ^ 9 = p * counts p us * 1000000 + us * 1000 % p * 1000000 := by
    rw [← Nat.add_mul,counts,hc]
    ring
  rw [ht,hw]
  omega

lemma busyUwait_passed {k fuel : ℕ} {read : ℕ → Word}
    (h : busyUwait clk read us fuel = some k) :
    isGreater (read k) (getCntAfterPeriod clk (read 0) us) = true := by
  have hpa : ∀ n i, iterate (busyBody read (getCntAfterPeriod clk (read 0) us)) n i =
      some k → isGreater (read k) (getCntAfterPeriod clk (read 0) us) = true := by
    intro n
    induction n with
    | zero => exact fun i hi => nomatch hi
    | succ n ih =>
      intro i hi
      rw [iterate,busyBody] at hi
      split_ifs at hi with hp
      · cases hi
        exact hp
      · exact ih _ hi
  exact hpa fuel 1 h

lemma Clock.read_zero (h : Clock cur ticks) : Clock.read cur ticks 0 = cur := by
  rw [Clock.read,h.start]
  exact BitVec.add_zero cur

lemma Clock.still (cur : Word) : Clock cur fun _ => 0 := ⟨rfl,fun _ _ _ => le_rfl⟩

lemma waits_of_covers (hus : us.msb = false)
    (hc : us.toNat * 10 ^ 9 ≤ counts clk.toNat us.toNat * femtoseconds)
    (hs : ¬ Wraps cur (counts clk.toNat us.toNat)) (hcl : Clock cur ticks) {fuel k : ℕ}
    (hr : busyUwait clk (Clock.read cur ticks) us fuel = some k) :
    us.toNat * 10 ^ 9 ≤ ticks k * femtoseconds := by
  have hp := busyUwait_passed hr
  rw [hcl.read_zero,getCntAfterPeriod_eq hus,Clock.read] at hp
  have hlt := counts_lt clk.toNat us
  have hle : counts clk.toNat us.toNat ≤ ticks k := by
    by_contra he
    rcases (isGreater_elapsed cur hlt (by omega)).mp hp with hle | ⟨hw,_⟩
    · exact he hle
    · exact hs hw
  exact hc.trans (Nat.mul_le_mul_right femtoseconds hle)

lemma wraps_returns (hus : us.msb = false) (hw : Wraps cur (counts clk.toNat us.toNat)) :
    busyUwait clk (Clock.read cur fun _ => 0) us 1 = some 1 := by
  have hlt := counts_lt clk.toNat us
  have hc := cur.isLt
  have hp : isTimePassed (Clock.read cur (fun _ => 0) 1)
      (getCntAfterPeriod clk (Clock.read cur (fun _ => 0) 0) us) = true := by
    rw [(Clock.still cur).read_zero,getCntAfterPeriod_eq hus]
    have hs := not_le.mpr hc
    exact (isGreater_elapsed cur hlt (by norm_num)).mpr (.inr ⟨hw,hs⟩)
  rw [busyUwait,iterate,busyBody,if_pos hp]

lemma onTime_iff (hus : us.msb = false) (hp : clk.toNat = femtoseconds / 1000000) :
    OnTime clk femtoseconds cur us ↔ Compensated femtoseconds us.toNat ∧
      (us = 0 ∨ ¬ Wraps cur (counts (femtoseconds / 1000000) us.toNat)) := by
  have hz : clk = 0 ↔ femtoseconds < 1000000 := by
    rw [← BitVec.toNat_inj,hp]
    exact Nat.div_eq_zero_iff.trans (by omega)
  rw [← hp]
  constructor
  · rintro ⟨hd,hc,hw⟩
    rw [elapsed_eq hus,hp,covers_iff] at hc
    refine ⟨⟨not_lt.mp (mt hz.mpr hd),hc⟩,?_⟩
    by_contra hb
    obtain ⟨hne,hwr⟩ := not_or.mp hb
    have he := hw _ (Clock.still cur) 1 1 (wraps_returns hus (not_not.mp hwr))
    rw [Nat.zero_mul] at he
    have hna : us.toNat = 0 := by omega
    exact hne (BitVec.eq_of_toNat_eq hna)
  · rintro ⟨⟨hn,hg⟩,hs⟩
    have hc := (covers_iff femtoseconds us.toNat).mpr hg
    rw [← hp] at hc
    refine ⟨mt hz.mp (not_lt.mpr hn),?_,fun ticks hcl fuel k hr => ?_⟩
    · rw [elapsed_eq hus]
      exact hc
    · rcases hs with rfl | hs
      · exact Nat.zero_le _
      · exact waits_of_covers hus hc hs hcl hr

end

end Timer

namespace Dev.Hpet
open Raph Timer

theorem setup_onTime_iff (hpet : Hpet) (reg : ℕ → Word) (cur : Word) (us : BitVec 32)
    (hus : 0 ≤ us.toInt) : ∃ hpet', setupSub hpet (some reg) = .ok (true,hpet') ∧
    (OnTime hpet'.cntClkPeriod (femtoseconds reg) cur us ↔ Compensated (femtoseconds reg) us.toNat ∧
        (us = 0 ∨ ¬ Wraps cur (counts (femtoseconds reg / 1000000) us.toNat))) := by
  obtain ⟨hpet',hs,hp⟩ := setupSub_period hpet reg
  have hm : us.msb = false := by
    rw [BitVec.msb_eq_toInt,decide_eq_false_iff_not]
    exact not_lt.mpr hus
  exact ⟨hpet',hs,onTime_iff hm hp⟩

def idle : Hpet := ⟨fun _ => 0,1,0⟩

theorem setup_onTime_iff_tenMegahertz : 0 ≤ (1 : BitVec 32).toInt ∧
    ∃ hpet', setupSub idle (some fun _ => 100000000 <<< 32) = .ok (true,hpet') ∧
      OnTime hpet'.cntClkPeriod 100000000 0 1 := by
  refine ⟨by decide,?_⟩
  obtain ⟨hpet',hs,hif⟩ := setup_onTime_iff idle (fun _ => 100000000 <<< 32) 0 1 (by decide)
  refine ⟨hpet',hs,hif.mpr ⟨⟨by decide,by decide⟩,.inr ?_⟩⟩
  unfold Wraps
  decide

theorem setup_early : (∃ hpet', setupSub idle (some fun _ => 69841279 <<< 32) = .ok (true,hpet') ∧
      (getCntAfterPeriod hpet'.cntClkPeriod 0 1 - 0).toNat * 69841279 < 1 * 10 ^ 9 ∧
      busyUwait hpet'.cntClkPeriod (Clock.read 0 fun k => 14 * k) 1 1 = some 1) ∧
    ∃ hpet', setupSub idle (some fun _ => 999999 <<< 32) = .ok (true,hpet') ∧
      hpet'.cntClkPeriod = 0 := by
  obtain ⟨hpet,hs,hp⟩ := setupSub_period idle fun _ => 69841279 <<< 32
  obtain ⟨hpet',hs',hp'⟩ := setupSub_period idle fun _ => 999999 <<< 32
  have hc : hpet.cntClkPeriod = 69 := BitVec.eq_of_toNat_eq hp
  refine ⟨⟨hpet,hs,?_,?_⟩,hpet',hs',BitVec.eq_of_toNat_eq hp'⟩
  · rw [hc]
    decide
  · rw [hc]
    decide

end Dev.Hpet
