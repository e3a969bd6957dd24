import Migfm.Public.RadomIn
import Std.Data.ExtTreeMap.Lemmas

/-! The prize draw: the table in robot/robot/prize_rate.cc, the prizes of the platforms in
robot_cache_manager.cc, and `LuckGiftCalculation` in logic_unit.cc. -/
namespace Migfm.Robot
open Public.RadomIn

/-- The fields start as 0. -/
structure LuckPrize where
  prize : Int := 0
  rate : Int := 0
  min : Int := 0
  max : Int := 0

def LuckPrize.Contains (entry : LuckPrize) (num : Int) : Prop := entry.min ≤ num ∧ num ≤ entry.max

instance (entry : LuckPrize) (num : Int) : Decidable (entry.Contains num) := inferInstanceAs (Decidable (_ ∧ _))

/-- `drawn` counts the calls of `rand()`. -/
structure PrizeRate where
  rate_table_ : List Nat
  gN : Nat
  gM : Nat
  drawn : Nat

namespace PrizeRate
section Draw
variable (rands : Nat → Rand)

/-- The constructor. -/
def create (fuel : Nat) : Option PrizeRate := do
  let table ← rateTable fuel TABLE_SIZE fun k => scaled TABLE_SIZE (rands k)
  return ⟨table,0,0,TABLE_SIZE⟩

/-- A region of the table serves some draws, then the next one. -/
def turn (rate : PrizeRate) : PrizeRate :=
  if rate.gN < 10 then { rate with gN := rate.gN + 1,drawn := rate.drawn + 1 }
  else { rate with gN := 0,gM := (rate.gM + 1) % 100,drawn := rate.drawn + 1 }

/-- The number in the table that `rand()` and the region select. -/
def number (rate : PrizeRate) : Option Nat :=
  rate.rate_table_[scaled (TABLE_SIZE / 100) (rands rate.drawn) + (turn rate).gM * 100]?

/-- The loop over the prizes. -/
def award (num : Int) : List LuckPrize → Int
  | [] => 0
  | entry::prize_info => if entry.Contains num then entry.prize else award num prize_info

/-- `count` is the length of `prize_info`. -/
def GetPrize (prize_info : List LuckPrize) (rate : PrizeRate) : Option (PrizeRate × Int) := do
  let num ← number rands rate
  return (turn rate,award num prize_info)

end Draw
end PrizeRate

structure LuckGiftInfo where
  plat : Int32
  rate : Int
  prize : Int32

abbrev LuckGiftInfoPlatMap := Std.ExtTreeMap Int32 LuckGiftInfo

structure CacheManagerOp where
  luck_gift_infos_ : Std.ExtTreeMap Int32 LuckGiftInfoPlatMap
  prize_ : PrizeRate

namespace CacheManagerOp

def SetLuckGiftInfo (luck : LuckGiftInfo) (op : CacheManagerOp) : CacheManagerOp :=
  let plat_map := op.luck_gift_infos_[luck.plat]?.getD ∅
  { op with luck_gift_infos_ := op.luck_gift_infos_.insert luck.plat (plat_map.insert luck.prize luck) }

def GetLuckGiftInfo (plat : Int32) (op : CacheManagerOp) : Option LuckGiftInfoPlatMap := op.luck_gift_infos_[plat]?

/-- The rates of a platform in the order of its prizes. -/
def rates (plat_map : LuckGiftInfoPlatMap) : List Int := plat_map.toList.map fun entry => entry.2.rate

/-- The loop that fills the array; no outcome: an entry behind its end is written. -/
def setPrizes : List Int → Nat → Int → List LuckPrize → Option (List LuckPrize)
  | [],_,_,prize => some prize
  | rate::rates,j,late_rate,prize =>
    if j < prize.length then
      let min := late_rate + 1
      let max := min + rate - 1
      setPrizes rates (j + 1) max (prize.set j ⟨j + 1,max - min + 1,min,max⟩)
    else none

/-- The arguments of `SendAssistantLuckGift`. -/
structure LuckGift where
  platform_id : Int64
  uid : Int64
  share_plat : Int32
  prize : Int
  songid : Int64

/-- For prize 0, `SendAssistantLuckGift` returns at once. -/
def LuckGift.sent (gift : LuckGift) : Option Int := if gift.prize = 0 then none else some gift.prize

/-- No gift: the platform has no prizes. -/
def LuckGiftCalculation (rands : Nat → Rand) (plat : Int32) (uid songid : Int64) (op : CacheManagerOp) :
    Option (CacheManagerOp × Option LuckGift) :=
  match op.GetLuckGiftInfo plat with
  | none => some (op,none)
  | some plat_map => do
    let prize ← setPrizes (rates plat_map) 0 (-1) (List.replicate 3 {})
    let (prize_,_) ← op.prize_.GetPrize rands prize
    -- `prize_result` is set to 1 after the draw
    return ({ op with prize_ },some ⟨10000,uid,plat,1,songid⟩)

/-- States after the prizes are loaded and gifts are drawn, in any order. -/
inductive Reached (fuel : Nat) (rands : Nat → Rand) : CacheManagerOp → Prop
  | start {prize_ : PrizeRate} (built : PrizeRate.create rands fuel = some prize_) : Reached fuel rands ⟨∅,prize_⟩
  | load {op : CacheManagerOp} (reached : Reached fuel rands op) (luck : LuckGiftInfo) : Reached fuel rands (op.SetLuckGiftInfo luck)
  | draw {op after : CacheManagerOp} (reached : Reached fuel rands op) {plat : Int32} {uid songid : Int64} {gift : Option LuckGift}
    (drew : LuckGiftCalculation rands plat uid songid op = some (after,gift)) : Reached fuel rands after

/-- The entries of a platform's prizes are apart, and each has as many numbers of the table as its rate. -/
structure Shares (op : CacheManagerOp) (rates : List Int) (prize : List LuckPrize) : Prop where
  apart : ∀ (num : Int) (j k : Nat) (first second : LuckPrize), j < rates.length → k < rates.length → prize[j]? = some first →
    prize[k]? = some second → first.Contains num → second.Contains num → j = k
  shares : ∀ (j : Nat) (rate : Int), rates[j]? = some rate → ∃ entry, prize[j]? = some entry ∧ entry.prize = j + 1 ∧
    (op.prize_.rate_table_.countP fun num : Nat => decide (entry.Contains num)) = rate

/-- The draw for a platform is fair, and what is sent is the prize that holds the number, if one does. -/
structure Fair (rands : Nat → Rand) (op : CacheManagerOp) (plat : Int32) (uid songid : Int64) (plat_map : LuckGiftInfoPlatMap) : Prop where
  table : op.prize_.rate_table_.Perm (List.range TABLE_SIZE)
  follows : ∃ prize num after gift, setPrizes (rates plat_map) 0 (-1) (List.replicate 3 {}) = some prize ∧ Shares op (rates plat_map) prize ∧
    op.prize_.number rands = some num ∧ LuckGiftCalculation rands plat uid songid op = some (after,some gift) ∧
    ∀ p, gift.sent = some p ↔ ∃ j entry, j < (rates plat_map).length ∧ prize[j]? = some entry ∧ entry.Contains num ∧ p = entry.prize

/-! ### The intervals -/

/-- The entries that the loop writes. -/
def intervals : List Int → Nat → Int → List LuckPrize
  | [],_,_ => []
  | rate::rates,j,late_rate => ⟨j + 1,rate,late_rate + 1,late_rate + rate⟩::intervals rates (j + 1) (late_rate + rate)

theorem intervals_length (rates : List Int) (j : Nat) (late_rate : Int) : (intervals rates j late_rate).length = rates.length := by
  induction rates generalizing j late_rate with
  | nil => rfl
  | cons rate rates ih => rw [intervals,List.length_cons,List.length_cons,ih]

theorem intervals_get (rates : List Int) (j : Nat) (late_rate : Int) (i : Nat) :
    (intervals rates j late_rate)[i]? = rates[i]?.map fun rate =>
      ⟨j + i + 1,rate,late_rate + (rates.take i).sum + 1,late_rate + (rates.take i).sum + rate⟩ := by
  induction rates generalizing j late_rate i with
  | nil => simp [intervals]
  | cons rate rates ih =>
    cases i with
    | zero => simp [intervals]
    | succ i =>
      rw [intervals,List.getElem?_cons_succ,ih,List.getElem?_cons_succ,List.take_succ_cons,List.sum_cons]
      congr 1
      funext later
      simp only [LuckPrize.mk.injEq,Nat.cast_add,Nat.cast_one,true_and]
      omega

theorem setPrizes_fits {rates : List Int} {j : Nat} {prize : List LuckPrize} (fits : j + rates.length ≤ prize.length) (late_rate : Int) :
    setPrizes rates j late_rate prize = some (prize.take j ++ intervals rates j late_rate ++ prize.drop (j + rates.length)) := by
  induction rates generalizing j late_rate prize with
  | nil => simp [setPrizes,intervals]
  | cons rate rates ih =>
    rw [List.length_cons] at fits
    have inside : j < prize.length := by omega
    have same : late_rate + 1 + rate - 1 = late_rate + rate := by omega
    have size : late_rate + rate - (late_rate + 1) + 1 = rate := by omega
    rw [setPrizes,if_pos inside]
    simp only [same,size]
    have head (entry : LuckPrize) : (prize.set j entry).take (j + 1) = prize.take j ++ [entry] := by
      rw [List.set_eq_take_append_cons_drop,if_pos inside,List.take_append,List.length_take]
      simp [Nat.min_eq_left (Nat.le_of_lt inside),List.take_take]
    have rest (entry : LuckPrize) : (prize.set j entry).drop (j + 1 + rates.length) = prize.drop (j + (rates.length + 1)) := by
      rw [List.drop_set_of_lt (by omega)]
      congr 1
      omega
    rw [ih (by rw [List.length_set]; omega),intervals,head,rest,List.length_cons,List.append_assoc,List.append_assoc,List.append_assoc]
    rfl

theorem setPrizes_full {rates : List Int} {j : Nat} {late_rate : Int} {prize filled : List LuckPrize} (within : j ≤ prize.length)
    (some_ : setPrizes rates j late_rate prize = some filled) : j + rates.length ≤ prize.length := by
  induction rates generalizing j late_rate prize with
  | nil => exact within
  | cons rate rates ih =>
    rw [setPrizes] at some_
    by_cases inside : j < prize.length
    · rw [if_pos inside] at some_
      have rest := ih (by rw [List.length_set]; omega) some_
      rw [List.length_set] at rest
      rw [List.length_cons]
      omega
    · rw [if_neg inside] at some_
      cases some_

/-- The array after the loop: what it did not write holds zeros. -/
theorem setPrizes_array {rates : List Int} (few : rates.length ≤ 3) :
    setPrizes rates 0 (-1) (List.replicate 3 {}) = some (intervals rates 0 (-1) ++ List.replicate (3 - rates.length) ({} : LuckPrize)) := by
  rw [setPrizes_fits (by rw [List.length_replicate]; omega),List.take_zero,List.nil_append,List.drop_replicate,Nat.zero_add]

section Sums
variable {rates : List Int}

theorem sum_take_mono (nonneg : ∀ rate ∈ rates, 0 ≤ rate) {j k : Nat} (order : j ≤ k) : (rates.take j).sum ≤ (rates.take k).sum := by
  obtain ⟨more,rfl⟩ := Nat.exists_eq_add_of_le order
  rw [List.take_add,List.sum_append]
  have rest : 0 ≤ ((rates.drop j).take more).sum := by
    apply List.sum_nonneg
    intro rate member
    exact nonneg rate (List.mem_of_mem_drop (List.mem_of_mem_take member))
  omega

theorem sum_take_succ {j : Nat} {rate : Int} (there : rates[j]? = some rate) : (rates.take (j + 1)).sum = (rates.take j).sum + rate := by
  rw [List.take_add_one,there,List.sum_append]
  simp

/-- The entry of a prize goes from the sum of the rates before it to its own sum. -/
theorem array_entry {j : Nat} {rate : Int} (there : rates[j]? = some rate) (rest : List LuckPrize) :
    (intervals rates 0 (-1) ++ rest)[j]? = some ⟨j + 1,rate,(rates.take j).sum,(rates.take (j + 1)).sum - 1⟩ := by
  obtain ⟨inside,_⟩ := List.getElem?_eq_some_iff.mp there
  rw [List.getElem?_append_left (intervals_length rates 0 (-1) ▸ inside),intervals_get,there,sum_take_succ there,Option.map_some]
  simp only [Option.some.injEq,LuckPrize.mk.injEq,true_and]
  omega

end Sums

/-- The numbers of the table from one bound to another. -/
theorem countP_range (low high size : Nat) :
    (List.range size).countP (fun num => decide (low ≤ num ∧ num < high)) = min high size - min low size := by
  induction size with
  | zero =>
    rw [List.range_zero,List.countP_nil]
    omega
  | succ size ih =>
    rw [List.range_succ,List.countP_append,List.countP_singleton,ih]
    by_cases last : low ≤ size ∧ size < high
    · rw [if_pos (decide_eq_true last)]
      omega
    · rw [if_neg (by rwa [decide_eq_true_eq])]
      omega

section Shares
variable {op : CacheManagerOp} {rates : List Int} {prize : List LuckPrize}

/-- The entry of each rate, from the sum of those before it. -/
def Entries (rates : List Int) (prize : List LuckPrize) : Prop :=
  ∀ (j : Nat) (rate : Int), rates[j]? = some rate → prize[j]? = some ⟨j + 1,rate,(rates.take j).sum,(rates.take (j + 1)).sum - 1⟩

theorem Entries.order (entries : Entries rates prize) (nonneg : ∀ rate ∈ rates, 0 ≤ rate) {num : Int} {j k : Nat} {first second : LuckPrize}
    (before : j < k) (inside : k < rates.length) (one : prize[j]? = some first) (other : prize[k]? = some second) (low : first.Contains num)
    (high : second.Contains num) : False := by
  rw [entries j _ (List.getElem?_eq_getElem (Nat.lt_trans before inside))] at one
  rw [entries k _ (List.getElem?_eq_getElem inside)] at other
  cases one
  cases other
  have apart := @sum_take_mono rates nonneg (j + 1) k before
  exact absurd (Int.le_trans high.1 low.2) (by simp only; omega)

/-- No number has two entries. -/
theorem Entries.apart (entries : Entries rates prize) (nonneg : ∀ rate ∈ rates, 0 ≤ rate) {num : Int} {j k : Nat} {first second : LuckPrize}
    (left : j < rates.length) (right : k < rates.length) (one : prize[j]? = some first) (other : prize[k]? = some second)
    (low : first.Contains num) (high : second.Contains num) : j = k := by
  rcases Nat.lt_trichotomy j k with before | same | after
  · exact (entries.order nonneg before right one other low high).elim
  · exact same
  · exact (entries.order nonneg after left other one high low).elim

theorem Entries.shares (entries : Entries rates prize) (nonneg : ∀ rate ∈ rates, 0 ≤ rate) (bound : rates.sum ≤ TABLE_SIZE)
    (table : op.prize_.rate_table_.Perm (List.range TABLE_SIZE)) : Shares op rates prize := by
  constructor
  · intro num j k first second left right one other low high
    exact entries.apart nonneg left right one other low high
  · intro j rate there
    refine ⟨_,entries j rate there,rfl,?_⟩
    rw [table.countP_eq]
    have start := sum_take_mono nonneg (Nat.zero_le j)
    have last := @sum_take_mono rates nonneg (j + 1) rates.length (List.getElem?_eq_some_iff.mp there).1
    have member := nonneg rate (List.mem_of_getElem? there)
    have next := sum_take_succ there
    rw [List.take_length] at last
    rw [List.take_zero,List.sum_nil] at start
    have count := countP_range (rates.take j).sum.toNat (rates.take (j + 1)).sum.toNat TABLE_SIZE
    have same : (fun num : Nat => decide ((LuckPrize.mk (j + 1) rate (rates.take j).sum ((rates.take (j + 1)).sum - 1)).Contains num)) =
        fun num => decide ((rates.take j).sum.toNat ≤ num ∧ num < (rates.take (j + 1)).sum.toNat) := by
      funext num
      apply decide_eq_decide.mpr
      simp only [LuckPrize.Contains]
      omega
    rw [same,count]
    omega

end Shares

/-! ### The draw -/

/-- The first entry that holds the number gives the prize. -/
theorem award_first {num : Int} {prize : List LuckPrize} {j : Nat} {entry : LuckPrize} (there : prize[j]? = some entry)
    (contains : entry.Contains num) (before : ∀ (i : Nat) (earlier : LuckPrize), i < j → prize[i]? = some earlier → ¬ earlier.Contains num) :
    PrizeRate.award num prize = entry.prize := by
  induction prize generalizing j with
  | nil => cases there
  | cons first prize ih =>
    cases j with
    | zero =>
      cases there
      rw [PrizeRate.award,if_pos contains]
    | succ j =>
      rw [PrizeRate.award,if_neg (before 0 first (Nat.succ_pos j) rfl)]
      apply ih there
      intro i earlier less found
      exact before (i + 1) earlier (Nat.succ_lt_succ less) found

theorem award_none {num : Int} {prize : List LuckPrize} (none_ : ∀ entry ∈ prize, entry.Contains num → entry.prize = 0) :
    PrizeRate.award num prize = 0 := by
  induction prize with
  | nil => rfl
  | cons first prize ih =>
    obtain ⟨this,others⟩ := List.forall_mem_cons.mp none_
    rw [PrizeRate.award]
    split
    · rename_i contains
      exact this contains
    · exact ih others

/-- What `GetPrize` draws is the prize that holds the number, or none: only the step after it goes wrong. -/
theorem award_right {rates : List Int} (nonneg : ∀ rate ∈ rates, 0 ≤ rate) (num : Int) (unused : Nat) (p : Int) (some_ : p ≠ 0) :
    PrizeRate.award num (intervals rates 0 (-1) ++ List.replicate unused ({} : LuckPrize)) = p ↔
      ∃ j entry, j < rates.length ∧ (intervals rates 0 (-1) ++ List.replicate unused ({} : LuckPrize))[j]? = some entry ∧ entry.Contains num ∧
        p = entry.prize := by
  have entries : Entries rates (intervals rates 0 (-1) ++ List.replicate unused ({} : LuckPrize)) := fun j rate there => array_entry there _
  by_cases held : ∃ j entry, j < rates.length ∧ (intervals rates 0 (-1) ++ List.replicate unused ({} : LuckPrize))[j]? = some entry ∧ entry.Contains num
  · obtain ⟨j,entry,inside,there,contains⟩ := held
    have drawn := award_first there contains fun i earlier less found low => entries.order nonneg less inside found there low contains
    rw [drawn]
    constructor
    · rintro rfl
      exact ⟨j,entry,inside,there,contains,rfl⟩
    · rintro ⟨k,other,within,found,holds,rfl⟩
      obtain rfl := entries.apart nonneg inside within there found contains holds
      rw [there] at found
      cases found
      rfl
  · have drawn : PrizeRate.award num (intervals rates 0 (-1) ++ List.replicate unused ({} : LuckPrize)) = 0 := by
      apply award_none
      intro entry member contains
      obtain member | member := List.mem_append.mp member
      · obtain ⟨j,inside,there⟩ := List.mem_iff_getElem.mp member
        refine absurd ⟨j,entry,intervals_length rates 0 (-1) ▸ inside,?_,contains⟩ held
        rw [List.getElem?_append_left inside,List.getElem?_eq_getElem inside,there]
      · rw [List.eq_of_mem_replicate member]
    rw [drawn]
    constructor
    · intro same
      exact absurd same.symm some_
    · rintro ⟨j,entry,inside,there,contains,_⟩
      exact absurd ⟨j,entry,inside,there,contains⟩ held

end CacheManagerOp

/-! ### Reached states -/

structure PrizeRate.Whole (rate : PrizeRate) : Prop where
  table : rate.rate_table_.Perm (List.range TABLE_SIZE)
  region : rate.gM < 100

namespace PrizeRate

theorem create_whole {fuel : Nat} (enough : TABLE_SIZE ≤ fuel) (rands : Nat → Rand) : ∃ rate, create rands fuel = some rate ∧ Whole rate := by
  have inside (k : Nat) : scaled TABLE_SIZE (rands k) < TABLE_SIZE := scaled_lt (by decide) _
  obtain ⟨table,filled,perm⟩ := rateTable_perm enough inside
  refine ⟨⟨table,0,0,TABLE_SIZE⟩,?_,perm,Nat.succ_pos 99⟩
  rw [create,filled]
  rfl

theorem Whole.turn {rate : PrizeRate} (whole : Whole rate) : Whole (turn rate) := by
  rw [PrizeRate.turn]
  split
  · exact ⟨whole.table,whole.region⟩
  · exact ⟨whole.table,Nat.mod_lt _ (Nat.succ_pos 99)⟩

theorem Whole.number {rate : PrizeRate} (whole : Whole rate) (rands : Nat → Rand) : ∃ num, number rands rate = some num := by
  have offset : scaled (TABLE_SIZE / 100) (rands rate.drawn) < 100 := scaled_lt (by decide) _
  have region := whole.turn.region
  have length : rate.rate_table_.length = 10000 := whole.table.length_eq.trans List.length_range
  exact ⟨_,List.getElem?_eq_getElem (by omega)⟩

end PrizeRate

namespace CacheManagerOp

theorem draw_whole {rands : Nat → Rand} {plat : Int32} {uid songid : Int64} {op after : CacheManagerOp} {gift : Option LuckGift}
    (whole : op.prize_.Whole) (drew : LuckGiftCalculation rands plat uid songid op = some (after,gift)) : after.prize_.Whole := by
  rw [LuckGiftCalculation] at drew
  split at drew
  · cases drew
    exact whole
  · obtain ⟨prize,_,drew⟩ := Option.bind_eq_some_iff.mp drew
    obtain ⟨⟨prize_,award⟩,drawn,drew⟩ := Option.bind_eq_some_iff.mp drew
    obtain ⟨num,_,turned⟩ := Option.bind_eq_some_iff.mp drawn
    cases turned
    cases drew
    exact whole.turn

theorem Reached.whole {fuel : Nat} {rands : Nat → Rand} (enough : TABLE_SIZE ≤ fuel) {op : CacheManagerOp} (reached : Reached fuel rands op) :
    op.prize_.Whole := by
  induction reached with
  | start built =>
    obtain ⟨rate,built',whole⟩ := PrizeRate.create_whole enough rands
    rw [built] at built'
    cases built'
    exact whole
  | load _ luck ih => exact ih
  | draw _ drew ih => exact draw_whole ih drew

section Fair
variable {rands : Nat → Rand} {op : CacheManagerOp} {plat : Int32} {uid songid : Int64} {plat_map : LuckGiftInfoPlatMap}

/-- Prize 1 is what is sent, so its entry holds the number. -/
theorem Fair.first (there : op.GetLuckGiftInfo plat = some plat_map) (fair : Fair rands op plat uid songid plat_map) :
    (rates plat_map).length ≤ 3 ∧ ∃ num rate, op.prize_.number rands = some num ∧ (rates plat_map).head? = some rate ∧ (num : Int) < rate := by
  obtain ⟨prize,num,after,gift,filled,_,drawn,drew,sent⟩ := fair.follows
  have few := setPrizes_full (Nat.zero_le _) filled
  rw [List.length_replicate,Nat.zero_add] at few
  refine ⟨few,num,?_⟩
  have one : gift.sent = some 1 := by
    rw [LuckGiftCalculation,there] at drew
    simp only [filled,PrizeRate.GetPrize,drawn] at drew
    cases drew
    rfl
  obtain ⟨j,entry,inside,found,contains,same⟩ := (sent 1).mp one
  rw [setPrizes_array few,Option.some.injEq] at filled
  subst filled
  rw [array_entry (List.getElem?_eq_getElem inside)] at found
  cases found
  simp only at same
  obtain rfl : j = 0 := by omega
  refine ⟨(rates plat_map)[0],drawn,?_,?_⟩
  · rw [List.head?_eq_getElem?,List.getElem?_eq_getElem inside]
  · have last := contains.2
    rw [sum_take_succ (List.getElem?_eq_getElem inside)] at last
    simp only [List.take_zero,List.sum_nil] at last
    omega

theorem fair_of_first (there : op.GetLuckGiftInfo plat = some plat_map) (whole : op.prize_.Whole) (nonneg : ∀ rate ∈ rates plat_map, 0 ≤ rate)
    (bound : (rates plat_map).sum ≤ TABLE_SIZE) (few : (rates plat_map).length ≤ 3) {num : Nat} {rate : Int}
    (drawn : op.prize_.number rands = some num) (head : (rates plat_map).head? = some rate) (less : (num : Int) < rate) :
    Fair rands op plat uid songid plat_map := by
  rw [List.head?_eq_getElem?] at head
  have entries : Entries (rates plat_map) (intervals (rates plat_map) 0 (-1) ++ List.replicate (3 - (rates plat_map).length) ({} : LuckPrize)) :=
    fun j rate there => array_entry there _
  have first := entries 0 rate head
  have contains : LuckPrize.Contains ⟨(0 : Nat) + 1,rate,((rates plat_map).take 0).sum,((rates plat_map).take (0 + 1)).sum - 1⟩ num := by
    rw [LuckPrize.Contains,sum_take_succ head,List.take_zero,List.sum_nil]
    constructor
    · exact Int.natCast_nonneg num
    · simp only
      omega
  have inside := (List.getElem?_eq_some_iff.mp head).1
  refine ⟨whole.table,_,num,{ op with prize_ := op.prize_.turn },⟨10000,uid,plat,1,songid⟩,setPrizes_array few,?_,drawn,?_,?_⟩
  · exact entries.shares nonneg bound whole.table
  · rw [LuckGiftCalculation,there]
    simp only [setPrizes_array few,PrizeRate.GetPrize,drawn]
    rfl
  · intro p
    have one : LuckGift.sent ⟨10000,uid,plat,1,songid⟩ = some 1 := rfl
    rw [one,Option.some.injEq]
    constructor
    · rintro rfl
      exact ⟨0,_,inside,first,contains,rfl⟩
    · rintro ⟨j,entry,within,found,holds,rfl⟩
      obtain rfl := entries.apart nonneg inside within first found contains holds
      rw [first] at found
      cases found
      rfl

end Fair

/-- A gift is drawn by its rate exactly where the platform has at most three prizes, and the number in the
table falls to the first of them. -/
theorem gift_of_first_prize {fuel : Nat} (enough : TABLE_SIZE ≤ fuel) (rands : Nat → Rand) :
    (∃ prize_, PrizeRate.create rands fuel = some prize_) ∧
    ∀ op, Reached fuel rands op → ∀ plat uid songid plat_map, op.GetLuckGiftInfo plat = some plat_map →
      (∀ rate ∈ rates plat_map, 0 ≤ rate) → (rates plat_map).sum ≤ TABLE_SIZE →
      (Fair rands op plat uid songid plat_map ↔ (rates plat_map).length ≤ 3 ∧
        ∃ num rate, op.prize_.number rands = some num ∧ (rates plat_map).head? = some rate ∧ (num : Int) < rate) := by
  obtain ⟨prize_,built,_⟩ := PrizeRate.create_whole enough rands
  refine ⟨⟨prize_,built⟩,?_⟩
  intro op reached plat uid songid plat_map there nonneg bound
  constructor
  · exact Fair.first there
  · rintro ⟨few,num,rate,drawn,head,less⟩
    exact fair_of_first there (reached.whole enough) nonneg bound few drawn head less

/-- Every draw for every platform is fair. -/
def FairDraws : Prop := ∀ (fuel : Nat) (rands : Nat → Rand), TABLE_SIZE ≤ fuel →
  (∃ prize_, PrizeRate.create rands fuel = some prize_) ∧
  ∀ op, Reached fuel rands op → ∀ plat uid songid plat_map, op.GetLuckGiftInfo plat = some plat_map →
    (∀ rate ∈ rates plat_map, 0 ≤ rate) → (rates plat_map).sum ≤ TABLE_SIZE → Fair rands op plat uid songid plat_map

theorem load_first (luck : LuckGiftInfo) (prize_ : PrizeRate) :
    (SetLuckGiftInfo luck ⟨∅,prize_⟩).GetLuckGiftInfo luck.plat = some ((∅ : LuckGiftInfoPlatMap).insert luck.prize luck) := by
  simp [SetLuckGiftInfo,GetLuckGiftInfo]

/-- Platform 1 has one prize, which has all of the table. -/
theorem gift_of_only_prize : (∃ prize_, PrizeRate.create (fun _ => 0) TABLE_SIZE = some prize_) ∧
    ∃ op, Reached TABLE_SIZE (fun _ => 0) op ∧ ∃ plat_map, (Fair (fun _ => 0) op 1 2 3 plat_map ↔ (rates plat_map).length ≤ 3 ∧
      ∃ num rate, op.prize_.number (fun _ => 0) = some num ∧ (rates plat_map).head? = some rate ∧ (num : Int) < rate) := by
  obtain ⟨⟨prize_,built⟩,draws⟩ := gift_of_first_prize (Nat.le_refl TABLE_SIZE) fun _ => 0
  have listed : rates ((∅ : LuckGiftInfoPlatMap).insert 1 ⟨1,10000,1⟩) = [10000] := by rfl
  refine ⟨⟨prize_,built⟩,_,(Reached.start built).load ⟨1,10000,1⟩,_,draws _ ((Reached.start built).load ⟨1,10000,1⟩) 1 2 3 _ (load_first _ _) ?_ ?_⟩
  · simp [listed]
  · simp [listed]

/-- Platform 1 has one prize, and its rate is 0: it is sent all the same. -/
theorem gift_without_rate : ¬ FairDraws := by
  intro fair
  obtain ⟨⟨prize_,built⟩,draws⟩ := fair TABLE_SIZE (fun _ => 0) (Nat.le_refl _)
  have there := load_first ⟨1,0,1⟩ prize_
  have listed : rates ((∅ : LuckGiftInfoPlatMap).insert 1 ⟨1,0,1⟩) = [0] := by rfl
  have drawn := draws _ ((Reached.start built).load ⟨1,0,1⟩) 1 2 3 _ there (by simp [listed]) (by simp [listed])
  obtain ⟨_,num,rate,_,head,less⟩ := drawn.first there
  rw [listed] at head
  cases head
  exact absurd less (Int.not_lt.mpr (Int.natCast_nonneg num))

end CacheManagerOp

end Migfm.Robot
