import Migfm.Library.Probing
import Mathlib.Tactic

/-! Draws from random tables, in public/basic/radom_in.cc. -/
namespace Migfm.Public.RadomIn
open Library

abbrev RAND_MAX := 2147483647

/-- What `rand()` returns. -/
abbrev Rand := Fin (RAND_MAX + 1)

/-- `(int) ((float)size * (rand() /(RAND_MAX + 1.0)))`, in which nothing is rounded for sizes up to 10000. -/
def scaled (size : Nat) (rand : Rand) : Nat := size * rand / (RAND_MAX + 1)

theorem scaled_lt {size : Nat} (positive : 0 < size) (rand : Rand) : scaled size rand < size := by
  apply Nat.div_lt_of_lt_mul
  rw [Nat.mul_comm]
  exact Nat.mul_lt_mul_of_pos_right rand.isLt positive

/-- The loop that three classes share: `refcount_` takes the next slot from a random one on
that holds 0, so that the slot of number 0 still counts as free. -/
def rateTable (fuel size : Nat) (slots : Nat → Nat) : Option (List Nat) :=
  Probing.fill 0 fuel (((List.range size).map slots).zip (List.range size)) (List.replicate size 0)

theorem rateTable_perm {fuel size : Nat} {slots : Nat → Nat} (enough : size ≤ fuel) (inside : ∀ k, slots k < size) :
    ∃ table, rateTable fuel size slots = some table ∧ table.Perm (List.range size) := by
  have length : ((List.range size).map slots).length = size := by rw [List.length_map,List.length_range]
  have starts : ∀ start ∈ (List.range size).map slots, start < ((List.range size).map slots).length := by
    intro start member
    obtain ⟨k,_,rfl⟩ := List.mem_map.mp member
    rw [length]
    exact inside k
  have filled := Probing.fill_range (length.symm ▸ enough) starts
  rw [length] at filled
  exact filled

/-! ### MigRadomInV2 -/

/-- `drawn` counts the calls of `rand()`. -/
structure MigRadomInV2 where
  num_ : Nat
  index_ : Nat
  rate_table_ : List Nat
  drawn : Nat

namespace MigRadomInV2
section Draws
variable (fuel : Nat) (slots : Nat → Nat)

def Reset (radom : MigRadomInV2) : Option MigRadomInV2 := do
  let table ← rateTable fuel radom.num_ fun k => slots (radom.drawn + k)
  return { radom with rate_table_ := table,drawn := radom.drawn + radom.num_ }

def SetRateTable (num : Nat) (radom : MigRadomInV2) : Option MigRadomInV2 :=
  Reset fuel slots { radom with num_ := if 0 < num then num else radom.num_,index_ := 0 }

/-- The constructor. -/
def create (num : Nat) : Option MigRadomInV2 := SetRateTable fuel slots 0 ⟨num,0,[],0⟩

/-- One round of the loop in `GetPrize`. -/
def draw (radom : MigRadomInV2) : Option (MigRadomInV2 × Nat) := do
  let radom ← if radom.index_ < radom.num_ then some radom else SetRateTable fuel slots 0 radom
  let rand ← radom.rate_table_[radom.index_]?
  return ({ radom with index_ := radom.index_ + 1 },rand)

def drawAll : Nat → MigRadomInV2 → Option (MigRadomInV2 × List Nat)
  | 0,radom => some (radom,[])
  | count + 1,radom => do
    let (radom,rand) ← draw fuel slots radom
    let (radom,rands) ← drawAll count radom
    return (radom,rand::rands)

def GetPrize (num : Int) (radom : MigRadomInV2) : Option (MigRadomInV2 × List Nat) := drawAll fuel slots num.toNat radom

/-- Calls of `GetPrize`; the assertion in it ends the program at a call for none. -/
def calls : List Int → MigRadomInV2 → Option (MigRadomInV2 × List Nat)
  | [],radom => some (radom,[])
  | num::nums,radom => if num = 0 then some (radom,[]) else do
    let (radom,rands) ← GetPrize fuel slots num radom
    let (radom,later) ← calls nums radom
    return (radom,rands ++ later)

end Draws

/-- Runs of `num` draws, in each every index once, and the beginning of such a run. -/
structure Rounds (num : Nat) (draws : List Nat) where
  rounds : List (List Nat)
  last : List Nat
  split : draws = rounds.flatten ++ last
  whole : ∀ round ∈ rounds, round.Perm (List.range num)
  begun : ∃ rest, (last ++ rest).Perm (List.range num)

/-- The table is whole, and the last run is what was drawn from it. -/
structure Drawn (num : Nat) (radom : MigRadomInV2) (draws : List Nat) : Prop where
  size : radom.num_ = num
  table : radom.rate_table_.Perm (List.range num)
  within : radom.index_ ≤ num
  rounds : ∃ rounds : List (List Nat), draws = rounds.flatten ++ radom.rate_table_.take radom.index_ ∧
    ∀ round ∈ rounds, round.Perm (List.range num)

section Run
variable {fuel num : Nat} {slots : Nat → Nat}

theorem Reset_whole (enough : num ≤ fuel) (inside : ∀ k, slots k < num) {radom : MigRadomInV2} (size : radom.num_ = num) :
    ∃ after, SetRateTable fuel slots 0 radom = some after ∧ after.num_ = num ∧ after.index_ = 0 ∧
      after.rate_table_.Perm (List.range num) := by
  subst size
  obtain ⟨table,filled,perm⟩ := @rateTable_perm fuel radom.num_ (fun k => slots (radom.drawn + k)) enough fun k => inside _
  refine ⟨⟨radom.num_,0,table,radom.drawn + radom.num_⟩,?_,rfl,rfl,perm⟩
  simp [SetRateTable,Reset,filled]

theorem create_drawn (enough : num ≤ fuel) (inside : ∀ k, slots k < num) :
    ∃ radom, create fuel slots num = some radom ∧ Drawn num radom [] := by
  obtain ⟨radom,built,size,start,table⟩ := @Reset_whole fuel num slots enough inside ⟨num,0,[],0⟩ rfl
  refine ⟨radom,built,⟨size,table,start ▸ Nat.zero_le _,[],?_,?_⟩⟩
  · rw [start]
    rfl
  · simp

/-- The draw from a table that is not used up. -/
theorem Drawn.next {radom : MigRadomInV2} {draws : List Nat} (drawn : Drawn num radom draws) (more : radom.index_ < num) :
    ∃ rand, radom.rate_table_[radom.index_]? = some rand ∧ Drawn num { radom with index_ := radom.index_ + 1 } (draws ++ [rand]) := by
  have length : radom.rate_table_.length = num := by rw [drawn.table.length_eq,List.length_range]
  obtain ⟨rounds,split,whole⟩ := drawn.rounds
  have there : radom.index_ < radom.rate_table_.length := length ▸ more
  refine ⟨radom.rate_table_[radom.index_],List.getElem?_eq_getElem there,drawn.size,drawn.table,more,rounds,?_,whole⟩
  rw [split,List.append_assoc,List.take_append_getElem]

theorem draw_drawn (positive : 0 < num) (enough : num ≤ fuel) (inside : ∀ k, slots k < num) {radom : MigRadomInV2} {draws : List Nat}
    (drawn : Drawn num radom draws) : ∃ after rand, draw fuel slots radom = some (after,rand) ∧ Drawn num after (draws ++ [rand]) := by
  by_cases more : radom.index_ < num
  · obtain ⟨rand,there,next⟩ := drawn.next more
    refine ⟨_,rand,?_,next⟩
    simp [draw,drawn.size,more,there]
  · obtain ⟨fresh,built,size,start,table⟩ := Reset_whole enough inside drawn.size
    obtain ⟨rounds,split,whole⟩ := drawn.rounds
    -- the table that is used up is one more whole run
    have used : Drawn num fresh draws := by
      refine ⟨size,table,start ▸ Nat.zero_le _,rounds ++ [radom.rate_table_],?_,?_⟩
      · have length : radom.rate_table_.length = num := by rw [drawn.table.length_eq,List.length_range]
        rw [split,List.take_of_length_le (by omega),start]
        simp
      · intro round member
        obtain member | member := List.mem_append.mp member
        · exact whole round member
        · rw [List.mem_singleton.mp member]
          exact drawn.table
    obtain ⟨rand,there,next⟩ := used.next (start ▸ positive)
    refine ⟨_,rand,?_,next⟩
    simp [draw,drawn.size,more,built,there]

theorem drawAll_drawn (positive : 0 < num) (enough : num ≤ fuel) (inside : ∀ k, slots k < num) (count : Nat) {radom : MigRadomInV2}
    {draws : List Nat} (drawn : Drawn num radom draws) :
    ∃ after rands, drawAll fuel slots count radom = some (after,rands) ∧ Drawn num after (draws ++ rands) := by
  induction count generalizing radom draws with
  | zero =>
    refine ⟨radom,[],rfl,?_⟩
    rw [List.append_nil]
    exact drawn
  | succ count ih =>
    obtain ⟨mid,rand,first,drawn⟩ := draw_drawn positive enough inside drawn
    obtain ⟨after,rands,rest,drawn⟩ := ih drawn
    refine ⟨after,rand::rands,?_,?_⟩
    · simp [drawAll,first,rest]
    · rw [List.append_cons]
      exact drawn

theorem drawAll_length {count : Nat} {radom after : MigRadomInV2} {rands : List Nat}
    (drew : drawAll fuel slots count radom = some (after,rands)) : rands.length = count := by
  induction count generalizing radom rands with
  | zero =>
    cases drew
    rfl
  | succ count ih =>
    obtain ⟨⟨mid,rand⟩,-,later⟩ := Option.bind_eq_some_iff.mp drew
    obtain ⟨⟨last,rands⟩,rest,made⟩ := Option.bind_eq_some_iff.mp later
    cases made
    rw [List.length_cons,ih rest]

theorem Drawn.lt {radom : MigRadomInV2} {draws : List Nat} (drawn : Drawn num radom draws) : ∀ rand ∈ draws, rand < num := by
  intro rand member
  obtain ⟨rounds,split,whole⟩ := drawn.rounds
  rw [split,List.mem_append,List.mem_flatten] at member
  obtain ⟨round,there,member⟩ | member := member
  · exact List.mem_range.mp ((whole round there).mem_iff.mp member)
  · exact List.mem_range.mp (drawn.table.mem_iff.mp (List.mem_of_mem_take member))

theorem calls_drawn (positive : 0 < num) (enough : num ≤ fuel) (inside : ∀ k, slots k < num) (nums : List Int) {radom : MigRadomInV2}
    {draws : List Nat} (drawn : Drawn num radom draws) :
    ∃ after rands, calls fuel slots nums radom = some (after,rands) ∧ Drawn num after (draws ++ rands) := by
  induction nums generalizing radom draws with
  | nil =>
    refine ⟨radom,[],rfl,?_⟩
    rw [List.append_nil]
    exact drawn
  | cons size nums ih =>
    by_cases none_ : size = 0
    · refine ⟨radom,[],?_,?_⟩
      · rw [calls,if_pos none_]
      · rw [List.append_nil]
        exact drawn
    · obtain ⟨mid,rands,first,drawn⟩ := drawAll_drawn positive enough inside size.toNat drawn
      obtain ⟨after,later,rest,drawn⟩ := ih drawn
      refine ⟨after,rands ++ later,?_,?_⟩
      · simp [calls,none_,GetPrize,first,rest]
      · rw [← List.append_assoc]
        exact drawn

end Run

end MigRadomInV2

/-! ### MigRadomIn -/

abbrev RATE_SIZE := 100
abbrev TABLE_SIZE := RATE_SIZE * RATE_SIZE

/-- An `int` in memory, and whether it comes from a value that the program stored. -/
structure Stored where
  value : BitVec 32
  known : Bool

/-- `drawn` counts the calls of `rand()`. -/
structure MigRadomIn where
  mRateTable : List Nat
  gN : Nat
  gM : Nat
  iIndex : Stored
  drawn : Nat

/-- Where the table is read, and whether all that the index is computed from was stored before. -/
structure Access where
  index : Int
  known : Bool

def Access.Inside (access : Access) : Prop := 0 ≤ access.index ∧ access.index < TABLE_SIZE

def Access.Sound (access : Access) : Prop := access.known = true ∧ access.Inside

namespace MigRadomIn
section Calls
variable (rands : Nat → Rand)

/-- The constructor stores `gN` and `gM`; `iIndex` keeps what the memory holds. -/
def create (fuel : Nat) (memory : BitVec 32) : Option MigRadomIn := do
  let table ← rateTable fuel TABLE_SIZE fun k => scaled TABLE_SIZE (rands k)
  return ⟨table,0,0,⟨memory,false⟩,TABLE_SIZE⟩

/-- `gN` and `gM` after `back`. -/
def turn (radom : MigRadomIn) : Nat × Nat :=
  if radom.gN < RATE_SIZE then (radom.gN + 1,radom.gM) else (1,(radom.gM + 1) % RATE_SIZE)

/-- The number is missing where the table is read outside. -/
def GetPrize (radom : MigRadomIn) : MigRadomIn × Access × Option Nat :=
  let (gN,gM) := turn radom
  let index : Int := scaled (TABLE_SIZE / RATE_SIZE) (rands radom.drawn) + radom.iIndex.value.toInt.tmod RATE_SIZE + gM * RATE_SIZE
  ({ radom with gN,gM,iIndex := ⟨radom.iIndex.value + 1,radom.iIndex.known⟩,drawn := radom.drawn + 1 },
    ⟨index,radom.iIndex.known⟩,if 0 ≤ index then radom.mRateTable[index.toNat]? else none)

/-- The state after a number of calls. -/
def after (radom : MigRadomIn) : Nat → MigRadomIn
  | 0 => radom
  | calls + 1 => (GetPrize rands (after radom calls)).1

end Calls

/-- Every access after every number of calls is sound. -/
def IndexSound : Prop := ∀ (fuel : Nat) (memory : BitVec 32) (rands : Nat → Rand) (radom : MigRadomIn), create rands fuel memory = some radom →
  ∀ calls, (GetPrize rands (after rands radom calls)).2.1.Sound

/-- The offset and the counter, before the region is added. -/
def spread (rands : Nat → Rand) (memory : BitVec 32) (calls : Nat) : Int :=
  scaled RATE_SIZE (rands (TABLE_SIZE + calls)) + (memory + BitVec.ofNat 32 calls).toInt.tmod RATE_SIZE

/-- Each region serves a hundred calls. -/
structure Reached (memory : BitVec 32) (calls : Nat) (radom : MigRadomIn) : Prop where
  turn : turn radom = (calls % RATE_SIZE + 1,calls / RATE_SIZE % RATE_SIZE)
  iIndex : radom.iIndex = ⟨memory + BitVec.ofNat 32 calls,false⟩
  drawn : radom.drawn = TABLE_SIZE + calls

section Index
variable {rands : Nat → Rand} {memory : BitVec 32}

theorem create_reached {fuel : Nat} (enough : TABLE_SIZE ≤ fuel) :
    ∃ radom, create rands fuel memory = some radom ∧ Reached memory 0 radom := by
  have inside (k : Nat) : scaled TABLE_SIZE (rands k) < TABLE_SIZE := scaled_lt (by decide) _
  obtain ⟨table,filled,_⟩ := rateTable_perm enough inside
  refine ⟨⟨table,0,0,⟨memory,false⟩,TABLE_SIZE⟩,?_,rfl,?_,rfl⟩
  · rw [create,filled]
    rfl
  · simp

theorem Reached.step {calls : Nat} {radom : MigRadomIn} (reached : Reached memory calls radom) :
    Reached memory (calls + 1) (GetPrize rands radom).1 := by
  obtain ⟨turned,index,drawn⟩ := reached
  constructor
  · change (if (MigRadomIn.turn radom).1 < 100 then ((MigRadomIn.turn radom).1 + 1,(MigRadomIn.turn radom).2) else (1,((MigRadomIn.turn radom).2 + 1) % 100)) = _
    rw [turned]
    by_cases more : calls % 100 + 1 < 100
    · rw [if_pos more]
      apply Prod.ext
      · simp only [RATE_SIZE]
        omega
      · simp only [RATE_SIZE]
        omega
    · rw [if_neg more]
      apply Prod.ext
      · simp only [RATE_SIZE]
        omega
      · simp only [RATE_SIZE]
        omega
  · simp only [GetPrize,index,BitVec.ofNat_add,BitVec.add_assoc]
    rfl
  · simp only [GetPrize,drawn]
    rfl

theorem after_reached {radom : MigRadomIn} (start : Reached memory 0 radom) (calls : Nat) :
    Reached memory calls (after rands radom calls) := by
  induction calls with
  | zero => exact start
  | succ calls ih => exact ih.step

theorem Reached.access {calls : Nat} {radom : MigRadomIn} (reached : Reached memory calls radom) :
    (GetPrize rands radom).2.1 = ⟨spread rands memory calls + (calls / RATE_SIZE % RATE_SIZE : Nat) * RATE_SIZE,false⟩ := by
  simp only [GetPrize,reached.turn,reached.iIndex,reached.drawn]
  rfl

theorem spread_bounds (calls : Nat) : -100 < spread rands memory calls ∧ spread rands memory calls < 199 := by
  have offset : scaled RATE_SIZE (rands (TABLE_SIZE + calls)) < RATE_SIZE := scaled_lt (by decide) _
  have low := Int.tmod_lt_of_pos (memory + BitVec.ofNat 32 calls).toInt (show (0 : Int) < RATE_SIZE by decide)
  have high := Int.lt_tmod_of_pos (memory + BitVec.ofNat 32 calls).toInt (show (0 : Int) < RATE_SIZE by decide)
  simp only [spread,RATE_SIZE] at *
  omega

end Index

/-- No index comes from stored values alone. It lies in the table but for a counter that takes it below
the first region, or past the last. -/
theorem index_from_memory (rands : Nat → Rand) (memory : BitVec 32) {fuel : Nat} (enough : TABLE_SIZE ≤ fuel) :
    ∃ radom, create rands fuel memory = some radom ∧ ∀ calls, ¬ (GetPrize rands (after rands radom calls)).2.1.Sound ∧
      ((GetPrize rands (after rands radom calls)).2.1.Inside ↔
        (calls / RATE_SIZE % RATE_SIZE = 0 → 0 ≤ spread rands memory calls) ∧
        (calls / RATE_SIZE % RATE_SIZE = RATE_SIZE - 1 → spread rands memory calls < RATE_SIZE)) := by
  obtain ⟨radom,built,start⟩ := @create_reached rands memory fuel enough
  refine ⟨radom,built,?_⟩
  intro calls
  have access := @Reached.access rands memory calls _ (@after_reached rands memory radom start calls)
  have bounds := @spread_bounds rands memory calls
  rw [access]
  constructor
  · intro sound
    exact Bool.false_ne_true sound.1
  · simp only [Access.Inside,TABLE_SIZE,RATE_SIZE]
    have region : calls / 100 % 100 < 100 := Nat.mod_lt _ (by decide)
    omega

/-- Memory that holds zeros. -/
theorem index_from_zero : ∃ radom, create (fun _ => 0) TABLE_SIZE 0 = some radom ∧ ∀ calls,
    ¬ (GetPrize (fun _ => 0) (after (fun _ => 0) radom calls)).2.1.Sound ∧
      ((GetPrize (fun _ => 0) (after (fun _ => 0) radom calls)).2.1.Inside ↔
        (calls / RATE_SIZE % RATE_SIZE = 0 → 0 ≤ spread (fun _ => 0) 0 calls) ∧
        (calls / RATE_SIZE % RATE_SIZE = RATE_SIZE - 1 → spread (fun _ => 0) 0 calls < RATE_SIZE)) := by
  apply index_from_memory
  exact Nat.le_refl _

/-- With -1 in the memory and 0 from `rand()`, the first call reads in front of the table. -/
theorem index_in_front : ¬ IndexSound := by
  intro sound
  obtain ⟨radom,built,start⟩ := @create_reached (fun _ => 0) (-1) TABLE_SIZE (Nat.le_refl _)
  have access : (GetPrize (fun _ => 0) radom).2.1.Sound := sound TABLE_SIZE (-1) (fun _ => 0) radom built 0
  rw [start.access] at access
  exact absurd access.2.1 (by decide)

end MigRadomIn

end Migfm.Public.RadomIn
