import Migfm.Library.Rounding
import Migfm.Music.SongArrays
import Migfm.Public.Allocation
import Migfm.Public.RadomIn

/-! How many songs `GetTypeSongs` of master/music/music_mgr_engine.cc asks for in each dimension, and what is picked of
them from the dimension's random table. The shares are of type double. -/
namespace Migfm.Music.Quotas
open Library
open Logic (ascii atoll)
open Public.Json (c_str)
open Public.AlgorithmBase (largest trunc)
open Public.RadomIn (Rand RAND_MAX MigRadomInV2)
open SongArrays (temp_index GetTotalForNum)
open TypeSongs (HttpPacket random_key)

inductive Dimension
  | channel
  | mood
  | scene
  deriving DecidableEq

def Dimension.mode : Dimension → List UInt8
  | .channel => ascii "chl"
  | .mood => ascii "mm"
  | .scene => ascii "ms"

/-! ### AllocationLatitudeMusicNum -/

def float (x : ℚ) : ℚ := Rounding.round 24 x
def double (x : ℚ) : ℚ := Rounding.round 53 x

def MIG_PLUGIS_RETURN (X : ℚ) : ℤ := if 5 < double (double (X - trunc X) * 10) then 1 else 0

def count (X : ℚ) : Int32 :=
  let num := trunc (double (X + MIG_PLUGIS_RETURN X))
  if num = 0 then 1 else Int32.ofInt num

/-- The larger of the two that are not flagged gets a half from the other. -/
def shift (first second : ℚ) : ℚ × ℚ :=
  if second < first then (double (first + 1 / 2),double (second - 1 / 2))
  else if first < second then (double (first - 1 / 2),double (second + 1 / 2))
  else (first,second)

def distribute (dl_mood_num dl_scenes_num dl_channel_num surplus_num : ℚ) : Dimension → Int32 :=
  match largest dl_mood_num dl_scenes_num dl_channel_num with
  | .mood =>
    let others := shift dl_scenes_num dl_channel_num
    fun
    | .mood => count (double (dl_mood_num + surplus_num))
    | .scene => count others.1
    | .channel => count others.2
  | .scenes =>
    let others := shift dl_mood_num dl_channel_num
    fun
    | .mood => count others.1
    | .scene => count (double (dl_scenes_num + surplus_num))
    | .channel => count others.2
  | .channel =>
    let others := shift dl_mood_num dl_scenes_num
    fun
    | .mood => count others.1
    | .scene => count others.2
    | .channel => count (double (dl_channel_num + surplus_num))

/-- No outcome: the sum of the indexes overflows. -/
def AllocationLatitudeMusicNum (mood_index scenes_index channel_index num : Int32) : Option (Dimension → Int32) :=
  let sum := mood_index.toInt + scenes_index.toInt + channel_index.toInt
  if mood_index.toInt + scenes_index.toInt < -2147483648 ∨ 2147483648 ≤ mood_index.toInt + scenes_index.toInt ∨
      sum < -2147483648 ∨ 2147483648 ≤ sum then none
  else
    let overall_num : ℚ := if sum = 0 then 1 else sum
    let share (index : Int32) : ℚ := double (double (index.toInt / overall_num) * num.toInt)
    let dl_mood_num := share mood_index
    let dl_scenes_num := share scenes_index
    let dl_channel_num := share channel_index
    let surplus_num := double (double (double (num.toInt - dl_mood_num) - dl_scenes_num) - dl_channel_num)
    let surplus_num := if surplus_num = 0 then 1 / 2 else surplus_num
    some (distribute dl_mood_num dl_scenes_num dl_channel_num surplus_num)

/-! ### GetTypeSongs -/

def atol (text : List UInt8) : Int64 := atoll (c_str text)

/-- A value that is passed as an int. -/
def atoi (text : List UInt8) : Int32 := (atol text).toInt32

/-- The parameters of the request. -/
structure Query where
  index : Dimension → List UInt8
  id : Dimension → List UInt8
  num : List UInt8

/-- The index and the id, which may be left out where the index is -1. -/
def attribs (pack : HttpPacket) (index id index_msg id_msg : String) : Except String (List UInt8 × List UInt8) :=
  match pack (ascii index),pack (ascii id) with
  | none,_ => .error index_msg
  | some index,none => if index = ascii "-1" then .ok (index,[]) else .error id_msg
  | some index,some id => .ok (index,id)

def query (pack : HttpPacket) : Except String Query :=
  match pack (ascii "uid") with
  | none => .error "请求中未包含用户信息"
  | some _ => do
    let mood ← attribs pack "moodindex" "moodid" "请求中未包含心情顺序" "请求中未包含心情序号"
    let scene ← attribs pack "sceneindex" "sceneid" "请求中未包含场景顺序" "请求中未包含场景序号"
    let channel ← attribs pack "typeindex" "typeid" "请求中未包含频道顺序" "请求中未包含频道序号"
    let dimensions : Dimension → List UInt8 × List UInt8
      | .mood => mood
      | .scene => scene
      | .channel => channel
    return {
      index := fun dimension => (dimensions dimension).1
      id := fun dimension => (dimensions dimension).2
      num := (pack (ascii "num")).getD (ascii "5") }

namespace Query
variable (q : Query)

def flag_al : Bool :=
  atol (q.index .mood) ≠ -1 && atol (q.index .scene) ≠ -1 && atol (q.index .channel) ≠ -1

/-- `mood_flag`, `scens_flag` and `channel_flag`. -/
def flag (dimension : Dimension) : Bool := 0 ≤ atoi (q.index dimension)

def info_id (dimension : Dimension) : List UInt8 := if q.flag dimension then q.id dimension else ascii "0"

def index_or_zero (dimension : Dimension) : List UInt8 := if q.flag dimension then q.index dimension else ascii "0"

def info_index (dimension : Dimension) : List UInt8 :=
  if q.index_or_zero .mood = ascii "0" ∧ q.index_or_zero .scene = ascii "0" ∧ q.index_or_zero .channel = ascii "0" then ascii "1"
  else q.index_or_zero dimension

def number : Int32 := atoi (if q.num = ascii "0" then ascii "10" else q.num)

/-- No value: it is never set, or the allocation has no outcome. -/
def info_num (dimension : Dimension) : Option Int32 :=
  if q.flag_al then
    (AllocationLatitudeMusicNum (atoi (q.info_index .mood)) (atoi (q.info_index .scene)) (atoi (q.info_index .channel)) q.number).map
      fun nums => nums dimension
  else if atol (q.info_id .mood) ≠ 0 then if dimension = .mood then some q.number else none
  else if atol (q.info_id .scene) ≠ 0 then if dimension = .scene then some q.number else none
  else if atol (q.info_id .channel) ≠ 0 then if dimension = .channel then some q.number else none
  else none

end Query

/-! ### GetTypeRamdon -/

/-- Where the search for a free slot starts. -/
def liIndex (num : Nat) (rand : Rand) : Nat := ⌊double (float num * double (rand.val / (RAND_MAX + 1)))⌋.toNat

/-- A table as it is after some draws. -/
structure Table where
  radom : MigRadomInV2
  some_ : 0 < radom.num_
  drawn : ∃ draws, MigRadomInV2.Drawn radom.num_ radom draws

structure World where
  /-- How many songs a hash has. -/
  stored : List UInt8 → Nat
  /-- The tables, by the number of the word. -/
  random_map_ : Dimension → Int32 → Option Table

section Picks
variable (w : World) (fuel : Nat) (rand : Nat → Rand)

def GetHashSize (key : List UInt8) : Int32 := Int32.ofNat (w.stored key)

/-- The size of the array, and what is passed to redis. -/
structure Fetch where
  size : Option Int32 := none
  random_list : Option (List Nat) := none

/-- No outcome: the size is negative, the assertion fails, or the table is left. -/
def GetTypeRamdon (type : Dimension) (wordid : List UInt8) (num : Int32) : Option Fetch :=
  if num < 0 then none
  else match w.random_map_ type (atoi wordid) with
    | none => some { size := some num }
    | some table =>
      if num = 0 then none
      else (table.radom.GetPrize fuel (fun k => liIndex table.radom.num_ (rand k)) num.toInt).map fun (_,rands) =>
        { size := some num, random_list := some rands }

/-- As far as the picks are made. -/
def GetMoodScensChannelSongsV4 (mode : Dimension) (num : Int32) (wordid : List UInt8) : Option Fetch :=
  let hash_size := GetHashSize w (random_key mode.mode wordid)
  if hash_size = 0 then some {}
  else (GetTotalForNum (temp_index num hash_size) 3).bind (GetTypeRamdon w fuel rand mode wordid)

end Picks

/-! ### What is promised -/

section Promised
variable (w : World)

/-- The size is in range, and as many picks are passed, all of them indexes of the table. -/
def Fetch.Sound (dimension : Dimension) (wordid : List UInt8) (fetch : Fetch) : Prop :=
  (∀ size ∈ fetch.size, 0 ≤ size.toInt ∧ size.toInt ≤ 3 * w.stored (random_key dimension.mode wordid)) ∧
    ∀ random_list ∈ fetch.random_list, (∃ size ∈ fetch.size, (random_list.length : Int) = size.toInt) ∧
      ∃ table ∈ w.random_map_ dimension (atoi wordid), ∀ index ∈ random_list, index < table.radom.num_

/-- Each dimension that is queried has a quota, and whatever `rand()` yields, its picks are made and sound. -/
def Right (pack : HttpPacket) : Prop :=
  ∀ q, query pack = .ok q → ∀ dimension, q.flag dimension → ∃ num ∈ q.info_num dimension, ∀ rand : Nat → Rand,
    ∃ fuel fetch, GetMoodScensChannelSongsV4 w fuel rand dimension num (q.info_id dimension) = some fetch ∧
      fetch.Sound w dimension (q.info_id dimension)

/-- The quota. Unless all three indexes are given, only the first dimension with an id gets one. -/
def Query.Given (q : Query) (dimension : Dimension) (num : Int32) : Prop :=
  if q.flag_al then
    ∃ nums, AllocationLatitudeMusicNum (atoi (q.info_index .mood)) (atoi (q.info_index .scene)) (atoi (q.info_index .channel)) q.number =
      some nums ∧ num = nums dimension
  else
    atol (q.info_id dimension) ≠ 0 ∧ (dimension ≠ .mood → atol (q.info_id .mood) = 0) ∧
      (dimension = .channel → atol (q.info_id .scene) = 0) ∧ num = q.number

/-- A third of the size is in range. Where there is a table, it is not zero either, and if the table is shuffled
again before the last pick, no search starts behind it. -/
def Fits (dimension : Dimension) (wordid : List UInt8) (num : Int32) : Prop :=
  let hash_size := GetHashSize w (random_key dimension.mode wordid)
  let third := (temp_index num hash_size).toInt
  hash_size ≠ 0 → 0 ≤ third ∧ 3 * third < 2147483648 ∧ ∀ table ∈ w.random_map_ dimension (atoi wordid), third ≠ 0 ∧
    (table.radom.num_ < table.radom.index_ + 3 * third → ∀ rand, liIndex table.radom.num_ rand < table.radom.num_)

def Good (pack : HttpPacket) : Prop :=
  ∀ q, query pack = .ok q → ∀ dimension, q.flag dimension → ∃ num, q.Given dimension num ∧ Fits w dimension (q.info_id dimension) num

end Promised

/-! ### Draws -/

section Draws
open Public.RadomIn.MigRadomInV2
variable {fuel count : Nat} {slots : Nat → Nat} {radom : MigRadomInV2}

/-- A search that starts behind the table leaves it. -/
theorem SetRateTable_behind (some_ : 0 < radom.num_) (behind : ∀ k, radom.num_ ≤ slots k) :
    SetRateTable fuel slots 0 radom = none := by
  obtain ⟨size,num⟩ := Nat.exists_eq_add_one_of_ne_zero some_.ne'
  have outside : (List.replicate (size + 1) 0)[slots radom.drawn]? = none := by
    rw [List.getElem?_eq_none_iff,List.length_replicate,← num]
    exact behind _
  have left : Probing.probe 0 (List.replicate (size + 1) 0) fuel (slots radom.drawn) = none := by
    cases fuel with
    | zero => rfl
    | succ fuel => rw [Probing.probe,outside,Option.bind_none]
  simp only [SetRateTable,Reset,Nat.lt_irrefl,if_false,num,Public.RadomIn.rateTable,List.range_succ_eq_map,List.map_cons,
    List.zip_cons_cons,Probing.fill,Nat.add_zero,left,Option.bind_none,Option.bind_eq_bind]

theorem drawAll_behind (some_ : 0 < radom.num_) (behind : ∀ k, radom.num_ ≤ slots k) (within : radom.index_ ≤ radom.num_)
    (more : radom.num_ < radom.index_ + count) : drawAll fuel slots count radom = none := by
  induction count generalizing radom with
  | zero => omega
  | succ count ih =>
    rw [drawAll,draw]
    by_cases left : radom.index_ < radom.num_
    · have later : drawAll fuel slots count { radom with index_ := radom.index_ + 1 } = none :=
        ih some_ behind left (by simp only; omega)
      cases there : radom.rate_table_[radom.index_]? with
      | none => simp [left,there]
      | some rand => simp [left,there,later]
    · simp [left,SetRateTable_behind some_ behind]

/-- What is left of the table is drawn without another shuffle. -/
theorem drawAll_left {num : Nat} {draws : List Nat} (drawn : Drawn num radom draws) (enough : radom.index_ + count ≤ num) :
    ∃ after rands, drawAll fuel slots count radom = some (after,rands) ∧ Drawn num after (draws ++ rands) := by
  induction count generalizing radom draws with
  | zero =>
    refine ⟨radom,[],rfl,?_⟩
    rw [List.append_nil]
    exact drawn
  | succ count ih =>
    have more : radom.index_ < num := by omega
    obtain ⟨rand,there,next⟩ := drawn.next more
    obtain ⟨after,rands,rest,drawn'⟩ := ih next (by simp only; omega)
    have drew : draw fuel slots radom = some ({ radom with index_ := radom.index_ + 1 },rand) := by
      rw [draw,drawn.size,if_pos more]
      simp [there,drawn.size]
    refine ⟨after,rand::rands,?_,?_⟩
    · simp [drawAll,drew,rest]
    · rw [List.append_cons]
      exact drawn'

/-- All draws of a table are made, and are indexes of it, iff no search can start behind it where it is shuffled again. -/
theorem drawAll_iff (table : Table) (count : Nat) :
    (∀ rand : Nat → Rand, ∃ fuel after rands, drawAll fuel (fun k => liIndex table.radom.num_ (rand k)) count table.radom =
      some (after,rands) ∧ ∀ index ∈ rands, index < table.radom.num_) ↔
      (table.radom.num_ < table.radom.index_ + count → ∀ rand, liIndex table.radom.num_ rand < table.radom.num_) := by
  obtain ⟨draws,drawn⟩ := table.drawn
  constructor
  · intro all more rand
    by_contra behind
    obtain ⟨fuel,after,rands,drew,_⟩ := all fun _ => rand
    rw [drawAll_behind table.some_ (fun _ => not_lt.mp behind) drawn.within more] at drew
    cases drew
  · intro inside rand
    by_cases more : table.radom.num_ < table.radom.index_ + count
    · obtain ⟨after,rands,drew,later⟩ := drawAll_drawn table.some_ (Nat.le_refl _) (fun k => inside more (rand k)) count drawn
      exact ⟨_,after,rands,drew,fun index member => later.lt index (List.mem_append_right _ member)⟩
    · obtain ⟨after,rands,drew,later⟩ := drawAll_left drawn (not_lt.mp more)
      exact ⟨0,after,rands,drew,fun index member => later.lt index (List.mem_append_right _ member)⟩

end Draws

/-! ### Sizes -/

theorem temp_index_le (num hash_size : Int32) : (temp_index num hash_size).toInt ≤ hash_size.toInt := by
  rw [temp_index]
  split
  · exact Int.le_refl _
  · rename_i le
    exact Int32.le_iff_toInt_le.mp (Int32.not_lt.mp le)

theorem GetHashSize_le (w : World) (key : List UInt8) : (GetHashSize w key).toInt ≤ w.stored key := by
  have size : (Int32.size : Int) = 4294967296 := rfl
  rw [GetHashSize,Int32.toInt_ofNat',Int.bmod_def,size]
  split <;> omega

theorem GetTotalForNum_three {num total : Int32} :
    GetTotalForNum num 3 = some total ↔ -2147483648 ≤ num.toInt * 3 ∧ num.toInt * 3 < 2147483648 ∧ total = num * 3 := by
  have three : (3 : Int32).toInt = 3 := rfl
  rw [GetTotalForNum,three]
  split
  · rename_i fits
    rw [Option.some.injEq,eq_comm,← and_assoc,and_iff_right fits]
  · rename_i wide
    exact iff_of_false (Option.some_ne_none _).symm fun ⟨low,high,_⟩ => wide ⟨low,high⟩

theorem three_toInt {num : Int32} (low : -2147483648 ≤ num.toInt * 3) (high : num.toInt * 3 < 2147483648) :
    (num * 3).toInt = num.toInt * 3 := by
  have three : (3 : Int32).toInt = 3 := rfl
  rw [Int32.toInt_mul,three]
  exact Int.bmod_eq_of_le (by omega) (by omega)

section Claim
variable (w : World)

/-- The picks of an array are made and sound iff its size is natural and, where there is a table, all can be drawn. -/
theorem GetTypeRamdon_iff (dimension : Dimension) (wordid : List UInt8) (size : Int32)
    (most : size.toInt ≤ 3 * w.stored (random_key dimension.mode wordid)) :
    (∀ rand : Nat → Rand, ∃ fuel fetch, GetTypeRamdon w fuel rand dimension wordid size = some fetch ∧ fetch.Sound w dimension wordid) ↔
      0 ≤ size.toInt ∧ ∀ table ∈ w.random_map_ dimension (atoi wordid), size.toInt ≠ 0 ∧
        (table.radom.num_ < table.radom.index_ + size.toInt.toNat → ∀ rand, liIndex table.radom.num_ rand < table.radom.num_) := by
  by_cases negative : size < 0
  · have below := Int32.lt_iff_toInt_lt.mp negative
    rw [Int32.toInt_zero] at below
    refine iff_of_false (fun all => ?_) fun natural => absurd natural.1 (not_le.mpr below)
    obtain ⟨fuel,fetch,done,_⟩ := all fun _ => 0
    rw [GetTypeRamdon,if_pos negative] at done
    cases done
  have natural : 0 ≤ size.toInt := by
    rw [← Int32.toInt_zero]
    exact Int32.le_iff_toInt_le.mp (Int32.not_lt.mp negative)
  rw [and_iff_right natural]
  simp only [GetTypeRamdon,if_neg negative]
  cases found : w.random_map_ dimension (atoi wordid) with
  | none =>
    refine iff_of_true (fun rand => ⟨0,_,rfl,?_,?_⟩) fun table some_ => ?_
    · intro other same
      cases same
      exact ⟨natural,most⟩
    · intro random_list none_
      cases none_
    · cases some_
  | some table =>
    have each : (∀ table' ∈ some table, size.toInt ≠ 0 ∧ (table'.radom.num_ < table'.radom.index_ + size.toInt.toNat →
        ∀ rand, liIndex table'.radom.num_ rand < table'.radom.num_)) ↔ size.toInt ≠ 0 ∧
        (table.radom.num_ < table.radom.index_ + size.toInt.toNat → ∀ rand, liIndex table.radom.num_ rand < table.radom.num_) := by
      simp
    rw [each]
    by_cases zero : size = 0
    · refine iff_of_false (fun all => ?_) fun some_ => ?_
      · obtain ⟨fuel,fetch,done,_⟩ := all fun _ => 0
        simp only [if_pos zero] at done
        cases done
      · rw [zero] at some_
        exact some_.1 Int32.toInt_zero
    have some_ : size.toInt ≠ 0 := fun none_ => zero (Int32.toInt_inj.mp (none_.trans Int32.toInt_zero.symm))
    rw [and_iff_right some_,← drawAll_iff table size.toInt.toNat]
    simp only [if_neg zero,MigRadomInV2.GetPrize,Option.map_eq_some_iff]
    refine forall_congr' fun rand => exists_congr fun fuel => ?_
    constructor
    · intro made
      obtain ⟨fetch,⟨⟨after,rands⟩,drew,same⟩,_,sound⟩ := made
      cases same
      obtain ⟨_,_,known,inside⟩ := sound rands rfl
      cases found.symm.trans known
      exact ⟨after,rands,drew,inside⟩
    · intro made
      obtain ⟨after,rands,drew,inside⟩ := made
      refine ⟨_,⟨(after,rands),drew,rfl⟩,?_,?_⟩
      · intro other same
        cases same
        exact ⟨natural,most⟩
      · intro random_list same
        cases same
        refine ⟨⟨size,rfl,?_⟩,table,found,inside⟩
        rw [MigRadomInV2.drawAll_length drew]
        exact Int.toNat_of_nonneg natural

theorem GetMoodScensChannelSongsV4_iff (dimension : Dimension) (num : Int32) (wordid : List UInt8) :
    (∀ rand : Nat → Rand, ∃ fuel fetch, GetMoodScensChannelSongsV4 w fuel rand dimension num wordid = some fetch ∧
      fetch.Sound w dimension wordid) ↔ Fits w dimension wordid num := by
  rw [Fits]
  simp only [GetMoodScensChannelSongsV4]
  by_cases unstored : GetHashSize w (random_key dimension.mode wordid) = 0
  · refine iff_of_true (fun rand => ⟨0,{},if_pos unstored,?_,?_⟩) fun some_ => absurd unstored some_
    · intro size none_
      cases none_
    · intro random_list none_
      cases none_
  rw [forall_prop_of_true unstored]
  simp only [if_neg unstored]
  have most := temp_index_le num (GetHashSize w (random_key dimension.mode wordid))
  generalize temp_index num (GetHashSize w (random_key dimension.mode wordid)) = third at most ⊢
  cases total : GetTotalForNum third 3 with
  | none =>
    refine iff_of_false (fun all => ?_) fun ⟨natural,small,_⟩ => ?_
    · obtain ⟨fuel,fetch,done,_⟩ := all fun _ => 0
      cases done
    · have fits : GetTotalForNum third 3 = some (third * 3) := GetTotalForNum_three.mpr ⟨by omega,by omega,rfl⟩
      cases total.symm.trans fits
  | some size =>
    obtain ⟨low,high,rfl⟩ := GetTotalForNum_three.mp total
    have whole := three_toInt low high
    have stored := GetHashSize_le w (random_key dimension.mode wordid)
    simp only [Option.bind_some]
    rw [GetTypeRamdon_iff w dimension wordid (third * 3) (by omega),whole]
    constructor
    · intro ⟨natural,each⟩
      refine ⟨by omega,by omega,fun table found => ?_⟩
      obtain ⟨some_,inside⟩ := each table found
      exact ⟨by omega,fun more => inside (by omega)⟩
    · intro ⟨natural,_,each⟩
      refine ⟨by omega,fun table found => ?_⟩
      obtain ⟨some_,inside⟩ := each table found
      exact ⟨by omega,fun more => inside (by omega)⟩

theorem info_num_iff (q : Query) (dimension : Dimension) (num : Int32) :
    num ∈ q.info_num dimension ↔ q.Given dimension num := by
  rw [Query.info_num,Query.Given,Option.mem_def]
  by_cases all : q.flag_al = true
  · rw [if_pos all,if_pos all,Option.map_eq_some_iff]
    exact exists_congr fun nums => and_congr_right' eq_comm
  · rw [if_neg all,if_neg all]
    cases dimension <;> grind

/-- No search starts behind a table of less than 2^24 songs, which is what a float holds. -/
theorem liIndex_lt {num : Nat} (some_ : 0 < num) (few : num < 2 ^ 24) (rand : Rand) : liIndex num rand < num := by
  have size : float num = num := by
    have few' : |(num : ℤ)| < 2 ^ 24 := by
      rw [abs_of_nonneg (by omega)]
      exact_mod_cast few
    simpa [float] using @Rounding.round_exact 24 num 0 few'
  have part : double (rand.val / (RAND_MAX + 1)) = rand.val / 2147483648 := by
    have few' : |(rand.val : ℤ)| < 2 ^ 53 := by
      rw [abs_of_nonneg (by omega)]
      have high : rand.val < 2147483648 := rand.isLt
      omega
    have exact_ := @Rounding.round_exact 53 rand.val (-31) few'
    norm_num at exact_
    rw [double]
    norm_num
    rw [div_eq_mul_one_div]
    exact exact_
  have positive : (0 : ℚ) < num := Nat.cast_pos.mpr some_
  have below : double (num * (rand.val / 2147483648)) < num := by
    by_cases zero : rand.val = 0
    · have nothing : double 0 = 0 := by
        simpa [double] using @Rounding.round_exact 53 0 0 (by norm_num)
      rw [zero,Nat.cast_zero,zero_div,mul_zero,nothing]
      exact positive
    have high : (rand.val : ℚ) ≤ 2147483647 := by exact_mod_cast Nat.le_of_lt_succ rand.isLt
    have low : (0 : ℚ) < rand.val := Nat.cast_pos.mpr (Nat.pos_of_ne_zero zero)
    have share : (num : ℚ) * (rand.val / 2147483648) ≤ num * (2147483647 / 2147483648) := by gcongr
    have product : (0 : ℚ) < num * (rand.val / 2147483648) := by positivity
    have error := (abs_le.mp (Rounding.round_error 53 product.ne')).2
    rw [abs_of_pos product] at error
    rw [double]
    norm_num at error
    linarith
  rw [liIndex,size,part]
  have floor := Int.floor_lt.mpr (show double (num * (rand.val / 2147483648)) < (num : ℤ) by exact_mod_cast below)
  omega

theorem quotas_iff (pack : HttpPacket) : Right w pack ↔ Good w pack := by
  simp only [Right,Good,← info_num_iff,GetMoodScensChannelSongsV4_iff]

end Claim

/-- Two dimensions are queried, and only the first of them gets a quota. -/
theorem scene_without_quota : ¬Right ⟨fun _ => 9,fun _ _ => none⟩ fun name =>
    [(ascii "uid",ascii "7"),(ascii "moodindex",ascii "1"),(ascii "moodid",ascii "3"),(ascii "sceneindex",ascii "2"),
      (ascii "sceneid",ascii "4"),(ascii "typeindex",ascii "-1"),(ascii "num",ascii "5")].lookup name := by
  intro right
  obtain ⟨num,given,_⟩ := right _ rfl .scene (by decide)
  cases given

end Migfm.Music.Quotas
