import Mathlib.Data.Rat.Floor
import Mathlib.Tactic

/-! `AllocationLatitudeMusicNum` of public/algorithm/algorithm_base.cc: how many of the
songs asked for each of three dimensions gets. The arithmetic is exact. -/
namespace Migfm.Public.AlgorithmBase

/-- The values of `flag`. -/
inductive Latitude
  | mood
  | scenes
  | channel

/-- A conversion to `int`. -/
def trunc (X : ℚ) : ℤ := if X < 0 then ⌈X⌉ else ⌊X⌋

def MIG_PLUGIS_RETURN (X : ℚ) : ℤ := if (X - trunc X) * 10 > 5 then 1 else 0

/-- What a dimension gets, at least one. -/
def count (X : ℚ) : ℤ :=
  let n := trunc (X + MIG_PLUGIS_RETURN X)
  if n = 0 then 1 else n

/-- The larger of the two that are not flagged gets a half from the other. -/
def shift (first second : ℚ) : ℚ × ℚ :=
  if second < first then (first + 1 / 2,second - 1 / 2)
  else if first < second then (first - 1 / 2,second + 1 / 2)
  else (first,second)

def largest (dl_mood_num dl_scenes_num dl_channel_num : ℚ) : Latitude :=
  if dl_mood_num ≥ dl_scenes_num then if dl_mood_num ≥ dl_channel_num then .mood else .channel
  else if dl_scenes_num ≥ dl_channel_num then .scenes
  else .channel

/-- The `switch`, and the counts. -/
def distribute (dl_mood_num dl_scenes_num dl_channel_num surplus_num : ℚ) : ℤ × ℤ × ℤ :=
  match largest dl_mood_num dl_scenes_num dl_channel_num with
  | .mood =>
    let others := shift dl_scenes_num dl_channel_num
    (count (dl_mood_num + surplus_num),count others.1,count others.2)
  | .scenes =>
    let others := shift dl_mood_num dl_channel_num
    (count others.1,count (dl_scenes_num + surplus_num),count others.2)
  | .channel =>
    let others := shift dl_mood_num dl_scenes_num
    (count others.1,count others.2,count (dl_channel_num + surplus_num))

section Allocate
variable (mood_index scenes_index channel_index num : ℤ)

def overall_num : ℚ :=
  if (mood_index : ℚ) + scenes_index + channel_index = 0 then 1 else mood_index + scenes_index + channel_index

/-- The part of the songs that an index has. -/
def share (index : ℤ) : ℚ := index / overall_num mood_index scenes_index channel_index * num

/-- The counts of mood, scenes and channel. -/
def AllocationLatitudeMusicNum : ℤ × ℤ × ℤ :=
  let dl_mood_num := share mood_index scenes_index channel_index num mood_index
  let dl_scenes_num := share mood_index scenes_index channel_index num scenes_index
  let dl_channel_num := share mood_index scenes_index channel_index num channel_index
  let surplus_num : ℚ := num - dl_mood_num - dl_scenes_num - dl_channel_num
  let surplus_num := if surplus_num = 0 then 1 / 2 else surplus_num
  distribute dl_mood_num dl_scenes_num dl_channel_num surplus_num

end Allocate

/-! ### Counts -/

theorem trunc_nonneg {X : ℚ} (natural : 0 ≤ X) : trunc X = ⌊X⌋ := if_neg (not_lt.mpr natural)

/-- An exact half is rounded down. -/
theorem count_eq {X : ℚ} (low : -1 / 2 ≤ X) : count X = max 1 ⌈X - 1 / 2⌉ := by
  by_cases natural : 0 ≤ X
  · have floor := Int.floor_le X
    have next := Int.lt_floor_add_one X
    have nonneg : 0 ≤ ⌊X⌋ := Int.floor_nonneg.mpr natural
    rw [count,MIG_PLUGIS_RETURN,trunc_nonneg natural]
    by_cases above : (X - ⌊X⌋) * 10 > 5
    · have up : ⌈X - 1 / 2⌉ = ⌊X⌋ + 1 := by
        rw [Int.ceil_eq_iff]
        push_cast
        constructor <;> linarith
      have grown : trunc (X + (1 : ℤ)) = ⌊X⌋ + 1 := by
        rw [trunc_nonneg (by push_cast; linarith),Int.floor_add_intCast]
      rw [if_pos above,grown,up]
      rw [if_neg (by omega),max_eq_right (by omega)]
    · have down : ⌈X - 1 / 2⌉ = ⌊X⌋ := by
        rw [Int.ceil_eq_iff]
        constructor <;> linarith
      have same : trunc (X + (0 : ℤ)) = ⌊X⌋ := by rw [Int.cast_zero,add_zero,trunc_nonneg natural]
      rw [if_neg above,same,down]
      split
      · omega
      · omega
  · have negative : X < 0 := not_le.mp natural
    have ceil : ⌈X⌉ = 0 := by
      rw [Int.ceil_eq_iff]
      push_cast
      constructor <;> linarith
    have below : ⌈X - 1 / 2⌉ ≤ 0 := by
      rw [Int.ceil_le]
      push_cast
      linarith
    have truncated : trunc X = 0 := by rw [trunc,if_pos negative,ceil]
    have none_ : MIG_PLUGIS_RETURN X = 0 := by
      rw [MIG_PLUGIS_RETURN,truncated]
      exact if_neg (by push_cast; linarith)
    rw [count,none_,Int.cast_zero,add_zero,truncated,max_eq_left (by omega)]
    rfl

theorem one_le_count {X : ℚ} (low : -1 / 2 ≤ X) : 1 ≤ count X := count_eq low ▸ le_max_left ..

theorem count_mono {X Y : ℚ} (low : -1 / 2 ≤ X) (le : X ≤ Y) : count X ≤ count Y := by
  rw [count_eq low,count_eq (low.trans le)]
  exact max_le_max le_rfl (Int.ceil_mono (by linarith))

/-! ### The total -/

/-- When three shares of `num` give `num`: the two smaller ones are equal and rounded
down, or the halves that are moved make up for the rounding. -/
def Exact (first second third : ℚ) (num : ℤ) : Prop :=
  if second = third then 1 ≤ third ∧ Int.fract third < 1 / 2
  else third = 1 ∧ (⌈first⌉ : ℚ) = first ∧ (⌈second⌉ : ℚ) = second ∨ 1 < third ∧ ⌈first⌉ + ⌈second⌉ + ⌈third⌉ = num + 1

section Total
variable {first second third : ℚ} {num : ℤ}

theorem count_up (natural : 0 ≤ first) : count (first + 1 / 2) = max 1 ⌈first⌉ := by
  rw [count_eq (by linarith),add_sub_cancel_right]

theorem count_down (natural : 0 ≤ first) : count (first - 1 / 2) = max 1 (⌈first⌉ - 1) := by
  have one : first - 1 / 2 - 1 / 2 = first - (1 : ℤ) := by
    push_cast
    ring
  rw [count_eq (by linarith),one,Int.ceil_sub_intCast]

theorem total_apart (natural : 0 ≤ third) (less : third < second) (more : 1 ≤ first) (sum : first + second + third = num) :
    count (first + 1 / 2) + count (second + 1 / 2) + count (third - 1 / 2) = num ↔ Exact first second third num := by
  have one : 1 ≤ ⌈first⌉ := Int.one_le_ceil_iff.mpr (by linarith)
  have two : 1 ≤ ⌈second⌉ := Int.one_le_ceil_iff.mpr (by linarith)
  have above := Int.le_ceil first
  have above' := Int.le_ceil second
  rw [count_up (by linarith),count_up (by linarith),count_down natural,max_eq_right one,max_eq_right two,Exact,if_neg (ne_of_gt less)]
  by_cases small : third ≤ 1
  · have three : ⌈third⌉ ≤ 1 := Int.ceil_le.mpr (by push_cast; exact small)
    rw [max_eq_left (by omega)]
    constructor
    · intro total
      have cast : (⌈first⌉ : ℚ) + ⌈second⌉ + 1 = num := by exact_mod_cast total
      exact .inl ⟨by linarith,by linarith,by linarith⟩
    · rintro (⟨unit,whole,whole'⟩ | ⟨large,-⟩)
      · have cast : (⌈first⌉ : ℚ) + ⌈second⌉ + 1 = num := by rw [whole,whole',← sum,unit]
        exact_mod_cast cast
      · exact absurd small (not_le.mpr large)
  · have large := not_le.mp small
    have three : 1 < ⌈third⌉ := Int.lt_ceil.mpr (by push_cast; exact large)
    rw [max_eq_right (by omega)]
    constructor
    · exact fun total => .inr ⟨large,by omega⟩
    · rintro (⟨unit,-⟩ | ⟨-,total⟩)
      · exact absurd unit.le small
      · omega

theorem total_equal (natural : 0 ≤ second) (more : 1 ≤ first) (sum : first + second + second = num) :
    count (first + 1 / 2) + count second + count second = num ↔ Exact first second second num := by
  have one : 1 ≤ ⌈first⌉ := Int.one_le_ceil_iff.mpr (by linarith)
  have rest : ⌈first⌉ = num - ⌊2 * second⌋ := by
    have difference : first = num - 2 * second := by linarith
    rw [difference,sub_eq_add_neg,Int.ceil_intCast_add,Int.ceil_neg,sub_eq_add_neg]
  have split_ : second = ⌊second⌋ + Int.fract second := (Int.floor_add_fract second).symm
  have low := Int.fract_nonneg second
  have high := Int.fract_lt_one second
  rw [count_up (by linarith),count_eq (by linarith),max_eq_right one,rest,Exact,if_pos rfl]
  by_cases half : Int.fract second < 1 / 2
  · have double : ⌊2 * second⌋ = 2 * ⌊second⌋ := by
      rw [Int.floor_eq_iff]
      push_cast
      constructor <;> linarith
    have down : ⌈second - 1 / 2⌉ = ⌊second⌋ := by
      rw [Int.ceil_eq_iff]
      constructor <;> linarith
    have unit : 1 ≤ second ↔ 1 ≤ ⌊second⌋ := by
      rw [Int.le_floor]
      push_cast
      rfl
    rw [double,down,unit]
    constructor
    · intro total
      exact ⟨by omega,half⟩
    · rintro ⟨least,-⟩
      omega
  · have double : ⌊2 * second⌋ = 2 * ⌊second⌋ + 1 := by
      rw [Int.floor_eq_iff]
      push_cast
      constructor <;> linarith
    rw [double]
    constructor
    · intro total
      omega
    · exact fun good => absurd good.2 half

/-- What the flagged share and the two others lead to. -/
structure Spread (first second third : ℚ) (num one two three : ℤ) : Prop where
  least : 1 ≤ one ∧ 1 ≤ two ∧ 1 ≤ three
  flagged : two ≤ one ∧ three ≤ one
  before : second < third → two ≤ three
  behind : third < second → three ≤ two
  total : one + two + three = num ↔ Exact first (max second third) (min second third) num

theorem shift_spread (natural : 0 ≤ second) (natural' : 0 ≤ third) (most : second ≤ first) (most' : third ≤ first) (more : 1 ≤ first)
    (sum : first + second + third = num) :
    Spread first second third num (count (first + 1 / 2)) (count (shift second third).1) (count (shift second third).2) := by
  have one : 1 ≤ count (first + 1 / 2) := one_le_count (by linarith)
  rw [shift]
  by_cases less : third < second
  · rw [if_pos less]
    have two : count (second + 1 / 2) ≤ count (first + 1 / 2) := count_mono (by linarith) (by linarith)
    have three : count (third - 1 / 2) ≤ count (second + 1 / 2) := count_mono (by linarith) (by linarith)
    refine ⟨⟨one,one_le_count (by linarith),one_le_count (by linarith)⟩,⟨two,three.trans two⟩,fun other => absurd other less.not_gt,
      fun _ => three,?_⟩
    rw [max_eq_left less.le,min_eq_right less.le]
    exact total_apart natural' less more sum
  · rw [if_neg less]
    by_cases greater : second < third
    · rw [if_pos greater]
      have three : count (third + 1 / 2) ≤ count (first + 1 / 2) := count_mono (by linarith) (by linarith)
      have two : count (second - 1 / 2) ≤ count (third + 1 / 2) := count_mono (by linarith) (by linarith)
      refine ⟨⟨one,one_le_count (by linarith),one_le_count (by linarith)⟩,⟨two.trans three,three⟩,fun _ => two,
        fun other => absurd other less,?_⟩
      rw [max_eq_right greater.le,min_eq_left greater.le,add_right_comm]
      exact total_apart natural greater more (by linarith)
    · rw [if_neg greater]
      obtain rfl : second = third := le_antisymm (not_lt.mp less) (not_lt.mp greater)
      have two : count second ≤ count (first + 1 / 2) := count_mono (by linarith) (by linarith)
      refine ⟨⟨one,one_le_count (by linarith),one_le_count (by linarith)⟩,⟨two,two⟩,fun _ => le_rfl,fun _ => le_rfl,?_⟩
      rw [max_self,min_self]
      exact total_equal natural more sum

theorem largest_spec (first second third : ℚ) :
    match largest first second third with
    | .mood => second ≤ first ∧ third ≤ first
    | .scenes => first ≤ second ∧ third ≤ second
    | .channel => first ≤ third ∧ second ≤ third := by
  rw [largest]
  by_cases one : first ≥ second
  · rw [if_pos one]
    by_cases two : first ≥ third
    · rw [if_pos two]
      exact ⟨one,two⟩
    · rw [if_neg two]
      exact ⟨(not_le.mp two).le,one.trans (not_le.mp two).le⟩
  · rw [if_neg one]
    by_cases two : second ≥ third
    · rw [if_pos two]
      exact ⟨(not_le.mp one).le,two⟩
    · rw [if_neg two]
      exact ⟨(not_le.mp one).le.trans (not_le.mp two).le,(not_le.mp two).le⟩

/-- A larger share never leads to fewer songs. -/
structure Along (first second : ℚ) (one two : ℤ) : Prop where
  before : first < second → one ≤ two
  behind : second < first → two ≤ one

theorem Along.of_le {one two : ℤ} (le : second ≤ first) (fewer : two ≤ one) : Along first second one two :=
  ⟨fun less => absurd le less.not_ge,fun _ => fewer⟩

theorem Along.of_ge {one two : ℤ} (le : first ≤ second) (fewer : one ≤ two) : Along first second one two :=
  ⟨fun _ => fewer,fun less => absurd le less.not_ge⟩

theorem distribute_spec (one : 0 ≤ first) (two : 0 ≤ second) (three : 0 ≤ third) (sum : first + second + third = num) (enough : 3 ≤ num) :
    let nums := distribute first second third (1 / 2)
    let high := max first (max second third)
    let low := min first (min second third)
    (1 ≤ nums.1 ∧ 1 ≤ nums.2.1 ∧ 1 ≤ nums.2.2) ∧
      (Along first second nums.1 nums.2.1 ∧ Along first third nums.1 nums.2.2 ∧ Along second third nums.2.1 nums.2.2) ∧
      (nums.1 + nums.2.1 + nums.2.2 = num ↔ Exact high (num - high - low) low num) := by
  have asked : (3 : ℚ) ≤ num := by exact_mod_cast enough
  have most := largest_spec first second third
  dsimp only
  rw [distribute]
  cases flag : largest first second third with
  | mood =>
    rw [flag] at most
    have spread := shift_spread two three most.1 most.2 (by linarith [most.1,most.2]) sum
    have high : max first (max second third) = first := max_eq_left (max_le most.1 most.2)
    have low : min first (min second third) = min second third := min_eq_right ((min_le_left _ _).trans most.1)
    have middle : (num : ℚ) - first - min second third = max second third := by
      linarith [max_add_min second third]
    rw [high,low,middle]
    exact ⟨spread.least,⟨.of_le most.1 spread.flagged.1,.of_le most.2 spread.flagged.2,⟨spread.before,spread.behind⟩⟩,spread.total⟩
  | scenes =>
    rw [flag] at most
    have spread := shift_spread one three most.1 most.2 (by linarith [most.1,most.2]) (by linarith : second + first + third = num)
    have high : max first (max second third) = second := by rw [max_eq_left most.2,max_eq_right most.1]
    have low : min first (min second third) = min first third := by rw [min_eq_right most.2]
    have middle : (num : ℚ) - second - min first third = max first third := by
      linarith [max_add_min first third]
    rw [high,low,middle]
    refine ⟨⟨spread.least.2.1,spread.least.1,spread.least.2.2⟩,⟨.of_ge most.1 spread.flagged.1,⟨spread.before,spread.behind⟩,
      .of_le most.2 spread.flagged.2⟩,?_⟩
    rw [← spread.total,add_comm (count (shift first third).1)]
  | channel =>
    rw [flag] at most
    have spread := shift_spread one two most.1 most.2 (by linarith [most.1,most.2]) (by linarith : third + first + second = num)
    have high : max first (max second third) = third := by rw [max_eq_right most.2,max_eq_right most.1]
    have low : min first (min second third) = min first second := by rw [← min_assoc,min_eq_left ((min_le_left _ _).trans most.1)]
    have middle : (num : ℚ) - third - min first second = max first second := by
      linarith [max_add_min first second]
    rw [high,low,middle]
    refine ⟨⟨spread.least.2.1,spread.least.2.2,spread.least.1⟩,⟨⟨spread.before,spread.behind⟩,.of_ge most.1 spread.flagged.1,
      .of_ge most.2 spread.flagged.2⟩,?_⟩
    rw [← spread.total,add_assoc (count (third + 1 / 2)),add_comm (count (third + 1 / 2))]

end Total

/-! ### Indexes -/

section Indexes
variable {mood_index scenes_index channel_index num : ℤ}

/-- Each dimension gets a song, all songs are given, and a larger index never gets fewer. -/
def Fair (mood_index scenes_index channel_index num : ℤ) : Prop :=
  let nums := AllocationLatitudeMusicNum mood_index scenes_index channel_index num
  let dimensions := [(mood_index,nums.1),(scenes_index,nums.2.1),(channel_index,nums.2.2)]
  (∀ dimension ∈ dimensions, 1 ≤ dimension.2) ∧ nums.1 + nums.2.1 + nums.2.2 = num ∧
    ∀ less ∈ dimensions, ∀ more ∈ dimensions, less.1 < more.1 → less.2 ≤ more.2

/-- The condition on the shares, in their order. -/
def Divides (mood_index scenes_index channel_index num : ℤ) : Prop :=
  let share := share mood_index scenes_index channel_index num
  let high := max (share mood_index) (max (share scenes_index) (share channel_index))
  let low := min (share mood_index) (min (share scenes_index) (share channel_index))
  Exact high (num - high - low) low num

theorem ordered_of {i j k x y z : ℤ} (first : (i < j → x ≤ y) ∧ (j < i → y ≤ x)) (second : (i < k → x ≤ z) ∧ (k < i → z ≤ x))
    (third : (j < k → y ≤ z) ∧ (k < j → z ≤ y)) :
    ∀ less ∈ [(i,x),(j,y),(k,z)], ∀ more ∈ [(i,x),(j,y),(k,z)], less.1 < more.1 → less.2 ≤ more.2 := by
  intro less listed more listed'
  simp only [List.mem_cons,List.not_mem_nil,or_false] at listed listed'
  obtain rfl | rfl | rfl := listed
  · obtain rfl | rfl | rfl := listed'
    · exact fun _ => le_rfl
    · exact first.1
    · exact second.1
  · obtain rfl | rfl | rfl := listed'
    · exact first.2
    · exact fun _ => le_rfl
    · exact third.1
  · obtain rfl | rfl | rfl := listed'
    · exact second.2
    · exact third.2
    · exact fun _ => le_rfl

section Some
variable (mood : 0 ≤ mood_index) (scenes : 0 ≤ scenes_index) (channel : 0 ≤ channel_index)
  (some_ : ¬(mood_index = 0 ∧ scenes_index = 0 ∧ channel_index = 0)) (enough : 3 ≤ num)

include mood scenes channel some_ in
theorem overall_pos : 0 < overall_num mood_index scenes_index channel_index ∧
    overall_num mood_index scenes_index channel_index = (mood_index : ℚ) + scenes_index + channel_index := by
  have positive : 0 < mood_index + scenes_index + channel_index := by omega
  have cast : (0 : ℚ) < mood_index + scenes_index + channel_index := by exact_mod_cast positive
  rw [overall_num,if_neg cast.ne']
  exact ⟨cast,rfl⟩

include mood scenes channel some_ in
theorem share_sum : share mood_index scenes_index channel_index num mood_index + share mood_index scenes_index channel_index num scenes_index +
    share mood_index scenes_index channel_index num channel_index = num := by
  obtain ⟨positive,overall⟩ := overall_pos mood scenes channel some_
  rw [share,share,share,← add_mul,← add_mul,← add_div,← add_div,← overall,div_self positive.ne',one_mul]

include mood scenes channel some_ enough in
theorem share_lt {less more : ℤ} : share mood_index scenes_index channel_index num less <
    share mood_index scenes_index channel_index num more ↔ less < more := by
  obtain ⟨positive,-⟩ := overall_pos mood scenes channel some_
  have songs : (0 : ℚ) < num := by exact_mod_cast (by omega : 0 < num)
  rw [share,share,mul_lt_mul_iff_left₀ songs,div_lt_div_iff_of_pos_right positive,Int.cast_lt]

include mood scenes channel some_ enough in
theorem share_nonneg {index : ℤ} (natural : 0 ≤ index) : 0 ≤ share mood_index scenes_index channel_index num index := by
  obtain ⟨positive,-⟩ := overall_pos mood scenes channel some_
  have songs : (0 : ℚ) ≤ num := by exact_mod_cast (by omega : 0 ≤ num)
  exact mul_nonneg (div_nonneg (by exact_mod_cast natural) positive.le) songs

include mood scenes channel some_ enough in
theorem AllocationLatitudeMusicNum_iff : Fair mood_index scenes_index channel_index num ↔ Divides mood_index scenes_index channel_index num := by
  have sum := @share_sum mood_index scenes_index channel_index num mood scenes channel some_
  have lt {less more : ℤ} := @share_lt mood_index scenes_index channel_index num mood scenes channel some_ enough less more
  have ordered {i j x y : ℤ} (along : Along (share mood_index scenes_index channel_index num i)
      (share mood_index scenes_index channel_index num j) x y) : (i < j → x ≤ y) ∧ (j < i → y ≤ x) :=
    ⟨fun less => along.before (lt.mpr less),fun less => along.behind (lt.mpr less)⟩
  have surplus : (num : ℚ) - share mood_index scenes_index channel_index num mood_index -
      share mood_index scenes_index channel_index num scenes_index - share mood_index scenes_index channel_index num channel_index = 0 := by
    linarith
  obtain ⟨least,⟨first,second,third⟩,total⟩ := distribute_spec (share_nonneg mood scenes channel some_ enough mood)
    (share_nonneg mood scenes channel some_ enough scenes) (share_nonneg mood scenes channel some_ enough channel) sum enough
  rw [Fair,Divides,AllocationLatitudeMusicNum]
  simp only [surplus,if_true]
  constructor
  · exact fun fair => total.mp fair.2.1
  · intro divides
    refine ⟨?_,total.mpr divides,ordered_of (ordered first) (ordered second) (ordered third)⟩
    simp only [List.forall_mem_cons,List.not_mem_nil]
    exact ⟨least.1,least.2.1,least.2.2,fun _ none_ => none_.elim⟩

end Some
end Indexes

/-- Equal indexes and three songs. -/
theorem fair_three : Fair 1 1 1 3 := by
  have divides : Divides 1 1 1 3 := by
    have share_ : share 1 1 1 3 1 = 1 := by norm_num [share,overall_num]
    rw [Divides,share_,max_self,max_self,min_self,min_self,Exact,if_pos (by norm_num)]
    norm_num
  exact (AllocationLatitudeMusicNum_iff (by decide) (by decide) (by decide) (by decide) (by decide)).mpr divides

/-- Nine songs for the indexes 4, 3 and 2: eight are given. -/
theorem eight_of_nine : AllocationLatitudeMusicNum 4 3 2 9 = (4,3,1) ∧ ¬Fair 4 3 2 9 := by
  have mood : share 4 3 2 9 4 = 4 := by norm_num [share,overall_num]
  have scenes : share 4 3 2 9 3 = 3 := by norm_num [share,overall_num]
  have channel : share 4 3 2 9 2 = 2 := by norm_num [share,overall_num]
  have given : AllocationLatitudeMusicNum 4 3 2 9 = (4,3,1) := by
    have flag : largest 4 3 2 = .mood := by norm_num [largest]
    have others : shift 3 2 = (3 + 1 / 2,2 - 1 / 2) := by norm_num [shift]
    have surplus : ((9 : ℤ) : ℚ) - 4 - 3 - 2 = 0 := by norm_num
    have most : count (4 + 1 / 2) = 4 := by rw [count_up (by norm_num)]; norm_num
    have more : count (3 + 1 / 2) = 3 := by rw [count_up (by norm_num)]; norm_num
    have least : count (2 - 1 / 2) = 1 := by rw [count_down (by norm_num)]; norm_num
    rw [AllocationLatitudeMusicNum,mood,scenes,channel,surplus,if_pos rfl,distribute,flag,others]
    exact congrArg₂ Prod.mk most (congrArg₂ Prod.mk more least)
  refine ⟨given,fun fair => ?_⟩
  have total := fair.2.1
  rw [given] at total
  cases total

end Migfm.Public.AlgorithmBase
