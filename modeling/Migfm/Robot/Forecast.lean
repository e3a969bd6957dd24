import Mathlib.Algebra.Order.Field.Rat
import Migfm.Logic.ValueSerializer
import Migfm.Storage.RedisWarrper

/-! The weather of the next hour: robot_weather_mgr.cc and logic_unit.cc of robot/robot.
Numbers that are not integers are exact. -/
namespace Migfm.Robot.Forecast
open Logic (ascii)
open Storage (c_str)

/-! ### Values of public/json -/

inductive Value
  | null
  | boolean (value : Bool)
  | int (value : Int64)
  | uint (value : UInt64)
  | real (value : ℚ)
  | string (value : List UInt8)
  | array (items : List Value)
  | object (members : List (List UInt8 × Value))

namespace Value

/-- No outcome where the library fails. -/
def member (root : Value) (name : List UInt8) : Option (Option Value) :=
  match root with
  | .null => some none
  | .object members => some (members.lookup name)
  | _ => none

def asString : Value → Option (List UInt8)
  | .null => some []
  | .string value => some (c_str value)
  | .boolean value => some (ascii (if value then "true" else "false"))
  | _ => none

def asInt : Value → Option Int32
  | .null => some 0
  | .int value => if -0x80000000 ≤ value ∧ value ≤ 0x7fffffff then some value.toInt32 else none
  | .uint value => if value ≤ 0x7fffffff then some value.toUInt32.toInt32 else none
  | .real value => if -2147483648 ≤ value ∧ value ≤ 2147483647 then some (Int32.ofInt (value.num.tdiv value.den)) else none
  | .boolean value => some (if value then 1 else 0)
  | _ => none

def asDouble : Value → Option ℚ
  | .null => some 0
  | .int value => some value.toInt
  | .uint value => some value.toNat
  | .real value => some value
  | .boolean value => some (if value then 1 else 0)
  | _ => none

def size : Value → UInt32
  | .array items => UInt32.ofNat items.length
  | .object members => UInt32.ofNat members.length
  | _ => 0

def item (value : Value) (index : Nat) : Option Value :=
  match value with
  | .null => some .null
  | .array items => some (items[index]?.getD .null)
  | _ => none

end Value

/-! ### logic_unit.cc -/

/-- The codes of the weather; `UNKONW` for any other text. -/
def caiyuncode (status : List UInt8) : Int32 :=
  let status := c_str status
  if status = ascii "RAIN" then 100
  else if status = ascii "CLEAR_DAY" then 101
  else if status = ascii "CLEAR_NIGHT" then 102
  else if status = ascii "PARTLY_CLOUDY_DAY" then 103
  else if status = ascii "PARTLY_CLOUDY_NIGHT" then 104
  else if status = ascii "CLOUDY" then 105
  else if status = ascii "SLEET" then 106
  else if status = ascii "SNOW" then 107
  else if status = ascii "WIND" then 108
  else if status = ascii "FOG" then 109
  else 110

structure Resolved where
  skycon : List UInt8 := []
  temp : Int32
  dataseries_list : List ℚ := []

/-- The loop over the series, which has the index 0 in every round. -/
def readSeries (dataseries : Value) : Nat → List ℚ → Option (List ℚ)
  | 0,dataseries_list => some dataseries_list
  | left + 1,dataseries_list => do
    let datasery ← (← dataseries.item 0).asDouble
    readSeries dataseries left (dataseries_list ++ [datasery])

section Reply
variable (parse : List UInt8 → Option Value)

def ReolveJsonCaiYunJson (content : List UInt8) (temp : Int32) : Option (Bool × Resolved) :=
  match parse (c_str content) with
  | none => some (false,{ temp })
  | some root => do
    let some status ← root.member (ascii "status") | some (false,{ temp })
    let status ← status.asString
    if status ≠ ascii "ok" then some (false,{ temp })
    else
      let some skycon ← root.member (ascii "skycon") | some (false,{ temp })
      let skycon ← skycon.asString
      let some temp' ← root.member (ascii "temp") | some (false,{ skycon,temp })
      let temp ← temp'.asInt
      let some dataseries ← root.member (ascii "dataseries") | some (false,{ skycon,temp })
      let dataseries_size := dataseries.size.toInt32
      let dataseries_list ← readSeries dataseries dataseries_size.toInt.toNat []
      some (true,{ skycon,temp,dataseries_list })

def CalculateOneHourWeather (weather_result : ℚ) (furture_time : Int32) : List ℚ → ℚ × Int32
  | [] => (weather_result,furture_time)
  | result::dataseries_list =>
    if 0 < result then (result,furture_time + 1)
    else CalculateOneHourWeather weather_result (furture_time + 1) dataseries_list

/-! ### robot_weather_mgr.cc -/

/-- The outputs, or what the caller has in their places. -/
structure Weather where
  temp : Int32
  curret_weather : Int32
  future_weather : Int32
  futrue_time : Int32

/-- `content` is what the request brings; a failed one brings nothing. -/
def RequestCaiYunWeather (content : Option (List UInt8)) (weather : Weather) : Option (Bool × Weather) :=
  match content with
  | none => some (false,weather)
  | some content => do
    let (r,resolved) ← ReolveJsonCaiYunJson parse content weather.temp
    let weather := { weather with temp := resolved.temp }
    if !r then some (false,weather)
    else
      let curret_weather := caiyuncode resolved.skycon
      let (d_future_weather,futrue_time) := CalculateOneHourWeather 0 0 resolved.dataseries_list
      let future_weather := if 0 < d_future_weather then 0 else weather.future_weather
      some (true,{ weather with curret_weather,future_weather,futrue_time })

/-! ### Replies -/

/-- A reply with all that is asked for. -/
structure Reply where
  content : List UInt8
  root : Value
  parsed : parse (c_str content) = some root
  status : ∃ value, root.member (ascii "status") = some (some value) ∧ value.asString = some (ascii "ok")
  skycon : List UInt8
  skycon_ : ∃ value, root.member (ascii "skycon") = some (some value) ∧ value.asString = some skycon
  temp : Int32
  temp_ : ∃ value, root.member (ascii "temp") = some (some value) ∧ value.asInt = some temp
  items : List Value
  dataseries : root.member (ascii "dataseries") = some (some (.array items))
  series : List ℚ
  series_ : items.mapM Value.asDouble = some series

/-- The rain begins at a position. -/
def Begins (series : List ℚ) (i : Nat) : Prop :=
  (∃ rain, series[i]? = some rain ∧ 0 < rain) ∧ ∀ j < i, ∀ dry, series[j]? = some dry → dry ≤ 0

/-- What the outputs should be, whatever the caller has in their places. -/
structure Forecasts {parse : List UInt8 → Option Value} (reply : Reply parse) : Prop where
  returns : ∀ memory, ∃ weather, RequestCaiYunWeather parse (some reply.content) memory = some (true,weather) ∧
    weather.temp = reply.temp ∧ weather.curret_weather = caiyuncode reply.skycon
  rain : ∀ i, Begins reply.series i → ∀ memory, ∃ weather,
    RequestCaiYunWeather parse (some reply.content) memory = some (true,weather) ∧
      weather.future_weather = 0 ∧ weather.futrue_time.toInt = i + 1
  dry : (∀ value ∈ reply.series, value ≤ 0) → ∃ future_weather futrue_time, future_weather ≠ 0 ∧ ∀ memory, ∃ weather,
    RequestCaiYunWeather parse (some reply.content) memory = some (true,weather) ∧
      weather.future_weather = future_weather ∧ weather.futrue_time = futrue_time

variable {parse}

/-- The length of the series as an `int`, and the rounds of the loop. -/
def Reply.dataseries_size (reply : Reply parse) : Int32 := (UInt32.ofNat reply.items.length).toInt32

/-- The element that all others are taken for. -/
def Reply.first (reply : Reply parse) : ℚ := reply.series.headD 0

theorem Reply.first_item (reply : Reply parse) : (reply.items[0]?.getD Value.null).asDouble = some reply.first := by
  have all := reply.series_
  rw [first]
  cases items : reply.items with
  | nil =>
    rw [items,List.mapM_nil] at all
    rw [← Option.some.inj all]
    rfl
  | cons item items =>
    rw [items,List.mapM_cons] at all
    obtain ⟨first,here,all⟩ := Option.bind_eq_some_iff.mp all
    obtain ⟨rest,-,all⟩ := Option.bind_eq_some_iff.mp all
    rw [← Option.some.inj all]
    exact here

theorem Reply.readSeries_first (reply : Reply parse) (left : Nat) (dataseries_list : List ℚ) :
    readSeries (.array reply.items) left dataseries_list = some (dataseries_list ++ List.replicate left reply.first) := by
  induction left generalizing dataseries_list with
  | zero => rw [readSeries,List.replicate_zero,List.append_nil]
  | succ left ih =>
    rw [readSeries,Value.item,Option.bind_eq_bind,Option.bind_some,reply.first_item,Option.bind_eq_bind,Option.bind_some,ih,
      List.replicate_succ,List.append_assoc]
    rfl

theorem ReolveJsonCaiYunJson_reply (reply : Reply parse) (temp : Int32) :
    ReolveJsonCaiYunJson parse reply.content temp =
      some (true,⟨reply.skycon,reply.temp,List.replicate reply.dataseries_size.toInt.toNat reply.first⟩) := by
  obtain ⟨status,has_status,status_⟩ := reply.status
  obtain ⟨skycon,has_skycon,skycon_⟩ := reply.skycon_
  obtain ⟨temp,has_temp,temp_⟩ := reply.temp_
  rw [ReolveJsonCaiYunJson,reply.parsed]
  simp only [has_status,status_,has_skycon,skycon_,has_temp,temp_,reply.dataseries,Option.bind_eq_bind,Option.bind_some,ne_eq,
    not_true_eq_false,if_false]
  rw [show (Value.array reply.items).size.toInt32 = reply.dataseries_size from rfl,reply.readSeries_first]
  rfl

theorem CalculateOneHourWeather_rain {first : ℚ} (rain : 0 < first) {count : Nat} (some_ : 0 < count) :
    CalculateOneHourWeather 0 0 (List.replicate count first) = (first,1) := by
  obtain ⟨count,rfl⟩ := Nat.exists_eq_add_of_lt some_
  rw [Nat.zero_add,List.replicate_succ,CalculateOneHourWeather,if_pos rain]
  rfl

theorem CalculateOneHourWeather_dry {series : List ℚ} (dry : ∀ value ∈ series, value ≤ 0) (furture_time : Int32) :
    CalculateOneHourWeather 0 furture_time series = (0,furture_time + Int32.ofNat series.length) := by
  induction series generalizing furture_time with
  | nil => exact congrArg (Prod.mk 0) (Int32.add_zero _).symm
  | cons value series ih =>
    obtain ⟨here,later⟩ := List.forall_mem_cons.mp dry
    rw [CalculateOneHourWeather,if_neg (not_lt.mpr here),ih later,List.length_cons,Int32.ofNat_add,Int32.add_assoc,
      Int32.add_comm 1]
    rfl

/-- A reply gives its weather; rain if it begins at once. -/
theorem RequestCaiYunWeather_rain (reply : Reply parse) (rain : 0 < reply.first) (some_ : 0 < reply.dataseries_size.toInt)
    (memory : Weather) :
    RequestCaiYunWeather parse (some reply.content) memory = some (true,⟨reply.temp,caiyuncode reply.skycon,0,1⟩) := by
  rw [RequestCaiYunWeather,ReolveJsonCaiYunJson_reply,Option.bind_eq_bind,Option.bind_some]
  dsimp only
  rw [CalculateOneHourWeather_rain rain (by omega),if_pos rain]
  rfl

/-- Otherwise the future weather is what the caller has there. -/
theorem RequestCaiYunWeather_dry (reply : Reply parse) (dry : ¬(0 < reply.first ∧ 0 < reply.dataseries_size.toInt))
    (memory : Weather) :
    RequestCaiYunWeather parse (some reply.content) memory =
      some (true,⟨reply.temp,caiyuncode reply.skycon,memory.future_weather,Int32.ofNat reply.dataseries_size.toInt.toNat⟩) := by
  rw [RequestCaiYunWeather,ReolveJsonCaiYunJson_reply,Option.bind_eq_bind,Option.bind_some]
  dsimp only
  have all : ∀ value ∈ List.replicate reply.dataseries_size.toInt.toNat reply.first, value ≤ 0 := by
    intro value member
    obtain ⟨some_,rfl⟩ := List.mem_replicate.mp member
    exact not_lt.mp fun rain => dry ⟨rain,by omega⟩
  rw [CalculateOneHourWeather_dry all,List.length_replicate,Int32.zero_add]
  rfl

/-- Either it rains at some position first, or it stays dry. -/
theorem begins_or_dry (series : List ℚ) : (∃ i, Begins series i) ∨ ∀ value ∈ series, value ≤ 0 := by
  induction series with
  | nil => exact .inr (List.forall_mem_nil _)
  | cons value series ih =>
    by_cases rain : 0 < value
    · exact .inl ⟨0,⟨value,rfl,rain⟩,fun j before => absurd before (Nat.not_lt_zero j)⟩
    · obtain ⟨i,there,before⟩ | dry := ih
      · refine .inl ⟨i + 1,there,fun j less other at_ => ?_⟩
        cases j with
        | zero =>
          cases at_
          exact not_lt.mp rain
        | succ j => exact before j (Nat.lt_of_succ_lt_succ less) other at_
      · exact .inr (List.forall_mem_cons.mpr ⟨not_lt.mp rain,dry⟩)

/-- Rain that begins with the series is forecast, and nothing else. -/
theorem forecasts_iff (reply : Reply parse) : Forecasts reply ↔ 0 < reply.first ∧ 0 < reply.dataseries_size.toInt := by
  constructor
  · intro right
    by_contra wrong
    have left_ := RequestCaiYunWeather_dry reply wrong
    obtain ⟨i,begins⟩ | dry := begins_or_dry reply.series
    · -- rain later on leaves a future weather that is not rain as it is
      obtain ⟨weather,run,future,-⟩ := right.rain i begins ⟨0,0,1,0⟩
      rw [left_] at run
      cases run
      cases future
    · obtain ⟨future_weather,futrue_time,some_,same⟩ := right.dry dry
      obtain ⟨weather,run,future,-⟩ := same ⟨0,0,0,0⟩
      rw [left_] at run
      cases run
      exact some_ future.symm
  · intro both
    obtain ⟨rain,some_⟩ := both
    have run := RequestCaiYunWeather_rain reply rain some_
    obtain ⟨rest,series⟩ : ∃ rest, reply.series = reply.first::rest := by
      rw [Reply.first] at rain ⊢
      cases series : reply.series with
      | nil =>
        rw [series] at rain
        exact absurd rain (lt_irrefl 0)
      | cons value rest => exact ⟨rest,rfl⟩
    refine ⟨fun memory => ⟨_,run memory,rfl,rfl⟩,?_,?_⟩
    · intro i begins memory
      refine ⟨_,run memory,rfl,?_⟩
      cases i with
      | zero => rfl
      | succ i =>
        have dry := begins.2 0 (Nat.succ_pos i) reply.first (by rw [series]; rfl)
        exact absurd rain (not_lt.mpr dry)
    · intro dry
      have here := dry reply.first (by rw [series]; exact List.mem_cons_self)
      exact absurd rain (not_lt.mpr here)

end Reply

/-- A clear day of 20 degrees, and rain from the second minute on. -/
def soon : Value := .object [(ascii "status",.string (ascii "ok")),(ascii "skycon",.string (ascii "CLEAR_DAY")),
  (ascii "temp",.int 20),(ascii "dataseries",.array [.real 0,.real 1])]

def soonReply : Reply fun _ => some soon where
  content := []
  root := soon
  parsed := rfl
  status := ⟨.string (ascii "ok"),rfl,rfl⟩
  skycon := ascii "CLEAR_DAY"
  skycon_ := ⟨.string (ascii "CLEAR_DAY"),rfl,rfl⟩
  temp := 20
  temp_ := ⟨.int 20,rfl,rfl⟩
  items := [.real 0,.real 1]
  dataseries := rfl
  series := [0,1]
  series_ := rfl

theorem soon_missed : ¬Forecasts soonReply := by
  intro right
  have begins : Begins soonReply.series 1 := by
    refine ⟨⟨1,rfl,zero_lt_one⟩,fun j less dry at_ => ?_⟩
    obtain rfl := Nat.lt_one_iff.mp less
    cases at_
    exact le_rfl
  obtain ⟨weather,run,future,-⟩ := right.rain 1 begins ⟨0,0,1,0⟩
  rw [RequestCaiYunWeather_dry soonReply fun both => lt_irrefl 0 both.1] at run
  cases run
  cases future

end Migfm.Robot.Forecast
