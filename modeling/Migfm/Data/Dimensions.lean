import Mathlib.Data.List.Forall2
import Migfm.Music.Dimensions

/-! The dimensions of data/data_cache_manager.cc: what `Init` loads, in its order, and
the calls of `GetDimensionList` after it. -/
namespace Migfm.Data
open Basic Public.RadomIn Music
open Logic (ValueMap GetString GetList key ascii decimal)

namespace RedisController

/-- Whether there are values, and the dictionary afterwards. -/
def ReadHashData (GetHashValues : List UInt8 → Option (List (List UInt8))) (dict : ValueMap Logic.Value) :
    Bool × ValueMap Logic.Value :=
  match GetString dict "redismap" with
  | none => (false,dict)
  | some redis_map =>
    match GetHashValues redis_map with
    | none => (false,dict)
    | some list =>
      let list_value := list.map Logic.Value.string
      -- the list that was made is left behind: it is looked up here, and not set
      let _list_value := (GetList dict "resultvalue").getD list_value
      (true,dict)

end RedisController

/-- All dimensions as they are listed, and the hash of the songs under each key. -/
structure DimensionStorage where
  dimensions : List Dimension
  GetHashValues : List UInt8 → Option (List (List UInt8))

namespace DimensionStorage

def keymap (dimension : Dimension) : List UInt8 :=
  dimension.class_name_ ++ ascii "_r" ++ decimal dimension.id_.toInt

/-- The ids of the songs. -/
def GetDimensionMusic (storage : DimensionStorage) (dimension : Dimension) : Option (List (List UInt8)) :=
  -- `ReadData` succeeds in any case
  let dict := (RedisController.ReadHashData storage.GetHashValues [(key "redismap",.string (keymap dimension))]).2
  (GetList dict "resultvalue").map fun list => list.filterMap fun
    | .string str => some str
    | _ => none

def InitDimensionMusic (storage : DimensionStorage) (caches : DimensionCaches) (dimension : Dimension) : DimensionCaches :=
  match storage.GetDimensionMusic dimension with
  | none => caches
  | some list => caches.FectchDimensionMusic dimension list

def InitDimensionsMusic (storage : DimensionStorage) (caches : DimensionCaches) : DimensionCaches :=
  storage.dimensions.foldl storage.InitDimensionMusic caches

/-- The tables are made first, the songs are loaded after them. -/
def Init (storage : DimensionStorage) (slots : Nat → Nat → Nat) : DimensionCaches :=
  storage.InitDimensionsMusic (DimensionCaches.empty.CreateRadomin slots)

/-- What is stored of the songs of a dimension. -/
def songs (storage : DimensionStorage) (dimension : Dimension) : List (List UInt8) :=
  if ∃ listed ∈ storage.dimensions, listed.id_ = dimension.id_ ∧ listed.class_name_ = dimension.class_name_ then
    (storage.GetHashValues (keymap dimension)).getD []
  else []

end DimensionStorage

def typed (name : List UInt8) : Prop := name = ascii "chl" ∨ name = ascii "mm" ∨ name = ascii "ms"

/-- A call; `memory` is what stands behind the numbers that it draws. -/
structure DimensionCall where
  dimension : Dimension
  num : Int64
  memory : Int32
  typed : typed dimension.class_name_
  positive : 0 < num.toInt

section Calls
variable (slots : Nat → Nat → Nat) (loaded : Loaded)

/-- The tables are shared with the copies that a call makes of its cache. -/
def set_radomin (caches : DimensionCaches) (name : List UInt8) (dimension_radomin : RADOMIN_MAP) : DimensionCaches :=
  if name = ascii "chl" then
    { caches with channel_dimension_ := { caches.channel_dimension_ with dimension_radomin_ := dimension_radomin } }
  else if name = ascii "ms" then
    { caches with scene_dimension_ := { caches.scene_dimension_ with dimension_radomin_ := dimension_radomin } }
  else if name = ascii "mm" then
    { caches with mood_dimension_ := { caches.mood_dimension_ with dimension_radomin_ := dimension_radomin } }
  else caches

def GetDimensionList (caches : DimensionCaches) (call : DimensionCall) : Option (Selection × DimensionCaches) := do
  let selection ← (caches.named call.dimension.class_name_).GetDimensionList slots loaded call.dimension.id_ ∅ call.num call.memory
  some (selection,set_radomin caches call.dimension.class_name_ selection.radoms.dimension_radomin)

/-- The calls one after the other; `none` where the program ends. -/
def selections : DimensionCaches → List DimensionCall → Option (List Selection)
  | _,[] => some []
  | caches,call::calls => do
    let (selection,caches) ← GetDimensionList slots loaded caches call
    let later ← selections caches calls
    some (selection::later)

/-- The answer as it should be, for the songs of the dimension. -/
structure Answers (songs : List Logic.MusicInfo) (num : Int64) (selection : Selection) : Prop where
  only : ∀ id ∈ selection.music_list, ∃ song ∈ songs, song.id_ = id
  most : (selection.music_list.size : Int) ≤ min num.toInt songs.length
  least : songs ≠ [] → 0 < selection.music_list.size
  numbers : ∀ read ∈ selection.radoms.reads, read.Within
  stored : ∀ read ∈ selection.reads, read.Within

/-- Each dimension with songs has its table, and all calls are answered. -/
structure Usable (storage : DimensionStorage) (calls : List DimensionCall) : Prop where
  tables : ∀ dimension ∈ storage.dimensions, typed dimension.class_name_ → storage.songs dimension ≠ [] →
    ∃ radomin, ((storage.Init slots).named dimension.class_name_).dimension_radomin_ dimension.id_.toInt32 = some radomin ∧
      radomin.num_ = (storage.songs dimension).length
  answers : ∃ answered, selections slots loaded (storage.Init slots) calls = some answered ∧
    List.Forall₂ (fun call selection => Answers ((storage.songs call.dimension).map call.dimension.song) call.num selection) calls answered

/-- No cache has a table. -/
def Bare (caches : DimensionCaches) : Prop := ∀ name id, (caches.named name).dimension_radomin_ id = none

variable {slots loaded}

theorem named_radomin {caches : DimensionCaches} (channel : caches.channel_dimension_.dimension_radomin_ = fun _ => none)
    (mood : caches.mood_dimension_.dimension_radomin_ = fun _ => none)
    (scene : caches.scene_dimension_.dimension_radomin_ = fun _ => none) : Bare caches := by
  intro name id
  rw [DimensionCaches.named]
  split_ifs
  · rw [channel]
  · rw [scene]
  · rw [mood]
  · rfl

theorem Bare.fetch {caches : DimensionCaches} (bare : Bare caches) (dimension : Dimension) (list : List (List UInt8)) :
    Bare (caches.FectchDimensionMusic dimension list) := by
  have channel : caches.channel_dimension_.dimension_radomin_ = fun _ => none := funext (bare (ascii "chl"))
  have mood : caches.mood_dimension_.dimension_radomin_ = fun _ => none := funext (bare (ascii "mm"))
  have scene : caches.scene_dimension_.dimension_radomin_ = fun _ => none := funext (bare (ascii "ms"))
  rw [DimensionCaches.FectchDimensionMusic]
  split_ifs
  · exact named_radomin channel mood scene
  · exact named_radomin channel mood scene
  · exact named_radomin channel mood scene
  · exact bare

/-- The songs come too late for the tables, whatever is loaded. -/
theorem init_bare (storage : DimensionStorage) : Bare (storage.Init slots) := by
  have start : Bare (DimensionCaches.empty.CreateRadomin slots) := by
    apply named_radomin
    · rfl
    · rfl
    · rfl
  rw [DimensionStorage.Init,DimensionStorage.InitDimensionsMusic]
  generalize DimensionCaches.empty.CreateRadomin slots = caches at start ⊢
  induction storage.dimensions generalizing caches with
  | nil => exact start
  | cons dimension dimensions ih =>
    rw [List.foldl_cons]
    apply ih
    rw [DimensionStorage.InitDimensionMusic]
    split
    · exact start
    · exact start.fetch dimension _

theorem set_named (caches : DimensionCaches) (name : List UInt8) :
    set_radomin caches name (caches.named name).dimension_radomin_ = caches := by
  rw [set_radomin,DimensionCaches.named]
  split_ifs
  · rfl
  · rfl
  · rfl
  · rfl

/-- Without a table nothing is drawn, and an array of negative size ends the program. -/
theorem GetRadomin_bare {caches : DimensionCaches} (bare : Bare caches) (name : List UInt8) (id num memory : Int32) :
    GetRadomin slots (caches.named name).dimension_radomin_ id num memory =
      if num < 0 then none else some ⟨(caches.named name).dimension_radomin_,[],[]⟩ := by
  rw [GetRadomin]
  split
  · rfl
  · rw [bare name id]

theorem GetDimensionList_bare {caches : DimensionCaches} (bare : Bare caches) (call : DimensionCall) :
    if call.num.toInt32 < 0 then GetDimensionList slots loaded caches call = none
    else ∃ selection, GetDimensionList slots loaded caches call = some (selection,caches) ∧ selection.music_list = ∅ ∧
      selection.radoms.reads = [] ∧ selection.reads = [] := by
  have drew := @GetRadomin_bare slots caches bare call.dimension.class_name_ call.dimension.id_.toInt32 call.num.toInt32 call.memory
  rw [GetDimensionList,DimensionCache.GetDimensionList,drew]
  split
  · rfl
  · refine ⟨_,congrArg some (Prod.ext rfl (set_named caches call.dimension.class_name_)),?_,rfl,rfl⟩
    apply Std.ExtTreeMap.ext_getElem?
    intro song
    exact Std.ExtTreeMap.getElem?_map.trans (by rw [Std.ExtTreeMap.getElem?_empty]; rfl)

/-- The run of calls on caches without tables. -/
theorem selections_bare {caches : DimensionCaches} (bare : Bare caches) (calls : List DimensionCall) :
    (∃ answered, selections slots loaded caches calls = some answered) ↔ ∀ call ∈ calls, ¬call.num.toInt32 < 0 := by
  induction calls with
  | nil => exact ⟨fun _ _ listed => absurd listed List.not_mem_nil,fun _ => ⟨[],rfl⟩⟩
  | cons call calls ih =>
    have one := @GetDimensionList_bare slots loaded caches bare call
    rw [List.forall_mem_cons,← ih,selections]
    split at one
    · rename_i negative
      rw [one]
      constructor
      · intro answered
        obtain ⟨_,impossible⟩ := answered
        cases impossible
      · intro both
        exact absurd negative both.1
    · rename_i positive
      obtain ⟨selection,made,-⟩ := one
      rw [made]
      constructor
      · intro answered
        obtain ⟨_,run⟩ := answered
        obtain ⟨first,started,run⟩ := Option.bind_eq_some_iff.mp run
        obtain ⟨later,rest,-⟩ := Option.bind_eq_some_iff.mp run
        cases started
        exact ⟨positive,later,rest⟩
      · intro both
        obtain ⟨-,later,rest⟩ := both
        refine ⟨selection::later,?_⟩
        dsimp only [bind,Option.bind]
        rw [rest]

theorem selections_empty {caches : DimensionCaches} (bare : Bare caches) {calls : List DimensionCall} {answered : List Selection}
    (run : selections slots loaded caches calls = some answered) :
    List.Forall₂ (fun _ selection => selection.music_list = ∅ ∧ selection.radoms.reads = [] ∧ selection.reads = []) calls answered := by
  induction calls generalizing answered with
  | nil =>
    cases run
    exact .nil
  | cons call calls ih =>
    have one := @GetDimensionList_bare slots loaded caches bare call
    rw [selections] at run
    obtain ⟨⟨selection,after⟩,made,run⟩ := Option.bind_eq_some_iff.mp run
    obtain ⟨later,rest,same⟩ := Option.bind_eq_some_iff.mp run
    cases same
    split at one
    · rw [one] at made
      cases made
    · obtain ⟨made',made'',empty⟩ := one
      rw [made] at made''
      cases made''
      exact .cons empty (ih rest)

end Calls

/-- The caches can be used only where no dimension has a song. -/
theorem usable_iff (slots : Nat → Nat → Nat) (loaded : Loaded) (storage : DimensionStorage) (calls : List DimensionCall) :
    Usable slots loaded storage calls ↔
      (∀ dimension ∈ storage.dimensions, typed dimension.class_name_ → storage.songs dimension = []) ∧
        ∀ call ∈ calls, ¬call.num.toInt32 < 0 := by
  have bare := @init_bare slots storage
  constructor
  · intro usable
    refine ⟨?_,?_⟩
    · intro dimension listed typed
      by_contra some_
      obtain ⟨radomin,made,-⟩ := usable.tables dimension listed typed some_
      rw [bare] at made
      cases made
    · obtain ⟨answered,run,-⟩ := usable.answers
      exact (selections_bare bare calls).mp ⟨answered,run⟩
  · intro both
    obtain ⟨songless,within⟩ := both
    obtain ⟨answered,run⟩ := (@selections_bare slots loaded _ bare calls).mpr within
    refine ⟨fun dimension listed typed some_ => absurd (songless dimension listed typed) some_,answered,run,?_⟩
    refine (selections_empty bare run).imp ?_
    intro call selection empty
    obtain ⟨list,numbers,reads⟩ := empty
    have songs : storage.songs call.dimension = [] := by
      rw [DimensionStorage.songs]
      split
      · rename_i there
        obtain ⟨dimension,listed,id,name⟩ := there
        have none_ := songless dimension listed (name ▸ call.typed)
        rw [DimensionStorage.songs,if_pos ⟨dimension,listed,rfl,rfl⟩,DimensionStorage.keymap,id,name] at none_
        exact none_
      · rfl
    rw [songs,List.map_nil]
    refine ⟨?_,?_,fun some_ => absurd rfl some_,?_,?_⟩
    · rw [list]
      intro id member
      exact absurd member Std.ExtTreeMap.not_mem_empty
    · rw [list,Std.ExtTreeMap.size_empty,List.length_nil]
      have positive := call.positive
      omega
    · rw [numbers]
      exact List.forall_mem_nil _
    · rw [reads]
      exact List.forall_mem_nil _

/-- One channel, with one song. -/
def channels : DimensionStorage := ⟨[channel],fun _ => some [ascii "7"]⟩

theorem channel_without_table : ¬Usable (fun _ _ => 0) Loaded.empty channels [] := by
  intro usable
  obtain ⟨radomin,made,-⟩ := usable.tables channel List.mem_cons_self (.inl rfl) (by
    rw [DimensionStorage.songs,if_pos ⟨channel,List.mem_cons_self,rfl,rfl⟩]
    exact List.cons_ne_nil _ _)
  rw [init_bare] at made
  cases made

end Migfm.Data
