import Migfm.Music.Musiclogic
import Migfm.Public.RadomIn

/-! The songs of a dimension in svc/musicsvc/whole_manager.cc: how they are loaded, how
the numbers are drawn, and what is read with them. -/
namespace Migfm.Music
open Basic Public.RadomIn
open Logic (MusicInfo ascii atoll)

/-! ### Loading -/

structure Dimension where
  id_ : Int64
  class_name_ : List UInt8

/-- The tables are pointers, kept under an `int`. -/
abbrev RADOMIN_MAP : Type := Int32 → Option MigRadomInV2

structure DimensionCache where
  dimension_map_ : Map (Map MusicInfo)
  dimension_vec_ : MULTI_DIMENSION_VEC
  dimension_radomin_ : RADOMIN_MAP

def Dimension.song (dimension : Dimension) (str : List UInt8) : MusicInfo :=
  { id_ := atoll str, class_name_ := dimension.class_name_, class_ := dimension.id_.toInt32 }

def Dimension.dimension_map (dimension : Dimension) (list : List (List UInt8)) : Map MusicInfo :=
  list.foldl (fun dimension_map str => dimension_map.insert (dimension.song str).id_ (dimension.song str)) ∅

/-- What is kept of the songs of a dimension; `list` has their ids. -/
def DimensionCache.load (cache : DimensionCache) (dimension : Dimension) (list : List (List UInt8)) : DimensionCache :=
  { cache with
    dimension_map_ := cache.dimension_map_.insert dimension.id_ (dimension.dimension_map list)
    dimension_vec_ := cache.dimension_vec_.insert dimension.id_ (list.map dimension.song) }

section Tables
-- the slots that the random numbers give for a table of each size
variable (slots : Nat → Nat → Nat)

/-- A table for the songs of each dimension, each song counted once. -/
def DimensionCache.CreateRadomin (cache : DimensionCache) : DimensionCache :=
  { cache with
    dimension_radomin_ := cache.dimension_map_.toList.foldl (fun dimension_radomin_ (first,dimenson_map) =>
      Function.update dimension_radomin_ first.toInt32
        (MigRadomInV2.create dimenson_map.size (slots dimenson_map.size) dimenson_map.size)) cache.dimension_radomin_ }

structure DimensionCaches where
  channel_dimension_ : DimensionCache
  mood_dimension_ : DimensionCache
  scene_dimension_ : DimensionCache

namespace DimensionCaches

def FectchDimensionMusic (caches : DimensionCaches) (dimension : Dimension) (list : List (List UInt8)) : DimensionCaches :=
  if dimension.class_name_ = ascii "chl" then
    { caches with channel_dimension_ := caches.channel_dimension_.load dimension list }
  else if dimension.class_name_ = ascii "mm" then
    { caches with mood_dimension_ := caches.mood_dimension_.load dimension list }
  else if dimension.class_name_ = ascii "ms" then
    { caches with scene_dimension_ := caches.scene_dimension_.load dimension list }
  else caches

def CreateRadomin (caches : DimensionCaches) : DimensionCaches where
  channel_dimension_ := caches.channel_dimension_.CreateRadomin slots
  mood_dimension_ := caches.mood_dimension_.CreateRadomin slots
  scene_dimension_ := caches.scene_dimension_.CreateRadomin slots

/-- Nothing is kept of another class. -/
def named (caches : DimensionCaches) (name : List UInt8) : DimensionCache :=
  if name = ascii "chl" then caches.channel_dimension_
  else if name = ascii "ms" then caches.scene_dimension_
  else if name = ascii "mm" then caches.mood_dimension_
  else ⟨∅,∅,fun _ => none⟩

end DimensionCaches

/-! ### Drawing -/

/-- A read of a container: at which index, and how many elements there are. -/
structure Read where
  index : Nat
  size : Nat
  deriving DecidableEq

def Read.Within (read : Read) : Prop := read.index < read.size

structure Radoms where
  dimension_radomin : RADOMIN_MAP
  list : List Int32
  reads : List Read

/-- `none` where the program ends: an array of negative size, the assertion in `GetPrize`,
or a read outside of the table. The loop goes up to `num`; `memory` is what stands there. -/
def GetRadomin (dimension_radomin : RADOMIN_MAP) (id num memory : Int32) : Option Radoms :=
  if num < 0 then none
  else
    match dimension_radomin id with
    | none => some ⟨dimension_radomin,[],[]⟩
    | some radomin =>
      if num = 0 then none
      else do
        let (radomin,rands) ← MigRadomInV2.GetPrize radomin.num_ (slots radomin.num_) num.toInt radomin
        let indexes := List.range (num.toInt.toNat + 1)
        some ⟨Function.update dimension_radomin id (some radomin),
          indexes.map fun i => (rands[i]?).elim memory Int32.ofNat,indexes.map fun i => ⟨i,num.toInt.toNat⟩⟩

/-- What is drawn, and the songs. -/
structure Selection where
  radoms : Radoms
  dimension_vec : List MusicInfo
  reads : List Read
  music_list : Map MusicInfo

/-- The loop over the numbers: the test lets the size itself through. -/
def songReads (dimension_vec : List MusicInfo) (radom_list : List Int32) : List Read :=
  radom_list.filterMap fun radom =>
    if radom < 0 ∨ dimension_vec.length < radom.toInt.toNat then none else some ⟨radom.toInt.toNat,dimension_vec.length⟩

def DimensionCache.GetDimensionList (cache : DimensionCache) (loaded : Loaded) (id : Int64) (music_list : Map MusicInfo)
    (num : Int64) (memory : Int32) : Option Selection := do
  let radoms ← GetRadomin slots cache.dimension_radomin_ id.toInt32 num.toInt32 memory
  let dimension_vec := (MapGet cache.dimension_vec_ id).getD []
  some ⟨radoms,dimension_vec,songReads dimension_vec radoms.list,loaded.GetDimensionList dimension_vec radoms.list music_list⟩

/-- The selection as it should be. -/
structure Selection.Right (selection : Selection) (num : Int64) (music_list : Map MusicInfo) : Prop where
  count : (selection.radoms.list.length : Int) = num.toInt
  indexes : ∀ read ∈ selection.radoms.reads, read.Within
  songs : ∀ read ∈ selection.reads, read.Within
  list : ∀ id, id ∈ selection.music_list ↔ id ∈ music_list ∨
    ∃ radom ∈ selection.radoms.list, ∃ song, selection.dimension_vec[radom.toInt.toNat]? = some song ∧ song.id_ = id

section Selection
variable {slots : Nat → Nat → Nat} {cache : DimensionCache} {id : Int64} {num : Int64} {music_list : Map MusicInfo}

/-- Whatever is loaded: the loop reads one number more than the array has. -/
theorem GetDimensionList_wrong (positive : 0 < num.toInt) (loaded : Loaded) (memory : Int32) {selection : Selection}
    (selected : cache.GetDimensionList slots loaded id music_list num memory = some selection) :
    ¬selection.Right num music_list := by
  intro right
  obtain ⟨radoms,drew,made⟩ := Option.bind_eq_some_iff.mp selected
  cases made
  rw [GetRadomin] at drew
  split at drew
  · cases drew
  split at drew
  · cases drew
    have none_ : (([] : List Int32).length : Int) = num.toInt := right.count
    rw [List.length_nil] at none_
    omega
  split at drew
  · cases drew
  obtain ⟨⟨radomin,rands⟩,-,made⟩ := Option.bind_eq_some_iff.mp drew
  cases made
  have last : (⟨num.toInt32.toInt.toNat,num.toInt32.toInt.toNat⟩ : Read).Within := by
    refine right.indexes _ (List.mem_map.mpr ⟨_,?_,rfl⟩)
    exact List.mem_range.mpr (Nat.lt_succ_self _)
  exact Nat.lt_irrefl _ last

theorem GetDimensionList_some {memory : Int32} {radoms : Radoms} (loaded : Loaded) (music_list : Map MusicInfo)
    (drew : GetRadomin slots cache.dimension_radomin_ id.toInt32 num.toInt32 memory = some radoms) :
    ∃ selection, cache.GetDimensionList slots loaded id music_list num memory = some selection := by
  rw [DimensionCache.GetDimensionList,drew]
  exact ⟨_,rfl⟩

/-- The numbers that were asked for are drawn, and each is below the size of the table. -/
theorem GetRadomin_drawn {dimension_radomin : RADOMIN_MAP} {id num : Int32} {radomin : MigRadomInV2} {count : Nat} {draws : List Nat}
    (there : dimension_radomin id = some radomin) (drawn : MigRadomInV2.Drawn count radomin draws) (some_ : 0 < count)
    (inside : ∀ k, slots count k < count) (positive : 0 < num.toInt) (memory : Int32) :
    ∃ (radoms : Radoms) (rands : List Nat), GetRadomin slots dimension_radomin id num memory = some radoms ∧ rands.length = num.toInt.toNat ∧
      (∀ rand ∈ rands, rand < count) ∧ radoms.list = rands.map Int32.ofNat ++ [memory] := by
  obtain ⟨after,rands,drew,drawn'⟩ := MigRadomInV2.drawAll_drawn some_ le_rfl inside num.toInt.toNat drawn
  have length := MigRadomInV2.drawAll_length drew
  have negative : ¬num < 0 := by
    rw [Int32.lt_iff_toInt_lt,Int32.toInt_zero]
    omega
  have zero : num ≠ 0 := by
    rintro rfl
    rw [Int32.toInt_zero] at positive
    exact Int.lt_irrefl 0 positive
  refine ⟨⟨Function.update dimension_radomin id (some after),rands.map Int32.ofNat ++ [memory],
    (List.range (num.toInt.toNat + 1)).map fun i => ⟨i,num.toInt.toNat⟩⟩,rands,?_,length,
    fun rand member => drawn'.lt rand (List.mem_append_right _ member),rfl⟩
  rw [GetRadomin,if_neg negative,there]
  dsimp only
  rw [if_neg zero,MigRadomInV2.GetPrize,drawn.size,drew,Option.bind_eq_bind,Option.bind_some,Option.some.injEq,Radoms.mk.injEq]
  refine ⟨rfl,?_,rfl⟩
  rw [List.range_succ,List.map_append,List.map_singleton,← length,List.getElem?_eq_none le_rfl]
  congr 1
  refine List.ext_getElem (by rw [List.length_map,List.length_map,List.length_range]) fun i low _ => ?_
  rw [List.length_map,List.length_range] at low
  rw [List.getElem_map,List.getElem_map,List.getElem_range,List.getElem?_eq_getElem low]
  rfl

end Selection

/-- A song that is listed twice is counted once in the table, and stands twice in the
vector. -/
theorem size_dimension_map (dimension : Dimension) (list : List (List UInt8)) :
    (dimension.dimension_map list).size ≤ (list.map dimension.song).length := by
  have grows (start : Map MusicInfo) : (list.foldl (fun dimension_map str =>
      dimension_map.insert (dimension.song str).id_ (dimension.song str)) start).size ≤ start.size + list.length := by
    induction list generalizing start with
    | nil => exact le_rfl
    | cons str list ih =>
      have one : (start.insert (dimension.song str).id_ (dimension.song str)).size ≤ start.size + 1 :=
        Std.ExtTreeMap.size_insert_le
      have rest := ih (start.insert (dimension.song str).id_ (dimension.song str))
      rw [List.foldl_cons,List.length_cons]
      omega
  have whole := grows ∅
  rw [Std.ExtTreeMap.size_empty,Nat.zero_add] at whole
  rw [List.length_map]
  exact whole

theorem dimension_map_ne (dimension : Dimension) {list : List (List UInt8)} (some_ : list ≠ []) :
    0 < (dimension.dimension_map list).size := by
  obtain ⟨earlier,str,rfl⟩ := List.eq_nil_or_concat list |>.resolve_left some_
  refine Nat.pos_of_ne_zero fun none_ => ?_
  rw [← Std.ExtTreeMap.eq_empty_iff_size_eq_zero,Dimension.dimension_map,List.concat_eq_append,List.foldl_append] at none_
  exact Std.ExtTreeMap.insert_ne_empty none_

section Loaded
variable {slots : Nat → Nat → Nat}

/-- The table of a dimension, where no other one of the class has the same `int`. -/
theorem CreateRadomin_found {cache : DimensionCache} {id : Int64} {map : Map MusicInfo} (there : cache.dimension_map_[id]? = some map)
    (alone : ∀ other : Int64, other ∈ cache.dimension_map_ → other.toInt32 = id.toInt32 → other = id) :
    (cache.CreateRadomin slots).dimension_radomin_ id.toInt32 = MigRadomInV2.create map.size (slots map.size) map.size := by
  have listed : (id,map) ∈ cache.dimension_map_.toList := Std.ExtTreeMap.mem_toList_iff_getElem?_eq_some.mpr there
  have only : ∀ entry ∈ cache.dimension_map_.toList, entry.1.toInt32 = id.toInt32 → entry = (id,map) := by
    rintro ⟨other,found⟩ member same
    have held := Std.ExtTreeMap.mem_toList_iff_getElem?_eq_some.mp member
    have here := alone other (Std.ExtTreeMap.mem_iff_isSome_getElem?.mpr (by rw [held]; rfl)) same
    subst here
    rw [there] at held
    rw [Option.some.inj held]
  rw [DimensionCache.CreateRadomin]
  dsimp only
  generalize cache.dimension_map_.toList = entries at listed only ⊢
  induction entries using List.reverseRecOn with
  | nil => cases listed
  | append_singleton entries entry ih =>
    rw [List.foldl_append,List.foldl_cons,List.foldl_nil]
    by_cases same : entry.1.toInt32 = id.toInt32
    · rw [only entry (List.mem_append_right _ List.mem_cons_self) same]
      exact Function.update_self ..
    · rw [Function.update_of_ne (Ne.symm same)]
      refine ih ?_ fun other member => only other (List.mem_append_left _ member)
      obtain earlier | last := List.mem_append.mp listed
      · exact earlier
      · rw [← List.mem_singleton.mp last] at same
        exact absurd rfl same

/-- From a dimension with songs the numbers asked for are drawn, each the index of a
song; the number behind them is whatever the memory holds. -/
theorem loaded_drawn (inside : ∀ size k, 0 < size → slots size k < size) (cache : DimensionCache) (dimension : Dimension)
    {list : List (List UInt8)} (some_ : list ≠ [])
    (alone : ∀ other : Int64, other ∈ cache.dimension_map_ → other.toInt32 = dimension.id_.toInt32 → other = dimension.id_)
    {num : Int32} (positive : 0 < num.toInt) (memory : Int32) :
    ∃ (radoms : Radoms) (rands : List Nat),
      GetRadomin slots ((cache.load dimension list).CreateRadomin slots).dimension_radomin_ dimension.id_.toInt32 num memory =
        some radoms ∧ rands.length = num.toInt.toNat ∧ (∀ rand ∈ rands, rand < (list.map dimension.song).length) ∧
          radoms.list = rands.map Int32.ofNat ++ [memory] := by
  have kept : (cache.load dimension list).dimension_map_[dimension.id_]? = some (dimension.dimension_map list) :=
    Std.ExtTreeMap.getElem?_insert_self
  have apart (other : Int64) (member : other ∈ (cache.load dimension list).dimension_map_)
      (same : other.toInt32 = dimension.id_.toInt32) : other = dimension.id_ := by
    obtain here | before := Std.ExtTreeMap.mem_insert.mp member
    · exact (Std.compare_eq_iff_eq.mp here).symm
    · exact alone other before same
  have size := dimension_map_ne dimension some_
  have within := inside (dimension.dimension_map list).size
  obtain ⟨radomin,built,drawn⟩ := MigRadomInV2.create_drawn le_rfl fun k => within k size
  have there := (@CreateRadomin_found slots _ _ _ kept apart).trans built
  obtain ⟨radoms,rands,drew,length,low,same⟩ := GetRadomin_drawn there drawn size (fun k => within k size) positive memory
  refine ⟨radoms,rands,drew,length,fun rand member => ?_,same⟩
  exact lt_of_lt_of_le (low rand member) (size_dimension_map dimension list)

end Loaded

/-- No selection from a dimension that was loaded is as it should be. -/
theorem selection_never (slots : Nat → Nat → Nat) (caches : DimensionCaches) (dimension : Dimension) (list : List (List UInt8))
    (loaded : Loaded) (music_list : Map MusicInfo) {num : Int64} (positive : 0 < num.toInt) (memory : Int32) :
    ¬∃ selection, (((caches.FectchDimensionMusic dimension list).CreateRadomin slots).named dimension.class_name_).GetDimensionList
      slots loaded dimension.id_ music_list num memory = some selection ∧ selection.Right num music_list := by
  rintro ⟨selection,selected,right⟩
  exact GetDimensionList_wrong positive loaded memory selected right

/-- Before anything is loaded. -/
def DimensionCaches.empty : DimensionCaches := ⟨⟨∅,∅,fun _ => none⟩,⟨∅,∅,fun _ => none⟩,⟨∅,∅,fun _ => none⟩⟩

theorem keyed_empty {id : Int64} {info : MusicInfo} (found : (∅ : Map MusicInfo)[id]? = some info) : info.id_ = id := by
  rw [Std.ExtTreeMap.getElem?_empty] at found
  cases found

def Loaded.empty : Loaded := ⟨∅,keyed_empty⟩

/-- A channel of one song. -/
def channel : Dimension := ⟨1,ascii "chl"⟩

theorem selection_never_channel : ¬∃ selection,
    (((DimensionCaches.empty.FectchDimensionMusic channel [ascii "7"]).CreateRadomin fun _ _ => 0).named channel.class_name_).GetDimensionList
      (fun _ _ => 0) Loaded.empty channel.id_ ∅ 1 0 = some selection ∧ selection.Right 1 ∅ :=
  selection_never _ _ _ _ _ _ (by decide) _

theorem song_read_beyond : ∃ selection,
    (((DimensionCaches.empty.FectchDimensionMusic channel [ascii "7"]).CreateRadomin fun _ _ => 0).named (ascii "chl")).GetDimensionList
      (fun _ _ => 0) Loaded.empty 1 ∅ 1 0 = some selection ∧ ¬selection.Right 1 ∅ := by
  obtain ⟨radoms,rands,drew,-⟩ := @loaded_drawn (fun _ _ => 0) (fun size k low => low) DimensionCaches.empty.channel_dimension_ channel
    [ascii "7"] (List.cons_ne_nil _ _) (fun other member => absurd member Std.ExtTreeMap.not_mem_empty)
    (1 : Int64).toInt32 (by decide) 0
  have named : ((DimensionCaches.empty.FectchDimensionMusic channel [ascii "7"]).CreateRadomin fun _ _ => 0).named (ascii "chl") =
      (DimensionCaches.empty.channel_dimension_.load channel [ascii "7"]).CreateRadomin fun _ _ => 0 := if_pos rfl
  obtain ⟨selection,selected⟩ := GetDimensionList_some Loaded.empty ∅ drew
  rw [named]
  exact ⟨selection,selected,GetDimensionList_wrong (by decide) Loaded.empty 0 selected⟩

end Tables
end Migfm.Music
