import Migfm.Logic.Infos
import Migfm.Storage.RedisWarrper

/-! The channels of master/music/music_cache_mgr.cc: the table that `InitMusicChannel`
loads and the nine that `GetMusicChannel` lists from a position on. -/
namespace Migfm.Music.Channels
open Logic (ascii)
open Storage (c_str)

structure ChannelInfo where
  index_ : List UInt8
  douban_index_ : List UInt8
  channel_name_ : List UInt8
  channel_dec_ : List UInt8
  channel_pic_ : List UInt8 := ascii "http://fm.miglab.com"

/-- A row of migfm_channel. -/
structure Row where
  id : List UInt8
  channel_id : List UInt8
  channel_name : List UInt8
  channel_pic : List UInt8

/-- The picture goes where the constructor takes the description. -/
def Row.info (row : Row) : ChannelInfo where
  index_ := row.id
  douban_index_ := row.channel_id
  channel_name_ := row.channel_name
  channel_dec_ := row.channel_pic

structure MusicCacheManager where
  channel_mode_ : List ChannelInfo
  channel_num_ : Int32

/-- `GetChannelInfo`; the count of the rows is an `int`. -/
def InitMusicChannel (rows : List Row) : MusicCacheManager :=
  let num := Int32.ofNat rows.length
  ⟨if 0 < num then rows.map Row.info else [],num⟩

/-- What is written for a channel. -/
def ChannelInfo.text (info : ChannelInfo) : List UInt8 :=
  ascii "\x7b\"id\":\"" ++ c_str info.douban_index_ ++ ascii "\",\"name\":\"" ++ c_str info.channel_name_ ++
    ascii "\",\"pic\":\"" ++ c_str info.channel_pic_ ++ ascii "\"\x7d"

namespace MusicCacheManager
variable (cache : MusicCacheManager)

/-- `none` is an index outside the table. -/
def mode (i : Int) : Option ChannelInfo := if i < 0 then none else cache.channel_mode_[i.toNat]?

/-- One round of the loop. -/
def next (i : Int) : Option ChannelInfo :=
  if i < cache.channel_num_.toInt then cache.mode i
  else if cache.channel_num_ = 0 then none
  else cache.mode (i.tmod cache.channel_num_.toInt)

/-- The remainder is taken of an `unsigned long`. -/
def start (num : List UInt8) : Nat := (Logic.atoll num).toUInt64.toNat % cache.channel_mode_.length

/-- `none` is undefined: a division by zero, an overflow of `pos+9`, or an index outside. -/
def GetMusicChannel (num : List UInt8) : Option (List UInt8) :=
  if cache.channel_mode_.length = 0 then none
  else
    let pos := (Int32.ofNat (cache.start num)).toInt
    if pos + 9 < 2 ^ 31 then
      (cache.mode pos).bind fun first =>
        ((List.range 8).mapM fun (k : Nat) => cache.next (pos + 1 + k)).map fun infos =>
          ascii "\"channle\":[" ++ first.text ++ infos.flatMap (fun info => ascii "," ++ info.text) ++ ascii "]"
    else none

end MusicCacheManager

/-! ### The nine channels -/

/-- The channels from a position on, and after the last one from the first. -/
def listing (infos : List ChannelInfo) (position : Nat) : List UInt8 :=
  let nine := (List.range 9).filterMap fun k => infos[(position + k) % infos.length]?
  ascii "\"channle\":[" ++ (ascii ",").intercalate (nine.map ChannelInfo.text) ++ ascii "]"

section Claim
variable (rows : List Row) (num : List UInt8)

/-- The remainder of the number itself. -/
def position : Nat := ((Logic.atoll num).toInt % rows.length).toNat

/-- Nothing undefined is done, and the nine from the position on are listed. -/
def Right : Prop := (InitMusicChannel rows).GetMusicChannel num = some (listing (rows.map Row.info) (position rows num))

/-- The position of an `unsigned long`. -/
def wrapped : Nat := (Logic.atoll num).toUInt64.toNat % rows.length

/-- The table can be counted, and the nine from the wrapped position are written like those asked for. -/
def Good : Prop :=
  rows ≠ [] ∧ rows.length < 2 ^ 31 ∧ wrapped rows num + 9 < 2 ^ 31 ∧
    listing (rows.map Row.info) (wrapped rows num) = listing (rows.map Row.info) (position rows num)

end Claim

section Loaded
variable {rows : List Row} {num : List UInt8}

/-- No row, or more rows than an `int` counts: no channel is loaded. -/
theorem Init_beyond (beyond : rows = [] ∨ 2 ^ 31 ≤ rows.length) (counted : rows.length ≤ 2 ^ 32) :
    (InitMusicChannel rows).channel_mode_ = [] := by
  have none_ : ¬0 < Int32.ofNat rows.length := by
    rw [Int32.lt_iff_toInt_lt,Int32.toInt_ofNat',Int32.toInt_zero,Int32.size]
    obtain rfl | many := beyond
    · decide
    · have round : (rows.length : Int).bmod 4294967296 = rows.length - 4294967296 := by
        rw [← Int.sub_bmod_right]
        exact Int.bmod_eq_of_le (by omega) (by omega)
      omega
  rw [InitMusicChannel]
  exact if_neg none_

theorem Init_counted (some_ : rows ≠ []) (small : rows.length < 2 ^ 31) :
    (InitMusicChannel rows).channel_mode_ = rows.map Row.info ∧ (InitMusicChannel rows).channel_num_.toInt = rows.length := by
  have count := Int32.toInt_ofNat_of_lt small
  have positive := List.length_pos_iff.mpr some_
  have more : 0 < Int32.ofNat rows.length := by
    rw [Int32.lt_iff_toInt_lt,count,Int32.toInt_zero]
    omega
  exact ⟨if_pos more,count⟩

theorem next_eq {cache : MusicCacheManager} (counted : cache.channel_num_.toInt = cache.channel_mode_.length)
    (some_ : cache.channel_mode_ ≠ []) (i : Nat) : cache.next i = cache.channel_mode_[i % cache.channel_mode_.length]? := by
  have positive := List.length_pos_iff.mpr some_
  have mode (i : Nat) : cache.mode i = cache.channel_mode_[i]? := if_neg (Int.not_lt.mpr (Int.natCast_nonneg i))
  rw [MusicCacheManager.next,counted]
  by_cases before : i < cache.channel_mode_.length
  · rw [if_pos (Int.ofNat_lt.mpr before),Nat.mod_eq_of_lt before]
    exact mode i
  · have divisor : cache.channel_num_ ≠ 0 := by
      intro zero
      rw [zero,Int32.toInt_zero] at counted
      omega
    rw [if_neg (mt Int.ofNat_lt.mp before),if_neg divisor,← Int.ofNat_tmod]
    exact mode _

theorem intercalate_cons (separator first : List UInt8) (rest : List (List UInt8)) :
    separator.intercalate (first::rest) = first ++ rest.flatMap fun text => separator ++ text := by
  induction rest generalizing first with
  | nil => rw [List.intercalate_singleton,List.flatMap_nil,List.append_nil]
  | cons next rest ih => rw [List.intercalate_cons_cons,ih,List.flatMap_cons,List.append_assoc,List.append_assoc]

/-- For a table that is counted, the nine from the wrapped position are listed. -/
theorem GetMusicChannel_listing (some_ : rows ≠ []) (small : rows.length < 2 ^ 31) :
    (InitMusicChannel rows).GetMusicChannel num =
      if wrapped rows num + 9 < 2 ^ 31 then some (listing (rows.map Row.info) (wrapped rows num)) else none := by
  obtain ⟨loaded,count⟩ := Init_counted some_ small
  have length : (InitMusicChannel rows).channel_mode_.length = rows.length := by rw [loaded,List.length_map]
  have infos : (InitMusicChannel rows).channel_mode_ ≠ [] := loaded ▸ mt List.map_eq_nil_iff.mp some_
  have positive : 0 < (InitMusicChannel rows).channel_mode_.length := List.length_pos_iff.mpr infos
  have start : (InitMusicChannel rows).start num = wrapped rows num := by rw [MusicCacheManager.start,length,wrapped]
  have inside : wrapped rows num < rows.length := Nat.mod_lt _ (length ▸ positive)
  have pos : (Int32.ofNat (wrapped rows num)).toInt = wrapped rows num := Int32.toInt_ofNat_of_lt (Nat.lt_trans inside small)
  let channel (k : Nat) := (InitMusicChannel rows).channel_mode_.get ⟨(wrapped rows num + k) % _,Nat.mod_lt _ positive⟩
  have each (k : Nat) : (InitMusicChannel rows).channel_mode_[(wrapped rows num + k) % (InitMusicChannel rows).channel_mode_.length]? =
      some (channel k) := List.getElem?_eq_getElem _
  have first : (InitMusicChannel rows).mode (wrapped rows num) = some (channel 0) := by
    rw [← each 0,Nat.add_zero,Nat.mod_eq_of_lt (length ▸ inside)]
    exact if_neg (Int.not_lt.mpr (Int.natCast_nonneg _))
  have others : (fun k : Nat => (InitMusicChannel rows).next (wrapped rows num + 1 + k)) = fun k => pure (channel (k + 1)) := by
    funext k
    have behind : (wrapped rows num + 1 + k : Int) = ((wrapped rows num + (k + 1) : Nat) : Int) := by omega
    rw [behind,next_eq (count.trans (congrArg Nat.cast length.symm)) infos,each]
    rfl
  have nine : ((List.range 9).filterMap fun k => (rows.map Row.info)[(wrapped rows num + k) % (rows.map Row.info).length]?) =
      channel 0::(List.range 8).map fun k => channel (k + 1) := by
    simp only [← loaded,each]
    rw [List.filterMap_eq_map',List.range_succ_eq_map,List.map_cons,List.map_map]
    rfl
  have room : ((wrapped rows num : Int) + 9 < 2 ^ 31) ↔ wrapped rows num + 9 < 2 ^ 31 := by omega
  rw [MusicCacheManager.GetMusicChannel,if_neg (Nat.ne_of_gt positive)]
  simp only [start,pos,room]
  split
  · rw [first,Option.bind_some,others,List.mapM_pure,listing,nine,List.map_cons,intercalate_cons,List.flatMap_map]
    simp only [Option.pure_def,Option.map_some,List.append_assoc]
  · rfl

theorem GetMusicChannel_iff (rows : List Row) (num : List UInt8) :
    (Good rows num → Right rows num) ∧ (rows.length ≤ 2 ^ 32 → Right rows num → Good rows num) := by
  constructor
  · rintro ⟨some_,small,room,same⟩
    rw [Right,GetMusicChannel_listing some_ small,if_pos room,same]
  · intro counted listed
    by_cases loaded : rows ≠ [] ∧ rows.length < 2 ^ 31
    · obtain ⟨some_,small⟩ := loaded
      rw [Right,GetMusicChannel_listing some_ small] at listed
      split at listed
      · rename_i room
        exact ⟨some_,small,room,Option.some.inj listed⟩
      · cases listed
    · have beyond : rows = [] ∨ 2 ^ 31 ≤ rows.length := by
        rw [not_and_or,not_not,not_lt] at loaded
        exact loaded
      rw [Right,MusicCacheManager.GetMusicChannel,Init_beyond beyond counted] at listed
      cases listed

/-- From a number that is not negative, the wrapped position is the position. -/
theorem wrapped_eq (natural : 0 ≤ Logic.atoll num) : wrapped rows num = position rows num := by
  have whole : ((Logic.atoll num).toNatClampNeg : Int) = (Logic.atoll num).toInt :=
    Int.toNat_of_nonneg (Int64.le_iff_toInt_le.mp natural)
  rw [wrapped,position,Int64.toNat_toUInt64_of_le natural,← whole,← Int.natCast_mod,Int.toNat_natCast]

end Loaded

/-- Three channels. -/
def three : List Row := [⟨ascii "1",ascii "1",ascii "a",ascii "x"⟩,⟨ascii "2",ascii "2",ascii "b",ascii "x"⟩,⟨ascii "3",ascii "3",ascii "c",ascii "x"⟩]

theorem three_right : Right three (ascii "7") :=
  (GetMusicChannel_iff three (ascii "7")).1 ⟨List.cons_ne_nil _ _,by decide,by decide,congrArg _ (wrapped_eq (by decide))⟩

/-- `-1` is the last position, and the listing starts at the first one. -/
theorem three_negative : ¬Right three (ascii "-1") := by
  intro right
  have some_ : three ≠ [] := List.cons_ne_nil _ _
  rw [Right,GetMusicChannel_listing some_ (by decide),if_pos (by decide)] at right
  have first := congrArg (fun text => text.getD 18 0) (Option.some.inj right)
  revert first
  decide

end Migfm.Music.Channels
