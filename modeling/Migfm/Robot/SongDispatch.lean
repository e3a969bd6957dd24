import Migfm.Music.Quotas
import Migfm.Robot.CacheManager
import Migfm.Robot.Protocol
import Migfm.Sociality.CurrentSong
import Migfm.Storage.Readers

/-! The songs that the robots of a user are sent when the user changes the song: robot_song_mgr.cc,
with what it asks of robot_cache_manager.cc, dic_comm.cc and logic_unit.cc. Redis answers. -/
namespace Migfm.Robot.SongDispatch
open Basic Public.RadomIn
open Logic (ascii decimal atoll)
open Music.Quotas (Dimension liIndex)
open Music.TypeSongs (Base64Decode ChangeMusicInfos MusicInfo unserialized)
open Public.Json (c_str)
open Sociality.CurrentSong (argv)
open Wire (CharArray)

/-! ### snprintf -/

/-- A text in a field that is all zeros. -/
def snprintf (size : Nat) (text : List UInt8) : CharArray size := Vector.ofFn fun i => ((c_str text).take (size - 1)).getD i 0

/-- A text as a format without arguments: what a conversion reads is undefined. -/
def format : List UInt8 → Option (List UInt8)
  | [] => some []
  | 37::37::rest => (format rest).map (37::·)
  | 37::_ => none
  | c::rest => (format rest).map (c::·)

/-! ### Model -/

structure World where
  server : RobotServer
  /-- `channel_random_map_`, `mood_random_map_` and `scene_random_map_`. -/
  random_map_ : Dimension → Int32 → Option MigRadomInV2
  /-- What `rand()` will return. -/
  rand : Nat → Rand
  /-- The hashes and the strings of redis. -/
  hashes : List UInt8 → List UInt8 → Option (List UInt8)
  strings : List UInt8 → Option (List UInt8)

def dimension (type : List UInt8) : Option Dimension :=
  if type = ascii "chl" then some .channel
  else if type = ascii "mm" then some .mood
  else if type = ascii "ms" then some .scene
  else none

namespace World
variable (w : World)

/-- A failed search starts behind the table. -/
def GetPrize (radom : MigRadomInV2) (num : Int32) : Option (MigRadomInV2 × List Nat) :=
  radom.GetPrize radom.num_ (fun k => liIndex radom.num_ (w.rand k)) num.toInt

/-- The list stays empty where there is no table. No outcome: the size of the array is negative, the
assertion fails, or the table is left. -/
def GetTypeRamdon (type : List UInt8) (wordid num : Int32) : Option (World × List Nat) :=
  if num < 0 then none
  else match dimension type with
    | none => some (w,[])
    | some type =>
      match w.random_map_ type wordid with
      | none => some (w,[])
      | some radom =>
        if num = 0 then none
        else (w.GetPrize radom num).map fun (radom,rands) =>
          ({ w with random_map_ := Function.update w.random_map_ type (Function.update (w.random_map_ type) wordid (some radom)) },rands)

/-- The items of the answer. -/
def answer : List (List UInt8) → List (Option (List UInt8))
  | name::arguments =>
    if name = ascii "mget" then arguments.map w.strings
    else match arguments with
      | key::fields => if name = ascii "hmget" then fields.map (w.hashes key) else []
      | [] => []
  | [] => []

/-- The command is a format. -/
def redisCommand (command : List UInt8) : Option (List (Option (List UInt8))) :=
  (format (c_str command)).map fun command => w.answer (argv command)

/-- The strings of the answer. -/
def GetBatchInfos (command : List UInt8) : Option (List (List UInt8)) := (w.redisCommand command).map List.reduceOption

/-- No list: it returns `false`. -/
def GetBatchMusicInfos (type : List UInt8) (random_list : List Nat) : Option (Option (List (List UInt8))) :=
  if random_list = [] then some none
  else do
    let temp_list ← w.GetBatchInfos (ascii "hmget " ++ type ++ random_list.flatMap fun num : Nat => 32::decimal num)
    if temp_list = [] then return none
    let batchinfolist ← w.GetBatchInfos (ascii "mget" ++ temp_list.flatMap (32::·))
    return some batchinfolist

end World

/-- The mode and the type are not kept here. -/
def SetUserListenState (server : RobotServer) (platform_id uid : Int64) : RobotServer :=
  match server.GetPlatformCache platform_id with
  | none => server
  | some pc =>
    match MapGetInt pc.user_infos_ uid with
    | none => server
    | some userinfo => { server with pc := { pc with user_infos_ := MapAdd pc.user_infos_ uid userinfo } }

def listen (current_song : NoticeUserCurrentSong) (musicinfo : MusicInfo) : Option NoticeUserListenSong :=
  (format (c_str current_song.mode)).map fun mode => {
    platform_id := current_song.platform_id
    songid := atoll (c_str musicinfo.id_)
    typid := current_song.type_id
    mode := snprintf MODE_LEN mode
    singer := snprintf SINGER_LEN (Base64Decode musicinfo.artist_)
    name := snprintf NAME_LEN (Base64Decode musicinfo.titile_) }

/-- The robots and the songs, both in the order of their maps. -/
def dispatch (current_song : NoticeUserCurrentSong) (now : Int64) :
    List (RobotBasicInfo × MusicInfo) → RobotServer → Option (RobotServer × List (RobotBasicInfo × NoticeUserListenSong))
  | [],server => some (server,[])
  | (robot,musicinfo)::rest,server => do
    let server := server.setData robot { server.data robot with follower_user_last_time := now }
    let notice_user_listen ← listen current_song musicinfo
    let (server,sent) ← dispatch current_song now rest server
    return (server,(robot,notice_user_listen)::sent)

section Reading
variable (codePointToUTF8 : Nat → List UInt8) (sscanf : List UInt8 → Option Float)

/-- What is sent to the robots that are found. `FormateMusicInfo` makes the map that `ChangeMusicInfos` of
the music service makes. -/
def sendSongs (w : World) (current_song : NoticeUserCurrentSong) (now : Int64) (robot_infos : RobotInfosMap) :
    Option (World × List (RobotBasicInfo × NoticeUserListenSong)) := do
  let (w,list) ← w.GetTypeRamdon current_song.mode current_song.type_id (Int32.ofNat robot_infos.size)
  match ← w.GetBatchMusicInfos (current_song.mode ++ ascii "_r" ++ decimal current_song.type_id.toInt) list with
  | none => return (w,[])
  | some songinfolist =>
    let server := SetUserListenState w.server current_song.platform_id current_song.uid
    let musicinfomap ← ChangeMusicInfos codePointToUTF8 sscanf [] songinfolist
    let (server,sent) ← dispatch current_song now ((robot_infos.toList.map Prod.snd).zip musicinfomap) server
    return ({ w with server },sent)

def OnNoticeUserChangerSong (w : World) (current_song : NoticeUserCurrentSong) (now : Int64) :
    Option (World × List (RobotBasicInfo × NoticeUserListenSong)) := do
  let (server,robot_infos) ← w.server.GetUserFollowAllRobot current_song.platform_id current_song.uid
  let w := { w with server }
  match robot_infos with
  | none => return (w,[])
  | some robot_infos => sendSongs codePointToUTF8 sscanf w current_song now robot_infos

end Reading
/-! ### Draws -/

section Draws
open Library Public.RadomIn.MigRadomInV2
variable {fuel : Nat} {slots : Nat → Nat} {radom fresh : MigRadomInV2}

theorem SetRateTable_new (made : SetRateTable fuel slots 0 radom = some fresh) : fresh.num_ = radom.num_ ∧ fresh.index_ = 0 := by
  obtain ⟨table,_,made⟩ := Option.bind_eq_some_iff.mp made
  cases made
  exact ⟨rfl,rfl⟩

/-- A table that is made is whole. -/
theorem SetRateTable_whole (enough : radom.num_ ≤ fuel) (made : SetRateTable fuel slots 0 radom = some fresh) :
    fresh.rate_table_.Perm (List.range radom.num_) := by
  obtain ⟨table,filled,made⟩ := Option.bind_eq_some_iff.mp made
  cases made
  have length : ((List.range radom.num_).map fun k => slots (radom.drawn + k)).length = radom.num_ := by rw [List.length_map,List.length_range]
  have starts : ∀ start ∈ (List.range radom.num_).map fun k => slots (radom.drawn + k),
      start < ((List.range radom.num_).map fun k => slots (radom.drawn + k)).length := by
    intro start member
    have inside := Probing.fill_starts filled
    rw [List.length_replicate] at inside
    rw [← List.map_fst_zip (Nat.le_of_eq (length.trans List.length_range.symm))] at member
    obtain ⟨value,paired,rfl⟩ := List.mem_map.mp member
    rw [length]
    exact inside value paired
  obtain ⟨table',filled',perm⟩ := Probing.fill_range (length.symm ▸ enough) starts
  rw [length] at filled' perm
  have same : some table = some table' := filled.symm.trans filled'
  rw [Option.some.inj same]
  exact perm

theorem draw_left (left : radom.index_ < radom.num_) (there : radom.index_ < radom.rate_table_.length) :
    draw fuel slots radom = some ({ radom with index_ := radom.index_ + 1 },radom.rate_table_[radom.index_]) := by
  rw [draw,if_pos left,Option.bind_eq_bind,Option.bind_some]
  dsimp only
  rw [List.getElem?_eq_getElem there]
  rfl

/-- What is left of a table. -/
theorem drawAll_old (length : radom.rate_table_.length = radom.num_) {count : Nat} (left : radom.index_ + count ≤ radom.num_) :
    drawAll fuel slots count radom =
      some ({ radom with index_ := radom.index_ + count },(radom.rate_table_.drop radom.index_).take count) := by
  induction count generalizing radom with
  | zero => rfl
  | succ count ih =>
    have there : radom.index_ < radom.rate_table_.length := by omega
    have rest := @ih { radom with index_ := radom.index_ + 1 } length (by simp only; omega)
    rw [drawAll,draw_left (by omega) there,Option.bind_eq_bind,Option.bind_some]
    dsimp only
    rw [rest,Option.bind_eq_bind,Option.bind_some,List.drop_eq_getElem_cons there,List.take_succ_cons,Nat.add_right_comm]
    rfl

/-- What is left of the table, and the beginning of the next one. -/
theorem drawAll_next (some_ : 0 < radom.num_) (length : radom.rate_table_.length = radom.num_) {count : Nat}
    (within : radom.index_ ≤ radom.num_) (more : radom.num_ < radom.index_ + count) :
    drawAll fuel slots count radom = (SetRateTable fuel slots 0 radom).bind fun fresh =>
      (drawAll fuel slots (radom.index_ + count - radom.num_) fresh).map fun (after,rands) =>
        (after,radom.rate_table_.drop radom.index_ ++ rands) := by
  induction count generalizing radom with
  | zero => omega
  | succ count ih =>
    by_cases left : radom.index_ < radom.num_
    · have there : radom.index_ < radom.rate_table_.length := by omega
      have rest := @ih { radom with index_ := radom.index_ + 1 } some_ length left (by simp only; omega)
      have same : SetRateTable fuel slots 0 { radom with index_ := radom.index_ + 1 } = SetRateTable fuel slots 0 radom := rfl
      rw [same] at rest
      rw [drawAll,draw_left left there,Option.bind_eq_bind,Option.bind_some]
      dsimp only at rest ⊢
      rw [rest,List.drop_eq_getElem_cons there,Nat.add_right_comm radom.index_ 1,← Nat.add_assoc]
      cases SetRateTable fuel slots 0 radom with
      | none => rfl
      | some fresh =>
        rw [Option.bind_some,Option.bind_some]
        cases drawAll fuel slots (radom.index_ + count + 1 - radom.num_) fresh <;> rfl
    · have ends : radom.index_ = radom.num_ := by omega
      rw [drawAll,draw,if_neg left,ends,Nat.add_sub_cancel_left,← length,List.drop_length]
      cases made : SetRateTable fuel slots 0 radom with
      | none => rfl
      | some fresh =>
        obtain ⟨num,index⟩ := SetRateTable_new made
        rw [Option.bind_some,drawAll,draw,if_pos (by omega)]
        have whole (drawn : Option (MigRadomInV2 × List Nat)) : drawn = drawn.map fun (after,rands) => (after,[] ++ rands) := by
          cases drawn <;> rfl
        exact whole _

/-- The draws reach the end of the table, and the next one does not begin with what is left of this one. -/
def Unrepeated (fuel : Nat) (slots : Nat → Nat) (radom : MigRadomInV2) (count : Nat) : Prop :=
  radom.index_ + count ≤ radom.num_ ∨ ∃ fresh, SetRateTable fuel slots 0 radom = some fresh ∧
    ∀ index ∈ fresh.rate_table_.take (radom.index_ + count - radom.num_), index ∉ radom.rate_table_.drop radom.index_

/-- What is drawn from a whole table: no index twice iff the condition holds. -/
theorem drawAll_unrepeated (enough : radom.num_ ≤ fuel) (whole : radom.rate_table_.Perm (List.range radom.num_)) (within : radom.index_ ≤ radom.num_)
    {count : Nat} (most : count ≤ radom.num_) :
    (∀ drawn, drawAll fuel slots count radom = some drawn → ∀ index ∈ drawn.2, index < radom.num_) ∧
      ((∃ drawn, drawAll fuel slots count radom = some drawn ∧ drawn.2.Nodup) ↔ Unrepeated fuel slots radom count) := by
  have size (table : List Nat) (perm : table.Perm (List.range radom.num_)) : table.length = radom.num_ := by
    rw [perm.length_eq,List.length_range]
  have distinct (table : List Nat) (perm : table.Perm (List.range radom.num_)) : table.Nodup := perm.nodup_iff.mpr List.nodup_range
  have below (table : List Nat) (perm : table.Perm (List.range radom.num_)) : ∀ index ∈ table, index < radom.num_ := by
    intro index member
    exact List.mem_range.mp (perm.mem_iff.mp member)
  by_cases left : radom.index_ + count ≤ radom.num_
  · rw [drawAll_old (size _ whole) left]
    refine ⟨?_,fun _ => .inl left,fun _ => ⟨_,rfl,?_⟩⟩
    · rintro _ ⟨⟩ index member
      exact below _ whole index (List.mem_of_mem_drop (List.mem_of_mem_take member))
    · exact ((distinct _ whole).sublist (List.drop_sublist _ _)).sublist (List.take_sublist _ _)
  · have more : radom.num_ < radom.index_ + count := not_le.mp left
    rw [drawAll_next (by omega) (size _ whole) within more]
    cases made : SetRateTable fuel slots 0 radom with
    | none =>
      refine ⟨?_,?_,?_⟩
      · rintro drawn ⟨⟩
      · rintro ⟨drawn,⟨⟩,_⟩
      · rintro (enough | ⟨fresh,made',_⟩)
        · exact absurd enough left
        · rw [made] at made'
          cases made'
    | some fresh =>
      obtain ⟨num,index⟩ := SetRateTable_new made
      have perm := SetRateTable_whole enough made
      have rest := @drawAll_old fuel slots fresh ((size _ perm).trans num.symm) (radom.index_ + count - radom.num_) (by omega)
      rw [Option.bind_some,rest,index,List.drop_zero,Option.map_some]
      refine ⟨?_,?_,?_⟩
      · rintro _ ⟨⟩ index member
        rcases List.mem_append.mp member with old | new
        · exact below _ whole index (List.mem_of_mem_drop old)
        · exact below _ perm index (List.mem_of_mem_take new)
      · rintro ⟨_,⟨⟩,once⟩
        refine .inr ⟨fresh,made,fun index new old => ?_⟩
        exact (List.nodup_append.mp once).2.2 index old index new rfl
      · rintro (enough | ⟨fresh',made',apart⟩)
        · exact absurd enough left
        · rw [made] at made'
          cases made'
          refine ⟨_,rfl,List.nodup_append.mpr ⟨?_,?_,?_⟩⟩
          · exact (distinct _ whole).sublist (List.drop_sublist _ _)
          · exact (distinct _ perm).sublist (List.take_sublist _ _)
          · rintro index old other new rfl
            exact apart index new old

end Draws
/-! ### Commands -/

/-- What a command keeps as one argument. -/
def Word (word : List UInt8) : Prop := word ≠ [] ∧ ∀ c ∈ word, c ≠ 0 ∧ c ≠ 32 ∧ c ≠ 37

instance (word : List UInt8) : Decidable (Word word) := @instDecidableAnd _ _ _ (List.decidableBAll _ _)

theorem format_plain {text : List UInt8} (plain : ∀ c ∈ text, c ≠ 37) : format text = some text := by
  induction text with
  | nil => rfl
  | cons c rest ih =>
    obtain ⟨first,others⟩ := List.forall_mem_cons.mp plain
    rw [format,ih others]
    · rfl
    · exact fun _ same => absurd same first
    · exact fun same => absurd same first

theorem Word.append {first second : List UInt8} (one : Word first) (other : Word second) : Word (first ++ second) := by
  refine ⟨List.append_ne_nil_of_left_ne_nil one.1 _,?_⟩
  rw [List.forall_mem_append]
  exact ⟨one.2,other.2⟩

theorem decimal_bytes (n : Int) : ∀ c ∈ decimal n, c = 45 ∨ 48 ≤ c.toNat ∧ c.toNat ≤ 57 := by
  have digits : ∀ c ∈ Logic.decimalDigits n.natAbs, 48 ≤ c.toNat ∧ c.toNat ≤ 57 := by
    intro c member
    exact of_decide_eq_true (Logic.isDigit_decimalDigits n.natAbs c member)
  intro c member
  rw [decimal] at member
  split at member
  · rcases List.mem_cons.mp member with sign | member
    · exact .inl sign
    · exact .inr (digits c member)
  · exact .inr (digits c member)

theorem decimal_word (n : Int) : Word (decimal n) := by
  refine ⟨Storage.decimal_ne_nil n,fun c member => ?_⟩
  rcases decimal_bytes n c member with rfl | within
  · decide
  · refine ⟨?_,?_,?_⟩ <;> (rintro rfl; revert within; decide)

theorem argv_word {word : List UInt8} (whole : Word word) : argv word = [word] := by
  have blank : 32 ∉ word := fun member => (whole.2 32 member).2.1 rfl
  rw [argv,List.splitOn_eq_singleton blank,List.filter_cons_of_pos (by rw [decide_eq_true_iff]; exact whole.1)]
  rfl

theorem argv_words {words : List (List UInt8)} (each : ∀ word ∈ words, Word word) (front : List UInt8) :
    argv (front ++ words.flatMap (32::·)) = argv front ++ words := by
  induction words generalizing front with
  | nil => rw [List.flatMap_nil,List.append_nil,List.append_nil]
  | cons word words ih =>
    obtain ⟨first,others⟩ := List.forall_mem_cons.mp each
    rw [List.flatMap_cons,← List.append_assoc,ih others,Sociality.CurrentSong.argv_space,argv_word first,List.append_assoc]
    rfl

theorem words_plain {words : List (List UInt8)} (each : ∀ word ∈ words, Word word) :
    ∀ c ∈ words.flatMap (32::·), c ≠ 0 ∧ c ≠ 37 := by
  intro c member
  obtain ⟨word,listed,member⟩ := List.mem_flatMap.mp member
  rcases List.mem_cons.mp member with rfl | member
  · decide
  · have clean := (each word listed).2 c member
    exact ⟨clean.1,clean.2.2⟩

/-- A command of words reaches redis as they are. -/
theorem redisCommand_words (w : World) {command : List UInt8} (name : Word command) {words : List (List UInt8)} (each : ∀ word ∈ words, Word word) :
    w.redisCommand (command ++ words.flatMap (32::·)) = some (w.answer (command::words)) := by
  have clean : ∀ c ∈ command ++ words.flatMap (32::·), c ≠ 0 ∧ c ≠ 37 := by
    rw [List.forall_mem_append]
    exact ⟨fun c member => ⟨(name.2 c member).1,(name.2 c member).2.2⟩,words_plain each⟩
  rw [World.redisCommand,Public.Json.c_str_nonzero fun member => (clean 0 member).1 rfl,
    format_plain fun c member => (clean c member).2,Option.map_some,argv_words each,argv_word name]
  rfl

/-! ### Songs -/

structure Song where
  id : Int64
  record : Public.MusicInfo
  named : record.id_ = decimal id.toInt

def Song.musicinfo (song : Song) : MusicInfo := { song.record with }

/-- The key of a table. -/
def key (mode : List UInt8) (type_id : Int32) : List UInt8 := mode ++ ascii "_r" ++ decimal type_id.toInt

section Tables
variable (codePointToUTF8 : Nat → List UInt8) (sscanf : List UInt8 → Option Float)

/-- The songs of a table, by their indexes; redis knows them all. -/
structure Stored (w : World) (mode : List UInt8) (type_id : Int32) (songs : List Song) : Prop where
  apart : (songs.map Song.id).Nodup
  listed : ∀ (i : Nat) (song : Song), songs[i]? = some song → w.hashes (key mode type_id) (decimal i) = some (decimal song.id.toInt)
  known : ∀ song ∈ songs, ∃ text, w.strings (decimal song.id.toInt) = some text ∧
    unserialized codePointToUTF8 sscanf (Public.MusicInfo.UnserializedJson codePointToUTF8 sscanf) {} text = some song.record

/-- A random table that is made of it is in any state. -/
structure SongTable (w : World) (mode : List UInt8) (type_id : Int32) (songs : List Song) : Prop
    extends Stored codePointToUTF8 sscanf w mode type_id songs where
  random : ∀ type, type.mode = mode → ∃ radom, w.random_map_ type type_id = some radom ∧ radom.num_ = songs.length ∧
    radom.rate_table_.Perm (List.range radom.num_) ∧ radom.index_ ≤ radom.num_
  counted : songs.length < 2 ^ 31

end Tables

/-- A notice of a song, with the request's mode and type. -/
structure Notice (current_song : NoticeUserCurrentSong) (notice : NoticeUserListenSong) (song : Song) : Prop where
  songid : notice.songid = song.id
  name : notice.name = snprintf NAME_LEN (Base64Decode song.record.titile_)
  singer : notice.singer = snprintf SINGER_LEN (Base64Decode song.record.artist_)
  mode : notice.mode = Vector.ofFn fun i => current_song.mode.getD i 0
  typid : notice.typid = current_song.type_id

/-- Each robot is sent one notice, of songs of the table that are all different. -/
def Dispatched (current_song : NoticeUserCurrentSong) (robots : RobotInfosMap) (songs : List Song)
    (sent : List (RobotBasicInfo × NoticeUserListenSong)) : Prop :=
  sent.map Prod.fst = robots.toList.map Prod.snd ∧ (sent.map fun entry => entry.2.songid).Nodup ∧
    ∀ entry ∈ sent, ∃ song ∈ songs, Notice current_song entry.2 song

section Batches
variable {codePointToUTF8 : Nat → List UInt8} {sscanf : List UInt8 → Option Float} {w : World} {mode : List UInt8} {type_id : Int32}
  {songs : List Song}

theorem key_word (type : Dimension) (type_id : Int32) : Word (key type.mode type_id) := by
  refine Word.append (Word.append ?_ ?_) (decimal_word _)
  · cases type <;> decide
  · decide

theorem answer_mget (songids : List (List UInt8)) : w.answer (ascii "mget"::songids) = songids.map w.strings := by
  cases songids <;> rw [World.answer,if_pos rfl]

theorem answer_hmget (hash : List UInt8) (fields : List (List UInt8)) :
    w.answer (ascii "hmget"::hash::fields) = fields.map (w.hashes hash) := by
  rw [World.answer,if_neg (by decide),if_pos rfl]

theorem reduced {α β : Type} (f : α → β) (items : List α) : (items.map fun item => some (f item)).reduceOption = items.map f := by
  induction items with
  | nil => rfl
  | cons item items ih =>
    rw [List.map_cons,List.reduceOption_cons_of_some,ih]
    rfl

/-- The records of the songs at the indexes. -/
theorem Stored.batch (table : Stored codePointToUTF8 sscanf w mode type_id songs) (word : Word (key mode type_id)) {random_list : List Nat}
    (some_ : random_list ≠ []) {drawn : List Song} (picked : random_list.map (songs[·]?) = drawn.map some) :
    w.GetBatchMusicInfos (key mode type_id) random_list =
      some (some (drawn.map fun song => (w.strings (decimal song.id.toInt)).getD [])) := by
  have ids : random_list.map (fun i : Nat => w.hashes (key mode type_id) (decimal i)) = drawn.map fun song => some (decimal song.id.toInt) := by
    have each : ∀ i ∈ random_list, w.hashes (key mode type_id) (decimal i) = (songs[i]?).map fun song => decimal song.id.toInt := by
      intro i member
      obtain ⟨song,_,there⟩ := List.mem_map.mp (picked ▸ List.mem_map_of_mem member : songs[i]? ∈ drawn.map some)
      rw [table.listed i song there.symm,← there,Option.map_some]
    rw [List.map_congr_left each]
    calc random_list.map (fun i : Nat => (songs[i]?).map fun song => decimal song.id.toInt)
        = (random_list.map (songs[·]?)).map (Option.map fun song => decimal song.id.toInt) := by rw [List.map_map]; rfl
      _ = drawn.map fun song => some (decimal song.id.toInt) := by rw [picked,List.map_map]; rfl
  have texts : ∀ song ∈ drawn, w.strings (decimal song.id.toInt) = some ((w.strings (decimal song.id.toInt)).getD []) := by
    intro song member
    obtain ⟨i,_,there⟩ := List.mem_map.mp (picked ▸ List.mem_map_of_mem member : some song ∈ random_list.map (songs[·]?))
    obtain ⟨text,found,_⟩ := table.known song (List.mem_of_getElem? there)
    rw [found]
    rfl
  have first : w.GetBatchInfos (ascii "hmget " ++ key mode type_id ++ random_list.flatMap fun num : Nat => 32::decimal num) =
      some (drawn.map fun song => decimal song.id.toInt) := by
    have fields : ∀ field ∈ key mode type_id::random_list.map fun num : Nat => decimal num, Word field := by
      refine List.forall_mem_cons.mpr ⟨word,fun field member => ?_⟩
      obtain ⟨num,_,rfl⟩ := List.mem_map.mp member
      exact decimal_word num
    have command := redisCommand_words w (show Word (ascii "hmget") by decide) fields
    have same : (ascii "hmget" ++ (key mode type_id::random_list.map fun num : Nat => decimal num).flatMap (32::·)) =
        ascii "hmget " ++ key mode type_id ++ random_list.flatMap fun num : Nat => 32::decimal num := by
      rw [List.flatMap_cons,List.flatMap_map]
      rfl
    rw [World.GetBatchInfos,← same,command,Option.map_some,answer_hmget,List.map_map,Function.comp_def,ids,reduced]
  have second : w.GetBatchInfos (ascii "mget" ++ (drawn.map fun song => decimal song.id.toInt).flatMap (32::·)) =
      some (drawn.map fun song => (w.strings (decimal song.id.toInt)).getD []) := by
    have keys : ∀ songid ∈ drawn.map fun song => decimal song.id.toInt, Word songid := by
      intro songid member
      obtain ⟨song,_,rfl⟩ := List.mem_map.mp member
      exact decimal_word _
    rw [World.GetBatchInfos,redisCommand_words w (show Word (ascii "mget") by decide) keys,Option.map_some,answer_mget,List.map_map,
      Function.comp_def,List.map_congr_left texts,reduced]
  have more : drawn.map (fun song => decimal song.id.toInt) ≠ [] := by
    intro none_
    rw [List.map_eq_nil_iff.mp none_,List.map_nil,List.map_eq_nil_iff] at picked
    exact some_ picked
  rw [World.GetBatchMusicInfos,if_neg some_,first,Option.bind_eq_bind,Option.bind_some,if_neg more,second]
  rfl

/-! ### The map of the songs -/

theorem mem_assign {music_infos : List MusicInfo} {music_info other : MusicInfo} :
    other ∈ Music.TypeSongs.assign music_infos music_info ↔ other = music_info ∨ other ∈ music_infos ∧ other.id_ ≠ music_info.id_ := by
  rw [Music.TypeSongs.assign,Library.Ordered.mem_place,List.mem_filter,decide_eq_true_iff]

theorem mem_assign_ids {music_infos : List MusicInfo} {music_info : MusicInfo} {id : List UInt8} :
    id ∈ (Music.TypeSongs.assign music_infos music_info).map (·.id_) ↔ id = music_info.id_ ∨ id ∈ music_infos.map (·.id_) := by
  constructor
  · intro member
    obtain ⟨other,listed,rfl⟩ := List.mem_map.mp member
    rcases mem_assign.mp listed with rfl | old
    · exact .inl rfl
    · exact .inr (List.mem_map_of_mem old.1)
  · rintro (rfl | member)
    · exact List.mem_map_of_mem (mem_assign.mpr (.inl rfl))
    · obtain ⟨other,listed,rfl⟩ := List.mem_map.mp member
      by_cases same : other.id_ = music_info.id_
      · rw [same]
        exact List.mem_map_of_mem (mem_assign.mpr (.inl rfl))
      · exact List.mem_map_of_mem (mem_assign.mpr (.inr ⟨listed,same⟩))

theorem assign_ids {music_infos : List MusicInfo} (once : (music_infos.map (·.id_)).Nodup) (music_info : MusicInfo) :
    ((Music.TypeSongs.assign music_infos music_info).map (·.id_)).Nodup := by
  have moved := (Library.Ordered.place_perm (fun other : MusicInfo => decide (other.id_ < music_info.id_)) music_info
    (music_infos.filter fun other => other.id_ ≠ music_info.id_)).map (·.id_)
  rw [Music.TypeSongs.assign,moved.nodup_iff,List.map_cons]
  refine List.nodup_cons.mpr ⟨?_,once.sublist (List.filter_sublist.map _)⟩
  intro member
  obtain ⟨other,listed,same⟩ := List.mem_map.mp member
  exact of_decide_eq_true (List.mem_filter.mp listed).2 same

/-- By induction on the songs: each id once, and no record but those of the songs. -/
theorem ChangeMusicInfos_songs {text : Song → List UInt8} {drawn : List Song}
    (reads : ∀ song ∈ drawn, unserialized codePointToUTF8 sscanf (Public.MusicInfo.UnserializedJson codePointToUTF8 sscanf) {} (text song) = some song.record)
    {music_infos : List MusicInfo} (once : (music_infos.map (·.id_)).Nodup) :
    ∃ out, ChangeMusicInfos codePointToUTF8 sscanf music_infos (drawn.map text) = some out ∧ (out.map (·.id_)).Nodup ∧
      (∀ id, id ∈ out.map (·.id_) ↔ id ∈ music_infos.map (·.id_) ∨ id ∈ drawn.map (·.record.id_)) ∧
      ∀ info ∈ out, info ∈ music_infos ∨ ∃ song ∈ drawn, info = song.musicinfo := by
  induction drawn generalizing music_infos with
  | nil => exact ⟨music_infos,rfl,once,fun id => by simp,fun info member => .inl member⟩
  | cons song drawn ih =>
    obtain ⟨first,others⟩ := List.forall_mem_cons.mp reads
    obtain ⟨out,run,once',ids,records⟩ := ih others (assign_ids once song.musicinfo)
    refine ⟨out,?_,once',?_,?_⟩
    · rw [List.map_cons,ChangeMusicInfos,first]
      exact run
    · intro id
      rw [ids id,mem_assign_ids,List.map_cons,List.mem_cons,or_comm (a := id = _),or_assoc]
      rfl
    · intro info member
      rcases records info member with new | ⟨other,listed,rfl⟩
      · rcases mem_assign.mp new with rfl | old
        · exact .inr ⟨song,List.mem_cons_self,rfl⟩
        · exact .inl old.1
      · exact .inr ⟨other,List.mem_cons_of_mem _ listed,rfl⟩

theorem musicinfo_id (song : Song) : song.musicinfo.id_ = decimal song.id.toInt := song.named

/-- The songs of a table are told apart by their ids. -/
theorem Stored.same (table : Stored codePointToUTF8 sscanf w mode type_id songs) {one other : Song} (here : one ∈ songs) (there : other ∈ songs)
    (ids : one.record.id_ = other.record.id_) : one = other := by
  rw [one.named,other.named] at ids
  exact List.inj_on_of_nodup_map table.apart here there (Logic.decimal_injective ids)

/-- The map has a record for each index that is drawn, and one only where an index is drawn twice. -/
theorem Stored.formated (table : Stored codePointToUTF8 sscanf w mode type_id songs) {random_list : List Nat} {drawn : List Song}
    (picked : random_list.map (songs[·]?) = drawn.map some) :
    ∃ out, ChangeMusicInfos codePointToUTF8 sscanf [] (drawn.map fun song => (w.strings (decimal song.id.toInt)).getD []) = some out ∧
      (out.map (·.id_)).Nodup ∧ (∀ info ∈ out, ∃ song ∈ songs, info = song.musicinfo) ∧ out.length ≤ random_list.length ∧
      (out.length = random_list.length ↔ random_list.Nodup) := by
  have within : ∀ song ∈ drawn, song ∈ songs := by
    intro song member
    obtain ⟨i,_,there⟩ := List.mem_map.mp (picked ▸ List.mem_map_of_mem member : some song ∈ random_list.map (songs[·]?))
    exact List.mem_of_getElem? there
  have reads : ∀ song ∈ drawn, unserialized codePointToUTF8 sscanf (Public.MusicInfo.UnserializedJson codePointToUTF8 sscanf) {}
      ((w.strings (decimal song.id.toInt)).getD []) = some song.record := by
    intro song member
    obtain ⟨text,found,read⟩ := table.known song (within song member)
    rw [found]
    exact read
  obtain ⟨out,run,once,ids,records⟩ := @ChangeMusicInfos_songs codePointToUTF8 sscanf _ drawn reads [] .nil
  have length : random_list.length = drawn.length := by
    have both := congrArg List.length picked
    rwa [List.length_map,List.length_map] at both
  have perm : (out.map (·.id_)).Perm (drawn.map (·.record.id_)).dedup := by
    refine (List.perm_ext_iff_of_nodup once (List.nodup_dedup _)).mpr fun id => ?_
    rw [ids id,List.mem_dedup]
    exact or_iff_right List.not_mem_nil
  have size := perm.length_eq
  rw [List.length_map] at size
  have shorter := (List.dedup_sublist (drawn.map (·.record.id_))).length_le
  rw [List.length_map] at shorter
  refine ⟨out,run,once,?_,by omega,?_⟩
  · intro info member
    obtain old | ⟨song,listed,same⟩ := records info member
    · cases old
    · exact ⟨song,within song listed,same⟩
  · have ids_drawn : (drawn.map (·.record.id_)).Nodup ↔ drawn.Nodup :=
      ⟨List.Nodup.of_map _,List.Nodup.map_on fun one here other there => table.same (within one here) (within other there)⟩
    have drawn_some : (drawn.map some).Nodup ↔ drawn.Nodup := List.nodup_map_iff (Option.some_injective _)
    have songs_once : songs.Nodup := table.apart.of_map
    have inside : ∀ i ∈ random_list, i < songs.length := by
      intro i member
      obtain ⟨song,_,there⟩ := List.mem_map.mp (picked ▸ List.mem_map_of_mem member : songs[i]? ∈ drawn.map some)
      exact (List.getElem?_eq_some_iff.mp there.symm).1
    have indexes : (random_list.map (songs[·]?)).Nodup ↔ random_list.Nodup :=
      ⟨List.Nodup.of_map _,List.Nodup.map_on fun i member j _ same => (List.getElem?_inj (inside i member) songs_once).mp same⟩
    rw [size,length,← indexes,picked,drawn_some,← ids_drawn]
    constructor
    · intro same
      have whole := (List.dedup_sublist (drawn.map (·.record.id_))).eq_of_length (by rw [same,List.length_map])
      exact List.dedup_eq_self.mp whole
    · intro distinct
      rw [List.dedup_eq_self.mpr distinct,List.length_map]

end Batches

/-! ### Notices -/

section Notices
variable {current_song : NoticeUserCurrentSong} {type : Dimension}

theorem listen_song (mode : type.mode = current_song.mode) (song : Song) :
    ∃ notice, listen current_song song.musicinfo = some notice ∧ Notice current_song notice song := by
  have plain : format (c_str current_song.mode) = some current_song.mode := by
    rw [← mode]
    cases type <;> rfl
  have songid : atoll (c_str song.musicinfo.id_) = song.id := by
    rw [musicinfo_id,Public.Json.c_str_nonzero fun zero => Storage.decimal_clean _ 0 zero rfl,
      Storage.atoll_decimal song.id.le_toInt song.id.toInt_lt,Int64.ofInt_toInt]
  have title : song.musicinfo.titile_ = song.record.titile_ := rfl
  have artist : song.musicinfo.artist_ = song.record.artist_ := rfl
  have exact_ : snprintf MODE_LEN current_song.mode = Vector.ofFn fun i => current_song.mode.getD i 0 := by
    rw [← mode]
    cases type <;> decide
  rw [listen,plain,Option.map_some,songid,title,artist,exact_]
  exact ⟨_,rfl,⟨rfl,rfl,rfl,rfl,rfl⟩⟩

/-- Each entry is sent its song. -/
theorem dispatch_songs (mode : type.mode = current_song.mode) (now : Int64) {entries : List (RobotBasicInfo × MusicInfo)}
    (songs : ∀ entry ∈ entries, ∃ song : Song, entry.2 = song.musicinfo) (server : RobotServer) :
    ∃ after sent, dispatch current_song now entries server = some (after,sent) ∧ sent.map Prod.fst = entries.map Prod.fst ∧
      List.Forall₂ (fun entry info => listen current_song info = some entry.2) sent (entries.map Prod.snd) := by
  induction entries generalizing server with
  | nil => exact ⟨server,[],rfl,rfl,.nil⟩
  | cons entry entries ih =>
    obtain ⟨robot,musicinfo⟩ := entry
    obtain ⟨⟨song,same⟩,others⟩ := List.forall_mem_cons.mp songs
    obtain ⟨notice,heard,_⟩ := listen_song mode song
    rw [← show musicinfo = song.musicinfo from same] at heard
    obtain ⟨after,sent,run,robots,notices⟩ := ih others (server.setData robot { server.data robot with follower_user_last_time := now })
    refine ⟨after,(robot,notice)::sent,?_,?_,.cons heard notices⟩
    · rw [dispatch,heard,Option.bind_eq_bind,Option.bind_some,run]
      rfl
    · rw [List.map_cons,robots]
      rfl

/-- Each notice is that of its song. -/
theorem heard_songs (mode : type.mode = current_song.mode) {songs : List Song} {sent : List (RobotBasicInfo × NoticeUserListenSong)} {out : List MusicInfo}
    (notices : List.Forall₂ (fun entry info => listen current_song info = some entry.2) sent out)
    (known : ∀ info ∈ out, ∃ song ∈ songs, info = song.musicinfo) :
    (∀ entry ∈ sent, ∃ song ∈ songs, Notice current_song entry.2 song) ∧
      out.map (·.id_) = (sent.map fun entry => entry.2.songid).map fun songid => decimal songid.toInt := by
  induction notices with
  | nil => exact ⟨List.forall_mem_nil _,rfl⟩
  | cons first rest ih =>
    obtain ⟨⟨song,listed,same⟩,others⟩ := List.forall_mem_cons.mp known
    obtain ⟨heard,ids⟩ := ih others
    obtain ⟨notice,heard_song,right⟩ := listen_song mode song
    rw [same,heard_song] at first
    rw [Option.some.inj first] at right
    refine ⟨List.forall_mem_cons.mpr ⟨⟨song,listed,right⟩,heard⟩,?_⟩
    rw [List.map_cons,List.map_cons,List.map_cons,ids,same,musicinfo_id,right.songid]

end Notices

/-! ### The robots of a user -/

section Robots
variable {uid : Int64} {server : RobotServer}

/-- A scheduler is there, or the robots are all in use. -/
def Checked (server : RobotServer) (robots : List RobotBasicInfo) : Prop :=
  server.pc.schduler_infos_.isEmpty = false ∨ ∀ robot ∈ robots, (MapGetInt server.pc.used_robot_infos_ (server.data robot).uid).isSome

theorem CheckUserFollowAllRobots_iff (robots : List RobotBasicInfo) :
    (∃ after, RobotServer.CheckUserFollowAllRobots uid server robots = some after) ↔ Checked server robots := by
  induction robots generalizing server with
  | nil => exact ⟨fun _ => .inr (List.forall_mem_nil _),fun _ => ⟨server,rfl⟩⟩
  | cons robot robots ih =>
    rw [RobotServer.CheckUserFollowAllRobots,RobotServer.CheckUserFollowAllRobot,Checked,List.forall_mem_cons]
    cases used : MapGetInt server.pc.used_robot_infos_ (server.data robot).uid with
    | some robot_basic_info =>
      rw [Option.isSome_some,eq_self_iff_true,true_and]
      exact ih
    | none =>
      cases empty : server.pc.schduler_infos_.isEmpty with
      | true =>
        rw [if_pos rfl]
        refine iff_of_false ?_ ?_
        · rintro ⟨after,⟨⟩⟩
        · rintro (⟨⟨⟩⟩ | ⟨⟨⟩,_⟩)
      | false =>
        rw [if_neg Bool.false_ne_true]
        exact iff_of_true (ih.mpr (.inl empty)) (.inl rfl)

theorem GetUserFollowAllRobot_found {robots : RobotInfosMap} (follow : MapGetInt server.pc.user_follow_infos_ uid = some robots) :
    server.GetUserFollowAllRobot 10000 uid =
      (RobotServer.CheckUserFollowAllRobots uid server (robots.toList.map Prod.snd)).map fun server => (server,some robots) := by
  rw [RobotServer.GetUserFollowAllRobot,RobotServer.GetPlatformCache,if_pos rfl]
  dsimp only
  rw [follow]

theorem GetUserFollowAllRobot_none (follow : MapGetInt server.pc.user_follow_infos_ uid = none) :
    server.GetUserFollowAllRobot 10000 uid = some (server,none) := by
  rw [RobotServer.GetUserFollowAllRobot,RobotServer.GetPlatformCache,if_pos rfl]
  dsimp only
  rw [follow]

end Robots

/-! ### A request -/

section Requests
variable {codePointToUTF8 : Nat → List UInt8} {sscanf : List UInt8 → Option Float} {w : World} {current_song : NoticeUserCurrentSong}
  {robots : RobotInfosMap} {songs : List Song}

theorem dimension_some {mode : List UInt8} {type : Dimension} (mode_ : type.mode = mode) : dimension mode = some type := by
  rw [← mode_]
  cases type <;> rfl

theorem dimension_none {mode : List UInt8} (other : ¬∃ type : Dimension, type.mode = mode) : dimension mode = none := by
  rw [dimension,if_neg fun same => other ⟨.channel,same.symm⟩,if_neg fun same => other ⟨.mood,same.symm⟩,
    if_neg fun same => other ⟨.scene,same.symm⟩]

/-- What the claim says of a request, for the robots that follow the user and the songs of the table. -/
def Right (codePointToUTF8 : Nat → List UInt8) (sscanf : List UInt8 → Option Float) (w : World) (current_song : NoticeUserCurrentSong)
    (now : Int64) (robots : RobotInfosMap) (songs : List Song) : Prop :=
  ∃ after sent, OnNoticeUserChangerSong codePointToUTF8 sscanf w current_song now = some (after,sent) ∧
    Dispatched current_song robots songs sent

/-- The random table has enough for the robots. -/
def Enough (w : World) (current_song : NoticeUserCurrentSong) (robots : RobotInfosMap) : Prop :=
  ∃ type : Dimension, type.mode = current_song.mode ∧ ∃ radom, w.random_map_ type current_song.type_id = some radom ∧
    Unrepeated radom.num_ (fun k => liIndex radom.num_ (w.rand k)) radom robots.size

theorem not_dispatched_nil (some_ : 0 < robots.size) : ¬Dispatched current_song robots songs [] := by
  intro dispatched
  have none_ := congrArg List.length dispatched.1
  rw [List.map_nil,List.length_map,Std.ExtTreeMap.length_toList] at none_
  exact absurd none_.symm some_.ne'

/-- What is sent where no index is drawn twice, and only there. -/
theorem sent_iff {type : Dimension} (mode : type.mode = current_song.mode) {out : List MusicInfo}
    (once : (out.map (·.id_)).Nodup) (known : ∀ info ∈ out, ∃ song ∈ songs, info = song.musicinfo) (most : out.length ≤ robots.size) (now : Int64)
    (server : RobotServer) :
    ∃ after sent, dispatch current_song now ((robots.toList.map Prod.snd).zip out) server = some (after,sent) ∧
      (Dispatched current_song robots songs sent ↔ out.length = robots.size) := by
  have size : (robots.toList.map Prod.snd).length = robots.size := by rw [List.length_map,Std.ExtTreeMap.length_toList]
  have infos : ((robots.toList.map Prod.snd).zip out).map Prod.snd = out := List.map_snd_zip (by omega)
  have each : ∀ entry ∈ (robots.toList.map Prod.snd).zip out, ∃ song : Song, entry.2 = song.musicinfo := by
    intro entry member
    obtain ⟨song,_,same⟩ := known entry.2 (List.of_mem_zip member).2
    exact ⟨song,same⟩
  obtain ⟨after,sent,run,receivers,notices⟩ := dispatch_songs mode now each server
  rw [infos] at notices
  obtain ⟨heard,ids⟩ := heard_songs mode notices known
  refine ⟨after,sent,run,?_,?_⟩
  · intro dispatched
    have all := congrArg List.length (receivers.symm.trans dispatched.1)
    rw [List.length_map,List.length_zip,size] at all
    omega
  · intro all
    refine ⟨?_,?_,heard⟩
    · rw [receivers]
      exact List.map_fst_zip (by omega)
    · rw [ids] at once
      exact once.of_map

theorem picks (songs : List Song) {random_list : List Nat} (inside : ∀ i ∈ random_list, i < songs.length) :
    ∃ drawn : List Song, random_list.map (songs[·]?) = drawn.map some := by
  induction random_list with
  | nil => exact ⟨[],rfl⟩
  | cons i random_list ih =>
    obtain ⟨first,others⟩ := List.forall_mem_cons.mp inside
    obtain ⟨drawn,picked⟩ := ih others
    exact ⟨songs[i]::drawn,by rw [List.map_cons,List.map_cons,picked,List.getElem?_eq_getElem first]⟩

/-- The robots are sent their songs iff the random table has enough. -/
theorem sendSongs_iff (table : SongTable codePointToUTF8 sscanf w current_song.mode current_song.type_id songs) (some_ : 0 < robots.size)
    (most : robots.size ≤ songs.length) (now : Int64) :
    (∃ after sent, sendSongs codePointToUTF8 sscanf w current_song now robots = some (after,sent) ∧ Dispatched current_song robots songs sent) ↔
      Enough w current_song robots := by
  have num : (Int32.ofNat robots.size).toInt = robots.size := by
    have counted := table.counted
    rw [Int32.toInt_ofNat_of_lt (by omega)]
  have natural : ¬Int32.ofNat robots.size < 0 := by
    rw [Int32.lt_iff_toInt_lt,num]
    exact not_lt.mpr (Int.natCast_nonneg _)
  have positive : Int32.ofNat robots.size ≠ 0 := by
    intro zero
    rw [zero] at num
    exact some_.ne (Int.natCast_inj.mp num)
  by_cases known : ∃ type : Dimension, type.mode = current_song.mode
  · obtain ⟨type,mode⟩ := known
    obtain ⟨radom,found,size,whole,within⟩ := table.random type mode
    have prize : w.GetPrize radom (Int32.ofNat robots.size) = MigRadomInV2.drawAll radom.num_ (fun k => liIndex radom.num_ (w.rand k)) robots.size radom := by
      rw [World.GetPrize,MigRadomInV2.GetPrize,num,Int.toNat_natCast]
    obtain ⟨inside,unrepeated⟩ := @drawAll_unrepeated radom.num_ (fun k => liIndex radom.num_ (w.rand k)) radom le_rfl whole within robots.size (by omega)
    have enough : Enough w current_song robots ↔ Unrepeated radom.num_ (fun k => liIndex radom.num_ (w.rand k)) radom robots.size := by
      constructor
      · rintro ⟨type',mode',radom',found',right⟩
        obtain rfl : type' = type := Option.some.inj ((dimension_some mode').symm.trans (dimension_some mode))
        rw [found] at found'
        cases found'
        exact right
      · intro right
        exact ⟨type,mode,radom,found,right⟩
    have typed : w.GetTypeRamdon current_song.mode current_song.type_id (Int32.ofNat robots.size) =
        (MigRadomInV2.drawAll radom.num_ (fun k => liIndex radom.num_ (w.rand k)) robots.size radom).map fun (radom,rands) =>
          ({ w with random_map_ := Function.update w.random_map_ type (Function.update (w.random_map_ type) current_song.type_id (some radom)) },rands) := by
      rw [World.GetTypeRamdon,if_neg natural,dimension_some mode]
      dsimp only
      rw [found]
      dsimp only
      rw [if_neg positive,prize]
    rw [enough,← unrepeated]
    cases drew : MigRadomInV2.drawAll radom.num_ (fun k => liIndex radom.num_ (w.rand k)) robots.size radom with
    | none =>
      refine iff_of_false ?_ ?_
      · rintro ⟨after,sent,run,_⟩
        rw [sendSongs,typed,drew] at run
        cases run
      · rintro ⟨drawn,⟨⟩,_⟩
    | some drawn =>
      obtain ⟨radom',rands⟩ := drawn
      obtain ⟨w',typed',stored⟩ : ∃ w', w.GetTypeRamdon current_song.mode current_song.type_id (Int32.ofNat robots.size) = some (w',rands) ∧
          Stored codePointToUTF8 sscanf w' current_song.mode current_song.type_id songs := by
        rw [typed,drew]
        exact ⟨_,rfl,table.apart,table.listed,table.known⟩
      have length := MigRadomInV2.drawAll_length drew
      have rands_some : rands ≠ [] := by
        intro none_
        rw [none_] at length
        exact some_.ne length
      obtain ⟨drawn,picked⟩ := picks songs fun i member => size ▸ inside _ drew i member
      have batch : w'.GetBatchMusicInfos (current_song.mode ++ ascii "_r" ++ decimal current_song.type_id.toInt) rands = _ :=
        stored.batch (mode ▸ key_word type _) rands_some picked
      obtain ⟨out,run,once,records,shorter,all⟩ := stored.formated picked
      rw [length] at shorter all
      obtain ⟨after,sent,sends,dispatched⟩ := sent_iff mode once records shorter now
        (SetUserListenState w'.server current_song.platform_id current_song.uid)
      have whole : sendSongs codePointToUTF8 sscanf w current_song now robots = some ({ w' with server := after },sent) := by
        rw [sendSongs,typed',Option.bind_eq_bind,Option.bind_some]
        dsimp only
        rw [batch,Option.bind_eq_bind,Option.bind_some]
        dsimp only
        rw [run,Option.bind_eq_bind,Option.bind_some,sends]
        rfl
      rw [whole]
      constructor
      · rintro ⟨_,_,⟨⟩,right⟩
        exact ⟨_,rfl,all.mp (dispatched.mp right)⟩
      · rintro ⟨_,⟨⟩,nodup⟩
        exact ⟨_,_,rfl,dispatched.mpr (all.mpr nodup)⟩
  · refine iff_of_false ?_ ?_
    · rintro ⟨after,sent,run,dispatched⟩
      rw [sendSongs,World.GetTypeRamdon,if_neg natural,dimension_none known] at run
      cases run
      exact not_dispatched_nil some_ dispatched
    · rintro ⟨type,mode,_⟩
      exact known ⟨type,mode⟩

/-- A request whose user's robots are found. -/
theorem request_iff (platform : current_song.platform_id = 10000)
    (follow : MapGetInt w.server.pc.user_follow_infos_ current_song.uid = some robots) (some_ : 0 < robots.size)
    (table : SongTable codePointToUTF8 sscanf w current_song.mode current_song.type_id songs) (most : robots.size ≤ songs.length) (now : Int64) :
    Right codePointToUTF8 sscanf w current_song now robots songs ↔
      Checked w.server (robots.toList.map Prod.snd) ∧ Enough w current_song robots := by
  rw [Right,OnNoticeUserChangerSong,platform,GetUserFollowAllRobot_found follow,← @CheckUserFollowAllRobots_iff current_song.uid w.server]
  cases checked : RobotServer.CheckUserFollowAllRobots current_song.uid w.server (robots.toList.map Prod.snd) with
  | none =>
    refine iff_of_false ?_ ?_
    · rintro ⟨after,sent,⟨⟩,_⟩
    · rintro ⟨⟨after,⟨⟩⟩,_⟩
  | some server =>
    have table' : SongTable codePointToUTF8 sscanf { w with server } current_song.mode current_song.type_id songs :=
      ⟨⟨table.apart,table.listed,table.known⟩,table.random,table.counted⟩
    exact (sendSongs_iff table' some_ most now).trans (and_iff_right ⟨server,rfl⟩).symm

/-- No other user is found under the low half of a user id that is no `int`. -/
theorem dispatch_iff (platform : current_song.platform_id = 10000)
    (follow : w.server.pc.user_follow_infos_[current_song.uid]? = some robots) (some_ : 0 < robots.size)
    (table : SongTable codePointToUTF8 sscanf w current_song.mode current_song.type_id songs) (most : robots.size ≤ songs.length)
    (alone : narrow current_song.uid ≠ current_song.uid → w.server.pc.user_follow_infos_[narrow current_song.uid]? = none) (now : Int64) :
    Right codePointToUTF8 sscanf w current_song now robots songs ↔
      narrow current_song.uid = current_song.uid ∧ Checked w.server (robots.toList.map Prod.snd) ∧ Enough w current_song robots := by
  by_cases plain : narrow current_song.uid = current_song.uid
  · rw [and_iff_right plain]
    refine request_iff platform ?_ some_ table most now
    rw [MapGetInt,plain,follow]
  · refine iff_of_false ?_ fun right => plain right.1
    rintro ⟨after,sent,run,dispatched⟩
    rw [OnNoticeUserChangerSong,platform,GetUserFollowAllRobot_none (alone plain)] at run
    cases run
    exact not_dispatched_nil some_ dispatched

end Requests

/-! ### Two robots and two songs -/

def songOf (id : Int64) (title : String) : Song := ⟨id,{ id_ := decimal id.toInt,titile_ := ascii title },rfl⟩

def twoSongs : List Song := [songOf 11 "c29uZw==",songOf 12 "dHVuZQ=="]

def twoRobots : RobotInfosMap := (Std.ExtTreeMap.insert ∅ 1 0).insert 2 1

/-- User 7 asks for the channel 5. -/
def request : NoticeUserCurrentSong := ⟨10000,7,11,5,ascii "chl"⟩

/-- After as many draws, with a shuffle that begins every search at the front. -/
def world (index : Nat) : World where
  server := {
    pc := { PlatformCache.empty with
      user_follow_infos_ := Std.ExtTreeMap.insert ∅ 7 twoRobots
      schduler_infos_ := Std.ExtTreeMap.insert ∅ 3 ⟨10000,3,[]⟩ }
    socket_robot_map_ := fun _ => none
    data := fun _ => Data.new 0 0
    fresh := 2 }
  random_map_ := fun _ _ => some ⟨2,index,[0,1],2⟩
  rand := fun _ => 0
  hashes := fun _ field => if field = ascii "0" then some (ascii "11") else if field = ascii "1" then some (ascii "12") else none
  strings := fun songid =>
    if songid = ascii "11" then some (songOf 11 "c29uZw==").record.SerializedJson
    else if songid = ascii "12" then some (songOf 12 "dHVuZQ==").record.SerializedJson
    else none

/-- What is written is read. -/
theorem clean_read {record : Public.MusicInfo} (clean : record.values.all fun value => value.all fun c => c ≠ 34 ∧ c ≠ 92 ∧ c ≠ 0)
    (hq_url : record.hq_url_ = []) (whole : c_str record.SerializedJson = record.SerializedJson) :
    unserialized Logic.WriteUTF8 (fun _ => none) (Public.MusicInfo.UnserializedJson Logic.WriteUTF8 fun _ => none) {} record.SerializedJson =
      some record := by
  have each : ∀ value ∈ record.values, Public.Json.Clean value :=
    fun value listed => Public.Json.Clean.of_all (List.all_eq_true.mp clean value listed)
  apply Music.TypeSongs.music_info_of_read
  rw [whole]
  exact (Public.MusicInfo.kept_clean Public.length_WriteUTF8 record le_rfl).mpr ⟨each,hq_url⟩

theorem twoSongs_stored {index : Nat} (within : index ≤ 2) : SongTable Logic.WriteUTF8 (fun _ => none) (world index) (ascii "chl") 5 twoSongs := by
  refine ⟨⟨by decide,?_,?_⟩,?_,by decide⟩
  · intro i song there
    rcases i with _ | _ | i
    · cases there
      rfl
    · cases there
      rfl
    · cases there
  · rw [twoSongs,List.forall_mem_cons,List.forall_mem_singleton]
    refine ⟨⟨(songOf 11 "c29uZw==").record.SerializedJson,?_,clean_read rfl rfl (by decide)⟩,
      ⟨(songOf 12 "dHVuZQ==").record.SerializedJson,?_,clean_read rfl rfl (by decide)⟩⟩
    · have first : decimal (songOf 11 "c29uZw==").id.toInt = ascii "11" := by decide
      dsimp only [world]
      rw [if_pos first]
    · have second : decimal (songOf 12 "dHVuZQ==").id.toInt = ascii "12" := by decide
      have apart : ascii "12" ≠ ascii "11" := by decide
      dsimp only [world]
      rw [second,if_neg apart,if_pos rfl]
  · intro type _
    exact ⟨_,rfl,rfl,.refl _,within⟩

theorem request_follow (index : Nat) : (world index).server.pc.user_follow_infos_[request.uid]? = some twoRobots := by
  rw [world]
  dsimp only
  rw [Std.ExtTreeMap.getElem?_insert,if_pos (by decide)]

theorem twoRobots_size : twoRobots.size = 2 := by
  have apart : compare (1 : Int64) 2 ≠ .eq := by decide
  have new : (Std.ExtTreeMap.insert ∅ 1 0 : RobotInfosMap).contains 2 = false := by
    rw [Std.ExtTreeMap.contains_insert,Std.ExtTreeMap.contains_empty,Bool.or_false]
    decide
  rw [twoRobots,Std.ExtTreeMap.size_insert,new,if_neg Bool.false_ne_true,Std.ExtTreeMap.size_insert,Std.ExtTreeMap.contains_empty,
    if_neg Bool.false_ne_true,Std.ExtTreeMap.size_empty]

theorem robots_checked (index : Nat) : Checked (world index).server (twoRobots.toList.map Prod.snd) := by
  refine .inl ?_
  rw [world]
  exact Std.ExtTreeMap.isEmpty_eq_false_iff.mpr Std.ExtTreeMap.insert_ne_empty

/-- With both songs left. -/
theorem request_right : Right Logic.WriteUTF8 (fun _ => none) (world 0) request 0 twoRobots twoSongs := by
  have size := twoRobots_size
  refine (dispatch_iff rfl (request_follow 0) (by omega) (twoSongs_stored (by omega)) (by rw [size]; decide) (fun other => absurd rfl other) 0).mpr ?_
  refine ⟨rfl,robots_checked 0,.channel,rfl,_,rfl,.inl ?_⟩
  rw [size]

/-- The least that `rand()` returns begins at the front. -/
theorem liIndex_zero (num : Nat) : liIndex num 0 = 0 := by
  have nothing : Music.Quotas.double 0 = 0 := by
    simpa [Music.Quotas.double] using @Library.Rounding.round_exact 53 0 0 (by norm_num)
  rw [liIndex,Fin.val_zero,Nat.cast_zero,zero_div,nothing,mul_zero,nothing,Int.floor_zero,Int.toNat_zero]

/-- With one song left, which comes first again when the table is shuffled. -/
theorem request_repeated : ¬Right Logic.WriteUTF8 (fun _ => none) (world 1) request 0 twoRobots twoSongs := by
  have size := twoRobots_size
  have follow : MapGetInt (world 1).server.pc.user_follow_infos_ request.uid = some twoRobots := request_follow 1
  rw [request_iff rfl follow (by omega) (twoSongs_stored (by omega)) (by rw [size]; decide)]
  rintro ⟨_,type,mode,radom,found,enough⟩
  cases found
  rw [size] at enough
  obtain left | ⟨fresh,made,apart⟩ := enough
  · exact absurd left (by decide)
  · have shuffled : MigRadomInV2.SetRateTable 2 (fun _ => 0) 0 ⟨2,1,[0,1],2⟩ = some ⟨2,0,[1,0],4⟩ := rfl
    have front : (fun k => liIndex 2 ((world 1).rand k)) = fun _ => 0 := funext fun _ => liIndex_zero 2
    rw [front,shuffled] at made
    cases made
    exact apart 1 (by decide) (by decide)

end Migfm.Robot.SongDispatch
