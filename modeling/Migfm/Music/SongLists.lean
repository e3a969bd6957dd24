import Migfm.Library.Fairness
import Migfm.Library.Words
import Migfm.Music.TypeSongs

/-! The songs of a word in master/music/music_mgr_engine.cc and those of a channel in
master/music/music_cache_mgr.cc: one by one, until as many as asked for are written. -/
namespace Migfm.Music.SongLists
open Library Library.Fairness Public.Json
open Logic (ascii decimal atoll)
open TypeSongs (MYSQL_ROW HttpPacket Base64Decode clt ht)

structure MusicInfo extends Public.MusicInfo where
  url_ : List UInt8 := []
  music_time_ : Int32 := 0

/-- What the servers hold while a list is built. -/
structure World where
  /-- The values of a hash that `AddHashRadomElement` fills. -/
  stored : List UInt8 → List (List UInt8)
  /-- Whether the hash has a value of the name. -/
  GetHashElement : List UInt8 → List UInt8 → Bool
  GetValue : List UInt8 → Option (List UInt8)
  /-- The rows, unless the statement fails. -/
  SQLExec : List UInt8 → Option (List MYSQL_ROW)
  channel_cache_map_ : Int32 → Option (List MusicInfo)

/-! ### dic_comm.cc and db_comm.cc -/

/-- The hash of the word's songs. -/
def art_name (mode wordid : List UInt8) : List UInt8 := mode ++ ascii "_r" ++ wordid

/-- The answer to a random number. A value that is no text is not given. -/
def GetMusicMapRadom (w : World) (art_name : List UInt8) (radom_num : Int32) : Option (List UInt8) :=
  let current_size := Int32.ofNat (w.stored (c_str art_name)).length
  if 0 < current_size then
    (w.stored (c_str art_name))[(radom_num.toInt.tmod current_size.toInt).natAbs]?.filter fun value => c_str value ≠ []
  else none

/-- What is picked is stored. -/
theorem GetMusicMapRadom_stored {w : World} {name song_id : List UInt8} {radom_num : Int32}
    (picked : GetMusicMapRadom w name radom_num = some song_id) : song_id ∈ w.stored (c_str name) := by
  rw [GetMusicMapRadom] at picked
  split_ifs at picked
  exact List.mem_of_getElem? (Option.filter_eq_some_iff.mp picked).1

/-- The picks are fair if each of the stored songs comes again and again. -/
theorem fair_of_recurs {w : World} {name : List UInt8} {radom : Nat → Int32}
    (recurs : ∀ song_id ∈ w.stored (c_str name), ∃ᶠ n in Filter.atTop, GetMusicMapRadom w name (radom n) = some song_id) :
    Fair (w.stored (c_str name)) fun n => GetMusicMapRadom w name (radom n) where
  within _ _ picked := GetMusicMapRadom_stored picked
  recurs := recurs

def IsHateSong (w : World) (uid songid : List UInt8) : Bool := w.GetHashElement (ht uid) (c_str songid)
def IsCollectSong (w : World) (uid songid : List UInt8) : Bool := w.GetHashElement (clt uid) (c_str songid)

/-- No outcome: a column is NULL. -/
def GetSongidFromDoubanId (w : World) (douban_songid : List UInt8) : Option (List UInt8) :=
  match w.SQLExec (ascii "select id from migfm_music_douban where sidx = \"" ++ c_str douban_songid ++ ascii "\";") with
  | none => some []
  | some db_rows =>
    if 0 < Int32.ofNat db_rows.length then db_rows.foldlM (fun _ rows => rows 0) [] else some []

def DEFAULT_URL : List UInt8 := ascii "http://42.121.14.108/wx/lp5.mp3"

/-- Both columns are the same, and the second is overwritten with the first. -/
def GetMusicUrl (w : World) (song_id hq_url song_url : List UInt8) : List UInt8 × List UInt8 :=
  let sql := ascii "select song_kowu_url,song_kowu_url from migfm_music_url where song_id ='" ++ c_str song_id ++ ascii "';"
  match w.SQLExec sql with
  | none => (hq_url,song_url)
  | some db_rows =>
    if 0 < Int32.ofNat db_rows.length then
      let hq_url := db_rows.foldl (fun _ rows => (rows 0).getD DEFAULT_URL) hq_url
      (hq_url,hq_url)
    else (DEFAULT_URL,DEFAULT_URL)

/-! ### GetMoodSceneWordSong -/

section Mood
variable (codePointToUTF8 : Nat → List UInt8) (sscanf : List UInt8 → Option Float) (w : World)

/-- It is declared, and nothing is ever read into it. -/
def uid : List UInt8 := []

/-- No outcome: an accessor throws. Without a song, `GetMusicInfos` or the parser has failed. -/
def musicInfo (song_id : List UInt8) : Option (Option Public.MusicInfo) :=
  match w.GetValue (c_str song_id) with
  | none => some none
  | some music_info =>
    match readDocument codePointToUTF8 sscanf (c_str music_info) with
    | none => some none
    | some _ =>
      (Public.MusicInfo.UnserializedJson codePointToUTF8 sscanf (2 * (c_str music_info).length + 2) music_info).map some

/-- The head of the loop, or the label. -/
inductive Site
  | loop
  | ret1
  deriving DecidableEq

/-- The locals. -/
structure Mood where
  site : Site := .loop
  current_num : Int32
  flag : Bool := false
  os1 : List UInt8 := ascii "\"song\":["
  songid_map : List (List UInt8) := []
  hq_content_url : List UInt8 := []
  content_url : List UInt8 := []
  /-- The songs that have been written. -/
  emitted : List (List UInt8) := []

namespace Mood

def going (mood : Mood) : Prop := mood.site = .ret1 ∨ 0 < mood.current_num

instance : DecidablePred going := fun mood => inferInstanceAs (Decidable (mood.site = .ret1 ∨ 0 < mood.current_num))

/-- A comma is written before each round but the first, though not after a jump to the label. -/
def enter (mood : Mood) : Mood :=
  if mood.site = .ret1 then mood
  else if mood.flag then { mood with os1 := mood.os1 ++ ascii "," }
  else { mood with flag := true }

def text (smi : MusicInfo) (is_like : Bool) : List UInt8 :=
  ascii "\x7b\"id\":\"" ++ c_str smi.id_ ++ ascii "\",\"title\":\"" ++ c_str (Base64Decode smi.titile_) ++
    ascii "\",\"artist\":\"" ++ c_str (Base64Decode smi.artist_) ++ ascii "\",\"url\":\"" ++ c_str smi.hq_url_ ++
    ascii "\",\"hqurl\":\"" ++ c_str smi.hq_url_ ++ ascii "\",\"pub_time\":\"" ++ c_str smi.pub_time_ ++
    ascii "\",\"album\":\"" ++ c_str (Base64Decode smi.album_title_) ++ ascii "\",\"time\":\"" ++
    decimal smi.music_time_.toInt ++ ascii "\",\"pic\":\"" ++ c_str smi.pic_url_ ++ ascii "\",\"like\":\"" ++
    ascii (if is_like then "1" else "0") ++ ascii "\"\x7d"

def write (mood : Mood) (song_id : List UInt8) (music_info : Public.MusicInfo) : Mood :=
  let url := GetMusicUrl w music_info.id_ mood.hq_content_url mood.content_url
  let smi : MusicInfo := { music_info with hq_url_ := url.1, url_ := url.2, music_time_ := 0 }
  { mood with
    hq_content_url := url.1
    content_url := url.2
    os1 := mood.os1 ++ text smi (IsCollectSong w uid song_id)
    emitted := mood.emitted ++ [song_id]
    current_num := mood.current_num - 1 }

/-- From the head or the label to the next `continue` or `goto`, or to the end of the body. -/
def step (mood : Mood) (picked : Option (List UInt8)) : Option Mood :=
  let mood := mood.enter
  match picked with
  | none => some { mood with site := .loop }
  | some song_id =>
    if IsHateSong w uid song_id then some { mood with site := .loop }
    else if song_id ∈ mood.songid_map then some { mood with site := .ret1 }
    else
      let mood := { mood with site := .loop, songid_map := song_id::mood.songid_map }
      (musicInfo codePointToUTF8 sscanf w song_id).map fun music_info => music_info.elim mood (mood.write w song_id)

end Mood

structure Reply where
  status : List UInt8
  msg : String
  result : List UInt8 := []
  emitted : List (List UInt8) := []

def requested (pack : HttpPacket) : List UInt8 := (pack (ascii "num")).getD (ascii "1")

/-- No outcome: the loop has not ended in so many rounds, or something throws. -/
def GetMoodSceneWordSong (pack : HttpPacket) (n : Nat) (picks : Nat → Option (List UInt8)) : Option Reply :=
  match pack (ascii "mode"),pack (ascii "wordid") with
  | none,_ => some { status := ascii "0", msg := "请求中未包含模式信息" }
  | some _,none => some { status := ascii "0", msg := "请求中未包含模式描述信息" }
  | some _,some _ =>
    let current_num := (atoll (c_str (requested pack))).toInt32
    (rounds Mood.going (Mood.step codePointToUTF8 sscanf w) n picks { current_num }).bind fun mood =>
      if mood.going then none
      else some { status := ascii "1", msg := "0", result := mood.os1 ++ ascii "]", emitted := mood.emitted }

end Mood

/-! ### GetMusicCahnelTypeInfos -/

structure Channel where
  channel_music_infos_ : List MusicInfo
  i : Int32 := 0
  os : List UInt8 := []
  /-- The songs that have been written. -/
  emitted : List (List UInt8) := []

namespace Channel
variable (w : World) (uid : List UInt8) (nun : Int32)

def going (channel : Channel) : Prop := channel.i < nun

instance : DecidablePred (going nun) := fun channel => inferInstanceAs (Decidable (channel.i < nun))

/-- The comma comes after the song. -/
def write (channel : Channel) (mi : MusicInfo) (rest : List MusicInfo) : Channel :=
  let info := ascii "\x7b\"id\":\"" ++ c_str mi.id_ ++ ascii "\",\"title\":\"" ++ c_str mi.titile_ ++
    ascii "\",\"artist\":\"" ++ c_str mi.artist_ ++ ascii "\",\"pub_time\":\"" ++ c_str mi.pub_time_ ++
    ascii "\",\"album\":\"" ++ c_str mi.album_title_ ++ ascii "\",\"hq_url\":\"" ++ c_str mi.hq_url_ ++
    ascii "\",\"url\":\"" ++ c_str mi.url_ ++ ascii "\",\"pic\":\"" ++ c_str mi.pic_url_ ++
    ascii "\",\"time\":\"" ++ decimal mi.music_time_.toInt ++ ascii "\",\"0\":\"0\"\x7d"
  { channel_music_infos_ := rest
    i := channel.i + 1
    os := channel.os ++ info ++ ascii (if channel.i = 0 then "" else ",")
    emitted := channel.emitted ++ [mi.id_] }

/-- Nothing is picked. -/
def step (channel : Channel) (_ : Option (List UInt8)) : Option Channel :=
  match channel.channel_music_infos_ with
  | [] => some { channel with i := channel.i + 1 }
  | mi::rest =>
    (GetSongidFromDoubanId w mi.id_).map fun songid =>
      if IsHateSong w uid songid then { channel with channel_music_infos_ := rest }
      -- a collected song stays at the front, and its record, which is shared, has the new id
      else if IsCollectSong w uid songid then { channel with channel_music_infos_ := { mi with id_ := songid }::rest }
      else channel.write { mi with id_ := songid } rest

end Channel

/-- What is written, and the value, which is missing where the function falls off its end. -/
structure Listing where
  returned : Option Bool
  os : List UInt8 := []
  emitted : List (List UInt8) := []

/-- No outcome: the loop has not ended in so many rounds, or NULL is read. -/
def GetMusicCahnelTypeInfos (w : World) (channel : Int32) (uid : List UInt8) (nun : Int32) (n : Nat)
    (picks : Nat → Option (List UInt8)) : Option Listing :=
  match w.channel_cache_map_ channel with
  | none => some { returned := some false }
  | some channel_music_infos_ =>
    (rounds (Channel.going nun) (Channel.step w uid) n picks { channel_music_infos_ }).bind fun final =>
      if final.going nun then none else some { returned := none, os := final.os, emitted := final.emitted }

/-! ### What is promised -/

inductive Call
  | GetMoodSceneWordSong (pack : HttpPacket)
  | GetMusicCahnelTypeInfos (channel nun : Int32)

namespace Call

/-- How many songs are asked for. -/
def num : Call → Int
  | GetMoodSceneWordSong pack => (atoll (c_str (requested pack))).toInt
  | GetMusicCahnelTypeInfos _ nun => nun.toInt

section Meaning
variable (codePointToUTF8 : Nat → List UInt8) (sscanf : List UInt8 → Option Float) (w : World) (user : List UInt8)

/-- The songs that picks are made from. -/
def songs : Call → List (List UInt8)
  | GetMoodSceneWordSong pack =>
    match pack (ascii "mode"),pack (ascii "wordid") with
    | some mode,some wordid => w.stored (c_str (art_name mode wordid))
    | _,_ => []
  | GetMusicCahnelTypeInfos .. => []

def emits (n : Nat) (picks : Nat → Option (List UInt8)) : Call → Option (List (List UInt8))
  | GetMoodSceneWordSong pack =>
    (SongLists.GetMoodSceneWordSong codePointToUTF8 sscanf w pack n picks).map Reply.emitted
  | GetMusicCahnelTypeInfos channel nun =>
    (SongLists.GetMusicCahnelTypeInfos w channel user nun n picks).map Listing.emitted

/-- No more songs than asked for, none that the user hates, and none twice. -/
structure Fits (w : World) (user : List UInt8) (num : Int) (emitted : List (List UInt8)) : Prop where
  number : emitted.length ≤ num.toNat
  kept : ∀ song_id ∈ emitted, IsHateSong w user song_id = false
  once : emitted.Nodup

/-- Under any fair picks, it ends with songs that fit. -/
def Right (call : Call) : Prop := ∀ picks, Fair (call.songs w) picks →
  ∃ n emitted, call.emits codePointToUTF8 sscanf w user n picks = some emitted ∧ Fits w user call.num emitted

/-- A stored song that is written. -/
def usable (song_id : List UInt8) : Bool :=
  !IsHateSong w uid song_id && (musicInfo codePointToUTF8 sscanf w song_id).join.isSome

/-- The id that is found in so many lookups, of which each is of the id before, as long as that is collected. -/
def lookups : Nat → List UInt8 → Option (List UInt8)
  | 0,_ => none
  | n+1,id => (GetSongidFromDoubanId w id).bind fun songid =>
    if !IsHateSong w user songid && IsCollectSong w user songid then lookups n songid else some songid

open Classical in
/-- The id that the song ends up with, if it does. -/
noncomputable def settled (id : List UInt8) : Option (List UInt8) :=
  if found : ∃ n, (lookups w user n id).isSome then lookups w user (Nat.find found) id else none

/-- The songs of a channel's list that are not hated. -/
noncomputable def liked (infos : List MusicInfo) : List (List UInt8) := infos.filterMap fun mi =>
  (settled w user mi.id_).filter fun songid => !IsHateSong w user songid

/-- Enough stored songs can be written, and the user hates none of them. Of the channel's list, each song up to the
last one needed ends up with an id, and of those that are needed none is there twice. -/
def Good : Call → Prop
  | GetMoodSceneWordSong pack => ∀ mode wordid, pack (ascii "mode") = some mode → pack (ascii "wordid") = some wordid →
    let wanted := (atoll (c_str (requested pack))).toInt32
    0 < wanted → 0 < (atoll (c_str (requested pack))).toInt ∧
      wanted.toInt ≤ ((w.stored (c_str (art_name mode wordid))).filter (usable codePointToUTF8 sscanf w)).dedup.length ∧
      ∀ song_id ∈ w.stored (c_str (art_name mode wordid)),
        (IsHateSong w uid song_id = false → musicInfo codePointToUTF8 sscanf w song_id ≠ none) ∧
        (usable codePointToUTF8 sscanf w song_id → IsHateSong w user song_id = false)
  | GetMusicCahnelTypeInfos channel nun => ∀ infos, w.channel_cache_map_ channel = some infos →
    (∀ before mi after, infos = before ++ mi::after → (liked w user before).length < nun.toInt.toNat →
      settled w user mi.id_ ≠ none) ∧
    ((liked w user infos).take nun.toInt.toNat).Nodup

end Meaning
end Call

/-! ### Rounds of the first loop -/

namespace Mood
section Rounds
variable {codePointToUTF8 : Nat → List UInt8} {sscanf : List UInt8 → Option Float} {w : World} {mood next : Mood}
  {picked : Option (List UInt8)}

@[simp] theorem enter_current_num (mood : Mood) : mood.enter.current_num = mood.current_num := by
  unfold enter
  split_ifs <;> rfl

@[simp] theorem enter_songid_map (mood : Mood) : mood.enter.songid_map = mood.songid_map := by
  unfold enter
  split_ifs <;> rfl

@[simp] theorem enter_emitted (mood : Mood) : mood.enter.emitted = mood.emitted := by
  unfold enter
  split_ifs <;> rfl

/-- Nothing is written. A song that can be written is tried no more than before. -/
structure Quiet (codePointToUTF8 : Nat → List UInt8) (sscanf : List UInt8 → Option Float) (w : World) (mood next : Mood)
    (picked : Option (List UInt8)) : Prop where
  current_num : next.current_num = mood.current_num
  emitted : next.emitted = mood.emitted
  tried : ∀ song_id, Call.usable codePointToUTF8 sscanf w song_id → (song_id ∈ next.songid_map ↔ song_id ∈ mood.songid_map)
  picked : ∀ song_id ∈ picked, Call.usable codePointToUTF8 sscanf w song_id → song_id ∈ mood.songid_map

/-- The song is written, and was not tried before. -/
structure Wrote (codePointToUTF8 : Nat → List UInt8) (sscanf : List UInt8 → Option Float) (w : World) (mood next : Mood)
    (song_id : List UInt8) : Prop where
  usable : Call.usable codePointToUTF8 sscanf w song_id
  new : song_id ∉ mood.songid_map
  site : next.site = .loop
  current_num : next.current_num = mood.current_num - 1
  emitted : next.emitted = mood.emitted ++ [song_id]
  songid_map : next.songid_map = song_id::mood.songid_map

variable (codePointToUTF8 sscanf w) in
/-- All that a round can do. -/
theorem step_cases (mood : Mood) (picked : Option (List UInt8)) :
    (∃ next, step codePointToUTF8 sscanf w mood picked = some next ∧
      (Quiet codePointToUTF8 sscanf w mood next picked ∨ ∃ song_id ∈ picked, Wrote codePointToUTF8 sscanf w mood next song_id)) ∨
    step codePointToUTF8 sscanf w mood picked = none ∧
      ∃ song_id ∈ picked, IsHateSong w uid song_id = false ∧ musicInfo codePointToUTF8 sscanf w song_id = none := by
  cases picked with
  | none => exact .inl ⟨_,rfl,.inl ⟨enter_current_num mood,enter_emitted mood,fun _ _ => by rw [enter_songid_map],nofun⟩⟩
  | some song_id =>
    rw [step]
    by_cases hated : IsHateSong w uid song_id = true
    · rw [if_pos hated]
      refine .inl ⟨_,rfl,.inl ⟨enter_current_num mood,enter_emitted mood,fun _ _ => by rw [enter_songid_map],?_⟩⟩
      rintro _ ⟨⟩ usable
      rw [Call.usable,hated] at usable
      cases usable
    · rw [if_neg hated,enter_songid_map]
      by_cases known : song_id ∈ mood.songid_map
      · rw [if_pos known]
        refine .inl ⟨_,rfl,.inl ⟨enter_current_num mood,enter_emitted mood,fun _ _ => Iff.rfl,?_⟩⟩
        rintro _ ⟨⟩ -
        exact known
      · rw [if_neg known]
        have kept := Bool.eq_false_iff.mpr hated
        cases info : musicInfo codePointToUTF8 sscanf w song_id with
        | none => exact .inr ⟨rfl,song_id,rfl,kept,info⟩
        | some music_info =>
          have usable : Call.usable codePointToUTF8 sscanf w song_id = music_info.isSome := by
            rw [Call.usable,kept,info]
            rfl
          refine .inl ⟨_,rfl,?_⟩
          cases music_info with
          | none =>
            refine .inl ⟨enter_current_num mood,enter_emitted mood,?_,?_⟩
            · intro other usable'
              have apart : other ≠ song_id := by
                rintro rfl
                rw [usable] at usable'
                cases usable'
              exact List.mem_cons.trans (or_iff_right apart)
            · rintro _ ⟨⟩ usable'
              rw [usable] at usable'
              cases usable'
          | some music_info =>
            exact .inr ⟨song_id,rfl,usable,known,rfl,congrArg (· - 1) (enter_current_num mood),
              congrArg (· ++ [song_id]) (enter_emitted mood),rfl⟩

end Rounds

/-! ### Runs of the first loop -/

section Runs
variable {codePointToUTF8 : Nat → List UInt8} {sscanf : List UInt8 → Option Float} {w : World} {stored : List (List UInt8)}
  {wanted : Int32} {mood : Mood} {picked : Option (List UInt8)}

/-- What has been written is what was tried and can be written. -/
structure Inv (codePointToUTF8 : Nat → List UInt8) (sscanf : List UInt8 → Option Float) (w : World)
    (stored : List (List UInt8)) (wanted : Int32) (mood : Mood) : Prop where
  nonneg : 0 ≤ mood.current_num.toInt
  more : mood.site = .ret1 → 0 < mood.current_num.toInt
  number : mood.emitted.length + mood.current_num.toInt = wanted.toInt
  tried : ∀ song_id, Call.usable codePointToUTF8 sscanf w song_id → (song_id ∈ mood.songid_map ↔ song_id ∈ mood.emitted)
  usable : mood.emitted ⊆ stored.filter (Call.usable codePointToUTF8 sscanf w)
  once : mood.emitted.Nodup

theorem Inv.start (positive : 0 < wanted.toInt) : Inv codePointToUTF8 sscanf w stored wanted { current_num := wanted } where
  nonneg := Int.le_of_lt positive
  more := nofun
  number := Int.zero_add _
  tried _ _ := Iff.rfl
  usable := List.nil_subset _
  once := List.nodup_nil

theorem Inv.going_iff (inv : Inv codePointToUTF8 sscanf w stored wanted mood) : mood.going ↔ 0 < mood.current_num.toInt := by
  rw [going,Int32.lt_iff_toInt_lt,Int32.toInt_zero]
  exact or_iff_right_of_imp inv.more

theorem Inv.quiet {next : Mood} (inv : Inv codePointToUTF8 sscanf w stored wanted mood) (more : mood.going)
    (quiet : Quiet codePointToUTF8 sscanf w mood next picked) : Inv codePointToUTF8 sscanf w stored wanted next where
  nonneg := quiet.current_num ▸ inv.nonneg
  more _ := quiet.current_num ▸ inv.going_iff.mp more
  number := by
    rw [quiet.emitted,quiet.current_num]
    exact inv.number
  tried song_id usable := by
    rw [quiet.tried song_id usable,quiet.emitted]
    exact inv.tried song_id usable
  usable := quiet.emitted ▸ inv.usable
  once := quiet.emitted ▸ inv.once

theorem Wrote.current_num_toInt {next : Mood} {song_id : List UInt8} (positive : 0 < mood.current_num.toInt)
    (wrote : Wrote codePointToUTF8 sscanf w mood next song_id) : next.current_num.toInt = mood.current_num.toInt - 1 := by
  have small := mood.current_num.toInt_lt
  rw [wrote.current_num,Words.toInt_sub_exact,Int32.toInt_one] <;> rw [Int32.toInt_one] <;> omega

theorem Inv.wrote {next : Mood} {song_id : List UInt8} (inv : Inv codePointToUTF8 sscanf w stored wanted mood) (more : mood.going)
    (within : song_id ∈ stored) (wrote : Wrote codePointToUTF8 sscanf w mood next song_id) :
    Inv codePointToUTF8 sscanf w stored wanted next where
  nonneg := by
    have positive := inv.going_iff.mp more
    rw [wrote.current_num_toInt positive]
    omega
  more back := by
    rw [wrote.site] at back
    cases back
  number := by
    rw [wrote.emitted,wrote.current_num_toInt (inv.going_iff.mp more),List.length_append,List.length_singleton]
    have before := inv.number
    omega
  tried other usable := by
    rw [wrote.songid_map,wrote.emitted,List.mem_cons,List.mem_append,List.mem_singleton,inv.tried other usable,or_comm]
  usable := by
    rw [wrote.emitted]
    refine List.append_subset.mpr ⟨inv.usable,List.cons_subset.mpr ⟨?_,List.nil_subset _⟩⟩
    exact List.mem_filter.mpr ⟨within,wrote.usable⟩
  once := by
    rw [wrote.emitted]
    refine inv.once.append (List.nodup_singleton _) (List.disjoint_singleton.mpr ?_)
    rw [← inv.tried song_id wrote.usable]
    exact wrote.new

theorem Inv.step {next : Mood} (inv : Inv codePointToUTF8 sscanf w stored wanted mood) (more : mood.going)
    (within : ∀ song_id ∈ picked, song_id ∈ stored) (outcome : step codePointToUTF8 sscanf w mood picked = some next) :
    Inv codePointToUTF8 sscanf w stored wanted next := by
  obtain ⟨_,same,quiet | ⟨song_id,chosen,wrote⟩⟩ | ⟨throws,-⟩ := step_cases codePointToUTF8 sscanf w mood picked
  · cases outcome.symm.trans same
    exact inv.quiet more quiet
  · cases outcome.symm.trans same
    exact inv.wrote more (within song_id chosen) wrote
  · cases outcome.symm.trans throws

/-- What has been written when the loop has ended. -/
theorem emitted_of_ends {picks : Nat → Option (List UInt8)} (fair : Fair stored picks) (positive : 0 < wanted.toInt) {final : Mood}
    (ends : Ends going (Mood.step codePointToUTF8 sscanf w) picks { current_num := wanted } final) :
    final.emitted.length = wanted.toInt ∧ final.emitted ⊆ stored.filter (Call.usable codePointToUTF8 sscanf w) ∧
      final.emitted.Nodup := by
  have inv : Inv codePointToUTF8 sscanf w stored wanted final :=
    ends.keeps _ (∀ song_id ∈ ·, song_id ∈ stored) fair.within (fun inv more within outcome => inv.step more within outcome) (.start positive)
  obtain ⟨_,-,stopped⟩ := ends
  have number := inv.number
  have nonneg := inv.nonneg
  rw [inv.going_iff] at stopped
  exact ⟨by omega,inv.usable,inv.once⟩

/-- The loop ends if there are enough songs and nothing throws. -/
theorem ends_of_enough {picks : Nat → Option (List UInt8)} (fair : Fair stored picks) (positive : 0 < wanted.toInt)
    (enough : wanted.toInt ≤ (stored.filter (Call.usable codePointToUTF8 sscanf w)).dedup.length)
    (calm : ∀ song_id ∈ stored, IsHateSong w uid song_id = false → musicInfo codePointToUTF8 sscanf w song_id ≠ none) :
    ∃ final, Ends going (Mood.step codePointToUTF8 sscanf w) picks { current_num := wanted } final := by
  -- a song helps that can be written and has not been tried
  refine Fair.ends (Inv codePointToUTF8 sscanf w stored wanted)
    (fun song_id mood => Call.usable codePointToUTF8 sscanf w song_id ∧ song_id ∉ mood.songid_map)
    (fun mood => mood.current_num.toInt.toNat) ?_ ?_ fair (.start positive)
  · intro mood inv more
    by_contra none_helps
    have all : (stored.filter (Call.usable codePointToUTF8 sscanf w)).dedup ⊆ mood.emitted := by
      intro song_id member
      obtain ⟨within,usable⟩ := List.mem_filter.mp (List.mem_dedup.mp member)
      rw [← inv.tried song_id usable]
      by_contra new
      exact none_helps ⟨song_id,within,usable,new⟩
    have least := ((List.nodup_dedup _).subperm all).length_le
    have positive := inv.going_iff.mp more
    have number := inv.number
    omega
  · intro mood picked inv more within
    have positive := inv.going_iff.mp more
    obtain ⟨next,outcome,quiet | ⟨song_id,chosen,wrote⟩⟩ | ⟨-,song_id,chosen,kept,throws⟩ :=
      step_cases codePointToUTF8 sscanf w mood picked
    · refine ⟨next,outcome,inv.quiet more quiet,.inr ⟨by rw [quiet.current_num],?_⟩⟩
      rintro song_id ⟨usable,new⟩
      rw [quiet.tried song_id usable]
      exact ⟨fun chosen => new (quiet.picked song_id chosen usable),usable,new⟩
    · refine ⟨next,outcome,inv.wrote more (within song_id chosen) wrote,.inl ?_⟩
      rw [wrote.current_num_toInt positive]
      omega
    · exact absurd throws (calm song_id (within song_id chosen) kept)

theorem step_throws {song_id : List UInt8} (new : song_id ∉ mood.songid_map) (kept : IsHateSong w uid song_id = false)
    (throws : musicInfo codePointToUTF8 sscanf w song_id = none) :
    step codePointToUTF8 sscanf w mood (some song_id) = none := by
  rw [step,if_neg (Bool.eq_false_iff.mp kept),enter_songid_map,if_neg new,throws]
  rfl

theorem step_writes {song_id : List UInt8} {next : Mood} (new : song_id ∉ mood.songid_map)
    (usable : Call.usable codePointToUTF8 sscanf w song_id)
    (outcome : step codePointToUTF8 sscanf w mood (some song_id) = some next) : song_id ∈ next.emitted := by
  obtain ⟨_,same,quiet | ⟨_,chosen,wrote⟩⟩ | ⟨throws,-⟩ :=
    step_cases codePointToUTF8 sscanf w mood (some song_id)
  · exact absurd (quiet.picked song_id rfl usable) new
  · cases outcome.symm.trans same
    cases chosen
    rw [wrote.emitted]
    exact List.mem_append_right _ List.mem_cons_self
  · cases outcome.symm.trans throws

/-- What is written stays. -/
theorem step_emitted {song_id : List UInt8} {next : Mood} (before : song_id ∈ mood.emitted)
    (outcome : step codePointToUTF8 sscanf w mood picked = some next) : song_id ∈ next.emitted := by
  obtain ⟨_,same,quiet | ⟨_,-,wrote⟩⟩ | ⟨throws,-⟩ :=
    step_cases codePointToUTF8 sscanf w mood picked
  · cases outcome.symm.trans same
    exact quiet.emitted ▸ before
  · cases outcome.symm.trans same
    rw [wrote.emitted]
    exact List.mem_append_left _ before
  · cases outcome.symm.trans throws

end Runs

section Whole
variable {codePointToUTF8 : Nat → List UInt8} {sscanf : List UInt8 → Option Float} {w : World} {user : List UInt8}
  {pack : HttpPacket} {mode wordid : List UInt8}

theorem emits_iff (hasMode : pack (ascii "mode") = some mode) (hasWord : pack (ascii "wordid") = some wordid)
    (picks : Nat → Option (List UInt8)) (Q : List (List UInt8) → Prop) :
    (∃ n emitted, (Call.GetMoodSceneWordSong pack).emits codePointToUTF8 sscanf w user n picks = some emitted ∧ Q emitted) ↔
      ∃ final, Ends going (Mood.step codePointToUTF8 sscanf w) picks
        { current_num := (atoll (c_str (requested pack))).toInt32 } final ∧ Q final.emitted := by
  simp only [Call.emits,GetMoodSceneWordSong,hasMode,hasWord,Option.map_eq_some_iff,Option.bind_eq_some_iff]
  constructor
  · rintro ⟨n,_,⟨_,⟨final,ends,outcome⟩,rfl⟩,holds⟩
    split_ifs at outcome with more
    cases outcome
    exact ⟨final,⟨n,ends,more⟩,holds⟩
  · rintro ⟨final,⟨n,ends,stopped⟩,holds⟩
    exact ⟨n,_,⟨_,⟨final,ends,if_neg stopped⟩,rfl⟩,holds⟩

theorem GetMoodSceneWordSong_right (hasMode : pack (ascii "mode") = some mode) (hasWord : pack (ascii "wordid") = some wordid) :
    (Call.GetMoodSceneWordSong pack).Right codePointToUTF8 sscanf w user ↔
      (Call.GetMoodSceneWordSong pack).Good codePointToUTF8 sscanf w user := by
  have stored : (Call.GetMoodSceneWordSong pack).songs w = w.stored (c_str (art_name mode wordid)) := by
    rw [Call.songs,hasMode,hasWord]
  rw [Call.Right,Call.Good,stored]
  simp only [emits_iff hasMode hasWord]
  by_cases positive : 0 < (atoll (c_str (requested pack))).toInt32
  · have wanted := positive
    rw [Int32.lt_iff_toInt_lt,Int32.toInt_zero] at wanted
    constructor
    · rintro right mode' wordid' hasMode' hasWord' -
      cases hasMode.symm.trans hasMode'
      cases hasWord.symm.trans hasWord'
      obtain ⟨picks,fair⟩ := fair_exists (w.stored (c_str (art_name mode wordid)))
      obtain ⟨final,ends,fits⟩ := right picks fair
      obtain ⟨number,usable,once⟩ := emitted_of_ends fair wanted ends
      have few := fits.number
      rw [Call.num] at few
      have least := (once.subperm fun song_id member => List.mem_dedup.mpr (usable member)).length_le
      refine ⟨by omega,by omega,fun song_id member => ⟨fun kept throws => ?_,fun written => ?_⟩⟩
      · obtain ⟨picks,fair,first⟩ := exists_fair member
        obtain ⟨final,ends,-⟩ := right picks fair
        obtain ⟨_,outcome,-⟩ := (ends_next (.inr positive)).mp ends
        rw [first,step_throws List.not_mem_nil kept throws] at outcome
        cases outcome
      · obtain ⟨picks,fair,first⟩ := exists_fair member
        obtain ⟨final,ends,fits⟩ := right picks fair
        obtain ⟨next,outcome,rest⟩ := (ends_next (.inr positive)).mp ends
        rw [first] at outcome
        apply fits.kept song_id
        exact rest.keeps (fun mood => song_id ∈ mood.emitted) (fun _ => True) (fun _ => trivial)
          (fun before _ _ outcome => step_emitted before outcome) (step_writes List.not_mem_nil written outcome)
    · intro good picks fair
      obtain ⟨asked,enough,each⟩ := good mode wordid hasMode hasWord positive
      obtain ⟨final,ends⟩ := ends_of_enough fair wanted enough fun song_id member => (each song_id member).1
      obtain ⟨number,usable,once⟩ := emitted_of_ends fair wanted ends
      refine ⟨final,ends,?_,?_,once⟩
      · have low : (atoll (c_str (requested pack))).toInt32.toInt ≤ (atoll (c_str (requested pack))).toInt := by
          rw [Int64.toInt_toInt32,Int.bmod_def]
          split_ifs <;> omega
        rw [Call.num]
        omega
      · intro song_id member
        obtain ⟨within,written⟩ := List.mem_filter.mp (usable member)
        exact (each song_id within).2 written
  · refine iff_of_true (fun picks _ => ?_) fun _ _ _ _ wanted => absurd wanted positive
    have stopped : ¬going { current_num := (atoll (c_str (requested pack))).toInt32 } := by
      rintro (⟨⟨⟩⟩ | more)
      exact positive more
    exact ⟨_,(ends_over stopped).mpr rfl,Nat.zero_le _,nofun,List.nodup_nil⟩

end Whole
end Mood

/-! ### Runs of the second loop -/

namespace Channel
section Runs
variable {w : World} {user : List UInt8} {nun : Int32} {channel : Channel} {picks : Nat → Option (List UInt8)}

theorem lookups_more {n m : Nat} {id songid : List UInt8} (found : Call.lookups w user n id = some songid) (more : n ≤ m) :
    Call.lookups w user m id = some songid := by
  induction n generalizing m id with
  | zero => cases found
  | succ n ih =>
    obtain ⟨m,rfl⟩ := Nat.exists_eq_succ_of_ne_zero (Nat.ne_zero_of_lt more)
    rw [Call.lookups,Option.bind_eq_some_iff] at found ⊢
    obtain ⟨next,looked,found⟩ := found
    refine ⟨next,looked,?_⟩
    split at found
    · rename_i again
      rw [if_pos again]
      exact ih found (Nat.le_of_succ_le_succ more)
    · rename_i over_
      rw [if_neg over_]
      exact found

theorem settled_iff {id songid : List UInt8} :
    Call.settled w user id = some songid ↔ ∃ n, Call.lookups w user n id = some songid := by
  rw [Call.settled]
  split
  · rename_i found
    constructor
    · intro some_
      exact ⟨_,some_⟩
    · intro ⟨n,some_⟩
      have least := Nat.find_min' found (Option.isSome_of_eq_some some_)
      obtain ⟨other,first⟩ := Option.isSome_iff_exists.mp (Nat.find_spec found)
      rw [first,← lookups_more first least,some_]
  · rename_i none_
    refine iff_of_false (Option.some_ne_none songid).symm fun ⟨n,some_⟩ => ?_
    exact none_ ⟨n,Option.isSome_of_eq_some some_⟩

/-- Each song up to the last one needed ends up with an id. -/
def Clear (w : World) (user : List UInt8) (k : Nat) (infos : List MusicInfo) : Prop :=
  ∀ before mi after, infos = before ++ mi::after → (Call.liked w user before).length < k → Call.settled w user mi.id_ ≠ none

theorem clear_zero (infos : List MusicInfo) : Clear w user 0 infos := nofun

theorem clear_nil (k : Nat) : Clear w user k [] := by
  intro before mi after parts
  cases List.append_ne_nil_of_right_ne_nil before (List.cons_ne_nil mi after) parts.symm

theorem Clear.first {k : Nat} {mi : MusicInfo} {rest : List MusicInfo} (clear : Clear w user (k + 1) (mi::rest)) :
    Call.settled w user mi.id_ ≠ none :=
  clear [] mi rest rfl (Nat.succ_pos k)

theorem liked_cons {mi : MusicInfo} {songid : List UInt8} (found : Call.settled w user mi.id_ = some songid)
    (rest : List MusicInfo) : Call.liked w user (mi::rest) =
      if IsHateSong w user songid then Call.liked w user rest else songid::Call.liked w user rest := by
  rw [Call.liked,List.filterMap_cons,found,Option.filter_some]
  by_cases hated : IsHateSong w user songid = true
  · rw [if_pos hated,hated]
    rfl
  · rw [if_neg hated,Bool.eq_false_iff.mpr hated]
    rfl

theorem clear_cons {k : Nat} {mi : MusicInfo} {rest : List MusicInfo} :
    Clear w user (k + 1) (mi::rest) ↔ Call.settled w user mi.id_ ≠ none ∧
      Clear w user (k + 1 - (Call.liked w user [mi]).length) rest := by
  constructor
  · intro clear
    refine ⟨clear.first,?_⟩
    intro before next after parts short
    apply clear (mi::before) next after (by rw [parts,List.cons_append])
    rw [Call.liked,← List.singleton_append,List.filterMap_append,List.length_append]
    exact Nat.add_lt_of_lt_sub' short
  · rintro ⟨spared,clear⟩ before next after parts short
    cases before with
    | nil =>
      cases parts
      exact spared
    | cons _ before =>
      cases parts
      apply clear before next after rfl
      rw [Call.liked,← List.singleton_append,List.filterMap_append,List.length_append] at short
      exact Nat.lt_sub_of_add_lt (Nat.add_comm .. ▸ short)

/-- How many songs are still to be written. -/
def remaining (nun : Int32) (channel : Channel) : Nat := (nun.toInt - channel.i.toInt).toNat

theorem going_iff : channel.going nun ↔ 0 < channel.remaining nun := by
  rw [going,Int32.lt_iff_toInt_lt,remaining]
  omega

theorem next_i (more : channel.going nun) : (channel.i + 1).toInt = channel.i.toInt + 1 := by
  rw [going,Int32.lt_iff_toInt_lt] at more
  have low := channel.i.le_toInt
  have high := nun.toInt_lt
  rw [Words.toInt_add_exact,Int32.toInt_one] <;> rw [Int32.toInt_one] <;> omega

theorem step_nil (channel : Channel) (picked : Option (List UInt8)) (empty : channel.channel_music_infos_ = []) :
    step w user channel picked = some { channel with i := channel.i + 1 } := by rw [step,empty]

variable (w user) in
/-- Past the first song, whose id is settled. -/
def pass (channel : Channel) (songid : List UInt8) (mi : MusicInfo) (rest : List MusicInfo) : Channel :=
  if IsHateSong w user songid then { channel with channel_music_infos_ := rest }
  else channel.write { mi with id_ := songid } rest

theorem step_cons (channel : Channel) (picked : Option (List UInt8)) {mi : MusicInfo} {rest : List MusicInfo}
    (list : channel.channel_music_infos_ = mi::rest) :
    step w user channel picked = (GetSongidFromDoubanId w mi.id_).map fun songid =>
      if !IsHateSong w user songid && IsCollectSong w user songid then
        { channel with channel_music_infos_ := { mi with id_ := songid }::rest }
      else channel.pass w user songid mi rest := by
  rw [step,list]
  refine Option.map_congr fun songid _ => ?_
  rw [pass]
  cases IsHateSong w user songid <;> cases IsCollectSong w user songid <;> rfl

/-- The loop gets past the first song if its id settles. -/
theorem ends_of_lookups {n : Nat} {songid : List UInt8} {mi : MusicInfo} {rest : List MusicInfo}
    (found : Call.lookups w user n mi.id_ = some songid) (list : channel.channel_music_infos_ = mi::rest)
    (more : channel.going nun) (Q : List (List UInt8) → Prop)
    (passed : ∀ picks, ∃ final, Ends (going nun) (step w user) picks (channel.pass w user songid mi rest) final ∧ Q final.emitted) :
    ∃ final, Ends (going nun) (step w user) picks channel final ∧ Q final.emitted := by
  induction n generalizing channel mi picks with
  | zero => cases found
  | succ n ih =>
    rw [Call.lookups,Option.bind_eq_some_iff] at found
    obtain ⟨next,looked,found⟩ := found
    simp only [ends_next more,step_cons channel _ list,looked,Option.map_some,Option.some.injEq,exists_eq_left']
    by_cases again : (!IsHateSong w user next && IsCollectSong w user next) = true
    · simp only [if_pos again] at found ⊢
      exact ih found rfl more passed
    · simp only [if_neg again] at found ⊢
      cases found
      exact passed _

/-- It gets past the first song in no other way. -/
theorem settled_of_ends {n : Nat} {final : Channel} {mi : MusicInfo} {rest : List MusicInfo}
    (list : channel.channel_music_infos_ = mi::rest) (more : channel.going nun)
    (ran : rounds (going nun) (step w user) n picks channel = some final) (stopped : ¬final.going nun) :
    ∃ songid picks, Call.settled w user mi.id_ = some songid ∧
      Ends (going nun) (step w user) picks (channel.pass w user songid mi rest) final := by
  simp only [settled_iff]
  induction n generalizing channel mi picks with
  | zero =>
    cases ran
    exact absurd more stopped
  | succ n ih =>
    rw [rounds,if_pos more,step_cons channel _ list] at ran
    obtain ⟨_,stepped,ran⟩ := Option.bind_eq_some_iff.mp ran
    obtain ⟨next,looked,rfl⟩ := Option.map_eq_some_iff.mp stepped
    by_cases again : (!IsHateSong w user next && IsCollectSong w user next) = true
    · rw [if_pos again] at ran
      have still : going nun { channel with channel_music_infos_ := { mi with id_ := next }::rest } := more
      obtain ⟨songid,picks,⟨k,found⟩,ends⟩ := ih rfl still ran
      refine ⟨songid,picks,⟨k + 1,?_⟩,ends⟩
      rw [Call.lookups,looked,Option.bind_some,if_pos again]
      exact found
    · rw [if_neg again] at ran
      refine ⟨next,_,⟨1,?_⟩,n,ran,stopped⟩
      rw [Call.lookups,looked,Option.bind_some,if_neg again]

theorem ends_empty (empty : channel.channel_music_infos_ = []) (Q : List (List UInt8) → Prop) :
    (∃ final, Ends (going nun) (step w user) picks channel final ∧ Q final.emitted) ↔ Q channel.emitted := by
  induction left : channel.remaining nun generalizing channel picks with
  | zero =>
    have stopped : ¬channel.going nun := by
      rw [going_iff]
      omega
    simp only [ends_over stopped,exists_eq_left]
  | succ k ih =>
    have more : channel.going nun := by
      rw [going_iff]
      omega
    simp only [ends_next more,step_nil channel _ empty,Option.some.injEq,exists_eq_left']
    have after : remaining nun { channel with i := channel.i + 1 } = k := by
      rw [remaining,next_i more]
      rw [remaining] at left
      omega
    exact ih empty after

/-- The loop ends if the list is clear, and then has written the first of the songs that are not hated. -/
theorem ends_iff (Q : List (List UInt8) → Prop) :
    (∃ final, Ends (going nun) (step w user) picks channel final ∧ Q final.emitted) ↔
      Clear w user (channel.remaining nun) channel.channel_music_infos_ ∧
        Q (channel.emitted ++ (Call.liked w user channel.channel_music_infos_).take (channel.remaining nun)) := by
  induction list : channel.channel_music_infos_ generalizing channel picks with
  | nil =>
    rw [ends_empty list,Call.liked,List.filterMap_nil,List.take_nil,List.append_nil]
    exact (and_iff_right (clear_nil _)).symm
  | cons mi rest ih =>
    cases left : channel.remaining nun with
    | zero =>
      have stopped : ¬channel.going nun := by
        rw [going_iff]
        omega
      simp only [ends_over stopped,exists_eq_left,List.take_zero,List.append_nil]
      exact (and_iff_right (clear_zero _)).symm
    | succ k =>
      have more : channel.going nun := by
        rw [going_iff]
        omega
      have passed (songid : List UInt8) (found : Call.settled w user mi.id_ = some songid)
          (picks : Nat → Option (List UInt8)) :
          (∃ final, Ends (going nun) (step w user) picks (channel.pass w user songid mi rest) final ∧ Q final.emitted) ↔
            Clear w user (k + 1) (mi::rest) ∧ Q (channel.emitted ++ (Call.liked w user (mi::rest)).take (k + 1)) := by
        have settled : Call.settled w user mi.id_ ≠ none := by
          rw [found]
          exact Option.some_ne_none songid
        rw [clear_cons,and_iff_right settled,liked_cons found,liked_cons found,pass]
        by_cases hated : IsHateSong w user songid = true
        · rw [if_pos hated,if_pos hated,if_pos hated,ih rfl,← left]
          rfl
        · have after : (channel.write { mi with id_ := songid } rest).remaining nun = k := by
            rw [remaining,write,next_i more]
            rw [remaining] at left
            omega
          have listed : (channel.write { mi with id_ := songid } rest).channel_music_infos_ = rest := rfl
          have text : (channel.write { mi with id_ := songid } rest).emitted = channel.emitted ++ [songid] := rfl
          rw [if_neg hated,if_neg hated,if_neg hated,ih listed,after,text,List.take_succ_cons,List.append_assoc]
          rfl
      constructor
      · rintro ⟨final,⟨n,ran,stopped⟩,holds⟩
        obtain ⟨songid,picks,found,ends⟩ := settled_of_ends list more ran stopped
        exact (passed songid found picks).mp ⟨final,ends,holds⟩
      · intro good
        obtain ⟨songid,found⟩ := Option.ne_none_iff_exists'.mp good.1.first
        obtain ⟨n,looked⟩ := settled_iff.mp found
        exact ends_of_lookups looked list more Q fun picks => (passed songid found picks).mpr good

end Runs

section Whole
variable {codePointToUTF8 : Nat → List UInt8} {sscanf : List UInt8 → Option Float} {w : World} {user : List UInt8}
  {channel nun : Int32} {infos : List MusicInfo}

theorem emits_iff (cached : w.channel_cache_map_ channel = some infos) (picks : Nat → Option (List UInt8))
    (Q : List (List UInt8) → Prop) :
    (∃ n emitted, (Call.GetMusicCahnelTypeInfos channel nun).emits codePointToUTF8 sscanf w user n picks = some emitted ∧
      Q emitted) ↔
      ∃ final, Ends (going nun) (step w user) picks { channel_music_infos_ := infos } final ∧ Q final.emitted := by
  simp only [Call.emits,GetMusicCahnelTypeInfos,cached,Option.map_eq_some_iff,Option.bind_eq_some_iff]
  constructor
  · rintro ⟨n,_,⟨_,⟨final,ends,outcome⟩,rfl⟩,holds⟩
    split_ifs at outcome with more
    cases outcome
    exact ⟨final,⟨n,ends,more⟩,holds⟩
  · rintro ⟨final,⟨n,ends,stopped⟩,holds⟩
    exact ⟨n,_,⟨_,⟨final,ends,if_neg stopped⟩,rfl⟩,holds⟩

theorem GetMusicCahnelTypeInfos_right (cached : w.channel_cache_map_ channel = some infos) :
    (Call.GetMusicCahnelTypeInfos channel nun).Right codePointToUTF8 sscanf w user ↔
      (Call.GetMusicCahnelTypeInfos channel nun).Good codePointToUTF8 sscanf w user := by
  have listed : ((Call.liked w user infos).take nun.toInt.toNat).length ≤ nun.toInt.toNat ∧
      ∀ song_id ∈ (Call.liked w user infos).take nun.toInt.toNat, IsHateSong w user song_id = false := by
    refine ⟨List.length_take_le ..,fun song_id member => ?_⟩
    obtain ⟨mi,-,found⟩ := List.mem_filterMap.mp (List.mem_of_mem_take member)
    exact Bool.not_eq_eq_eq_not.mp (Option.filter_eq_some_iff.mp found).2
  have each (picks : Nat → Option (List UInt8)) :
      (∃ n emitted, (Call.GetMusicCahnelTypeInfos channel nun).emits codePointToUTF8 sscanf w user n picks = some emitted ∧
        Call.Fits w user nun.toInt emitted) ↔ _ :=
    (emits_iff cached picks (Call.Fits w user nun.toInt)).trans (ends_iff (Call.Fits w user nun.toInt))
  have all : remaining nun { channel_music_infos_ := infos } = nun.toInt.toNat := by
    rw [remaining,Int32.toInt_zero,Int.sub_zero]
  rw [all] at each
  obtain ⟨picks,fair⟩ := fair_exists ((Call.GetMusicCahnelTypeInfos channel nun).songs w)
  constructor
  · intro right infos' cached'
    cases cached.symm.trans cached'
    obtain ⟨clear,fits⟩ := (each picks).mp (right picks fair)
    exact ⟨clear,fits.once⟩
  · intro good picks _
    obtain ⟨clear,once⟩ := good infos cached
    exact (each picks).mpr ⟨clear,listed.1,listed.2,once⟩

end Whole
end Channel

section Claim
variable (codePointToUTF8 : Nat → List UInt8) (sscanf : List UInt8 → Option Float)

theorem Right_iff (w : World) (user : List UInt8) (call : Call) :
    call.Right codePointToUTF8 sscanf w user ↔ call.Good codePointToUTF8 sscanf w user := by
  have trivially (few : call.emits codePointToUTF8 sscanf w user 0 = fun _ => some []) :
      call.Right codePointToUTF8 sscanf w user :=
    fun picks _ => ⟨0,[],congrFun few picks,Nat.zero_le _,nofun,List.nodup_nil⟩
  cases call with
  | GetMoodSceneWordSong pack =>
    cases hasMode : pack (ascii "mode") with
    | none =>
      refine iff_of_true (trivially ?_) fun mode _ some_ => ?_
      · funext picks
        rw [Call.emits,GetMoodSceneWordSong,hasMode]
        rfl
      · cases hasMode.symm.trans some_
    | some mode =>
      cases hasWord : pack (ascii "wordid") with
      | none =>
        refine iff_of_true (trivially ?_) fun _ wordid _ some_ => ?_
        · funext picks
          rw [Call.emits,GetMoodSceneWordSong,hasMode,hasWord]
          rfl
        · cases hasWord.symm.trans some_
      | some wordid => exact Mood.GetMoodSceneWordSong_right hasMode hasWord
  | GetMusicCahnelTypeInfos channel nun =>
    cases cached : w.channel_cache_map_ channel with
    | none =>
      refine iff_of_true (trivially ?_) fun infos some_ => ?_
      · funext picks
        rw [Call.emits,GetMusicCahnelTypeInfos,cached]
        rfl
      · cases cached.symm.trans some_
    | some infos => exact Channel.GetMusicCahnelTypeInfos_right cached

end Claim

/-- One song is asked for, and none is stored. -/
theorem no_song_stored : ¬(Call.GetMoodSceneWordSong fun name => if name = ascii "num" then none else some (ascii "1")).Right
    (fun _ => []) (fun _ => none) ⟨fun _ => [],fun _ _ => false,fun _ => none,fun _ => some [],fun _ => none⟩ (ascii "7") := by
  have hasMode : (if ascii "mode" = ascii "num" then none else some (ascii "1")) = some (ascii "1") := by decide
  have hasWord : (if ascii "wordid" = ascii "num" then none else some (ascii "1")) = some (ascii "1") := by decide
  rw [Mood.GetMoodSceneWordSong_right hasMode hasWord]
  intro good
  obtain ⟨-,enough,-⟩ := good _ _ hasMode hasWord (by decide)
  exact absurd enough (by decide)

end Migfm.Music.SongLists
