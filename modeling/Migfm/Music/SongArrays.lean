import Migfm.Library.JsonText
import Migfm.Music.SongLists
import Migfm.Sociality.CurrentSong

/-! The song arrays that master/music/music_mgr_engine.cc and master/music/music_cache_mgr.cc write by hand. What the
servers hold and what is picked are parameters. -/
namespace Migfm.Music.SongArrays
open Library Library.JsonText Library.Fairness
open Public.Json (c_str readDocument)
open Logic (ascii decimal)
open Sociality.CurrentSong (isMember mget)
open SongLists (IsHateSong IsCollectSong GetMusicUrl GetMusicMapRadom)
open TypeSongs (Base64Decode SongMap random_key)

/-- A song that is written. -/
structure Song where
  smi : TypeSongs.MusicInfo
  music_time : Int32
  mode : List UInt8
  wordid : List UInt8
  is_like : Bool

namespace Song

def text (song : Song) : List UInt8 :=
  ascii "\x7b\"id\":\"" ++ c_str song.smi.id_ ++ ascii "\",\"title\":\"" ++ c_str (Base64Decode song.smi.titile_) ++
    ascii "\",\"artist\":\"" ++ c_str (Base64Decode song.smi.artist_) ++ ascii "\",\"url\":\"" ++ c_str song.smi.url_ ++
    ascii "\",\"hqurl\":\"" ++ c_str song.smi.hq_url_ ++ ascii "\",\"pub_time\":\"" ++ c_str song.smi.pub_time_ ++
    ascii "\",\"album\":\"" ++ c_str (Base64Decode song.smi.album_title_) ++ ascii "\",\"time\":\"" ++
    decimal song.music_time.toInt ++ ascii "\",\"pic\":\"" ++ c_str song.smi.pic_url_ ++ ascii "\",\"type\":\"" ++
    c_str song.mode ++ ascii "\",\"tid\":\"" ++ c_str song.wordid ++ ascii "\",\"clt\":\"" ++ c_str song.smi.clt_num ++
    ascii "\",\"cmt\":\"" ++ c_str song.smi.cmt_num ++ ascii "\",\"hot\":\"" ++ c_str song.smi.hot_num ++
    ascii "\",\"like\":\"" ++ ascii (if song.is_like then "1" else "0") ++ ascii "\"\x7d"

def fields (song : Song) : Fields :=
  [(ascii "id",c_str song.smi.id_),(ascii "title",c_str (Base64Decode song.smi.titile_)),
    (ascii "artist",c_str (Base64Decode song.smi.artist_)),(ascii "url",c_str song.smi.url_),
    (ascii "hqurl",c_str song.smi.hq_url_),(ascii "pub_time",c_str song.smi.pub_time_),
    (ascii "album",c_str (Base64Decode song.smi.album_title_)),(ascii "time",decimal song.music_time.toInt),
    (ascii "pic",c_str song.smi.pic_url_),(ascii "type",c_str song.mode),(ascii "tid",c_str song.wordid),
    (ascii "clt",c_str song.smi.clt_num),(ascii "cmt",c_str song.smi.cmt_num),(ascii "hot",c_str song.smi.hot_num),
    (ascii "like",ascii (if song.is_like then "1" else "0"))]

theorem text_eq (song : Song) : song.text = object song.fields := by
  unfold text object fields
  simp only [List.map_cons,List.map_nil,List.intercalate_cons_cons,List.intercalate_singleton,member,List.append_assoc,
    List.cons_append,List.nil_append]
  simp [ascii]

end Song

/-- Songs that are written one by one, each with a comma behind it or not. -/
def result (songs : List (Song × Bool)) : List UInt8 :=
  songs.flatMap fun song => song.1.text ++ ascii (if song.2 then "," else "")

/-! ### The counters -/

def temp_index (num hash_size : Int32) : Int32 := if hash_size < num then hash_size else num

/-- No outcome: the product overflows. -/
def GetTotalForNum (num n : Int32) : Option Int32 :=
  if -2147483648 ≤ num.toInt * n.toInt ∧ num.toInt * n.toInt < 2147483648 then some (num * n) else none

section Calls
variable (codePointToUTF8 : Nat → List UInt8) (sscanf : List UInt8 → Option Float) (w : SongLists.World)
  (servers : TypeSongs.World)

/-! ### GetMoodScensChannelSongs -/

/-- The value of a member, or zero where another is missing. -/
def GetNum (root : Public.Json.Value) (name value : String) : Option (List UInt8) :=
  (isMember (ascii name) root).bind fun found => if found then root.text (ascii value) else some (ascii "0")

/-- `hot_num`, `cmt_num` and `clt_num`, which are empty before. No outcome: an accessor throws. -/
def GetMusicHotCltCmt (songid : List UInt8) : Option (List UInt8 × List UInt8 × List UInt8) :=
  match w.GetValue (ascii "a" ++ c_str songid ++ ascii "t") with
  | none => some (ascii "0",ascii "0",ascii "0")
  | some content =>
    match readDocument codePointToUTF8 sscanf (c_str content) with
    | none => some ([],[],[])
    | some root => do
      let hot_num ← GetNum root "hot" "hot"
      let cmt_num ← GetNum root "cmt" "cmt"
      let clt_num ← GetNum root "clt" "typeid"
      return (hot_num,cmt_num,clt_num)

/-- No outcome: an accessor throws. Without a song, the lookup or the parser has failed. -/
def loaded (uid mode wordid songid : List UInt8) : Option (Option Song) :=
  match SongLists.musicInfo codePointToUTF8 sscanf w songid with
  | none => none
  | some none => some none
  | some (some music_info) =>
    let url := GetMusicUrl w music_info.id_ [] []
    (GetMusicHotCltCmt codePointToUTF8 sscanf w songid).map fun (hot_num,cmt_num,clt_num) => some {
      smi := { music_info with
        hq_url_ := url.1
        url_ := url.2
        clt_num_ := clt_num
        cmt_num_ := cmt_num
        hot_num_ := hot_num }
      music_time := 0
      mode := mode
      wordid := wordid
      is_like := IsCollectSong w uid songid }

/-- The loop, with one pick for each that `temp_total` leaves. -/
def songs (uid mode wordid : List UInt8) : List (Option (List UInt8)) → Int → List (List UInt8) → Option (List (Song × Bool))
  | [],_,_ => some []
  | picked::picks,temp_index,songid_map =>
    if temp_index ≤ 0 then some []
    else match picked with
      | none => songs uid mode wordid picks temp_index songid_map
      | some songid =>
        if IsHateSong w uid songid then songs uid mode wordid picks temp_index songid_map
        else if songid_map.contains songid then songs uid mode wordid picks temp_index songid_map
        else match loaded codePointToUTF8 sscanf w uid mode wordid songid with
          | none => none
          | some none => songs uid mode wordid picks temp_index (songid::songid_map)
          | some (some song) =>
            (songs uid mode wordid picks (temp_index - 1) (songid::songid_map)).map ((song,temp_index ≠ 1)::·)

variable (radom : Nat → Int32)

/-- What is picked while `temp_total` lasts. -/
def picks (mode wordid : List UInt8) (temp_total : Int32) : List (Option (List UInt8)) :=
  (List.range temp_total.toInt.toNat).map fun n => GetMusicMapRadom w (random_key mode wordid) (radom n)

/-- What is appended. -/
def GetMoodScensChannelSongs (uid mode : List UInt8) (num : Int32) (wordid : List UInt8) : Option (List UInt8) :=
  let hash_size := servers.GetHashSize (random_key mode wordid)
  if hash_size = 0 then some []
  else do
    let temp_total ← GetTotalForNum (temp_index num hash_size) 3
    let songs ← songs codePointToUTF8 sscanf w uid mode wordid (picks w radom mode wordid temp_total)
      (temp_index num hash_size).toInt []
    return result songs

/-! ### GetMoodScensChannelSongsV2 and GetMoodScensChannelSongsV3 -/

/-- The map of the picks, in the order of the ids. -/
def songid_map (uid : List UInt8) (picks : List (Option (List UInt8))) : List (List UInt8) :=
  picks.foldl (fun songid_map picked =>
    match picked with
    | none => songid_map
    | some songid =>
      if IsHateSong w uid songid then songid_map
      else if songid_map.contains songid then songid_map
      else Ordered.place (fun other => other < songid) songid songid_map) []

def GetMusicInfosV2 (songmap : List (List UInt8)) : List (List UInt8) :=
  if songmap.length = 0 then [] else servers.redisCommand (c_str (mget songmap))

/-- The songs of the second version. -/
def song_music_infos (uid mode : List UInt8) (num : Int32) (wordid : List UInt8) : Option (List TypeSongs.MusicInfo) :=
  let hash_size := servers.GetHashSize (random_key mode wordid)
  if hash_size = 0 then some []
  else do
    let temp_total ← GetTotalForNum (temp_index num hash_size) 3
    let songinfolist := GetMusicInfosV2 servers (songid_map w uid (picks w radom mode wordid temp_total))
    let infos ← TypeSongs.ChangeMusicInfos codePointToUTF8 sscanf [] songinfolist
    TypeSongs.GetMusicOtherInfos servers infos

/-- The songs of the map. `music_num` counts those that are left, and what the memory holds is their time. -/
def write (music_time : List UInt8 → Int32) (mode wordid : List UInt8) (clt_song_map hate_song_map : SongMap) :
    Int → List TypeSongs.MusicInfo → List (Song × Bool)
  | _,[] => []
  | music_num,smi::infos =>
    let music_num := music_num - 1
    if smi.hq_url_ = [] then write music_time mode wordid clt_song_map hate_song_map music_num infos
    else if (hate_song_map smi.id_).isSome then write music_time mode wordid clt_song_map hate_song_map music_num infos
    else
      ({ smi := smi
         music_time := music_time smi.id_
         mode := mode
         wordid := wordid
         is_like := (clt_song_map smi.id_).isSome },music_num ≠ 0)::
        write music_time mode wordid clt_song_map hate_song_map music_num infos

/-- No outcome: there are more songs than an int counts. -/
def append (music_time : List UInt8 → Int32) (mode wordid : List UInt8) (clt_song_map hate_song_map : SongMap)
    (song_music_infos : List TypeSongs.MusicInfo) : Option (List UInt8) :=
  if 2147483648 ≤ song_music_infos.length then none
  else some (result (write music_time mode wordid clt_song_map hate_song_map song_music_infos.length song_music_infos))

variable (music_time : List UInt8 → Int32)

def GetMoodScensChannelSongsV2 (uid mode : List UInt8) (num : Int32) (wordid : List UInt8) (song_map : SongMap) :
    Option (List UInt8) :=
  (song_music_infos codePointToUTF8 sscanf w servers radom uid mode num wordid).bind
    (append music_time mode wordid song_map fun _ => none)

/-- How many are picked is left to `GetTypeRamdon`. -/
def GetMoodScensChannelSongsV3 (mode wordid : List UInt8) (clt_song_map hate_song_map : SongMap) : Option (List UInt8) :=
  (TypeSongs.song_music_infos codePointToUTF8 sscanf servers mode wordid).bind
    (append music_time mode wordid clt_song_map hate_song_map)

/-! ### What is promised -/

/-- The songs that can be written, in the order of their first picks. -/
def usable (uid mode wordid : List UInt8) (picks : List (Option (List UInt8))) : List Song :=
  (picks.reduceOption.filter fun songid => !IsHateSong w uid songid).eraseDups.filterMap fun songid =>
    (loaded codePointToUTF8 sscanf w uid mode wordid songid).join

def shown (hate_song_map : SongMap) (smi : TypeSongs.MusicInfo) : Bool := smi.hq_url_ ≠ [] && (hate_song_map smi.id_).isNone

def shownSongs (mode wordid : List UInt8) (clt_song_map hate_song_map : SongMap) (infos : List TypeSongs.MusicInfo) : List Song :=
  (infos.filter (shown hate_song_map)).map fun smi =>
    { smi := smi
      music_time := music_time smi.id_
      mode := mode
      wordid := wordid
      is_like := (clt_song_map smi.id_).isSome }

/-- The songs of a channel's list that are not hated, with the ids that they end up with. -/
noncomputable def liked (uid : List UInt8) (infos : List SongLists.MusicInfo) : List SongLists.MusicInfo := infos.filterMap fun mi =>
  ((SongLists.Call.settled w uid mi.id_).filter fun songid => !IsHateSong w uid songid).map fun songid => { mi with id_ := songid }

def channelFields (mi : SongLists.MusicInfo) : Fields :=
  [(ascii "id",c_str mi.id_),(ascii "title",c_str mi.titile_),(ascii "artist",c_str mi.artist_),
    (ascii "pub_time",c_str mi.pub_time_),(ascii "album",c_str mi.album_title_),(ascii "hq_url",c_str mi.hq_url_),
    (ascii "url",c_str mi.url_),(ascii "pic",c_str mi.pic_url_),(ascii "time",decimal mi.music_time_.toInt),
    (ascii "0",ascii "0")]

inductive Call
  | GetMoodScensChannelSongs (uid mode : List UInt8) (num : Int32) (wordid : List UInt8)
  | GetMoodScensChannelSongsV2 (uid mode : List UInt8) (num : Int32) (wordid : List UInt8) (song_map : SongMap)
  | GetMoodScensChannelSongsV3 (mode wordid : List UInt8) (clt_song_map hate_song_map : SongMap)
  | GetMusicCahnelTypeInfos (channel : Int32) (uid : List UInt8) (nun : Int32)

namespace Call

/-- What is appended. No outcome: something throws or overflows, or the loop over a channel has not ended in so many rounds. -/
def text (n : Nat) : Call → Option (List UInt8)
  | .GetMoodScensChannelSongs uid mode num wordid =>
    SongArrays.GetMoodScensChannelSongs codePointToUTF8 sscanf w servers radom uid mode num wordid
  | .GetMoodScensChannelSongsV2 uid mode num wordid song_map =>
    SongArrays.GetMoodScensChannelSongsV2 codePointToUTF8 sscanf w servers radom music_time uid mode num wordid song_map
  | .GetMoodScensChannelSongsV3 mode wordid clt_song_map hate_song_map =>
    SongArrays.GetMoodScensChannelSongsV3 codePointToUTF8 sscanf servers music_time mode wordid clt_song_map hate_song_map
  | .GetMusicCahnelTypeInfos channel uid nun =>
    (SongLists.GetMusicCahnelTypeInfos w channel uid nun n fun _ => none).map SongLists.Listing.os

/-- The songs that are kept. -/
noncomputable def kept : Call → List Fields
  | .GetMoodScensChannelSongs uid mode num wordid =>
    let hash_size := servers.GetHashSize (random_key mode wordid)
    if hash_size = 0 then []
    else
      let temp_total := (GetTotalForNum (temp_index num hash_size) 3).getD 0
      ((usable codePointToUTF8 sscanf w uid mode wordid (picks w radom mode wordid temp_total)).take
        (temp_index num hash_size).toInt.toNat).map Song.fields
  | .GetMoodScensChannelSongsV2 uid mode num wordid song_map =>
    let infos := (song_music_infos codePointToUTF8 sscanf w servers radom uid mode num wordid).getD []
    (shownSongs music_time mode wordid song_map (fun _ => none) infos).map Song.fields
  | .GetMoodScensChannelSongsV3 mode wordid clt_song_map hate_song_map =>
    let infos := (TypeSongs.song_music_infos codePointToUTF8 sscanf servers mode wordid).getD []
    (shownSongs music_time mode wordid clt_song_map hate_song_map infos).map Song.fields
  | .GetMusicCahnelTypeInfos channel uid nun =>
    ((liked w uid ((w.channel_cache_map_ channel).getD [])).take nun.toInt.toNat).map channelFields

/-- No song is shown, or the last one is. -/
def Last (hate_song_map : SongMap) (infos : List TypeSongs.MusicInfo) : Prop :=
  (∀ smi ∈ infos, shown hate_song_map smi = false) ∨ ∃ last ∈ infos.getLast?, shown hate_song_map last

/-- The picks yield no song or as many as are asked for; no loaded song is shown or the last one is; a channel
gives one song at most. -/
def Commas : Call → Prop
  | .GetMoodScensChannelSongs uid mode num wordid =>
    let hash_size := servers.GetHashSize (random_key mode wordid)
    ∀ temp_total, hash_size ≠ 0 → GetTotalForNum (temp_index num hash_size) 3 = some temp_total →
      let songs := usable codePointToUTF8 sscanf w uid mode wordid (picks w radom mode wordid temp_total)
      songs = [] ∨ (temp_index num hash_size).toInt ≤ songs.length
  | .GetMoodScensChannelSongsV2 uid mode num wordid _ =>
    ∀ infos, song_music_infos codePointToUTF8 sscanf w servers radom uid mode num wordid = some infos → Last (fun _ => none) infos
  | .GetMoodScensChannelSongsV3 mode wordid _ hate_song_map =>
    ∀ infos, TypeSongs.song_music_infos codePointToUTF8 sscanf servers mode wordid = some infos → Last hate_song_map infos
  | .GetMusicCahnelTypeInfos channel uid nun =>
    ∀ infos, w.channel_cache_map_ channel = some infos → ((liked w uid infos).take nun.toInt.toNat).length ≤ 1

end Call
end Calls

/-! ### The picked songs -/

section Picked
variable {codePointToUTF8 : Nat → List UInt8} {sscanf : List UInt8 → Option Float} {w : SongLists.World}
  {uid mode wordid : List UInt8}

theorem result_eq (songs : List (Song × Bool)) : result songs = written (songs.map fun song => (song.1.fields,song.2)) := by
  have comma (flag : Bool) : ascii (if flag then "," else "") = if flag then [44] else [] := by
    cases flag <;> rfl
  simp only [result,written,List.flatMap_map,Song.text_eq,comma]

/-- The picks behind a song that has been tried. -/
theorem fresh_cons (songid : List UInt8) (songid_map ids : List (List UInt8)) :
    (ids.filter fun other => !songid_map.contains other).filter (fun other => !other == songid) =
      ids.filter fun other => !(songid::songid_map).contains other := by
  rw [List.filter_filter]
  congr 1
  funext other
  rw [List.contains_cons,Bool.not_or]

theorem songs_spec {picks : List (Option (List UInt8))} {temp_index : Int} {songid_map : List (List UInt8)}
    {pieces : List (Song × Bool)}
    (ran : songs codePointToUTF8 sscanf w uid mode wordid picks temp_index songid_map = some pieces) :
    pieces.map Prod.fst = ((((picks.reduceOption.filter fun songid => !IsHateSong w uid songid).filter fun songid =>
        !songid_map.contains songid).eraseDups.filterMap fun songid =>
        (loaded codePointToUTF8 sscanf w uid mode wordid songid).join).take temp_index.toNat) ∧
      (Separated (pieces.map Prod.snd) ↔ pieces = [] ∨ (pieces.length : Int) = temp_index) := by
  induction picks generalizing temp_index songid_map pieces with
  | nil =>
    cases ran
    exact ⟨by simp,iff_of_true trivial (.inl rfl)⟩
  | cons picked picks ih =>
    by_cases ended : temp_index ≤ 0
    · have none_ : pieces = [] := by
        cases picked with
        | none =>
          rw [songs,if_pos ended] at ran
          exact (Option.some.inj ran).symm
        | some songid =>
          rw [songs,if_pos ended] at ran
          exact (Option.some.inj ran).symm
      rw [none_,Int.toNat_of_nonpos ended,List.take_zero]
      exact ⟨rfl,iff_of_true trivial (.inl rfl)⟩
    cases picked with
    | none =>
      rw [songs,if_neg ended] at ran
      rw [List.reduceOption_cons_of_none]
      exact ih ran
    | some songid =>
      rw [songs,if_neg ended] at ran
      rw [List.reduceOption_cons_of_some]
      by_cases hated : IsHateSong w uid songid = true
      · rw [if_pos hated] at ran
        rw [List.filter_cons_of_neg (by simp [hated])]
        exact ih ran
      rw [if_neg hated] at ran
      rw [List.filter_cons_of_pos (by simp [hated])]
      by_cases tried : songid_map.contains songid = true
      · rw [if_pos tried] at ran
        rw [List.filter_cons_of_neg (by simpa using tried)]
        exact ih ran
      rw [if_neg tried] at ran
      rw [List.filter_cons_of_pos (by simpa using tried),List.eraseDups_cons,fresh_cons]
      cases load : loaded codePointToUTF8 sscanf w uid mode wordid songid with
      | none =>
        rw [load] at ran
        cases ran
      | some song =>
        rw [load] at ran
        cases song with
        | none =>
          rw [List.filterMap_cons_none (by rw [load]; rfl)]
          exact ih ran
        | some song =>
          rw [List.filterMap_cons_some (by rw [load]; rfl)]
          obtain ⟨rest,later,rfl⟩ := Option.map_eq_some_iff.mp ran
          obtain ⟨kept,separated⟩ := ih later
          have more : temp_index.toNat = (temp_index - 1).toNat + 1 := by omega
          rw [List.map_cons,List.map_cons,kept,more,List.take_succ_cons,separated_cons,separated]
          refine ⟨rfl,?_⟩
          cases rest with
          | nil =>
            simp
            exact eq_comm
          | cons next rest =>
            simp
            omega

/-- The usable songs up to the number asked for, with a comma behind each but the last just when there are none or
enough of them. -/
theorem songs_usable {picks : List (Option (List UInt8))} {temp_index : Int} {pieces : List (Song × Bool)}
    (ran : songs codePointToUTF8 sscanf w uid mode wordid picks temp_index [] = some pieces) :
    pieces.map Prod.fst = (usable codePointToUTF8 sscanf w uid mode wordid picks).take temp_index.toNat ∧
      (Separated (pieces.map Prod.snd) ↔ usable codePointToUTF8 sscanf w uid mode wordid picks = [] ∨
        temp_index ≤ (usable codePointToUTF8 sscanf w uid mode wordid picks).length) := by
  obtain ⟨first,separated⟩ := songs_spec ran
  have all (ids : List (List UInt8)) : (ids.filter fun songid => !List.contains [] songid) = ids := by simp
  rw [all,← usable] at first
  refine ⟨first,?_⟩
  have number := congrArg List.length first
  rw [List.length_map,List.length_take] at number
  rw [separated,← List.length_eq_zero_iff,← List.length_eq_zero_iff]
  omega

/-- What is written of one song each. -/
theorem objects_result (songs : List (Song × Bool)) :
    Objects ((songs.map Prod.fst).map Song.fields) (result songs) ↔
      Separated (songs.map Prod.snd) ∧ ∀ fields ∈ (songs.map Prod.fst).map Song.fields, Bodies fields := by
  have all := written_objects_iff (songs.map fun song => (song.1.fields,song.2))
  simp only [List.map_map,Function.comp_def] at all ⊢
  rw [result_eq]
  exact all

end Picked

/-! ### The loaded songs -/

section Loaded
variable {music_time : List UInt8 → Int32} {mode wordid : List UInt8} {clt_song_map hate_song_map : SongMap}

theorem write_hidden {smi : TypeSongs.MusicInfo} (hidden : shown hate_song_map smi = false) (music_num : Int)
    (infos : List TypeSongs.MusicInfo) :
    write music_time mode wordid clt_song_map hate_song_map music_num (smi::infos) =
      write music_time mode wordid clt_song_map hate_song_map (music_num - 1) infos := by
  rw [write]
  by_cases empty : smi.hq_url_ = []
  · rw [if_pos empty]
  · rw [if_neg empty]
    cases hated : hate_song_map smi.id_ with
    | none =>
      rw [shown,hated] at hidden
      simp [empty] at hidden
    | some info => rw [Option.isSome_some,if_pos rfl]

theorem write_shown {smi : TypeSongs.MusicInfo} (kept : shown hate_song_map smi = true) (music_num : Int)
    (infos : List TypeSongs.MusicInfo) :
    write music_time mode wordid clt_song_map hate_song_map music_num (smi::infos) =
      (⟨smi,music_time smi.id_,mode,wordid,(clt_song_map smi.id_).isSome⟩,decide (music_num - 1 ≠ 0))::
        write music_time mode wordid clt_song_map hate_song_map (music_num - 1) infos := by
  rw [shown,Bool.and_eq_true,decide_eq_true_iff,Option.isNone_iff_eq_none] at kept
  rw [write,if_neg kept.1,kept.2,Option.isSome_none,if_neg Bool.false_ne_true]

theorem last_cons {smi next : TypeSongs.MusicInfo} (infos : List TypeSongs.MusicInfo) :
    (∃ last ∈ (smi::next::infos).getLast?, shown hate_song_map last) ↔
      ∃ last ∈ (next::infos).getLast?, shown hate_song_map last := by
  rw [List.getLast?_cons_cons]

variable (music_time mode wordid clt_song_map hate_song_map) in
/-- One song for each that is shown, and a comma behind each but the last just when the last loaded one is shown. -/
theorem write_spec (infos : List TypeSongs.MusicInfo) :
    (write music_time mode wordid clt_song_map hate_song_map infos.length infos).map Prod.fst =
        shownSongs music_time mode wordid clt_song_map hate_song_map infos ∧
      (Separated ((write music_time mode wordid clt_song_map hate_song_map infos.length infos).map Prod.snd) ↔
        Call.Last hate_song_map infos) := by
  induction infos with
  | nil => exact ⟨rfl,iff_of_true trivial (.inl fun smi member => absurd member List.not_mem_nil)⟩
  | cons smi infos ih =>
    obtain ⟨same,separated⟩ := ih
    have left : ((smi::infos).length : Int) - 1 = infos.length := by
      rw [List.length_cons]
      omega
    cases kept : shown hate_song_map smi with
    | false =>
      rw [write_hidden kept,left,same,separated,shownSongs,shownSongs,List.filter_cons_of_neg (by rw [kept]; exact Bool.false_ne_true)]
      refine ⟨rfl,?_⟩
      rw [Call.Last,Call.Last,List.forall_mem_cons,and_iff_right kept]
      cases infos with
      | nil => simp
      | cons next infos => rw [last_cons]
    | true =>
      have hidden : (write music_time mode wordid clt_song_map hate_song_map infos.length infos).map Prod.snd = [] ↔
          ∀ smi ∈ infos, shown hate_song_map smi = false := by
        have empty := congrArg (· = []) same
        simp only [shownSongs,List.map_eq_nil_iff,List.filter_eq_nil_iff,Bool.not_eq_true] at empty ⊢
        rw [empty]
      rw [write_shown kept,left,List.map_cons,List.map_cons,separated_cons,separated,same,shownSongs,shownSongs,
        List.filter_cons_of_pos kept]
      refine ⟨rfl,?_⟩
      rw [Call.Last,Call.Last,List.forall_mem_cons,kept,decide_eq_true_iff,ne_eq _ [],hidden]
      cases infos with
      | nil => simp [kept]
      | cons next infos =>
        have among : (∃ last ∈ (next::infos).getLast?, shown hate_song_map last) →
            ¬∀ smi ∈ next::infos, shown hate_song_map smi = false := by
          intro ⟨last,found,seen⟩ all
          rw [all last (List.mem_of_getLast? found)] at seen
          exact Bool.noConfusion seen
        rw [last_cons]
        simp only [List.length_cons,Nat.cast_add,Nat.cast_one]
        grind

end Loaded

/-! ### The songs of a channel -/

section Channel
open SongLists.Channel (going step remaining)
variable {w : SongLists.World} {uid : List UInt8} {nun : Int32} {channel final : SongLists.Channel} {picks : Nat → Option (List UInt8)}

/-- A comma behind each but the first, and behind that one if there is one already. -/
def behind (comma : Bool) : List SongLists.MusicInfo → List (Fields × Bool)
  | [] => []
  | mi::infos => (channelFields mi,comma)::behind true infos

theorem behind_fst (comma : Bool) (infos : List SongLists.MusicInfo) :
    (behind comma infos).map Prod.fst = infos.map channelFields := by
  induction infos generalizing comma with
  | nil => rfl
  | cons mi infos ih => rw [behind,List.map_cons,List.map_cons,ih]

theorem behind_separated (infos : List SongLists.MusicInfo) :
    Separated ((behind false infos).map Prod.snd) ↔ infos.length ≤ 1 := by
  cases infos with
  | nil => exact iff_of_true trivial (Nat.zero_le 1)
  | cons mi infos =>
    rw [behind,List.map_cons,separated_cons]
    cases infos with
    | nil => simp [behind,Separated]
    | cons next infos => simp [behind]

theorem write_os (channel : SongLists.Channel) (mi : SongLists.MusicInfo) (rest : List SongLists.MusicInfo) :
    (channel.write mi rest).os = channel.os ++ written [(channelFields mi,decide (channel.i ≠ 0))] := by
  have comma : ascii (if channel.i = 0 then "" else ",") = if decide (channel.i ≠ 0) then [44] else [] := by
    by_cases first : channel.i = 0
    · rw [if_pos first,if_neg (by simp [first])]
      rfl
    · rw [if_neg first,if_pos (by simp [first])]
      rfl
  unfold SongLists.Channel.write
  simp only [comma,written,List.flatMap_singleton]
  unfold object channelFields
  simp only [List.map_cons,List.map_nil,List.intercalate_cons_cons,List.intercalate_singleton,member,List.append_assoc,
    List.cons_append,List.nil_append]
  simp [ascii]

theorem liked_cons {mi : SongLists.MusicInfo} {songid : List UInt8} (found : SongLists.Call.settled w uid mi.id_ = some songid)
    (rest : List SongLists.MusicInfo) : liked w uid (mi::rest) =
      if IsHateSong w uid songid then liked w uid rest else { mi with id_ := songid }::liked w uid rest := by
  rw [liked,List.filterMap_cons,found,Option.filter_some]
  by_cases hated : IsHateSong w uid songid = true
  · rw [if_pos hated,hated]
    rfl
  · rw [if_neg hated,Bool.eq_false_iff.mpr hated]
    rfl

theorem os_of_empty (empty : channel.channel_music_infos_ = []) (ends : Ends (going nun) (step w uid) picks channel final) :
    final.os = channel.os := by
  refine (ends.keeps (fun state => state.channel_music_infos_ = [] ∧ state.os = channel.os) (fun _ => True) (fun _ => trivial)
    ?_ ⟨empty,rfl⟩).2
  intro state next picked ⟨none_,same⟩ _ _ stepped
  rw [SongLists.Channel.step_nil state picked none_] at stepped
  cases stepped
  exact ⟨none_,same⟩

/-- What the loop has written when it has ended. -/
theorem os_of_ends (nonneg : 0 ≤ channel.i.toInt) (ends : Ends (going nun) (step w uid) picks channel final) :
    final.os = channel.os ++ written (behind (channel.i ≠ 0) ((liked w uid channel.channel_music_infos_).take (channel.remaining nun))) := by
  induction list : channel.channel_music_infos_ generalizing channel picks with
  | nil =>
    rw [os_of_empty list ends,liked,List.filterMap_nil,List.take_nil]
    exact (List.append_nil _).symm
  | cons mi rest ih =>
    cases left : channel.remaining nun with
    | zero =>
      have stopped : ¬channel.going nun := by
        rw [SongLists.Channel.going_iff]
        omega
      rw [(ends_over stopped).mp ends,List.take_zero]
      exact (List.append_nil _).symm
    | succ k =>
      have more : channel.going nun := by
        rw [SongLists.Channel.going_iff]
        omega
      obtain ⟨n,ran,stopped⟩ := ends
      obtain ⟨songid,picks,found,ends⟩ := SongLists.Channel.settled_of_ends list more ran stopped
      rw [liked_cons found]
      rw [SongLists.Channel.pass] at ends
      by_cases hated : IsHateSong w uid songid = true
      · rw [if_pos hated] at ends ⊢
        have listed : ({ channel with channel_music_infos_ := rest } : SongLists.Channel).channel_music_infos_ = rest := rfl
        rw [← left]
        exact @ih { channel with channel_music_infos_ := rest } picks nonneg ends listed
      · rw [if_neg hated] at ends ⊢
        have next := SongLists.Channel.next_i more
        have after : (channel.write { mi with id_ := songid } rest).remaining nun = k := by
          rw [remaining,SongLists.Channel.write,next]
          rw [remaining] at left
          omega
        have counted : (channel.write { mi with id_ := songid } rest).i.toInt = channel.i.toInt + 1 := next
        have positive : (channel.write { mi with id_ := songid } rest).i ≠ 0 := by
          intro zero
          rw [zero,Int32.toInt_zero] at counted
          omega
        rw [ih (by omega) ends rfl,after,write_os,List.take_succ_cons,behind,decide_eq_true positive,written_cons _ (behind _ _),
          List.append_assoc]

theorem channel_iff {infos : List SongLists.MusicInfo}
    (ends : Ends (going nun) (step w uid) picks { channel_music_infos_ := infos } final) :
    Objects (((liked w uid infos).take nun.toInt.toNat).map channelFields) final.os ↔
      ((liked w uid infos).take nun.toInt.toNat).length ≤ 1 ∧
        ∀ fields ∈ ((liked w uid infos).take nun.toInt.toNat).map channelFields, Bodies fields := by
  have start : 0 ≤ ({ channel_music_infos_ := infos } : SongLists.Channel).i.toInt := Int.le_refl 0
  have asked : remaining nun { channel_music_infos_ := infos } = nun.toInt.toNat := by
    rw [remaining,Int32.toInt_zero,Int.sub_zero]
  have texts := written_objects_iff (behind false ((liked w uid infos).take nun.toInt.toNat))
  rw [behind_fst,behind_separated] at texts
  rw [os_of_ends start ends,asked]
  exact texts

end Channel

section Claim
variable {codePointToUTF8 : Nat → List UInt8} {sscanf : List UInt8 → Option Float} {w : SongLists.World}
  {servers : TypeSongs.World} {radom : Nat → Int32} {music_time : List UInt8 → Int32}

theorem append_iff {mode wordid : List UInt8} {clt_song_map hate_song_map : SongMap} {infos : List TypeSongs.MusicInfo}
    {text : List UInt8} (appended : append music_time mode wordid clt_song_map hate_song_map infos = some text) :
    Objects ((shownSongs music_time mode wordid clt_song_map hate_song_map infos).map Song.fields) text ↔
      Call.Last hate_song_map infos ∧
        ∀ fields ∈ (shownSongs music_time mode wordid clt_song_map hate_song_map infos).map Song.fields, Bodies fields := by
  rw [append] at appended
  split at appended
  · cases appended
  · cases appended
    obtain ⟨same,separated⟩ := write_spec music_time mode wordid clt_song_map hate_song_map infos
    rw [← separated,← same]
    exact objects_result _

theorem Call.well_formed_iff (call : Call) (n : Nat) {text : List UInt8}
    (ran : call.text codePointToUTF8 sscanf w servers radom music_time n = some text) :
    Objects (call.kept codePointToUTF8 sscanf w servers radom music_time) text ↔
      call.Commas codePointToUTF8 sscanf w servers radom ∧
        ∀ fields ∈ call.kept codePointToUTF8 sscanf w servers radom music_time, Bodies fields := by
  cases call with
  | GetMoodScensChannelSongs uid mode num wordid =>
    rw [Call.text,SongArrays.GetMoodScensChannelSongs] at ran
    rw [Call.kept,Call.Commas]
    by_cases none_ : servers.GetHashSize (random_key mode wordid) = 0
    · simp only [if_pos none_] at ran ⊢
      cases ran
      refine iff_of_true ⟨[],.nil,rfl⟩ ⟨fun _ some_ => absurd none_ some_,fun fields member => absurd member List.not_mem_nil⟩
    · simp only [if_neg none_] at ran ⊢
      obtain ⟨temp_total,known,ran⟩ := Option.bind_eq_some_iff.mp ran
      obtain ⟨pieces,looped,same⟩ := Option.bind_eq_some_iff.mp ran
      cases same
      obtain ⟨first,separated⟩ := songs_usable looped
      simp only [known,Option.getD_some,Option.some.injEq,forall_eq',ne_eq,none_,not_false_eq_true,forall_const]
      rw [← first,objects_result,separated]
  | GetMoodScensChannelSongsV2 uid mode num wordid song_map =>
    obtain ⟨infos,known,appended⟩ := Option.bind_eq_some_iff.mp ran
    simp only [Call.kept,Call.Commas,known,Option.getD_some,Option.some.injEq,forall_eq']
    exact append_iff appended
  | GetMoodScensChannelSongsV3 mode wordid clt_song_map hate_song_map =>
    obtain ⟨infos,known,appended⟩ := Option.bind_eq_some_iff.mp ran
    simp only [Call.kept,Call.Commas,known,Option.getD_some,Option.some.injEq,forall_eq']
    exact append_iff appended
  | GetMusicCahnelTypeInfos channel uid nun =>
    obtain ⟨listing,ran,same⟩ := Option.map_eq_some_iff.mp ran
    rw [Call.kept,Call.Commas]
    rw [SongLists.GetMusicCahnelTypeInfos] at ran
    cases cached : w.channel_cache_map_ channel with
    | none =>
      rw [cached] at ran
      cases ran
      cases same
      rw [Option.getD_none,liked,List.filterMap_nil,List.take_nil]
      refine iff_of_true ⟨[],.nil,rfl⟩ ⟨fun infos some_ => ?_,fun fields member => absurd member List.not_mem_nil⟩
      cases some_
    | some infos =>
      rw [cached] at ran
      obtain ⟨final,looped,ended⟩ := Option.bind_eq_some_iff.mp ran
      split at ended
      · cases ended
      · rename_i stopped
        cases ended
        cases same
        simp only [Option.getD_some,Option.some.injEq,forall_eq']
        exact channel_iff ⟨n,looped,stopped⟩

end Claim

/-- Every song of the channel has the same id. -/
def one_id (infos : List SongLists.MusicInfo) : SongLists.World :=
  ⟨fun _ => [],fun _ _ => false,fun _ => none,fun _ => some [fun _ => some (ascii "5")],fun _ => some infos⟩

theorem one_id_settled (infos : List SongLists.MusicInfo) (id : List UInt8) :
    SongLists.Call.settled (one_id infos) (ascii "7") id = some (ascii "5") := by
  rw [SongLists.Channel.settled_iff]
  exact ⟨1,rfl⟩

theorem one_id_liked (infos rest : List SongLists.MusicInfo) :
    liked (one_id infos) (ascii "7") rest = rest.map fun mi => { mi with id_ := ascii "5" } := by
  induction rest with
  | nil => rfl
  | cons mi rest ih =>
    have spared : IsHateSong (one_id infos) (ascii "7") (ascii "5") = false := rfl
    rw [liked_cons (one_id_settled infos mi.id_),spared,if_neg Bool.false_ne_true,ih,List.map_cons]

def no_servers : TypeSongs.World := ⟨fun _ => [],fun _ => 0,fun _ => [],fun _ => [],fun _ _ => none⟩

/-- Of two songs of a channel no comma stands behind the first, and one behind the last. -/
theorem two_songs_run_together : ∃ text, (Call.GetMusicCahnelTypeInfos 1 (ascii "7") 2).text (fun _ => []) (fun _ => none)
    (one_id [{},{}]) no_servers (fun _ => 0) (fun _ => 0) 2 = some text ∧
      ¬Objects ((Call.GetMusicCahnelTypeInfos 1 (ascii "7") 2).kept (fun _ => []) (fun _ => none)
        (one_id [{},{}]) no_servers (fun _ => 0) (fun _ => 0)) text := by
  refine ⟨_,rfl,fun objects => ?_⟩
  have ends : Ends (SongLists.Channel.going 2) (SongLists.Channel.step (one_id [{},{}]) (ascii "7")) (fun _ => none)
      { channel_music_infos_ := [{},{}] } _ := ⟨2,rfl,by decide⟩
  have few := ((channel_iff ends).mp objects).1
  rw [one_id_liked] at few
  exact absurd few (by decide)

/-- One song is written without a comma. -/
theorem one_song_alone : Objects ((Call.GetMusicCahnelTypeInfos 1 (ascii "7") 2).kept (fun _ => []) (fun _ => none)
    (one_id [{}]) no_servers (fun _ => 0) (fun _ => 0)) (object (channelFields { id_ := ascii "5" })) := by
  rw [Call.well_formed_iff (.GetMusicCahnelTypeInfos 1 (ascii "7") 2) 2 (by decide)]
  constructor
  · intro infos cached
    cases cached
    rw [one_id_liked]
    decide
  · have kept : (Call.GetMusicCahnelTypeInfos 1 (ascii "7") 2).kept (fun _ => []) (fun _ => none) (one_id [{}]) no_servers
        (fun _ => 0) (fun _ => 0) = [channelFields { id_ := ascii "5" }] := by
      rw [Call.kept,one_id_liked]
      rfl
    have plain : ((channelFields { id_ := ascii "5" }).all fun field => unescaped field.1 && unescaped field.2) = true := by decide
    rw [kept,List.forall_mem_singleton]
    intro field member
    obtain ⟨name,value⟩ := Bool.and_eq_true_iff.mp (List.all_eq_true.mp plain field member)
    exact ⟨body_of_unescaped name,body_of_unescaped value⟩

end Migfm.Music.SongArrays
