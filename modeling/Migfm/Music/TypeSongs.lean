import Migfm.Library.Ordered
import Migfm.Logic.Infos
import Migfm.Public.BasicInfo

/-! The songs of a mood, a scene and a channel in master/music/music_mgr_engine.cc, and the collect
and hate hashes of the user who asks for them. The servers answer. -/
namespace Migfm.Music.TypeSongs
open Library.Ordered Public Public.Json
open Logic (ascii decimal atoll)

/-- The columns of a row; without a text it is NULL. -/
abbrev MYSQL_ROW := Nat → Option (List UInt8)

/-- What the servers hold and what is picked. -/
structure World where
  /-- The values of a hash, as C strings. -/
  GetHashValues : List UInt8 → List (List UInt8)
  GetHashSize : List UInt8 → Int32
  /-- The strings in the answer to a command. -/
  redisCommand : List UInt8 → List (List UInt8)
  SQLExec : List UInt8 → List MYSQL_ROW
  /-- By mode and word. How many are picked is left to it. -/
  GetTypeRamdon : List UInt8 → List UInt8 → Option (List Int32)

/-! ### base64.cc -/

def base64_chars : List UInt8 := ascii "ABCDEFGHIJKLMNOPQRSTUVWXYZabcdefghijklmnopqrstuvwxyz0123456789+/"

/-- `npos` is cut to a byte. -/
def find (c : UInt8) : UInt8 := ((base64_chars.idxOf? c).map Nat.toUInt8).getD 255

def char_array_3 (first second third fourth : UInt8) : List UInt8 :=
  [(first <<< 2) + ((second &&& 0x30) >>> 4),((second &&& 0xf) <<< 4) + ((third &&& 0x3c) >>> 2),((third &&& 0x3) <<< 6) + fourth]

def decodeChars : List UInt8 → List UInt8
  | first::second::third::fourth::rest => char_array_3 (find first) (find second) (find third) (find fourth) ++ decodeChars rest
  -- what is missing is a zero, which is not found
  | [first,second,third] => (char_array_3 (find first) (find second) (find third) 255).take 2
  | [first,second] => (char_array_3 (find first) (find second) 255 255).take 1
  | _ => []

def Base64Decode (input : List UInt8) : List UInt8 := decodeChars (input.takeWhile (· ∈ base64_chars))

/-! ### basic_info.h -/

/-- The song's record; `music_time_` is never set. -/
structure MusicInfo extends Public.MusicInfo where
  url_ : List UInt8 := []
  clt_num_ : List UInt8 := []
  cmt_num_ : List UInt8 := []
  hot_num_ : List UInt8 := []

namespace MusicInfo
variable (m : MusicInfo)

def clt_num : List UInt8 := if m.clt_num_ = [] then ascii "0" else m.clt_num_
def cmt_num : List UInt8 := if m.cmt_num_ ≠ [] then ascii "0" else m.cmt_num_
def hot_num : List UInt8 := if m.hot_num_ ≠ [] then ascii "0" else m.hot_num_

end MusicInfo

/-- A song of the reply. -/
structure Info where
  id : List UInt8
  title : List UInt8
  artist : List UInt8
  url : List UInt8
  hqurl : List UInt8
  pub_time : List UInt8
  album : List UInt8
  pic : List UInt8
  type : List UInt8
  tid : List UInt8
  clt : List UInt8
  cmt : List UInt8
  hot : List UInt8
  like : Int

/-- The reply before it is written. -/
structure Reply where
  song : List Info
  msg : String
  status : Int

abbrev SongMap := List UInt8 → Option MusicCltHateInfo

section Reading
variable (codePointToUTF8 : Nat → List UInt8) (sscanf : List UInt8 → Option Float)

/-- No outcome: an accessor throws. A text that is not parsed leaves the record as it is. -/
def unserialized {α : Type} (UnserializedJson : Nat → List UInt8 → Option α) (record : α) (str : List UInt8) : Option α :=
  match readDocument codePointToUTF8 sscanf (c_str str) with
  | none => some record
  | some _ => UnserializedJson (2 * (c_str str).length + 2) str

/-! ### dic_comm.cc -/

def clt (uid : List UInt8) : List UInt8 := ascii "h" ++ c_str uid ++ ascii "clt"
def ht (uid : List UInt8) : List UInt8 := ascii "h" ++ c_str uid ++ ascii "ht"

def load (song_map : SongMap) : List (List UInt8) → Option SongMap
  | [] => some song_map
  | content::song_list => do
    let mcltinfo ← unserialized codePointToUTF8 sscanf (MusicCltHateInfo.UnserializedJson codePointToUTF8 sscanf) {} content
    load (Function.update song_map mcltinfo.songid_ (some mcltinfo)) song_list

/-- `clt_song_map` and `hate_song_map`, both empty before. The values of either hash go to the first. -/
def GetCltAndHateSong (w : World) (uid : List UInt8) : Option (SongMap × SongMap) := do
  let clt_song_map ← load codePointToUTF8 sscanf (fun _ => none) (w.GetHashValues (clt uid))
  let clt_song_map ← load codePointToUTF8 sscanf clt_song_map (w.GetHashValues (ht uid))
  return (clt_song_map,fun _ => none)

def GetMusicInfosV3 (w : World) (type : List UInt8) (random_list : List Int32) : List (List UInt8) :=
  if random_list = [] then []
  else
    let temp_list := w.redisCommand (c_str (ascii "hmget " ++ type ++ random_list.flatMap fun num => 32::decimal num.toInt))
    if temp_list = [] then []
    else w.redisCommand (c_str (ascii "mget" ++ (temp_list.flatMap fun songid => 32::songid) ++ ascii " 699212 699213 699214 699215"))

/-! ### db_comm.cc -/

def SetOtherInfos (song_music_infos : List MusicInfo) (rows : MYSQL_ROW) : Option (List MusicInfo) := do
  let songdid ← rows 1
  let hifi_url ← rows 2
  let clt_num ← rows 4
  let cmt_num ← rows 5
  let hot_num ← rows 6
  return song_music_infos.map fun info =>
    if info.id_ = songdid then {info with hq_url_ := hifi_url, url_ := hifi_url, clt_num_ := clt_num, cmt_num_ := cmt_num, hot_num_ := hot_num}
    else info

def GetMusicOtherInfos (w : World) (song_music_infos : List MusicInfo) : Option (List MusicInfo) :=
  if song_music_infos = [] then some []
  else
    let ids := (song_music_infos.map (·.id_)).intersperse (ascii ",")
    (w.SQLExec (c_str (ascii "call proc_GetMusicInfo('" ++ ids.flatten ++ ascii "');"))).foldlM SetOtherInfos song_music_infos

/-! ### music_mgr_engine.cc -/

/-- The map in the order of the ids. -/
def assign (music_infos : List MusicInfo) (music_info : MusicInfo) : List MusicInfo :=
  place (fun other => other.id_ < music_info.id_) music_info (music_infos.filter fun other => other.id_ ≠ music_info.id_)

def ChangeMusicInfos (music_infos : List MusicInfo) : List (List UInt8) → Option (List MusicInfo)
  | [] => some music_infos
  | info::songinfolist => do
    let music_info ← unserialized codePointToUTF8 sscanf (MusicInfo.UnserializedJson codePointToUTF8 sscanf) {} info
    ChangeMusicInfos (assign music_infos {music_info with}) songinfolist

def random_key (mode wordid : List UInt8) : List UInt8 := c_str mode ++ ascii "_r" ++ c_str wordid

/-- The map of the songs that are picked, if any are. -/
def song_music_infos (w : World) (mode wordid : List UInt8) : Option (List MusicInfo) :=
  if w.GetHashSize (random_key mode wordid) = 0 then some []
  else match w.GetTypeRamdon mode wordid with
    | none => some []
    | some random_list => do
      let infos ← ChangeMusicInfos codePointToUTF8 sscanf [] (GetMusicInfosV3 w (random_key mode wordid) random_list)
      GetMusicOtherInfos w infos

def toInfo (mode wordid : List UInt8) (clt_song_map hate_song_map : SongMap) (smi : MusicInfo) : Option Info :=
  if smi.hq_url_ = [] then none
  else if (hate_song_map smi.id_).isSome then none
  else
    let is_like := if (clt_song_map smi.id_).isSome then 1 else 0
    some {
      id := smi.id_
      title := Base64Decode smi.titile_
      artist := Base64Decode smi.artist_
      url := smi.url_
      hqurl := smi.hq_url_
      pub_time := smi.pub_time_
      album := c_str (Base64Decode smi.album_title_)
      pic := smi.pic_url_
      type := mode
      tid := wordid
      clt := smi.clt_num
      cmt := smi.cmt_num
      hot := smi.hot_num
      like := is_like }

def GetMoodScensChannelSongsV4 (w : World) (mode wordid : List UInt8) (clt_song_map hate_song_map : SongMap) : Option (List Info) := do
  let infos ← song_music_infos codePointToUTF8 sscanf w mode wordid
  return infos.filterMap (toInfo mode wordid clt_song_map hate_song_map)

abbrev HttpPacket := List UInt8 → Option (List UInt8)

/-- The word to ask for, unless the index is negative. -/
def wordid (pack : HttpPacket) (index id index_msg id_msg : String) : Except String (Option (List UInt8)) :=
  match pack (ascii index), pack (ascii id) with
  | none, _ => .error index_msg
  | some index, none => if index = ascii "-1" then .ok none else .error id_msg
  | some index, some id => .ok (if (atoll (c_str index)).toInt32 < 0 then none else some id)

/-- The user, and the modes with their words. -/
def request (pack : HttpPacket) : Except String (List UInt8 × List (List UInt8 × List UInt8)) :=
  match pack (ascii "uid") with
  | none => .error "请求中未包含用户信息"
  | some uid => do
    let mood ← wordid pack "moodindex" "moodid" "请求中未包含心情顺序" "请求中未包含心情序号"
    let scene ← wordid pack "sceneindex" "sceneid" "请求中未包含场景顺序" "请求中未包含场景序号"
    let channel ← wordid pack "typeindex" "typeid" "请求中未包含频道顺序" "请求中未包含频道序号"
    return (uid,(channel.map (ascii "chl",·)).toList ++ (mood.map (ascii "mm",·)).toList ++ (scene.map (ascii "ms",·)).toList)

def GetTypeSongs (w : World) (pack : HttpPacket) : Option Reply :=
  match request pack with
  | .error msg => some ⟨[],msg,0⟩
  | .ok (uid,asked) => do
    let (clt_song_map,hate_song_map) ← GetCltAndHateSong codePointToUTF8 sscanf w uid
    let songs ← asked.mapM fun (mode,wordid) => GetMoodScensChannelSongsV4 codePointToUTF8 sscanf w mode wordid clt_song_map hate_song_map
    return ⟨songs.flatten,"0",1⟩

end Reading

/-! ### What is promised -/

section Promised
variable (codePointToUTF8 : Nat → List UInt8) (sscanf : List UInt8 → Option Float)

/-- A value of the hash has the song id. -/
def Listed (w : World) (hash id : List UInt8) : Prop := ∃ content ∈ w.GetHashValues hash, ∃ mcltinfo,
  MusicCltHateInfo.UnserializedJson codePointToUTF8 sscanf (2 * (c_str content).length + 2) content = some mcltinfo ∧ mcltinfo.songid_ = id

/-- A value of the hash is no document. -/
def Unread (w : World) (hash : List UInt8) : Prop :=
  ∃ content ∈ w.GetHashValues hash, readDocument codePointToUTF8 sscanf (c_str content) = none

/-- No hated song, and `like` tells the collected ones. -/
def Right (w : World) (pack : HttpPacket) (reply : Reply) : Prop := ∀ uid, pack (ascii "uid") = some uid → ∀ song ∈ reply.song,
  ¬Listed codePointToUTF8 sscanf w (ht uid) song.id ∧ (song.like = 1 ↔ Listed codePointToUTF8 sscanf w (clt uid) song.id)

/-- The song may be offered: it is not hated, and where it has no id, no value of either hash is
unread, unless a collected song has none either. -/
def Offered (w : World) (uid id : List UInt8) : Prop :=
  ¬Listed codePointToUTF8 sscanf w (ht uid) id ∧
    (id = [] → (Unread codePointToUTF8 sscanf w (clt uid) ∨ Unread codePointToUTF8 sscanf w (ht uid)) →
      Listed codePointToUTF8 sscanf w (clt uid) id)

/-- So may all songs that are picked for a mode that is asked for and have an address. -/
def Fits (w : World) (pack : HttpPacket) : Prop := ∀ uid asked, request pack = .ok (uid,asked) → ∀ mode ∈ asked,
  ∀ infos, song_music_infos codePointToUTF8 sscanf w mode.1 mode.2 = some infos → ∀ smi ∈ infos, smi.hq_url_ ≠ [] →
    Offered codePointToUTF8 sscanf w uid smi.id_

end Promised

/-! ### The maps -/

section Maps
variable {codePointToUTF8 : Nat → List UInt8} {sscanf : List UInt8 → Option Float} {w : World}

theorem unserialized_iff {α : Type} {UnserializedJson : Nat → List UInt8 → Option α} {record : α} {str : List UInt8}
    (unread : readDocument codePointToUTF8 sscanf (c_str str) = none → UnserializedJson (2 * (c_str str).length + 2) str = none) (out : α) :
    unserialized codePointToUTF8 sscanf UnserializedJson record str = some out ↔
      (readDocument codePointToUTF8 sscanf (c_str str) = none ∧ out = record) ∨ UnserializedJson (2 * (c_str str).length + 2) str = some out := by
  rw [unserialized]
  cases document : readDocument codePointToUTF8 sscanf (c_str str) with
  | some root => simp
  | none =>
    rw [unread document]
    simp [eq_comm]

theorem mcltinfo_iff (content : List UInt8) (mcltinfo : MusicCltHateInfo) :
    unserialized codePointToUTF8 sscanf (MusicCltHateInfo.UnserializedJson codePointToUTF8 sscanf) {} content = some mcltinfo ↔
      (readDocument codePointToUTF8 sscanf (c_str content) = none ∧ mcltinfo = {}) ∨
        MusicCltHateInfo.UnserializedJson codePointToUTF8 sscanf (2 * (c_str content).length + 2) content = some mcltinfo := by
  apply unserialized_iff
  intro document
  rw [readDocument] at document
  rw [MusicCltHateInfo.UnserializedJson,document]
  rfl

theorem music_info_of_read {info : List UInt8} {music_info : Public.MusicInfo}
    (read : Public.MusicInfo.UnserializedJson codePointToUTF8 sscanf (2 * (c_str info).length + 2) info = some music_info) :
    unserialized codePointToUTF8 sscanf (Public.MusicInfo.UnserializedJson codePointToUTF8 sscanf) {} info = some music_info := by
  rw [unserialized_iff]
  · exact .inr read
  · intro document
    rw [readDocument] at document
    rw [Public.MusicInfo.UnserializedJson,document]
    rfl

theorem load_isSome {values : List (List UInt8)} {song_map out : SongMap} (loaded : load codePointToUTF8 sscanf song_map values = some out)
    (id : List UInt8) : (out id).isSome ↔ (song_map id).isSome ∨ ∃ content ∈ values, ∃ mcltinfo,
      unserialized codePointToUTF8 sscanf (MusicCltHateInfo.UnserializedJson codePointToUTF8 sscanf) {} content = some mcltinfo ∧
        mcltinfo.songid_ = id := by
  induction values generalizing song_map with
  | nil =>
    rw [load] at loaded
    cases loaded
    simp
  | cons content values ih =>
    rw [load,Option.bind_eq_bind,Option.bind_eq_some_iff] at loaded
    obtain ⟨mcltinfo,read,loaded⟩ := loaded
    rw [ih loaded,List.exists_mem_cons_iff,read]
    by_cases same : id = mcltinfo.songid_
    · subst same
      simp
    · rw [Function.update_of_ne same]
      have other : mcltinfo.songid_ ≠ id := Ne.symm same
      simp [other]

/-- A hash gives the ids of its values, and the empty one where a value is no document. -/
theorem hash_isSome {hash : List UInt8} (id : List UInt8) :
    (∃ content ∈ w.GetHashValues hash, ∃ mcltinfo,
      unserialized codePointToUTF8 sscanf (MusicCltHateInfo.UnserializedJson codePointToUTF8 sscanf) {} content = some mcltinfo ∧
        mcltinfo.songid_ = id) ↔
      (id = [] ∧ Unread codePointToUTF8 sscanf w hash) ∨ Listed codePointToUTF8 sscanf w hash id := by
  simp only [mcltinfo_iff,Listed,Unread]
  constructor
  · rintro ⟨content,listed,mcltinfo,⟨unread,rfl⟩ | read,rfl⟩
    · exact .inl ⟨rfl,content,listed,unread⟩
    · exact .inr ⟨content,listed,mcltinfo,read,rfl⟩
  · rintro (⟨rfl,content,listed,unread⟩ | ⟨content,listed,mcltinfo,read,rfl⟩)
    · exact ⟨content,listed,{},.inl ⟨unread,rfl⟩,rfl⟩
    · exact ⟨content,listed,mcltinfo,.inr read,rfl⟩

/-- Nothing is in the second map, and in the first is what either hash gives. -/
theorem loaded_maps {uid : List UInt8} {clt_song_map hate_song_map : SongMap}
    (loaded : GetCltAndHateSong codePointToUTF8 sscanf w uid = some (clt_song_map,hate_song_map)) (id : List UInt8) :
    hate_song_map id = none ∧ ((clt_song_map id).isSome ↔
      ((id = [] ∧ Unread codePointToUTF8 sscanf w (clt uid)) ∨ Listed codePointToUTF8 sscanf w (clt uid) id) ∨
        ((id = [] ∧ Unread codePointToUTF8 sscanf w (ht uid)) ∨ Listed codePointToUTF8 sscanf w (ht uid) id)) := by
  simp only [GetCltAndHateSong,Option.bind_eq_bind,Option.bind_eq_some_iff,Option.pure_def,Option.some.injEq,Prod.mk.injEq] at loaded
  obtain ⟨first,collected,second,hated,rfl,rfl⟩ := loaded
  have before : (first id).isSome ↔ _ := load_isSome collected id
  refine ⟨rfl,?_⟩
  rw [load_isSome hated id,before,hash_isSome,hash_isSome]
  simp

/-- `like` is right on a song that is not hated just when it may be offered. -/
theorem offered_like {uid id : List UInt8} {clt_song_map hate_song_map : SongMap}
    (loaded : GetCltAndHateSong codePointToUTF8 sscanf w uid = some (clt_song_map,hate_song_map)) :
    (¬Listed codePointToUTF8 sscanf w (ht uid) id ∧
      ((if (clt_song_map id).isSome then (1 : Int) else 0) = 1 ↔ Listed codePointToUTF8 sscanf w (clt uid) id)) ↔
      Offered codePointToUTF8 sscanf w uid id := by
  have known := (loaded_maps loaded id).2
  have like : (if (clt_song_map id).isSome then (1 : Int) else 0) = 1 ↔ (clt_song_map id).isSome := by
    split <;> simp [*]
  rw [Offered,like,known]
  by_cases hated : Listed codePointToUTF8 sscanf w (ht uid) id
  · simp [hated]
  · by_cases collected : Listed codePointToUTF8 sscanf w (clt uid) id
    · simp [hated,collected]
    · by_cases empty : id = []
      · subst empty
        simp [hated,collected]
      · simp [hated,collected,empty]

end Maps

/-! ### The songs -/

section Songs
variable {codePointToUTF8 : Nat → List UInt8} {sscanf : List UInt8 → Option Float} {w : World}

theorem toInfo_shown (mode wordid : List UInt8) (clt_song_map : SongMap) {hate_song_map : SongMap} {smi : MusicInfo}
    (absent : hate_song_map smi.id_ = none) (address : smi.hq_url_ ≠ []) :
    ∃ song, toInfo mode wordid clt_song_map hate_song_map smi = some song ∧ song.id = smi.id_ ∧
      song.like = if (clt_song_map smi.id_).isSome then 1 else 0 := by
  rw [toInfo,if_neg address,absent,if_neg (by simp)]
  exact ⟨_,rfl,rfl,rfl⟩

theorem songs_of_mode {mode wordid : List UInt8} {clt_song_map hate_song_map : SongMap} (empty : ∀ id, hate_song_map id = none)
    {songs : List Info}
    (answered : GetMoodScensChannelSongsV4 codePointToUTF8 sscanf w mode wordid clt_song_map hate_song_map = some songs)
    (Good : List UInt8 → Int → Prop) :
    (∀ song ∈ songs, Good song.id song.like) ↔ ∀ infos, song_music_infos codePointToUTF8 sscanf w mode wordid = some infos →
      ∀ smi ∈ infos, smi.hq_url_ ≠ [] → Good smi.id_ (if (clt_song_map smi.id_).isSome then 1 else 0) := by
  simp only [GetMoodScensChannelSongsV4,Option.bind_eq_bind,Option.bind_eq_some_iff,Option.pure_def,Option.some.injEq] at answered
  obtain ⟨infos,picked,rfl⟩ := answered
  rw [picked]
  simp only [Option.some.injEq,forall_eq',List.mem_filterMap,forall_exists_index,and_imp]
  constructor
  · intro good smi listed address
    obtain ⟨song,shown,id,like⟩ := toInfo_shown mode wordid clt_song_map (empty smi.id_) address
    rw [← like,← id]
    exact good song smi listed shown
  · intro good song smi listed shown
    have address : smi.hq_url_ ≠ [] := by
      intro none_
      rw [toInfo,if_pos none_] at shown
      cases shown
    obtain ⟨same,known,id,like⟩ := toInfo_shown mode wordid clt_song_map (empty smi.id_) address
    cases shown.symm.trans known
    rw [id,like]
    exact good smi listed address

theorem forall_mapM {α : Type} {f : α → Option (List Info)} {asked : List α} {songs : List (List Info)} (answered : asked.mapM f = some songs)
    {Good : Info → Prop} {Fine : α → Prop}
    (each : ∀ mode ∈ asked, ∀ out, f mode = some out → ((∀ song ∈ out, Good song) ↔ Fine mode)) :
    (∀ song ∈ songs.flatten, Good song) ↔ ∀ mode ∈ asked, Fine mode := by
  induction asked generalizing songs with
  | nil =>
    cases answered
    simp
  | cons mode asked ih =>
    simp only [List.mapM_cons,Option.bind_eq_bind,Option.bind_eq_some_iff,Option.pure_def,Option.some.injEq] at answered
    obtain ⟨first,one,rest,others,rfl⟩ := answered
    obtain ⟨here,each⟩ := List.forall_mem_cons.mp each
    rw [List.flatten_cons,List.forall_mem_append,List.forall_mem_cons,here first one,ih others each]

theorem ok_of_bind {α β : Type} {first : Except String α} {next : α → Except String β} {result : β} (ok : (first >>= next) = .ok result) :
    ∃ value, first = .ok value ∧ next value = .ok result := by
  cases first with
  | error msg => cases ok
  | ok value => exact ⟨value,rfl,ok⟩

theorem request_uid {pack : HttpPacket} {uid : List UInt8} {asked : List (List UInt8 × List UInt8)}
    (parameters : request pack = .ok (uid,asked)) : pack (ascii "uid") = some uid := by
  rw [request] at parameters
  split at parameters
  · cases parameters
  · rename_i known
    obtain ⟨mood,-,parameters⟩ := ok_of_bind parameters
    obtain ⟨scene,-,parameters⟩ := ok_of_bind parameters
    obtain ⟨channel,-,parameters⟩ := ok_of_bind parameters
    cases parameters
    exact known

theorem right_iff_fits {pack : HttpPacket} {reply : Reply} (answered : GetTypeSongs codePointToUTF8 sscanf w pack = some reply) :
    Right codePointToUTF8 sscanf w pack reply ↔ Fits codePointToUTF8 sscanf w pack := by
  rw [GetTypeSongs] at answered
  cases parameters : request pack with
  | error msg =>
    rw [parameters] at answered
    cases answered
    simp [Right,Fits,parameters]
  | ok asks =>
    obtain ⟨uid,asked⟩ := asks
    have user := request_uid parameters
    rw [parameters] at answered
    simp only [Option.bind_eq_bind,Option.bind_eq_some_iff,Option.pure_def,Option.some.injEq] at answered
    obtain ⟨⟨clt_song_map,hate_song_map⟩,loaded,songs,each,rfl⟩ := answered
    simp only [Right,Fits,user,parameters,Option.some.injEq,forall_eq',Except.ok.injEq,Prod.mk.injEq,and_imp,forall_apply_eq_imp_iff]
    apply forall_mapM each
    intro mode listed out shown
    rw [songs_of_mode (fun id => (loaded_maps loaded id).1) shown fun id like =>
      ¬Listed codePointToUTF8 sscanf w (ht uid) id ∧ (like = 1 ↔ Listed codePointToUTF8 sscanf w (clt uid) id)]
    simp only [offered_like loaded]

/-- Just the songs that may be offered are offered right. -/
theorem offered_iff {pack : HttpPacket} {reply : Reply} (answered : GetTypeSongs codePointToUTF8 sscanf w pack = some reply) :
    Right codePointToUTF8 sscanf w pack reply ↔ Fits codePointToUTF8 sscanf w pack :=
  right_iff_fits answered

end Songs

/-! ### One song -/

def song : Public.MusicInfo := { id_ := ascii "7" }

def rows : MYSQL_ROW := fun column => if column = 2 then some (ascii "a.mp3") else some (ascii "7")

/-- The song is picked for any word; the values are those of the hash of hated songs. -/
def world (hated : List (List UInt8)) : World where
  GetHashValues hash := if hash = ht (ascii "1") then hated else []
  GetHashSize _ := 1
  redisCommand _ := [song.SerializedJson]
  SQLExec _ := [rows]
  GetTypeRamdon _ _ := some [1]

def pack : HttpPacket := fun name => List.lookup name [(ascii "uid",ascii "1"),(ascii "moodindex",ascii "1"),(ascii "moodid",ascii "3"),
  (ascii "sceneindex",ascii "-1"),(ascii "typeindex",ascii "-1")]

def found : MusicInfo := { id_ := ascii "7", hq_url_ := ascii "a.mp3", url_ := ascii "a.mp3", clt_num_ := ascii "7", cmt_num_ := ascii "7", hot_num_ := ascii "7" }

theorem request_pack : request pack = .ok (ascii "1",[(ascii "mm",ascii "3")]) := by decide

theorem hated_values (hated : List (List UInt8)) : (world hated).GetHashValues (ht (ascii "1")) = hated := by
  simp [world]

theorem song_picked (hated : List (List UInt8)) :
    song_music_infos Logic.WriteUTF8 (fun _ => none) (world hated) (ascii "mm") (ascii "3") = some [found] := by
  have clean : ∀ value ∈ song.values, Clean value := by
    have each : song.values.all fun value => value.all fun c => c ≠ 34 ∧ c ≠ 92 ∧ c ≠ 0 := rfl
    exact fun value listed => Clean.of_all (List.all_eq_true.mp each value listed)
  have whole : c_str song.SerializedJson = song.SerializedJson := by decide
  have kept : song.Kept Logic.WriteUTF8 (fun _ => none) (2 * (c_str song.SerializedJson).length + 2) := by
    rw [whole]
    exact (Public.MusicInfo.kept_clean length_WriteUTF8 song le_rfl).mpr ⟨clean,rfl⟩
  have changed : ChangeMusicInfos Logic.WriteUTF8 (fun _ => none) [] [song.SerializedJson] = some [{song with}] := by
    rw [ChangeMusicInfos,music_info_of_read kept]
    rfl
  have picked : GetMusicInfosV3 (world hated) (random_key (ascii "mm") (ascii "3")) [1] = [song.SerializedJson] := rfl
  have size : (world hated).GetHashSize (random_key (ascii "mm") (ascii "3")) ≠ 0 := by
    change (1 : Int32) ≠ 0
    decide
  have random_list : (world hated).GetTypeRamdon (ascii "mm") (ascii "3") = some [1] := rfl
  rw [song_music_infos,if_neg size,random_list]
  dsimp only
  rw [picked,changed]
  rfl

/-- The song is offered when the maps are loaded. -/
theorem song_offered (hated : List (List UInt8)) {clt_song_map hate_song_map : SongMap}
    (loaded : GetCltAndHateSong Logic.WriteUTF8 (fun _ => none) (world hated) (ascii "1") = some (clt_song_map,hate_song_map)) :
    ∃ reply, GetTypeSongs Logic.WriteUTF8 (fun _ => none) (world hated) pack = some reply := by
  rw [GetTypeSongs,request_pack]
  dsimp only
  rw [loaded,Option.bind_eq_bind,Option.bind_some,List.mapM_cons,GetMoodScensChannelSongsV4,song_picked]
  exact ⟨_,rfl⟩

theorem song_right : ∃ reply, GetTypeSongs Logic.WriteUTF8 (fun _ => none) (world []) pack = some reply ∧
    Right Logic.WriteUTF8 (fun _ => none) (world []) pack reply := by
  obtain ⟨reply,answered⟩ := song_offered [] rfl
  refine ⟨reply,answered,(offered_iff answered).mpr ?_⟩
  intro uid asked parameters mode listed infos picked smi within address
  rw [request_pack] at parameters
  cases parameters
  rw [List.mem_singleton.mp listed,song_picked] at picked
  cases picked
  rw [List.mem_singleton.mp within]
  constructor
  · rintro ⟨content,inside,_⟩
    rw [hated_values] at inside
    cases inside
  · intro empty
    cases empty

theorem not_offered : ¬∀ (w : World) (pack : HttpPacket) (reply : Reply), GetTypeSongs Logic.WriteUTF8 (fun _ => none) w pack = some reply →
    Right Logic.WriteUTF8 (fun _ => none) w pack reply := by
  intro right
  let hated : MusicCltHateInfo := { songid_ := ascii "7" }
  have clean : ∀ value ∈ hated.values, Clean value := by
    have each : hated.values.all fun value => value.all fun c => c ≠ 34 ∧ c ≠ 92 ∧ c ≠ 0 := rfl
    exact fun value listed => Clean.of_all (List.all_eq_true.mp each value listed)
  have whole : c_str hated.SerializedJson = hated.SerializedJson := by decide
  have kept : hated.Kept Logic.WriteUTF8 (fun _ => none) (2 * (c_str hated.SerializedJson).length + 2) := by
    rw [whole]
    exact (MusicCltHateInfo.kept_clean length_WriteUTF8 hated le_rfl).mpr clean
  have read := (mcltinfo_iff hated.SerializedJson hated).mpr (.inr kept)
  have loaded : GetCltAndHateSong Logic.WriteUTF8 (fun _ => none) (world [hated.SerializedJson]) (ascii "1") =
      some (Function.update (fun _ => none) (ascii "7") (some hated),fun _ => none) := by
    have other : clt (ascii "1") ≠ ht (ascii "1") := by decide
    have collected : (world [hated.SerializedJson]).GetHashValues (clt (ascii "1")) = [] := by simp [world,other]
    rw [GetCltAndHateSong,collected,hated_values]
    simp only [load,read,Option.bind_eq_bind,Option.bind_some]
    rfl
  obtain ⟨reply,answered⟩ := song_offered [hated.SerializedJson] loaded
  have fits := (right_iff_fits answered).mp (right _ pack reply answered)
  have offered := fits _ _ request_pack _ List.mem_cons_self _ (song_picked _) found List.mem_cons_self (by decide)
  apply offered.1
  rw [Listed,hated_values]
  exact ⟨hated.SerializedJson,List.mem_cons_self,hated,kept,rfl⟩

end Migfm.Music.TypeSongs
