import Migfm.Master.UtilMgr
import Migfm.Public.BasicInfo
import Migfm.Sociality.CurrentSong
import Migfm.Storage.Readers

/-! The songs that robots add, in master/robot: `add_music.fcgi` stores them, `getvailedurlmusic.fcgi` lists them, and
master/music reads their records. The database answers anything. -/
namespace Migfm.Master.NewMusic
open Public.Json
open Logic (ascii decimal atoll)
open Music.TypeSongs (Base64Decode)
open Master.UtilMgr (reply reply_read prints_strings)
open Storage (Redis)

/-- The arguments of `MusicMgr::AddNewMusic`. -/
structure Song where
  id : Int64
  name : List UInt8
  album : List UInt8
  artist : List UInt8
  pubtime : List UInt8
  pic : List UInt8
  url : List UInt8

/-- The first column of the rows that `SQLExec` and `FetchRows` give. -/
abbrev Database := List UInt8 → Option (List (List UInt8))

/-- The content of an `add_music.fcgi`, and the database as it is for each of its songs. -/
structure Request where
  content : List UInt8
  engine : Nat → Database

/-- A double that does not fit into `Int` is converted to anything. -/
def asInt64 : Value → Option Int64
  | .null => some 0
  | .int value => some value
  | .uint value => if value ≤ 0x7fffffffffffffff then some value.toInt64 else none
  | .real value => if -2147483649 < value ∧ value < 2147483648 then some value.toInt32.toInt64 else none
  | .boolean value => some (if value then 1 else 0)
  | _ => none

/-! ### Storing -/

/-- No song: an accessor throws. -/
def readSong (item : Value) : Option Song := do
  let id ← (item.member (ascii "id")).bind asInt64
  let album ← item.text (ascii "album")
  let artist ← item.text (ascii "artist")
  let name ← item.text (ascii "name")
  let pubtime ← item.text (ascii "pubtime")
  let pic ← item.text (ascii "pic")
  let url ← item.text (ascii "url")
  return { id,name,album,artist,pubtime,pic,url }

def quoted (value : List UInt8) : List UInt8 := 39::(value ++ [39])

/-- The id that the database gives to the song, if it does. -/
def DBComm.AddMusicInfo (engine : Database) (song : Song) : Option (List UInt8) :=
  let sql := ascii "call proc_AddNewMusic(" ++ decimal song.id.toInt ++ 44::quoted song.name ++ 44::quoted song.album ++
    44::quoted song.artist ++ 44::quoted song.pubtime ++ 44::quoted song.pic ++ 44::quoted song.url ++ ascii ");"
  ((engine (c_str sql)).bind List.getLast?).map c_str

def result (songid album title pubtime artist pic : List UInt8) : Value := .object [
  (ascii "id",.string songid),
  (ascii "sid",.string (ascii "0")),
  (ascii "ssix",.string (ascii "0")),
  (ascii "album_title",.string album),
  (ascii "titile",.string title),
  (ascii "pubtime",.string pubtime),
  (ascii "artist",.string artist),
  (ascii "pic_url",.string pic)]

section Service
variable (tool : Tool)

def RedisComm.AddNewMusicInfo (redis : Redis) (songid album title pubtime artist pic : List UInt8) : Redis :=
  redis.RedisAddValue songid (FastWriter.write tool false (result songid album title pubtime artist pic))

def AddNewMusic (engine : Database) (redis : Redis) (song : Song) : Redis :=
  match DBComm.AddMusicInfo engine song with
  | none => redis
  | some songid => RedisComm.AddNewMusicInfo tool redis songid song.album song.name song.pubtime song.artist song.pic

/-- The loop from an index on. It ends where an accessor throws. -/
def addItems (engine : Nat → Database) (redis : Redis) : Nat → List Value → Redis
  | _,[] => redis
  | i,item::items =>
    match readSong item with
    | none => redis
    | some song => addItems engine (AddNewMusic tool (engine i) redis song) (i + 1) items

/-- Of a document that is no array, no item can be taken. -/
def AddNewMusicInfo (redis : Redis) (request : Request) : Redis :=
  match readDocument tool.codePointToUTF8 tool.sscanf request.content with
  | some (.array items) => addItems tool request.engine redis 0 items
  | _ => redis

/-! ### Listing -/

structure NewMusicInfo where
  id_ : Int64
  name_ : List UInt8
  singer_ : List UInt8

/-- No record: an accessor throws, or the text is not parsed and the id is not set. -/
def NewMusicInfo.UnserializedJson (str : List UInt8) : Option NewMusicInfo := do
  let root ← readDocument tool.codePointToUTF8 tool.sscanf (c_str str)
  let titile ← root.text (ascii "titile")
  let artist ← root.text (ascii "artist")
  let id ← root.text (ascii "id")
  return { id_ := atoll (c_str id),name_ := Base64Decode titile,singer_ := Base64Decode artist }

def RedisComm.GetBachMusicInfos (redis : Redis) (songid_list : List Int64) : List (List UInt8) :=
  let command := ascii "mget" ++ songid_list.flatMap fun songid => 32::decimal songid.toInt
  match Sociality.CurrentSong.redisCommand redis.strings command with
  | none => []
  | some items => items.reduceOption

def NewMusicInfo.info (musicinfo : NewMusicInfo) : Value := .object [
  (ascii "id",.int musicinfo.id_),
  (ascii "name",.string (c_str musicinfo.name_)),
  (ascii "singer",.string (c_str musicinfo.singer_))]

/-- What is appended to a null value. -/
def ChargeNewMusciJson (list : List NewMusicInfo) : Value :=
  if list = [] then .null else .array (list.map NewMusicInfo.info)

def GetBatchMusicInfo (redis : Redis) (songid_list : List Int64) : Option Value :=
  ((RedisComm.GetBachMusicInfos redis songid_list).mapM (NewMusicInfo.UnserializedJson tool)).map ChargeNewMusciJson

/-- Each row is put in front. -/
def DBComm.GetVailedUrlMusic (engine : Database) : Option (List Int64) :=
  match engine (ascii "call proc_GetMusicInfoByVailedUrl();") with
  | none => none
  | some rows => if rows = [] then none else some (rows.map fun row => atoll (c_str row)).reverse

/-- What is sent. -/
def GetUrlVailedMusic (engine : Database) (redis : Redis) : Option (List UInt8) :=
  match DBComm.GetVailedUrlMusic engine with
  | none => some (reply tool 0 "无新增歌曲".toUTF8.toList (.string (ascii "1")))
  | some songid_list => (GetBatchMusicInfo tool redis songid_list).map (reply tool 1 [])

end Service

/-! ### What is kept -/

/-- The songs that are stored, up to an item whose accessor throws, each under the id that the database gives it. -/
def stored (engine : Nat → Database) (i : Nat) (items : List Value) : List (List UInt8 × Song) :=
  (((items.map readSong).takeWhile Option.isSome).reduceOption.zipIdx i).filterMap fun song =>
    (DBComm.AddMusicInfo (engine song.2) song.1).map (·,song.1)

def Request.songs (tool : Tool) (request : Request) : List (List UInt8 × Song) :=
  match readDocument tool.codePointToUTF8 tool.sscanf request.content with
  | some (.array items) => stored request.engine 0 items
  | _ => []

/-- The song that was stored last under an id. -/
def known (tool : Tool) (requests : List Request) (songid : List UInt8) : Option Song :=
  (requests.flatMap (Request.songs tool)).reverse.lookup songid

/-- The records of the songs that were stored last. -/
def listed (tool : Tool) (requests : List Request) (songid_list : List Int64) : List NewMusicInfo :=
  songid_list.filterMap fun songid => (known tool requests (decimal songid.toInt)).map fun song =>
    ⟨songid,Base64Decode (c_str song.name),Base64Decode (c_str song.artist)⟩

section Keeping
variable (tool : Tool)

def put (redis : Redis) (entry : List UInt8 × Song) : Redis :=
  RedisComm.AddNewMusicInfo tool redis entry.1 entry.2.album entry.2.name entry.2.pubtime entry.2.artist entry.2.pic

/-- The text of a song under an id. -/
def text (songid : List UInt8) (song : Song) : List UInt8 :=
  FastWriter.write tool false (result songid song.album song.name song.pubtime song.artist song.pic)

theorem put_strings (redis : Redis) (entry : List UInt8 × Song) :
    (put tool redis entry).strings = Function.update redis.strings entry.1 (some (text tool entry.1 entry.2)) := rfl

theorem addItems_stored (engine : Nat → Database) (redis : Redis) (i : Nat) (items : List Value) :
    addItems tool engine redis i items = (stored engine i items).foldl (put tool) redis := by
  induction items generalizing i redis with
  | nil => rfl
  | cons item items ih =>
    rw [addItems,stored,List.map_cons]
    cases readSong item with
    | none => rfl
    | some song =>
      change addItems tool engine (AddNewMusic tool (engine i) redis song) (i + 1) items = _
      rw [List.takeWhile_cons_of_pos rfl,List.reduceOption_cons_of_some,List.zipIdx_cons,List.filterMap_cons,AddNewMusic]
      cases DBComm.AddMusicInfo (engine i) song with
      | none => exact ih redis (i + 1)
      | some songid => exact ih _ (i + 1)

theorem AddNewMusicInfo_songs (redis : Redis) (request : Request) :
    AddNewMusicInfo tool redis request = (request.songs tool).foldl (put tool) redis := by
  rw [AddNewMusicInfo,Request.songs]
  split
  · exact addItems_stored tool request.engine redis 0 _
  · rfl

theorem foldl_requests (redis : Redis) (requests : List Request) :
    requests.foldl (AddNewMusicInfo tool) redis = (requests.flatMap (Request.songs tool)).foldl (put tool) redis := by
  rw [List.foldl_flatMap]
  congr 1
  funext redis request
  exact AddNewMusicInfo_songs tool redis request

theorem foldl_put (redis : Redis) (entries : List (List UInt8 × Song)) (songid : List UInt8) :
    (entries.foldl (put tool) redis).strings songid =
      ((entries.reverse.lookup songid).map (text tool songid)).or (redis.strings songid) := by
  induction entries generalizing redis with
  | nil => rfl
  | cons entry entries ih =>
    rw [List.foldl_cons,ih,List.reverse_cons,List.lookup_append]
    cases later : entries.reverse.lookup songid with
    | some song => rfl
    | none =>
      rw [Option.map_none,Option.none_or,Option.none_or,List.lookup_cons,put_strings]
      by_cases same : songid = entry.1
      · subst same
        rw [Function.update_self,beq_self_eq_true]
        rfl
      · rw [Function.update_of_ne same,beq_eq_false_iff_ne.mpr same]
        rfl

/-- What redis holds after the requests. -/
theorem strings_requests (hashes : List UInt8 → List UInt8 → Option (List UInt8)) (requests : List Request) (songid : List UInt8) :
    (requests.foldl (AddNewMusicInfo tool) ⟨fun _ => none,hashes⟩).strings songid = (known tool requests songid).map (text tool songid) := by
  rw [foldl_requests,foldl_put,Option.or_none]
  rfl

end Keeping

/-! ### What is read -/

section Reading
variable {tool : Tool}

theorem result_nonzero (songid album title pubtime artist pic : List UInt8) :
    ∀ member ∈ [(ascii "id",Value.string songid),(ascii "sid",.string (ascii "0")),(ascii "ssix",.string (ascii "0")),
      (ascii "album_title",.string album),(ascii "titile",.string title),(ascii "pubtime",.string pubtime),
      (ascii "artist",.string artist),(ascii "pic_url",.string pic)], 0 ∉ member.1 := by
  simp only [List.forall_mem_cons]
  refine ⟨by decide,by decide,by decide,by decide,by decide,by decide,by decide,by decide,?_⟩
  exact fun member none_ => absurd none_ List.not_mem_nil

theorem result_prints (songid album title pubtime artist pic : List UInt8) : tool.Prints (result songid album title pubtime artist pic) := by
  apply prints_strings
  intro member listed
  simp only [List.mem_cons,List.not_mem_nil,or_false] at listed
  rcases listed with rfl | rfl | rfl | rfl | rfl | rfl | rfl | rfl
  all_goals exact ⟨_,rfl⟩

theorem UnserializedJson_text (documented : tool.Documented) (songid : List UInt8) (song : Song) :
    NewMusicInfo.UnserializedJson tool (text tool songid song) =
      some ⟨atoll (c_str songid),Base64Decode (c_str song.name),Base64Decode (c_str song.artist)⟩ := by
  have prints := @result_prints tool songid song.album song.name song.pubtime song.artist song.pic
  have nonzero := result_nonzero songid song.album song.name song.pubtime song.artist song.pic
  rw [NewMusicInfo.UnserializedJson,text,write_c_str documented false prints,readDocument_write documented false prints,result]
  simp only [Option.bind_eq_bind,Option.bind_some]
  rw [@text_back tool _ nonzero _ song.name rfl,@text_back tool _ nonzero _ song.artist rfl,@text_back tool _ nonzero _ songid rfl]
  simp only [Option.bind_some,c_str_nonzero (c_str_zero songid)]
  rfl

theorem decimal_space (n : Int) : 32 ∉ decimal n := by
  have digits : 32 ∉ Logic.decimalDigits n.natAbs := by
    intro listed
    have digit := (digit_bounds 32 listed).1
    revert digit
    decide
  rw [decimal]
  split
  · exact List.not_mem_cons_of_ne_of_not_mem (by decide) digits
  · exact digits

theorem argv_decimal (n : Int) : Sociality.CurrentSong.argv (decimal n) = [decimal n] := by
  have word : (decimal n).splitOn 32 = [decimal n] := by
    have alone : (List.intercalate [32] [decimal n]).splitOn 32 = [decimal n] :=
      List.splitOn_intercalate 32 (by simpa using decimal_space n) (by simp)
    simpa using alone
  rw [Sociality.CurrentSong.argv,word]
  exact List.filter_cons_of_pos (decide_eq_true (Storage.decimal_ne_nil n))

theorem GetBachMusicInfos_eq (redis : Redis) (songid_list : List Int64) :
    RedisComm.GetBachMusicInfos redis songid_list = songid_list.filterMap fun songid => redis.strings (decimal songid.toInt) := by
  have key (songid : Int64) : c_str (decimal songid.toInt) = decimal songid.toInt := Storage.c_str_decimal songid.toInt
  have command : ascii "mget" ++ (songid_list.flatMap fun songid => 32::decimal songid.toInt) =
      Sociality.CurrentSong.mget (songid_list.map fun songid => decimal songid.toInt) := by
    rw [Sociality.CurrentSong.mget,List.flatMap_map]
    simp only [key]
  have keys : ((songid_list.map fun songid => decimal songid.toInt).flatMap fun songid => Sociality.CurrentSong.argv (c_str songid)) =
      songid_list.map fun songid => decimal songid.toInt := by
    rw [List.flatMap_map]
    simp only [key,argv_decimal]
    exact List.map_eq_flatMap.symm
  rw [RedisComm.GetBachMusicInfos,command,Sociality.CurrentSong.redisCommand_mget,keys]
  cases songid_list with
  | nil => rfl
  | cons first songid_list =>
    change (((first::songid_list).map fun songid => decimal songid.toInt).map redis.strings).reduceOption = _
    rw [List.map_map,List.reduceOption,List.filterMap_map]
    rfl

theorem GetBatchMusicInfo_listed (documented : tool.Documented) {redis : Redis} {requests : List Request}
    (holds : ∀ songid, redis.strings songid = (known tool requests songid).map (text tool songid)) (songid_list : List Int64) :
    GetBatchMusicInfo tool redis songid_list = some (ChargeNewMusciJson (listed tool requests songid_list)) := by
  rw [GetBatchMusicInfo,GetBachMusicInfos_eq]
  have all : ((songid_list.filterMap fun songid => redis.strings (decimal songid.toInt)).mapM (NewMusicInfo.UnserializedJson tool)) =
      some (listed tool requests songid_list) := by
    induction songid_list with
    | nil => rfl
    | cons songid songid_list ih =>
      rw [List.filterMap_cons,holds,listed,List.filterMap_cons]
      cases known tool requests (decimal songid.toInt) with
      | none => exact ih
      | some song =>
        have id : atoll (c_str (decimal songid.toInt)) = songid := by
          change atoll (Storage.c_str (decimal songid.toInt)) = songid
          rw [Storage.c_str_decimal,Storage.atoll_decimal songid.le_toInt songid.toInt_lt,Int64.ofInt_toInt]
        rw [Option.map_some,Option.map_some,List.mapM_cons,UnserializedJson_text documented,ih,id]
        rfl
  rw [all]
  rfl

/-- A record as the reader of the list has it. -/
def NewMusicInfo.shown (tool : Tool) (musicinfo : NewMusicInfo) : Value := .object [
  (ascii "id",tool.kind (.int musicinfo.id_)),
  (ascii "name",.string (c_str musicinfo.name_)),
  (ascii "singer",.string (c_str musicinfo.singer_))]

theorem info_prints (musicinfo : NewMusicInfo) : tool.Prints musicinfo.info := by
  apply prints_object
  intro member listed
  simp only [List.mem_cons,List.not_mem_nil,or_false] at listed
  rcases listed with rfl | rfl | rfl
  all_goals exact prints_leaf (fun x => Value.noConfusion) trivial

theorem held_info (musicinfo : NewMusicInfo) : (tool.asRead musicinfo.info).held = musicinfo.shown tool := by
  have number := @kind_leaf tool (.int musicinfo.id_) trivial
  have kept : (tool.kind (.int musicinfo.id_)).held = tool.kind (.int musicinfo.id_) := by
    rw [held_leaf number.1,number.2]
    rfl
  have string (value : List UInt8) : (Value.string (c_str value)).held = .string (c_str value) :=
    congrArg Value.string (c_str_nonzero (c_str_zero value))
  rw [NewMusicInfo.info,asRead_object,held_object]
  simp only [List.map_cons,List.map_nil]
  change Value.object [(ascii "id",(tool.kind (.int musicinfo.id_)).held),(ascii "name",(Value.string (c_str musicinfo.name_)).held),
    (ascii "singer",(Value.string (c_str musicinfo.singer_)).held)] = _
  rw [kept,string,string]
  rfl

/-- The songs as the reader of the list has them. -/
def songs (tool : Tool) (list : List NewMusicInfo) : Value :=
  if list = [] then .null else .array (list.map (NewMusicInfo.shown tool))

theorem Charge_prints (list : List NewMusicInfo) : tool.Prints (ChargeNewMusciJson list) := by
  rw [ChargeNewMusciJson]
  split
  · exact prints_leaf (fun x => Value.noConfusion) trivial
  · apply prints_array
    intro item member
    obtain ⟨musicinfo,_,rfl⟩ := List.mem_map.mp member
    exact info_prints musicinfo

theorem held_Charge (list : List NewMusicInfo) : (tool.asRead (ChargeNewMusciJson list)).held = songs tool list := by
  rw [ChargeNewMusciJson,songs]
  split
  · rfl
  · rw [asRead_array,held_array,List.map_map,List.map_map]
    exact congrArg Value.array (List.map_congr_left fun musicinfo _ => held_info musicinfo)

/-- An array of one song, whose name and singer are encoded. -/
def offered : Value := .array [.object [
  (ascii "id",.int 5),
  (ascii "name",.string (ascii "SGk=")),
  (ascii "album",.string (ascii "TA==")),
  (ascii "artist",.string (ascii "Tm8=")),
  (ascii "pubtime",.string (ascii "2004")),
  (ascii "pic",.string (ascii "p")),
  (ascii "url",.string (ascii "u"))]]

def offer : Request := ⟨FastWriter.write noteTool false offered,fun _ _ => some [ascii "77"]⟩

theorem offered_prints : noteTool.Prints offered := by
  apply prints_array
  intro item member
  rw [List.mem_singleton.mp member]
  apply prints_object
  intro member among
  simp only [List.mem_cons,List.not_mem_nil,or_false] at among
  rcases among with rfl | rfl | rfl | rfl | rfl | rfl | rfl
  all_goals exact prints_leaf (fun x => Value.noConfusion) trivial

def offeredSong : Song := ⟨5,ascii "SGk=",ascii "TA==",ascii "Tm8=",ascii "2004",ascii "p",ascii "u"⟩

theorem offer_songs : offer.songs noteTool = [(ascii "77",offeredSong)] := by
  rw [Request.songs,offer,readDocument_write noteTool_documented false offered_prints]
  rfl

theorem offer_known (songid : List UInt8) : known noteTool [offer] songid = [(ascii "77",offeredSong)].lookup songid := by
  rw [known,List.flatMap_singleton,offer_songs]
  rfl

theorem offer_listed : listed noteTool [offer] [78,77] = [⟨77,ascii "Hi",ascii "No"⟩] := by
  simp only [listed,offer_known]
  rfl

/-- The record that master/music has of the song. The names of `ssid` and `pub_time` are not the ones that are written. -/
def Song.record (songid : List UInt8) (song : Song) : Public.MusicInfo where
  id_ := songid
  sid_ := ascii "0"
  album_title_ := c_str song.album
  titile_ := c_str song.name
  artist_ := c_str song.artist
  pic_url_ := c_str song.pic

theorem MusicInfo_text (documented : tool.Documented) {songid : List UInt8} (clean : 0 ∉ songid) (song : Song) :
    Public.MusicInfo.UnserializedJson tool.codePointToUTF8 tool.sscanf (2 * (text tool songid song).length + 2) (text tool songid song) =
      some (song.record songid) := by
  have prints := @result_prints tool songid song.album song.name song.pubtime song.artist song.pic
  have nonzero := result_nonzero songid song.album song.name song.pubtime song.artist song.pic
  have read := readDocument_write documented false prints
  rw [readDocument] at read
  rw [Public.MusicInfo.UnserializedJson,text,write_c_str documented false prints,read,result]
  simp only [Option.bind_eq_bind,Option.bind_some]
  rw [@text_back tool _ nonzero _ songid rfl,@text_back tool _ nonzero _ (ascii "0") rfl,@text_back_absent tool _ nonzero (ascii "ssid") rfl,
    @text_back tool _ nonzero _ song.album rfl,@text_back tool _ nonzero _ song.name rfl,@text_back_absent tool _ nonzero (ascii "pub_time") rfl,
    @text_back tool _ nonzero _ song.artist rfl,@text_back tool _ nonzero _ song.pic rfl,@text_back_absent tool _ nonzero (ascii "hqurl") rfl]
  simp only [Option.bind_some,c_str_nonzero clean]
  rfl

theorem GetMusicInfos_strings {redis : Redis} {songid str : List UInt8} (holds : redis.strings (c_str songid) = some str)
    (some_ : str ≠ []) (clean : c_str str = str) : Storage.GetMusicInfos redis songid = some (str.map some) := by
  have long := List.length_pos_of_ne_nil some_
  have text : Storage.c_str str = str := clean
  have value : redis.RedisGetValue songid = some (str.map some ++ [none],str.length + 1) := by
    change redis.strings (Storage.c_str songid) = some str at holds
    rw [Redis.RedisGetValue,holds]
    exact if_pos ⟨long.ne',text.symm ▸ long⟩
  have length : str.length + 1 - 1 = (str.map some).length := by rw [List.length_map,Nat.add_sub_cancel]
  rw [Storage.GetMusicInfos,value,Option.map_some]
  dsimp only
  rw [length,List.take_left]

end Reading

end Migfm.Master.NewMusic
