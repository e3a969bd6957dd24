import Migfm.Library.TwoRuns
import Migfm.Music.WholeManager

/-! The lists of svc/musicsvc/music_logic.cc, one request after the other. A list has
handles: what is set through one is seen through every other of its record. -/
namespace Migfm.Music
open Basic
open Logic (MusicInfo UserInfo ValueMap)

def PFE_LIKE : Int32 := 1

abbrev MULTI_DIMENSION_VEC := Map (List MusicInfo)

/-! ### Records -/

namespace Loaded

/-- `BaseCopy` of the loaded song, where there is one. -/
def copied (loaded : Loaded) (tmusicinfo : MusicInfo) : MusicInfo :=
  match MapGet loaded.songs tmusicinfo.id_ with
  | some rmusicinfo => tmusicinfo.BaseCopy rmusicinfo
  | none => tmusicinfo

/-- `GetMusicInfo`; the loaded record is copied to itself. -/
def GetMusicInfo (loaded : Loaded) (list : MUSICINFO_MAP) : MUSICINFO_MAP :=
  list.map fun _ song => match song with
    | .loaded => .loaded
    | .own info => .own (loaded.copied info)

def record (loaded : Loaded) (id : Int64) : Song → Option MusicInfo
  | .loaded => MapGet loaded.songs id
  | .own info => some info

/-- `set_like` through the handles of loaded songs. -/
def set_like (loaded : Loaded) (list : MUSICINFO_MAP) : Loaded where
  songs := loaded.songs.map fun id info => match MapGet list id with
    | some .loaded => { info with like_ := PFE_LIKE }
    | _ => info
  keyed := by
    intro id info found
    rw [Std.ExtTreeMap.getElem?_map] at found
    obtain ⟨before,held,rfl⟩ := Option.map_eq_some_iff.mp found
    have same : before.id_ = id := loaded.keyed held
    split
    · exact same
    · exact same

end Loaded

/-- `set_like` through the handles of other records. -/
def Song.set_like : Song → Song
  | .loaded => .loaded
  | .own info => .own { info with like_ := PFE_LIKE }

/-! ### Lists -/

namespace MusicCache

/-- A list that is missing or empty is read from redis. -/
def GetMusicListT (cache : MusicCache) (hash : Hash) (uid songid : Int64) : MUSICINFO_MAP :=
  match MapGet cache.collect_map_ uid with
  | none => music_list songid hash.values
  | some list => if list.isEmpty then music_list songid hash.values else list

/-- The handles of a list are those of the cache. -/
def hold (cache : MusicCache) (uid : Int64) (list : MUSICINFO_MAP) : MusicCache :=
  if list.isEmpty then cache else { cache with collect_map_ := MapAdd cache.collect_map_ uid list }

def GetCollectList (cache : MusicCache) (hash : Hash) (uid songid : Int64) : MusicCache × MUSICINFO_MAP :=
  let list := cache.music_info_map_.GetMusicInfo (cache.GetMusicListT hash uid songid)
  (cache.hold uid list,list)

def OnCollectList (cache : MusicCache) (hash : Hash) (uid songid : Int64) : MusicCache × List (ValueMap Logic.Value) :=
  let (cache,list) := cache.GetCollectList hash uid songid
  let list := list.map fun _ song => song.set_like
  let cache := { cache with music_info_map_ := cache.music_info_map_.set_like list }
  (cache.hold uid list,list.toList.filterMap fun (id,song) => (cache.music_info_map_.record id song).bind MusicInfo.Release)

end MusicCache

/-- The songs that are drawn; one past the end is undefined. -/
def drawn (dimension_vec : List MusicInfo) (radom_list : List Int32) : List MusicInfo :=
  radom_list.filterMap fun radom => if radom < 0 then none else dimension_vec[radom.toInt.toNat]?

/-- `GetDimensionList`. The records of a dimension are copied over at each list. -/
def Loaded.GetDimensionList (loaded : Loaded) (dimension_vec : List MusicInfo) (radom_list : List Int32)
    (music_list : Map MusicInfo) : Map MusicInfo :=
  let music_list := (drawn dimension_vec radom_list).foldl (fun music_list info => MapAdd music_list info.id_ info) music_list
  music_list.map fun _ info => loaded.copied info

/-- Requests for the users near: of `OnNearMusic`, `OnSocNearUser` and
`OnSocMyMusicFriend`. -/
inductive Near
  | music
  | user
  | friend

/-- Who is sent to `uid`. -/
def Near.sends (near : Near) (uid : Int64) (userinfo : UserInfo) (musicinfo : MusicInfo) : Bool :=
  (match near with
    | .music => musicinfo.Isvalid
    | .user => 0 < userinfo.uid_
    | .friend => userinfo.Isvalid) && userinfo.uid_ != uid

/-! ### Requests -/

/-- `current` is the memcached song of each user. -/
structure Service where
  redis : Redis
  current : Int64 → Option (ValueMap Logic.Value)
  cache : MusicCache
  channel_dimension_ : MULTI_DIMENSION_VEC
  mood_dimension_ : MULTI_DIMENSION_VEC
  scene_dimension_ : MULTI_DIMENSION_VEC

/-- What comes from elsewhere is part of the request: the numbers that are drawn, the
users that the database has, in the order in which they are sent, and what is not
initialized where an entry is read. -/
inductive Request
  | collectList (uid : Int64) (songid : Int64)
  | dimensionList (uid : Int64) (dimensions : List (String × Int64 × List Int32))
  | near (near : Near) (uid : Int64) (users : List UserInfo) (current songid : Int64)
  | setCollection (uid songid : Int64) (dimemsion_id : Int32) (dimension_alais : List UInt8)
  | delCollection (uid songid : Int64)
  | recordMusic (uid : Int64) (music : MusicInfo)

inductive Answer
  | music (list : List (ValueMap Logic.Value))
  | users (list : List (UserInfo × Option (ValueMap Logic.Value)))
  | status

namespace Service

def dimension_vec (s : Service) (name : String) (id : Int64) : List MusicInfo :=
  let multi_dimension_vec :=
    if name = "chl" then s.channel_dimension_
    else if name = "ms" then s.scene_dimension_
    else if name = "mm" then s.mood_dimension_
    else ∅
  (MapGet multi_dimension_vec id).getD []

def OnDimensionList (s : Service) (dimensions : List (String × Int64 × List Int32)) : List (ValueMap Logic.Value) :=
  let music_list := dimensions.foldl (fun music_list (name,id,radom_list) =>
    s.cache.music_info_map_.GetDimensionList (s.dimension_vec name id) radom_list music_list) ∅
  music_list.toList.filterMap fun (_,info) => info.Release

/-- `BatchGetCurrentSong` for one user. -/
def GetCurrentSong (s : Service) (uid songid : Int64) : MusicInfo :=
  match s.current uid with
  | none => {}
  | some value => s.cache.music_info_map_.copied (MusicInfo.read {} value songid)

/-- The users near; `CheckIsCollectSong` marks what the one who asks has collected. -/
def OnNear (s : Service) (near : Near) (uid : Int64) (users : List UserInfo) (current : Int64) (music_list : MUSICINFO_MAP) :
    List (UserInfo × Option (ValueMap Logic.Value)) :=
  users.filterMap fun userinfo =>
    let info := s.GetCurrentSong userinfo.uid_ current
    let musicinfo := if music_list.contains info.id_ then { info with like_ := PFE_LIKE } else info
    if near.sends uid userinfo musicinfo then some (userinfo,if musicinfo.id_ != 0 then musicinfo.Release else none) else none

def serve (s : Service) : Request → Service × Answer
  | .collectList uid songid =>
    let (cache,list) := s.cache.OnCollectList (s.redis uid) uid songid
    ({ s with cache },.music list)
  | .dimensionList _ dimensions => (s,.music (s.OnDimensionList dimensions))
  | .near near uid users current songid =>
    let (cache,music_list) := s.cache.GetCollectList (s.redis uid) uid songid
    ({ s with cache },.users (s.OnNear near uid users current music_list))
  | .setCollection uid songid dimemsion_id dimension_alais =>
    let music : MusicInfo := { id_ := songid,class_ := dimemsion_id,class_name_ := dimension_alais }
    ({ s with
      redis := Function.update s.redis uid ((s.redis uid).set music)
      cache := s.cache.SetMusicPreference uid music },.status)
  | .delCollection uid songid =>
    ({ s with
      redis := Function.update s.redis uid ((s.redis uid).del songid)
      cache := s.cache.DelCollectSong uid songid },.status)
  | .recordMusic uid music => ({ s with current := Function.update s.current uid (some (music.dict 0)) },.status)

end Service

def Request.uid : Request → Int64
  | .collectList uid _ => uid
  | .dimensionList uid _ => uid
  | .near _ uid _ _ _ => uid
  | .setCollection uid _ _ _ => uid
  | .delCollection uid _ => uid
  | .recordMusic uid _ => uid

/-- The collect and cancel requests. -/
def Request.collects : Request → Bool
  | .setCollection .. => true
  | .delCollection .. => true
  | _ => false

end Migfm.Music
