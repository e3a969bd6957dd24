import Migfm.Music.Musiclogic

/-! What a user is shown when others collect and cancel. -/
namespace Migfm.Music
open Basic Library
open Logic (MusicInfo)

/-! ### Loaded songs -/

/-- A list that is read from redis has records of its own. -/
theorem music_list_own {songid id : Int64} {list : List (Logic.ValueMap Logic.Value)} :
    MapGet (music_list songid list) id ≠ some .loaded := by
  have kept (start : MUSICINFO_MAP) (own : MapGet start id ≠ some .loaded) : MapGet (list.foldl (fun music_list str =>
      let info := MusicInfo.read {} str songid
      MapAdd music_list info.id_ (.own info)) start) id ≠ some .loaded := by
    induction list generalizing start with
    | nil => exact own
    | cons str list ih =>
      apply ih
      rw [MapGet,MapAdd_get]
      split
      · intro same
        cases same
      · exact own
  apply kept
  rw [MapGet,Std.ExtTreeMap.getElem?_empty]
  intro same
  cases same

/-- No song that the list has from the table is shown otherwise than as liked. -/
def Loaded.Liked (loaded : Loaded) (list : MUSICINFO_MAP) : Prop :=
  ∀ id, MapGet list id = some .loaded → ∀ info, MapGet loaded.songs id = some info → info.like_ = PFE_LIKE

theorem Loaded.set_like_eq {loaded : Loaded} {list : MUSICINFO_MAP} (liked : loaded.Liked list) : loaded.set_like list = loaded := by
  have same : (loaded.set_like list).songs = loaded.songs := by
    apply Std.ExtTreeMap.ext_getElem?
    intro id
    rw [set_like,Std.ExtTreeMap.getElem?_map]
    cases found : loaded.songs[id]? with
    | none => rfl
    | some info =>
      rw [Option.map_some]
      split
      · rename_i held
        rw [← liked id held info found]
      · rfl
  cases loaded
  rwa [set_like,Loaded.mk.injEq] at *

theorem Loaded.Liked.of_cached {loaded : Loaded} {cached list : MUSICINFO_MAP} (liked : loaded.Liked cached)
    (handles : ∀ id, MapGet list id = some .loaded → MapGet cached id = some .loaded) : loaded.Liked list :=
  fun id held => liked id (handles id held)

theorem get_map {list : MUSICINFO_MAP} {id : Int64} {change : Int64 → Song → Song} (own : ∀ id info, change id (.own info) ≠ .loaded)
    (held : MapGet (list.map change) id = some .loaded) : MapGet list id = some .loaded := by
  rw [MapGet,Std.ExtTreeMap.getElem?_map] at held
  obtain ⟨song,found,becomes⟩ := Option.map_eq_some_iff.mp held
  cases song with
  | loaded => exact found
  | own info => exact absurd becomes (own id info)

/-! ### Lists of the cache -/

namespace MusicCache

/-- The two caches have the same for a user. -/
structure Same (v : Int64) (first second : MusicCache) : Prop where
  loaded : first.music_info_map_ = second.music_info_map_
  list : MapGet first.collect_map_ v = MapGet second.collect_map_ v

section Lists
variable {v uid songid : Int64} {cache first second : MusicCache} {hash : Hash} {list other : MUSICINFO_MAP} {music : MusicInfo}

theorem add_other (apart : uid ≠ v) : MapGet (MapAdd cache.collect_map_ uid list) v = MapGet cache.collect_map_ v := by
  rw [MapGet,MapAdd_get,if_neg apart.symm]
  rfl

theorem add_own (map : Map MUSICINFO_MAP) : MapGet (MapAdd map v list) v = some list := by
  rw [MapGet,MapAdd_get,if_pos rfl]

theorem hold_other (apart : uid ≠ v) : Same v (cache.hold uid list) cache := by
  rw [hold]
  split
  · exact ⟨rfl,rfl⟩
  · exact ⟨rfl,add_other apart⟩

theorem Same.trans {third : MusicCache} (same : Same v first second) (next : Same v second third) : Same v first third :=
  ⟨same.loaded.trans next.loaded,same.list.trans next.list⟩

theorem Same.symm (same : Same v first second) : Same v second first := ⟨same.loaded.symm,same.list.symm⟩

theorem Same.hold (same : Same v first second) (equal : uid = v → list = other) :
    Same v (first.hold uid list) (second.hold uid other) := by
  by_cases own : uid = v
  · rw [equal own,MusicCache.hold,MusicCache.hold]
    split
    · exact same
    · subst own
      exact ⟨same.loaded,(add_own _).trans (add_own _).symm⟩
  · exact (hold_other own).trans (same.trans (hold_other own).symm)

theorem set_other (apart : uid ≠ v) : Same v (cache.SetMusicPreference uid music) cache := by
  rw [SetMusicPreference]
  split
  · exact ⟨rfl,rfl⟩
  · exact ⟨rfl,add_other apart⟩

theorem del_other (apart : uid ≠ v) : Same v (cache.DelCollectSong uid songid) cache := by
  rw [DelCollectSong]
  split
  · exact ⟨rfl,rfl⟩
  · split
    · exact ⟨rfl,rfl⟩
    · exact ⟨rfl,add_other apart⟩

theorem Same.set (same : Same v first second) : Same v (first.SetMusicPreference v music) (second.SetMusicPreference v music) := by
  rw [SetMusicPreference,SetMusicPreference,same.list,same.loaded]
  split
  · exact same
  · exact ⟨rfl,(add_own _).trans (add_own _).symm⟩

theorem Same.del (same : Same v first second) : Same v (first.DelCollectSong v songid) (second.DelCollectSong v songid) := by
  rw [DelCollectSong,DelCollectSong,same.list]
  split
  · exact same
  · split
    · exact same
    · exact ⟨same.loaded,(add_own _).trans (add_own _).symm⟩

theorem Same.GetCollectList (same : Same v first second) {hash' : Hash} (redis : uid = v → hash = hash') :
    Same v (first.GetCollectList hash uid songid).1 (second.GetCollectList hash' uid songid).1 ∧
      (uid = v → (first.GetCollectList hash uid songid).2 = (second.GetCollectList hash' uid songid).2) := by
  have equal : uid = v → first.music_info_map_.GetMusicInfo (first.GetMusicListT hash uid songid) =
      second.music_info_map_.GetMusicInfo (second.GetMusicListT hash' uid songid) := by
    intro own
    rw [GetMusicListT,GetMusicListT,own,same.list,same.loaded,redis own]
  exact ⟨same.hold equal,equal⟩

/-- What the list of a user has from the table of songs. -/
theorem GetMusicListT_liked (liked : ∀ list, MapGet cache.collect_map_ uid = some list → cache.music_info_map_.Liked list) :
    cache.music_info_map_.Liked (cache.GetMusicListT hash uid songid) := by
  have read : cache.music_info_map_.Liked (music_list songid hash.values) := fun id held => absurd held music_list_own
  rw [GetMusicListT]
  split
  · exact read
  · rename_i list found
    split
    · exact read
    · exact liked list found

theorem hold_loaded : (cache.hold uid list).music_info_map_ = cache.music_info_map_ := by
  rw [hold]
  split
  · rfl
  · rfl

/-- Where every song is marked already, the table stays as it is. -/
theorem OnCollectList_other (liked : ∀ list, MapGet cache.collect_map_ uid = some list → cache.music_info_map_.Liked list)
    (apart : uid ≠ v) : Same v (cache.OnCollectList hash uid songid).1 cache := by
  have marked : cache.music_info_map_.Liked ((cache.GetCollectList hash uid songid).2.map fun _ song => song.set_like) :=
    (GetMusicListT_liked liked).of_cached fun id held => 
      get_map (fun _ _ same => by cases same) (get_map (fun _ _ same => by cases same) held)
  refine (hold_other apart).trans ⟨?_,?_⟩
  · dsimp only
    rw [hold_loaded]
    exact Loaded.set_like_eq marked
  · exact (hold_other apart).list

theorem Same.OnCollectList (same : Same v first second) :
    Same v (first.OnCollectList hash v songid).1 (second.OnCollectList hash v songid).1 ∧
      (first.OnCollectList hash v songid).2 = (second.OnCollectList hash v songid).2 := by
  have held : Same v (first.GetCollectList hash v songid).1 (second.GetCollectList hash v songid).1 ∧
      (v = v → (first.GetCollectList hash v songid).2 = (second.GetCollectList hash v songid).2) :=
    same.GetCollectList fun _ => rfl
  rw [MusicCache.OnCollectList,MusicCache.OnCollectList]
  generalize first.GetCollectList hash v songid = one at held
  generalize second.GetCollectList hash v songid = two at held
  obtain ⟨_,list⟩ := one
  obtain ⟨_,_⟩ := two
  obtain ⟨held,equal⟩ := held
  obtain rfl : list = _ := equal rfl
  dsimp only at held ⊢
  rw [held.loaded]
  exact ⟨Same.hold ⟨rfl,held.list⟩ fun _ => rfl,rfl⟩

end Lists
end MusicCache

/-! ### Requests -/

/-- What decides the answers to a user. -/
structure Service.Same (v : Int64) (first second : Service) : Prop where
  cache : MusicCache.Same v first.cache second.cache
  redis : first.redis v = second.redis v
  current : first.current = second.current
  channel : first.channel_dimension_ = second.channel_dimension_
  mood : first.mood_dimension_ = second.mood_dimension_
  scene : first.scene_dimension_ = second.scene_dimension_

/-- The collect list of another user marks no song of the table anew. -/
def Service.MarksNone (v : Int64) (s : Service) : Request → Prop
  | .collectList uid _ => uid ≠ v → ∀ list, MapGet s.cache.collect_map_ uid = some list → s.cache.music_info_map_.Liked list
  | _ => True

def Request.of (v : Int64) (request : Request) : Bool := request.uid == v

/-- A collect or cancel request of another user. -/
def Request.apart (v : Int64) (request : Request) : Bool := request.collects && request.uid != v

namespace Service
section Requests
variable {v : Int64} {first second : Service} {request : Request}

theorem Same.hide (same : Same v first second) (hides : request.apart v) : Same v (first.serve request).1 second := by
  rw [Request.apart,Bool.and_eq_true,bne_iff_ne] at hides
  obtain ⟨collects,apart⟩ := hides
  cases request with
  | setCollection uid songid dimemsion_id dimension_alais =>
    exact { same with
      cache := (MusicCache.set_other apart).trans same.cache
      redis := (Function.update_of_ne (Ne.symm apart) ..).trans same.redis }
  | delCollection uid songid =>
    exact { same with
      cache := (MusicCache.del_other apart).trans same.cache
      redis := (Function.update_of_ne (Ne.symm apart) ..).trans same.redis }
  | _ => cases collects

theorem Same.symm (same : Same v first second) : Same v second first :=
  ⟨same.cache.symm,same.redis.symm,same.current.symm,same.channel.symm,same.mood.symm,same.scene.symm⟩

theorem Same.both (same : Same v first second) (marks : first.MarksNone v request) (marks' : second.MarksNone v request)
    (kept : request.apart v = false) : Same v (first.serve request).1 (second.serve request).1 := by
  cases request with
  | collectList uid songid =>
    refine { same with cache := ?_ }
    by_cases own : uid = v
    · subst own
      rw [serve,serve,same.redis]
      exact same.cache.OnCollectList.1
    · exact (MusicCache.OnCollectList_other (marks own) own).trans
        (same.cache.trans (MusicCache.OnCollectList_other (marks' own) own).symm)
  | dimensionList uid dimensions => exact same
  | near near uid users current songid =>
    exact { same with cache := (same.cache.GetCollectList fun own => by rw [own,same.redis]).1 }
  | setCollection uid songid dimemsion_id dimension_alais =>
    obtain rfl : uid = v := by simpa [Request.apart,Request.collects,Request.uid] using kept
    exact { same with
      cache := same.cache.set
      redis := by simp [serve,same.redis] }
  | delCollection uid songid =>
    obtain rfl : uid = v := by simpa [Request.apart,Request.collects,Request.uid] using kept
    exact { same with
      cache := same.cache.del
      redis := by simp [serve,same.redis] }
  | recordMusic uid music => exact { same with current := by simp [serve,same.current] }

theorem Same.answer (same : Same v first second) (own : request.of v) : (first.serve request).2 = (second.serve request).2 := by
  cases request with
  | collectList uid songid =>
    obtain rfl : uid = v := by simpa [Request.of,Request.uid] using own
    rw [serve,serve,same.redis]
    exact congrArg Answer.music same.cache.OnCollectList.2
  | dimensionList uid dimensions =>
    rw [serve,serve,OnDimensionList,OnDimensionList,same.cache.loaded]
    simp only [dimension_vec,same.channel,same.mood,same.scene]
  | near near uid users current songid =>
    obtain rfl : uid = v := by simpa [Request.of,Request.uid] using own
    have lists : (first.cache.GetCollectList (first.redis uid) uid songid).2 =
        (second.cache.GetCollectList (second.redis uid) uid songid).2 := (same.cache.GetCollectList fun _ => same.redis).2 rfl
    show Answer.users (first.OnNear near uid users current (first.cache.GetCollectList (first.redis uid) uid songid).2) =
      .users (second.OnNear near uid users current (second.cache.GetCollectList (second.redis uid) uid songid).2)
    have songs : first.GetCurrentSong = second.GetCurrentSong := by
      funext user songid
      rw [GetCurrentSong,GetCurrentSong,same.current,same.cache.loaded]
    rw [lists,OnNear,OnNear,songs]
  | setCollection uid songid dimemsion_id dimension_alais => rfl
  | delCollection uid songid => rfl
  | recordMusic uid music => rfl

theorem unseen (v : Int64) : TwoRuns.Unseen serve (Request.of v) (Request.apart v) (MarksNone v) (Same v) where
  left := Same.hide
  right same hides := (same.symm.hide hides).symm
  both := Same.both
  answer := by
    intro first second request same own
    refine ⟨?_,same.answer own⟩
    rw [Request.of,beq_iff_eq] at own
    simp [Request.apart,own]

end Requests
end Service

/-- One song is loaded and is in a channel. -/
def Service.channel : Service where
  redis _ := .empty
  current _ := none
  cache := ⟨⟨(∅ : Map MusicInfo).insert 5 { id_ := 5,hq_url_ := [104],url_ := [117] },by
    intro id info found
    rw [Std.ExtTreeMap.getElem?_insert] at found
    split at found
    · rename_i same
      rw [← Option.some.inj found]
      exact Std.compare_eq_iff_eq.mp same
    · cases found⟩,∅⟩
  channel_dimension_ := (∅ : MULTI_DIMENSION_VEC).insert 1 [{ id_ := 5 }]
  mood_dimension_ := ∅
  scene_dimension_ := ∅

/-- User 2 collects a song and lists it; user 1 lists the channel. -/
def unmarked : List Request := [.setCollection 2 6 0 [],.collectList 2 0,.dimensionList 1 [("chl",1,[0])]]

/-- The mark of each song. -/
def Answer.likes : Answer → List (Option Int32)
  | .music list => list.map fun dict => Logic.GetInteger dict "like"
  | .users list => list.map fun unit => unit.2.bind fun dict => Logic.GetInteger dict "like"
  | .status => []

/-- User 2 has a list, collects the loaded song and lists again; user 1, who has
collected nothing, is shown it as liked. -/
def collected : List Request :=
  [.setCollection 2 6 0 [],.collectList 2 0,.setCollection 2 5 0 [],.collectList 2 0,.dimensionList 1 [("chl",1,[0])]]

def not_collected : List Request := [.collectList 2 0,.collectList 2 0,.dimensionList 1 [("chl",1,[0])]]

end Migfm.Music
