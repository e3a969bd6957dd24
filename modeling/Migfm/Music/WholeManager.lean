import Migfm.Basic.Template
import Migfm.Logic.Infos

/-! The collections of svc/musicsvc/whole_manager.cc: the songs that are loaded, what
redis holds of a user, and the blocks that run under the lock. A text that is read back
gives the tree it was written from. -/
namespace Migfm.Music
open Basic
open Logic (MusicInfo ValueMap)

/-- `music_info_map_`: each song stands under its id. -/
structure Loaded where
  songs : Map MusicInfo
  keyed : ∀ {id : Int64} {info : MusicInfo}, songs[id]? = some info → info.id_ = id

/-- A `MusicInfo` is a handle. In a collection it is that of the loaded song, or the
only one of its record. -/
inductive Song
  | loaded
  | own (info : MusicInfo)

abbrev MUSICINFO_MAP := Map Song

/-- A user's hash: each value is what was serialized for the song of its key. -/
structure Hash where
  entries : Map (ValueMap Logic.Value)
  written : ∀ {id : Int64} {entry : ValueMap Logic.Value}, entries[id]? = some entry →
    ∃ m : MusicInfo, m.id_ = id ∧ entry = m.dict 1

abbrev Redis := Int64 → Hash

structure MusicCache where
  music_info_map_ : Loaded
  collect_map_ : Map MUSICINFO_MAP

/-! ### Redis -/

def Hash.empty : Hash where
  entries := ∅
  written := by
    intro id entry found
    rw [Std.ExtTreeMap.getElem?_empty] at found
    cases found

/-- `SetHashElement`. -/
def Hash.set (hash : Hash) (music : MusicInfo) : Hash where
  entries := hash.entries.insert music.id_ (music.dict 1)
  written := by
    intro id entry found
    rw [Std.ExtTreeMap.getElem?_insert] at found
    split at found
    · rename_i same
      exact ⟨music,Std.compare_eq_iff_eq.mp same,(Option.some.inj found).symm⟩
    · exact hash.written found

/-- `DelHashElement`. -/
def Hash.del (hash : Hash) (songid : Int64) : Hash where
  entries := hash.entries.erase songid
  written := by
    intro id entry found
    rw [Std.ExtTreeMap.getElem?_erase] at found
    split at found
    · cases found
    · exact hash.written found

/-- `GetHashValues`. -/
def Hash.values (hash : Hash) : List (ValueMap Logic.Value) := hash.entries.toList.map Prod.snd

/-! ### Blocks -/

namespace MusicCache

/-- `SetMusicPreference`, under the lock. -/
def SetMusicPreference (cache : MusicCache) (uid : Int64) (music : MusicInfo) : MusicCache :=
  match MapGet cache.collect_map_ uid with
  | none => cache
  | some music_list =>
    let music_list := match MapGet cache.music_info_map_.songs music.id_ with
      | some info => MapAdd music_list info.id_ .loaded
      | none => MapAdd music_list music.id_ (.own music)
    { cache with collect_map_ := MapAdd cache.collect_map_ uid music_list }

/-- `DelCollectSong`, under the lock. -/
def DelCollectSong (cache : MusicCache) (uid songid : Int64) : MusicCache :=
  match MapGet cache.collect_map_ uid with
  | none => cache
  | some music_list =>
    match MapDel music_list songid with
    | (_,false) => cache
    | (music_list,true) => { cache with collect_map_ := MapAdd cache.collect_map_ uid music_list }

end MusicCache

/-- The loop of `GetMusicListT`; `songid` is what is not initialized. -/
def music_list (songid : Int64) (list : List (ValueMap Logic.Value)) : MUSICINFO_MAP :=
  list.foldl (fun music_list str =>
    let info := MusicInfo.read {} str songid
    MapAdd music_list info.id_ (.own info)) ∅

/-! ### Ids -/

theorem contains_insert {ValType : Type} (map : Map ValType) (idx other : Int64) (val : ValType) :
    (map.insert idx val).contains other = if other = idx then true else map.contains other := by
  rw [Std.ExtTreeMap.contains_insert]
  by_cases same : other = idx
  · rw [same,Std.compare_self,if_pos rfl]
    rfl
  · have apart : compare idx other ≠ .eq := fun equal => same (Std.compare_eq_iff_eq.mp equal).symm
    rw [beq_eq_false_iff_ne.mpr apart,if_neg same,Bool.false_or]

theorem contains_erase {ValType : Type} (map : Map ValType) (idx other : Int64) :
    (map.erase idx).contains other = if other = idx then false else map.contains other := by
  rw [Std.ExtTreeMap.contains_erase]
  by_cases same : other = idx
  · rw [same,Std.compare_self,if_pos rfl]
    rfl
  · have apart : compare idx other ≠ .eq := fun equal => same (Std.compare_eq_iff_eq.mp equal).symm
    rw [bne_iff_ne.mpr apart,if_neg same,Bool.true_and]

section Ids
variable {hash : Hash} {songid id : Int64}

theorem mem_music_list {list : List (ValueMap Logic.Value)} :
    id ∈ music_list songid list ↔ ∃ str ∈ list, (MusicInfo.read {} str songid).id_ = id := by
  have grows (start : MUSICINFO_MAP) : id ∈ list.foldl (fun music_list str =>
      let info := MusicInfo.read {} str songid
      MapAdd music_list info.id_ (.own info)) start ↔
      id ∈ start ∨ ∃ str ∈ list, (MusicInfo.read {} str songid).id_ = id := by
    induction list generalizing start with
    | nil => simp
    | cons str list ih =>
      rw [List.foldl_cons,ih,MapAdd_mem,List.exists_mem_cons_iff]
      tauto
  rw [music_list,grows]
  simp

theorem mem_values {str : ValueMap Logic.Value} : str ∈ hash.values ↔ ∃ id : Int64, hash.entries[id]? = some str := by
  simp only [Hash.values,List.mem_map,Prod.exists,exists_eq_right,Std.ExtTreeMap.mem_toList_iff_getElem?_eq_some]

/-- Where no song of id 0 is read, a list has the ids of the hash. -/
theorem mem_read (initialized : 0 ∈ hash.entries → songid = 0) : id ∈ music_list songid hash.values ↔ id ∈ hash.entries := by
  -- an entry is read under the key that it stands under
  have key {other : Int64} {str : ValueMap Logic.Value} (found : hash.entries[other]? = some str) :
      (MusicInfo.read {} str songid).id_ = other := by
    obtain ⟨m,rfl,rfl⟩ := hash.written found
    rw [MusicInfo.read_dict]
    dsimp only
    split
    · rename_i zero
      rw [zero]
      exact initialized (zero ▸ Std.ExtTreeMap.mem_iff_isSome_getElem?.mpr (by rw [found]; rfl))
    · rfl
  rw [mem_music_list]
  constructor
  · rintro ⟨str,member,same⟩
    obtain ⟨other,found⟩ := mem_values.mp member
    rw [← same,key found]
    exact Std.ExtTreeMap.mem_iff_isSome_getElem?.mpr (by rw [found]; rfl)
  · intro member
    obtain ⟨str,found⟩ := Option.isSome_iff_exists.mp (Std.ExtTreeMap.mem_iff_isSome_getElem?.mp member)
    exact ⟨str,mem_values.mpr ⟨id,found⟩,key found⟩

end Ids

/-! ### What is collected -/

/-- Whether redis has the song of a user. -/
def stored (redis : Redis) (place : Int64 × Int64) : Bool := (redis place.1).entries.contains place.2

/-- Whether the cache has it, where it has a list of the user. -/
def MusicCache.collected (cache : MusicCache) (place : Int64 × Int64) : Option Bool :=
  cache.collect_map_[place.1]?.map fun list => list.contains place.2

section Collected
variable {redis : Redis} {cache : MusicCache} {uid songid : Int64} {music : MusicInfo}

theorem stored_update (hash : Hash) (place : Int64 × Int64) : stored (Function.update redis uid hash) place =
    if place.1 = uid then hash.entries.contains place.2 else stored redis place := by
  rw [stored,Function.update_apply]
  split
  · rfl
  · rfl

theorem collected_update (list : MUSICINFO_MAP) (place : Int64 × Int64) :
    MusicCache.collected { cache with collect_map_ := MapAdd cache.collect_map_ uid list } place =
      if place.1 = uid then some (list.contains place.2) else cache.collected place := by
  rw [MusicCache.collected,MapAdd_get]
  split
  · rfl
  · rfl

theorem stored_set : stored (Function.update redis uid ((redis uid).set music)) =
    Function.update (stored redis) (uid,music.id_) true := by
  funext ⟨user,id⟩
  rw [stored_update,Function.update_apply,Hash.set,contains_insert]
  by_cases own : user = uid
  · subst own
    simp [stored]
  · simp [own]

theorem stored_del : stored (Function.update redis uid ((redis uid).del songid)) =
    Function.update (stored redis) (uid,songid) false := by
  funext ⟨user,id⟩
  rw [stored_update,Function.update_apply,Hash.del,contains_erase]
  by_cases own : user = uid
  · subst own
    simp [stored]
  · simp [own]

theorem collected_set (place : Int64 × Int64) : (cache.SetMusicPreference uid music).collected place =
    if place = (uid,music.id_) then (cache.collected place).map fun _ => true else cache.collected place := by
  obtain ⟨user,id⟩ := place
  rw [MusicCache.SetMusicPreference,MapGet]
  cases found : cache.collect_map_[uid]? with
  | none =>
    by_cases own : user = uid
    · subst own
      simp [MusicCache.collected,found]
    · simp [own]
  | some list =>
    -- a loaded song stands under its own id
    have key : (match MapGet cache.music_info_map_.songs music.id_ with
        | some info => MapAdd list info.id_ .loaded
        | none => MapAdd list music.id_ (.own music)).contains id = if id = music.id_ then true else list.contains id := by
      split
      · rename_i info loaded
        rw [MapAdd,contains_insert,cache.music_info_map_.keyed loaded]
      · rw [MapAdd,contains_insert]
    dsimp only
    rw [collected_update,key]
    by_cases own : user = uid
    · subst own
      by_cases same : id = music.id_
      all_goals simp [MusicCache.collected,found,same]
    · simp [own]

theorem collected_del (place : Int64 × Int64) : (cache.DelCollectSong uid songid).collected place =
    if place = (uid,songid) then (cache.collected place).map fun _ => false else cache.collected place := by
  obtain ⟨user,id⟩ := place
  rw [MusicCache.DelCollectSong,MapGet]
  cases found : cache.collect_map_[uid]? with
  | none =>
    by_cases own : user = uid
    · subst own
      simp [MusicCache.collected,found]
    · simp [own]
  | some list =>
    dsimp only
    split
    · rename_i erased deleted
      rw [MapDel,Prod.mk.injEq] at deleted
      by_cases own : user = uid
      · subst own
        by_cases same : id = songid
        all_goals simp [MusicCache.collected,found,same,deleted.2]
      · simp [own]
    · rename_i erased deleted
      rw [MapDel,Prod.mk.injEq] at deleted
      rw [collected_update,← deleted.1,contains_erase]
      by_cases own : user = uid
      · subst own
        by_cases same : id = songid
        all_goals simp [MusicCache.collected,found,same]
      · simp [own]

end Collected
end Migfm.Music
