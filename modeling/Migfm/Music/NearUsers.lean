import Migfm.Basic.Template
import Migfm.Logic.Infos

/-! `GetNearUserAndMusic` of svc/musicsvc/music_logic.cc, from the users that the database
has near. -/
namespace Migfm.Music
open Basic
open Logic (MusicInfo UserInfo)

structure UserAndMusic where
  userinfo_ : UserInfo
  musicinfo_ : MusicInfo

namespace UserAndMusic

def cmptime (t_info r_info : UserAndMusic) : Bool := t_info.userinfo_.logintime_ < r_info.userinfo_.logintime_

/-- `std::list::sort`, which keeps the order of equals. -/
def sort (infolist : List UserAndMusic) : List UserAndMusic := infolist.mergeSort fun t_info r_info => !cmptime r_info t_info

theorem sort_perm (infolist : List UserAndMusic) : (sort infolist).Perm infolist := List.mergeSort_perm ..

theorem sort_ordered (infolist : List UserAndMusic) :
    (sort infolist).Pairwise fun t_info r_info => t_info.userinfo_.logintime_ ≤ r_info.userinfo_.logintime_ := by
  have le_iff (t_info r_info : UserAndMusic) : (!cmptime r_info t_info) = true ↔ t_info.userinfo_.logintime_ ≤ r_info.userinfo_.logintime_ := by
    rw [cmptime,Bool.not_eq_true',decide_eq_false_iff_not]
    exact Int64.not_lt
  have ordered : (sort infolist).Pairwise fun t_info r_info => (!cmptime r_info t_info) = true := by
    apply List.pairwise_mergeSort
    · intro first second third one two
      exact (le_iff ..).mpr (Int64.le_trans ((le_iff ..).mp one) ((le_iff ..).mp two))
    · intro first second
      rw [Bool.or_eq_true,le_iff,le_iff]
      exact Int64.le_total ..
  exact ordered.imp fun one => (le_iff ..).mp one

end UserAndMusic

/-- The loop from `end()` down to `begin()`, from the entry at a position on; `none` is
that there is no entry. -/
def fromEnd (infomap : List UserAndMusic) : Nat → Option (List UserAndMusic)
  | 0 => some []
  | it + 1 => infomap[it + 1]?.bind fun info => (fromEnd infomap it).map fun infolist => info::infolist

/-- `BatchGetCurrentSong`: what is written to the song of each user. -/
def BatchGetCurrentSong (current : Int64 → MusicInfo → MusicInfo) (infomap : Map UserAndMusic) : Map UserAndMusic :=
  infomap.map fun uid info => { info with musicinfo_ := current uid info.musicinfo_ }

/-- `CheckIsCollectSong`: the record of a collected song is marked. -/
def CheckIsCollectSong (collected : Int64 → Bool) (infolist : List UserAndMusic) : List UserAndMusic :=
  infolist.map fun info => if collected info.musicinfo_.id_ then { info with musicinfo_ := { info.musicinfo_ with like_ := 1 } } else info

section Near
variable (current : Int64 → MusicInfo → MusicInfo) (collected : Int64 → Bool)

def GetNearUserAndMusic (infomap : Map UserAndMusic) : Option (List UserAndMusic) :=
  let entries := (BatchGetCurrentSong current infomap).toList.map Prod.snd
  (fromEnd entries entries.length).map fun infolist => UserAndMusic.sort (CheckIsCollectSong collected infolist)

/-- Each entry once, by the login times. -/
def NearRight (infomap : Map UserAndMusic) : Prop :=
  ∃ infolist, GetNearUserAndMusic current collected infomap = some infolist ∧
    infolist.Perm (CheckIsCollectSong collected ((BatchGetCurrentSong current infomap).toList.map Prod.snd)) ∧
    infolist.Pairwise fun t_info r_info => t_info.userinfo_.logintime_ ≤ r_info.userinfo_.logintime_

/-- From a position that has an entry, the first of the map is still left out. -/
theorem fromEnd_inside {infomap : List UserAndMusic} {it : Nat} (inside : it < infomap.length) :
    fromEnd infomap it = some ((infomap.take (it + 1)).tail.reverse) := by
  induction it with
  | zero =>
    cases infomap with
    | nil => cases inside
    | cons info infomap => rfl
  | succ it ih =>
    have some_ : infomap.take (it + 1) ≠ [] := by
      rw [← List.length_pos_iff,List.length_take]
      omega
    rw [fromEnd,List.getElem?_eq_getElem inside,Option.bind_some,ih (Nat.lt_of_succ_lt inside),List.take_add_one (i := it + 1),
      List.getElem?_eq_getElem inside,Option.toList_some,List.tail_append_of_ne_nil some_,List.reverse_append]
    rfl

/-- There is an entry at `end()` for no map but the empty one, where the loop does not start. -/
theorem fromEnd_length (infomap : List UserAndMusic) : fromEnd infomap infomap.length = if infomap = [] then some [] else none := by
  cases infomap with
  | nil => rfl
  | cons info infomap =>
    have beyond : (info::infomap)[infomap.length + 1]? = none := List.getElem?_eq_none le_rfl
    rw [List.length_cons,fromEnd,beyond,if_neg (List.cons_ne_nil _ _)]
    rfl

theorem GetNearUserAndMusic_iff (infomap : Map UserAndMusic) : NearRight current collected infomap ↔ infomap = ∅ := by
  have none_ : (BatchGetCurrentSong current infomap).toList.map Prod.snd = [] ↔ infomap = ∅ := by
    rw [List.map_eq_nil_iff,Std.ExtTreeMap.toList_eq_nil_iff]
    exact Std.ExtTreeMap.map_eq_empty_iff
  rw [← none_,NearRight,GetNearUserAndMusic]
  constructor
  · rintro ⟨infolist,built,-⟩
    rw [fromEnd_length] at built
    split at built
    · assumption
    · cases built
  · intro empty
    rw [empty]
    exact ⟨_,rfl,UserAndMusic.sort_perm _,UserAndMusic.sort_ordered _⟩

end Near

/-- One user near. -/
theorem near_one : ¬NearRight (fun _ info => info) (fun _ => false) ((∅ : Map UserAndMusic).insert 7 ⟨{ uid_ := 7,logintime_ := 100 },{}⟩) := by
  rintro ⟨infolist,built,-⟩
  rw [GetNearUserAndMusic,fromEnd_length] at built
  have entry : (7,(⟨{ uid_ := 7,logintime_ := 100 },{}⟩ : UserAndMusic)) ∈
      (BatchGetCurrentSong (fun _ info => info) ((∅ : Map UserAndMusic).insert 7 ⟨{ uid_ := 7,logintime_ := 100 },{}⟩)).toList := by
    rw [Std.ExtTreeMap.mem_toList_iff_getElem?_eq_some,BatchGetCurrentSong,Std.ExtTreeMap.getElem?_map,
      Std.ExtTreeMap.getElem?_insert_self]
    rfl
  rw [if_neg (List.ne_nil_of_mem (List.mem_map_of_mem entry))] at built
  cases built

end Migfm.Music
