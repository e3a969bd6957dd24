import Migfm.Logic.Infos
import Migfm.Storage.RedisWarrper

/-! `MgrListenSongsNum` of master/music/dic_comm.cc over the hashes of public/storage/redis_warrper.c: who listens
to which song. The pool has an engine and redis answers. -/
namespace Migfm.Music.Listeners
open Logic (ascii atoll)
open Storage (c_str)

/-- The fields of each key, with their values. -/
abbrev Hashes := List UInt8 → List UInt8 → Option (List UInt8)

/-- HSET -/
def RedisSetHashElement (redis : Hashes) (hash_name key val : List UInt8) : Hashes :=
  Function.update redis (c_str hash_name) (Function.update (redis (c_str hash_name)) (c_str key) (some (c_str val)))

/-- HDEL -/
def RedisDelHashElement (redis : Hashes) (hash_name key : List UInt8) : Hashes :=
  Function.update redis (c_str hash_name) (Function.update (redis (c_str hash_name)) (c_str key) none)

/-- A call of a user. -/
structure Report where
  songid : List UInt8
  last_songid : List UInt8
  uid : List UInt8

/-- The second key is appended to the first. -/
def MgrListenSongsNum (redis : Hashes) (report : Report) : Hashes :=
  let os := ascii "num_" ++ c_str report.songid
  let redis := RedisSetHashElement redis os report.uid report.songid
  if 0 < atoll (c_str report.last_songid) then
    let os := os ++ ascii "num_" ++ c_str report.last_songid
    RedisDelHashElement redis os report.uid
  else redis

def after (redis : Hashes) (reports : List Report) : Hashes := reports.foldl MgrListenSongsNum redis

/-! ### What is promised -/

/-- The song of the user's last call. -/
def latest (reports : List Report) (user : List UInt8) : Option (List UInt8) :=
  (reports.reverse.find? fun report => c_str report.uid = user).map Report.songid

/-- Each call has the song of the user's call before, or 0. -/
def Proper (reports : List Report) : Prop :=
  ∀ before report later, reports = before ++ report::later →
    report.last_songid = (latest before (c_str report.uid)).getD (ascii "0")

/-- No song has listeners. -/
def Silent (redis : Hashes) : Prop := ∀ song user, redis (ascii "num_" ++ song) user = none

/-- A user is in the hash of the song of the last call and in no other; a key of another kind is as it was. -/
def Exact (redis : Hashes) (reports : List Report) : Prop :=
  (∀ song user, (after redis reports (ascii "num_" ++ song) user).isSome ↔ (latest reports user).map c_str = some song) ∧
    ∀ key, ¬ascii "num_" <+: key → after redis reports key = redis key

def Right (redis : Hashes) (reports : List Report) : Prop := ∀ calls, calls <+: reports → Exact redis calls

/-- No user ever changes the song. -/
def Steady (reports : List Report) : Prop :=
  ∀ first ∈ reports, ∀ second ∈ reports, c_str first.uid = c_str second.uid → c_str first.songid = c_str second.songid

/-! ### One call -/

section Call
variable {redis : Hashes} {report : Report} {song user : List UInt8}

theorem front_plain : 0 ∉ ascii "num_" := by
  decide

theorem clean (text : List UInt8) : c_str (ascii "num_" ++ c_str text) = ascii "num_" ++ c_str text := by
  refine Storage.c_str_eq fun c member => ?_
  rcases List.mem_append.mp member with front | back
  · exact ne_of_mem_of_not_mem front front_plain
  · exact Storage.c_str_clean text c back

/-- The key of the deletion is that of no listener of the new song or the old one. -/
theorem longer (first second : List UInt8) :
    ascii "num_" ++ first ++ ascii "num_" ++ second ≠ ascii "num_" ++ first ∧
      ascii "num_" ++ first ++ ascii "num_" ++ second ≠ ascii "num_" ++ second := by
  have four : (ascii "num_").length = 4 := rfl
  refine ⟨fun same => ?_,fun same => ?_⟩
  all_goals
    have lengths := congrArg List.length same
    simp only [List.length_append,four] at lengths
    omega

theorem clean_both (first second : List UInt8) :
    c_str (ascii "num_" ++ c_str first ++ ascii "num_" ++ c_str second) =
      ascii "num_" ++ c_str first ++ ascii "num_" ++ c_str second := by
  refine Storage.c_str_eq fun c member => ?_
  rcases List.mem_append.mp member with front | back
  · rcases List.mem_append.mp front with front | middle
    · exact Storage.c_str_clean _ c (clean first ▸ front)
    · exact ne_of_mem_of_not_mem middle front_plain
  · exact Storage.c_str_clean second c back

theorem set_apply (hash_name uid val key : List UInt8) : RedisSetHashElement redis hash_name uid val key user =
    if key = c_str hash_name ∧ user = c_str uid then some (c_str val) else redis key user := by
  rw [RedisSetHashElement,Function.update_apply]
  by_cases here : key = c_str hash_name
  · rw [if_pos here,Function.update_apply,here]
    simp only [true_and]
  · rw [if_neg here,if_neg fun both => here both.1]

theorem del_apply (hash_name uid key : List UInt8) : RedisDelHashElement redis hash_name uid key user =
    if key = c_str hash_name ∧ user = c_str uid then none else redis key user := by
  rw [RedisDelHashElement,Function.update_apply]
  by_cases here : key = c_str hash_name
  · rw [if_pos here,Function.update_apply,here]
    simp only [true_and]
  · rw [if_neg here,if_neg fun both => here both.1]

/-- Of another user nothing is written, and of no other key. -/
theorem call_kept {key : List UInt8} (other : user ≠ c_str report.uid ∨ ¬ascii "num_" <+: key) :
    MgrListenSongsNum redis report key user = redis key user := by
  have set : ¬(key = ascii "num_" ++ c_str report.songid ∧ user = c_str report.uid) := by
    rintro ⟨same,own⟩
    exact other.elim (fun apart => apart own) fun apart => apart (same ▸ List.prefix_append ..)
  have del : ¬(key = ascii "num_" ++ c_str report.songid ++ ascii "num_" ++ c_str report.last_songid ∧ user = c_str report.uid) := by
    rintro ⟨same,own⟩
    refine other.elim (fun apart => apart own) fun apart => apart ?_
    rw [same,List.append_assoc,List.append_assoc]
    exact List.prefix_append ..
  rw [MgrListenSongsNum]
  split
  · rw [del_apply,clean_both,if_neg del,set_apply,clean,if_neg set]
  · rw [set_apply,clean,if_neg set]

/-- The user is a listener of the song. -/
theorem call_song : MgrListenSongsNum redis report (ascii "num_" ++ c_str report.songid) (c_str report.uid) =
    some (c_str report.songid) := by
  have del : ¬(ascii "num_" ++ c_str report.songid = ascii "num_" ++ c_str report.songid ++ ascii "num_" ++ c_str report.last_songid ∧
      c_str report.uid = c_str report.uid) := fun both => (longer ..).1 both.1.symm
  rw [MgrListenSongsNum]
  split
  · rw [del_apply,clean_both,if_neg del,set_apply,clean,if_pos ⟨rfl,rfl⟩]
  · rw [set_apply,clean,if_pos ⟨rfl,rfl⟩]

/-- The hash of another song is as it was, if the deletion does not happen to meet it. -/
theorem call_other (other : song ≠ c_str report.songid)
    (apart : ascii "num_" ++ song ≠ ascii "num_" ++ c_str report.songid ++ ascii "num_" ++ c_str report.last_songid) :
    MgrListenSongsNum redis report (ascii "num_" ++ song) user = redis (ascii "num_" ++ song) user := by
  have set : ¬(ascii "num_" ++ song = ascii "num_" ++ c_str report.songid ∧ user = c_str report.uid) :=
    fun both => other (List.append_cancel_left both.1)
  rw [MgrListenSongsNum]
  split
  · rw [del_apply,clean_both,if_neg fun both => apart both.1,set_apply,clean,if_neg set]
  · rw [set_apply,clean,if_neg set]

/-- Nobody comes to the hash of another song. -/
theorem call_removes (other : song ≠ c_str report.songid) (none_ : redis (ascii "num_" ++ song) user = none) :
    MgrListenSongsNum redis report (ascii "num_" ++ song) user = none := by
  have set : ¬(ascii "num_" ++ song = ascii "num_" ++ c_str report.songid ∧ user = c_str report.uid) :=
    fun both => other (List.append_cancel_left both.1)
  rw [MgrListenSongsNum]
  split
  · rw [del_apply]
    split
    · rfl
    · rw [set_apply,clean,if_neg set,none_]
  · rw [set_apply,clean,if_neg set,none_]

end Call

/-! ### Runs -/

section Runs
variable {redis : Hashes} {reports : List Report} {report : Report}

theorem latest_append (reports : List Report) (report : Report) (user : List UInt8) :
    latest (reports ++ [report]) user = if c_str report.uid = user then some report.songid else latest reports user := by
  rw [latest,List.reverse_append,List.reverse_singleton,List.singleton_append,List.find?_cons]
  by_cases own : c_str report.uid = user
  · rw [if_pos own,decide_eq_true own]
    rfl
  · rw [if_neg own,decide_eq_false own]
    rfl

/-- The last call is one of the user's. -/
theorem latest_mem {user song : List UInt8} (found : latest reports user = some song) :
    ∃ report ∈ reports, c_str report.uid = user ∧ report.songid = song := by
  obtain ⟨report,here,same⟩ := Option.map_eq_some_iff.mp found
  have own := List.find?_some here
  exact ⟨report,List.mem_reverse.mp (List.mem_of_find?_eq_some here),decide_eq_true_iff.mp own,same⟩

theorem latest_some (member : report ∈ reports) : ∃ song, latest reports (c_str report.uid) = some song := by
  cases found : latest reports (c_str report.uid) with
  | some song => exact ⟨song,rfl⟩
  | none =>
    have none_ := List.find?_eq_none.mp (Option.map_eq_none_iff.mp found) report (List.mem_reverse.mpr member)
    exact absurd (decide_eq_true rfl) none_

theorem after_append (redis : Hashes) (reports : List Report) (report : Report) :
    after redis (reports ++ [report]) = MgrListenSongsNum (after redis reports) report := by
  rw [after,List.foldl_append]
  rfl

theorem Exact.start (silent : Silent redis) : Exact redis [] := by
  refine ⟨fun song user => ?_,fun _ _ => rfl⟩
  rw [after,List.foldl_nil,silent song user]
  exact iff_of_false Bool.false_ne_true nofun

/-- A call that keeps the song keeps all exact. -/
theorem Exact.call (exact_ : Exact redis reports)
    (steady : ∀ song, latest reports (c_str report.uid) = some song → c_str song = c_str report.songid) :
    Exact redis (reports ++ [report]) := by
  obtain ⟨listeners,others⟩ := exact_
  refine ⟨fun song user => ?_,fun key other => ?_⟩
  · rw [after_append,latest_append]
    by_cases own : c_str report.uid = user
    · subst own
      rw [if_pos rfl,Option.map_some,Option.some_inj]
      by_cases here : song = c_str report.songid
      · subst here
        rw [call_song]
        exact iff_of_true rfl rfl
      · have absent : after redis reports (ascii "num_" ++ song) (c_str report.uid) = none := by
          rw [← Option.not_isSome_iff_eq_none,listeners song]
          intro before
          obtain ⟨last,found,same⟩ := Option.map_eq_some_iff.mp before
          exact here (same.symm.trans (steady last found))
        rw [call_removes here absent]
        exact iff_of_false Bool.false_ne_true fun same => here same.symm
    · rw [if_neg own,call_kept (.inl fun same => own same.symm)]
      exact listeners song user
  · rw [after_append]
    funext user
    rw [call_kept (.inr other),others key other]

theorem Steady.earlier (steady : Steady reports) {calls : List Report} (begins : calls <+: reports) : Steady calls := by
  intro first one second two
  exact steady first (begins.subset one) second (begins.subset two)

theorem Proper.earlier (proper : Proper reports) {calls : List Report} (begins : calls <+: reports) : Proper calls := by
  obtain ⟨rest,rfl⟩ := begins
  rintro before report later rfl
  refine proper before report (later ++ rest) ?_
  rw [List.append_assoc,List.cons_append]

/-- The listener of a new song stays one of the old. -/
theorem stays (proper : Proper (reports ++ [report])) (exact_ : Exact redis reports) {song : List UInt8}
    (last : latest reports (c_str report.uid) = some song) (changes : c_str song ≠ c_str report.songid) :
    ¬Exact redis (reports ++ [report]) := by
  rintro ⟨listeners,-⟩
  have given := proper reports report [] rfl
  rw [last,Option.getD_some] at given
  have before : (after redis reports (ascii "num_" ++ c_str song) (c_str report.uid)).isSome := by
    rw [exact_.1,last]
    rfl
  have apart : ascii "num_" ++ c_str song ≠ ascii "num_" ++ c_str report.songid ++ ascii "num_" ++ c_str report.last_songid := by
    rw [given]
    exact fun same => (longer ..).2 same.symm
  have kept := @call_other (after redis reports) report (c_str song) (c_str report.uid) changes apart
  rw [← kept,← after_append,listeners,latest_append,if_pos rfl] at before
  exact changes (Option.some.inj before).symm

theorem MgrListenSongsNum_iff (silent : Silent redis) (proper : Proper reports) : Right redis reports ↔ Steady reports := by
  induction reports using List.reverseRecOn with
  | nil =>
    refine iff_of_true (fun calls begins => ?_) (fun _ none_ => absurd none_ List.not_mem_nil)
    rw [List.prefix_nil.mp begins]
    exact .start silent
  | append_singleton reports report ih =>
    have begins := List.prefix_append reports [report]
    have earlier := ih (proper.earlier begins)
    constructor
    · intro right
      have before : Right redis reports := fun calls inside => right calls (inside.trans begins)
      have steady := earlier.mp before
      -- the song of the last call is that of all before
      have own (other : Report) (member : other ∈ reports) (same : c_str other.uid = c_str report.uid) :
          c_str other.songid = c_str report.songid := by
        by_contra changes
        obtain ⟨song,last⟩ := latest_some member
        rw [same] at last
        obtain ⟨found,inside,of_user,of_song⟩ := latest_mem last
        have equal := steady other member found inside (same.trans of_user.symm)
        rw [of_song] at equal
        exact stays proper (before reports (List.prefix_refl _)) last (fun kept => changes (equal.trans kept))
          (right _ (List.prefix_refl _))
      intro first one second two same
      rcases List.mem_append.mp one with one | one <;> rcases List.mem_append.mp two with two | two
      · exact steady first one second two same
      · cases List.mem_singleton.mp two
        exact own first one same
      · cases List.mem_singleton.mp one
        exact (own second two same.symm).symm
      · rw [List.mem_singleton.mp one,List.mem_singleton.mp two]
    · intro steady calls inside
      rcases List.prefix_concat_iff.mp inside with rfl | inside
      · have exact_ := earlier.mpr (steady.earlier begins) reports (List.prefix_refl _)
        refine exact_.call fun song last => ?_
        obtain ⟨found,member,of_user,of_song⟩ := latest_mem last
        rw [← of_song]
        exact steady found (List.mem_append_left _ member) report (List.mem_append_right _ (List.mem_singleton_self _)) of_user
      · exact earlier.mpr (steady.earlier begins) calls inside

end Runs

/-- Two calls of one user. -/
def calls (song : String) : List Report := [⟨ascii "5",ascii "0",ascii "7"⟩,⟨ascii song,ascii "5",ascii "7"⟩]

theorem calls_proper (song : String) : Proper (calls song) := by
  intro before report later parts
  rcases before with _ | ⟨first,_ | ⟨second,before⟩⟩
  · cases parts
    rfl
  · cases parts
    rfl
  · have lengths := congrArg List.length parts
    simp only [calls,List.length_append,List.length_cons,List.length_nil] at lengths
    omega

theorem silent_empty : Silent fun _ _ => none := fun _ _ => rfl

theorem same_song : Right (fun _ _ => none) (calls "5") := by
  refine (MgrListenSongsNum_iff silent_empty (calls_proper "5")).mpr ?_
  intro first one second two _
  have each : ∀ report ∈ calls "5", report.songid = ascii "5" := by
    intro report member
    rcases List.mem_pair.mp member with rfl | rfl <;> rfl
  rw [each first one,each second two]

/-- The user is still in the hash of the song before. -/
theorem changed_song : Proper (calls "6") ∧ ¬Right (fun _ _ => none) (calls "6") := by
  refine ⟨calls_proper "6",fun right => ?_⟩
  have listeners := (right (calls "6") (List.prefix_refl _)).1 (ascii "5") (ascii "7")
  have still : (after (fun _ _ => none) (calls "6") (ascii "num_" ++ ascii "5") (ascii "7")).isSome := by decide
  have song : some (ascii "6") = some (ascii "5") := listeners.mp still
  cases song

end Migfm.Music.Listeners
