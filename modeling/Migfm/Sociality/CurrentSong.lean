import Migfm.Public.BasicInfo
import Mathlib.Data.List.ReduceOption

/-! The songs that users hear and that messages carry, in master/sociality/dic_comm.cc: one
`mget` for all of them, whose answers are dealt out by position. -/
namespace Migfm.Sociality.CurrentSong
open Public Public.Json
open Logic (ascii)

/-- The strings that redis holds. -/
abbrev Redis := List UInt8 → Option (List UInt8)

/-! ### Redis -/

/-- `redisCommand` cuts the command at its spaces. -/
def argv (command : List UInt8) : List (List UInt8) := (command.splitOn 32).filter (· ≠ [])

/-- The items of an `mget`; without a key the answer is an error. -/
def redisCommand (redis : Redis) (command : List UInt8) : Option (List (Option (List UInt8))) :=
  match argv (c_str command) with
  | _::key::keys => some ((key::keys).map redis)
  | _ => none

def mget (songids : List (List UInt8)) : List UInt8 := ascii "mget" ++ songids.flatMap fun songid => 32::c_str songid

/-! ### dic_comm.cc -/

def isMember (name : List UInt8) : Value → Option Bool
  | .null => some false
  | .object members => some (members.lookup name).isSome
  | _ => none

section Reading
variable (codePointToUTF8 : Nat → List UInt8) (sscanf : List UInt8 → Option Float)

/-- No outcome: an accessor throws. A text that is not parsed leaves the record as it is. -/
def UnserializedJson (m : MusicInfo) (str : List UInt8) : Option MusicInfo :=
  match readDocument codePointToUTF8 sscanf (c_str str) with
  | none => some m
  | some _ => MusicInfo.UnserializedJson codePointToUTF8 sscanf (2 * (c_str str).length + 2) str

/-- The song id that a user's text adds to the command, if it does. -/
def songid (text : List UInt8) : Option (Option (List UInt8)) :=
  match readDocument codePointToUTF8 sscanf text with
  | none => some none
  | some root => do
    let member ← isMember (ascii "songid") root
    if member then (root.text (ascii "songid")).map some else some none

def dealUsers : List (List UInt8 × List UInt8) → List (Option (List UInt8)) → Option (List (List UInt8 × MusicInfo))
  | (user,_)::temp_songinfo, item::items => do
    let info ← item.mapM (UnserializedJson codePointToUTF8 sscanf {})
    let songinfo ← dealUsers temp_songinfo items
    return (info.map (user,·)).toList ++ songinfo
  | _, _ => some []

/-- `songinfo` is empty before. -/
def GetMusicInfos (redis : Redis) (temp_songinfo : List (List UInt8 × List UInt8)) : Option (List (List UInt8 × MusicInfo)) := do
  let songids ← temp_songinfo.mapM fun entry => songid codePointToUTF8 sscanf entry.2
  match redisCommand redis (mget songids.reduceOption) with
  | none => return []
  | some items => dealUsers codePointToUTF8 sscanf temp_songinfo items

def dealMessages : List MusicInfo → List (Option (List UInt8)) → Option (List MusicInfo)
  | musicinfo::list, item::items => do
    let musicinfo ← match item with
      | none => some musicinfo
      | some value => UnserializedJson codePointToUTF8 sscanf musicinfo value
    let list ← dealMessages list items
    return musicinfo::list
  | list, _ => some list

/-- Of each message its `musicinfo`. -/
def GetPushMessageMusicinfos (redis : Redis) (list : List MusicInfo) : Option (List MusicInfo) :=
  if list.length = 0 then some list
  else match redisCommand redis (mget (list.map (·.id_))) with
    | none => some list
    | some items => dealMessages codePointToUTF8 sscanf list items

/-! ### What is promised -/

/-- A map from users to texts, in the order of the users. -/
structure UserTexts where
  entries : List (List UInt8 × List UInt8)
  sorted : entries.Pairwise fun entry later => entry.1 < later.1

/-- The record of the song id in the text. -/
def OwnSong (redis : Redis) (text : List UInt8) (info : MusicInfo) : Prop := ∃ id value,
  songid codePointToUTF8 sscanf text = some (some id) ∧ id ≠ [] ∧ redis id = some value ∧
    UnserializedJson codePointToUTF8 sscanf {} value = some info

def UsersRight (redis : Redis) (temp_songinfo : UserTexts) : Prop :=
  ∃ songinfo, GetMusicInfos codePointToUTF8 sscanf redis temp_songinfo.entries = some songinfo ∧
    ∀ entry ∈ songinfo, ∃ text, (entry.1,text) ∈ temp_songinfo.entries ∧ OwnSong codePointToUTF8 sscanf redis text entry.2

/-- Nothing, or the record of its own song id. -/
def Carries (redis : Redis) (musicinfo after : MusicInfo) : Prop := after = musicinfo ∨ ∃ value, c_str musicinfo.id_ ≠ [] ∧
  redis (c_str musicinfo.id_) = some value ∧ UnserializedJson codePointToUTF8 sscanf musicinfo value = some after

def MessagesRight (redis : Redis) (list : List MusicInfo) : Prop :=
  ∃ after, GetPushMessageMusicinfos codePointToUTF8 sscanf redis list = some after ∧
    List.Forall₂ (Carries codePointToUTF8 sscanf redis) list after

/-- The song ids of the texts that have one, cut at their spaces. -/
def userKeys (temp_songinfo : UserTexts) : List (List UInt8) :=
  (temp_songinfo.entries.filterMap fun entry => (songid codePointToUTF8 sscanf entry.2).join).flatMap argv

/-- No text throws, and where redis knows the key at a position, its record is that of the song id of
the user at this position. -/
def UsersFit (redis : Redis) (temp_songinfo : UserTexts) : Prop :=
  (∀ entry ∈ temp_songinfo.entries, songid codePointToUTF8 sscanf entry.2 ≠ none) ∧
    ∀ pair ∈ temp_songinfo.entries.zip (userKeys codePointToUTF8 sscanf temp_songinfo), ∀ value, redis pair.2 = some value →
      ∃ info, UnserializedJson codePointToUTF8 sscanf {} value = some info ∧ OwnSong codePointToUTF8 sscanf redis pair.1.2 info

def messageKeys (list : List MusicInfo) : List (List UInt8) := list.flatMap fun musicinfo => argv (c_str musicinfo.id_)

/-- Where redis knows the key at a position, its record is that of the song id of the message at this position, or changes nothing. -/
def MessagesFit (redis : Redis) (list : List MusicInfo) : Prop :=
  ∀ pair ∈ list.zip (messageKeys list), ∀ value, redis pair.2 = some value →
    ∃ after, UnserializedJson codePointToUTF8 sscanf pair.1 value = some after ∧ Carries codePointToUTF8 sscanf redis pair.1 after

end Reading

/-! ### The command -/

theorem argv_space (first second : List UInt8) : argv (first ++ 32::second) = argv first ++ argv second := by
  rw [argv,argv,argv,List.splitOn_append_cons_self,List.filter_append]

theorem argv_mget (songids : List (List UInt8)) :
    argv (mget songids) = ascii "mget" :: songids.flatMap fun songid => argv (c_str songid) := by
  have word : argv (ascii "mget") = [ascii "mget"] := rfl
  have along (front : List UInt8) : argv (front ++ songids.flatMap fun songid => 32::c_str songid) =
      argv front ++ songids.flatMap fun songid => argv (c_str songid) := by
    induction songids generalizing front with
    | nil => simp
    | cons songid songids ih =>
      rw [List.flatMap_cons,List.flatMap_cons,← List.append_assoc,ih,argv_space,List.append_assoc]
  rw [mget,along,word,List.singleton_append]

theorem c_str_mget (songids : List (List UInt8)) : c_str (mget songids) = mget songids := by
  apply c_str_nonzero
  simp only [mget,List.mem_append,List.mem_flatMap,List.mem_cons,not_or,not_exists,not_and]
  exact ⟨by decide,fun songid _ => ⟨by decide,c_str_zero songid⟩⟩

theorem redisCommand_mget (redis : Redis) (songids : List (List UInt8)) :
    redisCommand redis (mget songids) =
      match songids.flatMap fun songid => argv (c_str songid) with
      | [] => none
      | key::keys => some ((key::keys).map redis) := by
  rw [redisCommand,c_str_mget,argv_mget]
  cases songids.flatMap fun songid => argv (c_str songid) <;> rfl

/-! ### Dealing -/

section Dealing
variable {codePointToUTF8 : Nat → List UInt8} {sscanf : List UInt8 → Option Float} {redis : Redis}

/-- By position: what each user gets depends on the key there. -/
theorem dealUsers_iff (Good : List UInt8 → MusicInfo → Prop) (users : List (List UInt8 × List UInt8)) (keys : List (List UInt8)) :
    (∃ songinfo, dealUsers codePointToUTF8 sscanf users (keys.map redis) = some songinfo ∧ ∀ entry ∈ songinfo, Good entry.1 entry.2) ↔
      ∀ pair ∈ users.zip keys, ∀ value, redis pair.2 = some value →
        ∃ info, UnserializedJson codePointToUTF8 sscanf {} value = some info ∧ Good pair.1.1 info := by
  induction users generalizing keys with
  | nil => simp [dealUsers]
  | cons user users ih =>
    cases keys with
    | nil => simp [dealUsers]
    | cons key keys =>
      rw [List.zip_cons_cons,List.forall_mem_cons,← ih keys,List.map_cons,dealUsers]
      cases known : redis key with
      | none => simp
      | some value =>
        cases read : UnserializedJson codePointToUTF8 sscanf {} value with
        | none => simp [read]
        | some info =>
          cases rest : dealUsers codePointToUTF8 sscanf users (keys.map redis) with
          | none => simp [read]
          | some songinfo => simp [read,or_imp,forall_and]

theorem carries_same (list : List MusicInfo) : List.Forall₂ (Carries codePointToUTF8 sscanf redis) list list :=
  List.forall₂_same.mpr fun _ _ => .inl rfl

theorem dealMessages_cons (musicinfo : MusicInfo) (list : List MusicInfo) (item : Option (List UInt8)) (items : List (Option (List UInt8))) :
    dealMessages codePointToUTF8 sscanf (musicinfo::list) (item::items) =
      (match item with
        | none => some musicinfo
        | some value => UnserializedJson codePointToUTF8 sscanf musicinfo value).bind fun musicinfo =>
          (dealMessages codePointToUTF8 sscanf list items).bind fun list => some (musicinfo::list) := by
  cases item <;> rfl

theorem dealMessages_iff (list : List MusicInfo) (keys : List (List UInt8)) :
    (∃ after, dealMessages codePointToUTF8 sscanf list (keys.map redis) = some after ∧
      List.Forall₂ (Carries codePointToUTF8 sscanf redis) list after) ↔
      ∀ pair ∈ list.zip keys, ∀ value, redis pair.2 = some value →
        ∃ after, UnserializedJson codePointToUTF8 sscanf pair.1 value = some after ∧ Carries codePointToUTF8 sscanf redis pair.1 after := by
  induction list generalizing keys with
  | nil => simp [dealMessages]
  | cons musicinfo list ih =>
    cases keys with
    | nil => simpa [dealMessages] using carries_same (musicinfo::list)
    | cons key keys =>
      rw [List.zip_cons_cons,List.forall_mem_cons,← ih keys,List.map_cons,dealMessages_cons]
      cases known : redis key with
      | none =>
        have unchanged : Carries codePointToUTF8 sscanf redis musicinfo musicinfo := .inl rfl
        cases rest : dealMessages codePointToUTF8 sscanf list (keys.map redis) with
        | none => simp
        | some after => simp [unchanged]
      | some value =>
        cases read : UnserializedJson codePointToUTF8 sscanf musicinfo value with
        | none => simp [read]
        | some info =>
          cases rest : dealMessages codePointToUTF8 sscanf list (keys.map redis) with
          | none => simp
          | some after => simp [read]

end Dealing

/-! ### The join -/

section Joined
variable (codePointToUTF8 : Nat → List UInt8) (sscanf : List UInt8 → Option Float) (redis : Redis)

theorem messages_right_iff (list : List MusicInfo) :
    MessagesRight codePointToUTF8 sscanf redis list ↔ MessagesFit codePointToUTF8 sscanf redis list := by
  have command := redisCommand_mget redis (list.map (·.id_))
  rw [List.flatMap_map] at command
  change _ = match messageKeys list with | [] => _ | key::keys => _ at command
  rw [MessagesRight,MessagesFit,GetPushMessageMusicinfos,command]
  cases keys : messageKeys list with
  | nil => simpa using carries_same list
  | cons key rest =>
    have some_ : ¬list.length = 0 := by
      intro empty
      rw [List.length_eq_zero_iff.mp empty] at keys
      cases keys
    rw [if_neg some_]
    exact dealMessages_iff list (key::rest)

theorem songid_nonzero {text id : List UInt8} (known : songid codePointToUTF8 sscanf text = some (some id)) : c_str id = id := by
  rw [songid] at known
  split at known
  · cases known
  · simp only [Option.bind_eq_bind,Option.bind_eq_some_iff] at known
    obtain ⟨member,-,known⟩ := known
    split at known
    · obtain ⟨id,read,same⟩ := Option.map_eq_some_iff.mp known
      cases same
      exact c_str_nonzero (text_nonzero read)
    · cases known

/-- The song ids of the command, if no text throws. -/
theorem songids_some {entries : List (List UInt8 × List UInt8)} (calm : ∀ entry ∈ entries, songid codePointToUTF8 sscanf entry.2 ≠ none) :
    ∃ songids, (entries.mapM fun entry => songid codePointToUTF8 sscanf entry.2) = some songids ∧
      (songids.reduceOption.flatMap fun id => argv (c_str id)) =
        (entries.filterMap fun entry => (songid codePointToUTF8 sscanf entry.2).join).flatMap argv := by
  induction entries with
  | nil => exact ⟨[],rfl,rfl⟩
  | cons entry entries ih =>
    obtain ⟨first,calm⟩ := List.forall_mem_cons.mp calm
    obtain ⟨songids,rest,keys⟩ := ih calm
    obtain ⟨found,known⟩ := Option.ne_none_iff_exists'.mp first
    refine ⟨found::songids,by simp [List.mapM_cons,known,rest],?_⟩
    cases found with
    | none =>
      rw [List.reduceOption_cons_of_none,keys,List.filterMap_cons_none (by rw [known]; rfl)]
    | some id =>
      rw [List.reduceOption_cons_of_some,List.flatMap_cons,keys,List.filterMap_cons_some (by rw [known]; rfl),List.flatMap_cons,
        songid_nonzero codePointToUTF8 sscanf known]

theorem songids_none {entries : List (List UInt8 × List UInt8)} {entry : List UInt8 × List UInt8} (listed : entry ∈ entries)
    (throws : songid codePointToUTF8 sscanf entry.2 = none) : (entries.mapM fun entry => songid codePointToUTF8 sscanf entry.2) = none := by
  induction entries with
  | nil => cases listed
  | cons first entries ih =>
    rw [List.mapM_cons]
    rcases List.mem_cons.mp listed with rfl | later
    · simp [throws]
    · simp [ih later]

theorem UserTexts.unique (temp_songinfo : UserTexts) {user first second : List UInt8} (one : (user,first) ∈ temp_songinfo.entries)
    (two : (user,second) ∈ temp_songinfo.entries) : first = second := by
  have distinct : (temp_songinfo.entries.map Prod.fst).Nodup := by
    rw [List.Nodup,List.pairwise_map]
    apply temp_songinfo.sorted.imp
    intro entry later before same
    rw [same] at before
    exact List.lt_irrefl _ before
  have same := List.inj_on_of_nodup_map distinct one two rfl
  exact congrArg Prod.snd same

theorem users_right_iff (temp_songinfo : UserTexts) :
    UsersRight codePointToUTF8 sscanf redis temp_songinfo ↔ UsersFit codePointToUTF8 sscanf redis temp_songinfo := by
  by_cases calm : ∀ entry ∈ temp_songinfo.entries, songid codePointToUTF8 sscanf entry.2 ≠ none
  · obtain ⟨songids,outcome,keys⟩ := songids_some codePointToUTF8 sscanf calm
    change _ = userKeys codePointToUTF8 sscanf temp_songinfo at keys
    have dealt := @dealUsers_iff codePointToUTF8 sscanf redis
      (fun user info => ∃ text, (user,text) ∈ temp_songinfo.entries ∧ OwnSong codePointToUTF8 sscanf redis text info)
      temp_songinfo.entries (userKeys codePointToUTF8 sscanf temp_songinfo)
    have command := redisCommand_mget redis songids.reduceOption
    rw [keys] at command
    have own : ∀ pair ∈ temp_songinfo.entries.zip (userKeys codePointToUTF8 sscanf temp_songinfo), ∀ info,
        (∃ text, (pair.1.1,text) ∈ temp_songinfo.entries ∧ OwnSong codePointToUTF8 sscanf redis text info) ↔
          OwnSong codePointToUTF8 sscanf redis pair.1.2 info := by
      intro pair listed info
      have inside : (pair.1.1,pair.1.2) ∈ temp_songinfo.entries := (List.of_mem_zip listed).1
      constructor
      · rintro ⟨text,also,own⟩
        rw [temp_songinfo.unique inside also]
        exact own
      · intro own
        exact ⟨_,inside,own⟩
    have positions := dealt.trans (forall₂_congr fun pair listed => forall₂_congr fun value _ =>
      exists_congr fun info => and_congr_right fun _ => own pair listed info)
    rw [UsersRight,UsersFit,GetMusicInfos,outcome,Option.bind_eq_bind,Option.bind_some,command,and_iff_right calm,← positions]
    cases userKeys codePointToUTF8 sscanf temp_songinfo with
    | nil => cases temp_songinfo.entries <;> simp [dealUsers]
    | cons key rest => exact Iff.rfl
  · apply iff_of_false _ (fun both => calm both.1)
    push Not at calm
    obtain ⟨entry,listed,throws⟩ := calm
    rintro ⟨songinfo,outcome,_⟩
    rw [GetMusicInfos,songids_none codePointToUTF8 sscanf listed throws] at outcome
    cases outcome

theorem joined_iff :
    (∀ temp_songinfo, UsersRight codePointToUTF8 sscanf redis temp_songinfo ↔ UsersFit codePointToUTF8 sscanf redis temp_songinfo) ∧
      ∀ list, MessagesRight codePointToUTF8 sscanf redis list ↔ MessagesFit codePointToUTF8 sscanf redis list :=
  ⟨users_right_iff codePointToUTF8 sscanf redis,messages_right_iff codePointToUTF8 sscanf redis⟩

end Joined

def song : MusicInfo := { id_ := ascii "7" }

def listener : List Field := [field "songid" (ascii "7")]

theorem songid_listener : songid Logic.WriteUTF8 (fun _ => none) (record listener) = some (some (ascii "7")) := by
  have names : ∀ field ∈ listener, Name field.1 := names_of ["songid"] rfl rfl
  have plain : ∀ field ∈ listener, Plain field.2 := by
    intro field listed
    rw [List.mem_singleton.mp listed]
    exact (Clean.of_all rfl).plain
  have document : readDocument Logic.WriteUTF8 (fun _ => none) (record listener) =
      some (.object (listener.map fun field => (field.1,.string field.2)).reverse) :=
    parse_record names plain (List.cons_ne_nil _ _) (length_lt_record listener)
  rw [songid,document]
  rfl

/-- The first user's text is no document; the second user's song is dealt to the first. -/
theorem not_joined : ¬∀ (redis : Redis) (temp_songinfo : UserTexts) (list : List MusicInfo),
    UsersRight Logic.WriteUTF8 (fun _ => none) redis temp_songinfo ∧ MessagesRight Logic.WriteUTF8 (fun _ => none) redis list := by
  intro right
  let users : UserTexts := ⟨[([97],[]),([98],record listener)],by decide⟩
  have fit := (users_right_iff _ _ _ users).mp (right (fun _ => some song.SerializedJson) users []).1
  have unread : songid Logic.WriteUTF8 (fun _ => none) [] = some none := by
    have ended : readToken [] = (.endOfStream,[]) := rfl
    have document : readDocument Logic.WriteUTF8 (fun _ => none) [] = none := by
      rw [readDocument,parse,List.length_nil,readValue,skipCommentTokens_of ended (by simp)]
      rfl
    rw [songid,document]
  have keys : userKeys Logic.WriteUTF8 (fun _ => none) users = [ascii "7"] := by
    rw [userKeys,List.filterMap_cons_none (by rw [unread]; rfl),List.filterMap_cons_some (by rw [songid_listener]; rfl)]
    rfl
  have first : (([97],[]),ascii "7") ∈ users.entries.zip (userKeys Logic.WriteUTF8 (fun _ => none) users) := by
    rw [keys]
    exact List.mem_cons_self
  obtain ⟨info,_,id,_,own,_⟩ := fit.2 _ first _ rfl
  rw [unread] at own
  cases own

end Migfm.Sociality.CurrentSong
