import Migfm.Storage.Readers

/-! `OnMsgPublicLbs` of master/lbs/lbs_logic.cc: the users near a place, and those who like the same music. What
the database and redis answer is a parameter, and so is what a user's entry holds beside the id. -/
namespace Migfm.Lbs
open Logic (ascii atoll decimal)
open Storage (c_str)

abbrev Packet := String → Option (List UInt8)

/-- An entry of a list of users, with the text of the user's id. -/
structure User (Fields : Type) where
  userid : List UInt8
  fields : Fields

/-- The number that the text denotes. -/
def User.id {Fields : Type} (user : User Fields) : Int64 := atoll (c_str user.userid)

/-- A song that is read: whether there is one, the entry with it, and whether the requester likes it. -/
structure Current (Fields : Type) where
  found : Bool
  fields : Fields
  is_user_like : Bool

/-- The ids are integers in the database. -/
structure World (Place Collected Fields : Type) where
  /-- the rows near the two coordinates, as many as the page has; the engine may refuse -/
  GetUserInfosLBS : List (List UInt8) → Int32 → Option (List (Int64 × Place))
  GetUserInfo : List UInt8 → Place → Option Fields
  GetUserCurrentSong : List (List UInt8) → List UInt8 → Option (List UInt8)
  GetCollectSongs : List UInt8 → Collected
  collected : Collected → Nat
  GetUserCurrentMusic : List UInt8 → List UInt8 → Fields → Option Collected → Current Fields
  GetSameMusic : Int64 → List (List UInt8) → List (Int64 × Fields)
  /-- the song of a user with the same music -/
  sameMusic : List UInt8 → List UInt8 → Fields → Fields
  GetMusicFriendNum : List UInt8 → List UInt8
  GetMsgCount : List UInt8 → Int32
  GetNewMsgNum : List UInt8 → Int32

inductive Result (Fields : Type)
  | none
  | empty
  | fri (fri_num : Int32) (music_num near_num : Nat) (msg_num new_msg_num : Int32)
  | collect (mynum nearnum : Nat)
  | nearUser (users : List (User Fields))

/-- What is returned, with the reference parameters. -/
structure Answer (Fields : Type) where
  returned : Bool
  result : Result Fields
  status : Int32
  msg : String

/-- The pieces between the commas that are not empty. -/
def SplitStringChr (str : List UInt8) : List (List UInt8) := ((c_str str).splitOn 44).filter (· ≠ [])

def atoi (text : List UInt8) : Int32 := (atoll (c_str text)).toInt32

def default_content : List UInt8 :=
  "\x7b\"songid\":\"0\",\"state\":\"1\",\"type\":\"mm\",\"tid\":\"1\",\"name\":\"黑梦\",\"singer\":\"窦唯\"\x7d".toUTF8.toList

section Run
variable {Place Collected Fields : Type} (w : World Place Collected Fields)

/-- The loop over the users near, with `mapExist` the texts that it has seen. -/
def near_users (uid : Int64) : List (List UInt8 × Place) → List (List UInt8) → List (User Fields)
  | [],_ => []
  | (uid_str,location)::items,mapExist =>
    if uid_str = [] then near_users uid items mapExist
    else if uid = atoll (c_str uid_str) then near_users uid items mapExist
    else if mapExist.contains uid_str then near_users uid items mapExist
    else match w.GetUserInfo uid_str location with
      | none => near_users uid items (uid_str::mapExist)
      | some fields => ⟨uid_str,fields⟩::near_users uid items (uid_str::mapExist)

/-- The loop over the entries with the songs: `samemusers` and `usersmusic`. -/
def songs (flag : Int32) (map_songs : List UInt8 → Option (List UInt8)) (collect_musices : Collected) :
    List (User Fields) → List (User Fields) × List (User Fields)
  | [] => ([],[])
  | item::temp_users =>
    let (samemusers,usersmusic) := songs flag map_songs collect_musices temp_users
    match map_songs item.userid with
    | some content =>
      let music := w.GetUserCurrentMusic content item.userid item.fields
        (if flag = 2 ∨ flag = 3 then some collect_musices else none)
      if music.found then
        if flag = 2 then
          if music.is_user_like then (⟨item.userid,music.fields⟩::samemusers,usersmusic) else (samemusers,usersmusic)
        else (samemusers,⟨item.userid,music.fields⟩::usersmusic)
      else (samemusers,usersmusic)
    | none =>
      if flag = 1 then
        let music := w.GetUserCurrentMusic default_content item.userid item.fields none
        if music.found then (samemusers,⟨item.userid,music.fields⟩::usersmusic) else (samemusers,usersmusic)
      else (samemusers,usersmusic)

def AddSameMusicUsers (str_uid : List UInt8) : List (User Fields) → List (User Fields) → List (User Fields)
  | [],user_music => user_music
  | item::same_music_users,user_music =>
    if str_uid ≠ item.userid then
      if (user_music.map User.userid).contains item.userid then AddSameMusicUsers str_uid same_music_users user_music
      else AddSameMusicUsers str_uid same_music_users
        (user_music ++ [⟨item.userid,w.sameMusic item.userid str_uid item.fields⟩])
    else AddSameMusicUsers str_uid same_music_users user_music

/-- The request that passes the checks, or the text of the error. -/
structure Request where
  uid_str : List UInt8
  location_pair : List (List UInt8)
  page_size : Int32

def Request.uid (request : Request) : Int64 := atoll (c_str request.uid_str)

def accept (packet : Packet) : Except String Request :=
  match packet "uid" with
  | none => .error "uid未指定"
  | some uid_str =>
    match packet "location" with
    | none => .error "location未指定"
    | some location_str =>
      let page_size_str := (packet "page_size").getD (ascii "10")
      let page_size_str := if atoll (c_str page_size_str) ≤ 0 then ascii "10" else page_size_str
      if atoll (c_str uid_str) = 0 then .error "无效uid"
      else if (SplitStringChr location_str).length ≠ 2 then .error "location参数格式错误"
      else .ok ⟨uid_str,SplitStringChr location_str,atoi page_size_str⟩

/-- The rows, as text. -/
def items (rows : List (Int64 × Place)) : List (List UInt8 × Place) := rows.map fun (id,location) => (decimal id.toInt,location)

def same_music (request : Request) : List (User Fields) :=
  (w.GetSameMusic request.uid request.location_pair).map fun (id,fields) => ⟨decimal id.toInt,fields⟩

def build (request : Request) (flag : Int32) (rows : List (Int64 × Place)) : Result Fields :=
  let temp_users := near_users w request.uid (items rows) []
  let map_songs := if temp_users = [] then fun _ => Option.none else w.GetUserCurrentSong (temp_users.map User.userid)
  let collect_musices := w.GetCollectSongs request.uid_str
  let (samemusers,usersmusic) := songs w flag map_songs collect_musices temp_users
  let samemusers :=
    if flag = 2 ∨ flag = 3 then AddSameMusicUsers w request.uid_str (same_music w request) samemusers else samemusers
  if flag = 3 then
    .fri (atoi (w.GetMusicFriendNum request.uid_str)) samemusers.length usersmusic.length (w.GetMsgCount request.uid_str)
      (w.GetNewMsgNum request.uid_str)
  else if flag = 5 then .collect (w.collected collect_musices) usersmusic.length
  else if flag = 2 then .nearUser samemusers
  else .nearUser usersmusic

def OnMsgPublicLbs (packet : Packet) (flag : Int32) : Answer Fields :=
  match accept packet with
  | .error msg => ⟨false,.none,0,msg⟩
  | .ok request =>
    match w.GetUserInfosLBS request.location_pair request.page_size with
    | none => ⟨false,.none,0,""⟩
    | some [] => ⟨true,.empty,1,"周围没有用户"⟩
    | some rows => ⟨true,build w request flag rows,1,""⟩

/-- A list of users has no user twice and not the requester. -/
def Apart (uid : Int64) (users : List (User Fields)) : Prop := (users.map User.id).Nodup ∧ uid ∉ users.map User.id

def Right (packet : Packet) (flag : Int32) : Prop :=
  ∀ uid_str users, packet "uid" = some uid_str → (OnMsgPublicLbs w packet flag).result = .nearUser users →
    Apart (atoll (c_str uid_str)) users

/-- The text is the one of the number, or the number has not the same music. -/
def Spared (packet : Packet) (flag : Int32) : Prop :=
  ∀ request rows, accept packet = .ok request → w.GetUserInfosLBS request.location_pair request.page_size = some rows →
    rows ≠ [] → flag = 2 → request.uid_str = decimal request.uid.toInt ∨
      request.uid ∉ (w.GetSameMusic request.uid request.location_pair).map Prod.fst

/-! ### Texts and numbers -/

theorem atoll_id (id : Int64) : atoll (c_str (decimal id.toInt)) = id := by
  rw [Storage.c_str_decimal,Storage.atoll_decimal id.le_toInt id.toInt_lt,Int64.ofInt_toInt]

/-- The texts are those of numbers, as the database gives them. -/
def Texts (texts : List (List UInt8)) : Prop := texts.Nodup ∧ ∀ text ∈ texts, ∃ id : Int64, text = decimal id.toInt

theorem ids_texts (users : List (User Fields)) :
    users.map User.id = (users.map User.userid).map fun text => atoll (c_str text) := by
  rw [List.map_map]
  rfl

theorem Texts.apart {users : List (User Fields)} (texts : Texts (users.map User.userid)) (uid : Int64) :
    Apart uid users ↔ decimal uid.toInt ∉ users.map User.userid := by
  obtain ⟨nodup,decimals⟩ := texts
  rw [Apart,ids_texts]
  have once : ((users.map User.userid).map fun text => atoll (c_str text)).Nodup := by
    apply nodup.map_on
    intro first member second other same
    obtain ⟨id,rfl⟩ := decimals first member
    obtain ⟨number,rfl⟩ := decimals second other
    rw [atoll_id,atoll_id] at same
    rw [same]
  have member : uid ∈ ((users.map User.userid).map fun text => atoll (c_str text)) ↔ decimal uid.toInt ∈ users.map User.userid := by
    constructor
    · intro member
      obtain ⟨text,listed,same⟩ := List.mem_map.mp member
      obtain ⟨id,rfl⟩ := decimals text listed
      rw [atoll_id] at same
      rw [← same]
      exact listed
    · intro listed
      exact List.mem_map.mpr ⟨_,listed,atoll_id uid⟩
  rw [member]
  exact and_iff_right once

theorem Texts.sublist {texts others : List (List UInt8)} (sub : others.Sublist texts) (all : Texts texts) : Texts others :=
  ⟨all.1.sublist sub,fun text member => all.2 text (sub.subset member)⟩

/-! ### The users near -/

theorem near_users_new (uid : Int64) (rows : List (Int64 × Place)) (mapExist : List (List UInt8)) :
    Texts ((near_users w uid (items rows) mapExist).map User.userid) ∧
      (∀ text ∈ (near_users w uid (items rows) mapExist).map User.userid, text ∉ mapExist ∧ text ≠ decimal uid.toInt) := by
  induction rows generalizing mapExist with
  | nil => exact ⟨⟨List.nodup_nil,fun text member => absurd member List.not_mem_nil⟩,fun text member => absurd member List.not_mem_nil⟩
  | cons row rows ih =>
    obtain ⟨id,place⟩ := row
    rw [items,List.map_cons,← items]
    rw [near_users,if_neg (Storage.decimal_ne_nil _),atoll_id]
    split
    · exact ih mapExist
    · rename_i other
      split
      · exact ih mapExist
      · rename_i fresh
        have unseen : decimal id.toInt ∉ mapExist := fun member => fresh (List.contains_iff_mem.mpr member)
        have later := ih (decimal id.toInt::mapExist)
        have rest (text : List UInt8) (member : text ∈ (near_users w uid (items rows) (decimal id.toInt::mapExist)).map User.userid) :
            text ∉ mapExist ∧ text ≠ decimal uid.toInt :=
          ⟨fun seen => (later.2 text member).1 (List.mem_cons_of_mem _ seen),(later.2 text member).2⟩
        split
        · exact ⟨later.1,rest⟩
        · rw [List.map_cons]
          refine ⟨⟨List.nodup_cons.mpr ⟨fun again => (later.2 _ again).1 List.mem_cons_self,later.1.1⟩,?_⟩,?_⟩
          · intro text member
            rcases List.mem_cons.mp member with rfl | member
            · exact ⟨id,rfl⟩
            · exact later.1.2 text member
          · intro text member
            rcases List.mem_cons.mp member with rfl | member
            · refine ⟨unseen,fun same => other ?_⟩
              have numbers := congrArg (fun text => atoll (c_str text)) same
              dsimp only at numbers
              rw [atoll_id,atoll_id] at numbers
              exact numbers.symm
            · exact rest text member

/-! ### Their songs -/

theorem songs_sublist (flag : Int32) (map_songs : List UInt8 → Option (List UInt8)) (collect_musices : Collected)
    (temp_users : List (User Fields)) :
    ((songs w flag map_songs collect_musices temp_users).1.map User.userid).Sublist (temp_users.map User.userid) ∧
      ((songs w flag map_songs collect_musices temp_users).2.map User.userid).Sublist (temp_users.map User.userid) := by
  induction temp_users with
  | nil => exact ⟨List.Sublist.refl _,List.Sublist.refl _⟩
  | cons item temp_users ih =>
    have left := ih.1.cons item.userid
    have right := ih.2.cons item.userid
    rw [songs]
    cases map_songs item.userid with
    | some content =>
      dsimp only
      generalize w.GetUserCurrentMusic content item.userid item.fields
        (if flag = 2 ∨ flag = 3 then some collect_musices else none) = music
      split
      · split
        · split
          · exact ⟨ih.1.cons_cons item.userid,right⟩
          · exact ⟨left,right⟩
        · exact ⟨left,ih.2.cons_cons item.userid⟩
      · exact ⟨left,right⟩
    | none =>
      dsimp only
      split
      · split
        · exact ⟨left,ih.2.cons_cons item.userid⟩
        · exact ⟨left,right⟩
      · exact ⟨left,right⟩

/-! ### The users with the same music -/

theorem AddSameMusicUsers_nodup (str_uid : List UInt8) (same_music_users user_music : List (User Fields))
    (nodup : (user_music.map User.userid).Nodup) :
    ((AddSameMusicUsers w str_uid same_music_users user_music).map User.userid).Nodup := by
  induction same_music_users generalizing user_music with
  | nil => exact nodup
  | cons item same_music_users ih =>
    rw [AddSameMusicUsers]
    split
    · split
      · exact ih user_music nodup
      · rename_i new
        apply ih
        rw [List.map_append,List.map_singleton,List.nodup_append_comm,List.singleton_append,List.nodup_cons]
        exact ⟨fun member => new (List.contains_iff_mem.mpr member),nodup⟩
    · exact ih user_music nodup

theorem mem_AddSameMusicUsers (str_uid text : List UInt8) (same_music_users user_music : List (User Fields)) :
    text ∈ (AddSameMusicUsers w str_uid same_music_users user_music).map User.userid ↔
      text ∈ user_music.map User.userid ∨ (text ∈ same_music_users.map User.userid ∧ text ≠ str_uid) := by
  induction same_music_users generalizing user_music with
  | nil => simp [AddSameMusicUsers]
  | cons item same_music_users ih =>
    rw [AddSameMusicUsers,List.map_cons,List.mem_cons]
    split
    · split
      · rw [ih]
        grind
      · rw [ih,List.map_append,List.map_singleton,List.mem_append,List.mem_singleton]
        grind
    · rw [ih]
      grind

/-! ### The answer -/

theorem same_music_texts (request : Request) :
    (same_music w request).map User.userid =
      (w.GetSameMusic request.uid request.location_pair).map fun row => decimal row.1.toInt := by
  rw [same_music,List.map_map]
  rfl

theorem mem_same_music (request : Request) :
    decimal request.uid.toInt ∈ (same_music w request).map User.userid ↔
      request.uid ∈ (w.GetSameMusic request.uid request.location_pair).map Prod.fst := by
  rw [same_music_texts,List.mem_map,List.mem_map]
  constructor
  · intro ⟨row,listed,same⟩
    refine ⟨row,listed,?_⟩
    rw [← atoll_id row.1,same,atoll_id]
  · intro ⟨row,listed,same⟩
    exact ⟨row,listed,by rw [same]⟩

/-- The list is there for the flags other than 3 and 5. -/
theorem build_apart (request : Request) (flag : Int32) (rows : List (Int64 × Place)) :
    (∀ users, build w request flag rows = .nearUser users → Apart request.uid users) ↔
      (flag = 2 → request.uid_str = decimal request.uid.toInt ∨
        request.uid ∉ (w.GetSameMusic request.uid request.location_pair).map Prod.fst) := by
  obtain ⟨texts,others⟩ := near_users_new w request.uid rows []
  rw [build]
  dsimp only
  generalize near_users w request.uid (items rows) [] = temp_users at *
  generalize (if temp_users = [] then fun _ => Option.none else w.GetUserCurrentSong (temp_users.map User.userid)) = map_songs
  obtain ⟨like,heard⟩ := songs_sublist w flag map_songs (w.GetCollectSongs request.uid_str) temp_users
  generalize songs w flag map_songs (w.GetCollectSongs request.uid_str) temp_users = music at *
  by_cases same : flag = 2
  · subst same
    have near : decimal request.uid.toInt ∉ music.1.map User.userid := fun member => (others _ (like.subset member)).2 rfl
    have all : Texts ((AddSameMusicUsers w request.uid_str (same_music w request) music.1).map User.userid) := by
      refine ⟨AddSameMusicUsers_nodup w _ _ _ (texts.sublist like).1,fun text member => ?_⟩
      rcases (mem_AddSameMusicUsers w _ _ _ _).mp member with member | ⟨member,-⟩
      · exact (texts.sublist like).2 text member
      · rw [same_music_texts] at member
        obtain ⟨row,-,same⟩ := List.mem_map.mp member
        exact ⟨row.1,same.symm⟩
    have exact_ := all.apart request.uid
    rw [mem_AddSameMusicUsers,or_iff_right near,mem_same_music,not_and_or,Classical.not_not,or_comm,eq_comm] at exact_
    have three : ¬(2 : Int32) = 3 := by decide
    have five : ¬(2 : Int32) = 5 := by decide
    simp only [if_neg three,if_neg five,reduceIte,true_or,forall_const,Result.nearUser.injEq,forall_eq']
    exact exact_
  · have shown (users : List (User Fields)) (result : Result.nearUser music.2 = .nearUser users) : Apart request.uid users := by
      cases result
      rw [(texts.sublist heard).apart]
      exact fun member => (others _ (heard.subset member)).2 rfl
    refine iff_of_true ?_ (fun two => absurd two same)
    intro users result
    rw [if_neg same] at result
    split at result
    · cases result
    · split at result
      · cases result
      · exact shown users result

theorem accept_uid {packet : Packet} {request : Request} (accepted : accept packet = .ok request) :
    packet "uid" = some request.uid_str := by
  rw [accept] at accepted
  cases uid : packet "uid" with
  | none =>
    rw [uid] at accepted
    cases accepted
  | some uid_str =>
    rw [uid] at accepted
    dsimp only at accepted
    cases location : packet "location" with
    | none =>
      rw [location] at accepted
      cases accepted
    | some location_str =>
      rw [location] at accepted
      dsimp only at accepted
      split at accepted
      · cases accepted
      · split at accepted
        · cases accepted
        · cases accepted
          rfl

theorem OnMsgPublicLbs_apart (packet : Packet) (flag : Int32) : Right w packet flag ↔ Spared w packet flag := by
  rw [Right,Spared,OnMsgPublicLbs]
  cases accepted : accept packet with
  | error msg =>
    refine iff_of_true (fun uid_str users _ result => ?_) (fun request rows other => ?_)
    · cases result
    · cases other
  | ok request =>
    have uid := accept_uid accepted
    dsimp only
    cases near : w.GetUserInfosLBS request.location_pair request.page_size with
    | none =>
      refine iff_of_true (fun uid_str users _ result => ?_) (fun other rows same found => ?_)
      · cases result
      · cases same
        rw [near] at found
        cases found
    | some rows =>
      cases rows with
      | nil =>
        refine iff_of_true (fun uid_str users _ result => ?_) (fun other rows same found some_ => ?_)
        · cases result
        · cases same
          rw [near] at found
          cases found
          exact absurd rfl some_
      | cons row rows =>
        dsimp only
        constructor
        · intro right other listed same found some_
          cases same
          rw [near] at found
          cases found
          exact (build_apart w request flag (row::rows)).mp fun users result => right _ users uid result
        · intro spared uid_str users named result
          rw [uid] at named
          cases named
          exact (build_apart w request flag (row::rows)).mpr
            (spared request (row::rows) rfl near (List.cons_ne_nil _ _)) users result

end Run

/-- Nobody's song is known; 7 and 8 are near, and like what 7 likes. -/
def liked : World Unit Unit Unit where
  GetUserInfosLBS _ _ := some [(8,()),(7,())]
  GetUserInfo _ _ := some ()
  GetUserCurrentSong _ _ := none
  GetCollectSongs _ := ()
  collected _ := 0
  GetUserCurrentMusic _ _ _ _ := ⟨false,(),false⟩
  GetSameMusic _ _ := [(8,()),(7,())]
  sameMusic _ _ _ := ()
  GetMusicFriendNum _ := ascii "0"
  GetMsgCount _ := 0
  GetNewMsgNum _ := 0

/-- The requester 7 asks as 007. -/
def asks : Packet
  | "uid" => some (ascii "007")
  | "location" => some (ascii "116.3,39.9")
  | _ => none

/-- The requester is in the own list. -/
theorem requester_listed : ¬Right liked asks 2 := by
  intro right
  have listed := right (ascii "007") [⟨ascii "8",()⟩,⟨ascii "7",()⟩] rfl (by rfl)
  exact absurd listed.2 (by decide)

end Migfm.Lbs
