import Migfm.Logic.JsonAgree
import Migfm.Queue.Delivery

/-! The songs that one user gives to another: `AddMoreGivingSongBlockMessage` of
svc/socsvc/soc_logic.cc. The distance of the two users is what the database answers. -/
namespace Migfm.Sociality.Gifts
open Logic Logic.JsonValueSerializer Queue Queue.QueueDicComm Queue.BaseBlockMsgQueue
open Storage (Lists c_str)

def PLATFORM_NAME : List UInt8 := ascii "miyo"

/-- A string that is there, whether or not it is empty. -/
def string (name : String) (value : List UInt8) : Field := ⟨key name,true,.string value⟩

section Source
variable (DoubleToString : Float → List UInt8) (GetDistance : Int64 → Int64 → Float) (uid tid : Int64)

def message (songid msg : List UInt8) : List Field :=
  [string "songid" songid,string "message" msg,big "uid" true uid,big "tid" true tid]

/-- The loop takes the first song off the list until it is empty. A string that is
missing leaves the empty one. -/
def AddSongs : List Value → BlockMsg → Except Fault BlockMsg
  | [],msglist => .ok msglist
  | .dictionary dic::list,msglist =>
    let songid := (GetString dic "songid").getD []
    let msg := (GetString dic "msg").getD []
    AddSongs list (msglist.AddBlockMsg { dictionary_ := setAll [] (message uid tid songid msg) })
  | _::_,_ => .error .wrongType

def msglist : BlockMsg := {
  formate_type_ := 0
  name_ := PLATFORM_NAME
  msg_type_ := 1
  dictionary_ := setAll [] [⟨key "distance",true,.fundamental (.real (GetDistance uid tid))⟩] }

/-- What is done with the tree that the reader returns. -/
def AddSongsOf (redis : Lists) : Option Value → Except Fault Lists
  | none => .error .nullDereference
  | some (.dictionary value) =>
    match GetList value "song" with
    | none => .error .uninitialized
    | some list => do
      let msglist ← AddSongs uid tid list (msglist GetDistance uid tid)
      AddBlockMsgQueue DoubleToString redis msglist.release
  | some _ => .error .wrongType

def AddMoreGivingSongBlockMessage (redis : Lists) (json_str : List UInt8) : Except Fault Lists :=
  AddSongsOf DoubleToString GetDistance uid tid redis (Deserialize json_str)

end Source

/-! ### Requests and messages -/

structure Song where
  songid : List UInt8
  msg : List UInt8

def IsSong (item : Value) (song : Song) : Prop :=
  ∃ dic, item = .dictionary dic ∧ GetString dic "songid" = some song.songid ∧ GetString dic "msg" = some song.msg

/-- The tree of a gift request. -/
def Gift (root : Value) (songs : List Song) : Prop :=
  ∃ value list, root = .dictionary value ∧ GetList value "song" = some list ∧ List.Forall₂ IsSong list songs

/-- A text that is read as the tree up to its end, behind a mark of the byte order if there is one. -/
def JsonText (StringToDouble : List UInt8 → Option Float) (json_str : List UInt8) (root : Value) : Prop :=
  let json_wide := UTF8ToWide json_str
  ∃ fuel last, BuildValue StringToDouble fuel true (readerOf (if json_wide.head? = some 0xFEFF then json_wide.tail else json_wide)) =
    some (some root,last) ∧ (ParseToken last).1.type = .endOfInput

def IsGiven (uid tid : Int64) (item : Value) (song : Song) : Prop :=
  ∃ dic, item = .dictionary dic ∧ GetString dic "songid" = some song.songid ∧ GetString dic "message" = some song.msg ∧
    GetBigInteger dic "uid" = some uid ∧ GetBigInteger dic "tid" = some tid

/-- A queued message carries both users and the songs with their words, in their order. -/
def Carries (uid tid : Int64) (value : ValueMap Value) (songs : List Song) : Prop :=
  ∃ list, GetList value "list" = some list ∧ List.Forall₂ (IsGiven uid tid) list songs

section Claim
variable (DoubleToString : Float → List UInt8) (uid tid : Int64) (redis : Lists)

/-- One message more, in the queue of the platform. -/
def Queued (songs : List Song) (outcome : Except Fault Lists) : Prop :=
  ∃ value, Carries uid tid value songs ∧
    outcome = .ok (AddBlockQueueMessage redis (PLATFORM_NAME ++ ascii ":" ++ decimal 0) (Serialize DoubleToString (.dictionary value)))

/-- Whole or not at all: what is to become of a request whose text has the trees. -/
def WholeOrNot (trees : Value → Prop) (outcome : Except Fault Lists) : Prop :=
  (∀ root songs, trees root → Gift root songs → Queued DoubleToString uid tid redis songs outcome) ∧
    ((¬∃ root songs, trees root ∧ Gift root songs) → outcome = .ok redis)

end Claim

section Proofs
variable {DoubleToString : Float → List UInt8} {GetDistance : Int64 → Int64 → Float} {uid tid : Int64} {redis : Lists}

/-- Whatever is added, the queue is longer. -/
theorem AddBlockMsgQueue_longer {value : ValueMap Value} : AddBlockMsgQueue DoubleToString redis value ≠ .ok redis := by
  intro same
  rw [AddBlockMsgQueue] at same
  cases engine : MsgSerializer.Create (typeOf value).toInt32 with
  | none =>
    rw [engine] at same
    cases same
  | some engine' =>
    rw [engine] at same
    cases engine'
    have longer := congrFun (Except.ok.inj same) (c_str (keyOf value))
    rw [AddBlockQueueMessage_self] at longer
    exact List.cons_ne_self _ _ longer

/-- No tree leaves the queue alone. -/
theorem AddSongsOf_longer (root : Option Value) : AddSongsOf DoubleToString GetDistance uid tid redis root ≠ .ok redis := by
  intro same
  unfold AddSongsOf at same
  split at same
  · cases same
  · split at same
    · cases same
    · rename_i list _
      cases added : AddSongs uid tid list (msglist GetDistance uid tid) with
      | error fault =>
        rw [added] at same
        cases same
      | ok msglist =>
        rw [added] at same
        exact AddBlockMsgQueue_longer same
  · cases same

theorem message_distinct (uid tid : Int64) (songid msg : List UInt8) : ((message uid tid songid msg).map Field.name).Nodup := by
  show [key "songid",key "message",key "uid",key "tid"].Nodup
  decide

theorem get_string {fields : List Field} (distinct : (fields.map Field.name).Nodup) {name : String} {value : List UInt8}
    (member : string name value ∈ fields) : GetString (setAll [] fields) name = some value := by
  have found := @find_field [] fields distinct _ member
  rw [GetString,show key name = (string name value).name from rfl,found]
  rfl

theorem message_given (song : Song) : IsGiven uid tid (.dictionary (setAll [] (message uid tid song.songid song.msg))) song := by
  have distinct := message_distinct uid tid song.songid song.msg
  refine ⟨_,rfl,get_string distinct ?_,get_string distinct ?_,?_,?_⟩
  · exact .head _
  · exact .tail _ (.head _)
  · exact get_big distinct (.tail _ (.tail _ (.head _)))
  · exact get_big distinct (.tail _ (.tail _ (.tail _ (.head _))))

/-- The songs come behind those that are there, in the order of the list. -/
theorem AddSongs_gift {list : List Value} {songs : List Song} (gift : List.Forall₂ IsSong list songs) (before : BlockMsg) :
    ∃ more, AddSongs uid tid list before = .ok { before with message_list_ := before.message_list_ ++ more } ∧
      List.Forall₂ (IsGiven uid tid) more songs := by
  induction gift generalizing before with
  | nil => exact ⟨[],by rw [List.append_nil]; rfl,.nil⟩
  | cons first rest ih =>
    rename_i song _ _
    obtain ⟨dic,rfl,songid,msg⟩ := first
    rw [AddSongs,songid,msg]
    obtain ⟨more,added,given⟩ := ih (before.AddBlockMsg { dictionary_ := setAll [] (message uid tid song.songid song.msg) })
    refine ⟨.dictionary (setAll [] (message uid tid song.songid song.msg))::more,?_,.cons (message_given song) given⟩
    refine added.trans ?_
    rw [BlockMsg.AddBlockMsg,List.append_assoc]
    rfl

theorem release_list (value : BlockMsg) : GetList value.release "list" = some value.message_list_ := by
  have found := @find_field value.dictionary_ value.fields (fields_distinct value) ⟨key "list",true,.list value.message_list_⟩ (.head _)
  rw [GetList,BlockMsg.release,found]
  rfl

theorem AddBlockMsgQueue_json {value : BlockMsg} (json : value.formate_type_.toInt32 = TYPE_JSON) :
    AddBlockMsgQueue DoubleToString redis value.release =
      .ok (AddBlockQueueMessage redis value.queue (Serialize DoubleToString (.dictionary value.release))) := by
  rw [AddBlockMsgQueue,typeOf_release,keyOf_release,MsgSerializer.Create,if_pos json]
  rfl

theorem AddSongsOf_gift {root : Value} {songs : List Song} (gift : Gift root songs) :
    Queued DoubleToString uid tid redis songs (AddSongsOf DoubleToString GetDistance uid tid redis (some root)) := by
  obtain ⟨value,list,rfl,listed,each⟩ := gift
  obtain ⟨more,added,given⟩ := AddSongs_gift each (msglist GetDistance uid tid)
  have sent := @AddBlockMsgQueue_json DoubleToString redis { msglist GetDistance uid tid with message_list_ := more } rfl
  refine ⟨BlockMsg.release { msglist GetDistance uid tid with message_list_ := more },⟨more,release_list _,given⟩,?_⟩
  rw [AddSongsOf]
  dsimp only
  rw [listed]
  dsimp only
  rw [added]
  exact sent

/-- A tree is sent whole or not at all just where it is that of a gift request. -/
theorem AddSongsOf_iff (root : Option Value) :
    WholeOrNot DoubleToString uid tid redis (root = some ·) (AddSongsOf DoubleToString GetDistance uid tid redis root) ↔
      ∃ tree songs, root = some tree ∧ Gift tree songs := by
  constructor
  · intro right
    by_contra none_
    exact AddSongsOf_longer root (right.2 none_)
  · rintro ⟨tree,songs,rfl,gift⟩
    refine ⟨fun tree' songs' same gift' => ?_,fun none_ => absurd ⟨tree,songs,rfl,gift⟩ none_⟩
    rw [Option.some.inj same]
    exact AddSongsOf_gift gift'

/-- No text is sent: there is never a tree. -/
theorem AddMoreGivingSongBlockMessage_null (json_str : List UInt8) :
    AddMoreGivingSongBlockMessage DoubleToString GetDistance uid tid redis json_str = .error .nullDereference := rfl

theorem error_not_whole {trees : Value → Prop} {fault : Fault} : ¬WholeOrNot DoubleToString uid tid redis trees (.error fault) := by
  intro right
  by_cases gift : ∃ root songs, trees root ∧ Gift root songs
  · obtain ⟨root,songs,tree,gift⟩ := gift
    obtain ⟨value,_,queued⟩ := right.1 root songs tree gift
    cases queued
  · cases right.2 gift

/-- The reader gives no tree for any text, so that no request is right. -/
theorem gifts_never (StringToDouble : List UInt8 → Option Float) (json_str : List UInt8) :
    ¬WholeOrNot DoubleToString uid tid redis (JsonText StringToDouble json_str)
      (AddMoreGivingSongBlockMessage DoubleToString GetDistance uid tid redis json_str) := by
  rw [AddMoreGivingSongBlockMessage_null]
  exact error_not_whole

end Proofs

/-- The song 5 with the word "hi". -/
def hi : Song := ⟨ascii "5",ascii "hi"⟩

def request : Value :=
  .dictionary [(key "song",.list [.dictionary [(key "msg",.string (utf8 ['h','i'])),(key "songid",.string (utf8 ['5']))]])]

theorem request_plain : Plain request := by
  refine .dictionary (List.pairwise_singleton ..) (by decide) (List.forall_mem_singleton.mpr (.list (List.forall_mem_singleton.mpr ?_)))
  refine .dictionary (by decide) (by decide) (List.forall_mem_cons.mpr ⟨.string ?_,List.forall_mem_singleton.mpr (.string ?_)⟩)
  · exact List.forall_mem_cons.mpr ⟨by decide,List.forall_mem_singleton.mpr (by decide)⟩
  · exact List.forall_mem_singleton.mpr (by decide)

/-- A gift request is lost. -/
theorem request_lost : ∃ json_str, (∃ root, JsonText (fun _ => none) json_str root ∧ Gift root [hi]) ∧
    ¬Queued (fun _ => []) 7 8 (fun _ => []) [hi]
      (AddMoreGivingSongBlockMessage (fun _ => []) (fun _ _ => 0) 7 8 (fun _ => []) json_str) := by
  refine ⟨BuildJSONString (fun _ => []) false false request 0,⟨request,?_,_,_,rfl,rfl,.cons ⟨_,rfl,rfl,rfl⟩ .nil⟩,?_⟩
  · have both := writer_reader_agree (fun _ => []) (fun _ => none) false request_plain rfl (by decide) (by decide)
    obtain ⟨fuel,reads⟩ := both (readerOf _) rfl rfl
    obtain ⟨last,built,ends⟩ := reads fuel (Nat.le_refl _)
    have unmarked : (UTF8ToWide (BuildJSONString (fun _ => []) false false request 0)).head? ≠ some 0xFEFF := by decide
    refine ⟨fuel,last,?_,ends⟩
    rw [if_neg unmarked]
    exact built
  · rintro ⟨value,_,queued⟩
    cases queued
end Migfm.Sociality.Gifts
