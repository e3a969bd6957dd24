import Migfm.Queue.BlockMsg

/-! What a consumer gets of the messages that were added. The reader of the texts
returns NULL, so a queue delivers as long as nobody asks for a message that is there. -/
namespace Migfm.Queue
open Logic (Value ValueMap)
open Storage (Lists c_str)
open QueueDicComm BaseBlockMsgQueue

/-! ### Texts -/

section Texts
variable {redis : Lists} {key : List UInt8}

theorem AddBlockQueueMessage_self (str : List UInt8) :
    AddBlockQueueMessage redis key str (c_str key) = c_str str::redis (c_str key) := by
  rw [AddBlockQueueMessage,Lists.RedisAddListElement,decide_eq_false (by decide),Lists.push_self,if_neg Bool.false_ne_true]

theorem AddBlockQueueMessage_other {other str : List UInt8} (apart : c_str other ≠ c_str key) :
    AddBlockQueueMessage redis key str (c_str other) = redis (c_str other) :=
  Lists.push_other apart _

theorem AddBlockQueueMessage_texts (texts : redis.Texts) {str : List UInt8} (text : c_str str ≠ []) :
    (AddBlockQueueMessage redis key str).Texts :=
  Lists.RedisAddListElement_texts texts text 1

theorem GetBlockQueueMessage_list (texts : redis.Texts) {waiting : List (List UInt8)} (list : redis (c_str key) = waiting)
    (given : List (List UInt8)) :
    (GetBlockQueueMessage key waiting.length redis given).1 = given ++ waiting.map (· ++ [0]) := by
  induction waiting generalizing redis given with
  | nil => exact (List.append_nil given).symm
  | cons text waiting ih =>
    rw [List.length_cons,GetBlockQueueMessage,Lists.RedisPopListElement_cons texts list Nat.one_ne_zero]
    dsimp only
    rw [ih _ (Function.update_self ..),List.append_assoc]
    · rfl
    · intro other given member
      by_cases same : other = c_str key
      · rw [same,Function.update_self] at member
        exact texts _ given (list ▸ List.mem_cons_of_mem text member)
      · rw [Function.update_of_ne same] at member
        exact texts other given member

/-- The texts come back in the opposite order: both ends of the queue are the left one. -/
theorem texts_reversed (key : List UInt8) {texts : List (List UInt8)} (each : ∀ text ∈ texts, text ≠ [] ∧ ∀ c ∈ text, c ≠ 0) :
    (GetBlockQueueMessage key texts.length (texts.foldl (fun redis text => AddBlockQueueMessage redis key text) fun _ => []) []).1 =
      texts.reverse.map (· ++ [0]) := by
  have added (redis : Lists) (clean : redis.Texts) :
      (texts.foldl (fun redis text => AddBlockQueueMessage redis key text) redis).Texts ∧
        texts.foldl (fun redis text => AddBlockQueueMessage redis key text) redis (c_str key) = texts.reverse ++ redis (c_str key) := by
    induction texts generalizing redis with
    | nil => exact ⟨clean,rfl⟩
    | cons text texts ih =>
      obtain ⟨⟨some_,clean_text⟩,rest⟩ := List.forall_mem_cons.mp each
      have same := Storage.c_str_eq clean_text
      have first : (AddBlockQueueMessage redis key text).Texts := AddBlockQueueMessage_texts clean (same.symm ▸ some_)
      obtain ⟨later,list⟩ := ih rest _ first
      refine ⟨later,list.trans ?_⟩
      rw [AddBlockQueueMessage_self,same,List.reverse_cons,List.append_assoc]
      rfl
  obtain ⟨clean,list⟩ := added (fun _ => []) Lists.texts_empty
  rw [List.append_nil] at list
  have read := GetBlockQueueMessage_list clean list []
  rwa [List.length_reverse] at read

end Texts

/-! ### Operations -/

/-- What the producer and the consumer do. -/
inductive Operation
  | add (value : BlockMsg)
  | fetch (key : List UInt8) (type : Int32)

/-- The queue of a message: its name and its format. -/
def BlockMsg.queue (value : BlockMsg) : List UInt8 :=
  value.name_ ++ Logic.ascii ":" ++ Logic.decimal value.formate_type_.toInt

section Run
variable (DoubleToString : Float → List UInt8)

def perform (redis : Lists) : Operation → Except Fault (List BlockMsg × Lists)
  | .add value => do
    let redis ← AddBlockMsgQueue DoubleToString redis value.release
    return ([],redis)
  | .fetch key type => GetBlockMsgQueue redis key type

/-- The messages that each operation hands out. -/
def handed (redis : Lists) : List Operation → Except Fault (List (List BlockMsg))
  | [] => .ok []
  | operation::operations => do
    let (messages,redis) ← perform DoubleToString redis operation
    let rest ← handed redis operations
    return messages::rest

/-- What each operation has to hand out: a fetch the first message that waits. -/
def due (waiting : List UInt8 → List Message) : List Operation → List (List Message)
  | [] => []
  | .add value::operations =>
    []::due (Function.update waiting value.queue (waiting value.queue ++ [value.toMessage])) operations
  | .fetch key _::operations =>
    (waiting key).take 1::due (Function.update waiting key (waiting key).tail) operations

/-- From empty queues on, every message is handed out once, in the order of adding, as
it was added, and nothing undefined happens. -/
def Delivered (operations : List Operation) : Prop :=
  (handed DoubleToString (fun _ => []) operations).map (List.map (List.map BlockMsg.toMessage)) = .ok (due (fun _ => []) operations)

/-- The fetch finds the message that was added. -/
def Finds : Operation → Operation → Prop
  | .add value,.fetch key _ => c_str key = c_str value.queue
  | _,_ => False

variable {DoubleToString} {redis : Lists}

theorem fields_distinct (value : BlockMsg) : (value.fields.map Logic.Field.name).Nodup := by
  show [Logic.key "list",Logic.key "formate",Logic.key "name",Logic.key "msgtype"].Nodup
  decide

theorem typeOf_release (value : BlockMsg) : typeOf value.release = value.formate_type_ := by
  have found := @Logic.find_field value.dictionary_ value.fields (fields_distinct value)
    (Logic.big "formate" true value.formate_type_) (by simp [BlockMsg.fields])
  rw [typeOf,Logic.GetBigInteger,BlockMsg.release,show Logic.key "formate" = (Logic.big "formate" true value.formate_type_).name from rfl,
    found]
  rfl

theorem keyOf_release (value : BlockMsg) : keyOf value.release = value.queue := by
  have found := @Logic.find_field value.dictionary_ value.fields (fields_distinct value)
    ⟨Logic.key "name",true,.string value.name_⟩ (by simp [BlockMsg.fields])
  have name : Logic.GetString value.release "name" = some value.name_ := by
    rw [Logic.GetString,BlockMsg.release,found]
    rfl
  rw [keyOf,typeOf_release,name]
  rfl

/-- The text of a dictionary is never empty. -/
theorem Serialize_text (dict : ValueMap Value) :
    c_str (Logic.JsonValueSerializer.Serialize DoubleToString (.dictionary dict)) ≠ [] := by
  rw [Logic.JsonValueSerializer.Serialize,Logic.JsonValueSerializer.BuildJSONString]
  simp [Logic.ascii,c_str]

theorem add_json {value : BlockMsg} (json : value.formate_type_.toInt32 = TYPE_JSON) :
    perform DoubleToString redis (.add value) = .ok ([],AddBlockQueueMessage redis value.queue
      (Logic.JsonValueSerializer.Serialize DoubleToString (.dictionary value.release))) := by
  rw [perform,AddBlockMsgQueue,typeOf_release,keyOf_release,MsgSerializer.Create,if_pos json]
  rfl

theorem add_other {value : BlockMsg} (other : value.formate_type_.toInt32 ≠ TYPE_JSON) :
    perform DoubleToString redis (.add value) = .error .nullDereference := by
  rw [perform,AddBlockMsgQueue,typeOf_release,MsgSerializer.Create,if_neg other]
  rfl

theorem fetch_empty {key : List UInt8} (empty : redis (c_str key) = []) (type : Int32) :
    perform DoubleToString redis (.fetch key type) = .ok ([],redis) := by
  rw [perform,GetBlockMsgQueue,GetBlockQueueMessage,Lists.RedisPopListElement_none empty]
  rfl

/-- A text that is there gives no tree, whatever it says. -/
theorem fetch_waiting {key : List UInt8} (texts : redis.Texts) (waits : redis (c_str key) ≠ []) (type : Int32) :
    perform DoubleToString redis (.fetch key type) = .error .nullDereference := by
  obtain ⟨text,rest,list⟩ := List.exists_cons_of_ne_nil waits
  rw [perform,GetBlockMsgQueue,GetBlockQueueMessage,Lists.RedisPopListElement_cons texts list Nat.one_ne_zero]
  cases MsgSerializer.Create type with
  | none => simp [GetBlockQueueMessage,MsgSerializer.Deserialize]
  | some engine => rfl

theorem handed_next {operation : Operation} {messages : List BlockMsg} {later : Lists}
    (outcome : perform DoubleToString redis operation = .ok (messages,later)) (operations : List Operation) :
    handed DoubleToString redis (operation::operations) = (handed DoubleToString later operations).map (messages::·) := by
  have goes_on : handed DoubleToString redis (operation::operations) =
      handed DoubleToString later operations >>= fun rest => pure (messages::rest) := by
    rw [handed,outcome]
    rfl
  rw [goes_on]
  cases handed DoubleToString later operations <;> rfl

theorem handed_fails {operation : Operation} {fault : Fault} (fails : perform DoubleToString redis operation = .error fault)
    (operations : List Operation) : handed DoubleToString redis (operation::operations) = .error fault := by
  rw [handed,fails]
  rfl

theorem handed_due {given : Except Fault (List (List BlockMsg))} {rest : List (List Message)}
    (ends : given.map (List.map (List.map BlockMsg.toMessage)) = .ok rest) :
    (given.map ([]::·)).map (List.map (List.map BlockMsg.toMessage)) = .ok ([]::rest) := by
  cases given with
  | error fault => cases ends
  | ok messages => exact congrArg (fun rest => Except.ok ([]::rest)) (Except.ok.inj ends)

variable {operations : List Operation}

/-- Whoever asks finds nothing, in redis and in the queue that it should be. -/
theorem delivers (json : ∀ value, .add value ∈ operations → value.formate_type_.toInt32 = TYPE_JSON)
    (unasked : operations.Pairwise fun earlier later => ¬Finds earlier later) {waiting : List UInt8 → List Message}
    (empty : ∀ key type, .fetch key type ∈ operations → redis (c_str key) = [] ∧ waiting key = []) :
    (handed DoubleToString redis operations).map (List.map (List.map BlockMsg.toMessage)) = .ok (due waiting operations) := by
  induction operations generalizing redis waiting with
  | nil => rfl
  | cons operation operations ih =>
    obtain ⟨apart,unasked⟩ := List.pairwise_cons.mp unasked
    have rest {later : Lists} {waiting : List UInt8 → List Message}
        (empty : ∀ key type, .fetch key type ∈ operations → later (c_str key) = [] ∧ waiting key = []) :=
      ih (fun value member => json value (List.mem_cons_of_mem _ member)) unasked empty
    cases operation with
    | add value =>
      rw [handed_next (add_json (json value List.mem_cons_self)),due]
      apply handed_due
      apply rest
      intro key type member
      have other : c_str key ≠ c_str value.queue := apart _ member
      obtain ⟨redis_empty,waiting_empty⟩ := empty key type (List.mem_cons_of_mem _ member)
      rw [AddBlockQueueMessage_other other,Function.update_of_ne fun same => other (congrArg c_str same)]
      exact ⟨redis_empty,waiting_empty⟩
    | fetch key type =>
      obtain ⟨redis_empty,waiting_empty⟩ := empty key type List.mem_cons_self
      have kept : Function.update waiting key [] = waiting := by
        rw [← waiting_empty]
        exact Function.update_eq_self ..
      rw [handed_next (fetch_empty redis_empty type),due,waiting_empty,List.tail_nil,kept]
      apply handed_due
      apply rest
      intro key type member
      exact empty key type (List.mem_cons_of_mem _ member)

/-- A run without a fault. -/
theorem of_handed (texts : redis.Texts) {messages : List (List BlockMsg)}
    (outcome : handed DoubleToString redis operations = .ok messages) :
    (∀ value, .add value ∈ operations → value.formate_type_.toInt32 = TYPE_JSON) ∧
      operations.Pairwise (fun earlier later => ¬Finds earlier later) ∧
      ∀ key type, .fetch key type ∈ operations → redis (c_str key) = [] := by
  induction operations generalizing redis messages with
  | nil => exact ⟨nofun,.nil,nofun⟩
  | cons operation operations ih =>
    cases operation with
    | add value =>
      by_cases json : value.formate_type_.toInt32 = TYPE_JSON
      · rw [handed_next (add_json json)] at outcome
        cases rest : handed DoubleToString (AddBlockQueueMessage redis value.queue
            (Logic.JsonValueSerializer.Serialize DoubleToString (.dictionary value.release))) operations with
        | error fault => rw [rest] at outcome; cases outcome
        | ok messages =>
          obtain ⟨each,unasked,empty⟩ := ih (AddBlockQueueMessage_texts texts (Serialize_text value.release)) rest
          have apart (key : List UInt8) (type : Int32) (member : .fetch key type ∈ operations) : c_str key ≠ c_str value.queue := by
            intro same
            have none_ := empty key type member
            rw [same,AddBlockQueueMessage_self] at none_
            cases none_
          refine ⟨?_,List.pairwise_cons.mpr ⟨?_,unasked⟩,?_⟩
          · intro other member
            rcases List.mem_cons.mp member with ⟨⟨⟩⟩ | member
            · exact json
            · exact each other member
          · intro later member
            cases later with
            | add other => exact id
            | fetch key type => exact apart key type member
          · intro key type member
            have member := (List.mem_cons.mp member).resolve_left nofun
            have none_ := empty key type member
            rwa [AddBlockQueueMessage_other (apart key type member)] at none_
      · rw [handed_fails (add_other json)] at outcome
        cases outcome
    | fetch key type =>
      by_cases empty : redis (c_str key) = []
      · rw [handed_next (fetch_empty empty type)] at outcome
        cases rest : handed DoubleToString redis operations with
        | error fault => rw [rest] at outcome; cases outcome
        | ok messages =>
          obtain ⟨each,unasked,others⟩ := ih texts rest
          refine ⟨?_,List.pairwise_cons.mpr ⟨fun later _ => id,unasked⟩,?_⟩
          · intro value member
            exact each value ((List.mem_cons.mp member).resolve_left nofun)
          · intro other type member
            rcases List.mem_cons.mp member with ⟨⟨⟩⟩ | member
            · exact empty
            · exact others other type member
      · rw [handed_fails (fetch_waiting texts empty type)] at outcome
        cases outcome

/-- Every message is in JSON, and nobody fetches from a queue after something was added
to it. -/
theorem delivered_iff : Delivered DoubleToString operations ↔
    (∀ value, .add value ∈ operations → value.formate_type_.toInt32 = TYPE_JSON) ∧
      operations.Pairwise fun earlier later => ¬Finds earlier later := by
  constructor
  · intro delivered
    rw [Delivered] at delivered
    cases outcome : handed DoubleToString (fun _ => []) operations with
    | error fault => rw [outcome] at delivered; cases delivered
    | ok messages =>
      obtain ⟨json,unasked,_⟩ := of_handed Lists.texts_empty outcome
      exact ⟨json,unasked⟩
  · intro condition
    exact delivers condition.1 condition.2 fun _ _ _ => ⟨rfl,rfl⟩

end Run

/-- The message "hi" of user 7 to user 8, as the chat server pushes it. -/
def pushed : BlockMsg :=
  let fields := [Logic.big "tid" true 8,⟨Logic.key "message",true,.string (Logic.ascii "hi")⟩,Logic.big "uid" true 7]
  BlockMsg.AddBlockMsg { name_ := Logic.ascii "miyo",msg_type_ := 2 } { dictionary_ := Logic.setAll [] fields }

theorem not_delivered : ¬Delivered (fun _ => []) [.add pushed,.fetch (Logic.ascii "miyo:0") TYPE_JSON] := by
  have waits (str : List UInt8) : AddBlockQueueMessage (fun _ => []) pushed.queue str (c_str (Logic.ascii "miyo:0")) ≠ [] := by
    rw [show Logic.ascii "miyo:0" = pushed.queue by decide,AddBlockQueueMessage_self]
    exact List.cons_ne_nil _ _
  have texts := @AddBlockQueueMessage_texts _ pushed.queue Lists.texts_empty _ (@Serialize_text (fun _ => []) pushed.release)
  rw [Delivered,handed_next (add_json rfl),handed_fails (fetch_waiting texts (waits _) TYPE_JSON)]
  intro delivered
  cases delivered

end Migfm.Queue
