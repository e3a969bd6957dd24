import Migfm.Logic.Infos
import Migfm.Logic.JsonSerializer
import Migfm.Storage.RedisWarrper

/-! base/queue: the messages, the texts that carry them, and the lists of redis where
they wait. `AddBlockMsgQueue` gets what `release` returns. -/
namespace Migfm.Queue
open Logic (Value ValueMap JsonValueSerializer.Serialize JsonValueSerializer.Deserialize)
open Storage (Lists)

def TYPE_JSON : Int32 := 0

/-- What is undefined. -/
inductive Fault
  | nullDereference
  | uninitialized
  | wrongType
deriving DecidableEq

structure Message where
  formate_type_ : Int64 := 0
  msg_type_ : Int32 := 0
  name_ : List UInt8 := []
  message_list_ : List Value := []

/-- A message is a dictionary too. -/
structure BlockMsg extends Message where
  dictionary_ : ValueMap Value := []

namespace BlockMsg

def AddBlockMsg (this value : BlockMsg) : BlockMsg :=
  { this with message_list_ := this.message_list_ ++ [.dictionary value.dictionary_] }

def fields (this : BlockMsg) : List Logic.Field :=
  [⟨Logic.key "list",true,.list this.message_list_⟩,
    Logic.big "formate" true this.formate_type_,
    ⟨Logic.key "name",true,.string this.name_⟩,
    Logic.big "msgtype" true this.msg_type_.toInt64]

def release (this : BlockMsg) : ValueMap Value := Logic.setAll this.dictionary_ this.fields

/-- The constructor from a dictionary. -/
def DeserializeInit : Option Value → Except Fault BlockMsg
  | none => .error .nullDereference
  | some (.dictionary m_) =>
    match Logic.GetBigInteger m_ "formate",Logic.GetBigInteger m_ "msgtype",Logic.GetList m_ "list" with
    | some formate_type,some msg_type,some list =>
      .ok {
        formate_type_ := formate_type
        msg_type_ := msg_type.toInt32
        name_ := (Logic.GetString m_ "name").getD []
        message_list_ := list }
    | _,_,_ => .error .uninitialized
  | some _ => .error .wrongType

end BlockMsg

/-! ### Serializers -/

inductive MsgSerializer
  | json

namespace MsgSerializer

/-- NULL for XML and HTTP. -/
def Create (type : Int32) : Option MsgSerializer := if type = TYPE_JSON then some .json else none

variable (DoubleToString : Float → List UInt8)

def Serialize (value : ValueMap Value) : Option MsgSerializer → Except Fault (List UInt8)
  | some .json => .ok (JsonValueSerializer.Serialize DoubleToString (.dictionary value))
  | none => .error .nullDereference

def Deserialize (str : List UInt8) : Option MsgSerializer → Except Fault BlockMsg
  | some .json => BlockMsg.DeserializeInit (JsonValueSerializer.Deserialize str)
  | none => .error .nullDereference

end MsgSerializer

/-! ### The queue -/

namespace QueueDicComm

def AddBlockQueueMessage (redis : Lists) (key str : List UInt8) : Lists := redis.RedisAddListElement key str 1

def GetBlockQueueMessage (key : List UInt8) : Nat → Lists → List (List UInt8) → List (List UInt8) × Lists
  | 0,redis,list => (list,redis)
  | temp_count + 1,redis,list =>
    match redis.RedisPopListElement key 1 with
    | (some str,redis) => GetBlockQueueMessage key temp_count redis (list ++ [str])
    | (none,redis) => (list,redis)

end QueueDicComm

namespace BaseBlockMsgQueue

/-- Without a format it is JSON. -/
def typeOf (value : ValueMap Value) : Int64 := (Logic.GetBigInteger value "formate").getD 0

def keyOf (value : ValueMap Value) : List UInt8 :=
  (Logic.GetString value "name").getD (Logic.ascii "unkonw") ++ Logic.ascii ":" ++ Logic.decimal (typeOf value).toInt

def AddBlockMsgQueue (DoubleToString : Float → List UInt8) (redis : Lists) (value : ValueMap Value) : Except Fault Lists := do
  let str ← MsgSerializer.Serialize DoubleToString value (MsgSerializer.Create (typeOf value).toInt32)
  return QueueDicComm.AddBlockQueueMessage redis (keyOf value) str

/-- It asks for one message. -/
def GetBlockMsgQueue (redis : Lists) (key : List UInt8) (type : Int32) : Except Fault (List BlockMsg × Lists) := do
  let (str_list,redis) := QueueDicComm.GetBlockQueueMessage key 1 redis []
  let list ← str_list.mapM fun str => MsgSerializer.Deserialize str (MsgSerializer.Create type)
  return (list,redis)

end BaseBlockMsgQueue
end Migfm.Queue
