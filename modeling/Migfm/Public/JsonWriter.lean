import Migfm.Library.SortedMap
import Migfm.Public.Numbers

/-! `FastWriter` of public/json/json_writer.cpp, and what the reader makes of its text. An object is a map from C strings;
what json_tool.h and the C library do is a parameter. -/
namespace Migfm.Public.Json
open Library.SortedMap
open Logic (ascii decimalDigits)

/-! ### Values -/

section Fold
variable {β : Type} (leaf : Value → β) (array : List β → β) (object : List (List UInt8 × β) → β)

mutual

/-- From the leaves up. -/
def Value.fold : Value → β
  | .array items => array (foldItems items)
  | .object members => object (foldMembers members)
  | value => leaf value

def foldItems : List Value → List β
  | [] => []
  | item::items => item.fold::foldItems items

def foldMembers : List (List UInt8 × Value) → List (List UInt8 × β)
  | [] => []
  | (name,value)::members => (name,value.fold)::foldMembers members

end

theorem foldItems_map (items : List Value) : foldItems leaf array object items = items.map (Value.fold leaf array object) := by
  induction items with
  | nil => rfl
  | cons item items ih => rw [foldItems,ih,List.map_cons]

theorem foldMembers_map (members : List (List UInt8 × Value)) :
    foldMembers leaf array object members = members.map fun member => (member.1,member.2.fold leaf array object) := by
  induction members with
  | nil => rfl
  | cons member members ih => rw [foldMembers,ih,List.map_cons]

end Fold

/-- A name is a C string. -/
def keyed {α : Type} (members : List (List UInt8 × α)) : List (List UInt8 × α) :=
  members.map fun member => (c_str member.1,member.2)

def getMemberNames {α : Type} (members : List (List UInt8 × α)) : List (List UInt8) := names (keyed members)

/-- A string is a C string. -/
def Value.cut : Value → Value
  | .string value => .string (c_str value)
  | value => value

/-- What a value holds, as `operator==` compares it: C strings, and the entries of maps in the order of their names. -/
def Value.held : Value → Value := fold cut .array fun members => .object (entries (keyed members))

/-! ### The writer -/

/-- What json_tool.h and the C library give. -/
structure Tool where
  codePointToUTF8 : Nat → List UInt8
  isControlCharacter : UInt8 → Bool
  uintToString : UInt64 → List UInt8
  /-- With `%#.16g`. -/
  sprintf : Float → List UInt8
  /-- With `%lf`. -/
  sscanf : List UInt8 → Option Float

section Writing
variable (tool : Tool)

def valueToString_LargestInt (value : Int64) : List UInt8 :=
  if value < 0 then 45::tool.uintToString (-value).toUInt64 else tool.uintToString value.toUInt64

/-- All zeros at the end are cut but one, if the digits before them go back to a point. -/
def valueToString_double (value : Float) : List UInt8 :=
  let buffer := tool.sprintf value
  let zeros := (buffer.reverse.takeWhile (· = 48)).length
  let last_nonzero := buffer.length - 1 - zeros
  if zeros = 0 then buffer
  else if ((buffer.take (last_nonzero + 1)).reverse.dropWhile fun c => 48 ≤ c ∧ c ≤ 57).head? = some 46 then
    buffer.take (last_nonzero + 2)
  else buffer

def hexUppercase (n : Nat) : UInt8 := (if n < 10 then 48 + n else 55 + n).toUInt8

/-- A `char` is signed. -/
def escaped (c : UInt8) : List UInt8 :=
  match c with
  | 34 => [92,34]
  | 92 => [92,92]
  | 8 => [92,98]
  | 12 => [92,102]
  | 10 => [92,110]
  | 13 => [92,114]
  | 9 => [92,116]
  | c =>
    if tool.isControlCharacter c then
      [92,117] ++ (if c < 128 then [48,48] else [70,70,70,70,70,70]) ++ [hexUppercase (c.toNat / 16),hexUppercase (c.toNat % 16)]
    else [c]

def valueToQuotedString (value : List UInt8) : List UInt8 :=
  if (c_str value).any (· ∈ [34,92,8,12,10,13,9]) = false ∧ (c_str value).any tool.isControlCharacter = false then
    34::(c_str value ++ [34])
  else 34::((c_str value).flatMap (escaped tool) ++ [34])

/-- What the loops of arrays and objects write behind the opening bracket. -/
def listed (close : UInt8) : List (List UInt8) → List UInt8
  | [] => [close]
  | [text] => text ++ [close]
  | text::texts => text ++ 44::listed close texts

def writeLeaf : Value → List UInt8
  | .null => ascii "null"
  | .int value => valueToString_LargestInt tool value
  | .uint value => tool.uintToString value
  | .real value => valueToString_double tool value
  | .string value => valueToQuotedString tool value
  | .boolean value => ascii (if value then "true" else "false")
  | _ => []

def writeMember (yamlCompatiblityEnabled_ : Bool) (member : List UInt8 × List UInt8) : List UInt8 :=
  valueToQuotedString tool member.1 ++ (if yamlCompatiblityEnabled_ then [58,32] else [58]) ++ member.2

def writeValue (yamlCompatiblityEnabled_ : Bool) : Value → List UInt8 :=
  Value.fold (writeLeaf tool) (fun items => 91::listed 93 items) fun members =>
    123::listed 125 ((entries (keyed members)).map (writeMember tool yamlCompatiblityEnabled_))

def FastWriter.write (yamlCompatiblityEnabled_ : Bool) (root : Value) : List UInt8 :=
  writeValue tool yamlCompatiblityEnabled_ root ++ [10]

end Writing

/-! ### What comes back -/

/-- The kinds of numbers that the reader makes of their texts. -/
def Tool.kind (tool : Tool) : Value → Value
  | .int value => if value ≤ 0x7fffffff then .int value else .uint value.toUInt64
  | .uint value => if value ≤ 0x7fffffff then .int value.toInt64 else .uint value
  | .real value => ((tool.sscanf (valueToString_double tool value)).map .real).getD (.real value)
  | value => value

/-- The value in the reader's kinds. -/
def Tool.asRead (tool : Tool) : Value → Value := Value.fold tool.kind .array .object

end Migfm.Public.Json
