import Migfm.Logic.Infos
import Migfm.Logic.JsonSerializer

/-! `BuildXMLString` of logic/xml_serializer.cc, and which texts have balanced tags. A
dictionary is written with attributes where its `#xmltype` says so; that branch alone
closes a tag, that of the key noted for the depth above. -/
namespace Migfm.Logic

/-- No quotes are put, and `<` and `>` stay as they are. -/
def XMLDoubleQuote (str : List UInt8) : List UInt8 := str.flatMap escaped

namespace XMLValueSerializer

def HAVE_ATTR : Int32 := 2

structure State where
  xml_string_ : List UInt8
  key_map_ : Int → Option WString

def State.append (xml : State) (text : List UInt8) : State := { xml with xml_string_ := xml.xml_string_ ++ text }

def State.note (xml : State) (depth : Int) (key : WString) : State :=
  { xml with key_map_ := Function.update xml.key_map_ depth (some key) }

/-- `AppendQuoteString` of a key. -/
def tagName (key : WString) : List UInt8 := XMLDoubleQuote (WideToASCII key)

/-- `</` with the key of the depth above, which is made empty where it is missing; the
key of the depth has to be there to be erased. -/
def State.close (xml : State) (depth : Int) : Option State :=
  let pair_key := (xml.key_map_ (depth - 1)).getD []
  let xml := (xml.note (depth - 1) pair_key).append (ascii "</" ++ tagName pair_key ++ ascii ">")
  if (xml.key_map_ depth).isSome then some { xml with key_map_ := Function.update xml.key_map_ depth none } else none

section Write
variable (DoubleToString : Float → List UInt8) (lp64 pretty_print_ escape : Bool)

/-- With `__LP64__` the format is `%d`, which prints the low 32 bits. -/
def bigText (value : Int64) : List UInt8 := decimal (if lp64 then value.toInt32.toInt else value.toInt)

mutual

/-- `none` is undefined: the last character of an empty text is erased. -/
def BuildXMLString : Value → Int → State → Option State
  | .null,_,xml => some (xml.append (ascii "null"))
  | .fundamental (.boolean value),_,xml => some (xml.append (ascii (if value then "true" else "false")))
  | .fundamental (.integer value),_,xml => some (xml.append (decimal value.toInt))
  | .fundamental (.bigInteger value),_,xml => some (xml.append (bigText lp64 value))
  | .fundamental (.real value),_,xml => some (xml.append (JsonValueSerializer.realText (DoubleToString value)))
  | .string value,_,xml => some (if escape then xml else xml.append (XMLDoubleQuote value))
  | .list list,depth,xml => BuildItems list true depth xml
  | .dictionary dict,depth,xml =>
    if GetInteger dict "#xmltype" = some HAVE_ATTR then
      if xml.xml_string_ = [] then none
      else
        (BuildAttributes dict depth { xml with xml_string_ := xml.xml_string_.dropLast }).bind fun xml =>
          (BuildChildren dict depth (xml.append (ascii ">"))).bind fun xml => xml.close depth
    else BuildEntries dict depth xml
  | .binary _,_,xml => some xml

/-- The loop over a list. -/
def BuildItems : List Value → Bool → Int → State → Option State
  | [],_,_,xml => some xml
  | value::list,first,depth,xml =>
    (BuildXMLString value depth (xml.append (if first ∨ ¬pretty_print_ then [] else ascii "\n"))).bind fun xml =>
      BuildItems list false depth xml

/-- The loop over the attributes. -/
def BuildAttributes : List (WString × Value) → Int → State → Option State
  | [],_,xml => some xml
  | (key,value)::dict,depth,xml =>
    if key.head? = some 45 then
      (BuildXMLString value (depth + 1) (xml.append (ascii " " ++ tagName (key.drop 1) ++ ascii "="))).bind fun xml =>
        BuildAttributes dict depth xml
    else BuildAttributes dict depth xml

/-- The loop behind the attributes. -/
def BuildChildren : List (WString × Value) → Int → State → Option State
  | [],_,xml => some xml
  | (key,value)::dict,depth,xml =>
    let xml := xml.note depth key
    if key = Logic.key "#xmltype" ∨ key.head? = some 45 then BuildChildren dict depth xml
    else
      let xml := if key ≠ Logic.key "#text" then xml.append (ascii "<" ++ tagName key ++ ascii ">") else xml
      (BuildXMLString value (depth + 1) xml).bind fun xml => BuildChildren dict depth xml

/-- The loop over a dictionary without attributes. -/
def BuildEntries : List (WString × Value) → Int → State → Option State
  | [],_,xml => some xml
  | (key,value)::dict,depth,xml =>
    if key = Logic.key "#xmltype" then BuildEntries dict depth xml
    else
      let xml := if key ≠ Logic.key "#text" then (xml.note depth key).append (ascii "<" ++ tagName key ++ ascii ">") else xml
      (BuildXMLString value (depth + 1) xml).bind fun xml => BuildEntries dict depth xml

end

/-- What is written to an empty string. -/
def Serialize (root : Value) : Option (List UInt8) :=
  (BuildXMLString DoubleToString lp64 false false root 0 ⟨[],fun _ => none⟩).map State.xml_string_

end Write

/-! ### Balanced tags -/

/-- What can be the name of a tag. -/
def IsName (name : List UInt8) : Prop := name ≠ [] ∧ ∀ c ∈ name, c ≠ 60 ∧ c ≠ 62 ∧ c ≠ 47 ∧ c ≠ 32

def Unmarked (text : List UInt8) : Prop := ∀ c ∈ text, c ≠ 60 ∧ c ≠ 62

theorem unmarked_of_all {text : List UInt8} (all : text.all (fun c => c != 60 && c != 62) = true) : Unmarked text := by
  intro c member
  simpa using List.all_eq_true.mp all c member

/-- Text, and elements whose tags are closed in order. -/
inductive Tagged : List UInt8 → Prop
  | nil : Tagged []
  | data {c : UInt8} {rest : List UInt8} : c ≠ 60 → Tagged rest → Tagged (c::rest)
  | element {name attributes inside rest : List UInt8} : IsName name → Unmarked attributes →
      (attributes = [] ∨ attributes.head? = some 32) → Tagged inside → Tagged rest →
      Tagged (60::(name ++ attributes ++ 62::(inside ++ 60::47::(name ++ 62::rest))))

/-- Opening tags less closing tags. -/
def surplus : List UInt8 → Int
  | [] => 0
  | c::rest => (if c = 60 then if rest.head? = some 47 then -1 else 1 else 0) + surplus rest

/-- What the text adds, whatever follows it. -/
def Adds (text : List UInt8) (n : Int) : Prop := ∀ rest, surplus (text ++ rest) = n + surplus rest

theorem Adds.nil : Adds [] 0 := fun _ => (Int.zero_add _).symm

theorem Adds.append {text more : List UInt8} {m n : Int} (first : Adds text m) (second : Adds more n) :
    Adds (text ++ more) (m + n) := by
  intro rest
  rw [List.append_assoc,first,second,Int.add_assoc]

theorem Adds.cons {c : UInt8} {text : List UInt8} {n : Int} (plain : c ≠ 60) (adds : Adds text n) : Adds (c::text) n := by
  intro rest
  rw [List.cons_append,surplus,if_neg plain,Int.zero_add,adds]

theorem Adds.unmarked {text : List UInt8} (unmarked : ∀ c ∈ text, c ≠ 60) : Adds text 0 := by
  induction text with
  | nil => exact .nil
  | cons c text ih => exact (ih fun d member => unmarked d (List.mem_cons_of_mem _ member)).cons (unmarked c List.mem_cons_self)

theorem IsName.adds {name : List UInt8} (named : IsName name) : Adds name 0 := .unmarked fun c member => (named.2 c member).1

/-- An opening tag, with what stands in it. -/
theorem Adds.opening {name attributes : List UInt8} (named : IsName name) (unmarked : Unmarked attributes) :
    Adds (60::(name ++ attributes ++ [62])) 1 := by
  intro rest
  have inside : Adds (name ++ attributes ++ [62]) (0 + 0 + 0) :=
    (named.adds.append (.unmarked fun c member => (unmarked c member).1)).append (.cons (by decide) .nil)
  obtain ⟨c,name,rfl⟩ := List.exists_cons_of_ne_nil named.1
  have letter : c ≠ 47 := (named.2 c List.mem_cons_self).2.2.1
  have behind := inside rest
  rw [List.cons_append,surplus,if_pos rfl,behind]
  simp [letter]

theorem Adds.closing {name : List UInt8} (named : IsName name) : Adds (60::47::(name ++ [62])) (-1) := by
  intro rest
  have inside : Adds (name ++ [62]) (0 + 0) := named.adds.append (.cons (by decide) .nil)
  have slash : (47 : UInt8) ≠ 60 := by decide
  rw [List.cons_append,List.cons_append,surplus,if_pos rfl,List.head?_cons,if_pos rfl,surplus,if_neg slash,inside]
  omega

theorem Tagged.adds {text : List UInt8} (tagged : Tagged text) : Adds text 0 := by
  induction tagged with
  | nil => exact .nil
  | data plain _ ih => exact ih.cons plain
  | element named unmarked _ _ _ inside rest =>
    have whole := (((Adds.opening named unmarked).append inside).append (Adds.closing named)).append rest
    have none_ : (1 + 0 + -1 + 0 : Int) = 0 := rfl
    rw [none_] at whole
    simpa only [List.append_assoc,List.cons_append,List.nil_append] using whole

theorem Tagged.append {text more : List UInt8} (tagged : Tagged text) (behind : Tagged more) : Tagged (text ++ more) := by
  induction tagged with
  | nil => exact behind
  | data plain _ ih => exact .data plain ih
  | element named unmarked spaced inside _ _ rest =>
    have whole := Tagged.element named unmarked spaced inside rest
    simpa only [List.append_assoc,List.cons_append] using whole

theorem Tagged.of_unmarked {text : List UInt8} (unmarked : Unmarked text) : Tagged text := by
  induction text with
  | nil => exact .nil
  | cons c text ih =>
    exact .data (unmarked c List.mem_cons_self).1 (ih fun d member => unmarked d (List.mem_cons_of_mem _ member))

end XMLValueSerializer
end Migfm.Logic
