import Migfm.Logic.ValueSerializer

/-! logic/json_serializer.cc: `BuildJSONString`, with the quoting of
string_escape.cc, and the recursive descent of `BuildValue` over its tokens.
`strtod` and the formatting of doubles are parameters. -/
namespace Migfm.Logic

/-! ### Writing -/

/-- The letter after the backslash. -/
def SingleEscapeChar (c : UInt8) : Option UInt8 :=
  if c = 8 then some 98
  else if c = 12 then some 102
  else if c = 10 then some 110
  else if c = 13 then some 114
  else if c = 9 then some 116
  else if c = 92 then some 92
  else if c = 34 then some 34
  else none

def escaped (c : UInt8) : List UInt8 :=
  match SingleEscapeChar c with
  | some letter => [92,letter]
  | none => [c]

def JsonDoubleQuote (str : List UInt8) (put_in_quotes : Bool) : List UInt8 :=
  let quote := if put_in_quotes then [34] else []
  quote ++ str.flatMap escaped ++ quote

namespace JsonValueSerializer

def IndentLine (depth : Nat) : List UInt8 := List.replicate (depth * 3) 32

def AppendQuoteString (str : List UInt8) : List UInt8 := JsonDoubleQuote str true

/-- A real gets a fraction if it has neither that nor an exponent, and a zero before its point. -/
def realText (real : List UInt8) : List UInt8 :=
  let whole := if 46 ∉ real ∧ 101 ∉ real ∧ 69 ∉ real then real ++ ascii ".0" else real
  match whole with
  | 46::_ => 48::whole
  | 45::46::rest => 45::48::46::rest
  | _ => whole

section Write
variable (DoubleToString : Float → List UInt8) (pretty_print_ escape : Bool)

/-- The text, if the values are printed pretty. -/
def pretty (text : String) : List UInt8 := if pretty_print_ then ascii text else []

mutual

/-- What is appended to `json_string_`. -/
def BuildJSONString : Value → Nat → List UInt8
  | .null,_ => ascii "null"
  | .fundamental (.boolean value),_ => ascii (if value then "true" else "false")
  | .fundamental (.integer value),_ => decimal value.toInt
  | .fundamental (.bigInteger value),_ => decimal value.toInt
  | .fundamental (.real value),_ => realText (DoubleToString value)
  | .string value,_ => if escape then [] else JsonDoubleQuote value true
  | .list list,depth =>
    ascii "[" ++ pretty pretty_print_ " " ++ BuildItems list true depth ++ pretty pretty_print_ " " ++ ascii "]"
  | .dictionary dict,depth =>
    ascii "\x7b" ++ pretty pretty_print_ "\n" ++ BuildEntries dict true depth ++
      (if pretty_print_ then ascii "\n" ++ IndentLine depth else []) ++ ascii "\x7d"
  | .binary _,_ => []

/-- The loop over a list. -/
def BuildItems : List Value → Bool → Nat → List UInt8
  | [],_,_ => []
  | value::list,first,depth =>
    (if first then [] else ascii "," ++ pretty pretty_print_ " ") ++ BuildJSONString value depth ++ BuildItems list false depth

/-- The loop over a dictionary. -/
def BuildEntries : List (WString × Value) → Bool → Nat → List UInt8
  | [],_,_ => []
  | (key,value)::dict,first,depth =>
    (if first then [] else ascii "," ++ pretty pretty_print_ "\n") ++
      (if pretty_print_ then IndentLine (depth + 1) else []) ++ AppendQuoteString (WideToASCII key) ++
      (if pretty_print_ then ascii ": " else ascii ":") ++ BuildJSONString value (depth + 1) ++ BuildEntries dict false depth

end

end Write

/-! ### Tokens -/

def EatLineComment : WString → WString
  | [] => []
  | c::pos => if c = 0 then c::pos else if c = 10 ∨ c = 13 then pos else EatLineComment pos

def EatBlockComment : WString → WString
  | [] => []
  | c::pos => if c = 0 then c::pos else if c = 42 ∧ charAt pos 0 = 47 then pos.drop 1 else EatBlockComment pos

def EatComment (pos : WString) : Option WString :=
  if charAt pos 0 ≠ 47 then none
  else if charAt pos 1 = 47 then some (EatLineComment (pos.drop 2))
  else if charAt pos 1 = 42 then some (EatBlockComment (pos.drop 2))
  else none

/-- The loop of `EatWhitesspaceAndComments`: every turn leaves less than it finds. -/
def EatAll : Nat → WString → WString
  | 0,pos => pos
  | n + 1,pos =>
    let c := charAt pos 0
    if c = 32 ∨ c = 10 ∨ c = 13 ∨ c = 9 then EatAll n (pos.drop 1)
    else if c = 47 then
      match EatComment pos with
      | some rest => EatAll n rest
      | none => pos
    else pos

def EatWhitesspaceAndComments (pos : WString) : WString := EatAll pos.length pos

/-- The loop of `ParseStringToken` behind the opening quote; an error is where the
escape is invalid, if the text does not end before. -/
def StringToken : Nat → Token → Except (Option Nat) Token
  | 0,_ => .error none
  | n + 1,token =>
    let c := token.NextChar
    if c = 0 then .error none
    else if c = 92 then
      let escape := token.advance 1
      let c := escape.NextChar
      if c = 120 then
        match ReadHexDigits escape 2 with
        | some token => StringToken n (token.advance 1)
        | none => .error (some escape.length)
      else if c = 117 then
        match ReadHexDigits escape 4 with
        | some token => StringToken n (token.advance 1)
        | none => .error (some escape.length)
      else if (singleEscape c).isSome then StringToken n (escape.advance 1)
      else .error (some escape.length)
    else if c = 34 then .ok (token.advance 1)
    else StringToken n (token.advance 1)

def ParseStringToken (reader : Reader) : Token × Reader :=
  match StringToken (reader.pos_.length + 1) ⟨.string,reader.pos_,1⟩ with
  | .ok token => (token,reader)
  | .error (some length) => (kInvalidToken,reader.SetErrorCode .invalidEscape (reader.pos_.drop length))
  | .error none => (kInvalidToken,reader)

/-- A token of one character. -/
def punctuation (c : Nat) : Option TokenType :=
  if c = 91 then some .arrayBegin
  else if c = 93 then some .arrayEnd
  else if c = 44 then some .listSeparator
  else if c = 123 then some .objectBegin
  else if c = 125 then some .objectEnd
  else if c = 58 then some .objectPairSeparator
  else none

def literalToken (pos str : WString) (type : TokenType) (length : Nat) : Token :=
  if NextStringMatch pos str then ⟨type,pos,length⟩ else ⟨.invalidToken,[],0⟩

def ParseToken (before : Reader) : Token × Reader :=
  let reader := { before with pos_ := EatWhitesspaceAndComments before.pos_ }
  let pos := reader.pos_
  let c := charAt pos 0
  if c = 0 then (⟨.endOfInput,[],0⟩,reader)
  else if c = 110 then (literalToken pos kNullString .nullToken 4,reader)
  else if c = 116 then (literalToken pos kTrueString .boolTrue 4,reader)
  else if c = 102 then (literalToken pos kFalseString .boolFalse 5,reader)
  else match punctuation c with
    | some type => (⟨type,pos,1⟩,reader)
    | none =>
      if isDigit c ∨ c = 45 then (ParseNumberToken pos,reader)
      else if c = 34 then ParseStringToken reader
      else (⟨.invalidToken,[],0⟩,reader)

def DecodeString (token : Token) : Option (List UInt8) :=
  (DecodeCharacters token.begin_ (token.length - 1) token.length 1).map WideToUTF8

/-! ### Values -/

section Read
variable (StringToDouble : List UInt8 → Option Float)

mutual

/-- Without fuel there is no outcome; the outcome without a value is NULL. -/
def BuildValue : Nat → Bool → Reader → Option (Option Value × Reader)
  | 0,_,_ => none
  | n + 1,is_root,before =>
    if kStackLimit < before.deeper.stack_depth_ then some (none,before.deeper)
    else
      let (token,reader) := ParseToken before.deeper
      if is_root ∧ token.type ≠ .objectBegin ∧ token.type ≠ .arrayBegin then
        some (none,reader.SetErrorCode .badRootElementType reader.pos_)
      else
        match token.type with
        | .nullToken => some (some .null,reader.leave token)
        | .boolTrue => some (some (.fundamental (.boolean true)),reader.leave token)
        | .boolFalse => some (some (.fundamental (.boolean false)),reader.leave token)
        | .number =>
          match DecodeNumber StringToDouble token with
          | some node => some (some node,reader.leave token)
          | none => some (none,reader)
        | .string =>
          match DecodeString token with
          | some node => some (some (.string node),reader.leave token)
          | none => some (none,reader)
        | .arrayBegin =>
          let (token,reader) := ParseToken (reader.advance token.length)
          (BuildList n token [] reader).bind fun
            | (some (list,token),reader) => some (some (.list list),reader.leave token)
            | (none,reader) => some (none,reader)
        | .objectBegin =>
          let (token,reader) := ParseToken (reader.advance token.length)
          (BuildDictionary n token [] reader).bind fun
            | (some (dict,token),reader) => some (some (.dictionary dict),reader.leave token)
            | (none,reader) => some (none,reader)
        | _ => some (none,reader)

/-- The loop over the values of a list, with the token it ends at. -/
def BuildList : Nat → Token → List Value → Reader → Option (Option (List Value × Token) × Reader)
  | 0,_,_,_ => none
  | n + 1,token,list,before =>
    if token.type = .arrayEnd then some (some (list,token),before)
    else
      (BuildValue n false before).bind fun
        | (none,reader) => some (none,reader)
        | (some array_node,reader) =>
          let (token,reader) := ParseToken reader
          if token.type = .listSeparator then
            let (token,reader) := ParseToken (reader.advance token.length)
            if token.type = .arrayEnd ∧ ¬reader.allow_trailing_comma_ then
              some (none,reader.SetErrorCode .trailingComma reader.pos_)
            else BuildList n token (list ++ [array_node]) reader
          else if token.type ≠ .arrayEnd then some (none,reader)
          else BuildList n token (list ++ [array_node]) reader

/-- The loop over the pairs of a dictionary, with the token it ends at. -/
def BuildDictionary : Nat → Token → ValueMap Value → Reader → Option (Option (ValueMap Value × Token) × Reader)
  | 0,_,_,_ => none
  | n + 1,token,dict,before =>
    if token.type = .objectEnd then some (some (dict,token),before)
    else if token.type ≠ .string then some (none,before.SetErrorCode .unquotedDictionaryKey before.pos_)
    else
      match DecodeString token with
      | none => some (none,before)
      | some dict_key_value =>
        let dict_key := UTF8ToWide dict_key_value
        let (token,reader) := ParseToken (before.advance token.length)
        if token.type ≠ .objectPairSeparator then some (none,reader)
        else
          let (_,reader) := ParseToken (reader.advance token.length)
          (BuildValue n false reader).bind fun
            | (none,reader) => some (none,reader)
            | (some dict_value,reader) =>
              let dict := dict.assign dict_key dict_value
              let (token,reader) := ParseToken reader
              if token.type = .listSeparator then
                let (token,reader) := ParseToken (reader.advance token.length)
                if token.type = .objectEnd ∧ ¬reader.allow_trailing_comma_ then
                  some (none,reader.SetErrorCode .trailingComma reader.pos_)
                else BuildDictionary n token dict reader
              else if token.type ≠ .objectEnd then some (none,reader)
              else BuildDictionary n token dict reader

end

end Read

/-! ### Texts -/

def Serialize (DoubleToString : Float → List UInt8) (root : Value) : List UInt8 :=
  BuildJSONString DoubleToString true false root 0

/-- The text is not read: behind a dictionary that is thrown away stands `return NULL`,
and the rest is a comment. -/
def Deserialize (_json_string_ : List UInt8) : Option Value := none

end JsonValueSerializer
end Migfm.Logic
