import Migfm.Logic.ValueSerializer

/-! logic/http_serializer.cc: `Deserialize` of a form, with its tokens. `strtod` is a
parameter. -/
namespace Migfm.Logic
namespace HttpValueSerializer

/-! ### Tokens -/

def EatWhitesspaceAndComments (pos : WString) : WString := pos.dropWhile fun c => c = 32 ∨ c = 13 ∨ c = 9

def numberCharacter (c : Nat) : Bool := isDigit c ∨ c = 46 ∨ c = 101 ∨ c = 69 ∨ c = 45 ∨ c = 43

/-- Up to the next separator there are at most 19 characters, all of a number, with
at most one point. -/
def NextNumberMatch (pos : WString) : Bool :=
  let scanned := pos.takeWhile fun c => c ≠ 38 ∧ c ≠ 0
  scanned.all numberCharacter ∧ scanned.count 46 ≤ 1 ∧ scanned.length ≤ 19

/-- The loop of `ParseStringToken`; without a token it is invalid. -/
def StringToken : Nat → Token → Option Token
  | 0,_ => none
  | n + 1,token =>
    let c := token.NextChar
    if c = 0 then some token
    else if c = 92 then
      let escape := token.advance 1
      let c := escape.NextChar
      if c = 120 then (ReadHexDigits escape 2).bind fun token => StringToken n (token.advance 1)
      else if c = 117 then (ReadHexDigits escape 4).bind fun token => StringToken n (token.advance 1)
      else if (singleEscape c).isSome then StringToken n (escape.advance 1)
      else some (escape.advance 1)
    else if c = 38 ∨ c = 61 then some token
    else StringToken n (token.advance 1)

def ParseStringToken (pos : WString) : Token := (StringToken (pos.length + 1) ⟨.string,pos,0⟩).getD kInvalidToken

def ParseToken (before : Reader) : Token × Reader :=
  let reader := { before with pos_ := EatWhitesspaceAndComments before.pos_ }
  let pos := reader.pos_
  let c := charAt pos 0
  if c = 110 then ((if NextStringMatch pos kNullString then ⟨.nullToken,pos,4⟩ else ParseStringToken pos),reader)
  else if c = 116 then ((if NextStringMatch pos kTrueString then ⟨.boolTrue,pos,4⟩ else ParseStringToken pos),reader)
  else if c = 102 then ((if NextStringMatch pos kFalseString then ⟨.boolFalse,pos,4⟩ else ParseStringToken pos),reader)
  else if c = 38 then (⟨.listSeparator,pos,1⟩,reader)
  else if c = 61 then (⟨.objectPairSeparator,pos,1⟩,reader)
  else if isDigit c ∨ c = 45 then ((if NextNumberMatch pos then ParseNumberToken pos else ParseStringToken pos),reader)
  else if c = 0 then (⟨.objectEnd,pos,0⟩,reader)
  else (ParseStringToken pos,reader)

def DecodeString (token : Token) : Option (List UInt8) :=
  (DecodeCharacters token.begin_ token.length (token.length + 1) 0).map WideToUTF8

/-! ### Values -/

section Read
variable (StringToDouble : List UInt8 → Option Float)

mutual

/-- Without fuel there is no outcome; the outcome without a value is NULL. Where it is,
the depth stays as it was counted up. -/
def BuildValue : Nat → Bool → Reader → Option (Option Value × Reader)
  | 0,_,_ => none
  | n + 1,is_root,before =>
    if kStackLimit < before.deeper.stack_depth_ then
      some (none,before.deeper.SetErrorCode .tooMuchNesting before.deeper.pos_)
    else
      let (token,reader) := if is_root then (⟨.objectBegin,before.deeper.pos_,0⟩,before.deeper) else ParseToken before.deeper
      match token.type with
      | .invalidToken => some (none,reader)
      | .nullToken => some (some .null,reader.leave token)
      | .boolTrue => some (some (.fundamental (.boolean true)),reader.leave token)
      | .boolFalse => some (some (.fundamental (.boolean false)),reader.leave token)
      | .string =>
        match DecodeString token with
        | some node => some (some (.string node),reader.leave token)
        | none => some (none,reader)
      | .number =>
        match DecodeNumber StringToDouble token with
        | some node => some (some node,reader.leave token)
        | none => some (none,reader)
      | .objectBegin =>
        let (token,reader) := ParseToken (reader.advance token.length)
        (BuildPairs n token [] reader).bind fun
          | (some (dict,token),reader) => some (some (.dictionary dict),reader.leave token)
          | (none,reader) => some (none,reader)
      | _ => some (none,reader)

/-- The loop over the pairs, with the token it ends at. -/
def BuildPairs : Nat → Token → ValueMap Value → Reader → Option (Option (ValueMap Value × Token) × Reader)
  | 0,_,_,_ => none
  | n + 1,token,dict,before =>
    if token.type = .objectEnd then some (some (dict,token),before)
    else if token.type ≠ .string then some (none,before.SetErrorCode .unquotedDictionaryKey before.pos_)
    else
      match DecodeString token with
      | none => some (none,before)
      | some dict_key_value =>
        let dict_key := UTF8ToWide dict_key_value
        let (token,reader) := ParseToken (before.advance token.length)
        if token.type ≠ .objectPairSeparator then some (none,reader)
        else
          let (_,reader) := ParseToken (reader.advance token.length)
          (BuildValue n false reader).bind fun (dict_value,reader) =>
            -- a missing value is the empty string
            let dict := dict.assign dict_key (dict_value.getD (.string []))
            let (token,reader) := ParseToken reader
            if token.type = .listSeparator then
              let (token,reader) := ParseToken (reader.advance token.length)
              BuildPairs n token dict reader
            else if token.type = .objectEnd then some (some (dict,token),reader)
            else some (none,reader)

end

/-- The last byte is overwritten by the end of the string, so that there has to be
one; the `error_code` is never NULL. -/
def Deserialize (fuel : Nat) (before : Reader) (http_string : List UInt8) : Option (Option Value × Reader) :=
  if http_string = [] then none
  else
    let http_wide := UTF8ToWide (http_string.dropLast ++ [0])
    let start_pos := if charAt http_wide 0 = 0xfeff then http_wide.drop 1 else http_wide
    let reader : Reader := { before with
      start_pos_ := start_pos
      pos_ := start_pos
      stack_depth_ := 0
      allow_trailing_comma_ := true
      error_code_ := .noError }
    (BuildValue StringToDouble fuel true reader).map fun
      | (some root,reader) =>
        let (token,reader) := ParseToken reader
        if token.type = .endOfInput then (some root,reader)
        else
          let (token,reader) := ParseToken reader
          if token.type = .listSeparator then (some root,reader)
          else (some root,reader.SetErrorCode .unexpectedDataAfterRoot reader.pos_)
      | (none,reader) => (none,reader)

end Read

end HttpValueSerializer
end Migfm.Logic
