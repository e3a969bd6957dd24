import Migfm.Logic.ValueSerializer

/-! The reader of public/json: tokens, strings, numbers, objects and arrays. Comments
are read and dropped; what an error message says is not modelled. -/
namespace Migfm.Public.Json
open Logic (ascii)

inductive Value
  | null
  | boolean (value : Bool)
  | int (value : Int64)
  | uint (value : UInt64)
  | real (value : Float)
  | string (value : List UInt8)
  | array (items : List Value)
  | object (members : List (List UInt8 × Value))

/-! ### Tokens -/

/-- A string and a number stand with their text, escapes included. -/
inductive Token
  | objectBegin
  | objectEnd
  | arrayBegin
  | arrayEnd
  | string (content : List UInt8)
  | number (text : List UInt8)
  | true_
  | false_
  | null
  | arraySeparator
  | memberSeparator
  | comment
  | endOfStream
  | error
deriving DecidableEq

def skipSpaces (text : List UInt8) : List UInt8 := text.dropWhile fun c => c = 32 ∨ c = 9 ∨ c = 13 ∨ c = 10

/-- What stands before the closing quote, and what follows it. -/
def readString : List UInt8 → Option (List UInt8 × List UInt8)
  | [] => none
  | 34::rest => some ([],rest)
  | 92::c::rest => (readString rest).map fun (content,rest) => (92::c::content,rest)
  | c::rest => (readString rest).map fun (content,rest) => (c::content,rest)

def readCStyleComment : List UInt8 → Option (List UInt8)
  | [] => none
  | 42::47::rest => some rest
  | _::rest => readCStyleComment rest

def readCppStyleComment : List UInt8 → List UInt8
  | [] => []
  | c::rest => if c = 13 ∨ c = 10 then rest else readCppStyleComment rest

def readComment : List UInt8 → Token × List UInt8
  | [] => (.error,[])
  | 42::rest =>
    match readCStyleComment rest with
    | some rest => (.comment,rest)
    | none => (.error,[])
  | 47::rest => (.comment,readCppStyleComment rest)
  | _::rest => (.error,rest)

/-- `match(pattern,length)`. -/
def word (token : Token) (pattern : String) (text : List UInt8) : Token × List UInt8 :=
  if (ascii pattern).isPrefixOf text then (token,text.drop pattern.length) else (.error,text)

def isNumber (c : UInt8) : Bool := (48 ≤ c ∧ c ≤ 57) ∨ c = 46 ∨ c = 101 ∨ c = 69 ∨ c = 43 ∨ c = 45

def readToken (text : List UInt8) : Token × List UInt8 :=
  match skipSpaces text with
  | [] => (.endOfStream,[])
  | 123::rest => (.objectBegin,rest)
  | 125::rest => (.objectEnd,rest)
  | 91::rest => (.arrayBegin,rest)
  | 93::rest => (.arrayEnd,rest)
  | 34::rest =>
    match readString rest with
    | some (content,rest) => (.string content,rest)
    | none => (.error,[])
  | 47::rest => readComment rest
  | 116::rest => word .true_ "rue" rest
  | 102::rest => word .false_ "alse" rest
  | 110::rest => word .null "ull" rest
  | 44::rest => (.arraySeparator,rest)
  | 58::rest => (.memberSeparator,rest)
  | 0::rest => (.endOfStream,rest)
  | c::rest =>
    if (48 ≤ c ∧ c ≤ 57) ∨ c = 45 then (.number (c::rest.takeWhile isNumber),rest.dropWhile isNumber) else (.error,rest)

theorem skipSpaces_suffix (text : List UInt8) : skipSpaces text <:+ text := List.dropWhile_suffix _

theorem readString_eq {text content rest : List UInt8} (read : readString text = some (content,rest)) :
    text = content ++ 34::rest := by
  induction text using readString.induct generalizing content with
  | case1 => cases read
  | case2 rest => cases read; rfl
  | case3 c rest ih =>
    rw [readString,Option.map_eq_some_iff] at read
    obtain ⟨⟨inner,after⟩,read,same⟩ := read
    cases same
    rw [ih read,List.cons_append,List.cons_append]
  | case4 c rest other escape ih =>
    rw [readString,Option.map_eq_some_iff] at read
    · obtain ⟨⟨inner,after⟩,read,same⟩ := read
      cases same
      rw [ih read,List.cons_append]
    · exact other
    · exact escape

theorem readCStyleComment_suffix {text rest : List UInt8} (read : readCStyleComment text = some rest) : rest <:+ text := by
  induction text using readCStyleComment.induct with
  | case1 => cases read
  | case2 after =>
    cases read
    exact ⟨[42,47],rfl⟩
  | case3 c after other ih =>
    rw [readCStyleComment] at read
    · exact (ih read).trans (List.suffix_cons c after)
    · exact other

theorem readCppStyleComment_suffix (text : List UInt8) : readCppStyleComment text <:+ text := by
  induction text with
  | nil => exact List.suffix_refl []
  | cons c rest ih =>
    rw [readCppStyleComment]
    split
    · exact List.suffix_cons c rest
    · exact ih.trans (List.suffix_cons c rest)

theorem readComment_suffix (text : List UInt8) : (readComment text).2 <:+ text := by
  rw [readComment.eq_def]
  split
  · exact List.suffix_refl []
  · rename_i rest
    split
    · rename_i after read
      exact (readCStyleComment_suffix read).trans (List.suffix_cons 42 rest)
    · exact List.nil_suffix
  · rename_i rest
    exact (readCppStyleComment_suffix rest).trans (List.suffix_cons 47 rest)
  · rename_i c rest _ _
    exact List.suffix_cons c rest

theorem word_suffix (token : Token) (pattern : String) (text : List UInt8) : (word token pattern text).2 <:+ text := by
  rw [word]
  split
  · exact List.drop_suffix pattern.length text
  · exact List.suffix_refl text

theorem readToken_cons {text rest : List UInt8} {c : UInt8} (first : skipSpaces text = c::rest) :
    (readToken text).2 <:+ rest := by
  rw [readToken,first]
  split <;> rename_i found
  all_goals cases found
  all_goals try exact List.suffix_refl rest
  · split
    · rename_i content after read
      rw [readString_eq read]
      exact (List.suffix_cons 34 after).trans (List.suffix_append content (34::after))
    · exact List.nil_suffix
  · exact readComment_suffix rest
  · exact word_suffix .true_ "rue" rest
  · exact word_suffix .false_ "alse" rest
  · exact word_suffix .null "ull" rest
  · split
    · exact List.dropWhile_suffix isNumber
    · exact List.suffix_refl rest

theorem readToken_suffix (text : List UInt8) : (readToken text).2 <:+ text := by
  cases first : skipSpaces text with
  | nil =>
    rw [readToken,first]
    exact List.nil_suffix
  | cons c rest =>
    have spaces := skipSpaces_suffix text
    rw [first] at spaces
    exact (readToken_cons first).trans ((List.suffix_cons c rest).trans spaces)

theorem readToken_shorter {text rest : List UInt8} {token : Token} (read : readToken text = (token,rest))
    (more : token ≠ .endOfStream) : rest.length < text.length := by
  cases first : skipSpaces text with
  | nil =>
    rw [readToken,first] at read
    cases read
    exact absurd rfl more
  | cons c after =>
    have spaces := skipSpaces_suffix text
    have shorter := readToken_cons first
    rw [first] at spaces
    rw [read] at shorter
    exact Nat.lt_of_le_of_lt shorter.length_le spaces.length_le

def skipCommentTokens (text : List UInt8) : Token × List UInt8 :=
  match _ : readToken text with
  | (.comment,rest) => skipCommentTokens rest
  | found => found
termination_by text.length
decreasing_by exact readToken_shorter ‹_› (by simp)

/-! ### Values -/

def hexDigit (c : UInt8) : Option Nat :=
  if 48 ≤ c ∧ c ≤ 57 then some (c.toNat - 48)
  else if 97 ≤ c ∧ c ≤ 102 then some (c.toNat - 97 + 10)
  else if 65 ≤ c ∧ c ≤ 70 then some (c.toNat - 65 + 10)
  else none

def decodeUnicodeEscapeSequence : List UInt8 → Option (Nat × List UInt8)
  | a::b::c::d::current => do
    let a ← hexDigit a
    let b ← hexDigit b
    let c ← hexDigit c
    let d ← hexDigit d
    return (((a * 16 + b) * 16 + c) * 16 + d,current)
  | _ => none

def decodeUnicodeCodePoint (current : List UInt8) : Option (Nat × List UInt8) :=
  match decodeUnicodeEscapeSequence current with
  | none => none
  | some (unicode,current) =>
    if 0xd800 ≤ unicode ∧ unicode ≤ 0xdbff then
      match current with
      | 92::117::current => (decodeUnicodeEscapeSequence current).map fun (surrogatePair,current) =>
        (0x10000 + ((unicode &&& 0x3ff) <<< 10) + (surrogatePair &&& 0x3ff),current)
      | _ => none
    else some (unicode,current)

def escape : UInt8 → Option UInt8
  | 34 => some 34
  | 47 => some 47
  | 92 => some 92
  | 98 => some 8
  | 102 => some 12
  | 110 => some 10
  | 114 => some 13
  | 116 => some 9
  | _ => none

theorem decodeUnicodeEscapeSequence_length {current rest : List UInt8} {unicode : Nat}
    (decoded : decodeUnicodeEscapeSequence current = some (unicode,rest)) : current.length = rest.length + 4 := by
  rw [decodeUnicodeEscapeSequence.eq_def] at decoded
  split at decoded
  · simp only [Option.bind_eq_bind,Option.bind_eq_some_iff,Option.pure_def,Option.some.injEq,Prod.mk.injEq] at decoded
    obtain ⟨_,-,_,-,_,-,_,-,-,rfl⟩ := decoded
    rfl
  · cases decoded

theorem decodeUnicodeCodePoint_length {current rest : List UInt8} {unicode : Nat}
    (decoded : decodeUnicodeCodePoint current = some (unicode,rest)) : rest.length + 4 ≤ current.length := by
  rw [decodeUnicodeCodePoint] at decoded
  split at decoded
  · cases decoded
  · rename_i first after read
    have length := decodeUnicodeEscapeSequence_length read
    split at decoded
    · split at decoded
      · rename_i current
        rw [Option.map_eq_some_iff] at decoded
        obtain ⟨⟨second,last⟩,read,same⟩ := decoded
        cases same
        have := decodeUnicodeEscapeSequence_length read
        simp only [List.length_cons] at length
        omega
      · cases decoded
    · cases decoded
      exact length.ge

/-- Neither a quote nor a backslash. -/
def Plain (content : List UInt8) : Prop := ∀ c ∈ content, c ≠ 34 ∧ c ≠ 92

section Decoding
variable (codePointToUTF8 : Nat → List UInt8)

def decodeString : List UInt8 → Option (List UInt8)
  | [] => some []
  | 34::_ => some []
  | 92::117::current =>
    match _ : decodeUnicodeCodePoint current with
    | some (unicode,current) => (decodeString current).map (codePointToUTF8 unicode ++ ·)
    | none => none
  | 92::c::current => do
    let c ← escape c
    let decoded ← decodeString current
    return c::decoded
  | [92] => none
  | c::current => (decodeString current).map (c::·)
termination_by current => current.length
decreasing_by
  · have := decodeUnicodeCodePoint_length ‹_›
    simp only [List.length_cons]
    omega
  all_goals simp

theorem decodeString_plain {content : List UInt8} (plain : Plain content) :
    decodeString codePointToUTF8 content = some content := by
  induction content with
  | nil => rw [decodeString]
  | cons c rest ih =>
    obtain ⟨⟨quote,backslash⟩,plain⟩ := List.forall_mem_cons.mp plain
    rw [decodeString,ih plain]
    · rfl
    all_goals grind

/-- A text gets shorter where something is escaped in it. -/
theorem decodeString_length (short : ∀ unicode, (codePointToUTF8 unicode).length ≤ 4) {content decoded : List UInt8}
    (read : decodeString codePointToUTF8 content = some decoded) :
    decoded.length ≤ content.length ∧ (¬ Plain content → decoded.length < content.length) := by
  induction content using decodeString.induct generalizing decoded with
  | case1 =>
    rw [decodeString] at read
    cases read
    exact ⟨le_rfl,fun escaped => absurd (fun _ member => nomatch member) escaped⟩
  | case2 rest =>
    rw [decodeString] at read
    cases read
    simp
  | case3 current unicode rest point ih =>
    rw [decodeString] at read
    split at read
    · rename_i same
      rw [point] at same
      cases same
      rw [Option.map_eq_some_iff] at read
      obtain ⟨tail,read,rfl⟩ := read
      have tail := (ih read).1
      have length := decodeUnicodeCodePoint_length point
      have bytes := short unicode
      simp only [List.length_append,List.length_cons]
      omega
    · cases read
  | case4 current point =>
    rw [decodeString] at read
    split at read
    · rename_i same
      rw [point] at same
      cases same
    · cases read
  | case5 c current other ih =>
    rw [decodeString] at read
    · simp only [Option.bind_eq_bind,Option.bind_eq_some_iff,Option.pure_def,Option.some.injEq] at read
      obtain ⟨_,-,tail,read,rfl⟩ := read
      have tail := (ih read).1
      simp only [List.length_cons]
      omega
    · exact other
  | case6 =>
    rw [decodeString] at read
    cases read
  | case7 c current quote unicode escape alone ih =>
    rw [decodeString,Option.map_eq_some_iff] at read
    · obtain ⟨tail,read,rfl⟩ := read
      obtain ⟨tail,shorter⟩ := ih read
      refine ⟨Nat.succ_le_succ tail,fun escaped => Nat.succ_lt_succ (shorter fun plain => escaped ?_)⟩
      refine List.forall_mem_cons.mpr ⟨⟨quote,fun backslash => ?_⟩,plain⟩
      cases current with
      | nil => exact alone backslash rfl
      | cons first current => exact escape first current backslash rfl
    · exact quote
    · exact unicode
    · exact escape
    · exact alone

end Decoding

section Numbers

/-- The digits as far as they stay below the largest integer; none where the number
is decoded as a double. -/
def decodeDigits (threshold lastDigitThreshold value : UInt64) : List UInt8 → Option UInt64
  | [] => some value
  | c::current =>
    let digit := (c - 48).toUInt64
    if value ≥ threshold ∧ (current ≠ [] ∨ digit > lastDigitThreshold) then none
    else decodeDigits threshold lastDigitThreshold (value * 10 + digit) current

/-- `sscanf` with `%lf`. -/
def decodeNumber (sscanf : List UInt8 → Option Float) (token : List UInt8) : Option Value :=
  let isDouble := token.any (· ∈ [46,101,69,43]) || (token.drop 1).any (· = 45)
  let decodeDouble := (sscanf token).map .real
  if isDouble then decodeDouble
  else
    match token with
    | 45::digits =>
      match decodeDigits (0x8000000000000000 / 10) (0x8000000000000000 % 10) 0 digits with
      | none => decodeDouble
      | some value => some (.int (-value.toInt64))
    | digits =>
      match decodeDigits (0xffffffffffffffff / 10) (0xffffffffffffffff % 10) 0 digits with
      | none => decodeDouble
      | some value => some (if value ≤ 0x7fffffff then .int value.toInt64 else .uint value)

end Numbers

/-! ### Objects and arrays -/

section Reading
variable (codePointToUTF8 : Nat → List UInt8) (sscanf : List UInt8 → Option Float)

/-- A `char*` ends at its first zero. -/
def c_str (text : List UInt8) : List UInt8 := text.takeWhile (· ≠ 0)

def readColon (text : List UInt8) : Option (List UInt8) :=
  match readToken text with
  | (.memberSeparator,rest) => some rest
  | _ => none

/-- Whether the object ends. After a comment any token stands for a comma. -/
def readComma (text : List UInt8) : Option (Bool × List UInt8) :=
  match readToken text with
  | (.objectEnd,rest) => some (true,rest)
  | (.arraySeparator,rest) => some (false,rest)
  | (.comment,rest) =>
    let (comma,rest) := skipCommentTokens rest
    some (comma = .objectEnd,rest)
  | _ => none

mutual

def readValue : Nat → List UInt8 → Option (Value × List UInt8)
  | 0, _ => none
  | fuel + 1, text =>
    match skipCommentTokens text with
    | (.objectBegin,rest) => readObject fuel [] [] rest
    | (.arrayBegin,rest) =>
      match skipSpaces rest with
      | 93::rest => some (.array [],rest)
      | _ => readArray fuel [] rest
    | (.number token,rest) => (decodeNumber sscanf token).map (·,rest)
    | (.string content,rest) => (decodeString codePointToUTF8 content).map (.string ·,rest)
    | (.true_,rest) => some (.boolean true,rest)
    | (.false_,rest) => some (.boolean false,rest)
    | (.null,rest) => some (.null,rest)
    | _ => none

/-- The last member of a name is in front. -/
def readObject : Nat → List (List UInt8 × Value) → List UInt8 → List UInt8 → Option (Value × List UInt8)
  | 0, _, _, _ => none
  | fuel + 1, members, name, text =>
    match skipCommentTokens text with
    | (.objectEnd,rest) => if name = [] then some (.object members,rest) else none
    | (.string content,rest) => do
      let name ← decodeString codePointToUTF8 content
      let rest ← readColon rest
      let (value,rest) ← readValue fuel rest
      let (ends,rest) ← readComma rest
      let members := (c_str name,value)::members
      if ends then some (.object members,rest) else readObject fuel members name rest
    | _ => none

def readArray : Nat → List Value → List UInt8 → Option (Value × List UInt8)
  | 0, _, _ => none
  | fuel + 1, items, text => do
    let (value,rest) ← readValue fuel text
    match skipCommentTokens rest with
    | (.arraySeparator,rest) => readArray fuel (items ++ [value]) rest
    | (.arrayEnd,rest) => some (.array (items ++ [value]),rest)
    | _ => none

end

/-- Twice the length of the document is fuel enough. -/
def parse (fuel : Nat) (document : List UInt8) : Option Value := (readValue codePointToUTF8 sscanf fuel document).map Prod.fst

def readDocument (document : List UInt8) : Option Value := parse codePointToUTF8 sscanf (2 * document.length + 2) document

end Reading

namespace Value

/-- `root[name]`: a value that is no object fails an assertion. -/
def member (name : List UInt8) : Value → Option Value
  | .null => some .null
  | .object members => some ((members.lookup name).getD .null)
  | _ => none

/-- A number, an array and an object throw. -/
def asString : Value → Option (List UInt8)
  | .null => some []
  | .string value => some (c_str value)
  | .boolean value => some (ascii (if value then "true" else "false"))
  | _ => none

def text (name : List UInt8) (root : Value) : Option (List UInt8) := (root.member name).bind asString

def asInt : Value → Option Int32
  | .null => some 0
  | .int value => if -0x80000000 ≤ value ∧ value ≤ 0x7fffffff then some value.toInt32 else none
  | .uint value => if value ≤ 0x7fffffff then some value.toUInt32.toInt32 else none
  | .real value => if -2147483648 ≤ value ∧ value ≤ 2147483647 then some value.toInt32 else none
  | .boolean value => some (if value then 1 else 0)
  | _ => none

end Value

end Migfm.Public.Json
