import Migfm.Logic.StringConversions

/-! The tokens of logic/value_serializer.h and the functions that the JSON and the
HTTP serializer have in common, body for body. A position is the text from
there on, which ends in a NUL; `strtod` is a parameter. -/
namespace Migfm.Logic

inductive ParseError
  | noError | badRootElementType | invalidEscape | syntaxError | trailingComma | tooMuchNesting
  | unexpectedDataAfterRoot | unsupportedEncoding | unquotedDictionaryKey
  deriving DecidableEq

inductive TokenType
  | string | number | boolTrue | boolFalse | nullToken | listSeparator | objectPairSeparator | objectBegin
  | objectEnd | arrayBegin | arrayEnd | endOfInput | invalidToken
  deriving DecidableEq

structure Token where
  type : TokenType
  begin_ : WString
  length : Nat

def kInvalidToken : Token := ⟨.invalidToken,[],0⟩

/-- The character `i` places on. -/
def charAt (pos : WString) (i : Nat) : Nat := pos.getD i 0

namespace Token

def NextChar (token : Token) : Nat := charAt token.begin_ token.length

def advance (token : Token) (n : Nat) : Token := { token with length := token.length + n }

end Token

/-- The fields of a serializer that its reader uses. -/
structure Reader where
  start_pos_ : WString
  pos_ : WString
  stack_depth_ : Nat
  allow_trailing_comma_ : Bool
  error_code_ : ParseError
  error_line_ : Nat
  error_col_ : Nat

namespace Reader

def advance (reader : Reader) (n : Nat) : Reader := { reader with pos_ := reader.pos_.drop n }

/-- `++stack_depth_` -/
def deeper (reader : Reader) : Reader := { reader with stack_depth_ := reader.stack_depth_ + 1 }

/-- The end of a value with its last token. -/
def leave (reader : Reader) (token : Token) : Reader :=
  { reader.advance token.length with stack_depth_ := reader.stack_depth_ - 1 }

/-- The line and the column are counted from the start to the error, unless a NUL is
met on the way. -/
def SetErrorCode (reader : Reader) (error : ParseError) (error_pos : WString) : Reader :=
  let before := reader.start_pos_.take (reader.start_pos_.length - error_pos.length)
  if 0 ∈ before then reader
  else { reader with
    error_code_ := error
    error_line_ := 1 + before.count 10
    error_col_ := 1 + (before.reverse.takeWhile (· ≠ 10)).length }

end Reader

def kStackLimit : Nat := 100

def kNullString : WString := [110,117,108,108]
def kTrueString : WString := [116,114,117,101]
def kFalseString : WString := [102,97,108,115,101]

def NextStringMatch (pos str : WString) : Bool := str.isPrefixOf pos

def isDigit (c : Nat) : Bool := 48 ≤ c ∧ c ≤ 57

/-! ### Numbers -/

/-- The token with the digits, if there are some and no leading zero is in the way. -/
def ReadInt (token : Token) (can_have_leading_zeros : Bool) : Option Token :=
  let digits := (token.begin_.drop token.length).takeWhile isDigit
  if digits = [] then none
  else if ¬can_have_leading_zeros ∧ 1 < digits.length ∧ token.NextChar = 48 then none
  else some (token.advance digits.length)

def ReadFraction (token : Token) : Option Token :=
  if token.NextChar = 46 then ReadInt (token.advance 1) true else some token

def ReadExponent (token : Token) : Option Token :=
  if token.NextChar = 101 ∨ token.NextChar = 69 then
    let exponent := token.advance 1
    if exponent.NextChar = 45 ∨ exponent.NextChar = 43 then ReadInt (exponent.advance 1) true
    else ReadInt exponent true
  else some token

def ParseNumberToken (pos : WString) : Token :=
  let token : Token := ⟨.number,pos,0⟩
  let signed := if charAt pos 0 = 45 then token.advance 1 else token
  (((ReadInt signed false).bind ReadFraction).bind ReadExponent).getD kInvalidToken

/-- The number that decimal digits denote. -/
def denoted (digits : List UInt8) : Nat := digits.foldl (fun n digit => 10 * n + (digit.toNat - 48)) 0

/-- `strtoll` has to read all of the input, without overflow. -/
def StringToInt64 (input : List UInt8) : Option Int64 :=
  let (negative,digits) := match input with
    | 45::digits => (true,digits)
    | 43::digits => (false,digits)
    | digits => (false,digits)
  if digits = [] ∨ ¬digits.all fun digit => isDigit digit.toNat then none
  else
    let n : Int := if negative then -denoted digits else denoted digits
    if -2 ^ 63 ≤ n ∧ n < 2 ^ 63 then some (Int64.ofInt n) else none

def DecodeNumber (StringToDouble : List UInt8 → Option Float) (token : Token) : Option Value :=
  let num_string := WideToASCII (token.begin_.take token.length)
  match StringToInt64 num_string with
  | some num_int64 => some (.fundamental (.bigInteger num_int64))
  | none => ((StringToDouble num_string).filter Float.isFinite).map fun num_double => .fundamental (.real num_double)

/-! ### Formatting -/

def decimalDigits (n : Nat) : List UInt8 := (Nat.toDigits 10 n).map fun digit => digit.toNat.toUInt8

/-- `%d` and `%ld`. -/
def decimal (n : Int) : List UInt8 := if n < 0 then 45::decimalDigits n.natAbs else decimalDigits n.natAbs

def ascii (text : String) : List UInt8 := text.toList.map fun c => c.toNat.toUInt8

/-! ### Strings -/

def HexToInt (c : Nat) : Nat :=
  if 48 ≤ c ∧ c ≤ 57 then c - 48
  else if 65 ≤ c ∧ c ≤ 70 then c - 65 + 10
  else if 97 ≤ c ∧ c ≤ 102 then c - 97 + 10
  else 0

def isHexDigit (c : Nat) : Bool := isDigit c ∨ (97 ≤ c ∧ c ≤ 102) ∨ (65 ≤ c ∧ c ≤ 70)

def ReadHexDigits (token : Token) (digits : Nat) : Option Token :=
  if (List.range digits).all fun i => isHexDigit (charAt token.begin_ (token.length + (i + 1)))
  then some (token.advance digits) else none

/-- What the letter after a backslash stands for, where it stands for one character. -/
def singleEscape (c : Nat) : Option Nat :=
  if c = 34 ∨ c = 47 ∨ c = 92 then some c
  else if c = 98 then some 8
  else if c = 102 then some 12
  else if c = 110 then some 10
  else if c = 114 then some 13
  else if c = 116 then some 9
  else if c = 118 then some 11
  else none

/-- The loop of `DecodeString` from `i` to `last`. -/
def DecodeCharacters (begin_ : WString) (last : Nat) : Nat → Nat → Option WString
  | 0,_ => some []
  | n + 1,i =>
    if last ≤ i then some []
    else if charAt begin_ i ≠ 92 then (DecodeCharacters begin_ last n (i + 1)).map (charAt begin_ i :: ·)
    else
      let c := charAt begin_ (i + 1)
      let hex (k : Nat) := HexToInt (charAt begin_ (i + 1 + k))
      match singleEscape c with
      | some decoded => (DecodeCharacters begin_ last n (i + 2)).map (decoded :: ·)
      | none =>
        if c = 120 then (DecodeCharacters begin_ last n (i + 4)).map (((hex 1 <<< 4) + hex 2) :: ·)
        else if c = 117 then
          (DecodeCharacters begin_ last n (i + 6)).map (((hex 1 <<< 12) + (hex 2 <<< 8) + (hex 3 <<< 4) + hex 4) :: ·)
        else none

/-! ### Positions -/

namespace Reader

/-- The reader at a position. -/
def seek (reader : Reader) (pos : WString) : Reader := { reader with pos_ := pos }

@[simp] theorem pos_seek (reader : Reader) (pos : WString) : (reader.seek pos).pos_ = pos := rfl

@[simp] theorem seek_seek (reader : Reader) (pos other : WString) : (reader.seek other).seek pos = reader.seek pos := rfl

theorem seek_self {reader : Reader} {pos : WString} (same : reader.pos_ = pos) : reader.seek pos = reader := by
  subst same
  rfl

theorem SetErrorCode_pos (reader : Reader) (error : ParseError) (pos : WString) :
    (reader.SetErrorCode error pos).pos_ = reader.pos_ ∧ (reader.SetErrorCode error pos).stack_depth_ = reader.stack_depth_ := by
  unfold SetErrorCode
  dsimp only
  split
  · exact ⟨rfl,rfl⟩
  · exact ⟨rfl,rfl⟩

theorem deeper_seek (reader : Reader) (pos : WString) : (reader.seek pos).deeper = reader.deeper.seek pos := rfl

theorem not_nested {reader : Reader} {levels : Nat} (room : reader.stack_depth_ + levels < kStackLimit) (pos : WString) :
    ¬kStackLimit < (reader.deeper.seek pos).stack_depth_ := by
  change ¬kStackLimit < reader.stack_depth_ + 1
  omega

theorem advance_seek {reader : Reader} {before pos : WString} {n : Nat} (length : n = before.length) :
    (reader.seek (before ++ pos)).advance n = reader.seek pos := by
  rw [advance,pos_seek,length,List.drop_left]
  rfl

theorem advance_one (reader : Reader) (c : Nat) (pos : WString) : (reader.seek (c::pos)).advance 1 = reader.seek pos := rfl

/-- A value leaves the reader as deep as it was. -/
theorem leave_seek {reader : Reader} {before pos : WString} {token : Token} (length : token.length = before.length) :
    (reader.deeper.seek (before ++ pos)).leave token = reader.seek pos := by
  rw [leave,advance_seek length]
  rfl

end Reader

/-! ### Decimal numbers -/

theorem decimalDigits_lt {n : Nat} (small : n < 10) : decimalDigits n = [(48 + n).toUInt8] := by
  rw [decimalDigits,Nat.toDigits_of_lt_base small,List.map_singleton,Nat.toNat_digitChar_of_lt_ten small]

theorem decimalDigits_ge {n : Nat} (large : 10 ≤ n) :
    decimalDigits n = decimalDigits (n / 10) ++ [(48 + n % 10).toUInt8] := by
  rw [decimalDigits,Nat.toDigits_of_base_le (by decide) large,List.map_append,List.map_singleton,
    Nat.toNat_digitChar_of_lt_ten (Nat.mod_lt _ (by decide))]
  rfl

/-- Induction over the digits of a number, from the first. -/
theorem decimal_rule {motive : Nat → Prop} (single : ∀ n < 10, motive n)
    (more : ∀ n, 10 ≤ n → motive (n / 10) → motive n) (n : Nat) : motive n := by
  induction n using Nat.strongRecOn with
  | ind n ih =>
    by_cases small : n < 10
    · exact single n small
    · exact more n (Nat.not_lt.mp small) (ih (n / 10) (by omega))

theorem digit_toNat {d : Nat} (small : d < 10) : (48 + d).toUInt8.toNat = 48 + d := Nat.mod_eq_of_lt (by omega)

theorem isDigit_decimalDigits (n : Nat) : ∀ digit ∈ decimalDigits n, isDigit digit.toNat := by
  induction n using decimal_rule with
  | single n small =>
    rw [decimalDigits_lt small]
    intro digit member
    rw [List.mem_singleton.mp member,digit_toNat small,isDigit,decide_eq_true_iff]
    omega
  | more n large ih =>
    rw [decimalDigits_ge large]
    intro digit member
    rcases List.mem_append.mp member with member | member
    · exact ih digit member
    · rw [List.mem_singleton.mp member,digit_toNat (Nat.mod_lt _ (by decide)),isDigit,decide_eq_true_iff]
      omega

theorem denoted_decimalDigits (n : Nat) : denoted (decimalDigits n) = n := by
  induction n using decimal_rule with
  | single n small =>
    rw [decimalDigits_lt small,denoted,List.foldl_cons,digit_toNat small]
    simp
  | more n large ih =>
    rw [decimalDigits_ge large,denoted,List.foldl_append,← denoted,ih,List.foldl_cons,digit_toNat (Nat.mod_lt _ (by decide))]
    simp
    omega

/-- Only the number 0 begins with the digit 0. -/
theorem decimalDigits_head (n : Nat) : ∃ digit digits, decimalDigits n = digit::digits ∧ (digit = 48 → digits = []) := by
  induction n using decimal_rule with
  | single n small => exact ⟨_,[],decimalDigits_lt small,fun _ => rfl⟩
  | more n large ih =>
    obtain ⟨digit,digits,starts,zero⟩ := ih
    refine ⟨digit,digits ++ [(48 + n % 10).toUInt8],?_,?_⟩
    · rw [decimalDigits_ge large,starts,List.cons_append]
    · intro same
      have number := denoted_decimalDigits (n / 10)
      rw [starts,zero same,same,denoted] at number
      simp at number
      omega

/-! ### Reading numbers -/

/-- ASCII characters, widened. -/
def wide (bytes : List UInt8) : WString := bytes.map UInt8.toNat

theorem WideToASCII_wide (bytes : List UInt8) : WideToASCII (wide bytes) = bytes := by
  rw [WideToASCII,wide,List.map_map]
  exact (List.map_congr_left fun byte _ => UInt8.ofNat_toNat).trans (List.map_id bytes)

@[simp] theorem charAt_cons (c : Nat) (pos : WString) : charAt (c::pos) 0 = c := rfl

@[simp] theorem Token.advance_advance (token : Token) (m n : Nat) : (token.advance m).advance n = token.advance (m + n) :=
  congrArg (Token.mk token.type token.begin_) (Nat.add_assoc ..)

theorem charAt_append {before pos : WString} {i : Nat} (length : i = before.length) : charAt (before ++ pos) i = charAt pos 0 := by
  rw [charAt,charAt,List.getD_eq_getElem?_getD,List.getD_eq_getElem?_getD,length,List.getElem?_append_right le_rfl,Nat.sub_self]

theorem charAt_append_left {before : WString} (some_ : before ≠ []) (pos : WString) :
    charAt (before ++ pos) 0 = charAt before 0 := by
  obtain ⟨c,rest,rfl⟩ := List.exists_cons_of_ne_nil some_
  rfl

/-- No number goes on there. -/
structure Delimited (pos : WString) : Prop where
  digit : ¬isDigit (charAt pos 0)
  point : charAt pos 0 ≠ 46
  small : charAt pos 0 ≠ 101
  capital : charAt pos 0 ≠ 69

theorem takeWhile_isDigit {digits pos : WString} (each : ∀ digit ∈ digits, isDigit digit) (ends : ¬isDigit (charAt pos 0)) :
    (digits ++ pos).takeWhile isDigit = digits := by
  have none_ : pos.takeWhile isDigit = [] := by
    cases pos with
    | nil => rfl
    | cons c pos => exact List.takeWhile_cons_of_neg ends
  rw [List.takeWhile_append_of_pos each,none_,List.append_nil]

theorem ReadInt_digits {token : Token} {before digits pos : WString} (starts : token.begin_ = before ++ (digits ++ pos))
    (length : token.length = before.length) (some_ : digits ≠ []) (each : ∀ digit ∈ digits, isDigit digit)
    (ends : ¬isDigit (charAt pos 0)) {zeros : Bool} (leading : zeros = false → 1 < digits.length → charAt digits 0 ≠ 48) :
    ReadInt token zeros = some (token.advance digits.length) := by
  have scanned : (token.begin_.drop token.length).takeWhile isDigit = digits := by
    rw [starts,length,List.drop_left,takeWhile_isDigit each ends]
  have first : token.NextChar = charAt digits 0 := by
    rw [Token.NextChar,starts,charAt_append length,charAt_append_left some_]
  rw [ReadInt,scanned,if_neg some_,first,if_neg]
  rintro ⟨strict,many,zero⟩
  exact leading (by simpa using strict) many zero

/-- The optional fraction of a number. -/
inductive Fraction : WString → Prop
  | none : Fraction []
  | some {digits : WString} (some_ : digits ≠ []) (each : ∀ digit ∈ digits, isDigit digit) : Fraction (46::digits)

/-- The optional exponent of a number. -/
inductive Exponent : WString → Prop
  | none : Exponent []
  | some {mark : Nat} {sign digits : WString} (marked : mark = 101 ∨ mark = 69) (signed : sign = [] ∨ sign = [45] ∨ sign = [43])
      (some_ : digits ≠ []) (each : ∀ digit ∈ digits, isDigit digit) : Exponent (mark::(sign ++ digits))

theorem ReadFraction_part {token : Token} {before fraction pos : WString} (starts : token.begin_ = before ++ (fraction ++ pos))
    (length : token.length = before.length) (part : Fraction fraction) (ends : ¬isDigit (charAt pos 0)) (point : charAt pos 0 ≠ 46) :
    ReadFraction token = some (token.advance fraction.length) := by
  have next : token.NextChar = charAt (fraction ++ pos) 0 := by rw [Token.NextChar,starts,charAt_append length]
  cases part with
  | none => exact if_neg (next ▸ point)
  | @some digits some_ each =>
    have read := @ReadInt_digits (token.advance 1) (before ++ [46]) digits pos (by rw [Token.advance,starts]; simp)
      (by rw [Token.advance,length,List.length_append]; rfl) some_ each ends true nofun
    have point : token.NextChar = 46 := next
    rw [ReadFraction,if_pos point,read,Token.advance_advance,List.length_cons,Nat.add_comm]

theorem ReadExponent_part {token : Token} {before exponent pos : WString} (starts : token.begin_ = before ++ (exponent ++ pos))
    (length : token.length = before.length) (part : Exponent exponent) (delimited : Delimited pos) :
    ReadExponent token = some (token.advance exponent.length) := by
  have next : token.NextChar = charAt (exponent ++ pos) 0 := by rw [Token.NextChar,starts,charAt_append length]
  cases part with
  | none => exact if_neg (next ▸ not_or.mpr ⟨delimited.small,delimited.capital⟩)
  | @some mark sign digits marked signed some_ each =>
    have behind : (token.advance 1).NextChar = charAt (sign ++ digits) 0 := by
      rw [Token.NextChar,Token.advance,starts,← charAt_append_left (List.append_ne_nil_of_right_ne_nil sign some_) pos]
      have moved : before ++ (mark::(sign ++ digits) ++ pos) = (before ++ [mark]) ++ (sign ++ digits ++ pos) := by simp
      rw [moved]
      exact charAt_append (by rw [length,List.length_append]; rfl)
    have unsigned : charAt digits 0 ≠ 45 ∧ charAt digits 0 ≠ 43 := by
      obtain ⟨digit,others,rfl⟩ := List.exists_cons_of_ne_nil some_
      have first := each digit List.mem_cons_self
      rw [isDigit,decide_eq_true_iff] at first
      rw [charAt_cons]
      omega
    have marks : token.NextChar = 101 ∨ token.NextChar = 69 := next ▸ marked
    have read := @ReadInt_digits (token.advance (1 + sign.length)) (before ++ mark::sign) digits pos
      (by rw [Token.advance,starts]; simp) (by rw [Token.advance,length,List.length_append,List.length_cons,Nat.add_comm 1])
      some_ each delimited.digit true nofun
    rw [Token.advance_advance] at read
    have total : 1 + sign.length + digits.length = (mark::(sign ++ digits)).length := by
      rw [List.length_cons,List.length_append]
      omega
    rw [ReadExponent,if_pos marks,← total,← read]
    dsimp only
    rw [behind]
    rcases signed with rfl | rfl | rfl
    · exact if_neg (not_or.mpr unsigned)
    · rw [if_pos (.inl rfl),Token.advance_advance]
      rfl
    · rw [if_pos (.inr rfl),Token.advance_advance]
      rfl

theorem wide_decimalDigits (n : Nat) : ∀ digit ∈ wide (decimalDigits n), isDigit digit := by
  intro digit member
  obtain ⟨byte,listed,rfl⟩ := List.mem_map.mp member
  exact isDigit_decimalDigits n byte listed

theorem wide_leading (n : Nat) : 1 < (wide (decimalDigits n)).length → charAt (wide (decimalDigits n)) 0 ≠ 48 := by
  obtain ⟨digit,digits,starts,zero⟩ := decimalDigits_head n
  rw [starts]
  intro many first
  rw [zero (UInt8.toNat_inj.mp first)] at many
  exact absurd many (lt_irrefl 1)

theorem wide_ne_nil (n : Nat) : wide (decimalDigits n) ≠ [] := by
  obtain ⟨digit,digits,starts,_⟩ := decimalDigits_head n
  rw [starts]
  exact List.cons_ne_nil _ _

/-- What goes on behind the digits of a number, or does not. -/
theorem behind_digits {fraction exponent pos : WString} (part : Fraction fraction) (further : Exponent exponent)
    (delimited : Delimited pos) : ¬isDigit (charAt (fraction ++ (exponent ++ pos)) 0) ∧ ¬isDigit (charAt (exponent ++ pos) 0) ∧
      charAt (exponent ++ pos) 0 ≠ 46 := by
  have after : ¬isDigit (charAt (exponent ++ pos) 0) ∧ charAt (exponent ++ pos) 0 ≠ 46 := by
    cases further with
    | none => exact ⟨delimited.digit,delimited.point⟩
    | some marked =>
      rw [List.cons_append,charAt_cons]
      rcases marked with rfl | rfl
      · exact ⟨by decide,by decide⟩
      · exact ⟨by decide,by decide⟩
  cases part with
  | none => exact ⟨after.1,after⟩
  | some =>
    rw [List.cons_append,charAt_cons]
    exact ⟨by decide,after⟩

/-- A number is read as a token, up to where no number goes on. -/
theorem ParseNumberToken_parts {sign fraction exponent pos : WString} (signed : sign = [] ∨ sign = [45]) (n : Nat)
    (part : Fraction fraction) (further : Exponent exponent) (delimited : Delimited pos) :
    ParseNumberToken (sign ++ (wide (decimalDigits n) ++ (fraction ++ (exponent ++ pos)))) =
      ⟨.number,sign ++ (wide (decimalDigits n) ++ (fraction ++ (exponent ++ pos))),
        (sign ++ (wide (decimalDigits n) ++ (fraction ++ exponent))).length⟩ := by
  obtain ⟨behind,after,point⟩ := behind_digits part further delimited
  generalize whole : sign ++ (wide (decimalDigits n) ++ (fraction ++ (exponent ++ pos))) = text
  -- the token behind the sign
  have token : (if charAt text 0 = 45 then (Token.mk .number text 0).advance 1 else ⟨.number,text,0⟩) =
      ⟨.number,text,sign.length⟩ := by
    rcases signed with rfl | rfl
    · refine if_neg ?_
      obtain ⟨digit,digits,same,_⟩ := decimalDigits_head n
      have first := isDigit_decimalDigits n digit (same ▸ List.mem_cons_self)
      rw [← whole,same]
      intro minus
      have minus : digit.toNat = 45 := minus
      rw [minus] at first
      cases first
    · exact if_pos (whole ▸ rfl)
  have digits := @ReadInt_digits ⟨.number,text,sign.length⟩ sign (wide (decimalDigits n)) (fraction ++ (exponent ++ pos))
    whole.symm rfl (wide_ne_nil _) (wide_decimalDigits _) behind false (fun _ => wide_leading _)
  have fractions := @ReadFraction_part ⟨.number,text,sign.length + (wide (decimalDigits n)).length⟩
    (sign ++ wide (decimalDigits n)) fraction (exponent ++ pos) (by rw [← whole,List.append_assoc]) (List.length_append ..).symm
    part after point
  have exponents := @ReadExponent_part ⟨.number,text,sign.length + (wide (decimalDigits n)).length + fraction.length⟩
    (sign ++ wide (decimalDigits n) ++ fraction) exponent pos (by rw [← whole]; simp) (by simp [Nat.add_assoc]) further delimited
  rw [ParseNumberToken,token,digits,Token.advance]
  dsimp only [Option.bind_some]
  rw [fractions,Token.advance]
  dsimp only [Option.bind_some]
  rw [exponents,Token.advance]
  simp [Nat.add_assoc]

theorem decimal_sign (n : Int) : ∃ sign, (sign = [] ∨ sign = [45]) ∧ wide (decimal n) = sign ++ wide (decimalDigits n.natAbs) := by
  rw [decimal]
  split
  · exact ⟨[45],.inr rfl,rfl⟩
  · exact ⟨[],.inl rfl,rfl⟩

theorem ParseNumberToken_decimal (n : Int) {pos : WString} (delimited : Delimited pos) :
    ParseNumberToken (wide (decimal n) ++ pos) = ⟨.number,wide (decimal n) ++ pos,(decimal n).length⟩ := by
  obtain ⟨sign,signed,starts⟩ := decimal_sign n
  have read := ParseNumberToken_parts signed n.natAbs .none .none delimited
  have length : (decimal n).length = (sign ++ wide (decimalDigits n.natAbs)).length := by rw [← starts,wide,List.length_map]
  rw [starts,List.append_assoc,length]
  simpa using read

theorem StringToInt64_decimal {n : Int} (low : -2 ^ 63 ≤ n) (high : n < 2 ^ 63) :
    StringToInt64 (decimal n) = some (Int64.ofInt n) := by
  obtain ⟨digit,digits,starts,_⟩ := decimalDigits_head n.natAbs
  have all : ((decimalDigits n.natAbs).all fun digit => isDigit digit.toNat) = true :=
    List.all_eq_true.mpr (isDigit_decimalDigits _)
  have some_ : decimalDigits n.natAbs ≠ [] := starts ▸ List.cons_ne_nil _ _
  by_cases negative : n < 0
  · have back : -(denoted (decimalDigits n.natAbs) : Int) = n := by
      rw [denoted_decimalDigits]
      omega
    rw [decimal,if_pos negative,StringToInt64]
    dsimp only
    rw [if_neg (by simp [some_,all]),if_pos rfl,back,if_pos ⟨low,high⟩]
  · have back : (denoted (decimalDigits n.natAbs) : Int) = n := by
      rw [denoted_decimalDigits]
      omega
    have first := isDigit_decimalDigits n.natAbs digit (starts ▸ List.mem_cons_self)
    -- no sign is in front
    have unsigned (sign : UInt8) (regular : ¬isDigit sign.toNat) (rest : List UInt8) : decimalDigits n.natAbs ≠ sign::rest := by
      rw [starts]
      intro same
      cases same
      exact regular first
    rw [decimal,if_neg negative,StringToInt64]
    · rw [if_neg (by simp [some_,all])]
      dsimp only
      rw [if_neg Bool.false_ne_true,back,if_pos ⟨low,high⟩]
    · exact unsigned 45 (by decide)
    · exact unsigned 43 (by decide)

theorem decimal_injective {first second : Int64} (same : decimal first.toInt = decimal second.toInt) : first = second := by
  have numbers := congrArg StringToInt64 same
  rw [StringToInt64_decimal first.le_toInt first.toInt_lt,StringToInt64_decimal second.le_toInt second.toInt_lt,
    Option.some_inj,Int64.ofInt_toInt,Int64.ofInt_toInt] at numbers
  exact numbers

theorem DecodeNumber_decimal (StringToDouble : List UInt8 → Option Float) {n : Int} (low : -2 ^ 63 ≤ n) (high : n < 2 ^ 63)
    (pos : WString) : DecodeNumber StringToDouble ⟨.number,wide (decimal n) ++ pos,(decimal n).length⟩ =
      some (.fundamental (.bigInteger (Int64.ofInt n))) := by
  have taken : (wide (decimal n) ++ pos).take (decimal n).length = wide (decimal n) := by
    have length : (decimal n).length = (wide (decimal n)).length := by rw [wide,List.length_map]
    rw [length,List.take_left]
  rw [DecodeNumber]
  dsimp only
  rw [taken,WideToASCII_wide,StringToInt64_decimal low high]

theorem decimal_head (n : Int) : ∃ c rest, wide (decimal n) = c::rest ∧ (isDigit c ∨ c = 45) := by
  obtain ⟨digit,digits,starts,_⟩ := decimalDigits_head n.natAbs
  rw [decimal]
  split
  · exact ⟨45,_,rfl,.inr rfl⟩
  · refine ⟨digit.toNat,wide digits,by rw [starts]; rfl,.inl ?_⟩
    exact isDigit_decimalDigits n.natAbs digit (starts ▸ List.mem_cons_self)

theorem decimal_ascii (n : Int) : ∀ byte ∈ decimal n, byte.toNat < 128 := by
  have digits : ∀ byte ∈ decimalDigits n.natAbs, byte.toNat < 128 := by
    intro byte member
    have digit := isDigit_decimalDigits n.natAbs byte member
    rw [isDigit,decide_eq_true_iff] at digit
    omega
  rw [decimal]
  split
  · exact List.forall_mem_cons.mpr ⟨by decide,digits⟩
  · exact digits

/-- What is neither a digit nor a sign is in no integer. -/
theorem StringToInt64_none {input : List UInt8} {byte : UInt8} (member : byte ∈ input) (sign : byte ≠ 45 ∧ byte ≠ 43)
    (other : ¬isDigit byte.toNat) : StringToInt64 input = none := by
  have fails {digits : List UInt8} (inside : byte ∈ digits) : digits = [] ∨ ¬digits.all fun digit => isDigit digit.toNat :=
    .inr fun each => other (List.all_eq_true.mp each byte inside)
  unfold StringToInt64
  split
  rename_i negative digits parted
  split at parted
  · cases parted
    exact if_pos (fails ((List.mem_cons.mp member).resolve_left sign.1))
  · cases parted
    exact if_pos (fails ((List.mem_cons.mp member).resolve_left sign.2))
  · cases parted
    exact if_pos (fails member)

/-! ### Reading strings -/

/-- What a source without errors is decoded to; `stop` says where it would end. -/
inductive Scans (stop : Nat → Prop) : WString → WString → Prop
  | nil : Scans stop [] []
  | plain {c : Nat} {source decoded : WString} (regular : ¬stop c) (backslash : c ≠ 92) (rest : Scans stop source decoded) :
      Scans stop (c::source) (c::decoded)
  | escape {letter c : Nat} {source decoded : WString} (single : singleEscape letter = some c)
      (rest : Scans stop source decoded) : Scans stop (92::letter::source) (c::decoded)

section Scans
variable {stop : Nat → Prop} {source decoded : WString}

theorem Scans.append {more further : WString} (scans : Scans stop source decoded) (next : Scans stop more further) :
    Scans stop (source ++ more) (decoded ++ further) := by
  induction scans with
  | nil => exact next
  | plain regular backslash _ ih => exact .plain regular backslash ih
  | escape single _ ih => exact .escape single ih

theorem Scans.of_plain (each : ∀ c ∈ source, ¬stop c ∧ c ≠ 92) : Scans stop source source := by
  induction source with
  | nil => exact .nil
  | cons c source ih =>
    obtain ⟨regular,backslash⟩ := each c List.mem_cons_self
    exact .plain regular backslash (ih fun c member => each c (List.mem_cons_of_mem _ member))

theorem DecodeCharacters_scans (scans : Scans stop source decoded) (before rest : WString) {n : Nat}
    (enough : source.length < n) :
    DecodeCharacters (before ++ (source ++ rest)) (before.length + source.length) n before.length = some decoded := by
  induction scans generalizing before n with
  | nil =>
    obtain ⟨n,rfl⟩ := Nat.exists_eq_succ_of_ne_zero (Nat.ne_zero_of_lt enough)
    rw [DecodeCharacters,List.length_nil,Nat.add_zero,if_pos le_rfl]
  | @plain c source decoded _ backslash _ ih =>
    obtain ⟨n,rfl⟩ := Nat.exists_eq_succ_of_ne_zero (Nat.ne_zero_of_lt enough)
    have here : charAt (before ++ (c::source ++ rest)) before.length = c := charAt_append rfl
    have later := @ih (before ++ [c]) n (Nat.lt_of_succ_lt_succ enough)
    rw [List.append_assoc,List.length_append] at later
    have last : before.length + (c::source).length = before.length + [c].length + source.length := by
      simp only [List.length_cons,List.length_nil]
      omega
    rw [DecodeCharacters,if_neg (by simp only [List.length_cons]; omega),here,if_pos backslash,last]
    exact congrArg (Option.map (c::·)) later
  | @escape letter c source decoded single _ ih =>
    obtain ⟨n,rfl⟩ := Nat.exists_eq_succ_of_ne_zero (Nat.ne_zero_of_lt enough)
    have here : charAt (before ++ (92::letter::source ++ rest)) before.length = 92 := charAt_append rfl
    have second : charAt (before ++ (92::letter::source ++ rest)) (before.length + 1) = letter := by
      have moved : before ++ (92::letter::source ++ rest) = (before ++ [92]) ++ (letter::(source ++ rest)) := by simp
      rw [moved,charAt_append (by rw [List.length_append]; rfl)]
      rfl
    have later := @ih (before ++ [92,letter]) n (by simp only [List.length_cons] at enough; omega)
    rw [List.append_assoc,List.length_append] at later
    have last : before.length + (92::letter::source).length = before.length + [92,letter].length + source.length := by
      simp only [List.length_cons,List.length_nil]
      omega
    rw [DecodeCharacters,if_neg (by simp only [List.length_cons]; omega),here,if_neg (not_not_intro rfl),second,last]
    dsimp only
    rw [single]
    exact congrArg (Option.map (c::·)) later

end Scans

/-! ### Scalars -/

/-- What is made of a single token. -/
inductive Scalar (StringToDouble : List UInt8 → Option Float) (DecodeString : Token → Option (List UInt8)) : Token → Value → Prop
  | null {pos : WString} {length : Nat} : Scalar StringToDouble DecodeString ⟨.nullToken,pos,length⟩ .null
  | true_ {pos : WString} {length : Nat} :
      Scalar StringToDouble DecodeString ⟨.boolTrue,pos,length⟩ (.fundamental (.boolean true))
  | false_ {pos : WString} {length : Nat} :
      Scalar StringToDouble DecodeString ⟨.boolFalse,pos,length⟩ (.fundamental (.boolean false))
  | number {pos : WString} {length : Nat} {node : Value} (decodes : DecodeNumber StringToDouble ⟨.number,pos,length⟩ = some node) :
      Scalar StringToDouble DecodeString ⟨.number,pos,length⟩ node
  | string {pos : WString} {length : Nat} {node : List UInt8} (decodes : DecodeString ⟨.string,pos,length⟩ = some node) :
      Scalar StringToDouble DecodeString ⟨.string,pos,length⟩ (.string node)

end Migfm.Logic
