import Migfm.Logic.HttpTokens

/-! A form is deserialized to the dictionary of its pairs: a value is a number, a
literal or a text. -/
namespace Migfm.Logic
namespace HttpValueSerializer

/-! ### Forms -/

/-- The decimal text of an integer. -/
def canonical (n : Int) : List Char := if n < 0 then '-'::Nat.toDigits 10 n.natAbs else Nat.toDigits 10 n.natAbs

/-- A decimal number with a fraction or an exponent. -/
structure Decimal (text : List Char) : Prop where
  parts : ∃ sign n fraction exponent, utf16 text = sign ++ (wide (decimalDigits n) ++ (fraction ++ exponent)) ∧
    (sign = [] ∨ sign = [45]) ∧ Fraction fraction ∧ Exponent exponent ∧ fraction ++ exponent ≠ []

/-- The node of a value. -/
inductive Node (StringToDouble : List UInt8 → Option Float) : List Char → Value → Prop
  | null : Node StringToDouble "null".toList .null
  | true_ : Node StringToDouble "true".toList (.fundamental (.boolean true))
  | integer {n : Int} (low : -2 ^ 63 ≤ n) (high : n < 2 ^ 63) (short : (canonical n).length ≤ 19) :
      Node StringToDouble (canonical n) (.fundamental (.bigInteger (Int64.ofInt n)))
  | real {text : List Char} {num_double : Float} (decimal : Decimal text) (short : text.length ≤ 19)
      (decodes : StringToDouble (utf8 text) = some num_double) (finite : num_double.isFinite) :
      Node StringToDouble text (.fundamental (.real num_double))
  | text {text : List Char} (word : Word text) (other : ¬NumberLike text) : Node StringToDouble text (.string (utf8 text))

/-- A pair whose name is no literal, with the node of its value. -/
structure Field (StringToDouble : List UInt8 → Option Float) where
  key : List Char
  value : List Char
  node : Value
  named : key ≠ []
  plainKey : ∀ c ∈ key, c ∉ reserved
  plainValue : ∀ c ∈ value, c ∉ reserved
  word : Word key
  denotes : Node StringToDouble value node

variable {StringToDouble : List UInt8 → Option Float}

namespace Field

def entry (field : Field StringToDouble) : WString × Value := (utf16 field.key,field.node)

def pair (field : Field StringToDouble) : List Char := field.key ++ '='::field.value

end Field

/-- The pairs with `&` between them. -/
def joined (fields : List (Field StringToDouble)) : List Char := ['&'].intercalate (fields.map Field.pair)

def empties (fields : List (Field StringToDouble)) : Nat := fields.countP fun field => field.value.isEmpty

/-- Below this depth a value is in reach of the stack limit, with the empty values in
front of it. -/
def Room (depth : Nat) (fields : List (Field StringToDouble)) : Prop :=
  ∀ before field after, fields = before ++ field::after → field.value ≠ [] → depth + empties before < kStackLimit

/-! ### Numbers -/

theorem digitChar_code (n : Nat) : ∀ c ∈ Nat.toDigits 10 n, c.toNat.toUInt8.toNat = c.toNat ∧ isDigit c.toNat := by
  have each : ∀ n < 10, (Nat.digitChar n).toNat.toUInt8.toNat = (Nat.digitChar n).toNat ∧ isDigit (Nat.digitChar n).toNat := by decide
  induction n using decimal_rule with
  | single n small =>
    rw [Nat.toDigits_of_lt_base small]
    exact List.forall_mem_singleton.mpr (each n small)
  | more n large ih =>
    rw [Nat.toDigits_of_base_le (by decide) large]
    intro c member
    rcases List.mem_append.mp member with member | member
    · exact ih c member
    · rw [List.mem_singleton.mp member]
      exact each _ (Nat.mod_lt _ (by decide))

theorem canonical_code (n : Int) : ∀ c ∈ canonical n, c.toNat.toUInt8.toNat = c.toNat ∧ (isDigit c.toNat ∨ c.toNat = 45) := by
  have digits : ∀ c ∈ Nat.toDigits 10 n.natAbs, c.toNat.toUInt8.toNat = c.toNat ∧ (isDigit c.toNat ∨ c.toNat = 45) :=
    fun c member => (digitChar_code n.natAbs c member).imp_right .inl
  rw [canonical]
  split
  · exact List.forall_mem_cons.mpr ⟨⟨rfl,.inr rfl⟩,digits⟩
  · exact digits

theorem canonical_plain (n : Int) : ∀ c ∈ canonical n, c ∉ reserved := by
  intro c member listed
  have each : ∀ mark ∈ reserved.map Char.toNat, ¬(isDigit mark ∨ mark = 45) := by decide
  exact each c.toNat (List.mem_map_of_mem listed) (canonical_code n c member).2

theorem canonical_bytes (n : Int) : (canonical n).map (fun c => c.toNat.toUInt8) = decimal n := by
  rw [canonical,decimal]
  split
  · rfl
  · rfl

theorem canonical_units (n : Int) : utf16 (canonical n) = wide (decimal n) := by
  have ascii : ∀ c ∈ canonical n, c.toNat < 128 := by
    intro c member
    have code := (canonical_code n c member).2
    rw [isDigit,decide_eq_true_iff] at code
    omega
  rw [(ascii_text ascii).2,← canonical_bytes,wide,List.map_map]
  exact List.map_congr_left fun c member => (canonical_code n c member).1.symm

theorem End.delimited {rest : WString} (ends : End rest) : Delimited rest := by
  rcases ends with same | same
  · exact ⟨by rw [same]; decide,by rw [same]; decide,by rw [same]; decide,by rw [same]; decide⟩
  · exact ⟨by rw [same]; decide,by rw [same]; decide,by rw [same]; decide,by rw [same]; decide⟩

theorem digit_number {c : Nat} (digit : isDigit c) : numberCharacter c ∧ c ≠ 46 := by
  refine ⟨decide_eq_true (.inl digit),?_⟩
  rintro rfl
  cases digit

theorem digits_number {digits : WString} (each : ∀ digit ∈ digits, isDigit digit) :
    (∀ c ∈ digits, numberCharacter c) ∧ digits.count 46 = 0 :=
  ⟨fun c member => (digit_number (each c member)).1,
    List.count_eq_zero.mpr fun member => (digit_number (each 46 member)).2 rfl⟩

theorem fraction_number {fraction : WString} (part : Fraction fraction) :
    (∀ c ∈ fraction, numberCharacter c) ∧ fraction.count 46 ≤ 1 := by
  cases part with
  | none => exact ⟨List.forall_mem_nil _,Nat.zero_le 1⟩
  | some _ each =>
    obtain ⟨numbers,none_⟩ := digits_number each
    rw [List.count_cons_self,none_]
    exact ⟨List.forall_mem_cons.mpr ⟨by decide,numbers⟩,le_rfl⟩

theorem exponent_number {exponent : WString} (part : Exponent exponent) :
    (∀ c ∈ exponent, numberCharacter c) ∧ exponent.count 46 = 0 := by
  cases part with
  | none => exact ⟨List.forall_mem_nil _,rfl⟩
  | @some mark sign digits marked signed _ each =>
    obtain ⟨numbers,none_⟩ := digits_number each
    have marks : numberCharacter mark ∧ mark ≠ 46 := by rcases marked with rfl | rfl <;> decide
    have signs : (∀ c ∈ sign, numberCharacter c) ∧ sign.count 46 = 0 := by rcases signed with rfl | rfl | rfl <;> decide
    rw [List.count_cons_of_ne marks.2,List.count_append,signs.2,none_]
    refine ⟨List.forall_mem_cons.mpr ⟨marks.1,?_⟩,rfl⟩
    exact fun c member => (List.mem_append.mp member).elim (signs.1 c) (numbers c)

/-- What makes a decimal number no integer. -/
theorem mark_of_parts {fraction exponent : WString} (part : Fraction fraction) (further : Exponent exponent)
    (some_ : fraction ++ exponent ≠ []) : ∃ mark ∈ fraction ++ exponent, mark = 46 ∨ mark = 101 ∨ mark = 69 := by
  cases part with
  | some => exact ⟨46,List.mem_append_left _ List.mem_cons_self,.inl rfl⟩
  | none =>
    cases further with
    | none => exact absurd rfl some_
    | some marked => exact ⟨_,List.mem_append_right _ List.mem_cons_self,.inr marked⟩

/-! ### Values -/

/-- The token of a value is read where it stands. -/
def Reads (StringToDouble : List UInt8 → Option Float) (text : List Char) (rest : WString) (node : Value) : Prop :=
  ∃ token, Scalar StringToDouble DecodeString token node ∧ token.length = (utf16 text).length ∧
    ∀ reader : Reader, ParseToken (reader.seek (utf16 text ++ rest)) = (token,reader.seek (utf16 text ++ rest))

section Values
variable {text : List Char} {node : Value} {rest : WString} (plain : ∀ c ∈ text, c ∉ reserved) (ends : End rest)
include plain ends

omit ends in
theorem separators_plain : ∀ unit ∈ utf16 text, unit ≠ 38 ∧ unit ≠ 0 := by
  intro unit member
  have regular := plain_units plain unit member
  constructor
  · rintro rfl
    exact regular (by decide)
  · rintro rfl
    exact regular (by decide)

theorem reads_integer {n : Int} (same : text = canonical n) (low : -2 ^ 63 ≤ n) (high : n < 2 ^ 63) (short : text.length ≤ 19) :
    Reads StringToDouble text rest (.fundamental (.bigInteger (Int64.ofInt n))) := by
  have number : NextNumberMatch (utf16 text ++ rest) := by
    refine (NextNumberMatch_iff (separators_plain plain) ends).mpr ⟨?_,?_,short⟩
    · intro c member
      have code := (canonical_code n c (same ▸ member)).2
      rw [numberCharacter,decide_eq_true_iff]
      rcases code with digit | minus
      · exact .inl digit
      · exact .inr (.inr (.inr (.inr (.inl minus))))
    · refine (List.count_eq_zero.mpr fun member => ?_).trans_le (Nat.zero_le 1)
      have code := (canonical_code n '.' (same ▸ member)).2
      revert code
      decide
  have units : utf16 text = wide (decimal n) := by rw [same,canonical_units]
  obtain ⟨c,others,starts,first⟩ := decimal_head n
  have length : (decimal n).length = (utf16 text).length := by rw [units,wide,List.length_map]
  refine ⟨_,.number (DecodeNumber_decimal StringToDouble low high rest),length,fun reader => ?_⟩
  rw [← ParseNumberToken_decimal n ends.delimited,units]
  rw [units,starts] at number
  rw [starts]
  exact ParseToken_number first number

theorem reads_decimal (decimal : Decimal text) (short : text.length ≤ 19) {num_double : Float}
    (decodes : StringToDouble (utf8 text) = some num_double) (finite : num_double.isFinite) :
    Reads StringToDouble text rest (.fundamental (.real num_double)) := by
  obtain ⟨sign,n,fraction,exponent,units,signed,part,further,behind⟩ := decimal.parts
  have signs : (∀ c ∈ sign, numberCharacter c) ∧ sign.count 46 = 0 := by rcases signed with rfl | rfl <;> decide
  have digits := digits_number (wide_decimalDigits n)
  have fractions := fraction_number part
  have exponents := exponent_number further
  have numbers : ∀ c ∈ utf16 text, numberCharacter c := by
    simp only [units,List.mem_append]
    rintro c (member | member | member | member)
    · exact signs.1 c member
    · exact digits.1 c member
    · exact fractions.1 c member
    · exact exponents.1 c member
  have point : (utf16 text).count 46 ≤ 1 := by
    rw [units,List.count_append,List.count_append,List.count_append,signs.2,digits.2,exponents.2]
    omega
  have ascii := ascii_text (ascii_of_units fun unit member => numberCharacter_ascii (numbers unit member))
  have length : (utf16 text).length ≤ 19 := by
    rw [ascii.2,List.length_map]
    exact short
  have number : NextNumberMatch (utf16 text ++ rest) :=
    (NextNumberMatch_units (separators_plain plain) ends).mpr ⟨numbers,point,length⟩
  have bytes : WideToASCII (utf16 text) = utf8 text := by rw [ascii.1,ascii.2,WideToASCII,List.map_map]; rfl
  -- the mark keeps it from being an integer
  obtain ⟨mark,inside,marked⟩ := mark_of_parts part further behind
  have listed : mark.toUInt8 ∈ WideToASCII (utf16 text) := by
    rw [units]
    exact List.mem_map_of_mem (List.mem_append_right _ (List.mem_append_right _ inside))
  have no_integer : StringToInt64 (WideToASCII (utf16 text)) = none := by
    rcases marked with rfl | rfl | rfl
    · exact StringToInt64_none listed (by decide) (by decide)
    · exact StringToInt64_none listed (by decide) (by decide)
    · exact StringToInt64_none listed (by decide) (by decide)
  have made : DecodeNumber StringToDouble ⟨.number,utf16 text ++ rest,(utf16 text).length⟩ =
      some (.fundamental (.real num_double)) := by
    rw [DecodeNumber]
    dsimp only
    rw [List.take_left,no_integer,bytes,decodes,Option.filter_some,if_pos finite]
    rfl
  have token := ParseNumberToken_parts signed n part further ends.delimited
  have whole : sign ++ (wide (decimalDigits n) ++ (fraction ++ (exponent ++ rest))) = utf16 text ++ rest := by
    rw [units]
    simp
  rw [whole,← units] at token
  obtain ⟨c,others,starts,first⟩ : ∃ c others, utf16 text = c::others ∧ (isDigit c ∨ c = 45) := by
    rcases signed with rfl | rfl
    · obtain ⟨digit,more,same,_⟩ := decimalDigits_head n
      refine ⟨digit.toNat,_,by rw [units,same]; rfl,.inl ?_⟩
      exact isDigit_decimalDigits n digit (same ▸ List.mem_cons_self)
    · exact ⟨45,_,units,.inr rfl⟩
  refine ⟨_,.number made,rfl,fun reader => ?_⟩
  rw [← token,starts]
  rw [starts] at number
  exact ParseToken_number first number

theorem reads_text (word : Word text) (other : ¬NumberLike text) (some_ : text ≠ []) (short : (utf8 text).length < 2 ^ 31) :
    Reads StringToDouble text rest (.string (utf8 text)) := by
  have backslash : ∀ unit ∈ utf16 text, unit ≠ 92 := by
    rintro unit member rfl
    exact plain_units plain 92 member (by decide)
  refine ⟨⟨.string,utf16 text ++ rest,(utf16 text).length⟩,.string (DecodeString_plain backslash short),rfl,fun reader => ?_⟩
  refine ParseToken_word some_ plain word ends.stop fun first number => other ?_
  obtain ⟨each,point,length⟩ := (NextNumberMatch_iff (separators_plain plain) ends).mp number
  obtain ⟨c,others,rfl⟩ := List.exists_cons_of_ne_nil some_
  refine ⟨⟨c,others,rfl,?_⟩,each,point,length⟩
  have ascii := numberCharacter_ascii (each c List.mem_cons_self)
  rw [utf16_cons,WriteUTF16,if_pos (by omega)] at first
  exact first.imp_right fun minus => Char.toNat_inj.mp minus

end Values

theorem Node.reads {text : List Char} {node : Value} {rest : WString} (denotes : Node StringToDouble text node) (some_ : text ≠ [])
    (plain : ∀ c ∈ text, c ∉ reserved) (short : (utf8 text).length < 2 ^ 31) (ends : End rest) :
    Reads StringToDouble text rest node := by
  cases denotes with
  | null => exact ⟨_,.null,rfl,fun _ => ParseToken_null⟩
  | true_ => exact ⟨_,.true_,rfl,fun _ => ParseToken_true⟩
  | integer low high length => exact reads_integer plain ends rfl low high length
  | real decimal length decodes finite => exact reads_decimal plain ends decimal length decodes finite
  | text word other => exact reads_text plain ends word other some_ short

/-- The node of an empty value. -/
theorem Node.empty {node : Value} (denotes : Node StringToDouble [] node) : node = .string [] := by
  generalize same : ([] : List Char) = text at denotes
  cases denotes with
  | null => cases same
  | true_ => cases same
  | @integer n =>
    obtain ⟨c,others,starts,_⟩ := decimal_head n
    have units := canonical_units n
    rw [← same,starts] at units
    cases units
  | real decimal =>
    obtain ⟨sign,n,fraction,exponent,units,_⟩ := decimal.parts
    rw [← same] at units
    exact absurd (List.append_eq_nil_iff.mp (List.append_eq_nil_iff.mp units.symm).2).1 (wide_ne_nil n)
  | text =>
    cases same
    rfl

theorem BuildValue_scalar {token : Token} {node : Value} {w rest : WString} (scalar : Scalar StringToDouble DecodeString token node)
    (length : token.length = w.length)
    (parsed : ∀ reader : Reader, ParseToken (reader.seek (w ++ rest)) = (token,reader.seek (w ++ rest))) {reader : Reader}
    (room : reader.stack_depth_ < kStackLimit) (n : Nat) :
    BuildValue StringToDouble (n + 1) false (reader.seek (w ++ rest)) = some (some node,reader.seek rest) := by
  rw [BuildValue,Reader.deeper_seek,if_neg (@Reader.not_nested reader 0 room _),if_neg Bool.false_ne_true,parsed]
  dsimp only
  cases scalar with
  | null | true_ | false_ => rw [Reader.leave_seek length]
  | number decodes | string decodes =>
    dsimp only
    rw [decodes]
    dsimp only
    rw [Reader.leave_seek length]

/-- Where a value is missing, the reader stays, one level deeper. -/
theorem BuildValue_empty {rest : WString} (ends : End rest) (reader : Reader) (n : Nat) :
    ∃ later : Reader, later.stack_depth_ = reader.stack_depth_ + 1 ∧
      BuildValue StringToDouble (n + 1) false (reader.seek rest) = some (none,later.seek rest) := by
  by_cases deep : kStackLimit < (reader.deeper.seek rest).stack_depth_
  · have kept := Reader.SetErrorCode_pos (reader.deeper.seek rest) .tooMuchNesting rest
    have pos : ((reader.deeper.seek rest).SetErrorCode .tooMuchNesting rest).pos_ = rest := kept.1
    refine ⟨_,kept.2,?_⟩
    rw [BuildValue,Reader.deeper_seek,if_pos deep,Reader.seek_self pos]
    rfl
  · refine ⟨reader.deeper,rfl,?_⟩
    rw [BuildValue,Reader.deeper_seek,if_neg deep,if_neg Bool.false_ne_true]
    rcases ends with zero | separator
    · rw [ParseToken_end zero]
    · cases rest with
      | nil => cases separator
      | cons c rest =>
        cases separator
        rw [ParseToken_separator]

section Turn
variable {key value : List Char} {rest : WString}

/-- A value starts without blanks. -/
theorem value_stays (plain : ∀ c ∈ value, c ∉ reserved) (ends : End rest) (reader : Reader) :
    (ParseToken (reader.seek (utf16 value ++ rest))).2 = reader.seek (utf16 value ++ rest) := by
  apply ParseToken_stays
  cases same : utf16 value with
  | nil => rcases ends with zero | separator <;> rw [List.nil_append] <;> omega
  | cons c units =>
    have regular := plain_units plain c (same ▸ List.mem_cons_self)
    have blanks : ∀ c ∈ [32,13,9], c ∈ reserved.map Char.toNat := by decide
    rw [List.cons_append,charAt_cons]
    refine ⟨?_,?_,?_⟩
    · exact fun blank => regular (blanks c (by simp [blank]))
    · exact fun blank => regular (blanks c (by simp [blank]))
    · exact fun blank => regular (blanks c (by simp [blank]))

/-- One turn of the loop, up to what follows the value. -/
theorem BuildPairs_turn (plainKey : ∀ c ∈ key, c ∉ reserved) (plainValue : ∀ c ∈ value, c ∉ reserved) (ends : End rest)
    (shortKey : (utf8 key).length < 2 ^ 31) {reader later : Reader} {dict_value : Option Value} {n : Nat}
    (built : BuildValue StringToDouble (n + 1) false (reader.seek (utf16 value ++ rest)) = some (dict_value,later))
    (dict : ValueMap Value) :
    BuildPairs StringToDouble (n + 2) ⟨.string,utf16 key ++ 61::(utf16 value ++ rest),(utf16 key).length⟩ dict
        (reader.seek (utf16 key ++ 61::(utf16 value ++ rest))) =
      let (token,reader) := ParseToken later
      let dict := dict.assign (utf16 key) (dict_value.getD (.string []))
      if token.type = .listSeparator then
        let (token,reader) := ParseToken (reader.advance token.length)
        BuildPairs StringToDouble (n + 1) token dict reader
      else if token.type = .objectEnd then some (some (dict,token),reader)
      else some (none,reader) := by
  have backslash : ∀ unit ∈ utf16 key, unit ≠ 92 := by
    rintro unit member rfl
    exact plain_units plainKey 92 member (by decide)
  rw [BuildPairs,if_neg (by simp),if_neg (not_not_intro rfl),DecodeString_plain backslash shortKey]
  dsimp only
  rw [UTF8ToWide_utf8 shortKey,Reader.advance_seek rfl,ParseToken_pair]
  dsimp only
  rw [if_neg (not_not_intro rfl),Reader.advance_one,value_stays plainValue ends,built,Option.bind_some]

end Turn

section Field
variable {field : Field StringToDouble} {rest : WString} (ends : End rest)
include ends

/-- The value of a pair, missing or not. -/
theorem BuildValue_field (short : (utf8 field.value).length < 2 ^ 31) {reader : Reader}
    (room : field.value ≠ [] → reader.stack_depth_ < kStackLimit) (n : Nat) :
    ∃ (later : Reader) (dict_value : Option Value), later.stack_depth_ = reader.stack_depth_ + empties [field] ∧
      BuildValue StringToDouble (n + 1) false (reader.seek (utf16 field.value ++ rest)) = some (dict_value,later.seek rest) ∧
      dict_value.getD (.string []) = field.node := by
  have denotes := field.denotes
  by_cases empty : field.value = []
  · rw [empty] at denotes
    obtain ⟨later,depth,built⟩ := @BuildValue_empty StringToDouble rest ends reader n
    have counted : empties [field] = 1 := by simp [empties,empty]
    rw [empty,counted]
    exact ⟨later,none,depth,built,denotes.empty.symm⟩
  · obtain ⟨token,scalar,length,parsed⟩ := denotes.reads empty field.plainValue short ends
    have counted : empties [field] = 0 := by simp [empties,empty]
    rw [counted]
    exact ⟨reader,some field.node,rfl,BuildValue_scalar scalar length parsed (room empty) n,rfl⟩

/-- One turn of the loop, up to what follows the value. -/
theorem BuildPairs_field (shortKey : (utf8 field.key).length < 2 ^ 31) (shortValue : (utf8 field.value).length < 2 ^ 31)
    {reader : Reader} (room : field.value ≠ [] → reader.stack_depth_ < kStackLimit) (n : Nat) (dict : ValueMap Value) :
    ∃ later : Reader, later.stack_depth_ = reader.stack_depth_ + empties [field] ∧
      BuildPairs StringToDouble (n + 2) ⟨.string,utf16 field.key ++ 61::(utf16 field.value ++ rest),(utf16 field.key).length⟩ dict
        (reader.seek (utf16 field.key ++ 61::(utf16 field.value ++ rest))) =
      let (token,reader) := ParseToken (later.seek rest)
      if token.type = .listSeparator then
        let (token,reader) := ParseToken (reader.advance token.length)
        BuildPairs StringToDouble (n + 1) token (dict.assign (utf16 field.key) field.node) reader
      else if token.type = .objectEnd then some (some (dict.assign (utf16 field.key) field.node,token),reader)
      else some (none,reader) := by
  obtain ⟨later,dict_value,depth,built,node⟩ := BuildValue_field ends shortValue room n
  refine ⟨later,depth,?_⟩
  rw [BuildPairs_turn field.plainKey field.plainValue ends shortKey built,node]

end Field

/-! ### The loop over the pairs -/

section Fields
variable {field : Field StringToDouble} {fields : List (Field StringToDouble)}

/-- The text from a pair on, up to the end of the string. -/
def textOf (fields : List (Field StringToDouble)) : WString := utf16 (joined fields) ++ [0]

theorem joined_last (field : Field StringToDouble) : joined [field] = field.key ++ '='::field.value := by
  simp [joined,Field.pair]

theorem textOf_last (field : Field StringToDouble) : textOf [field] = utf16 field.key ++ 61::(utf16 field.value ++ [0]) := by
  rw [textOf,joined_last,utf16_append,utf16_cons]
  simp [WriteUTF16]

theorem joined_cons (field next : Field StringToDouble) (fields : List (Field StringToDouble)) :
    joined (field::next::fields) = field.key ++ '='::(field.value ++ '&'::joined (next::fields)) := by
  simp [joined,Field.pair,List.intercalate_cons_cons]

theorem textOf_cons (field next : Field StringToDouble) (fields : List (Field StringToDouble)) :
    textOf (field::next::fields) = utf16 field.key ++ 61::(utf16 field.value ++ 38::textOf (next::fields)) := by
  rw [textOf,textOf,joined_cons,utf16_append,utf16_cons,utf16_append,utf16_cons]
  simp [WriteUTF16]

theorem length_joined (field : Field StringToDouble) (fields : List (Field StringToDouble)) :
    (utf8 field.key).length + (utf8 field.value).length ≤ (utf8 (joined (field::fields))).length := by
  cases fields with
  | nil =>
    rw [joined_last,utf8_append,utf8_cons,List.length_append,List.length_append]
    omega
  | cons next fields =>
    rw [joined_cons,utf8_append,utf8_cons,utf8_append,List.length_append,List.length_append,List.length_append]
    omega

theorem length_tail (field next : Field StringToDouble) (fields : List (Field StringToDouble)) :
    (utf8 (joined (next::fields))).length ≤ (utf8 (joined (field::next::fields))).length := by
  rw [joined_cons,utf8_append,utf8_cons,utf8_append,utf8_cons]
  simp only [List.length_append]
  omega

theorem ParseToken_name (field : Field StringToDouble) (fields : List (Field StringToDouble)) (reader : Reader) :
    ParseToken (reader.seek (textOf (field::fields))) =
      (⟨.string,textOf (field::fields),(utf16 field.key).length⟩,reader.seek (textOf (field::fields))) := by
  obtain ⟨rest,text⟩ : ∃ rest, textOf (field::fields) = utf16 field.key ++ 61::rest := by
    cases fields with
    | nil => exact ⟨_,textOf_last field⟩
    | cons next fields => exact ⟨_,textOf_cons field next fields⟩
  rw [text]
  exact ParseToken_word field.named field.plainKey field.word (.inr (.inr rfl))
    fun _ => NextNumberMatch_name (separators_plain field.plainKey) rest

theorem Room.tail {depth : Nat} (room : Room depth (field::fields)) : Room (depth + empties [field]) fields := by
  rintro before other after rfl some_
  have bound := room (field::before) other after rfl some_
  rw [empties,List.countP_cons] at bound
  rw [empties,empties,List.countP_cons,List.countP_nil]
  omega

theorem assign_fresh {dict : ValueMap Value} {name other : WString} (different : other ≠ name) (fresh : other ∉ dict.map Prod.fst)
    (node : Value) : other ∉ (dict.assign name node).map Prod.fst := by
  intro listed
  obtain ⟨entry,member,same⟩ := List.mem_map.mp listed
  rcases ValueMap.mem_assign member with rfl | old
  · exact different same.symm
  · exact fresh (List.mem_map.mpr ⟨entry,old,same⟩)

/-- By induction on the pairs: the loop ends with all of them. -/
theorem BuildPairs_fields (distinct : ((field::fields).map Field.key).Nodup) {depth : Nat} (room : Room depth (field::fields))
    (short : (utf8 (joined (field::fields))).length < 2 ^ 31) {reader : Reader} (deep : reader.stack_depth_ = depth) {n : Nat}
    (enough : fields.length ≤ n) {dict : ValueMap Value}
    (fresh : ∀ other ∈ field::fields, utf16 other.key ∉ dict.map Prod.fst) :
    ∃ whole token last, BuildPairs StringToDouble (n + 2) ⟨.string,textOf (field::fields),(utf16 field.key).length⟩ dict
        (reader.seek (textOf (field::fields))) = some (some (whole,token),last) ∧
      whole.Perm (dict ++ (field::fields).map Field.entry) := by
  induction fields generalizing field depth reader n dict with
  | nil =>
    have added := ValueMap.assign_perm (fresh field List.mem_cons_self) field.node
    have within : field.value ≠ [] → reader.stack_depth_ < kStackLimit := deep ▸ room [] field [] rfl
    have parts := length_joined field []
    obtain ⟨later,_,turn⟩ := @BuildPairs_field StringToDouble field [0] (.inl rfl) (by omega) (by omega) reader within n dict
    rw [ParseToken_end rfl] at turn
    rw [textOf_last]
    exact ⟨_,_,_,turn,added.trans (List.perm_append_singleton _ dict).symm⟩
  | cons next fields ih =>
    have added := ValueMap.assign_perm (fresh field List.mem_cons_self) field.node
    have within : field.value ≠ [] → reader.stack_depth_ < kStackLimit := deep ▸ room [] field (next::fields) rfl
    have parts := length_joined field (next::fields)
    have tail := length_tail field next fields
    obtain ⟨n,rfl⟩ := Nat.exists_eq_succ_of_ne_zero (Nat.ne_zero_of_lt enough)
    obtain ⟨later,depth,turn⟩ := @BuildPairs_field StringToDouble field (38::textOf (next::fields)) (.inr rfl) (by omega) (by omega)
      reader within (n + 1) dict
    rw [ParseToken_separator] at turn
    dsimp only at turn
    rw [if_pos rfl,Reader.advance_one,ParseToken_name] at turn
    -- the other names are still fresh
    have others : ∀ other ∈ next::fields, utf16 other.key ∉ (dict.assign (utf16 field.key) field.node).map Prod.fst := by
      intro other member
      refine assign_fresh (fun same => ?_) (fresh other (List.mem_cons_of_mem _ member)) field.node
      exact (List.nodup_cons.mp distinct).1 (List.mem_map.mpr ⟨other,member,utf16_injective same⟩)
    obtain ⟨whole,token,last,built,all⟩ := ih (List.nodup_cons.mp distinct).2 room.tail (by omega) (depth.trans (by rw [deep]))
      (Nat.le_of_succ_le_succ enough) others
    rw [textOf_cons]
    refine ⟨whole,token,last,turn.trans built,?_⟩
    exact all.trans ((added.append_right _).trans List.perm_middle.symm)

/-- No byte order mark is in front. -/
theorem unmarked {text : List Char} (mark : text.head? ≠ some '\uFEFF') : charAt (utf16 text ++ [0]) 0 ≠ 0xfeff := by
  cases text with
  | nil => decide
  | cons c text =>
    rw [utf16_cons]
    intro same
    by_cases single : c.toNat ≤ 0xffff
    · rw [WriteUTF16,if_pos single] at same
      have code : c = '\uFEFF' := Char.toNat_inj.mp same
      rw [code] at mark
      exact mark rfl
    · rw [WriteUTF16,if_neg single] at same
      have lead : (c.toNat >>> 10) + 0xd7c0 = 0xfeff := same
      have scalar := scalar_iff.mp (valid_char c)
      rw [Nat.shiftRight_eq_div_pow] at lead
      omega

end Fields

/-! ### Deserializing -/

section Deserialize
variable (StringToDouble)

/-- From a string a dictionary is made that has the entries and no others. -/
def Yields (http_string : List UInt8) (entries : ValueMap Value) : Prop :=
  ∃ fuel, ∀ more ≥ fuel, ∀ before : Reader, ∃ dict last,
    Deserialize StringToDouble more before http_string = some (some (.dictionary dict),last) ∧ dict.Perm entries

variable {StringToDouble}

/-- The reader at the start of its text. -/
def started (before : Reader) (start_pos : WString) : Reader :=
  { before with
    start_pos_ := start_pos
    pos_ := start_pos
    stack_depth_ := 0
    allow_trailing_comma_ := true
    error_code_ := .noError }

/-- Whatever is behind the root, it is returned. -/
theorem Deserialize_root {fuel : Nat} {before last : Reader} {http_string : List UInt8} {start_pos : WString} {root : Value}
    (some_ : http_string ≠ []) (wide : UTF8ToWide (http_string.dropLast ++ [0]) = start_pos) (unmarked : charAt start_pos 0 ≠ 0xfeff)
    (built : BuildValue StringToDouble fuel true (started before start_pos) = some (some root,last)) :
    ∃ last, Deserialize StringToDouble fuel before http_string = some (some root,last) := by
  rw [Deserialize,if_neg some_,wide]
  dsimp only
  rw [if_neg unmarked]
  change ∃ last, Option.map _ (BuildValue StringToDouble fuel true (started before start_pos)) = _
  rw [built,Option.map_some]
  dsimp only
  split_ifs <;> exact ⟨_,rfl⟩

theorem fields_deserialized {fields : List (Field StringToDouble)} (some_ : fields ≠ [])
    (distinct : (fields.map Field.key).Nodup) (mark : (joined fields).head? ≠ some '\uFEFF') (room : Room 1 fields)
    (short : (utf8 (joined fields)).length + 1 < 2 ^ 31) (terminator : UInt8) :
    Yields StringToDouble (utf8 (joined fields) ++ [terminator]) (fields.map Field.entry) := by
  obtain ⟨field,fields,rfl⟩ := List.exists_cons_of_ne_nil some_
  have wide : UTF8ToWide ((utf8 (joined (field::fields)) ++ [terminator]).dropLast ++ [0]) = textOf (field::fields) := by
    have ended : utf8 (joined (field::fields)) ++ [0] = utf8 (joined (field::fields) ++ ['\x00']) := by
      rw [utf8_append,utf8_cons,← WriteUTF8_char]
      rfl
    rw [List.dropLast_concat,ended,UTF8ToWide_utf8,utf16_append]
    · rfl
    · rw [← ended,List.length_append]
      exact short
  refine ⟨fields.length + 3,fun more enough before => ?_⟩
  obtain ⟨n,rfl⟩ := Nat.exists_eq_add_of_le' enough
  -- the root is one level deep
  obtain ⟨dict,token,last,pairs,all⟩ := @BuildPairs_fields StringToDouble field fields distinct 1 room (by omega)
    (started before (textOf (field::fields))).deeper rfl (n + fields.length) (Nat.le_add_left ..) [] (fun _ _ => List.not_mem_nil)
  have within : ¬kStackLimit < (started before (textOf (field::fields))).deeper.stack_depth_ := by
    change ¬kStackLimit < 1
    decide
  have name := ParseToken_name field fields (started before (textOf (field::fields))).deeper
  have root : BuildValue StringToDouble (n + fields.length + 2 + 1) true (started before (textOf (field::fields))) =
      some (some (.dictionary dict),last.leave token) := by
    rw [BuildValue,if_neg within,if_pos rfl]
    dsimp only
    have start : (started before (textOf (field::fields))).deeper.advance 0 =
        (started before (textOf (field::fields))).deeper.seek (textOf (field::fields)) := rfl
    rw [start,name]
    dsimp only
    rw [pairs]
    rfl
  obtain ⟨final,returned⟩ := Deserialize_root (by simp) wide (unmarked mark) root
  exact ⟨dict,final,returned,all⟩

end Deserialize

def ageField : Field (fun _ => none) where
  key := ['a','g','e']
  value := canonical 12
  node := .fundamental (.bigInteger 12)
  named := nofun
  plainKey := by simp [reserved]
  plainValue := canonical_plain 12
  word := ⟨by simp,by simp,by simp⟩
  denotes := .integer (by decide) (by decide) (by decide)

/-- A pair without a value. -/
def emptyField : Field (fun _ => none) where
  key := ['u']
  value := []
  node := .string []
  named := nofun
  plainKey := by simp [reserved]
  plainValue := List.forall_mem_nil _
  word := ⟨by simp,by simp,by simp⟩
  denotes := .text ⟨by simp,by simp,by simp⟩ fun like => by
    obtain ⟨_,_,same,_⟩ := like.first
    cases same

theorem age_deserialized : Yields (fun _ => none) (utf8 (joined [ageField,emptyField]) ++ [10])
    [ageField.entry,emptyField.entry] := by
  refine @fields_deserialized (fun _ => none) [ageField,emptyField] (List.cons_ne_nil _ _) (by decide) (by decide) ?_ (by decide) 10
  intro before field after split some_
  have few : empties before ≤ 2 := by
    refine List.countP_le_length.trans ?_
    have length := congrArg List.length split
    rw [List.length_append,List.length_cons] at length
    change 2 = _ at length
    omega
  exact (Nat.add_le_add_left few 1).trans_lt (by decide)

/-- A reader that has read nothing. -/
def unread : Reader := ⟨[],[],0,true,.noError,0,0⟩

theorem not_yields {StringToDouble : List UInt8 → Option Float} {http_string : List UInt8} {entries : ValueMap Value}
    (gives : ∀ n, ∃ result last, Deserialize StringToDouble (n + 3) unread http_string = some (result,last) ∧
      ∀ dict, result = some (.dictionary dict) → ¬dict.Perm entries) : ¬Yields StringToDouble http_string entries := by
  rintro ⟨fuel,both⟩
  obtain ⟨dict,final,made,all⟩ := both (fuel + 3) (Nat.le_add_right ..) unread
  obtain ⟨result,last,returned,other⟩ := gives fuel
  cases made.symm.trans returned
  exact other dict rfl all

/-- A dictionary of one entry is no permutation of another entry. -/
theorem other_entry {name : WString} {node expected : Value} (different : node ≠ expected) :
    ∀ dict, some (Value.dictionary [(name,node)]) = some (.dictionary dict) → ¬dict.Perm [(name,expected)] := by
  intro dict same all
  cases same
  exact different (congrArg Prod.snd (List.singleton_perm_singleton.mp all))

/-- Ninety-nine pairs without a value, and one with. -/
def crowdedForm : List UInt8 :=
  ((List.range 99).flatMap fun i => [UInt8.ofNat (97 + i / 10),UInt8.ofNat (97 + i % 10),61,38]) ++ ascii "z=1\n"

/-- The last byte is lost, a literal and a decimal number are no texts. A date, a number
with a leading zero, a word that begins with a literal, also as a name, and a value
behind too many empty ones end it all; a byte order mark is no part of a name. -/
theorem not_deserialized :
    ¬Yields (fun _ => none) (ascii "a=12") [([97],.fundamental (.bigInteger 12))] ∧
    ¬Yields (fun _ => none) (ascii "a=true\n") [([97],.string (ascii "true"))] ∧
    ¬Yields (fun _ => some 1.5) (ascii "a=1.5\n") [([97],.string (ascii "1.5"))] ∧
    ¬Yields (fun _ => none) (ascii "a=2015-01-02\n") [([97],.string (ascii "2015-01-02"))] ∧
    ¬Yields (fun _ => none) (ascii "a=007\n") [([97],.string (ascii "007"))] ∧
    ¬Yields (fun _ => none) (ascii "a=false\n") [([97],.string (ascii "false"))] ∧
    ¬Yields (fun _ => none) (ascii "a=truest\n") [([97],.string (ascii "truest"))] ∧
    ¬Yields (fun _ => none) (ascii "nullable=a\n") [([110,117,108,108,97,98,108,101],.string (ascii "a"))] ∧
    ¬Yields (fun _ => none) ([0xef,0xbb,0xbf] ++ ascii "a=b\n") [([0xfeff,97],.string (ascii "b"))] ∧
    (Deserialize (fun _ => none) 200 unread crowdedForm).map (fun made => made.1.isNone) = some true := by
  refine ⟨not_yields fun _ => ⟨_,_,rfl,other_entry ?_⟩,not_yields fun _ => ⟨_,_,rfl,other_entry nofun⟩,
    not_yields fun _ => ⟨_,_,rfl,other_entry nofun⟩,not_yields fun _ => ⟨none,_,rfl,nofun⟩,not_yields fun _ => ⟨none,_,rfl,nofun⟩,
    not_yields fun _ => ⟨none,_,rfl,nofun⟩,not_yields fun _ => ⟨none,_,rfl,nofun⟩,not_yields fun _ => ⟨none,_,rfl,nofun⟩,
    not_yields fun _ => ⟨_,_,rfl,?_⟩,by decide +kernel⟩
  · intro same
    cases same
  · intro dict same all
    cases same
    cases congrArg Prod.fst (List.singleton_perm_singleton.mp all)

end HttpValueSerializer
end Migfm.Logic
