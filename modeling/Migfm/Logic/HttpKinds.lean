import Migfm.Logic.HttpReading
import Mathlib.Data.Nat.Digits.Defs

/-! Which values of a form are read as a string, and which as an integer. -/
namespace Migfm.Logic
namespace HttpValueSerializer

variable {StringToDouble : List UInt8 → Option Float}

/-! ### Kinds of values -/

theorem decimalDigits_denoted {digits : List UInt8} (some_ : digits ≠ []) (each : ∀ digit ∈ digits, isDigit digit.toNat)
    (leading : 1 < digits.length → digits.head? ≠ some 48) : decimalDigits (denoted digits) = digits := by
  induction digits using List.reverseRecOn with
  | nil => exact absurd rfl some_
  | append_singleton digits digit ih =>
    have last : 48 ≤ digit.toNat ∧ digit.toNat ≤ 57 := by
      have number := each digit (List.mem_append_right _ List.mem_cons_self)
      rwa [isDigit,decide_eq_true_iff] at number
    have back : (48 + (digit.toNat - 48)).toUInt8 = digit := by
      have whole : 48 + (digit.toNat - 48) = digit.toNat := by omega
      rw [whole]
      exact UInt8.ofNat_toNat
    have value : denoted (digits ++ [digit]) = 10 * denoted digits + (digit.toNat - 48) := by
      rw [denoted,List.foldl_append]
      rfl
    by_cases first : digits = []
    · subst first
      have small : denoted [digit] = digit.toNat - 48 := by
        rw [denoted,List.foldl_cons]
        simp
      rw [List.nil_append,small,decimalDigits_lt (by omega),back]
    · have front : decimalDigits (denoted digits) = digits := by
        apply ih first fun c listed => each c (List.mem_append_left _ listed)
        intro _
        have head := leading (by rw [List.length_append]; exact Nat.lt_add_of_pos_left (List.length_pos_of_ne_nil first))
        rwa [List.head?_append_of_ne_nil _ first] at head
      have positive : denoted digits ≠ 0 := by
        intro zero
        have head := leading (by rw [List.length_append]; exact Nat.lt_add_of_pos_left (List.length_pos_of_ne_nil first))
        rw [← front,zero] at head
        exact head rfl
      rw [value,decimalDigits_ge (by omega)]
      have quotient : (10 * denoted digits + (digit.toNat - 48)) / 10 = denoted digits := by omega
      have remainder : (10 * denoted digits + (digit.toNat - 48)) % 10 = digit.toNat - 48 := by omega
      rw [quotient,remainder,front,back]

/-- The text of an integer, without needless zeros. -/
def Numeral (value : List Char) (n : Int) : Prop := value = canonical n ∨ (value = ['-','0'] ∧ n = 0)

/-- The text of an integer that the reader takes for one. -/
def IntegerText (value : List Char) (n : Int64) : Prop := value.length ≤ 19 ∧ Numeral value n.toInt

section Kinds
variable {value : List Char}

theorem NodeOf.unique {value : List Char} {node other : Value} (read : NodeOf StringToDouble value node)
    (also : NodeOf StringToDouble value other) : node = other := by
  rcases read with ⟨empty,rfl⟩ | ⟨some_,reads⟩
  · rcases also with ⟨-,rfl⟩ | ⟨some_,-⟩
    · rfl
    · exact absurd empty some_
  · rcases also with ⟨empty,-⟩ | ⟨-,reads'⟩
    · exact absurd empty some_
    · exact reads.unique reads'

/-- What is read of a text that has to be a number. -/
theorem NumberLike.of_reads (like : NumberLike value) (plain : ∀ c ∈ value, c ∉ reserved) {node : Value}
    (reads : Reads StringToDouble value [0] node) :
    ParseNumberToken (utf16 value ++ [0]) = ⟨.number,utf16 value ++ [0],(utf16 value).length⟩ ∧
      DecodeNumber StringToDouble ⟨.number,utf16 value ++ [0],(utf16 value).length⟩ = some node := by
  obtain ⟨token,scalar,length,parsed⟩ := reads
  have zero : End [0] := .inl rfl
  have same := congrArg Prod.fst ((like.parsed plain zero unread).symm.trans (parsed unread))
  dsimp only at same
  rcases ParseNumberToken_alike zero like.units with ⟨invalid,-⟩ | ⟨other,-,number,-⟩
  · rw [invalid] at same
    subst same
    cases scalar
  · rw [number] at same
    subst same
    have whole : other = (utf16 value).length := length
    subst whole
    cases scalar with
    | number decodes => exact ⟨number,decodes⟩

theorem DecodeNumber_number {token : Token} {node : Value} (decodes : DecodeNumber StringToDouble token = some node) (s : List UInt8) :
    node ≠ .string s := by
  rw [DecodeNumber] at decodes
  split at decodes
  · cases decodes
    intro same
    cases same
  · obtain ⟨num_double,-,rfl⟩ := Option.map_eq_some_iff.mp decodes
    intro same
    cases same

/-- Of a text that begins like a literal only the literal itself is read, and `false` not
even then. -/
theorem literal_of_reads (other : ¬Word value) {node : Value} (reads : Reads StringToDouble value [0] node) :
    (value = "null".toList ∧ node = .null) ∨ (value = "true".toList ∧ node = .fundamental (.boolean true)) := by
  obtain ⟨token,scalar,length,parsed⟩ := reads
  have here := parsed unread
  have whole {more : List Char} {word : WString} (units : utf16 value = word ++ utf16 more) (same : word.length = (utf16 value).length) :
      more = [] := by
    rw [units,List.length_append] at same
    have none_ : utf16 more = [] := List.eq_nil_of_length_eq_zero (by omega)
    exact utf16_injective none_
  rcases literal_of_not_word other with ⟨more,units,text⟩ | ⟨more,units,text⟩ | ⟨more,units,-⟩
  · rw [units,List.append_assoc,ParseToken_null] at here
    cases here
    cases scalar
    rw [whole units length,List.append_nil] at text
    exact .inl ⟨text,rfl⟩
  · rw [units,List.append_assoc,ParseToken_true] at here
    cases here
    cases scalar
    rw [whole units length,List.append_nil] at text
    exact .inr ⟨text,rfl⟩
  · rw [units,List.append_assoc,ParseToken_false] at here
    cases here
    have letters : kFalseString.length = 5 := rfl
    rw [units,List.length_append,letters] at length
    exfalso
    change 4 = 5 + (utf16 more).length at length
    omega

/-- The text of a string: no literal, and nothing that has to be a number. -/
def StringText (value : List Char) : Prop := Word value ∧ ¬NumberLike value

theorem StringText.empty : StringText [] := by
  refine ⟨⟨nofun,nofun,nofun⟩,fun like => ?_⟩
  obtain ⟨_,_,same,_⟩ := like.first
  cases same

theorem string_iff (plain : ∀ c ∈ value, c ∉ reserved) (short : (utf8 value).length < 2 ^ 31) (s : List UInt8) :
    NodeOf StringToDouble value (.string s) ↔ StringText value ∧ s = utf8 value := by
  by_cases empty : value = []
  · subst empty
    simp [NodeOf,StringText.empty,utf8]
  · constructor
    · rintro (⟨same,-⟩ | ⟨-,reads⟩)
      · exact absurd same empty
      · by_cases word : Word value
        · by_cases like : NumberLike value
          · exact absurd rfl (DecodeNumber_number (like.of_reads plain reads).2 s)
          · have same := reads.unique (reads_text plain (.inl rfl) word like empty short)
            exact ⟨⟨word,like⟩,Value.string.inj same⟩
        · rcases literal_of_reads word reads with ⟨-,same⟩ | ⟨-,same⟩
          · cases same
          · cases same
    · rintro ⟨⟨word,other⟩,rfl⟩
      exact .inr ⟨empty,reads_text plain (.inl rfl) word other empty short⟩

/-- The text of a number that the reader can make a node of. -/
def NumberText (StringToDouble : List UInt8 → Option Float) (value : List Char) : Prop :=
  NumberLike value ∧ ParseNumberToken (utf16 value ++ [0]) = ⟨.number,utf16 value ++ [0],(utf16 value).length⟩ ∧
    (DecodeNumber StringToDouble ⟨.number,utf16 value ++ [0],(utf16 value).length⟩).isSome

/-- The text of a value that is read whole. -/
def Readable (StringToDouble : List UInt8 → Option Float) (value : List Char) : Prop :=
  StringText value ∨ NumberText StringToDouble value ∨ value = "null".toList ∨ value = "true".toList

theorem NodeOf.readable (plain : ∀ c ∈ value, c ∉ reserved) {node : Value} (read : NodeOf StringToDouble value node) :
    Readable StringToDouble value := by
  rcases read with ⟨rfl,-⟩ | ⟨some_,reads⟩
  · exact .inl StringText.empty
  · by_cases word : Word value
    · by_cases like : NumberLike value
      · obtain ⟨parsed,decodes⟩ := like.of_reads plain reads
        exact .inr (.inl ⟨like,parsed,Option.isSome_of_eq_some decodes⟩)
      · exact .inl ⟨word,like⟩
    · exact .inr (.inr ((literal_of_reads word reads).imp And.left And.left))

theorem readable_iff (plain : ∀ c ∈ value, c ∉ reserved) (short : (utf8 value).length < 2 ^ 31) :
    (∃ node, NodeOf StringToDouble value node) ↔ Readable StringToDouble value := by
  refine ⟨fun ⟨node,read⟩ => read.readable plain,?_⟩
  rintro (text | ⟨like,parsed,decodes⟩ | rfl | rfl)
  · exact ⟨_,(string_iff plain short _).mpr ⟨text,rfl⟩⟩
  · obtain ⟨node,made⟩ := Option.isSome_iff_exists.mp decodes
    obtain ⟨c,others,some_,-⟩ := like.first
    refine ⟨node,.inr ⟨some_ ▸ List.cons_ne_nil _ _,_,.number made,rfl,fun reader => ?_⟩⟩
    rw [like.parsed plain (.inl rfl),parsed]
  · exact ⟨.null,.inr ⟨List.cons_ne_nil _ _,_,.null,rfl,fun _ => ParseToken_null⟩⟩
  · exact ⟨_,.inr ⟨List.cons_ne_nil _ _,_,.true_,rfl,fun _ => ParseToken_true⟩⟩

theorem StringToInt64_some {input : List UInt8} {n : Int64} (read : StringToInt64 input = some n) :
    ∃ sign digits, input = sign ++ digits ∧ (sign = [45] ∨ sign = [43] ∨ sign = []) ∧ digits ≠ [] ∧
      (∀ digit ∈ digits, isDigit digit.toNat) ∧ n.toInt = if sign = [45] then -(denoted digits : Int) else denoted digits := by
  have whole {negative : Bool} {digits : List UInt8}
      (read : (if digits = [] ∨ ¬(digits.all fun digit => isDigit digit.toNat) = true then none
        else if -2 ^ 63 ≤ (if negative = true then -(denoted digits : Int) else denoted digits) ∧
          (if negative = true then -(denoted digits : Int) else denoted digits) < 2 ^ 63 then
          some (Int64.ofInt (if negative = true then -(denoted digits : Int) else denoted digits)) else none) = some n) :
      digits ≠ [] ∧ (∀ digit ∈ digits, isDigit digit.toNat) ∧
        n.toInt = if negative = true then -(denoted digits : Int) else denoted digits := by
    by_cases none_ : digits = [] ∨ ¬(digits.all fun digit => isDigit digit.toNat) = true
    · rw [if_pos none_] at read
      cases read
    · rw [if_neg none_] at read
      rw [not_or,not_not,List.all_eq_true] at none_
      generalize (if negative = true then -(denoted digits : Int) else denoted digits) = number at read ⊢
      by_cases inside : -2 ^ 63 ≤ number ∧ number < 2 ^ 63
      · rw [if_pos inside] at read
        cases read
        exact ⟨none_.1,none_.2,Int64.toInt_ofInt_of_le inside.1 inside.2⟩
      · rw [if_neg inside] at read
        cases read
  rw [StringToInt64.eq_def] at read
  dsimp only at read
  split at read
  · rename_i digits
    exact ⟨[45],digits,rfl,.inl rfl,@whole true digits read⟩
  · rename_i digits
    exact ⟨[43],digits,rfl,.inr (.inl rfl),@whole false digits read⟩
  · exact ⟨[],input,rfl,.inr (.inr rfl),@whole false input read⟩

/-- A number that is read has no needless zero in front. -/
theorem no_leading_zero {sign digits : WString} (signed : sign = [45] ∨ (sign = [] ∧ digits.head? ≠ some 45))
    (each : ∀ digit ∈ digits, isDigit digit) {token : Token} (parsed : ParseNumberToken (sign ++ digits ++ [0]) = token)
    (number : token.type = .number) (several : 1 < digits.length) : digits.head? ≠ some 48 := by
  intro zero
  have starts : (if charAt (sign ++ digits ++ [0]) 0 = 45 then (Token.mk .number (sign ++ digits ++ [0]) 0).advance 1
      else ⟨.number,sign ++ digits ++ [0],0⟩) = ⟨.number,sign ++ digits ++ [0],sign.length⟩ := by
    obtain ⟨digit,others,rfl⟩ := List.exists_cons_of_ne_nil (List.ne_nil_of_length_pos (Nat.zero_lt_of_lt several))
    rcases signed with rfl | ⟨rfl,other⟩
    · exact if_pos rfl
    · refine if_neg fun same => other ?_
      exact congrArg some same
  have behind : (sign ++ digits ++ [0]).drop sign.length = digits ++ [0] := by rw [List.append_assoc,List.drop_left]
  have taken : (digits ++ [0]).takeWhile isDigit = digits := by
    rw [List.takeWhile_append_of_pos each]
    exact List.append_nil _
  have next : Token.NextChar ⟨.number,sign ++ digits ++ [0],sign.length⟩ = 48 := by
    obtain ⟨digit,others,rfl⟩ := List.exists_cons_of_ne_nil (List.ne_nil_of_length_pos (Nat.zero_lt_of_lt several))
    cases zero
    change charAt (sign ++ 48::others ++ [0]) sign.length = 48
    rw [List.append_assoc,charAt_append rfl]
    rfl
  have fails : ReadInt ⟨.number,sign ++ digits ++ [0],sign.length⟩ false = none := by
    rw [ReadInt]
    dsimp only
    rw [behind,taken,if_neg (List.ne_nil_of_length_pos (Nat.zero_lt_of_lt several)),if_pos ⟨Bool.false_ne_true,several,next⟩]
  rw [ParseNumberToken,starts,fails] at parsed
  cases parsed
  cases number

theorem NumberLike.ascii (like : NumberLike value) : wide (WideToASCII (utf16 value)) = utf16 value := by
  rw [(ascii_text fun c listed => numberCharacter_ascii (like.each c listed)).2,wide,WideToASCII,List.map_map,List.map_map]
  apply List.map_congr_left
  intro c listed
  have small := numberCharacter_ascii (like.each c listed)
  change c.toNat.toUInt8.toNat = c.toNat
  rw [Nat.toUInt8,UInt8.toNat_ofNat']
  omega

/-- Of digits that are read the reader makes the number they denote. -/
theorem NumberLike.integer (like : NumberLike value) (plain : ∀ c ∈ value, c ∉ reserved) {n : Int64}
    (reads : Reads StringToDouble value [0] (.fundamental (.bigInteger n))) : Numeral value n.toInt := by
  obtain ⟨parsed,decodes⟩ := like.of_reads plain reads
  have input : StringToInt64 (WideToASCII (utf16 value)) = some n := by
    rw [DecodeNumber] at decodes
    dsimp only at decodes
    rw [List.take_left] at decodes
    split at decodes
    · rename_i found
      cases decodes
      exact found
    · obtain ⟨num_double,-,same⟩ := Option.map_eq_some_iff.mp decodes
      cases same
  obtain ⟨sign,digits,parts,signs,some_,each,number⟩ := StringToInt64_some input
  have units : utf16 value = wide sign ++ wide digits := by rw [← like.ascii,parts,wide,wide,wide,List.map_append]
  have wider : ∀ digit ∈ wide digits, isDigit digit := by
    intro digit listed
    obtain ⟨byte,inside,rfl⟩ := List.mem_map.mp listed
    exact each byte inside
  have leading (signed : wide sign = [45] ∨ (wide sign = [] ∧ (wide digits).head? ≠ some 45)) :
      decimalDigits (denoted digits) = digits := by
    apply decimalDigits_denoted some_ each
    intro several zero
    rw [units] at parsed
    have other := no_leading_zero signed wider parsed rfl (by rw [wide,List.length_map]; exact several)
    rw [wide,List.head?_map,zero] at other
    exact other rfl
  obtain ⟨c,others,first,start⟩ := like.first
  rcases signs with rfl | rfl | rfl
  · have back := leading (.inl rfl)
    by_cases zero : denoted digits = 0
    · have nothing : decimalDigits 0 = [48] := rfl
      rw [zero,nothing] at back
      rw [← back] at units
      rw [if_pos rfl,zero] at number
      exact .inr ⟨utf16_injective units,number⟩
    · left
      apply utf16_injective
      rw [if_pos rfl] at number
      have negative : -(denoted digits : Int) < 0 := by omega
      rw [canonical_units,number,decimal,if_pos negative,Int.natAbs_neg,Int.natAbs_natCast,back,units]
      rfl
  · -- a number does not begin with a plus
    rw [first,utf16_cons] at units
    exfalso
    rcases start with digit | rfl
    · have small := numberCharacter_ascii (like.each c (first ▸ List.mem_cons_self))
      rw [WriteUTF16,if_pos (by omega)] at units
      have same := (List.cons.inj units).1
      rw [same] at digit
      cases digit
    · cases units
  · left
    apply utf16_injective
    rw [if_neg (List.cons_ne_nil _ _).symm] at number
    have back := leading (.inr ⟨rfl,fun minus => by
      obtain ⟨digit,others,rfl⟩ := List.exists_cons_of_ne_nil some_
      have regular := each digit List.mem_cons_self
      rw [Option.some.inj minus] at regular
      cases regular⟩)
    rw [canonical_units,number,decimal,if_neg (Int.not_lt.mpr (Int.natCast_nonneg _)),Int.natAbs_natCast,back,units]
    rfl

theorem integer_iff (plain : ∀ c ∈ value, c ∉ reserved) (short : (utf8 value).length < 2 ^ 31) (n : Int64) :
    NodeOf StringToDouble value (.fundamental (.bigInteger n)) ↔ IntegerText value n := by
  constructor
  · rintro (⟨-,same⟩ | ⟨some_,reads⟩)
    · cases same
    · by_cases word : Word value
      · by_cases like : NumberLike value
        · exact ⟨like.short,like.integer plain reads⟩
        · cases reads.unique (reads_text plain (.inl rfl) word like some_ short)
      · rcases literal_of_reads word reads with ⟨-,same⟩ | ⟨-,same⟩
        · cases same
        · cases same
  · rintro ⟨length,same | ⟨rfl,zero⟩⟩
    · have some_ : value ≠ [] := by
        rintro rfl
        have units := canonical_units n.toInt
        obtain ⟨c,others,starts,-⟩ := decimal_head n.toInt
        rw [← same,starts] at units
        cases units
      have reads := @reads_integer StringToDouble value [0] plain (.inl rfl) n.toInt same n.le_toInt n.toInt_lt length
      rw [Int64.ofInt_toInt] at reads
      exact .inr ⟨some_,reads⟩
    · have same : n = 0 := Int64.toInt_inj.mp zero
      subst same
      exact .inr ⟨List.cons_ne_nil _ _,⟨.number,[45,48,0],2⟩,.number rfl,rfl,fun _ => rfl⟩

end Kinds

/-- A literal or a number is of ASCII characters, none of them a percent sign. -/
theorem Readable.other {value : List Char} (readable : Readable StringToDouble value) (other : ¬StringText value) :
    value ≠ [] ∧ ∀ c ∈ value, c ≠ '%' ∧ c.toNat < 128 := by
  rcases readable with text | ⟨like,-⟩ | rfl | rfl
  · exact absurd text other
  · obtain ⟨c,others,starts,-⟩ := like.first
    refine ⟨starts ▸ List.cons_ne_nil _ _,fun c listed => ⟨?_,numberCharacter_ascii (like.each c listed)⟩⟩
    rintro rfl
    exact absurd (like.each '%' listed) (by decide)
  · exact ⟨List.cons_ne_nil _ _,List.forall_mem_cons.mpr ⟨by decide,List.forall_mem_cons.mpr ⟨by decide,
      List.forall_mem_cons.mpr ⟨by decide,List.forall_mem_singleton.mpr (by decide)⟩⟩⟩⟩
  · exact ⟨List.cons_ne_nil _ _,List.forall_mem_cons.mpr ⟨by decide,List.forall_mem_cons.mpr ⟨by decide,
      List.forall_mem_cons.mpr ⟨by decide,List.forall_mem_singleton.mpr (by decide)⟩⟩⟩⟩

/-! ### Numerals -/

section Numerals
variable {value other : List Char}

theorem canonical_short {n : Int} (low : -10 ^ 18 < n) (high : n < 10 ^ 18) : (canonical n).length ≤ 19 := by
  have digits : (Nat.toDigits 10 n.natAbs).length ≤ 18 := Nat.toDigits_length 10 _ _ (by decide) (by omega)
  rw [canonical]
  split
  · exact Nat.succ_le_succ digits
  · omega

theorem Numeral.short {n : Int} (numeral : Numeral value n) (also : Numeral other n) (length : other.length ≤ 19) : value.length ≤ 19 := by
  rcases numeral with rfl | ⟨rfl,-⟩
  · rcases also with rfl | ⟨rfl,rfl⟩
    · exact length
    · exact canonical_short (by decide) (by decide)
  · decide

theorem Numeral.bounded {n : Int} (numeral : Numeral value n) (low : -10 ^ 18 < n) (high : n < 10 ^ 18) : value.length ≤ 19 :=
  numeral.short (.inl rfl) (canonical_short low high)

theorem canonical_decimal (n : Int) : utf8 (canonical n) = decimal n := by
  have ascii : ∀ c ∈ canonical n, c.toNat < 128 := by
    intro c member
    have code := (canonical_code n c member).2
    rw [isDigit,decide_eq_true_iff] at code
    omega
  rw [(ascii_text ascii).1,canonical_bytes]

end Numerals

end HttpValueSerializer
end Migfm.Logic
