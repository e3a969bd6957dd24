import Migfm.Logic.JsonSerializer

/-! The reader of json_serializer.cc on what the writer writes: blanks are skipped,
and each kind of text is read as its token, up to where it ends. -/
namespace Migfm.Logic

/-! ### A text in both encodings -/

/-- The bytes and the code units of one text. -/
def Wide (bytes : List UInt8) (w : WString) : Prop := ∃ text, bytes = utf8 text ∧ w = utf16 text

theorem utf8_ascii {bytes : List UInt8} (ascii : ∀ byte ∈ bytes, byte.toNat < 128) :
    utf8 (bytes.map Char.ofUInt8) = bytes ∧ utf16 (bytes.map Char.ofUInt8) = wide bytes := by
  have code (byte : UInt8) : (Char.ofUInt8 byte).toNat = byte.toNat := UInt8.toNat_toUInt32 byte
  obtain ⟨units8,units16⟩ := @ascii_text (bytes.map Char.ofUInt8) (by
    intro c member
    obtain ⟨byte,listed,rfl⟩ := List.mem_map.mp member
    rw [code]
    exact ascii byte listed)
  constructor
  · rw [units8,List.map_map]
    refine (List.map_congr_left fun byte _ => ?_).trans (List.map_id bytes)
    rw [Function.comp_apply,code]
    exact UInt8.ofNat_toNat
  · rw [units16,List.map_map]
    exact List.map_congr_left fun byte _ => code byte

namespace Wide

variable {bytes more : List UInt8} {w other : WString}

theorem nil : Wide [] [] := ⟨[],rfl,rfl⟩

theorem append (left : Wide bytes w) (right : Wide more other) : Wide (bytes ++ more) (w ++ other) := by
  obtain ⟨text,rfl,rfl⟩ := left
  obtain ⟨others,rfl,rfl⟩ := right
  exact ⟨text ++ others,(utf8_append ..).symm,(utf16_append ..).symm⟩

theorem ascii (each : ∀ byte ∈ bytes, byte.toNat < 128) : Wide bytes (wide bytes) :=
  ⟨_,(utf8_ascii each).1.symm,(utf8_ascii each).2.symm⟩

/-- The text of a literal. -/
theorem literal (small : bytes.all (·.toNat < 128) = true) : Wide bytes (wide bytes) :=
  ascii fun byte member => of_decide_eq_true (List.all_eq_true.mp small byte member)

theorem UTF8ToWide_eq (both : Wide bytes w) (short : bytes.length < 2 ^ 31) : UTF8ToWide bytes = w := by
  obtain ⟨text,rfl,rfl⟩ := both
  exact UTF8ToWide_utf8 short

theorem WideToUTF8_eq (both : Wide bytes w) (short : bytes.length < 2 ^ 31) : WideToUTF8 w = bytes := by
  obtain ⟨text,rfl,rfl⟩ := both
  exact WideToUTF8_utf16 ((length_utf16_le text).trans_lt short)

end Wide

namespace JsonValueSerializer

variable {pos rest blanks : WString} {reader : Reader}

/-! ### Blanks -/

/-- What the writer indents with. -/
def Blank (blanks : WString) : Prop := ∀ c ∈ blanks, c = 32 ∨ c = 10

theorem blank_wide {bytes : List UInt8} (each : ∀ byte ∈ bytes, byte = 32 ∨ byte = 10) :
    Wide bytes (wide bytes) ∧ Blank (wide bytes) := by
  constructor
  · refine .ascii fun byte member => ?_
    rcases each byte member with rfl | rfl <;> decide
  · intro c member
    obtain ⟨byte,listed,rfl⟩ := List.mem_map.mp member
    rcases each byte listed with rfl | rfl <;> decide

theorem blank_append {more : WString} (blank : Blank blanks) (others : Blank more) : Blank (blanks ++ more) :=
  fun c member => (List.mem_append.mp member).elim (blank c) (others c)

/-- No number goes on at blanks in front of a token of one character. -/
theorem delimited_blank (blank : Blank blanks) {c : Nat} (regular : c ∈ [44,93,125]) : Delimited (blanks ++ c::rest) := by
  cases blanks with
  | nil =>
    have each : ∀ c ∈ [44,93,125], ¬isDigit c ∧ c ≠ 46 ∧ c ≠ 101 ∧ c ≠ 69 := by decide
    obtain ⟨digit,point,small,capital⟩ := each c regular
    exact ⟨digit,point,small,capital⟩
  | cons first blanks =>
    have each : ∀ c ∈ [32,10], ¬isDigit c ∧ c ≠ 46 ∧ c ≠ 101 ∧ c ≠ 69 := by decide
    obtain ⟨digit,point,small,capital⟩ := each first (by simpa using blank first List.mem_cons_self)
    exact ⟨digit,point,small,capital⟩

/-- Nothing is skipped there. -/
structure Solid (pos : WString) : Prop where
  space : charAt pos 0 ≠ 32
  line : charAt pos 0 ≠ 10
  return_ : charAt pos 0 ≠ 13
  tab : charAt pos 0 ≠ 9
  comment : charAt pos 0 ≠ 47

theorem EatAll_solid (solid : Solid pos) (n : Nat) : EatAll n pos = pos := by
  cases n with
  | zero => rfl
  | succ n =>
    rw [EatAll,if_neg (by simp [solid.space,solid.line,solid.return_,solid.tab]),if_neg solid.comment]

theorem EatAll_blank (blank : Blank blanks) (solid : Solid pos) {n : Nat} (enough : blanks.length ≤ n) :
    EatAll n (blanks ++ pos) = pos := by
  induction blanks generalizing n with
  | nil => exact EatAll_solid solid n
  | cons c blanks ih =>
    obtain ⟨n,rfl⟩ := Nat.exists_eq_succ_of_ne_zero (Nat.ne_zero_of_lt enough)
    have first : charAt (c::blanks ++ pos) 0 = c := rfl
    rw [EatAll,first,if_pos (by rcases blank c List.mem_cons_self with rfl | rfl <;> simp)]
    exact ih (fun c member => blank c (List.mem_cons_of_mem _ member)) (Nat.le_of_succ_le_succ enough)

/-- The token behind blanks. -/
theorem ParseToken_blank (blank : Blank blanks) (solid : Solid pos) :
    ParseToken (reader.seek (blanks ++ pos)) = ParseToken (reader.seek pos) := by
  have eaten : EatWhitesspaceAndComments (blanks ++ pos) = EatWhitesspaceAndComments pos := by
    rw [EatWhitesspaceAndComments,EatWhitesspaceAndComments,EatAll_solid solid,
      EatAll_blank blank solid (by rw [List.length_append]; exact Nat.le_add_right ..)]
  rw [ParseToken,ParseToken,Reader.pos_seek,Reader.pos_seek,eaten]
  rfl

theorem solid_cons {c : Nat} (regular : c ∉ [32,10,13,9,47]) (rest : WString) : Solid (c::rest) := by
  simp only [List.mem_cons,List.not_mem_nil,or_false,not_or] at regular
  obtain ⟨space,line,return_,tab,comment⟩ := regular
  exact ⟨space,line,return_,tab,comment⟩

/-! ### Tokens -/

/-- The `switch` of `ParseToken`, where nothing is skipped. -/
theorem ParseToken_solid {c : Nat} (solid : Solid (c::rest)) : ParseToken (reader.seek (c::rest)) =
    let at_ := reader.seek (c::rest)
    if c = 0 then (⟨.endOfInput,[],0⟩,at_)
    else if c = 110 then (literalToken (c::rest) kNullString .nullToken 4,at_)
    else if c = 116 then (literalToken (c::rest) kTrueString .boolTrue 4,at_)
    else if c = 102 then (literalToken (c::rest) kFalseString .boolFalse 5,at_)
    else match punctuation c with
      | some type => (⟨type,c::rest,1⟩,at_)
      | none =>
        if isDigit c ∨ c = 45 then (ParseNumberToken (c::rest),at_)
        else if c = 34 then ParseStringToken at_
        else (⟨.invalidToken,[],0⟩,at_) := by
  have eaten : EatWhitesspaceAndComments (c::rest) = c::rest := EatAll_solid solid _
  unfold ParseToken
  simp only [Reader.pos_seek,eaten]
  rfl

theorem ParseToken_punctuation {c : Nat} {type : TokenType} (kind : punctuation c = some type) (rest : WString) :
    ParseToken (reader.seek (c::rest)) = (⟨type,c::rest,1⟩,reader.seek (c::rest)) := by
  have listed : c ∈ [91,93,44,123,125,58] := by
    by_contra other
    simp only [List.mem_cons,List.not_mem_nil,or_false,not_or] at other
    simp [punctuation,other] at kind
  have regular : ∀ c ∈ [91,93,44,123,125,58], c ∉ [32,10,13,9,47] ∧ c ≠ 0 ∧ c ≠ 110 ∧ c ≠ 116 ∧ c ≠ 102 := by decide
  obtain ⟨blank,zero,n,t,f⟩ := regular c listed
  rw [ParseToken_solid (solid_cons blank rest)]
  dsimp only
  rw [if_neg zero,if_neg n,if_neg t,if_neg f,kind]

theorem literalToken_match (str : WString) (type : TokenType) (length : Nat) :
    literalToken (str ++ rest) str type length = ⟨type,str ++ rest,length⟩ :=
  if_pos (List.isPrefixOf_iff_prefix.mpr (List.prefix_append ..))

theorem ParseToken_null : ParseToken (reader.seek (kNullString ++ rest)) =
    (⟨.nullToken,kNullString ++ rest,4⟩,reader.seek (kNullString ++ rest)) :=
  (ParseToken_solid (solid_cons (by decide) _)).trans (congrArg (·,reader.seek _) (literalToken_match kNullString ..))

theorem ParseToken_true : ParseToken (reader.seek (kTrueString ++ rest)) =
    (⟨.boolTrue,kTrueString ++ rest,4⟩,reader.seek (kTrueString ++ rest)) :=
  (ParseToken_solid (solid_cons (by decide) _)).trans (congrArg (·,reader.seek _) (literalToken_match kTrueString ..))

theorem ParseToken_false : ParseToken (reader.seek (kFalseString ++ rest)) =
    (⟨.boolFalse,kFalseString ++ rest,5⟩,reader.seek (kFalseString ++ rest)) :=
  (ParseToken_solid (solid_cons (by decide) _)).trans (congrArg (·,reader.seek _) (literalToken_match kFalseString ..))

theorem solid_number {c : Nat} (starts : isDigit c ∨ c = 45) (rest : WString) : Solid (c::rest) := by
  rw [isDigit,decide_eq_true_iff] at starts
  refine solid_cons ?_ rest
  simp only [List.mem_cons,List.not_mem_nil,or_false]
  omega

theorem ParseToken_number {c : Nat} (starts : isDigit c ∨ c = 45) (rest : WString) :
    ParseToken (reader.seek (c::rest)) = (ParseNumberToken (c::rest),reader.seek (c::rest)) := by
  have range : (48 ≤ c ∧ c ≤ 57) ∨ c = 45 := by
    rwa [isDigit,decide_eq_true_iff] at starts
  have none_ : punctuation c = none := by
    rw [punctuation,if_neg (by omega),if_neg (by omega),if_neg (by omega),if_neg (by omega),if_neg (by omega),if_neg (by omega)]
  rw [ParseToken_solid (solid_number starts rest)]
  dsimp only
  rw [if_neg (by omega),if_neg (by omega),if_neg (by omega),if_neg (by omega),none_]
  exact if_pos starts

/-! ### Strings -/

/-- Where the text of a string ends. -/
def Ends (c : Nat) : Prop := c = 0 ∨ c = 34

theorem StringToken_scans {source decoded : WString} (scans : Scans Ends source decoded) (before rest : WString) {n : Nat}
    (enough : source.length < n) :
    StringToken n ⟨.string,before ++ (source ++ 34::rest),before.length⟩ =
      .ok ⟨.string,before ++ (source ++ 34::rest),before.length + source.length + 1⟩ := by
  induction scans generalizing before n with
  | nil =>
    obtain ⟨n,rfl⟩ := Nat.exists_eq_succ_of_ne_zero (Nat.ne_zero_of_lt enough)
    have here : Token.NextChar ⟨.string,before ++ ([] ++ 34::rest),before.length⟩ = 34 := charAt_append rfl
    rw [StringToken,here]
    rfl
  | @plain c source decoded regular backslash _ ih =>
    obtain ⟨n,rfl⟩ := Nat.exists_eq_succ_of_ne_zero (Nat.ne_zero_of_lt enough)
    have here : Token.NextChar ⟨.string,before ++ (c::source ++ 34::rest),before.length⟩ = c := charAt_append rfl
    have later := @ih (before ++ [c]) n (Nat.lt_of_succ_lt_succ enough)
    rw [List.append_assoc,List.length_append] at later
    have last : before.length + (c::source).length = before.length + [c].length + source.length := by
      simp only [List.length_cons,List.length_nil]
      omega
    rw [StringToken,here]
    dsimp only
    rw [if_neg fun zero => regular (.inl zero),if_neg backslash,if_neg fun quote => regular (.inr quote),last]
    exact later
  | @escape letter c source decoded single _ ih =>
    obtain ⟨n,rfl⟩ := Nat.exists_eq_succ_of_ne_zero (Nat.ne_zero_of_lt enough)
    have here : Token.NextChar ⟨.string,before ++ (92::letter::source ++ 34::rest),before.length⟩ = 92 := charAt_append rfl
    have second : (Token.advance ⟨.string,before ++ (92::letter::source ++ 34::rest),before.length⟩ 1).NextChar = letter := by
      have moved : before ++ (92::letter::source ++ 34::rest) = (before ++ [92]) ++ (letter::(source ++ 34::rest)) := by simp
      rw [Token.NextChar,Token.advance,moved,charAt_append (by rw [List.length_append]; rfl)]
      rfl
    have later := @ih (before ++ [92,letter]) n (by simp only [List.length_cons] at enough; omega)
    rw [List.append_assoc,List.length_append] at later
    have last : before.length + (92::letter::source).length = before.length + [92,letter].length + source.length := by
      simp only [List.length_cons,List.length_nil]
      omega
    have simple : letter ≠ 120 ∧ letter ≠ 117 := by
      constructor
      · rintro rfl
        cases single
      · rintro rfl
        cases single
    rw [StringToken,here]
    dsimp only
    rw [if_neg (by decide),if_pos rfl,second,if_neg simple.1,if_neg simple.2,single,last]
    exact later

/-- A string in quotes is read as its token. -/
theorem ParseToken_string {source decoded : WString} (scans : Scans Ends source decoded) (rest : WString) :
    ParseToken (reader.seek (34::(source ++ 34::rest))) =
      (⟨.string,34::(source ++ 34::rest),source.length + 2⟩,reader.seek (34::(source ++ 34::rest))) := by
  have read : StringToken ((34::(source ++ 34::rest)).length + 1) ⟨.string,34::(source ++ 34::rest),1⟩ =
      .ok ⟨.string,34::(source ++ 34::rest),1 + source.length + 1⟩ :=
    StringToken_scans scans [34] rest (by simp only [List.length_cons,List.length_append]; omega)
  have parsed : ParseStringToken (reader.seek (34::(source ++ 34::rest))) =
      (⟨.string,34::(source ++ 34::rest),source.length + 2⟩,reader.seek (34::(source ++ 34::rest))) := by
    rw [ParseStringToken,Reader.pos_seek,read,Nat.add_comm 1]
  rw [ParseToken_solid (solid_cons (by decide) _)]
  exact parsed

/-- The text of a string is decoded from its token. -/
theorem DecodeString_token {source decoded : WString} {bytes : List UInt8} (scans : Scans Ends source decoded)
    (both : Wide bytes decoded) (short : bytes.length < 2 ^ 31) (rest : WString) :
    DecodeString ⟨.string,34::(source ++ 34::rest),source.length + 2⟩ = some bytes := by
  have decodes : DecodeCharacters (34::(source ++ 34::rest)) (1 + source.length) (source.length + 2) 1 = some decoded :=
    DecodeCharacters_scans scans [34] (34::rest) (by omega)
  rw [DecodeString]
  dsimp only
  rw [Nat.add_sub_cancel (m := 1),Nat.add_comm _ 1,decodes,Option.map_some,both.WideToUTF8_eq short]

/-! ### What is escaped -/

theorem SingleEscapeChar_some {c letter : UInt8} (single : SingleEscapeChar c = some letter) :
    singleEscape letter.toNat = some c.toNat ∧ letter.toNat < 128 := by
  rw [SingleEscapeChar] at single
  split_ifs at single <;> cases single <;> subst_vars <;> decide

theorem SingleEscapeChar_none {c : UInt8} (plain : SingleEscapeChar c = none) : c ≠ 34 ∧ c ≠ 92 := by
  constructor
  · rintro rfl
    cases plain
  · rintro rfl
    cases plain

theorem escaped_ascii {c : UInt8} (some_ : c ≠ 0) (ascii : c.toNat < 128) :
    ∃ source, Wide (escaped c) source ∧ Scans Ends source [c.toNat] := by
  rw [escaped]
  cases single : SingleEscapeChar c with
  | some letter =>
    obtain ⟨decodes,small⟩ := SingleEscapeChar_some single
    refine ⟨[92,letter.toNat],@Wide.ascii [92,letter] ?_,.escape decodes .nil⟩
    simp [small]
  | none =>
    obtain ⟨quote,backslash⟩ := SingleEscapeChar_none single
    refine ⟨[c.toNat],@Wide.ascii [c] (List.forall_mem_singleton.mpr ascii),.plain ?_ ?_ .nil⟩
    · rintro (zero | same)
      · exact some_ (UInt8.toNat_inj.mp zero)
      · exact quote (UInt8.toNat_inj.mp same)
    · exact fun same => backslash (UInt8.toNat_inj.mp same)

theorem escaped_high {c : UInt8} (high : 128 ≤ c.toNat) : escaped c = [c] := by
  cases single : SingleEscapeChar c with
  | some letter =>
    rw [SingleEscapeChar] at single
    split_ifs at single <;> subst_vars <;> exact absurd high (by decide)
  | none => rw [escaped,single]

/-- What is written of one character is scanned, and gives the character back. -/
theorem escaped_char {c : Char} (some_ : c.toNat ≠ 0) :
    ∃ source, Wide ((String.utf8EncodeChar c).flatMap escaped) source ∧ Scans Ends source (WriteUTF16 c.toNat) := by
  by_cases ascii : c.toNat < 128
  · have byte : c.toNat.toUInt8.toNat = c.toNat := Nat.mod_eq_of_lt (by omega)
    have nonzero : c.toNat.toUInt8 ≠ 0 := by
      intro zero
      rw [zero] at byte
      exact some_ byte.symm
    obtain ⟨source,both,scans⟩ := escaped_ascii nonzero (by omega)
    rw [byte] at scans
    rw [← WriteUTF8_char,WriteUTF8,if_pos (by omega),WriteUTF16,if_pos (by omega),List.flatMap_singleton]
    exact ⟨source,both,scans⟩
  · have beyond := Nat.not_lt.mp ascii
    have same : (String.utf8EncodeChar c).flatMap escaped = String.utf8EncodeChar c := by
      rw [← WriteUTF8_char]
      have high := WriteUTF8_high beyond
      refine (List.flatMap_congr fun byte member => escaped_high (high byte member)).trans ?_
      exact List.flatMap_singleton' _
    refine ⟨WriteUTF16 c.toNat,⟨[c],?_,?_⟩,.of_plain fun unit member => ?_⟩
    · rw [same,utf8,List.flatMap_singleton]
    · rw [utf16,List.flatMap_singleton]
    · have high := WriteUTF16_high beyond unit member
      rw [Ends]
      omega

/-- What is written of a text is scanned, and gives the text back. -/
theorem escaped_text {text : List Char} (c_string : ∀ c ∈ text, c.toNat ≠ 0) :
    ∃ source, Wide ((utf8 text).flatMap escaped) source ∧ Scans Ends source (utf16 text) := by
  induction text with
  | nil => exact ⟨[],.nil,.nil⟩
  | cons c text ih =>
    obtain ⟨first,leads,scanned⟩ := escaped_char (c_string c List.mem_cons_self)
    obtain ⟨source,both,scans⟩ := ih fun c member => c_string c (List.mem_cons_of_mem _ member)
    rw [utf8,utf16,List.flatMap_cons,List.flatMap_cons,List.flatMap_append]
    exact ⟨first ++ source,leads.append both,scanned.append scans⟩

end JsonValueSerializer
end Migfm.Logic
