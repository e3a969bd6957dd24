import Migfm.Logic.HttpSerializer

/-! The tokens of http_serializer.cc on the parts of a form: a text is read as a
word, a number or a literal, up to the separator behind it. -/
namespace Migfm.Logic
namespace HttpValueSerializer

variable {text : List Char} {units rest : WString} {reader : Reader}

/-! ### Texts without separators -/

def reserved : List Char := ['&','=','\\','\x00',' ','\t','\r','\n']

theorem plain_units (plain : ∀ c ∈ text, c ∉ reserved) : ∀ unit ∈ utf16 text, unit ∉ reserved.map Char.toNat := by
  intro unit member listed
  obtain ⟨mark,marks,same⟩ := List.mem_map.mp listed
  rcases utf16_unit member with high | ⟨c,inside,rfl⟩
  · have low : ∀ unit ∈ reserved.map Char.toNat, unit < 128 := by decide
    exact Nat.not_lt.mpr high (low unit listed)
  · exact plain c inside (Char.toNat_inj.mp same ▸ marks)

/-- The end of a name or a value. -/
def Stop (c : Nat) : Prop := c = 0 ∨ c = 38 ∨ c = 61

instance : DecidablePred Stop := fun _ => inferInstanceAs (Decidable (_ ∨ _))

theorem StringToken_plain (plain : ∀ c ∈ units, ¬Stop c ∧ c ≠ 92) (stops : Stop (charAt rest 0)) (before : WString) {n : Nat}
    (enough : units.length < n) : StringToken n ⟨.string,before ++ (units ++ rest),before.length⟩ =
      some ⟨.string,before ++ (units ++ rest),before.length + units.length⟩ := by
  induction units generalizing before n with
  | nil =>
    obtain ⟨n,rfl⟩ := Nat.exists_eq_succ_of_ne_zero (Nat.ne_zero_of_lt enough)
    have here : Token.NextChar ⟨.string,before ++ ([] ++ rest),before.length⟩ = charAt rest 0 := charAt_append rfl
    rw [StringToken,here]
    rcases stops with same | same | same <;> rw [same] <;> rfl
  | cons c units ih =>
    obtain ⟨n,rfl⟩ := Nat.exists_eq_succ_of_ne_zero (Nat.ne_zero_of_lt enough)
    obtain ⟨regular,backslash⟩ := plain c List.mem_cons_self
    have here : Token.NextChar ⟨.string,before ++ (c::units ++ rest),before.length⟩ = c := charAt_append rfl
    have later := ih (fun c member => plain c (List.mem_cons_of_mem _ member)) (before ++ [c]) (Nat.lt_of_succ_lt_succ enough)
    rw [List.append_assoc,List.length_append] at later
    have last : before.length + (c::units).length = before.length + [c].length + units.length := by
      simp only [List.length_cons,List.length_nil]
      omega
    rw [StringToken,here]
    dsimp only
    rw [if_neg fun zero => regular (.inl zero),if_neg backslash,if_neg fun mark => regular (.inr mark),last]
    exact later

theorem ParseStringToken_plain (plain : ∀ c ∈ units, ¬Stop c ∧ c ≠ 92) (stops : Stop (charAt rest 0)) :
    ParseStringToken (units ++ rest) = ⟨.string,units ++ rest,units.length⟩ := by
  have read := @StringToken_plain _ rest plain stops [] ((units ++ rest).length + 1) (by rw [List.length_append]; omega)
  rw [List.length_nil,Nat.zero_add] at read
  rw [ParseStringToken]
  exact congrArg (·.getD kInvalidToken) read

theorem DecodeString_plain (plain : ∀ c ∈ utf16 text, c ≠ 92) (short : (utf8 text).length < 2 ^ 31) :
    DecodeString ⟨.string,utf16 text ++ rest,(utf16 text).length⟩ = some (utf8 text) := by
  have scans := @Scans.of_plain (fun _ => False) (utf16 text) fun c member => ⟨nofun,plain c member⟩
  have decodes := DecodeCharacters_scans scans [] rest (Nat.lt_succ_self _)
  rw [List.length_nil,Nat.zero_add] at decodes
  rw [DecodeString]
  exact (congrArg (Option.map WideToUTF8) decodes).trans
    (congrArg some (WideToUTF8_utf16 ((length_utf16_le text).trans_lt short)))

/-! ### Literals -/

/-- No literal is read at the start of the text. -/
structure Word (text : List Char) : Prop where
  null_ : ¬"null".toList <+: text
  true_ : ¬"true".toList <+: text
  false_ : ¬"false".toList <+: text

/-- A word of letters in front of a stop is in the text. -/
theorem prefix_of_units {word : List Char} (letters : ∀ c ∈ word.map Char.toNat, c < 128 ∧ ¬Stop c) (stops : Stop (charAt rest 0))
    (starts : word.map Char.toNat <+: utf16 text ++ rest) : word <+: text := by
  induction word generalizing text with
  | nil => exact List.nil_prefix
  | cons letter word ih =>
    obtain ⟨ascii,regular⟩ := letters letter.toNat List.mem_cons_self
    cases text with
    | nil =>
      obtain ⟨behind,same⟩ := starts
      rw [utf16,List.flatMap_nil,List.nil_append] at same
      rw [← same] at stops
      exact absurd stops regular
    | cons c text =>
      by_cases small : c.toNat ≤ 0xffff
      · rw [utf16_cons,WriteUTF16,if_pos small,List.map_cons,List.cons_append,List.cons_append,List.cons_prefix_cons] at starts
        obtain ⟨same,starts⟩ := starts
        rw [Char.toNat_inj.mp same]
        exact (List.cons_prefix_cons).mpr ⟨rfl,ih (fun c member => letters c (List.mem_cons_of_mem _ member)) starts⟩
      · rw [utf16_cons,WriteUTF16,if_neg small,List.map_cons,List.cons_append,List.cons_append,List.cons_prefix_cons] at starts
        omega

theorem not_literal (word : Word text) (stops : Stop (charAt rest 0)) : ¬NextStringMatch (utf16 text ++ rest) kNullString ∧
    ¬NextStringMatch (utf16 text ++ rest) kTrueString ∧ ¬NextStringMatch (utf16 text ++ rest) kFalseString := by
  refine ⟨fun found => word.null_ ?_,fun found => word.true_ ?_,fun found => word.false_ ?_⟩
  · exact prefix_of_units (by decide) stops (List.isPrefixOf_iff_prefix.mp found)
  · exact prefix_of_units (by decide) stops (List.isPrefixOf_iff_prefix.mp found)
  · exact prefix_of_units (by decide) stops (List.isPrefixOf_iff_prefix.mp found)

/-! ### Numbers -/

/-- What has to be a number for the reader. -/
structure NumberLike (text : List Char) : Prop where
  first : ∃ c others, text = c::others ∧ (isDigit c.toNat ∨ c = '-')
  each : ∀ c ∈ text, numberCharacter c.toNat
  point : text.count '.' ≤ 1
  short : text.length ≤ 19

theorem ascii_of_units (small : ∀ unit ∈ utf16 text, unit < 128) : ∀ c ∈ text, c.toNat < 128 := by
  intro c member
  by_contra high
  obtain ⟨unit,others,starts⟩ := List.exists_cons_of_ne_nil (WriteUTF16_ne_nil c.toNat)
  have inside : unit ∈ WriteUTF16 c.toNat := starts ▸ List.mem_cons_self
  exact absurd (small unit (List.mem_flatMap.mpr ⟨c,member,inside⟩))
    (Nat.not_lt.mpr (WriteUTF16_high (Nat.not_lt.mp high) unit inside))

theorem numberCharacter_ascii {c : Nat} (number : numberCharacter c) : c < 128 := by
  rw [numberCharacter,decide_eq_true_iff,isDigit,decide_eq_true_iff] at number
  omega

/-- The end of a value. -/
def End (pos : WString) : Prop := charAt pos 0 = 0 ∨ charAt pos 0 = 38

theorem End.stop (ends : End rest) : Stop (charAt rest 0) := ends.elim .inl fun mark => .inr (.inl mark)

theorem scanned_units (plain : ∀ c ∈ units, c ≠ 38 ∧ c ≠ 0) (ends : End rest) :
    (units ++ rest).takeWhile (fun c => decide (c ≠ 38 ∧ c ≠ 0)) = units := by
  have none_ : rest.takeWhile (fun c => decide (c ≠ 38 ∧ c ≠ 0)) = [] := by
    cases rest with
    | nil => rfl
    | cons c rest =>
      refine List.takeWhile_cons_of_neg ?_
      rw [decide_eq_true_iff]
      rintro ⟨mark,zero⟩
      exact ends.elim zero mark
  rw [List.takeWhile_append_of_pos fun c member => decide_eq_true (plain c member),none_,List.append_nil]

theorem NextNumberMatch_units (plain : ∀ c ∈ units, c ≠ 38 ∧ c ≠ 0) (ends : End rest) :
    NextNumberMatch (units ++ rest) ↔ (∀ c ∈ units, numberCharacter c) ∧ units.count 46 ≤ 1 ∧ units.length ≤ 19 := by
  unfold NextNumberMatch
  dsimp only
  rw [scanned_units plain ends,decide_eq_true_iff,List.all_eq_true]

/-- The lookahead over a value. -/
theorem NextNumberMatch_iff (plain : ∀ c ∈ utf16 text, c ≠ 38 ∧ c ≠ 0) (ends : End rest) :
    NextNumberMatch (utf16 text ++ rest) ↔
      (∀ c ∈ text, numberCharacter c.toNat) ∧ text.count '.' ≤ 1 ∧ text.length ≤ 19 := by
  have counts : (text.map Char.toNat).count 46 = text.count '.' :=
    List.count_map_of_injective text Char.toNat (fun _ _ => Char.toNat_inj.mp) '.'
  rw [NextNumberMatch_units plain ends]
  constructor
  · rintro ⟨each,point,short⟩
    have ascii := ascii_of_units fun unit member => numberCharacter_ascii (each unit member)
    rw [(ascii_text ascii).2] at each point short
    rw [counts] at point
    rw [List.length_map] at short
    exact ⟨fun c member => each c.toNat (List.mem_map_of_mem member),point,short⟩
  · rintro ⟨each,point,short⟩
    rw [(ascii_text fun c member => numberCharacter_ascii (each c member)).2,counts,List.length_map]
    refine ⟨?_,point,short⟩
    intro unit member
    obtain ⟨c,listed,rfl⟩ := List.mem_map.mp member
    exact each c listed

/-- A name is no number, because of the sign behind it. -/
theorem NextNumberMatch_name (plain : ∀ c ∈ units, c ≠ 38 ∧ c ≠ 0) (rest : WString) :
    ¬NextNumberMatch (units ++ 61::rest) := by
  unfold NextNumberMatch
  dsimp only
  rw [List.takeWhile_append_of_pos fun c member => decide_eq_true (plain c member),List.takeWhile_cons_of_pos (by decide),
    decide_eq_true_iff]
  rintro ⟨each,_⟩
  have mark := List.all_eq_true.mp each 61 (List.mem_append_right _ List.mem_cons_self)
  cases mark

/-! ### Tokens -/

/-- The `switch` of `ParseToken`, where nothing is skipped. -/
theorem ParseToken_solid {c : Nat} (solid : c ≠ 32 ∧ c ≠ 13 ∧ c ≠ 9) : ParseToken (reader.seek (c::rest)) =
    let at_ := reader.seek (c::rest)
    let word := ParseStringToken (c::rest)
    if c = 110 then ((if NextStringMatch (c::rest) kNullString then ⟨.nullToken,c::rest,4⟩ else word),at_)
    else if c = 116 then ((if NextStringMatch (c::rest) kTrueString then ⟨.boolTrue,c::rest,4⟩ else word),at_)
    else if c = 102 then ((if NextStringMatch (c::rest) kFalseString then ⟨.boolFalse,c::rest,4⟩ else word),at_)
    else if c = 38 then (⟨.listSeparator,c::rest,1⟩,at_)
    else if c = 61 then (⟨.objectPairSeparator,c::rest,1⟩,at_)
    else if isDigit c ∨ c = 45 then ((if NextNumberMatch (c::rest) then ParseNumberToken (c::rest) else word),at_)
    else if c = 0 then (⟨.objectEnd,c::rest,0⟩,at_)
    else (word,at_) := by
  have eaten : EatWhitesspaceAndComments (c::rest) = c::rest := List.dropWhile_cons_of_neg (by simp [solid])
  unfold ParseToken
  simp only [Reader.pos_seek,eaten]
  rfl

/-- Only blanks are skipped. -/
theorem ParseToken_stays {pos : WString} (solid : charAt pos 0 ≠ 32 ∧ charAt pos 0 ≠ 13 ∧ charAt pos 0 ≠ 9) :
    (ParseToken (reader.seek pos)).2 = reader.seek pos := by
  cases pos with
  | nil => rfl
  | cons c rest =>
    rw [charAt_cons] at solid
    rw [ParseToken_solid solid]
    dsimp only
    split_ifs <;> rfl

theorem ParseToken_separator : ParseToken (reader.seek (38::rest)) = (⟨.listSeparator,38::rest,1⟩,reader.seek (38::rest)) :=
  ParseToken_solid (by decide)

theorem ParseToken_pair : ParseToken (reader.seek (61::rest)) = (⟨.objectPairSeparator,61::rest,1⟩,reader.seek (61::rest)) :=
  ParseToken_solid (by decide)

theorem ParseToken_end (ends : charAt rest 0 = 0) : ParseToken (reader.seek rest) = (⟨.objectEnd,rest,0⟩,reader.seek rest) := by
  cases rest with
  | nil => rfl
  | cons c rest =>
    cases ends
    exact ParseToken_solid (by decide)

theorem ParseToken_null : ParseToken (reader.seek (kNullString ++ rest)) =
    (⟨.nullToken,kNullString ++ rest,4⟩,reader.seek (kNullString ++ rest)) := by
  refine (ParseToken_solid (by decide)).trans ?_
  exact congrArg (·,reader.seek _) (if_pos (List.isPrefixOf_iff_prefix.mpr (List.prefix_append kNullString rest)))

theorem ParseToken_true : ParseToken (reader.seek (kTrueString ++ rest)) =
    (⟨.boolTrue,kTrueString ++ rest,4⟩,reader.seek (kTrueString ++ rest)) := by
  refine (ParseToken_solid (by decide)).trans ?_
  exact congrArg (·,reader.seek _) (if_pos (List.isPrefixOf_iff_prefix.mpr (List.prefix_append kTrueString rest)))

theorem ParseToken_number {c : Nat} (starts : isDigit c ∨ c = 45) (number : NextNumberMatch (c::rest)) :
    ParseToken (reader.seek (c::rest)) = (ParseNumberToken (c::rest),reader.seek (c::rest)) := by
  have range : (48 ≤ c ∧ c ≤ 57) ∨ c = 45 := by
    rwa [isDigit,decide_eq_true_iff] at starts
  rw [ParseToken_solid (by omega)]
  dsimp only
  rw [if_neg (by omega),if_neg (by omega),if_neg (by omega),if_neg (by omega),if_neg (by omega),if_pos starts,if_pos number]

/-- A word is read up to its stop, if it is no number. -/
theorem ParseToken_word (named : text ≠ []) (plain : ∀ c ∈ text, c ∉ reserved) (word : Word text) (stops : Stop (charAt rest 0))
    (other : isDigit (charAt (utf16 text) 0) ∨ charAt (utf16 text) 0 = 45 → ¬NextNumberMatch (utf16 text ++ rest)) :
    ParseToken (reader.seek (utf16 text ++ rest)) =
      (⟨.string,utf16 text ++ rest,(utf16 text).length⟩,reader.seek (utf16 text ++ rest)) := by
  have regular := plain_units plain
  obtain ⟨null_,true_,false_⟩ := not_literal word stops
  have string := @ParseStringToken_plain (utf16 text) rest (fun c member => by
    have each : ∀ c, (Stop c ∨ c = 92) → c ∈ reserved.map Char.toNat := by
      rintro c ((rfl | rfl | rfl) | rfl) <;> decide
    exact ⟨fun stop => regular c member (each c (.inl stop)),fun mark => regular c member (each c (.inr mark))⟩) stops
  obtain ⟨first,others,rfl⟩ := List.exists_cons_of_ne_nil named
  obtain ⟨c,units,starts⟩ := List.exists_cons_of_ne_nil (WriteUTF16_ne_nil first.toNat)
  have whole : utf16 (first::others) = c::(units ++ utf16 others) := by rw [utf16_cons,starts,List.cons_append]
  rw [whole] at regular null_ true_ false_ string other ⊢
  have head := regular c List.mem_cons_self
  have marks : reserved.map Char.toNat = [38,61,92,0,32,9,13,10] := rfl
  simp only [marks,List.mem_cons,List.not_mem_nil,or_false,not_or] at head
  obtain ⟨separator,pair,_,zero,space,tab,return_,_⟩ := head
  rw [List.cons_append,ParseToken_solid ⟨space,return_,tab⟩]
  dsimp only
  rw [List.cons_append] at string null_ true_ false_ other
  rw [if_neg null_,if_neg true_,if_neg false_,if_neg separator,if_neg pair,if_neg zero,string]
  by_cases number : isDigit c ∨ c = 45
  · rw [if_neg (other number)]
    simp only [ite_self]
  · rw [if_neg number]
    simp only [ite_self]

end HttpValueSerializer
end Migfm.Logic
