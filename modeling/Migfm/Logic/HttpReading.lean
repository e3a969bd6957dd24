import Migfm.Logic.HttpForm

/-! What a form of plain texts is deserialized to, whatever they are: to a dictionary, if
each name and each value is read whole, and to nothing otherwise. -/
namespace Migfm.Logic
namespace HttpValueSerializer

variable {StringToDouble : List UInt8 → Option Float}

/-! ### Numbers in front of an end -/

section Local
variable {units rest : WString} (ends : End rest)

/-- Nothing, or tokens of one length in the two texts. -/
def Alike (units rest : WString) (here there : Option Token) : Prop :=
  (here = none ∧ there = none) ∨
    ∃ length ≤ units.length, here = some ⟨.number,units ++ rest,length⟩ ∧ there = some ⟨.number,units ++ [0],length⟩

theorem Alike.bind {here there : Option Token} {f : Token → Option Token} (alike : Alike units rest here there)
    (next : ∀ k ≤ units.length, Alike units rest (f ⟨.number,units ++ rest,k⟩) (f ⟨.number,units ++ [0],k⟩)) :
    Alike units rest (here.bind f) (there.bind f) := by
  rcases alike with ⟨rfl,rfl⟩ | ⟨length,inside,rfl,rfl⟩
  · exact .inl ⟨rfl,rfl⟩
  · exact next length inside

theorem takeWhile_units {behind : WString} (ended : End behind) (k : Nat) (inside : k ≤ units.length) :
    ((units ++ behind).drop k).takeWhile isDigit = (units.drop k).takeWhile isDigit := by
  have stops : behind.takeWhile isDigit = [] := by
    cases behind with
    | nil => rfl
    | cons c behind => exact List.takeWhile_cons_of_neg ended.delimited.digit
  rw [List.drop_append_of_le_length inside,List.takeWhile_append]
  split
  · rename_i whole
    rw [stops,List.append_nil]
    exact ((List.takeWhile_sublist _).eq_of_length whole).symm
  · rfl

include ends

/-- The end is no character of a number. -/
theorem charAt_end {k mark : Nat} (inside : k ≤ units.length) (other : mark ≠ 0 ∧ mark ≠ 38) :
    charAt (units ++ rest) k = mark ↔ charAt (units ++ [0]) k = mark := by
  by_cases within : k < units.length
  · rw [charAt,charAt,List.getD_eq_getElem?_getD,List.getD_eq_getElem?_getD,List.getElem?_append_left within,
      List.getElem?_append_left within]
  · have last : k = units.length := by omega
    rw [charAt_append last,charAt_append last]
    apply iff_of_false
    · intro same
      exact ends.elim (fun zero => other.1 (same.symm.trans zero)) fun separator => other.2 (same.symm.trans separator)
    · intro same
      exact other.1 same.symm

omit ends in
theorem charAt_inside {k mark : Nat} (inside : k ≤ units.length) (char : charAt (units ++ [0]) k = mark) (other : mark ≠ 0) :
    k + 1 ≤ units.length := by
  by_contra beyond
  have last : k = units.length := by omega
  rw [charAt_append last] at char
  exact other char.symm

theorem ReadInt_alike {k : Nat} (inside : k ≤ units.length) (zeros : Bool) :
    Alike units rest (ReadInt ⟨.number,units ++ rest,k⟩ zeros) (ReadInt ⟨.number,units ++ [0],k⟩ zeros) := by
  have zero : Token.NextChar ⟨.number,units ++ rest,k⟩ = 48 ↔ Token.NextChar ⟨.number,units ++ [0],k⟩ = 48 :=
    charAt_end ends inside (by decide)
  have within : ((units.drop k).takeWhile isDigit).length ≤ (units.drop k).length := (List.takeWhile_sublist _).length_le
  rw [List.length_drop] at within
  rw [ReadInt,ReadInt]
  dsimp only
  rw [takeWhile_units ends k inside,takeWhile_units (.inl rfl) k inside]
  by_cases none_ : (units.drop k).takeWhile isDigit = []
  · rw [if_pos none_,if_pos none_]
    exact .inl ⟨rfl,rfl⟩
  · rw [if_neg none_,if_neg none_]
    by_cases leading : ¬zeros = true ∧ 1 < ((units.drop k).takeWhile isDigit).length ∧ Token.NextChar ⟨.number,units ++ [0],k⟩ = 48
    · rw [if_pos leading,if_pos ⟨leading.1,leading.2.1,zero.mpr leading.2.2⟩]
      exact .inl ⟨rfl,rfl⟩
    · rw [if_neg leading,if_neg fun here => leading ⟨here.1,here.2.1,zero.mp here.2.2⟩]
      have total : k + ((units.drop k).takeWhile isDigit).length ≤ units.length := by omega
      exact .inr ⟨_,total,rfl,rfl⟩

theorem ReadFraction_alike {k : Nat} (inside : k ≤ units.length) :
    Alike units rest (ReadFraction ⟨.number,units ++ rest,k⟩) (ReadFraction ⟨.number,units ++ [0],k⟩) := by
  have point : Token.NextChar ⟨.number,units ++ rest,k⟩ = 46 ↔ Token.NextChar ⟨.number,units ++ [0],k⟩ = 46 :=
    charAt_end ends inside (by decide)
  rw [ReadFraction,ReadFraction]
  by_cases pointed : Token.NextChar ⟨.number,units ++ [0],k⟩ = 46
  · rw [if_pos pointed,if_pos (point.mpr pointed)]
    exact ReadInt_alike ends (charAt_inside inside pointed (by decide)) true
  · rw [if_neg pointed,if_neg fun here => pointed (point.mp here)]
    exact .inr ⟨k,inside,rfl,rfl⟩

theorem either_end {here there : Token} (same : ∃ k ≤ units.length, here = ⟨.number,units ++ rest,k⟩ ∧ there = ⟨.number,units ++ [0],k⟩)
    {first second : Nat} (one : first ≠ 0 ∧ first ≠ 38) (two : second ≠ 0 ∧ second ≠ 38) :
    ((here.NextChar = first ∨ here.NextChar = second) ↔ (there.NextChar = first ∨ there.NextChar = second)) ∧
      ((there.NextChar = first ∨ there.NextChar = second) → there.length + 1 ≤ units.length) := by
  obtain ⟨k,inside,rfl,rfl⟩ := same
  refine ⟨or_congr (charAt_end ends inside one) (charAt_end ends inside two),?_⟩
  rintro (char | char)
  · exact charAt_inside inside char one.1
  · exact charAt_inside inside char two.1

theorem ReadExponent_alike {k : Nat} (inside : k ≤ units.length) :
    Alike units rest (ReadExponent ⟨.number,units ++ rest,k⟩) (ReadExponent ⟨.number,units ++ [0],k⟩) := by
  obtain ⟨marks,further⟩ := @either_end units rest ends _ _ ⟨k,inside,rfl,rfl⟩ 101 69 (by decide) (by decide)
  rw [ReadExponent,ReadExponent]
  by_cases marked : Token.NextChar ⟨.number,units ++ [0],k⟩ = 101 ∨ Token.NextChar ⟨.number,units ++ [0],k⟩ = 69
  · have behind : k + 1 ≤ units.length := further marked
    obtain ⟨signs,further⟩ := @either_end units rest ends (Token.advance ⟨.number,units ++ rest,k⟩ 1)
      (Token.advance ⟨.number,units ++ [0],k⟩ 1) ⟨k + 1,behind,rfl,rfl⟩ 45 43 (by decide) (by decide)
    rw [if_pos marked,if_pos (marks.mpr marked)]
    dsimp only
    by_cases signed : (Token.advance ⟨.number,units ++ [0],k⟩ 1).NextChar = 45 ∨ (Token.advance ⟨.number,units ++ [0],k⟩ 1).NextChar = 43
    · rw [if_pos signed,if_pos (signs.mpr signed)]
      exact ReadInt_alike ends (further signed) true
    · rw [if_neg signed,if_neg fun here => signed (signs.mp here)]
      exact ReadInt_alike ends behind true
  · rw [if_neg marked,if_neg fun here => marked (marks.mp here)]
    exact .inr ⟨k,inside,rfl,rfl⟩

/-- Up to an end a number is read in every text alike. -/
theorem ParseNumberToken_alike (some_ : units ≠ []) :
    (ParseNumberToken (units ++ rest) = kInvalidToken ∧ ParseNumberToken (units ++ [0]) = kInvalidToken) ∨
      ∃ length ≤ units.length, ParseNumberToken (units ++ rest) = ⟨.number,units ++ rest,length⟩ ∧
        ParseNumberToken (units ++ [0]) = ⟨.number,units ++ [0],length⟩ := by
  have first : charAt (units ++ rest) 0 = charAt (units ++ [0]) 0 := by
    rw [charAt_append_left some_,charAt_append_left some_]
  have starts : ∃ k ≤ units.length,
      (if charAt (units ++ [0]) 0 = 45 then (Token.mk .number (units ++ rest) 0).advance 1 else ⟨.number,units ++ rest,0⟩) =
        ⟨.number,units ++ rest,k⟩ ∧
      (if charAt (units ++ [0]) 0 = 45 then (Token.mk .number (units ++ [0]) 0).advance 1 else ⟨.number,units ++ [0],0⟩) =
        ⟨.number,units ++ [0],k⟩ := by
    by_cases minus : charAt (units ++ [0]) 0 = 45
    · rw [if_pos minus,if_pos minus]
      exact ⟨1,List.length_pos_of_ne_nil some_,rfl,rfl⟩
    · rw [if_neg minus,if_neg minus]
      exact ⟨0,Nat.zero_le _,rfl,rfl⟩
  obtain ⟨k,inside,here,there⟩ := starts
  have alike := ((ReadInt_alike ends inside false).bind fun k inside => ReadFraction_alike ends inside).bind fun k inside =>
    ReadExponent_alike ends inside
  rw [ParseNumberToken,ParseNumberToken,first,here,there]
  rcases alike with ⟨none_,also⟩ | ⟨length,within,one,two⟩
  · rw [none_,also]
    exact .inl ⟨rfl,rfl⟩
  · rw [one,two]
    exact .inr ⟨length,within,rfl,rfl⟩

end Local

/-! ### Tokens of texts -/

theorem StringToken_type {n : Nat} {token last : Token} (read : StringToken n token = some last) {type : TokenType}
    (same : token.type = type) : last.type = type := by
  induction n generalizing token with
  | zero => cases read
  | succ n ih =>
    have hex {escape : Token} {digits : Nat}
        (read : (ReadHexDigits escape digits).bind (fun token => StringToken n (token.advance 1)) = some last)
        (same : escape.type = type) : last.type = type := by
      obtain ⟨token,digits,read⟩ := Option.bind_eq_some_iff.mp read
      rw [ReadHexDigits] at digits
      split at digits
      · cases digits
        exact ih read same
      · cases digits
    rw [StringToken] at read
    dsimp only at read
    split_ifs at read
    · cases read
      exact same
    · exact hex read same
    · exact hex read same
    · exact ih read same
    · cases read
      exact same
    · cases read
      exact same
    · exact ih read same

theorem ParseStringToken_type (pos : WString) : (ParseStringToken pos).type = .string ∨ (ParseStringToken pos).type = .invalidToken := by
  rw [ParseStringToken]
  cases read : StringToken (pos.length + 1) ⟨.string,pos,0⟩ with
  | none => exact .inr rfl
  | some token => exact .inl (StringToken_type read rfl)

theorem ReadInt_type {token last : Token} {zeros : Bool} (read : ReadInt token zeros = some last) (number : token.type = .number) :
    last.type = .number := by
  rw [ReadInt] at read
  split_ifs at read
  cases read
  exact number

theorem ParseNumberToken_type (pos : WString) : (ParseNumberToken pos).type = .number ∨ (ParseNumberToken pos).type = .invalidToken := by
  have fraction {token last : Token} (read : ReadFraction token = some last) (number : token.type = .number) : last.type = .number := by
    rw [ReadFraction] at read
    split at read
    · exact ReadInt_type read number
    · cases read
      exact number
  have exponent {token last : Token} (read : ReadExponent token = some last) (number : token.type = .number) : last.type = .number := by
    rw [ReadExponent] at read
    dsimp only at read
    split_ifs at read
    · exact ReadInt_type read number
    · exact ReadInt_type read number
    · cases read
      exact number
  have signed : (if charAt pos 0 = 45 then (Token.mk .number pos 0).advance 1 else ⟨.number,pos,0⟩).type = .number := by
    split <;> rfl
  rw [ParseNumberToken]
  generalize found : ((ReadInt _ false).bind ReadFraction).bind ReadExponent = token
  cases token with
  | none => exact .inr rfl
  | some token =>
    obtain ⟨second,found,third⟩ := Option.bind_eq_some_iff.mp found
    obtain ⟨first,digits,behind⟩ := Option.bind_eq_some_iff.mp found
    exact .inl (exponent third (fraction behind (ReadInt_type digits signed)))

/-- Where a text goes on there is neither a separator nor an end. -/
def GoesOn (token : Token) : Prop := token.type ≠ .listSeparator ∧ token.type ≠ .objectEnd

theorem ParseToken_goes_on {units : WString} (plain : ∀ unit ∈ units, unit ∉ reserved.map Char.toNat) (some_ : units ≠ []) (rest : WString)
    (reader : Reader) : GoesOn (ParseToken (reader.seek (units ++ rest))).1 := by
  obtain ⟨c,units,rfl⟩ := List.exists_cons_of_ne_nil some_
  have head := plain c List.mem_cons_self
  have marks : reserved.map Char.toNat = [38,61,92,0,32,9,13,10] := rfl
  simp only [marks,List.mem_cons,List.not_mem_nil,or_false,not_or] at head
  obtain ⟨separator,pair,_,zero,space,tab,return_,_⟩ := head
  rw [List.cons_append,ParseToken_solid ⟨space,return_,tab⟩]
  dsimp only
  rw [if_neg separator,if_neg pair,if_neg zero]
  have string : GoesOn (ParseStringToken (c::(units ++ rest))) := by
    rcases ParseStringToken_type (c::(units ++ rest)) with type | type <;> rw [GoesOn,type] <;> decide
  have number : GoesOn (ParseNumberToken (c::(units ++ rest))) := by
    rcases ParseNumberToken_type (c::(units ++ rest)) with type | type <;> rw [GoesOn,type] <;> decide
  split_ifs
  all_goals first | exact string | exact number | exact ⟨nofun,nofun⟩

/-! ### Values -/

/-- Behind the value that is made, if one is, some of the text is left. -/
def Stuck (StringToDouble : List UInt8 → Option Float) (units rest : WString) : Prop :=
  ∀ (reader : Reader) (n : Nat), reader.stack_depth_ < kStackLimit → ∃ node later left,
    BuildValue StringToDouble (n + 1) false (reader.seek (units ++ rest)) = some (node,later) ∧ later.pos_ = left ++ rest ∧
      left ≠ [] ∧ left <:+ units

section Values
variable {units rest : WString}

theorem stuck_of_token {token : Token} (some_ : units ≠ [])
    (parsed : ∀ reader : Reader, ParseToken (reader.seek (units ++ rest)) = (token,reader.seek (units ++ rest)))
    (type : token.type = .nullToken ∨ token.type = .boolTrue ∨ token.type = .boolFalse ∨ token.type = .number ∨ token.type = .invalidToken)
    (less : ∀ node, Scalar StringToDouble DecodeString token node → token.length < units.length) : Stuck StringToDouble units rest := by
  intro reader n room
  have left : token.length < units.length → ((reader.deeper.seek (units ++ rest)).leave token).pos_ = units.drop token.length ++ rest ∧
      units.drop token.length ≠ [] ∧ units.drop token.length <:+ units := by
    intro less
    have pos : ((reader.deeper.seek (units ++ rest)).leave token).pos_ = (units ++ rest).drop token.length := rfl
    refine ⟨pos.trans (List.drop_append_of_le_length less.le),?_,List.drop_suffix ..⟩
    intro empty
    exact absurd (List.drop_eq_nil_iff.mp empty) (Nat.not_le.mpr less)
  have within := @Reader.not_nested reader 0 room
  obtain ⟨kind,begin_,length⟩ := token
  rcases type with same | same | same | same | same
  · cases same
    obtain ⟨pos,more,suffix⟩ := left (less _ .null)
    refine ⟨some .null,_,_,?_,pos,more,suffix⟩
    rw [BuildValue,Reader.deeper_seek,if_neg (within _),if_neg Bool.false_ne_true,parsed]
  · cases same
    obtain ⟨pos,more,suffix⟩ := left (less _ .true_)
    refine ⟨some (.fundamental (.boolean true)),_,_,?_,pos,more,suffix⟩
    rw [BuildValue,Reader.deeper_seek,if_neg (within _),if_neg Bool.false_ne_true,parsed]
  · cases same
    obtain ⟨pos,more,suffix⟩ := left (less _ .false_)
    refine ⟨some (.fundamental (.boolean false)),_,_,?_,pos,more,suffix⟩
    rw [BuildValue,Reader.deeper_seek,if_neg (within _),if_neg Bool.false_ne_true,parsed]
  · cases same
    cases decoded : DecodeNumber StringToDouble ⟨.number,begin_,length⟩ with
    | none =>
      refine ⟨none,reader.deeper.seek (units ++ rest),units,?_,rfl,some_,List.suffix_refl _⟩
      rw [BuildValue,Reader.deeper_seek,if_neg (within _),if_neg Bool.false_ne_true,parsed]
      dsimp only
      rw [decoded]
    | some node =>
      obtain ⟨pos,more,suffix⟩ := left (less _ (.number decoded))
      refine ⟨some node,_,_,?_,pos,more,suffix⟩
      rw [BuildValue,Reader.deeper_seek,if_neg (within _),if_neg Bool.false_ne_true,parsed]
      dsimp only
      rw [decoded]
  · cases same
    refine ⟨none,reader.deeper.seek (units ++ rest),units,?_,rfl,some_,List.suffix_refl _⟩
    rw [BuildValue,Reader.deeper_seek,if_neg (within _),if_neg Bool.false_ne_true,parsed]

end Values

section Texts
variable {text : List Char}

theorem not_reads {token : Token}
    (parsed : ∀ reader : Reader, ParseToken (reader.seek (utf16 text ++ [0])) = (token,reader.seek (utf16 text ++ [0])))
    (less : ∀ node, Scalar StringToDouble DecodeString token node → token.length < (utf16 text).length) (node : Value) :
    ¬Reads StringToDouble text [0] node := by
  rintro ⟨other,scalar,length,also⟩
  have same := congrArg Prod.fst ((also unread).symm.trans (parsed unread))
  dsimp only at same
  rw [same] at scalar length
  exact absurd length (less node scalar).ne

theorem Reads.unique {rest : WString} {node other : Value} (reads : Reads StringToDouble text rest node)
    (also : Reads StringToDouble text rest other) : node = other := by
  obtain ⟨token,scalar,-,parsed⟩ := reads
  obtain ⟨same,again,-,parsed'⟩ := also
  have tokens := congrArg Prod.fst ((parsed unread).symm.trans (parsed' unread))
  dsimp only at tokens
  subst tokens
  cases scalar with
  | null => cases again; rfl
  | true_ => cases again; rfl
  | false_ => cases again; rfl
  | number decodes =>
    cases again with
    | number decodes' => exact Option.some.inj (decodes.symm.trans decodes')
  | string decodes =>
    cases again with
    | string decodes' => exact congrArg Value.string (Option.some.inj (decodes.symm.trans decodes'))

/-- A text that goes on behind a literal. -/
theorem literal_stuck {token : WString → Token}
    (parsed : ∀ (rest : WString) (reader : Reader),
      ParseToken (reader.seek (utf16 text ++ rest)) = (token rest,reader.seek (utf16 text ++ rest)))
    (type : ∀ rest, (token rest).type = .nullToken ∨ (token rest).type = .boolTrue ∨ (token rest).type = .boolFalse)
    (less : ∀ rest, (token rest).length < (utf16 text).length) :
    (∀ node, ¬Reads StringToDouble text [0] node) ∧ ∀ rest, End rest → Stuck StringToDouble (utf16 text) rest := by
  constructor
  · exact not_reads (parsed [0]) fun _ _ => less [0]
  · intro rest _
    apply stuck_of_token
    · intro empty
      have short := less rest
      rw [empty] at short
      cases short
    · exact parsed rest
    · rcases type rest with same | same | same
      · exact .inl same
      · exact .inr (.inl same)
      · exact .inr (.inr (.inl same))
    · exact fun _ _ => less rest

theorem ParseToken_false (rest : WString) (reader : Reader) : ParseToken (reader.seek (kFalseString ++ rest)) =
    (⟨.boolFalse,kFalseString ++ rest,4⟩,reader.seek (kFalseString ++ rest)) := by
  refine (ParseToken_solid (by decide)).trans ?_
  exact congrArg (·,reader.seek _) (if_pos (List.isPrefixOf_iff_prefix.mpr (List.prefix_append kFalseString rest)))

theorem literal_of_not_word (other : ¬Word text) : (∃ more, utf16 text = kNullString ++ utf16 more ∧ text = "null".toList ++ more) ∨
    (∃ more, utf16 text = kTrueString ++ utf16 more ∧ text = "true".toList ++ more) ∨
      ∃ more, utf16 text = kFalseString ++ utf16 more ∧ text = "false".toList ++ more := by
  have starts : "null".toList <+: text ∨ "true".toList <+: text ∨ "false".toList <+: text := by
    by_contra none_
    push Not at none_
    exact other ⟨none_.1,none_.2.1,none_.2.2⟩
  rcases starts with ⟨more,rfl⟩ | ⟨more,rfl⟩ | ⟨more,rfl⟩
  · exact .inl ⟨more,utf16_append ..,rfl⟩
  · exact .inr (.inl ⟨more,utf16_append ..,rfl⟩)
  · exact .inr (.inr ⟨more,utf16_append ..,rfl⟩)

theorem literal_read_or_stuck (other : ¬Word text) :
    (∃ node, ∀ rest, End rest → Reads StringToDouble text rest node) ∨
      ((∀ node, ¬Reads StringToDouble text [0] node) ∧ ∀ rest, End rest → Stuck StringToDouble (utf16 text) rest) := by
  have longer {more : List Char} (some_ : more ≠ []) : 0 < (utf16 more).length := by
    obtain ⟨c,more,rfl⟩ := List.exists_cons_of_ne_nil some_
    rw [utf16_cons,List.length_append]
    exact Nat.add_pos_left (List.length_pos_of_ne_nil (WriteUTF16_ne_nil _)) _
  rcases literal_of_not_word other with ⟨more,units,same⟩ | ⟨more,units,same⟩ | ⟨more,units,-⟩
  · by_cases empty : more = []
    · left
      subst empty
      rw [List.append_nil] at same
      subst same
      exact ⟨.null,fun rest _ => ⟨_,.null,rfl,fun _ => ParseToken_null⟩⟩
    · right
      apply literal_stuck
      · intro rest reader
        rw [units,List.append_assoc]
        exact ParseToken_null
      · exact fun _ => .inl rfl
      · intro _
        rw [units,List.length_append]
        exact Nat.lt_add_of_pos_right (longer empty)
  · by_cases empty : more = []
    · left
      subst empty
      rw [List.append_nil] at same
      subst same
      exact ⟨.fundamental (.boolean true),fun rest _ => ⟨_,.true_,rfl,fun _ => ParseToken_true⟩⟩
    · right
      apply literal_stuck
      · intro rest reader
        rw [units,List.append_assoc]
        exact ParseToken_true
      · exact fun _ => .inr (.inl rfl)
      · intro _
        rw [units,List.length_append]
        exact Nat.lt_add_of_pos_right (longer empty)
  · -- one letter is left, if not more
    right
    apply literal_stuck
    · intro rest reader
      rw [units,List.append_assoc]
      exact ParseToken_false ..
    · exact fun _ => .inr (.inr rfl)
    · intro _
      rw [units,List.length_append]
      have letters : 4 < kFalseString.length := by decide
      exact Nat.lt_add_right _ letters

theorem NumberLike.starts (like : NumberLike text) : ∃ c others, utf16 text = c::others ∧ (isDigit c ∨ c = 45) := by
  obtain ⟨c,others,rfl,first⟩ := like.first
  have ascii := numberCharacter_ascii (like.each c List.mem_cons_self)
  refine ⟨c.toNat,utf16 others,?_,first.imp_right (congrArg Char.toNat)⟩
  rw [utf16_cons,WriteUTF16,if_pos (by omega)]
  rfl

theorem NumberLike.units (like : NumberLike text) : utf16 text ≠ [] := by
  obtain ⟨c,others,starts,-⟩ := like.starts
  exact starts ▸ List.cons_ne_nil _ _

theorem NumberLike.parsed (like : NumberLike text) (plain : ∀ c ∈ text, c ∉ reserved) {rest : WString} (ends : End rest) (reader : Reader) :
    ParseToken (reader.seek (utf16 text ++ rest)) =
      (ParseNumberToken (utf16 text ++ rest),reader.seek (utf16 text ++ rest)) := by
  obtain ⟨c,others,starts,first⟩ := like.starts
  have number := (NextNumberMatch_iff (separators_plain plain) ends).mpr ⟨like.each,like.point,like.short⟩
  rw [starts] at number ⊢
  exact ParseToken_number first number

theorem number_read_or_stuck (plain : ∀ c ∈ text, c ∉ reserved) (like : NumberLike text) :
    (∃ node, ∀ rest, End rest → Reads StringToDouble text rest node) ∨
      ((∀ node, ¬Reads StringToDouble text [0] node) ∧ ∀ rest, End rest → Stuck StringToDouble (utf16 text) rest) := by
  have some_ := like.units
  have parsed (rest : WString) (ends : End rest) (reader : Reader) := like.parsed plain ends reader
  have zero : End [0] := .inl rfl
  rcases ParseNumberToken_alike zero some_ with ⟨invalid,-⟩ | ⟨length,inside,number,-⟩
  · right
    have fails (rest : WString) (ends : End rest) : ParseNumberToken (utf16 text ++ rest) = kInvalidToken := by
      rcases ParseNumberToken_alike ends some_ with ⟨here,-⟩ | ⟨length,-,-,there⟩
      · exact here
      · rw [invalid] at there
        cases there
    have nothing (node : Value) (scalar : Scalar StringToDouble DecodeString kInvalidToken node) :
        kInvalidToken.length < (utf16 text).length := by cases scalar
    constructor
    · refine not_reads (fun reader => ?_) nothing
      rw [parsed [0] zero,invalid]
    · intro rest ends
      refine stuck_of_token some_ (fun reader => ?_) (.inr (.inr (.inr (.inr rfl)))) nothing
      rw [parsed rest ends,fails rest ends]
  · have reads (rest : WString) (ends : End rest) :
        ParseNumberToken (utf16 text ++ rest) = ⟨.number,utf16 text ++ rest,length⟩ := by
      rcases ParseNumberToken_alike ends some_ with ⟨-,there⟩ | ⟨other,-,here,there⟩
      · rw [number] at there
        cases there
      · rw [number] at there
        cases there
        exact here
    have decodes (rest : WString) : DecodeNumber StringToDouble ⟨.number,utf16 text ++ rest,length⟩ =
        DecodeNumber StringToDouble ⟨.number,utf16 text ++ [0],length⟩ := by
      rw [DecodeNumber,DecodeNumber]
      dsimp only
      rw [List.take_append_of_le_length inside,List.take_append_of_le_length inside]
    by_cases whole : length = (utf16 text).length ∧ ∃ node, DecodeNumber StringToDouble ⟨.number,utf16 text ++ [0],length⟩ = some node
    · left
      obtain ⟨same,node,made⟩ := whole
      refine ⟨node,fun rest ends => ⟨_,.number ((decodes rest).trans made),same,fun reader => ?_⟩⟩
      rw [parsed rest ends,reads rest ends]
    · right
      have less (rest : WString) (node : Value) (scalar : Scalar StringToDouble DecodeString ⟨.number,utf16 text ++ rest,length⟩ node) :
          length < (utf16 text).length := by
        cases scalar with
        | number made =>
          apply lt_of_le_of_ne inside
          intro same
          exact whole ⟨same,node,(decodes rest).symm.trans made⟩
      constructor
      · refine not_reads (fun reader => ?_) (less [0])
        rw [parsed [0] zero,reads [0] zero]
      · intro rest ends
        refine stuck_of_token some_ (fun reader => ?_) (.inr (.inr (.inr (.inl rfl)))) (less rest)
        rw [parsed rest ends,reads rest ends]

/-- A value is read whole wherever it stands, or nowhere. -/
theorem read_or_stuck (plain : ∀ c ∈ text, c ∉ reserved) (some_ : text ≠ []) (short : (utf8 text).length < 2 ^ 31) :
    (∃ node, ∀ rest, End rest → Reads StringToDouble text rest node) ∨
      ((∀ node, ¬Reads StringToDouble text [0] node) ∧ ∀ rest, End rest → Stuck StringToDouble (utf16 text) rest) := by
  by_cases word : Word text
  · by_cases like : NumberLike text
    · exact number_read_or_stuck plain like
    · exact .inl ⟨.string (utf8 text),fun rest ends => reads_text plain ends word like some_ short⟩
  · exact literal_read_or_stuck word

end Texts

/-! ### Forms -/

/-- A name and a value without separators. -/
structure Pair where
  key : List Char
  value : List Char
  plainKey : ∀ c ∈ key, c ∉ reserved
  plainValue : ∀ c ∈ value, c ∉ reserved

theorem plain_of {text : List Char} (each : (text.all fun c => !reserved.contains c) = true) : ∀ c ∈ text, c ∉ reserved := by
  intro c listed
  have here := List.all_eq_true.mp each c listed
  simpa using here

/-- The pairs with `&` between them. -/
def formOf (pairs : List Pair) : List Char := ['&'].intercalate (pairs.map fun pair => pair.key ++ '='::pair.value)

def formText (pairs : List Pair) : WString := utf16 (formOf pairs) ++ [0]

/-- The node of a value that is read whole. -/
def NodeOf (StringToDouble : List UInt8 → Option Float) (value : List Char) (node : Value) : Prop :=
  (value = [] ∧ node = .string []) ∨ (value ≠ [] ∧ Reads StringToDouble value [0] node)

/-- The pair is read whole. -/
def Pair.Whole (StringToDouble : List UInt8 → Option Float) (pair : Pair) : Prop :=
  pair.key ≠ [] ∧ Word pair.key ∧ ∃ node, NodeOf StringToDouble pair.value node

def blanks (pairs : List Pair) : Nat := pairs.countP fun pair => pair.value.isEmpty

/-- The stack limit is not reached: each empty value adds a level. -/
def Shallow (depth : Nat) (pairs : List Pair) : Prop :=
  ∀ before pair after, pairs = before ++ pair::after → pair.value ≠ [] → depth + blanks before < kStackLimit

theorem formText_last (pair : Pair) : formText [pair] = utf16 pair.key ++ 61::(utf16 pair.value ++ [0]) := by
  have text : formOf [pair] = pair.key ++ '='::pair.value := by simp [formOf]
  rw [formText,text,utf16_append,utf16_cons]
  simp [WriteUTF16]

theorem formOf_cons (pair next : Pair) (pairs : List Pair) :
    formOf (pair::next::pairs) = pair.key ++ '='::(pair.value ++ '&'::formOf (next::pairs)) := by
  simp [formOf,List.intercalate_cons_cons]

theorem formText_cons (pair next : Pair) (pairs : List Pair) :
    formText (pair::next::pairs) = utf16 pair.key ++ 61::(utf16 pair.value ++ 38::formText (next::pairs)) := by
  rw [formText,formText,formOf_cons,utf16_append,utf16_cons,utf16_append,utf16_cons]
  simp [WriteUTF16]

/-- Behind the value of the first pair. -/
def behind : List Pair → WString
  | [] => [0]
  | pairs => 38::formText pairs

theorem behind_end (pairs : List Pair) : End (behind pairs) := by
  cases pairs with
  | nil => exact .inl rfl
  | cons pair pairs => exact .inr rfl

theorem formText_behind (pair : Pair) (pairs : List Pair) :
    formText (pair::pairs) = utf16 pair.key ++ 61::(utf16 pair.value ++ behind pairs) := by
  cases pairs with
  | nil => exact formText_last pair
  | cons next pairs => exact formText_cons pair next pairs

theorem length_formOf (pair : Pair) (pairs : List Pair) :
    (utf8 pair.key).length + (utf8 pair.value).length ≤ (utf8 (formOf (pair::pairs))).length ∧
      (utf8 (formOf pairs)).length ≤ (utf8 (formOf (pair::pairs))).length := by
  cases pairs with
  | nil =>
    have text : formOf [pair] = pair.key ++ '='::pair.value := by simp [formOf]
    have empty : formOf [] = [] := rfl
    rw [text,empty,utf8_append,utf8_cons,List.length_append,List.length_append]
    exact ⟨by omega,Nat.zero_le _⟩
  | cons next pairs =>
    rw [formOf_cons,utf8_append,utf8_cons,utf8_append,utf8_cons]
    simp only [List.length_append]
    omega

theorem Shallow.tail {depth : Nat} {pair : Pair} {pairs : List Pair} :
    Shallow depth (pair::pairs) ↔ (pair.value ≠ [] → depth < kStackLimit) ∧ Shallow (depth + blanks [pair]) pairs := by
  constructor
  · intro room
    refine ⟨room [] pair pairs rfl,?_⟩
    rintro before other after rfl some_
    have bound := room (pair::before) other after rfl some_
    rw [blanks,List.countP_cons] at bound
    rw [blanks,blanks,List.countP_cons,List.countP_nil]
    omega
  · rintro ⟨first,later⟩ before other after split some_
    cases before with
    | nil =>
      cases split
      exact first some_
    | cons head before =>
      cases split
      have bound := later before other after rfl some_
      rw [blanks,blanks,List.countP_cons,List.countP_nil] at bound
      rw [blanks,List.countP_cons]
      omega

/-! ### The loop -/

section Loop

/-- The loop from the name on that is read next. -/
def fromName (StringToDouble : List UInt8 → Option Float) (n : Nat) (dict : ValueMap Value) (reader : Reader) :
    Option (Option (ValueMap Value × Token) × Reader) :=
  BuildPairs StringToDouble n (ParseToken reader).1 dict (ParseToken reader).2

theorem bad_name {pair : Pair} (bad : ¬(pair.key ≠ [] ∧ Word pair.key)) (rest : WString) (n : Nat) (dict : ValueMap Value) (reader : Reader) :
    ∃ last, fromName StringToDouble (n + 1) dict (reader.seek (utf16 pair.key ++ 61::rest)) = some (none,last) := by
  have type : (ParseToken (reader.seek (utf16 pair.key ++ 61::rest))).1.type ≠ .string ∧
      (ParseToken (reader.seek (utf16 pair.key ++ 61::rest))).1.type ≠ .objectEnd := by
    by_cases empty : pair.key = []
    · have units : utf16 pair.key ++ 61::rest = 61::rest := by rw [empty]; rfl
      rw [units,ParseToken_pair]
      exact ⟨nofun,nofun⟩
    · rcases literal_of_not_word fun word => bad ⟨empty,word⟩ with ⟨more,units,-⟩ | ⟨more,units,-⟩ | ⟨more,units,-⟩
      · rw [units,List.append_assoc,ParseToken_null]
        exact ⟨nofun,nofun⟩
      · rw [units,List.append_assoc,ParseToken_true]
        exact ⟨nofun,nofun⟩
      · rw [units,List.append_assoc,ParseToken_false]
        exact ⟨nofun,nofun⟩
  rw [fromName,BuildPairs,if_neg type.2,if_pos type.1]
  exact ⟨_,rfl⟩

variable {pair : Pair} (named : pair.key ≠ [] ∧ Word pair.key) (shortKey : (utf8 pair.key).length < 2 ^ 31)
include named

theorem ParseToken_key (rest : WString) (reader : Reader) : ParseToken (reader.seek (utf16 pair.key ++ 61::rest)) =
    (⟨.string,utf16 pair.key ++ 61::rest,(utf16 pair.key).length⟩,reader.seek (utf16 pair.key ++ 61::rest)) :=
  ParseToken_word named.1 pair.plainKey named.2 (.inr (.inr rfl)) fun _ => NextNumberMatch_name (separators_plain pair.plainKey) rest

include shortKey

/-- Where some of a value is left the loop ends with nothing. -/
theorem turn_stuck {rest : WString} (ends : End rest) {reader : Reader} {n : Nat} {dict : ValueMap Value} {node : Option Value}
    {later : Reader} {left : WString}
    (built : BuildValue StringToDouble (n + 1) false (reader.seek (utf16 pair.value ++ rest)) = some (node,later))
    (pos : later.pos_ = left ++ rest) (some_ : left ≠ []) (suffix : left <:+ utf16 pair.value) :
    ∃ last, fromName StringToDouble (n + 2) dict (reader.seek (utf16 pair.key ++ 61::(utf16 pair.value ++ rest))) = some (none,last) := by
  have plain : ∀ unit ∈ left, unit ∉ reserved.map Char.toNat := fun unit member =>
    plain_units pair.plainValue unit (suffix.subset member)
  have goes_on := ParseToken_goes_on plain some_ rest later
  rw [Reader.seek_self pos] at goes_on
  rw [fromName,ParseToken_key named,BuildPairs_turn pair.plainKey pair.plainValue ends shortKey built]
  dsimp only
  rw [if_neg goes_on.1,if_neg goes_on.2]
  exact ⟨_,rfl⟩

/-- The turn of a pair that is read whole, within the stack limit. -/
theorem turn_whole {rest : WString} (ends : End rest) (shortValue : (utf8 pair.value).length < 2 ^ 31) {reader : Reader}
    (room : pair.value ≠ [] → reader.stack_depth_ < kStackLimit) (n : Nat) (dict : ValueMap Value) {node : Value}
    (read : NodeOf StringToDouble pair.value node) :
    ∃ later : Reader, later.stack_depth_ = reader.stack_depth_ + blanks [pair] ∧
      fromName StringToDouble (n + 2) dict (reader.seek (utf16 pair.key ++ 61::(utf16 pair.value ++ rest))) =
      let (token,reader) := ParseToken (later.seek rest)
      if token.type = .listSeparator then
        fromName StringToDouble (n + 1) (dict.assign (utf16 pair.key) node) (reader.advance token.length)
      else if token.type = .objectEnd then some (some (dict.assign (utf16 pair.key) node,token),reader)
      else some (none,reader) := by
  rw [fromName,ParseToken_key named]
  rcases read with ⟨empty,rfl⟩ | ⟨some_,read⟩
  · obtain ⟨later,depth,built⟩ := @BuildValue_empty StringToDouble rest ends reader n
    have counted : blanks [pair] = 1 := by simp [blanks,empty]
    have units : utf16 pair.value ++ rest = rest := by rw [empty]; rfl
    have here : BuildValue StringToDouble (n + 1) false (reader.seek (utf16 pair.value ++ rest)) = some (none,later.seek rest) := by
      rw [units,built]
    rw [counted]
    refine ⟨later,depth,?_⟩
    rw [BuildPairs_turn pair.plainKey pair.plainValue ends shortKey here]
    rfl
  · have counted : blanks [pair] = 0 := by simp [blanks,some_]
    rcases read_or_stuck pair.plainValue some_ shortValue with ⟨other,reads⟩ | ⟨none_,-⟩
    · cases read.unique (reads [0] (.inl rfl))
      obtain ⟨token,scalar,length,parsed⟩ := reads rest ends
      rw [counted]
      refine ⟨reader,rfl,?_⟩
      rw [BuildPairs_turn pair.plainKey pair.plainValue ends shortKey (BuildValue_scalar scalar length parsed (room some_) n)]
      rfl
    · exact absurd read (none_ node)

/-- The turn of a pair that is not. -/
theorem turn_broken {rest : WString} (ends : End rest) (shortValue : (utf8 pair.value).length < 2 ^ 31) {reader : Reader} (n : Nat)
    (dict : ValueMap Value)
    (broken : ¬((∃ node, NodeOf StringToDouble pair.value node) ∧ (pair.value ≠ [] → reader.stack_depth_ < kStackLimit))) :
    ∃ last, fromName StringToDouble (n + 2) dict (reader.seek (utf16 pair.key ++ 61::(utf16 pair.value ++ rest))) = some (none,last) := by
  have some_ : pair.value ≠ [] := by
    intro empty
    exact broken ⟨⟨_,.inl ⟨empty,rfl⟩⟩,fun other => absurd empty other⟩
  have units : utf16 pair.value ≠ [] := by
    obtain ⟨c,others,same⟩ := List.exists_cons_of_ne_nil some_
    rw [same,utf16_cons]
    exact List.append_ne_nil_of_left_ne_nil (WriteUTF16_ne_nil _) _
  by_cases room : reader.stack_depth_ < kStackLimit
  · rcases @read_or_stuck StringToDouble _ pair.plainValue some_ shortValue with ⟨node,reads⟩ | ⟨-,stuck⟩
    · exact absurd ⟨⟨node,.inr ⟨some_,reads [0] (.inl rfl)⟩⟩,fun _ => room⟩ broken
    · obtain ⟨node,later,left,built,pos,more,suffix⟩ := stuck rest ends reader n room
      exact turn_stuck named shortKey ends built pos more suffix
  · have deep : kStackLimit < (reader.deeper.seek (utf16 pair.value ++ rest)).stack_depth_ := by
      change kStackLimit < reader.stack_depth_ + 1
      omega
    have kept := Reader.SetErrorCode_pos (reader.deeper.seek (utf16 pair.value ++ rest)) .tooMuchNesting (utf16 pair.value ++ rest)
    have built : BuildValue StringToDouble (n + 1) false (reader.seek (utf16 pair.value ++ rest)) =
        some (none,(reader.deeper.seek (utf16 pair.value ++ rest)).SetErrorCode .tooMuchNesting (utf16 pair.value ++ rest)) := by
      rw [BuildValue,Reader.deeper_seek,if_pos deep]
      rfl
    exact turn_stuck named shortKey ends built kept.1 units (List.suffix_refl _)

end Loop

/-- What the loop makes of the pairs. -/
def Entries (StringToDouble : List UInt8 → Option Float) (pairs : List Pair) (entries : ValueMap Value) : Prop :=
  List.Forall₂ (fun pair entry => entry.1 = utf16 pair.key ∧ NodeOf StringToDouble pair.value entry.2) pairs entries

def AllWhole (StringToDouble : List UInt8 → Option Float) (depth : Nat) (pairs : List Pair) : Prop :=
  (∀ pair ∈ pairs, pair.Whole StringToDouble) ∧ Shallow depth pairs

theorem AllWhole.cons {depth : Nat} {pair : Pair} {pairs : List Pair} : AllWhole StringToDouble depth (pair::pairs) ↔
    (pair.Whole StringToDouble ∧ (pair.value ≠ [] → depth < kStackLimit)) ∧ AllWhole StringToDouble (depth + blanks [pair]) pairs := by
  rw [AllWhole,AllWhole,List.forall_mem_cons,Shallow.tail]
  tauto

theorem Entries.of_whole {pairs : List Pair} (whole : ∀ pair ∈ pairs, pair.Whole StringToDouble) :
    ∃ entries, Entries StringToDouble pairs entries := by
  induction pairs with
  | nil => exact ⟨[],.nil⟩
  | cons pair pairs ih =>
    obtain ⟨⟨-,-,node,read⟩,others⟩ := List.forall_mem_cons.mp whole
    obtain ⟨entries,each⟩ := ih others
    exact ⟨(utf16 pair.key,node)::entries,.cons ⟨rfl,read⟩ each⟩

def assignAll (dict entries : ValueMap Value) : ValueMap Value := entries.foldl (fun dict entry => dict.assign entry.1 entry.2) dict

/-- By induction on the pairs: the loop ends with all of them, or with nothing. -/
theorem loop_pairs {pair : Pair} {pairs : List Pair} (short : (utf8 (formOf (pair::pairs))).length < 2 ^ 31) {reader : Reader} {n : Nat}
    (enough : pairs.length ≤ n) {dict : ValueMap Value} :
    (AllWhole StringToDouble reader.stack_depth_ (pair::pairs) → ∀ entries, Entries StringToDouble (pair::pairs) entries → ∃ token last,
      fromName StringToDouble (n + 2) dict (reader.seek (formText (pair::pairs))) = some (some (assignAll dict entries,token),last)) ∧
    (¬AllWhole StringToDouble reader.stack_depth_ (pair::pairs) → ∃ last,
      fromName StringToDouble (n + 2) dict (reader.seek (formText (pair::pairs))) = some (none,last)) := by
  induction pairs generalizing pair reader n dict with
  | nil =>
    have parts := (length_formOf pair []).1
    have ends := behind_end []
    rw [formText_behind]
    constructor
    · intro all entries each
      obtain ⟨⟨key,node⟩,others,⟨name,read⟩,none_,rfl⟩ := List.forall₂_cons_left_iff.mp each
      cases none_
      dsimp only at name read
      subst name
      obtain ⟨⟨⟨some_,word,-⟩,room⟩,-⟩ := AllWhole.cons.mp all
      obtain ⟨later,-,turn⟩ := turn_whole ⟨some_,word⟩ (by omega) ends (by omega) room n dict read
      have stop : ParseToken (later.seek (behind [])) = (⟨.objectEnd,[0],0⟩,later.seek [0]) := ParseToken_end rfl
      rw [stop] at turn
      exact ⟨_,_,turn⟩
    · intro broken
      by_cases named : pair.key ≠ [] ∧ Word pair.key
      · apply turn_broken named (by omega) ends (by omega)
        rintro ⟨node,room⟩
        apply broken
        rw [AllWhole.cons]
        refine ⟨⟨⟨named.1,named.2,node⟩,room⟩,nofun,?_⟩
        rintro before other after same
        cases before <;> cases same
      · exact bad_name named _ _ _ _
  | cons next pairs ih =>
    obtain ⟨parts,tail⟩ := length_formOf pair (next::pairs)
    have ends := behind_end (next::pairs)
    rw [formText_behind]
    by_cases named : pair.key ≠ [] ∧ Word pair.key
    · by_cases whole : (∃ node, NodeOf StringToDouble pair.value node) ∧ (pair.value ≠ [] → reader.stack_depth_ < kStackLimit)
      · obtain ⟨n,rfl⟩ := Nat.exists_eq_succ_of_ne_zero (Nat.ne_zero_of_lt enough)
        -- the turn of the first pair, and the pairs behind it
        have turn {node : Value} (read : NodeOf StringToDouble pair.value node) : ∃ later : Reader,
            later.stack_depth_ = reader.stack_depth_ + blanks [pair] ∧
            fromName StringToDouble (n + 1 + 2) dict (reader.seek (utf16 pair.key ++ 61::(utf16 pair.value ++ behind (next::pairs)))) =
              fromName StringToDouble (n + 2) (dict.assign (utf16 pair.key) node) (later.seek (formText (next::pairs))) := by
          obtain ⟨later,depth,turn⟩ := turn_whole named (by omega) ends (by omega) whole.2 (n + 1) dict read
          have separator : ParseToken (later.seek (behind (next::pairs))) =
              (⟨.listSeparator,38::formText (next::pairs),1⟩,later.seek (38::formText (next::pairs))) := ParseToken_separator
          rw [separator] at turn
          dsimp only at turn
          rw [if_pos rfl,Reader.advance_one] at turn
          exact ⟨later,depth,turn⟩
        rw [AllWhole.cons]
        constructor
        · rintro ⟨-,all⟩ entries each
          obtain ⟨⟨key,node⟩,others,⟨name,read⟩,rest,rfl⟩ := List.forall₂_cons_left_iff.mp each
          dsimp only at name read
          subst name
          obtain ⟨later,depth,turn⟩ := turn read
          rw [← depth] at all
          obtain ⟨token,last,built⟩ := (ih (by omega) (Nat.le_of_succ_le_succ enough)).1 all _ rest
          exact ⟨token,last,turn.trans built⟩
        · intro broken
          obtain ⟨node,read⟩ := whole.1
          obtain ⟨later,depth,turn⟩ := turn read
          have rest : ¬AllWhole StringToDouble later.stack_depth_ (next::pairs) := by
            intro all
            rw [depth] at all
            exact broken ⟨⟨⟨named.1,named.2,node,read⟩,whole.2⟩,all⟩
          obtain ⟨last,built⟩ := (ih (by omega) (Nat.le_of_succ_le_succ enough)).2 rest
          exact ⟨last,turn.trans built⟩
      · refine ⟨fun all => absurd ?_ whole,fun _ => turn_broken named (by omega) ends (by omega) n dict whole⟩
        obtain ⟨⟨⟨-,-,node⟩,room⟩,-⟩ := AllWhole.cons.mp all
        exact ⟨node,room⟩
    · refine ⟨fun all => absurd ?_ named,fun _ => bad_name named _ _ _ _⟩
      obtain ⟨⟨⟨some_,word,-⟩,-⟩,-⟩ := AllWhole.cons.mp all
      exact ⟨some_,word⟩

/-! ### Deserializing -/

/-- What is made of the string, for all fuel but a finite amount and whatever the reader had read. -/
def Makes (StringToDouble : List UInt8 → Option Float) (http_string : List UInt8) (root : Option Value) : Prop :=
  ∃ fuel, ∀ more ≥ fuel, ∀ before : Reader, ∃ last, Deserialize StringToDouble more before http_string = some (root,last)

theorem Makes.unique {http_string : List UInt8} {root other : Option Value} (makes : Makes StringToDouble http_string root)
    (also : Makes StringToDouble http_string other) : root = other := by
  obtain ⟨fuel,each⟩ := makes
  obtain ⟨more,all⟩ := also
  obtain ⟨last,one⟩ := each (fuel + more) (Nat.le_add_right ..) unread
  obtain ⟨final,two⟩ := all (fuel + more) (Nat.le_add_left ..) unread
  exact congrArg Prod.fst (Option.some.inj (one.symm.trans two))

/-- The form with the byte that ends it. -/
def ended (pairs : List Pair) (terminator : UInt8) : List UInt8 := utf8 (formOf pairs) ++ [terminator]

/-- The loop over all pairs; there may be none. -/
theorem loop_form {pairs : List Pair} (short : (utf8 (formOf pairs)).length < 2 ^ 31) {reader : Reader} {n : Nat}
    (enough : pairs.length ≤ n) {dict : ValueMap Value} :
    (AllWhole StringToDouble reader.stack_depth_ pairs → ∀ entries, Entries StringToDouble pairs entries → ∃ token last,
      fromName StringToDouble (n + 2) dict (reader.seek (formText pairs)) = some (some (assignAll dict entries,token),last)) ∧
    (¬AllWhole StringToDouble reader.stack_depth_ pairs → ∃ last,
      fromName StringToDouble (n + 2) dict (reader.seek (formText pairs)) = some (none,last)) := by
  cases pairs with
  | nil =>
    have stop : ParseToken (reader.seek [0]) = (⟨.objectEnd,[0],0⟩,reader.seek [0]) := ParseToken_end rfl
    constructor
    · intro _ entries each
      cases each
      refine ⟨⟨.objectEnd,[0],0⟩,reader.seek [0],?_⟩
      change fromName StringToDouble (n + 2) dict (reader.seek [0]) = _
      rw [fromName,stop,BuildPairs,if_pos rfl]
      rfl
    · intro broken
      apply absurd _ broken
      constructor
      · intro pair listed
        cases listed
      · intro before pair after same
        cases before <;> cases same
  | cons pair pairs => exact loop_pairs short ((Nat.le_succ _).trans enough)

theorem form_made {pairs : List Pair} (mark : (formOf pairs).head? ≠ some '\uFEFF')
    (short : (utf8 (formOf pairs)).length + 1 < 2 ^ 31) (terminator : UInt8) :
    (AllWhole StringToDouble 1 pairs → ∀ entries, Entries StringToDouble pairs entries →
      Makes StringToDouble (ended pairs terminator) (some (.dictionary (assignAll [] entries)))) ∧
    (¬AllWhole StringToDouble 1 pairs → Makes StringToDouble (ended pairs terminator) none) := by
  have wide : UTF8ToWide ((ended pairs terminator).dropLast ++ [0]) = formText pairs := by
    have zeroed : utf8 (formOf pairs) ++ [0] = utf8 (formOf pairs ++ ['\x00']) := by
      rw [utf8_append,utf8_cons,← WriteUTF8_char]
      rfl
    rw [ended,List.dropLast_concat,zeroed,UTF8ToWide_utf8,utf16_append]
    · rfl
    · rw [← zeroed,List.length_append]
      exact short
  have marked : charAt (formText pairs) 0 ≠ 0xfeff := unmarked mark
  have root (before : Reader) (n : Nat) : BuildValue StringToDouble (n + 1) true (started before (formText pairs)) =
      (fromName StringToDouble n [] ((started before (formText pairs)).deeper.seek (formText pairs))).bind fun outcome =>
        some (outcome.1.map fun made => .dictionary made.1,outcome.1.elim outcome.2 fun made => outcome.2.leave made.2) := by
    have within : ¬kStackLimit < (started before (formText pairs)).deeper.stack_depth_ := by
      change ¬kStackLimit < 1
      decide
    rw [BuildValue,if_neg within,if_pos rfl]
    apply congrArg (Option.bind _)
    funext outcome
    obtain ⟨made,reader⟩ := outcome
    cases made with
    | none => rfl
    | some made => rfl
  have loop (before : Reader) (n : Nat) (enough : pairs.length ≤ n) :=
    @loop_form StringToDouble pairs (by omega) (started before (formText pairs)).deeper n enough []
  constructor
  · intro all entries each
    refine ⟨pairs.length + 3,fun more enough before => ?_⟩
    obtain ⟨n,rfl⟩ := Nat.exists_eq_add_of_le' enough
    obtain ⟨token,last,built⟩ := (loop before (n + pairs.length) (Nat.le_add_left ..)).1 all entries each
    have made := root before (n + pairs.length + 2)
    rw [built] at made
    exact Deserialize_root (by simp [ended]) wide marked made
  · intro broken
    refine ⟨pairs.length + 3,fun more enough before => ?_⟩
    obtain ⟨n,rfl⟩ := Nat.exists_eq_add_of_le' enough
    obtain ⟨last,built⟩ := (loop before (n + pairs.length) (Nat.le_add_left ..)).2 broken
    have made := root before (n + pairs.length + 2)
    rw [built] at made
    refine ⟨last,?_⟩
    rw [Deserialize,if_neg (by simp [ended]),wide]
    dsimp only
    rw [if_neg marked]
    change Option.map _ (BuildValue StringToDouble (n + pairs.length + 2 + 1) true (started before (formText pairs))) = _
    rw [made]
    rfl

/-! ### What is found -/

/-- The value of a name, the last one if there are several. -/
def parameter : List Pair → String → Option (List Char)
  | [],_ => none
  | pair::pairs,name => (parameter pairs name).or (if pair.key = name.toList then some pair.value else none)

/-- What is found under a name whose value is known. -/
def Found (StringToDouble : List UInt8 → Option Float) : Option (List Char) → Option Value → Prop
  | none,found => found = none
  | some value,found => ∃ node, found = some node ∧ NodeOf StringToDouble value node

/-- The pairs are assigned one after another; by induction, with any dictionary they are assigned to. -/
theorem find_assigned {pairs : List Pair} {entries : ValueMap Value} (each : Entries StringToDouble pairs entries) (name : String)
    (dict : ValueMap Value) :
    (parameter pairs name = none → (assignAll dict entries).find (utf16 name.toList) = dict.find (utf16 name.toList)) ∧
    ∀ value, parameter pairs name = some value →
      ∃ node, (assignAll dict entries).find (utf16 name.toList) = some node ∧ NodeOf StringToDouble value node := by
  induction each generalizing dict with
  | nil => exact ⟨fun _ => rfl,nofun⟩
  | @cons pair entry pairs entries first _ ih =>
    obtain ⟨absent,present⟩ := ih (dict.assign entry.1 entry.2)
    have assigned : (dict.assign entry.1 entry.2).find (utf16 name.toList) =
        if pair.key = name.toList then some entry.2 else dict.find (utf16 name.toList) := by
      rw [ValueMap.find_assign,first.1]
      apply if_congr _ rfl rfl
      exact ⟨fun same => (utf16_injective same).symm,fun same => congrArg utf16 same.symm⟩
    rw [parameter]
    cases later : parameter pairs name with
    | some value =>
      refine ⟨nofun,fun other same => ?_⟩
      cases same
      exact present value later
    | none =>
      rw [Option.none_or]
      have stays : (assignAll dict (entry::entries)).find (utf16 name.toList) = _ := (absent later).trans assigned
      rw [stays]
      by_cases same : pair.key = name.toList
      · rw [if_pos same,if_pos same]
        refine ⟨nofun,fun value here => ⟨entry.2,rfl,?_⟩⟩
        cases here
        exact first.2
      · rw [if_neg same,if_neg same]
        exact ⟨fun _ => rfl,nofun⟩

theorem Entries.found {pairs : List Pair} {entries : ValueMap Value} (each : Entries StringToDouble pairs entries) (name : String) :
    Found StringToDouble (parameter pairs name) ((assignAll [] entries).find (utf16 name.toList)) := by
  obtain ⟨absent,present⟩ := find_assigned each name []
  cases last : parameter pairs name with
  | none => exact absent last
  | some value => exact present value last

end HttpValueSerializer
end Migfm.Logic
