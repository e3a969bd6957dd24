import Migfm.Logic.JsonTokens

/-! The JSON reader gives back the tree that the JSON writer was given, with every
integer as a 64-bit integer. -/
namespace Migfm.Logic

/-! ### Trees -/

mutual

/-- How many values are around the deepest one. -/
def nesting : Value → Nat
  | .list list => nestingItems list
  | .dictionary dict => nestingEntries dict
  | _ => 0

def nestingItems : List Value → Nat
  | [] => 0
  | value::list => max (nesting value + 1) (nestingItems list)

def nestingEntries : List (WString × Value) → Nat
  | [] => 0
  | (_,value)::dict => max (nesting value + 1) (nestingEntries dict)

end

mutual

/-- The tree with every integer as a 64-bit integer of the same value. -/
def widened : Value → Value
  | .fundamental (.integer value) => .fundamental (.bigInteger value.toInt64)
  | .list list => .list (widenedItems list)
  | .dictionary dict => .dictionary (widenedEntries dict)
  | value => value

def widenedItems : List Value → List Value
  | [] => []
  | value::list => widened value::widenedItems list

def widenedEntries : List (WString × Value) → List (WString × Value)
  | [] => []
  | (key,value)::dict => (key,widened value)::widenedEntries dict

end

theorem widenedEntries_keys (dict : List (WString × Value)) :
    (widenedEntries dict).map Prod.fst = dict.map Prod.fst := by
  induction dict with
  | nil => rfl
  | cons entry dict ih => exact congrArg (entry.1::·) ih

/-- A tree without reals and binary values. Strings are texts without NUL, keys are
ASCII without NUL, in the order of the map. -/
inductive Plain : Value → Prop
  | null : Plain .null
  | boolean (value : Bool) : Plain (.fundamental (.boolean value))
  | integer (value : Int32) : Plain (.fundamental (.integer value))
  | bigInteger (value : Int64) : Plain (.fundamental (.bigInteger value))
  | string {text : List Char} (c_string : ∀ c ∈ text, c.toNat ≠ 0) : Plain (.string (utf8 text))
  | list {list : List Value} (each : ∀ value ∈ list, Plain value) : Plain (.list list)
  | dictionary {dict : List (WString × Value)} (sorted : dict.Pairwise fun entry later => entry.1 < later.1)
      (ascii : ∀ entry ∈ dict, ∀ c ∈ entry.1, 0 < c ∧ c < 128) (each : ∀ entry ∈ dict, Plain entry.2) :
      Plain (.dictionary dict)

/-- A list or a dictionary. -/
def Value.isRoot : Value → Bool
  | .list _ | .dictionary _ => true
  | _ => false

namespace JsonValueSerializer

section Reading
variable (StringToDouble : List UInt8 → Option Float)

/-- A text is read as a value, wherever it stands. -/
structure Reads (fuel : Nat) (is_root : Bool) (w : WString) (value : Value) (levels : Nat) : Prop where
  solid : ∀ rest, Solid (w ++ rest)
  token : ∀ {rest}, Delimited rest → ∀ reader : Reader, ∃ token,
    ParseToken (reader.seek (w ++ rest)) = (token,reader.seek (w ++ rest)) ∧ token.type ≠ .arrayEnd
  value : ∀ {rest}, Delimited rest → ∀ reader : Reader, reader.stack_depth_ + levels < kStackLimit → ∀ more ≥ fuel,
    BuildValue StringToDouble more is_root (reader.seek (w ++ rest)) = some (some value,reader.seek rest)

variable {StringToDouble}

theorem Reads.scalar {w : WString} {value : Value} (solid : ∀ rest, Solid (w ++ rest))
    (parses : ∀ {rest}, Delimited rest → ∃ token, Scalar StringToDouble DecodeString token value ∧ token.length = w.length ∧
      ∀ reader : Reader, ParseToken (reader.seek (w ++ rest)) = (token,reader.seek (w ++ rest))) (levels : Nat) :
    Reads StringToDouble 1 false w value levels := by
  refine ⟨solid,?_,?_⟩
  · intro rest delimited reader
    obtain ⟨token,scalar,_,parsed⟩ := parses delimited
    refine ⟨token,parsed reader,?_⟩
    cases scalar <;> nofun
  · intro rest delimited reader room more enough
    obtain ⟨n,rfl⟩ := Nat.exists_eq_add_of_le' enough
    obtain ⟨token,scalar,length,parsed⟩ := parses delimited
    rw [BuildValue,Reader.deeper_seek,if_neg (Reader.not_nested room _),parsed]
    dsimp only
    rw [if_neg fun root => Bool.false_ne_true root.1]
    cases scalar with
    | null | true_ | false_ => rw [Reader.leave_seek length]
    | number decodes | string decodes =>
      dsimp only
      rw [decodes]
      dsimp only
      rw [Reader.leave_seek length]

/-! ### Lists -/

/-- The values of a list are read up to its end. -/
structure ReadsItems (StringToDouble : List UInt8 → Option Float) (fuel : Nat) (w : WString) (items : List Value)
    (levels : Nat) : Prop where
  solid : ∀ rest, Solid (w ++ rest)
  items : ∀ blanks, Blank blanks → ∀ rest, ∀ reader : Reader, reader.stack_depth_ + levels ≤ kStackLimit → ∀ more ≥ fuel,
    ∃ token, ParseToken (reader.seek (w ++ (blanks ++ 93::rest))) = (token,reader.seek (w ++ (blanks ++ 93::rest))) ∧
      token.type ≠ .arrayEnd ∧
      ∀ list, BuildList StringToDouble more token list (reader.seek (w ++ (blanks ++ 93::rest))) =
        some (some (list ++ items,⟨.arrayEnd,93::rest,1⟩),reader.seek (93::rest))

theorem BuildList_end {token : Token} (ends : token.type = .arrayEnd) (n : Nat) (list : List Value) (reader : Reader) :
    BuildList StringToDouble (n + 1) token list reader = some (some (list,token),reader) := by
  rw [BuildList,if_pos ends]

/-- The last value of a list. -/
theorem ReadsItems.last {fuel levels : Nat} {w : WString} {value : Value} (reads : Reads StringToDouble fuel false w value levels) :
    ReadsItems StringToDouble (fuel + 2) w [value] (levels + 1) := by
  refine ⟨reads.solid,?_⟩
  intro blanks blank rest reader room more enough
  have delimited := @delimited_blank rest blanks blank 93 (by decide)
  obtain ⟨token,parsed,goes_on⟩ := reads.token delimited reader
  refine ⟨token,parsed,goes_on,fun list => ?_⟩
  obtain ⟨n,rfl⟩ := Nat.exists_eq_add_of_le' enough
  have built := reads.value delimited reader (Nat.lt_of_succ_le room) (n + fuel + 1) (by omega)
  have closed : ParseToken (reader.seek (blanks ++ 93::rest)) = (⟨.arrayEnd,93::rest,1⟩,reader.seek (93::rest)) :=
    (ParseToken_blank blank (solid_cons (by decide) rest)).trans (ParseToken_punctuation rfl rest)
  rw [← Nat.add_assoc n fuel 2,BuildList,if_neg goes_on,built,Option.bind_some]
  dsimp only
  rw [closed]
  dsimp only
  rw [if_neg (by decide),if_neg (not_not_intro rfl)]
  exact BuildList_end rfl ..

/-- A value in front of others. -/
theorem ReadsItems.cons {fuel others levels above : Nat} {w more : WString} {value : Value} {items : List Value} {blanks : WString}
    (reads : Reads StringToDouble fuel false w value levels) (blank : Blank blanks)
    (next : ReadsItems StringToDouble others more items above) :
    ReadsItems StringToDouble (max fuel others + 1) (w ++ 44::(blanks ++ more)) (value::items) (max (levels + 1) above) := by
  constructor
  · intro rest
    rw [List.append_assoc]
    exact reads.solid _
  intro ending blankEnd rest reader room fuel' enough
  obtain ⟨n,rfl⟩ := Nat.exists_eq_add_of_le' enough
  have delimited := @delimited_blank (blanks ++ (more ++ (ending ++ 93::rest))) [] (List.forall_mem_nil _) 44 (by decide)
  obtain ⟨token,parsed,goes_on⟩ := reads.token delimited reader
  obtain ⟨later,parses,further,built⟩ := next.items ending blankEnd rest reader (by omega) (n + max fuel others) (by omega)
  have first := reads.value delimited reader (by omega) (n + max fuel others) (by omega)
  have comma := @ParseToken_punctuation reader 44 _ rfl (blanks ++ (more ++ (ending ++ 93::rest)))
  have behind := @ParseToken_blank _ blanks reader blank (next.solid (ending ++ 93::rest))
  have whole : (w ++ 44::(blanks ++ more)) ++ (ending ++ 93::rest) = w ++ ([] ++ 44::(blanks ++ (more ++ (ending ++ 93::rest)))) := by
    simp only [List.append_assoc,List.cons_append,List.nil_append]
  rw [whole]
  refine ⟨token,parsed,goes_on,fun list => ?_⟩
  rw [← Nat.add_assoc,BuildList,if_neg goes_on,first,Option.bind_some]
  dsimp only [List.nil_append]
  rw [comma]
  dsimp only
  rw [if_pos rfl,Reader.advance_one,behind,parses]
  dsimp only
  rw [if_neg fun both => further both.1,built,List.append_assoc]
  rfl

/-! ### Dictionaries -/

/-- The entries of a dictionary are read up to its end. -/
structure ReadsEntries (StringToDouble : List UInt8 → Option Float) (fuel : Nat) (w : WString)
    (entries : List (WString × Value)) (levels : Nat) : Prop where
  solid : ∀ rest, Solid (w ++ rest)
  entries : ∀ blanks, Blank blanks → ∀ rest, ∀ reader : Reader, reader.stack_depth_ + levels ≤ kStackLimit → ∀ more ≥ fuel,
    ∃ token, ParseToken (reader.seek (w ++ (blanks ++ 125::rest))) = (token,reader.seek (w ++ (blanks ++ 125::rest))) ∧
      token.type = .string ∧
      ∀ dict : ValueMap Value, (∀ entry ∈ dict, ∀ later ∈ entries, entry.1 < later.1) →
        BuildDictionary StringToDouble more token dict (reader.seek (w ++ (blanks ++ 125::rest))) =
          some (some (dict ++ entries,⟨.objectEnd,125::rest,1⟩),reader.seek (125::rest))

theorem BuildDictionary_end {token : Token} (ends : token.type = .objectEnd) (n : Nat) (dict : ValueMap Value) (reader : Reader) :
    BuildDictionary StringToDouble (n + 1) token dict reader = some (some (dict,token),reader) := by
  rw [BuildDictionary,if_pos ends]

/-- The text of an entry in front of others. -/
def entryText (source blanks w : WString) : WString := 34::(source ++ 34::58::(blanks ++ w))

section Entry
variable {fuel levels : Nat} {source key blanks w rest : WString} {bytes : List UInt8} {value : Value}
  (scans : Scans Ends source key) (both : Wide bytes key) (short : bytes.length < 2 ^ 31) (blank : Blank blanks)
  (reads : Reads StringToDouble fuel false w value levels)
include scans both short blank reads

/-- One turn of the loop, up to what follows the value. -/
theorem BuildDictionary_entry (delimited : Delimited rest) {reader : Reader}
    (room : reader.stack_depth_ + levels < kStackLimit) {n : Nat} (enough : fuel ≤ n) (dict : ValueMap Value) :
    BuildDictionary StringToDouble (n + 1) ⟨.string,entryText source blanks (w ++ rest),source.length + 2⟩ dict
        (reader.seek (entryText source blanks (w ++ rest))) =
      let dict := dict.assign key value
      let (token,reader) := ParseToken (reader.seek rest)
      if token.type = .listSeparator then
        let (token,reader) := ParseToken (reader.advance token.length)
        if token.type = .objectEnd ∧ ¬reader.allow_trailing_comma_ then
          some (none,reader.SetErrorCode .trailingComma reader.pos_)
        else BuildDictionary StringToDouble n token dict reader
      else if token.type ≠ .objectEnd then some (none,reader)
      else BuildDictionary StringToDouble n token dict reader := by
  have decoded : DecodeString ⟨.string,entryText source blanks (w ++ rest),source.length + 2⟩ = some bytes :=
    DecodeString_token scans both short _
  have advanced : (reader.seek (entryText source blanks (w ++ rest))).advance (source.length + 2) =
      reader.seek (58::(blanks ++ (w ++ rest))) := by
    have parted : entryText source blanks (w ++ rest) = (34::(source ++ [34])) ++ (58::(blanks ++ (w ++ rest))) := by
      simp [entryText]
    rw [parted]
    exact Reader.advance_seek (by simp)
  have colon := @ParseToken_punctuation reader 58 _ rfl (blanks ++ (w ++ rest))
  obtain ⟨next,parsed,_⟩ := reads.token delimited reader
  have behind := (@ParseToken_blank _ blanks reader blank (reads.solid rest)).trans parsed
  rw [BuildDictionary,if_neg (by simp),if_neg (not_not_intro rfl),decoded]
  dsimp only
  rw [both.UTF8ToWide_eq short,advanced,colon]
  dsimp only
  rw [if_neg (not_not_intro rfl),Reader.advance_one,behind]
  dsimp only
  rw [reads.value delimited reader room n enough,Option.bind_some]

/-- The last entry of a dictionary. -/
theorem ReadsEntries.last : ReadsEntries StringToDouble (fuel + 2) (entryText source blanks w) [(key,value)] (levels + 1) := by
  refine ⟨fun rest => solid_cons (by decide) _,?_⟩
  intro ending blankEnd rest reader room more enough
  have delimited := @delimited_blank rest ending blankEnd 125 (by decide)
  obtain ⟨n,rfl⟩ := Nat.exists_eq_add_of_le' enough
  have whole : entryText source blanks w ++ (ending ++ 125::rest) = entryText source blanks (w ++ (ending ++ 125::rest)) := by
    simp [entryText]
  have closed : ParseToken (reader.seek (ending ++ 125::rest)) = (⟨.objectEnd,125::rest,1⟩,reader.seek (125::rest)) :=
    (ParseToken_blank blankEnd (solid_cons (by decide) rest)).trans (ParseToken_punctuation rfl rest)
  rw [whole]
  refine ⟨_,ParseToken_string scans _,rfl,fun dict before => ?_⟩
  have turn := BuildDictionary_entry scans both short blank reads delimited (Nat.lt_of_succ_le room)
    (Nat.le_add_left fuel (n + 1)) dict
  rw [closed] at turn
  rw [ValueMap.assign_last fun entry member => before entry member _ List.mem_cons_self] at turn
  have ends := @BuildDictionary_end StringToDouble ⟨.objectEnd,125::rest,1⟩ rfl (n + fuel) (dict ++ [(key,value)])
    (reader.seek (125::rest))
  have fuels : n + (fuel + 2) = n + 1 + fuel + 1 := by omega
  rw [fuels]
  refine turn.trans ?_
  dsimp only
  rw [if_neg (by decide),if_neg (not_not_intro rfl),Nat.add_right_comm n 1 fuel]
  exact ends

/-- An entry in front of others. -/
theorem ReadsEntries.cons {others above : Nat} {indent more : WString} {entries : List (WString × Value)} (indented : Blank indent)
    (first : ∀ later ∈ entries, key < later.1) (next : ReadsEntries StringToDouble others more entries above) :
    ReadsEntries StringToDouble (max fuel others + 1) (entryText source blanks (w ++ 44::(indent ++ more)))
      ((key,value)::entries) (max (levels + 1) above) := by
  refine ⟨fun rest => solid_cons (by decide) _,?_⟩
  intro ending blankEnd rest reader room fuel' enough
  obtain ⟨n,rfl⟩ := Nat.exists_eq_add_of_le' enough
  have delimited := @delimited_blank (indent ++ (more ++ (ending ++ 125::rest))) [] (List.forall_mem_nil _) 44 (by decide)
  rw [List.nil_append] at delimited
  obtain ⟨later,parses,string,built⟩ := next.entries ending blankEnd rest reader (by omega) (n + max fuel others) (by omega)
  have comma := @ParseToken_punctuation reader 44 _ rfl (indent ++ (more ++ (ending ++ 125::rest)))
  have behind := (@ParseToken_blank _ indent reader indented (next.solid (ending ++ 125::rest))).trans parses
  have whole : entryText source blanks (w ++ 44::(indent ++ more)) ++ (ending ++ 125::rest) =
      entryText source blanks (w ++ (44::(indent ++ (more ++ (ending ++ 125::rest))))) := by
    simp [entryText]
  rw [whole]
  refine ⟨_,ParseToken_string scans _,rfl,fun dict before => ?_⟩
  have deep : reader.stack_depth_ + levels < kStackLimit := by omega
  have enough : fuel ≤ n + max fuel others := by omega
  have turn := BuildDictionary_entry scans both short blank reads delimited deep enough dict
  rw [comma,ValueMap.assign_last fun entry member => before entry member _ List.mem_cons_self] at turn
  refine turn.trans ?_
  dsimp only
  rw [if_pos rfl,Reader.advance_one,behind]
  dsimp only
  rw [if_neg (by simp [string]),built,List.append_assoc]
  · rfl
  · intro entry member other listed
    rcases List.mem_append.mp member with member | member
    · exact before entry member other (List.mem_cons_of_mem _ listed)
    · rw [List.mem_singleton.mp member]
      exact first other listed

end Entry

/-! ### Lists and dictionaries -/

theorem Reads.list {fuel levels : Nat} {inner : WString} {items : List Value}
    (inside : ∀ rest, ∀ reader : Reader, reader.stack_depth_ + levels ≤ kStackLimit → ∀ more ≥ fuel, ∃ token later,
      ParseToken (reader.seek (inner ++ 93::rest)) = (token,later) ∧
        BuildList StringToDouble more token [] later = some (some (items,⟨.arrayEnd,93::rest,1⟩),reader.seek (93::rest)))
    (is_root : Bool) : Reads StringToDouble (fuel + 1) is_root (91::(inner ++ [93])) (.list items) levels := by
  have whole (rest : WString) : 91::(inner ++ [93]) ++ rest = 91::(inner ++ 93::rest) := by simp
  refine ⟨fun rest => solid_cons (by decide) _,?_,?_⟩
  · intro rest _ reader
    rw [whole]
    exact ⟨_,ParseToken_punctuation rfl _,by simp⟩
  · intro rest _ reader room more enough
    obtain ⟨n,rfl⟩ := Nat.exists_eq_add_of_le' enough
    have deep : reader.deeper.stack_depth_ + levels ≤ kStackLimit := by
      change reader.stack_depth_ + 1 + levels ≤ kStackLimit
      omega
    obtain ⟨token,later,parsed,built⟩ := inside rest reader.deeper deep (n + fuel) (Nat.le_add_left ..)
    rw [whole,← Nat.add_assoc,BuildValue,Reader.deeper_seek,if_neg (Reader.not_nested room _),ParseToken_punctuation rfl]
    dsimp only
    rw [if_neg (by simp),Reader.advance_one,parsed]
    dsimp only
    rw [built,Option.bind_some]
    dsimp only
    rfl

theorem Reads.dictionary {fuel levels : Nat} {inner : WString} {entries : List (WString × Value)}
    (inside : ∀ rest, ∀ reader : Reader, reader.stack_depth_ + levels ≤ kStackLimit → ∀ more ≥ fuel, ∃ token later,
      ParseToken (reader.seek (inner ++ 125::rest)) = (token,later) ∧
        BuildDictionary StringToDouble more token [] later =
          some (some (entries,⟨.objectEnd,125::rest,1⟩),reader.seek (125::rest)))
    (is_root : Bool) : Reads StringToDouble (fuel + 1) is_root (123::(inner ++ [125])) (.dictionary entries) levels := by
  have whole (rest : WString) : 123::(inner ++ [125]) ++ rest = 123::(inner ++ 125::rest) := by simp
  refine ⟨fun rest => solid_cons (by decide) _,?_,?_⟩
  · intro rest _ reader
    rw [whole]
    exact ⟨_,ParseToken_punctuation rfl _,by simp⟩
  · intro rest _ reader room more enough
    obtain ⟨n,rfl⟩ := Nat.exists_eq_add_of_le' enough
    have deep : reader.deeper.stack_depth_ + levels ≤ kStackLimit := by
      change reader.stack_depth_ + 1 + levels ≤ kStackLimit
      omega
    obtain ⟨token,later,parsed,built⟩ := inside rest reader.deeper deep (n + fuel) (Nat.le_add_left ..)
    rw [whole,← Nat.add_assoc,BuildValue,Reader.deeper_seek,if_neg (Reader.not_nested room _),ParseToken_punctuation rfl]
    dsimp only
    rw [if_neg (by simp),Reader.advance_one,parsed]
    dsimp only
    rw [built,Option.bind_some]
    dsimp only
    rfl

end Reading

/-! ### Texts -/

theorem length_escaped (str : List UInt8) : str.length ≤ (str.flatMap escaped).length := by
  induction str with
  | nil => exact le_rfl
  | cons c str ih =>
    have one : 1 ≤ (escaped c).length := by
      rw [escaped]
      split
      · exact Nat.le_succ 1
      · exact le_rfl
    rw [List.length_cons,List.flatMap_cons,List.length_append]
    omega

theorem quoted {text : List Char} (c_string : ∀ c ∈ text, c.toNat ≠ 0) :
    ∃ source, Wide (JsonDoubleQuote (utf8 text) true) (34::(source ++ [34])) ∧ Scans Ends source (utf16 text) := by
  obtain ⟨source,both,scans⟩ := escaped_text c_string
  have quote : Wide [34] [34] := @Wide.literal [34] rfl
  exact ⟨source,(quote.append both).append quote,scans⟩

theorem length_quoted (str : List UInt8) : str.length ≤ (JsonDoubleQuote str true).length := by
  have kept := length_escaped str
  rw [JsonDoubleQuote,List.length_append,List.length_append]
  omega

theorem key_text {key : WString} (ascii : ∀ c ∈ key, 0 < c ∧ c < 128) :
    ∃ text : List Char, (∀ c ∈ text, c.toNat ≠ 0) ∧ utf8 text = WideToASCII key ∧ utf16 text = key := by
  have byte {c : Nat} (member : c ∈ key) : c.toUInt8.toNat = c := Nat.mod_eq_of_lt (by have := ascii c member; omega)
  have small : ∀ byte ∈ WideToASCII key, byte.toNat < 128 := by
    intro b member
    obtain ⟨c,listed,rfl⟩ := List.mem_map.mp member
    rw [byte listed]
    exact (ascii c listed).2
  have back : wide (WideToASCII key) = key := by
    rw [wide,WideToASCII,List.map_map]
    exact (List.map_congr_left fun c member => byte member).trans (List.map_id key)
  obtain ⟨bytes,units⟩ := utf8_ascii small
  refine ⟨_,?_,bytes,units.trans back⟩
  intro char member
  obtain ⟨b,listed,rfl⟩ := List.mem_map.mp member
  obtain ⟨c,inside,rfl⟩ := List.mem_map.mp listed
  have code : (Char.ofUInt8 c.toUInt8).toNat = c.toUInt8.toNat := UInt8.toNat_toUInt32 _
  rw [code,byte inside]
  exact (ascii c inside).1.ne'

section Agree
variable (DoubleToString : Float → List UInt8) (StringToDouble : List UInt8 → Option Float) (pretty_print_ : Bool)

theorem pretty_blank {text : String} (blank : (ascii text).all (fun byte => byte = 32 ∨ byte = 10) = true) :
    Wide (pretty pretty_print_ text) (wide (pretty pretty_print_ text)) ∧ Blank (wide (pretty pretty_print_ text)) := by
  refine blank_wide ?_
  cases pretty_print_ with
  | false => exact List.forall_mem_nil _
  | true => exact fun byte member => of_decide_eq_true (List.all_eq_true.mp blank byte member)

theorem indent_blank (depth : Nat) : ∀ byte ∈ IndentLine depth, byte = 32 ∨ byte = 10 :=
  fun _ member => .inl (List.eq_of_mem_replicate member)

theorem BuildItems_later (value : Value) (list : List Value) (depth : Nat) :
    BuildItems DoubleToString pretty_print_ false (value::list) false depth =
      ascii "," ++ pretty pretty_print_ " " ++ BuildItems DoubleToString pretty_print_ false (value::list) true depth := by
  rw [BuildItems,BuildItems]
  simp

theorem BuildEntries_later (entry : WString × Value) (dict : List (WString × Value)) (depth : Nat) :
    BuildEntries DoubleToString pretty_print_ false (entry::dict) false depth =
      ascii "," ++ pretty pretty_print_ "\n" ++ BuildEntries DoubleToString pretty_print_ false (entry::dict) true depth := by
  obtain ⟨key,value⟩ := entry
  rw [BuildEntries,BuildEntries]
  simp

/-- The text that is written for a value is read as the value, integers widened. -/
def Agrees (value : Value) (depth : Nat) : Prop :=
  (BuildJSONString DoubleToString pretty_print_ false value depth).length < 2 ^ 31 →
    ∀ is_root : Bool, (is_root = true → value.isRoot = true) → ∃ fuel w,
      Wide (BuildJSONString DoubleToString pretty_print_ false value depth) w ∧
        Reads StringToDouble fuel is_root w (widened value) (nesting value)

variable {DoubleToString StringToDouble pretty_print_}

/-! ### Scalars -/

theorem Agrees.scalar {value : Value} {depth : Nat} {w : WString} (leaf : value.isRoot = false)
    (both : Wide (BuildJSONString DoubleToString pretty_print_ false value depth) w)
    (reads : (BuildJSONString DoubleToString pretty_print_ false value depth).length < 2 ^ 31 →
      Reads StringToDouble 1 false w (widened value) (nesting value)) :
    Agrees DoubleToString StringToDouble pretty_print_ value depth := by
  intro short is_root root
  cases is_root with
  | true => exact absurd (root rfl) (by simp [leaf])
  | false => exact ⟨1,w,both,reads short⟩

theorem reads_null (levels : Nat) : Reads StringToDouble 1 false kNullString .null levels :=
  .scalar (fun _ => solid_cons (by decide) _) (fun _ => ⟨_,.null,rfl,fun _ => ParseToken_null⟩) levels

theorem reads_boolean (value : Bool) (levels : Nat) :
    Reads StringToDouble 1 false (if value then kTrueString else kFalseString) (.fundamental (.boolean value)) levels := by
  cases value with
  | true => exact .scalar (fun _ => solid_cons (by decide) _) (fun _ => ⟨_,.true_,rfl,fun _ => ParseToken_true⟩) levels
  | false => exact .scalar (fun _ => solid_cons (by decide) _) (fun _ => ⟨_,.false_,rfl,fun _ => ParseToken_false⟩) levels

theorem reads_decimal {n : Int} (low : -2 ^ 63 ≤ n) (high : n < 2 ^ 63) (levels : Nat) :
    Reads StringToDouble 1 false (wide (decimal n)) (.fundamental (.bigInteger (Int64.ofInt n))) levels := by
  obtain ⟨c,others,starts,first⟩ := decimal_head n
  refine .scalar (fun rest => starts ▸ solid_number first _) ?_ levels
  intro rest delimited
  refine ⟨⟨.number,wide (decimal n) ++ rest,(decimal n).length⟩,?_,(List.length_map _).symm,fun reader => ?_⟩
  · exact .number (DecodeNumber_decimal StringToDouble low high rest)
  · rw [← ParseNumberToken_decimal n delimited,starts]
    exact ParseToken_number first _

theorem reads_string {source decoded : WString} {bytes : List UInt8} (scans : Scans Ends source decoded)
    (both : Wide bytes decoded) (short : bytes.length < 2 ^ 31) (levels : Nat) :
    Reads StringToDouble 1 false (34::(source ++ [34])) (.string bytes) levels := by
  have whole (rest : WString) : 34::(source ++ [34]) ++ rest = 34::(source ++ 34::rest) := by simp
  refine .scalar (fun _ => solid_cons (by decide) _) ?_ levels
  intro rest _
  rw [whole]
  exact ⟨_,.string (DecodeString_token scans both short rest),by simp,fun _ => ParseToken_string scans rest⟩

theorem integer_agrees (value : Int32) (depth : Nat) :
    Agrees DoubleToString StringToDouble pretty_print_ (.fundamental (.integer value)) depth := by
  refine .scalar rfl (.ascii (decimal_ascii value.toInt)) fun _ => ?_
  have low := value.le_toInt
  have high := value.toInt_lt
  have same : Int64.ofInt value.toInt = value.toInt64 := by
    rw [← Int64.toInt_inj,Int64.toInt_ofInt_of_le (by omega) (by omega),Int32.toInt_toInt64]
  have reads := @reads_decimal StringToDouble value.toInt (by omega) (by omega) 0
  rw [same] at reads
  exact reads

theorem bigInteger_agrees (value : Int64) (depth : Nat) :
    Agrees DoubleToString StringToDouble pretty_print_ (.fundamental (.bigInteger value)) depth := by
  refine .scalar rfl (.ascii (decimal_ascii value.toInt)) fun _ => ?_
  have reads := @reads_decimal StringToDouble value.toInt value.le_toInt value.toInt_lt 0
  rw [Int64.ofInt_toInt] at reads
  exact reads

theorem string_agrees {text : List Char} (c_string : ∀ c ∈ text, c.toNat ≠ 0) (depth : Nat) :
    Agrees DoubleToString StringToDouble pretty_print_ (.string (utf8 text)) depth := by
  obtain ⟨source,both,scans⟩ := quoted c_string
  refine .scalar rfl both fun short => ?_
  exact reads_string scans ⟨text,rfl,rfl⟩ ((length_quoted _).trans_lt short) 0

/-! ### Trees -/

theorem items_agree {value : Value} {list : List Value} {depth : Nat}
    (each : ∀ item ∈ value::list, Agrees DoubleToString StringToDouble pretty_print_ item depth)
    (short : (BuildItems DoubleToString pretty_print_ false (value::list) true depth).length < 2 ^ 31) :
    ∃ fuel w, Wide (BuildItems DoubleToString pretty_print_ false (value::list) true depth) w ∧
      ReadsItems StringToDouble fuel w (widenedItems (value::list)) (nestingItems (value::list)) := by
  induction list generalizing value with
  | nil =>
    have text : BuildItems DoubleToString pretty_print_ false [value] true depth =
        BuildJSONString DoubleToString pretty_print_ false value depth := by
      simp [BuildItems]
    rw [text] at short ⊢
    obtain ⟨fuel,w,both,reads⟩ := each value List.mem_cons_self short false nofun
    refine ⟨fuel + 2,w,both,?_⟩
    rw [nestingItems,nestingItems,Nat.max_zero]
    exact .last reads
  | cons next list ih =>
    have text : BuildItems DoubleToString pretty_print_ false (value::next::list) true depth =
        BuildJSONString DoubleToString pretty_print_ false value depth ++
          (ascii "," ++ (pretty pretty_print_ " " ++ BuildItems DoubleToString pretty_print_ false (next::list) true depth)) := by
      rw [BuildItems,BuildItems_later]
      simp
    rw [text] at short ⊢
    simp only [List.length_append] at short
    obtain ⟨fuel,w,both,reads⟩ := each value List.mem_cons_self (by omega) false nofun
    obtain ⟨others,more,written,following⟩ := ih (fun item member => each item (List.mem_cons_of_mem _ member)) (by omega)
    have comma : Wide (ascii ",") [44] := @Wide.literal (ascii ",") rfl
    obtain ⟨separates,blank⟩ := @pretty_blank pretty_print_ " " rfl
    exact ⟨_,w ++ 44::(_ ++ more),both.append (comma.append (separates.append written)),.cons reads blank following⟩

theorem list_agrees {list : List Value} {depth : Nat}
    (each : ∀ item ∈ list, Agrees DoubleToString StringToDouble pretty_print_ item depth) :
    Agrees DoubleToString StringToDouble pretty_print_ (.list list) depth := by
  intro short is_root _
  obtain ⟨spaces,blank⟩ := @pretty_blank pretty_print_ " " rfl
  have opens : Wide (ascii "[") [91] := @Wide.literal (ascii "[") rfl
  have closes : Wide (ascii "]") [93] := @Wide.literal (ascii "]") rfl
  rw [BuildJSONString] at short ⊢
  cases list with
  | nil =>
    refine ⟨2,91::((wide (pretty pretty_print_ " ") ++ wide (pretty pretty_print_ " ")) ++ [93]),?_,.list ?_ is_root⟩
    · have both := ((opens.append spaces).append spaces).append closes
      simp only [BuildItems,List.append_nil]
      simpa using both
    · intro rest reader _ more enough
      obtain ⟨n,rfl⟩ := Nat.exists_eq_add_of_le' enough
      have parsed := (@ParseToken_blank (93::rest) _ reader (blank_append blank blank) (solid_cons (by decide) rest)).trans
        (ParseToken_punctuation rfl rest)
      exact ⟨_,_,parsed,BuildList_end rfl ..⟩
  | cons value list =>
    simp only [List.length_append] at short
    obtain ⟨fuel,w,both,reads⟩ := items_agree each (by omega)
    refine ⟨fuel + 1,91::((wide (pretty pretty_print_ " ") ++ (w ++ wide (pretty pretty_print_ " "))) ++ [93]),?_,.list ?_ is_root⟩
    · have whole := (((opens.append spaces).append both).append spaces).append closes
      simpa using whole
    · intro rest reader room more enough
      obtain ⟨token,parsed,_,built⟩ := reads.items _ blank rest reader room more enough
      rw [List.append_assoc,List.append_assoc]
      exact ⟨token,_,(ParseToken_blank blank (reads.solid _)).trans parsed,built []⟩

/-- The text of an entry behind blanks, up to its value. -/
theorem entry_text {key : WString} (ascii_ : ∀ c ∈ key, 0 < c ∧ c < 128) (depth : Nat) :
    ∃ blanks source colon, Blank blanks ∧ Scans Ends source key ∧ Wide (WideToASCII key) key ∧ Blank colon ∧
      ∀ {bytes w}, Wide bytes w → Wide ((if pretty_print_ then IndentLine (depth + 1) else []) ++
        (AppendQuoteString (WideToASCII key) ++ ((if pretty_print_ then ascii ": " else ascii ":") ++ bytes)))
        (blanks ++ entryText source colon w) := by
  obtain ⟨text,c_string,bytes,units⟩ := key_text ascii_
  obtain ⟨source,quotes,scans⟩ := quoted c_string
  rw [bytes] at quotes
  rw [units] at scans
  obtain ⟨indents,blank⟩ := @blank_wide (if pretty_print_ then IndentLine (depth + 1) else []) (by
    cases pretty_print_ with
    | false => exact List.forall_mem_nil _
    | true => exact indent_blank _)
  obtain ⟨colon,both,space⟩ : ∃ colon, Wide (if pretty_print_ then ascii ": " else ascii ":") (58::colon) ∧ Blank colon := by
    cases pretty_print_ with
    | false => exact ⟨[],@Wide.literal (ascii ":") rfl,List.forall_mem_nil _⟩
    | true => exact ⟨[32],@Wide.literal (ascii ": ") rfl,List.forall_mem_singleton.mpr (.inl rfl)⟩
  refine ⟨_,source,colon,blank,scans,⟨text,bytes.symm,units.symm⟩,space,fun value => ?_⟩
  have whole := indents.append (quotes.append (both.append value))
  simpa [entryText,AppendQuoteString] using whole

/-- The first key stands behind blanks. -/
theorem entries_agree {entry : WString × Value} {dict : List (WString × Value)} {depth : Nat}
    (each : ∀ pair ∈ entry::dict, Agrees DoubleToString StringToDouble pretty_print_ pair.2 (depth + 1))
    (ascii_ : ∀ pair ∈ entry::dict, ∀ c ∈ pair.1, 0 < c ∧ c < 128)
    (sorted : (entry::dict).Pairwise fun entry later => entry.1 < later.1)
    (short : (BuildEntries DoubleToString pretty_print_ false (entry::dict) true depth).length < 2 ^ 31) :
    ∃ fuel blanks w, Wide (BuildEntries DoubleToString pretty_print_ false (entry::dict) true depth) (blanks ++ w) ∧ Blank blanks ∧
      ReadsEntries StringToDouble fuel w (widenedEntries (entry::dict)) (nestingEntries (entry::dict)) := by
  induction dict generalizing entry with
  | nil =>
    obtain ⟨key,value⟩ := entry
    obtain ⟨blanks,source,colon,indented,scans,named,space,written⟩ :=
      @entry_text pretty_print_ key (ascii_ (key,value) List.mem_cons_self) depth
    have text : BuildEntries DoubleToString pretty_print_ false [(key,value)] true depth =
        (if pretty_print_ then IndentLine (depth + 1) else []) ++ (AppendQuoteString (WideToASCII key) ++
          ((if pretty_print_ then ascii ": " else ascii ":") ++
            BuildJSONString DoubleToString pretty_print_ false value (depth + 1))) := by
      simp [BuildEntries]
    rw [text] at short ⊢
    simp only [List.length_append] at short
    have shorter : (WideToASCII key).length < 2 ^ 31 := (length_quoted _).trans_lt (by rw [AppendQuoteString] at short; omega)
    have agrees : Agrees DoubleToString StringToDouble pretty_print_ value (depth + 1) := each (key,value) List.mem_cons_self
    obtain ⟨fuel,w,both,reads⟩ := agrees (by omega) false nofun
    refine ⟨fuel + 2,blanks,_,written both,indented,?_⟩
    rw [nestingEntries,nestingEntries,Nat.max_zero]
    exact .last scans named shorter space reads
  | cons next dict ih =>
    obtain ⟨key,value⟩ := entry
    obtain ⟨blanks,source,colon,indented,scans,named,space,written⟩ :=
      @entry_text pretty_print_ key (ascii_ (key,value) List.mem_cons_self) depth
    have text : BuildEntries DoubleToString pretty_print_ false ((key,value)::next::dict) true depth =
        (if pretty_print_ then IndentLine (depth + 1) else []) ++ (AppendQuoteString (WideToASCII key) ++
          ((if pretty_print_ then ascii ": " else ascii ":") ++
            (BuildJSONString DoubleToString pretty_print_ false value (depth + 1) ++ (ascii "," ++ (pretty pretty_print_ "\n" ++
              BuildEntries DoubleToString pretty_print_ false (next::dict) true depth))))) := by
      rw [BuildEntries,BuildEntries_later]
      simp
    rw [text] at short ⊢
    simp only [List.length_append] at short
    have shorter : (WideToASCII key).length < 2 ^ 31 := (length_quoted _).trans_lt (by rw [AppendQuoteString] at short; omega)
    have agrees : Agrees DoubleToString StringToDouble pretty_print_ value (depth + 1) := each (key,value) List.mem_cons_self
    obtain ⟨fuel,w,both,reads⟩ := agrees (by omega) false nofun
    obtain ⟨others,spaces,more,further,blank,following⟩ := ih (fun entry member => each entry (List.mem_cons_of_mem _ member))
      (fun entry member => ascii_ entry (List.mem_cons_of_mem _ member)) sorted.of_cons (by omega)
    have comma : Wide (ascii ",") [44] := @Wide.literal (ascii ",") rfl
    obtain ⟨separates,line⟩ := @pretty_blank pretty_print_ "\n" rfl
    have whole := written (both.append (comma.append (separates.append further)))
    refine ⟨max fuel others + 1,blanks,entryText source colon (w ++ 44::((_ ++ spaces) ++ more)),?_,indented,
      .cons scans named shorter space reads (blank_append line blank) ?_ following⟩
    · simpa using whole
    · intro later listed
      obtain ⟨entry,member,same⟩ := List.mem_map.mp (widenedEntries_keys (next::dict) ▸ List.mem_map_of_mem listed)
      exact same ▸ List.rel_of_pairwise_cons sorted member

theorem dictionary_agrees {dict : List (WString × Value)} {depth : Nat}
    (each : ∀ entry ∈ dict, Agrees DoubleToString StringToDouble pretty_print_ entry.2 (depth + 1))
    (ascii_ : ∀ entry ∈ dict, ∀ c ∈ entry.1, 0 < c ∧ c < 128)
    (sorted : dict.Pairwise fun entry later => entry.1 < later.1) :
    Agrees DoubleToString StringToDouble pretty_print_ (.dictionary dict) depth := by
  intro short is_root _
  obtain ⟨line,blank⟩ := @pretty_blank pretty_print_ "\n" rfl
  obtain ⟨last,ending⟩ : ∃ ending, Wide (if pretty_print_ then ascii "\n" ++ IndentLine depth else []) ending ∧ Blank ending := by
    refine ⟨_,blank_wide ?_⟩
    cases pretty_print_ with
    | false => exact List.forall_mem_nil _
    | true => exact List.forall_mem_cons.mpr ⟨.inr rfl,indent_blank depth⟩
  have opens : Wide (ascii "\x7b") [123] := @Wide.literal (ascii "\x7b") rfl
  have closes : Wide (ascii "\x7d") [125] := @Wide.literal (ascii "\x7d") rfl
  rw [BuildJSONString] at short ⊢
  cases dict with
  | nil =>
    refine ⟨2,123::((wide (pretty pretty_print_ "\n") ++ last) ++ [125]),?_,.dictionary ?_ is_root⟩
    · have both := ((opens.append line).append ending.1).append closes
      simp only [BuildEntries,List.append_nil]
      simpa using both
    · intro rest reader _ more enough
      obtain ⟨n,rfl⟩ := Nat.exists_eq_add_of_le' enough
      have parsed := (@ParseToken_blank (125::rest) _ reader (blank_append blank ending.2) (solid_cons (by decide) rest)).trans
        (ParseToken_punctuation rfl rest)
      exact ⟨_,_,parsed,BuildDictionary_end rfl ..⟩
  | cons entry dict =>
    simp only [List.length_append] at short
    have shorter : (BuildEntries DoubleToString pretty_print_ false (entry::dict) true depth).length < 2 ^ 31 := by omega
    obtain ⟨fuel,blanks,w,both,indented,reads⟩ := entries_agree each ascii_ sorted shorter
    refine ⟨fuel + 1,123::((wide (pretty pretty_print_ "\n") ++ (blanks ++ (w ++ last))) ++ [125]),?_,.dictionary ?_ is_root⟩
    · have whole := (((opens.append line).append both).append ending.1).append closes
      simpa using whole
    · intro rest reader room more enough
      obtain ⟨token,parsed,_,built⟩ := reads.entries _ ending.2 rest reader room more enough
      have eaten := @ParseToken_blank _ _ reader (blank_append blank indented) (reads.solid (last ++ 125::rest))
      refine ⟨token,_,?_,built [] nofun⟩
      rw [← parsed,← eaten]
      simp

theorem plain_agrees {tree : Value} (plain : Plain tree) (depth : Nat) :
    Agrees DoubleToString StringToDouble pretty_print_ tree depth := by
  induction plain generalizing depth with
  | null => exact .scalar rfl (@Wide.literal (ascii "null") rfl) fun _ => reads_null 0
  | boolean value =>
    cases value with
    | true => exact .scalar rfl (@Wide.literal (ascii "true") rfl) fun _ => reads_boolean true 0
    | false => exact .scalar rfl (@Wide.literal (ascii "false") rfl) fun _ => reads_boolean false 0
  | integer value => exact integer_agrees value depth
  | bigInteger value => exact bigInteger_agrees value depth
  | string c_string => exact string_agrees c_string depth
  | list _ ih => exact list_agrees fun item member => ih item member depth
  | dictionary sorted ascii _ ih => exact dictionary_agrees (fun entry member => ih entry member (depth + 1)) ascii sorted

end Agree

/-! ### The writer and the reader -/

section RoundTrip
variable (DoubleToString : Float → List UInt8) (StringToDouble : List UInt8 → Option Float) (pretty_print_ : Bool)

/-- A new reader accepts the text written for the tree, up to the end, and gives the
tree back. -/
def RoundTrip (tree : Value) : Prop :=
  ∀ reader : Reader, reader.stack_depth_ = 0 →
    reader.pos_ = UTF8ToWide (BuildJSONString DoubleToString pretty_print_ false tree 0) →
      ∃ fuel, ∀ more ≥ fuel, ∃ last : Reader,
        BuildValue StringToDouble more true reader = some (some (widened tree),last) ∧ (ParseToken last).1.type = .endOfInput

theorem writer_reader_agree {tree : Value} (plain : Plain tree) (root : tree.isRoot = true) (nested : nesting tree < kStackLimit)
    (short : (BuildJSONString DoubleToString pretty_print_ false tree 0).length < 2 ^ 31) :
    RoundTrip DoubleToString StringToDouble pretty_print_ tree := by
  intro reader fresh pos
  obtain ⟨fuel,w,both,reads⟩ := plain_agrees plain 0 short true fun _ => root
  have ends : Delimited [] := ⟨by decide,by decide,by decide,by decide⟩
  have starts : reader = reader.seek (w ++ []) := by
    rw [List.append_nil,← both.UTF8ToWide_eq short,← pos]
    rfl
  refine ⟨fuel,fun more enough => ⟨reader.seek [],?_,rfl⟩⟩
  rw [starts]
  exact reads.value ends reader (by omega) more enough

end RoundTrip

/-- A list of a dictionary, whose only string needs quoting and two code units. -/
def quotingTree : Value := .list [.dictionary [([97],.string (utf8 ['"','😀']))],.fundamental (.integer 5)]

theorem quotingTree_agree : RoundTrip (fun _ => []) (fun _ => none) true quotingTree := by
  refine writer_reader_agree _ _ true (.list (List.forall_mem_cons.mpr ⟨?_,List.forall_mem_singleton.mpr (.integer 5)⟩)) rfl (by decide) (by decide)
  refine .dictionary (List.pairwise_singleton ..) (by decide) (List.forall_mem_singleton.mpr (.string ?_))
  exact List.forall_mem_cons.mpr ⟨by decide,List.forall_mem_singleton.mpr (by decide)⟩

/-- A new reader of a text. -/
def readerOf (pos : WString) : Reader := ⟨pos,pos,0,true,.noError,0,0⟩

theorem not_roundTrip {DoubleToString : Float → List UInt8} {StringToDouble : List UInt8 → Option Float} {pretty_print_ : Bool}
    {tree : Value} {pos : WString} (wide : UTF8ToWide (BuildJSONString DoubleToString pretty_print_ false tree 0) = pos)
    (fails : ∀ n, ∃ last, BuildValue StringToDouble (n + 2) true (readerOf pos) = some (none,last)) :
    ¬RoundTrip DoubleToString StringToDouble pretty_print_ tree := by
  intro both
  obtain ⟨fuel,reads⟩ := both (readerOf pos) rfl wide.symm
  obtain ⟨last,built,_⟩ := reads (fuel + 2) (Nat.le_add_right ..)
  obtain ⟨other,rejected⟩ := fails fuel
  cases built.symm.trans rejected

theorem length_long (n : Nat) : (BuildJSONString (fun _ => []) false false (.list [.string (utf8 (List.replicate n 'a'))]) 0).length = n + 4 := by
  have letters (n : Nat) : (utf8 (List.replicate n 'a')).flatMap escaped = List.replicate n 97 := by
    induction n with
    | zero => rfl
    | succ n ih =>
      rw [utf8] at ih ⊢
      rw [List.replicate_succ,List.flatMap_cons,List.flatMap_append,ih]
      rfl
  have text : BuildJSONString (fun _ => []) false false (.list [.string (utf8 (List.replicate n 'a'))]) 0 =
      [91] ++ ([34] ++ (utf8 (List.replicate n 'a')).flatMap escaped ++ [34]) ++ [93] := by
    simp [BuildJSONString,BuildItems,pretty,JsonDoubleQuote,ascii]
  rw [text,letters]
  simp

/-- A scalar is no root, a NUL ends the text, and a text of 2³² bytes is read as empty. -/
theorem writer_reader_disagree : ¬RoundTrip (fun _ => []) (fun _ => none) false .null ∧
    ¬RoundTrip (fun _ => []) (fun _ => none) false (.dictionary [([0],.null)]) ∧
    ¬RoundTrip (fun _ => []) (fun _ => none) false (.list [.string (utf8 (List.replicate (2 ^ 32 - 4) 'a'))]) := by
  refine ⟨not_roundTrip rfl fun _ => ⟨_,rfl⟩,not_roundTrip rfl fun _ => ⟨_,rfl⟩,@not_roundTrip _ _ _ _ [] ?_ fun _ => ⟨_,rfl⟩⟩
  have length := length_long (2 ^ 32 - 4)
  rw [Nat.sub_add_cancel (by decide)] at length
  have none_ : (Int32.ofNat (2 ^ 32)).toInt.toNat = 0 := by decide
  rw [UTF8ToWide,ConverUnicode,length,none_]
  rfl

end JsonValueSerializer
end Migfm.Logic
