import Migfm.Logic.HttpKinds
import Migfm.Recv.CommHead

/-! What the accessors of a request are to return of the pairs of a form, and for which
pairs each kind of field does. -/
namespace Migfm.Recv
open Logic Public Logic.HttpValueSerializer

/-! ### Requests -/

/-- What an accessor returns; a member of a union that is not in use is unset. -/
inductive Result
  | number (n : Int)
  | text (bytes : List UInt8)
  | unset

/-- The number of the parameter, or its text without the URL's encoding. -/
def Result.Of (value : List Char) : Result → Prop
  | number n => Numeral value n
  | text bytes => bytes = decoded (utf8 value)
  | unset => True

/-- How a field is read. -/
inductive Kind
  | big
  | int
  | plain
  | decoded
  | nickname
  | song
  | session
  | union
  deriving DecidableEq

/-- The parameter of an accessor is the first of its names that there is. -/
structure Accessor (Object : Type) where
  parameters : List String
  needed : Bool
  kind : Kind
  result : Object → Result

structure Request where
  Object : Type
  Init : (String → Int64) → ValueMap Value → Object
  GetResult : Object → Int32
  accessors : List (Accessor Object)

def Accessor.own {Object : Type} (accessor : Accessor Object) (values : String → Option (List Char)) : Option (List Char) :=
  accessor.parameters.findSome? values

def Request.Complete (request : Request) (values : String → Option (List Char)) : Prop :=
  ∀ accessor ∈ request.accessors, accessor.needed → (accessor.own values).isSome

/-- Of a complete form a request is made, without an error, whose accessors return what
the parameters say; a form that lacks a field makes an error. -/
def Request.Decodes (request : Request) (StringToDouble : List UInt8 → Option Float) (pairs : List Pair) (terminator : UInt8) : Prop :=
  (request.Complete (parameter pairs) →
    ∃ dict, Makes StringToDouble (ended pairs terminator) (some (.dictionary dict)) ∧ ∀ rubbish,
      request.GetResult (request.Init rubbish dict) = 0 ∧
      ∀ accessor ∈ request.accessors, ∀ value, accessor.own (parameter pairs) = some value →
        (accessor.result (request.Init rubbish dict)).Of value) ∧
  (¬request.Complete (parameter pairs) →
    ∀ dict, Makes StringToDouble (ended pairs terminator) (some (.dictionary dict)) → ∀ rubbish,
      request.GetResult (request.Init rubbish dict) ≠ 0)

/-! ### Values that are decoded right -/

def Integer (value : List Char) : Prop := ∃ n, IntegerText value n

def Integer32 (value : List Char) : Prop := ∃ n, IntegerText value n ∧ -2 ^ 31 ≤ n.toInt ∧ n.toInt < 2 ^ 31

/-- A text that needs no decoding. -/
def Plain (value : List Char) : Prop := StringText value ∧ decoded (utf8 value) = utf8 value

/-- A text that has no end in it once it is decoded. -/
def Decodable (value : List Char) : Prop := StringText value ∧ 0 ∉ decoded (utf8 value)

def Number (value : List Char) : Prop := Integer value ∧ value ≠ ['-','0']

/-- The source as the login stores it. -/
def Source (values : String → Option (List Char)) (source : Int32) : Prop :=
  ∃ value n, values "source" = some value ∧ IntegerText value n ∧ n.toInt32 = source

/-- The session is a number or a text with the source. -/
def SessionRight (values : String → Option (List Char)) (value : List Char) : Prop :=
  ∀ source, Source values source →
    (source = PLAT_WB → Number value) ∧
    (source = PLAT_WX ∨ source = PLAT_QQ → Plain value) ∧
    (source ≠ PLAT_WB → source ≠ PLAT_WX → source ≠ PLAT_QQ → value = [] ∧ ∃ plat, values "plat" = some plat ∧ Integer plat)

def Kind.Right (values : String → Option (List Char)) (value : List Char) : Kind → Prop
  | big => Integer value
  | int => Integer32 value
  | plain => Plain value
  | decoded => Decodable value
  | nickname => Number value ∨ Decodable value
  | song => value = []
  | session => SessionRight values value
  | union => True

/-- The form is read to its end. -/
def Read (StringToDouble : List UInt8 → Option Float) (pairs : List Pair) : Prop :=
  (∀ pair ∈ pairs, pair.key ≠ [] ∧ Word pair.key ∧ Readable StringToDouble pair.value) ∧ Shallow 1 pairs

def Request.Right (request : Request) (StringToDouble : List UInt8 → Option Float) (pairs : List Pair) : Prop :=
  request.Complete (parameter pairs) → Read StringToDouble pairs ∧
    ∀ accessor ∈ request.accessors, ∀ value, accessor.own (parameter pairs) = some value →
      accessor.kind.Right (parameter pairs) value

/-! ### What the getters find -/

variable {StringToDouble : List UInt8 → Option Float} {values : String → Option (List Char)} {m_ : ValueMap Value}

/-- The dictionary of a form whose parameters are the values. -/
structure Known (StringToDouble : List UInt8 → Option Float) (values : String → Option (List Char)) (m_ : ValueMap Value) : Prop where
  found (name : String) : Found StringToDouble (values name) (m_.find (utf16 name.toList))
  plain {name : String} {value : List Char} : values name = some value → ∀ c ∈ value, c ∉ reserved
  short {name : String} {value : List Char} : values name = some value → (utf8 value).length < 2 ^ 31

def Ascii (name : String) : Prop := (name.toList.all fun c => c.toNat < 128) = true

instance (name : String) : Decidable (Ascii name) := inferInstanceAs (Decidable (_ = true))

theorem Ascii.key {name : String} (ascii : Ascii name) : key name = utf16 name.toList := by
  have each : ∀ c ∈ name.toList, c.toNat < 128 := fun c listed => of_decide_eq_true (List.all_eq_true.mp ascii c listed)
  exact (ascii_text each).2.symm

/-- A getter finds what the value of the name is the text of. -/
def Finds {α : Type} (get : String → Option α) (values : String → Option (List Char)) (Text : List Char → α → Prop) : Prop :=
  ∀ name, Ascii name → ∀ x, get name = some x ↔ ∃ value, values name = some value ∧ Text value x

/-- Behind a getter there is a node. -/
theorem Known.finds {α : Type} {get : String → Option α} {Text : List Char → α → Prop} {node : α → Value}
    (known : Known StringToDouble values m_)
    (getter : ∀ name x, get name = some x ↔ m_.find (key name) = some (node x))
    (text : ∀ value, (∀ c ∈ value, c ∉ reserved) → (utf8 value).length < 2 ^ 31 → ∀ x, NodeOf StringToDouble value (node x) ↔ Text value x) :
    Finds get values Text := by
  intro name ascii x
  have found := known.found name
  rw [getter,ascii.key]
  cases own : values name with
  | none =>
    rw [own] at found
    have nothing : m_.find (utf16 name.toList) = none := found
    rw [nothing]
    exact ⟨nofun,nofun⟩
  | some value =>
    rw [own] at found
    obtain ⟨here,same,read⟩ := found
    rw [same]
    constructor
    · intro node
      cases node
      exact ⟨value,rfl,(text value (known.plain own) (known.short own) x).mp read⟩
    · intro ⟨other,rest,texts⟩
      cases rest
      rw [read.unique ((text value (known.plain own) (known.short own) x).mpr texts)]

theorem Known.big (known : Known StringToDouble values m_) : Finds (GetBigInteger m_) values IntegerText := by
  refine @Known.finds _ _ _ _ _ _ (fun n => .fundamental (.bigInteger n)) known (fun name n => ?_) fun value plain short n =>
    integer_iff plain short n
  rw [GetBigInteger]
  split
  · rename_i value found
    rw [found]
    simp
  · rename_i other
    exact iff_of_false (fun none_ => by cases none_) (other n)

theorem Known.string (known : Known StringToDouble values m_) :
    Finds (GetString m_) values fun value s => StringText value ∧ s = utf8 value := by
  refine @Known.finds _ _ _ _ _ _ Value.string known (fun name s => ?_) fun value plain short s => string_iff plain short s
  rw [GetString]
  split
  · rename_i value found
    rw [found]
    simp
  · rename_i other
    exact iff_of_false (fun none_ => by cases none_) (other s)

section First
variable {α : Type} {get : String → Option α} {Text : List Char → α → Prop} (finds : Finds get values Text) {names : List String}
  (ascii : ∀ name ∈ names, Ascii name) {value : List Char}
include finds ascii

/-- What the first name gives that has a value, by induction on the names. -/
theorem Finds.first (own : names.findSome? values = some value) {x : α} (text : Text value x) : names.findSome? get = some x := by
  induction names with
  | nil => cases own
  | cons name names ih =>
    obtain ⟨here,later⟩ := List.forall_mem_cons.mp ascii
    rw [List.findSome?_cons] at own ⊢
    cases mine : values name with
    | some other =>
      rw [mine] at own
      cases own
      rw [(finds name here x).mpr ⟨value,mine,text⟩]
    | none =>
      rw [mine] at own
      cases nothing : get name with
      | none => exact ih later own
      | some y =>
        obtain ⟨other,same,-⟩ := (finds name here y).mp nothing
        rw [mine] at same
        cases same

theorem Finds.source {x : α} (got : names.findSome? get = some x) : ∃ name ∈ names, ∃ other, values name = some other ∧ Text other x := by
  obtain ⟨name,listed,found⟩ := List.exists_of_findSome?_eq_some got
  exact ⟨name,listed,(finds name (ascii name listed) x).mp found⟩

end First

/-! ### Kinds of fields -/

section Numbers
variable {names : List String} (ascii : ∀ name ∈ names, Ascii name) {value : List Char} (known : Known StringToDouble values m_)
  (own : names.findSome? values = some value)
include ascii known own

theorem Known.integer_read (integer : Integer value) (default : Int64) :
    Numeral value ((names.findSome? (GetBigInteger m_)).getD default).toInt := by
  obtain ⟨n,text⟩ := integer
  rw [known.big.first ascii own text]
  exact text.2

omit own in
/-- Where nothing is read a small number is left, whose text would have been read. -/
theorem Known.integer_right {default : Int64} (small : -10 ^ 18 < default.toInt ∧ default.toInt < 10 ^ 18)
    (numeral : Numeral value ((names.findSome? (GetBigInteger m_)).getD default).toInt) : Integer value := by
  refine ⟨_,?_,numeral⟩
  cases got : names.findSome? (GetBigInteger m_) with
  | none =>
    rw [got] at numeral
    exact numeral.bounded small.1 small.2
  | some n =>
    rw [got] at numeral
    obtain ⟨name,listed,other,-,length,also⟩ := known.big.source ascii got
    exact numeral.short also length

theorem Known.integer32_or (default : Int64) :
    Numeral value ((names.findSome? (GetBigInteger m_)).getD default).toInt32.toInt ↔ Integer32 value := by
  constructor
  · intro numeral
    have low := ((names.findSome? (GetBigInteger m_)).getD default).toInt32.le_toInt
    have high := ((names.findSome? (GetBigInteger m_)).getD default).toInt32.toInt_lt
    generalize ((names.findSome? (GetBigInteger m_)).getD default).toInt32 = n at numeral low high
    refine ⟨n.toInt64,⟨numeral.bounded (by omega) (by omega),?_⟩,?_⟩
    · rw [Int32.toInt_toInt64]
      exact numeral
    · rw [Int32.toInt_toInt64]
      exact ⟨low,high⟩
  · rintro ⟨n,text,low,high⟩
    have same : n.toInt32.toInt = n.toInt := by
      rw [Int64.toInt_toInt32]
      exact Int.bmod_eq_of_le (by omega) (by omega)
    rw [known.big.first ascii own text,Option.getD_some,same]
    exact text.2

end Numbers

section Texts
variable {value : List Char} (plain : ∀ c ∈ value, c ∉ reserved)
include plain

theorem not_ended : 0 ∉ utf8 value := by
  intro zero
  rcases utf8_byte zero with high | ⟨c,listed,same⟩
  · exact absurd high (by decide)
  · have nul : c = '\x00' := Char.toNat_inj.mp same.symm
    exact plain c listed (nul ▸ by decide)

theorem no_blank : 32 ∉ utf8 value := by
  intro blank
  rcases utf8_byte blank with high | ⟨c,listed,same⟩
  · exact absurd high (by decide)
  · have space : c = ' ' := Char.toNat_inj.mp same.symm
    exact plain c listed (space ▸ by decide)

end Texts

theorem utf8_nil {value : List Char} (empty : utf8 value = []) : value = [] := by
  cases value with
  | nil => rfl
  | cons c value =>
    rw [utf8_cons] at empty
    exact absurd (List.append_eq_nil_iff.mp empty).1 (utf8EncodeChar_ne_nil c)

section Others
variable {value other : List Char} (readable : Readable StringToDouble value) (none_ : ¬StringText value)
include readable none_

theorem no_percent : 37 ∉ utf8 value := by
  intro percent
  obtain ⟨-,each⟩ := readable.other none_
  rcases utf8_byte percent with high | ⟨c,listed,same⟩
  · exact absurd high (by decide)
  · exact (each c listed).1 (Char.toNat_inj.mp same.symm)

/-- What is no string is no other string decoded. -/
theorem other_text (short : (utf8 value).length < 2 ^ 31) (text : StringText other) (plain : ∀ c ∈ other, c ∉ reserved) :
    utf8 other ≠ decoded (utf8 value) := by
  intro same
  have percent := no_percent readable none_
  by_cases plus : 43 ∈ utf8 value
  · exact no_blank plain (same ▸ blank_decoded plus percent)
  · rw [decoded_same plus percent] at same
    exact none_ (utf8_injective short same.symm ▸ text)

theorem other_bytes {bytes : List UInt8} (high : ∀ byte, bytes.head? = some byte → 128 ≤ byte.toNat) :
    bytes ≠ decoded (utf8 value) := by
  intro same
  obtain ⟨some_,each⟩ := readable.other none_
  obtain ⟨c,rest,rfl⟩ := List.exists_cons_of_ne_nil some_
  have ascii : String.utf8EncodeChar c = [c.toNat.toUInt8] := by
    have whole : ∀ first ∈ [c], first.toNat < 128 := List.forall_mem_singleton.mpr (each c List.mem_cons_self).2
    have bytes := (ascii_text whole).1
    rw [utf8_cons] at bytes
    simpa [utf8] using bytes
  rw [utf8_cons,ascii,List.singleton_append] at same
  have small := (each c List.mem_cons_self).2
  have percent : c.toNat.toUInt8 ≠ 37 := by
    intro here
    apply no_percent readable none_
    rw [utf8_cons,ascii,here]
    exact List.mem_cons_self
  have head := decoded_head percent (utf8 rest)
  rw [← same] at head
  have beyond := high _ head
  split at beyond
  · exact absurd beyond (by decide)
  · rw [Nat.toUInt8,UInt8.toNat_ofNat'] at beyond
    omega

end Others

section Strings
variable {names : List String} (ascii : ∀ name ∈ names, Ascii name) {value : List Char} (known : Known StringToDouble values m_)
  (own : names.findSome? values = some value)

include known in
theorem Known.readable {name : String} {value : List Char} (mine : values name = some value) : Readable StringToDouble value := by
  have found := known.found name
  rw [mine] at found
  obtain ⟨node,-,read⟩ := found
  exact read.readable (known.plain mine)

include own in
theorem own_value : ∃ name ∈ names, values name = some value := List.exists_of_findSome?_eq_some own

include ascii known own

theorem Known.plain_or : (names.findSome? (GetString m_)).getD [] = decoded (utf8 value) ↔ Plain value := by
  obtain ⟨mine,-,here⟩ := own_value own
  by_cases text : StringText value
  · rw [known.string.first ascii own ⟨text,rfl⟩,Option.getD_some,Plain,eq_comm]
    exact (and_iff_right text).symm
  · apply iff_of_false
    · cases got : names.findSome? (GetString m_) with
      | none => exact other_bytes (known.readable here) text nofun
      | some s =>
        obtain ⟨name,-,other,there,also,rfl⟩ := known.string.source ascii got
        exact other_text (known.readable here) text (known.short here) also (known.plain there)
    · exact fun right => text right.1

end Strings

theorem not_negative_zero (n : Int) : decimal n ≠ [45,48] := by
  intro same
  rw [decimal] at same
  split at same
  · rename_i negative
    have back := denoted_decimalDigits n.natAbs
    rw [(List.cons.inj same).2] at back
    change 0 = n.natAbs at back
    omega
  · have digit := isDigit_decimalDigits n.natAbs 45 (same ▸ List.mem_cons_self)
    cases digit

/-- The text of an integer is its own decoding, but for the negative zero. -/
theorem decimal_iff {n : Int} {value : List Char} (numeral : Numeral value n) : decimal n = decoded (utf8 value) ↔ value ≠ ['-','0'] := by
  rcases numeral with rfl | ⟨rfl,rfl⟩
  · have bytes : ∀ byte ∈ decimal n, byte ≠ 43 ∧ byte ≠ 37 := by
      intro byte listed
      rw [decimal] at listed
      have digits : ∀ byte ∈ decimalDigits n.natAbs, byte ≠ 43 ∧ byte ≠ 37 := by
        intro byte inside
        have digit := isDigit_decimalDigits n.natAbs byte inside
        constructor
        · rintro rfl
          cases digit
        · rintro rfl
          cases digit
      split at listed
      · rcases List.mem_cons.mp listed with rfl | inside
        · decide
        · exact digits byte inside
      · exact digits byte listed
    rw [canonical_decimal,decoded_same (fun plus => (bytes 43 plus).1 rfl) fun percent => (bytes 37 percent).2 rfl]
    refine iff_of_true rfl fun zero => not_negative_zero n ?_
    rw [← canonical_decimal,zero]
    rfl
  · apply iff_of_false
    · decide
    · exact fun other => other rfl

section Single
variable {name : String} (ascii : Ascii name) (known : Known StringToDouble values m_) {value : List Char} (own : values name = some value)
include ascii known own

theorem Known.string_text (text : StringText value) : GetString m_ name = some (utf8 value) :=
  (known.string name ascii _).mpr ⟨value,own,text,rfl⟩

theorem Known.string_none (other : ¬StringText value) : GetString m_ name = none := by
  cases got : GetString m_ name with
  | none => rfl
  | some s =>
    obtain ⟨same,here,text,-⟩ := (known.string name ascii s).mp got
    rw [own] at here
    cases here
    exact absurd text other

/-- A text is decoded, or there is a default that no decoded parameter is. -/
theorem Known.decoded_or {default : List UInt8} (high : ∀ byte, default.head? = some byte → 128 ≤ byte.toNat) :
    ((GetString m_ name).map UrlDecode).getD default = decoded (utf8 value) ↔ Decodable value := by
  by_cases text : StringText value
  · rw [known.string_text ascii own text,Option.map_some,Option.getD_some,UrlDecode_iff (not_ended (known.plain own)),Decodable]
    exact (and_iff_right text).symm
  · rw [known.string_none ascii own text]
    exact iff_of_false (other_bytes (known.readable own) text high) fun right => text right.1

/-- The decoded name is always empty. -/
theorem Known.song_or {default : List UInt8} (high : ∀ byte, default.head? = some byte → 128 ≤ byte.toNat) :
    ((GetString m_ name).map fun _ => UrlDecode []).getD default = decoded (utf8 value) ↔ value = [] := by
  by_cases text : StringText value
  · rw [known.string_text ascii own text,Option.map_some,Option.getD_some]
    change [] = decoded (utf8 value) ↔ value = []
    rw [eq_comm,decoded_nil]
    exact ⟨utf8_nil,fun empty => empty ▸ rfl⟩
  · rw [known.string_none ascii own text]
    apply iff_of_false (other_bytes (known.readable own) text high)
    rintro rfl
    exact text StringText.empty

theorem Known.big_text {n : Int64} (text : IntegerText value n) : GetBigInteger m_ name = some n :=
  (known.big name ascii _).mpr ⟨value,own,text⟩

theorem Known.big_none (other : ¬Integer value) : GetBigInteger m_ name = none := by
  cases got : GetBigInteger m_ name with
  | none => rfl
  | some n =>
    obtain ⟨same,here,text⟩ := (known.big name ascii n).mp got
    rw [own] at here
    cases here
    exact absurd ⟨n,text⟩ other

/-- One name has one node. -/
theorem Known.not_text (integer : Integer value) : ¬StringText value := by
  intro text
  obtain ⟨n,number⟩ := integer
  have big := known.big_text ascii own number
  have string := known.string_text ascii own text
  rw [GetBigInteger] at big
  rw [GetString] at string
  split at big
  · rename_i found
    rw [found] at string
    cases string
  · cases big

theorem Known.nickname_or (same : name = "nickname") :
    (nickname m_).getD [] = decoded (utf8 value) ↔ Number value ∨ Decodable value := by
  subst same
  rw [nickname]
  by_cases integer : Integer value
  · obtain ⟨n,text⟩ := integer
    rw [known.big_text ascii own text]
    change decimal n.toInt = decoded (utf8 value) ↔ _
    rw [decimal_iff text.2,Number,and_iff_right ⟨n,text⟩]
    exact (or_iff_left fun right => known.not_text ascii own ⟨n,text⟩ right.1).symm
  · rw [known.big_none ascii own integer]
    have decodes : ((GetString m_ "nickname").map UrlDecode).getD [] = decoded (utf8 value) ↔ Decodable value :=
      known.decoded_or ascii own nofun
    exact decodes.trans (or_iff_right fun right => integer right.1).symm

theorem Known.nickname_read (same : name = "nickname") : (nickname m_).isSome ↔ Integer value ∨ StringText value := by
  subst same
  rw [nickname]
  by_cases integer : Integer value
  · obtain ⟨n,text⟩ := integer
    rw [known.big_text ascii own text]
    exact iff_of_true rfl (.inl ⟨n,text⟩)
  · rw [known.big_none ascii own integer]
    by_cases text : StringText value
    · rw [known.string_text ascii own text]
      exact iff_of_true rfl (.inr text)
    · rw [known.string_none ascii own text]
      exact iff_of_false nofun fun either => either.elim integer text

end Single

end Migfm.Recv
