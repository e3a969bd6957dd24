import Migfm.Recv.Fields

/-! Which forms the request classes decode. -/
namespace Migfm.Recv
open Logic Public Logic.HttpValueSerializer

variable {StringToDouble : List UInt8 → Option Float} {values : String → Option (List Char)} {m_ : ValueMap Value}

/-! ### Fields of one name -/

section Field
variable {Object : Type} (name : String) (needed : Bool)

def bigField (get : Object → Int64) : Accessor Object := ⟨[name],needed,.big,fun object => .number (get object).toInt⟩

def intField (get : Object → Int32) : Accessor Object := ⟨[name],needed,.int,fun object => .number (get object).toInt⟩

def textField (kind : Kind) (get : Object → List UInt8) : Accessor Object := ⟨[name],needed,kind,fun object => .text (get object)⟩

end Field

section Exact
variable {Object : Type} {Init : (String → Int64) → ValueMap Value → Object} {name : String} {needed : Bool}

/-- The accessor returns what it is to exactly for the values of its kind. -/
def Exact (Init : (String → Int64) → ValueMap Value → Object) (accessor : Accessor Object) : Prop :=
  (∀ name ∈ accessor.parameters, Ascii name) → ∀ StringToDouble values m_, Known StringToDouble values m_ →
    ∀ value, accessor.own values = some value →
      ((∀ rubbish, (accessor.result (Init rubbish m_)).Of value) ↔ accessor.kind.Right values value)

theorem own_single {value : List Char} : [name].findSome? values = some value ↔ values name = some value := by
  rw [List.findSome?_singleton]

theorem big_exact {names : List String} {get : Object → Int64} {default : (String → Int64) → Int64}
    (reads : ∀ rubbish m_, get (Init rubbish m_) = (names.findSome? (GetBigInteger m_)).getD (default rubbish))
    (small : -10 ^ 18 < (default fun _ => 0).toInt ∧ (default fun _ => 0).toInt < 10 ^ 18) :
    Exact Init ⟨names,needed,.big,fun object => .number (get object).toInt⟩ := by
  intro ascii StringToDouble values m_ known value own
  constructor
  · intro returns
    have zero : Numeral value (get (Init (fun _ => 0) m_)).toInt := returns fun _ => 0
    rw [reads] at zero
    exact known.integer_right ascii small zero
  · intro integer rubbish
    change Numeral value (get (Init rubbish m_)).toInt
    rw [reads]
    exact known.integer_read ascii own integer _

theorem bigField_exact {get : Object → Int64} {default : (String → Int64) → Int64}
    (reads : ∀ rubbish m_, get (Init rubbish m_) = (GetBigInteger m_ name).getD (default rubbish))
    (small : -10 ^ 18 < (default fun _ => 0).toInt ∧ (default fun _ => 0).toInt < 10 ^ 18) : Exact Init (bigField name needed get) := by
  apply big_exact _ small
  intro rubbish m_
  rw [reads,List.findSome?_singleton]

theorem intField_exact {get : Object → Int32} {default : (String → Int64) → Int64}
    (reads : ∀ rubbish m_, get (Init rubbish m_) = ((GetBigInteger m_ name).getD (default rubbish)).toInt32) :
    Exact Init (intField name needed get) := by
  intro ascii StringToDouble values m_ known value own
  have iff (rubbish : String → Int64) : Numeral value (get (Init rubbish m_)).toInt ↔ Integer32 value := by
    have whole := known.integer32_or ascii own (default rubbish)
    change Numeral value (([name].findSome? (GetBigInteger m_)).getD (default rubbish)).toInt32.toInt ↔ _ at whole
    rwa [List.findSome?_singleton,← reads] at whole
  exact ⟨fun returns => (iff fun _ => 0).mp (returns fun _ => 0),fun right rubbish => (iff rubbish).mpr right⟩

theorem plain_exact {names : List String} {get : Object → List UInt8}
    (reads : ∀ rubbish m_, get (Init rubbish m_) = (names.findSome? (GetString m_)).getD []) :
    Exact Init ⟨names,needed,.plain,fun object => .text (get object)⟩ := by
  intro ascii StringToDouble values m_ known value own
  have iff (rubbish : String → Int64) : get (Init rubbish m_) = decoded (utf8 value) ↔ Plain value := by
    rw [reads]
    exact known.plain_or ascii own
  exact ⟨fun returns => (iff fun _ => 0).mp (returns fun _ => 0),fun right rubbish => (iff rubbish).mpr right⟩

theorem plainField_exact {get : Object → List UInt8} (reads : ∀ rubbish m_, get (Init rubbish m_) = (GetString m_ name).getD []) :
    Exact Init (textField name needed .plain get) := by
  apply plain_exact
  intro rubbish m_
  rw [reads,List.findSome?_singleton]

/-- A text of one name, whatever is made of it. -/
theorem textField_exact {kind : Kind} {get : Object → List UInt8} {made : ValueMap Value → List UInt8}
    (reads : ∀ rubbish m_, get (Init rubbish m_) = made m_)
    (right : Ascii name → ∀ StringToDouble values m_, Known StringToDouble values m_ → ∀ value, values name = some value →
      (made m_ = decoded (utf8 value) ↔ kind.Right values value)) : Exact Init (textField name needed kind get) := by
  intro ascii StringToDouble values m_ known value own
  have iff (rubbish : String → Int64) : get (Init rubbish m_) = decoded (utf8 value) ↔ kind.Right values value := by
    rw [reads]
    exact right (ascii name List.mem_cons_self) StringToDouble values m_ known value (own_single.mp own)
  exact ⟨fun returns => (iff fun _ => 0).mp (returns fun _ => 0),fun right rubbish => (iff rubbish).mpr right⟩

theorem decodedField_exact {get : Object → List UInt8} {default : List UInt8}
    (reads : ∀ rubbish m_, get (Init rubbish m_) = ((GetString m_ name).map UrlDecode).getD default)
    (high : ∀ byte, default.head? = some byte → 128 ≤ byte.toNat) : Exact Init (textField name needed .decoded get) :=
  textField_exact reads fun ascii _ _ _ known _ own => known.decoded_or ascii own high

theorem nicknameField_exact {get : Object → List UInt8} (reads : ∀ rubbish m_, get (Init rubbish m_) = (nickname m_).getD []) :
    Exact Init (textField "nickname" needed .nickname get) :=
  textField_exact reads fun ascii _ _ _ known _ own => known.nickname_or ascii own rfl

theorem songField_exact {get : Object → List UInt8} {default : List UInt8}
    (reads : ∀ rubbish m_, get (Init rubbish m_) = ((GetString m_ name).map fun _ => UrlDecode []).getD default)
    (high : ∀ byte, default.head? = some byte → 128 ≤ byte.toNat) : Exact Init (textField name needed .song get) :=
  textField_exact reads fun ascii _ _ _ known _ own => known.song_or ascii own high

end Exact

/-! ### Requests -/

/-- What has to be shown of a request over any dictionary whose parameters are known; the
forms are those that lack a field and are silently taken. -/
structure Lawful (request : Request) (Silent : (String → Option (List Char)) → Prop) : Prop where
  forward : ∀ {StringToDouble values m_}, Known StringToDouble values m_ → (∀ rubbish,
      request.GetResult (request.Init rubbish m_) = 0 ∧
      ∀ accessor ∈ request.accessors, ∀ value, accessor.own values = some value → (accessor.result (request.Init rubbish m_)).Of value) →
    ∀ accessor ∈ request.accessors, ∀ value, accessor.own values = some value → accessor.kind.Right values value
  backward : ∀ {StringToDouble values m_}, Known StringToDouble values m_ → request.Complete values →
    (∀ accessor ∈ request.accessors, ∀ value, accessor.own values = some value → accessor.kind.Right values value) → ∀ rubbish,
      request.GetResult (request.Init rubbish m_) = 0 ∧
      ∀ accessor ∈ request.accessors, ∀ value, accessor.own values = some value → (accessor.result (request.Init rubbish m_)).Of value
  missing : ∀ {StringToDouble values m_}, Known StringToDouble values m_ → ¬request.Complete values →
    ((∀ rubbish, request.GetResult (request.Init rubbish m_) ≠ 0) ↔ ¬Silent values)

theorem parameter_mem {pairs : List Pair} {name : String} {value : List Char} (own : parameter pairs name = some value) :
    ∃ pair ∈ pairs, pair.value = value := by
  induction pairs with
  | nil => cases own
  | cons pair pairs ih =>
    rw [parameter] at own
    rcases Option.or_eq_some_iff.mp own with later | ⟨-,here⟩
    · obtain ⟨other,listed,same⟩ := ih later
      exact ⟨other,List.mem_cons_of_mem _ listed,same⟩
    · split at here
      · cases here
        exact ⟨pair,List.mem_cons_self,rfl⟩
      · cases here

theorem length_value {pairs : List Pair} {pair : Pair} (listed : pair ∈ pairs) :
    (utf8 pair.value).length ≤ (utf8 (formOf pairs)).length := by
  induction pairs with
  | nil => cases listed
  | cons first pairs ih =>
    obtain ⟨parts,tail⟩ := length_formOf first pairs
    rcases List.mem_cons.mp listed with rfl | later
    · omega
    · exact (ih later).trans tail

section Form
variable {pairs : List Pair} (short : (utf8 (formOf pairs)).length + 1 < 2 ^ 31)
include short

theorem known_of {entries : ValueMap Value} (each : Entries StringToDouble pairs entries) :
    Known StringToDouble (parameter pairs) (assignAll [] entries) where
  found := each.found
  plain own := by
    obtain ⟨pair,-,rfl⟩ := parameter_mem own
    exact pair.plainValue
  short own := by
    obtain ⟨pair,listed,rfl⟩ := parameter_mem own
    have length := length_value listed
    omega

theorem read_iff : Read StringToDouble pairs ↔ AllWhole StringToDouble 1 pairs := by
  apply and_congr_left'
  apply forall₂_congr
  intro pair listed
  have length := length_value listed
  exact and_congr_right' (and_congr_right' (readable_iff pair.plainValue (by omega)).symm)

theorem decodes_iff {request : Request} {Silent : (String → Option (List Char)) → Prop} (lawful : Lawful request Silent)
    (mark : (formOf pairs).head? ≠ some '\uFEFF') (terminator : UInt8) : request.Decodes StringToDouble pairs terminator ↔
      request.Right StringToDouble pairs ∧
        (¬request.Complete (parameter pairs) → Read StringToDouble pairs → ¬Silent (parameter pairs)) := by
  obtain ⟨made,nothing⟩ := @form_made StringToDouble pairs mark short terminator
  apply and_congr
  · apply forall_congr'
    intro complete
    rw [read_iff short]
    by_cases all : AllWhole StringToDouble 1 pairs
    · obtain ⟨entries,each⟩ := Entries.of_whole all.1
      have makes := made all entries each
      constructor
      · rintro ⟨dict,also,returns⟩
        cases makes.unique also
        exact ⟨all,lawful.forward (known_of short each) returns⟩
      · rintro ⟨-,right⟩
        exact ⟨_,makes,lawful.backward (known_of short each) complete right⟩
    · apply iff_of_false
      · rintro ⟨dict,also,-⟩
        cases (nothing all).unique also
      · exact fun right => all right.1
  · apply forall_congr'
    intro lacks
    rw [read_iff short]
    by_cases all : AllWhole StringToDouble 1 pairs
    · obtain ⟨entries,each⟩ := Entries.of_whole all.1
      have makes := made all entries each
      rw [← lawful.missing (known_of short each) lacks,forall_prop_of_true all]
      constructor
      · exact fun reports => reports _ makes
      · intro reports dict also
        cases makes.unique also
        exact reports
    · refine iff_of_true (fun dict also => ?_) fun whole => absurd whole all
      cases (nothing all).unique also

end Form

/-! ### Requests whose fields are read one by one -/

/-- Whether the getter of a field that is needed finds something. -/
def Kind.got (m_ : ValueMap Value) (parameters : List String) : Kind → Bool
  | big | int => (parameters.findSome? (GetBigInteger m_)).isSome
  | plain | decoded => (parameters.findSome? (GetString m_)).isSome
  | nickname => (Recv.nickname m_).isSome
  | song | session | union => true

/-- The kinds that are asked for. -/
def Accessor.Asked {Object : Type} (accessor : Accessor Object) : Prop :=
  accessor.kind = .big ∨ accessor.kind = .int ∨ accessor.kind = .plain ∨ accessor.kind = .decoded ∨
    (accessor.kind = .nickname ∧ accessor.parameters = ["nickname"])

instance {Object : Type} (accessor : Accessor Object) : Decidable accessor.Asked := by
  unfold Accessor.Asked
  infer_instance

section Asked
variable {Object : Type} {accessor : Accessor Object} (ascii : ∀ name ∈ accessor.parameters, Ascii name)
  (known : Known StringToDouble values m_) (asked : accessor.Asked)
include ascii known asked

theorem got_of_right {value : List Char} (own : accessor.own values = some value) (right : accessor.kind.Right values value) :
    accessor.kind.got m_ accessor.parameters := by
  rcases asked with kind | kind | kind | kind | ⟨kind,names⟩ <;> rw [kind] at right ⊢
  · obtain ⟨n,text⟩ := right
    exact Option.isSome_of_eq_some (known.big.first ascii own text)
  · obtain ⟨n,text,-⟩ := right
    exact Option.isSome_of_eq_some (known.big.first ascii own text)
  · exact Option.isSome_of_eq_some (known.string.first ascii own ⟨right.1,rfl⟩)
  · exact Option.isSome_of_eq_some (known.string.first ascii own ⟨right.1,rfl⟩)
  · rw [Accessor.own,names,List.findSome?_singleton] at own
    exact (known.nickname_read (by decide) own rfl).mpr (right.imp And.left And.left)

theorem not_got (lacks : accessor.own values = none) : ¬accessor.kind.got m_ accessor.parameters := by
  have nothing {α : Type} {get : String → Option α} {Text : List Char → α → Prop} (finds : Finds get values Text) :
      ¬(accessor.parameters.findSome? get).isSome := by
    intro got
    obtain ⟨x,found⟩ := Option.isSome_iff_exists.mp got
    obtain ⟨name,listed,other,mine,-⟩ := finds.source ascii found
    rw [List.findSome?_eq_none_iff.mp lacks name listed] at mine
    cases mine
  rcases asked with kind | kind | kind | kind | ⟨kind,names⟩ <;> rw [kind]
  · exact nothing known.big
  · exact nothing known.big
  · exact nothing known.string
  · exact nothing known.string
  · have big := nothing known.big
    have string := nothing known.string
    rw [names,List.findSome?_singleton,Option.not_isSome_iff_eq_none] at big string
    rw [Kind.got,nickname,big,string]
    exact Bool.false_ne_true

end Asked

structure Regular (request : Request) : Prop where
  exact : ∀ accessor ∈ request.accessors, Exact request.Init accessor
  ascii : ∀ accessor ∈ request.accessors, ∀ name ∈ accessor.parameters, Ascii name
  zero : ∀ rubbish m_, request.GetResult (request.Init rubbish m_) = 0 ↔
    ∀ accessor ∈ request.accessors, accessor.needed = true → accessor.kind.got m_ accessor.parameters = true
  asked : ∀ accessor ∈ request.accessors, accessor.needed = true → accessor.Asked

theorem Regular.law {request : Request} (regular : Regular request) : Lawful request fun _ => False where
  forward known returns accessor listed value own :=
    (regular.exact accessor listed (regular.ascii accessor listed) _ _ _ known value own).mp fun rubbish =>
      (returns rubbish).2 accessor listed value own
  backward known complete right rubbish := by
    constructor
    · rw [regular.zero]
      intro accessor listed needed
      obtain ⟨value,own⟩ := Option.isSome_iff_exists.mp (complete accessor listed needed)
      exact got_of_right (regular.ascii accessor listed) known (regular.asked accessor listed needed) own (right accessor listed value own)
    · intro accessor listed value own
      exact (regular.exact accessor listed (regular.ascii accessor listed) _ _ _ known value own).mpr (right accessor listed value own) rubbish
  missing known lacks := by
    refine iff_of_true (fun rubbish zero => lacks fun accessor listed needed => ?_) not_false
    rw [← Option.ne_none_iff_isSome]
    intro none_
    exact not_got (regular.ascii accessor listed) known (regular.asked accessor listed needed) none_
      ((regular.zero rubbish _).mp zero accessor listed needed)

end Migfm.Recv
