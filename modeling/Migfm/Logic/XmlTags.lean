import Migfm.Logic.XmlSerializer

/-! Which trees `BuildXMLString` writes with balanced tags. -/
namespace Migfm.Logic.XMLValueSerializer

/-! ### Trees -/

/-- A dictionary that is written with attributes. -/
def HasAttr (dict : List (WString × Value)) : Prop := GetInteger dict "#xmltype" = some HAVE_ATTR

instance (dict : List (WString × Value)) : Decidable (HasAttr dict) := inferInstanceAs (Decidable (_ = _))

/-- The keys that no tag is written for. -/
def marker : WString := key "#xmltype"

def textKey : WString := key "#text"

mutual

/-- A tree that is written without tags; if it is silent, without any text. -/
def Flat (silent : Bool) : Value → Prop
  | .null => silent = false
  | .fundamental (.real _) => False
  | .fundamental _ => silent = false
  | .string text => Unmarked text ∧ (silent = true → text = [])
  | .binary _ => False
  | .list items => FlatItems silent items
  | .dictionary dict => ¬HasAttr dict ∧ FlatEntries silent dict

def FlatItems (silent : Bool) : List Value → Prop
  | [] => True
  | value::items => Flat silent value ∧ FlatItems silent items

def FlatEntries (silent : Bool) : List (WString × Value) → Prop
  | [] => True
  | (key,value)::dict => (key = marker ∨ key = textKey ∧ Flat silent value) ∧ FlatEntries silent dict

end

mutual

/-- A tree of dictionaries, lists, strings and integers in which a dictionary with
attributes stands as the value of a tag only. -/
def Content : Value → Prop
  | .null => True
  | .fundamental (.real _) => False
  | .fundamental _ => True
  | .string text => Unmarked text
  | .binary _ => False
  | .list items => ContentItems items
  | .dictionary dict => ¬HasAttr dict ∧ Entries false dict

def ContentItems : List Value → Prop
  | [] => True
  | value::items => Content value ∧ ContentItems items

/-- The value of a tag that a dictionary with attributes closes. -/
def Element : Value → Prop
  | .list items => ElementItems items
  | .dictionary dict => HasAttr dict ∧ Entries true dict
  | _ => False

/-- The one that closes the tag is the first that writes anything. -/
def ElementItems : List Value → Prop
  | [] => False
  | value::items => Flat true value ∧ ElementItems items ∨ Element value ∧ ContentItems items

/-- The entries of a dictionary with or without attributes. -/
def Entries (attributes : Bool) : List (WString × Value) → Prop
  | [] => True
  | (key,value)::dict =>
    (key = marker ∨ key = textKey ∧ Content value ∨
      (attributes = true ∧ key.head? = some 45) ∧ Unmarked (tagName (key.drop 1)) ∧ Flat false value ∨
      (key ≠ marker ∧ key ≠ textKey ∧ ¬(attributes = true ∧ key.head? = some 45)) ∧ IsName (tagName key) ∧
        (Content value ∨ Element value)) ∧ Entries attributes dict

end

mutual

/-- Whether a dictionary with attributes closes the tag that the value stands behind. -/
def closes : Value → Bool
  | .list items => closesItems items
  | .dictionary dict => decide (HasAttr dict)
  | _ => false

def closesItems : List Value → Bool
  | [] => false
  | value::items => closes value || closesItems items

end

mutual

/-- The tags that nothing closes. -/
def unclosed : Value → Nat
  | .list items => unclosedItems items
  | .dictionary dict => unclosedEntries (decide (HasAttr dict)) dict
  | _ => 0

def unclosedItems : List Value → Nat
  | [] => 0
  | value::items => unclosed value + unclosedItems items

def unclosedEntries (attributes : Bool) : List (WString × Value) → Nat
  | [] => 0
  | (key,value)::dict =>
    (if key = marker ∨ attributes = true ∧ key.head? = some 45 then 0
      else if key = textKey ∨ closes value then unclosed value else 1 + unclosed value) + unclosedEntries attributes dict

end

mutual

/-- The 64-bit integers, in the order in which they are written. -/
def bigs : Value → List Int64
  | .fundamental (.bigInteger value) => [value]
  | .list items => bigsItems items
  | .dictionary dict =>
    if HasAttr dict then bigsAttributes dict ++ bigsEntries true dict else bigsEntries false dict
  | _ => []

def bigsItems : List Value → List Int64
  | [] => []
  | value::items => bigs value ++ bigsItems items

def bigsAttributes : List (WString × Value) → List Int64
  | [] => []
  | (key,value)::dict => (if key.head? = some 45 then bigs value else []) ++ bigsAttributes dict

def bigsEntries (attributes : Bool) : List (WString × Value) → List Int64
  | [] => []
  | (key,value)::dict =>
    (if key = marker ∨ attributes = true ∧ key.head? = some 45 then [] else bigs value) ++ bigsEntries attributes dict

end

/-! ### Documents -/

/-- The integers stand in the text, one after the other, in decimal. -/
inductive Appear : List Int64 → List UInt8 → Prop
  | nil (text : List UInt8) : Appear [] text
  | cons {n : Int64} {ns : List Int64} (front : List UInt8) {rest : List UInt8} :
      Appear ns rest → Appear (n::ns) (front ++ (decimal n.toInt ++ rest))

section Doc
variable (lp64 : Bool)

/-- Text without markup, and the integers in it. -/
inductive Texts : List UInt8 → List Int64 → Prop
  | nil : Texts [] []
  | data {text rest : List UInt8} {ns : List Int64} : Unmarked text → Texts rest ns → Texts (text ++ rest) ns
  | big (n : Int64) {rest : List UInt8} {ns : List Int64} : Texts rest ns → Texts (bigText lp64 n ++ rest) (n::ns)

/-- Text and tags, how many of them are not closed, and the integers. -/
inductive Doc : List UInt8 → Nat → List Int64 → Prop
  | texts {text : List UInt8} {ns : List Int64} : Texts lp64 text ns → Doc text 0 ns
  | append {text more : List UInt8} {m n : Nat} {ns ms : List Int64} :
      Doc text m ns → Doc more n ms → Doc (text ++ more) (m + n) (ns ++ ms)
  | opened {name : List UInt8} : IsName name → Doc (60::(name ++ [62])) 1 []
  | element {name attributes inside : List UInt8} {n : Nat} {ns ms : List Int64} : IsName name → Texts lp64 attributes ns →
      (attributes = [] ∨ attributes.head? = some 32) → Doc inside n ms →
      Doc (60::(name ++ attributes ++ 62::(inside ++ 60::47::(name ++ [62])))) n (ns ++ ms)

end Doc

theorem Appear.append {ns ms : List Int64} {text more : List UInt8} (first : Appear ns text) (second : Appear ms more) :
    Appear (ns ++ ms) (text ++ more) := by
  induction first with
  | nil text =>
    cases second with
    | nil => exact .nil _
    | cons front behind =>
      rw [List.nil_append,← List.append_assoc]
      exact .cons (text ++ front) behind
  | cons front _ ih =>
    rw [List.append_assoc,List.append_assoc]
    exact .cons front ih

theorem Appear.of_nil {ns : List Int64} {text : List UInt8} (front : List UInt8) (appear : Appear ns text) : Appear ns (front ++ text) :=
  (Appear.nil front).append appear

theorem decimal_unmarked (n : Int) : Unmarked (decimal n) := by
  have digits (m : Nat) : Unmarked (decimalDigits m) := by
    intro c member
    have digit := isDigit_decimalDigits m c member
    simp only [isDigit,decide_eq_true_eq] at digit
    constructor
    · rintro rfl
      exact absurd digit.2 (by decide)
    · rintro rfl
      exact absurd digit.2 (by decide)
  rw [decimal]
  split
  · intro c member
    obtain rfl | later := List.mem_cons.mp member
    · decide
    · exact digits _ c later
  · exact digits _

theorem decimal_ne_nil (n : Int) : decimal n ≠ [] := by
  obtain ⟨digit,digits,starts,-⟩ := decimalDigits_head n.natAbs
  rw [decimal,starts]
  split
  · exact List.cons_ne_nil _ _
  · exact List.cons_ne_nil _ _

section Doc
variable {lp64 : Bool} {text : List UInt8} {ns : List Int64}

theorem Unmarked.append {more : List UInt8} (first : Unmarked text) (second : Unmarked more) : Unmarked (text ++ more) := by
  intro c member
  obtain inFirst | inSecond := List.mem_append.mp member
  · exact first c inFirst
  · exact second c inSecond

theorem Texts.unmarked (texts : Texts lp64 text ns) : Unmarked text := by
  induction texts with
  | nil => exact fun c member => absurd member List.not_mem_nil
  | data plain _ ih => exact plain.append ih
  | big n _ ih => exact (decimal_unmarked _).append ih

theorem Texts.append {more : List UInt8} {ms : List Int64} (first : Texts lp64 text ns) (second : Texts lp64 more ms) :
    Texts lp64 (text ++ more) (ns ++ ms) := by
  induction first with
  | nil => exact second
  | data plain _ ih =>
    rw [List.append_assoc]
    exact .data plain ih
  | big n _ ih =>
    rw [List.append_assoc]
    exact .big n ih

theorem Texts.nil_of (texts : Texts lp64 text ns) (none_ : text = []) : ns = [] := by
  induction texts with
  | nil => rfl
  | data _ _ ih => exact ih (List.append_eq_nil_iff.mp none_).2
  | big n =>
    have empty := (List.append_eq_nil_iff.mp none_).1
    exact absurd empty (decimal_ne_nil _)

theorem Texts.appear (texts : Texts lp64 text ns) (exact_ : ∀ n ∈ ns, bigText lp64 n = decimal n.toInt) : Appear ns text := by
  induction texts with
  | nil => exact .nil []
  | data _ _ ih => exact (ih exact_).of_nil _
  | big n _ ih =>
    rw [exact_ n List.mem_cons_self]
    exact .cons [] (ih fun m member => exact_ m (List.mem_cons_of_mem _ member))

theorem Doc.adds {n : Nat} (doc : Doc lp64 text n ns) : Adds text n := by
  induction doc with
  | texts texts => exact .unmarked fun c member => (texts.unmarked c member).1
  | append _ _ first second =>
    rw [Nat.cast_add]
    exact first.append second
  | opened named =>
    have opening := Adds.opening named (fun c member => absurd member List.not_mem_nil : Unmarked [])
    rwa [List.append_nil] at opening
  | @element name attributes inside open_ ns ms named texts _ _ ih =>
    have whole := ((Adds.opening named texts.unmarked).append ih).append (Adds.closing named)
    have count : (1 + open_ + -1 : Int) = open_ := by omega
    rw [count] at whole
    simpa only [List.append_assoc,List.cons_append,List.nil_append] using whole

theorem Doc.tagged {n : Nat} (doc : Doc lp64 text n ns) (none_ : n = 0) : Tagged text := by
  induction doc with
  | texts texts => exact .of_unmarked texts.unmarked
  | append _ _ first second => exact (first (by omega)).append (second (by omega))
  | opened => cases none_
  | element named attributes spaced _ inside => exact .element named attributes.unmarked spaced (inside none_) .nil

theorem Doc.appear {n : Nat} (doc : Doc lp64 text n ns) (exact_ : ∀ n ∈ ns, bigText lp64 n = decimal n.toInt) : Appear ns text := by
  induction doc with
  | texts texts => exact texts.appear exact_
  | append _ _ first second =>
    exact (first fun n member => exact_ n (List.mem_append_left _ member)).append
      (second fun n member => exact_ n (List.mem_append_right _ member))
  | opened => exact .nil _
  | @element name attributes inside _ ns ms _ texts _ _ ih =>
    have first := (texts.appear fun n member => exact_ n (List.mem_append_left _ member)).of_nil (60::name)
    have second := (ih fun n member => exact_ n (List.mem_append_right _ member)).of_nil [62]
    have whole := (first.append second).append (Appear.nil (60::47::(name ++ [62])))
    rw [List.append_nil] at whole
    simpa only [List.append_assoc,List.cons_append,List.nil_append] using whole

end Doc

/-! ### Writing -/

theorem State.append_nil (xml : State) : xml.append [] = xml := by
  rw [State.append,List.append_nil]

theorem State.append_append (xml : State) (text more : List UInt8) : (xml.append text).append more = xml.append (text ++ more) := by
  rw [State.append,State.append,State.append,List.append_assoc]

theorem XMLDoubleQuote_unmarked {text : List UInt8} (unmarked : Unmarked text) : Unmarked (XMLDoubleQuote text) := by
  intro c member
  obtain ⟨byte,listed,inside⟩ := List.mem_flatMap.mp member
  rw [escaped] at inside
  split at inside
  · rename_i letter found
    have letters : letter = 98 ∨ letter = 102 ∨ letter = 110 ∨ letter = 114 ∨ letter = 116 ∨ letter = 92 ∨ letter = 34 := by
      rw [SingleEscapeChar] at found
      repeat' split at found
      all_goals simp_all
    obtain rfl | rest := List.mem_cons.mp inside
    · decide
    · rw [List.mem_singleton.mp rest]
      obtain rfl | rfl | rfl | rfl | rfl | rfl | rfl := letters
      all_goals decide
  · rw [List.mem_singleton.mp inside]
    exact unmarked byte listed

section Build
variable {DoubleToString : Float → List UInt8} {lp64 : Bool}

theorem BuildItems_cons (value : Value) (list : List Value) (first : Bool) (depth : Int) (xml : State) :
    BuildItems DoubleToString lp64 false false (value::list) first depth xml =
      (BuildXMLString DoubleToString lp64 false false value depth xml).bind fun xml =>
        BuildItems DoubleToString lp64 false false list false depth xml := by
  rw [BuildItems,if_pos (.inr Bool.false_ne_true),State.append_nil]

theorem BuildXMLString_plain {dict : List (WString × Value)} (plain : ¬HasAttr dict) (depth : Int) (xml : State) :
    BuildXMLString DoubleToString lp64 false false (.dictionary dict) depth xml =
      BuildEntries DoubleToString lp64 false false dict depth xml := by
  rw [BuildXMLString]
  exact if_neg plain

theorem BuildXMLString_attributes {dict : List (WString × Value)} (attr_ : HasAttr dict) (depth : Int) {text : List UInt8}
    {key_map_ : Int → Option WString} (some_ : text ≠ []) :
    BuildXMLString DoubleToString lp64 false false (.dictionary dict) depth ⟨text,key_map_⟩ =
      (BuildAttributes DoubleToString lp64 false false dict depth ⟨text.dropLast,key_map_⟩).bind fun xml =>
        (BuildChildren DoubleToString lp64 false false dict depth (xml.append (ascii ">"))).bind fun xml => xml.close depth := by
  rw [BuildXMLString]
  exact (if_pos attr_).trans (if_neg some_)

theorem bigs_plain {dict : List (WString × Value)} (plain : ¬HasAttr dict) : bigs (.dictionary dict) = bigsEntries false dict := by
  rw [bigs]
  exact if_neg plain

theorem opening (key : WString) : ascii "<" ++ tagName key ++ ascii ">" = 60::(tagName key ++ [62]) := rfl

section Steps
variable (key : WString) (value : Value) (dict : List (WString × Value)) (depth : Int) (xml : State)

theorem BuildEntries_marker : BuildEntries DoubleToString lp64 false false ((marker,value)::dict) depth xml =
    BuildEntries DoubleToString lp64 false false dict depth xml := by
  rw [BuildEntries]
  exact if_pos rfl

theorem BuildEntries_text : BuildEntries DoubleToString lp64 false false ((textKey,value)::dict) depth xml =
    (BuildXMLString DoubleToString lp64 false false value (depth + 1) xml).bind fun xml =>
      BuildEntries DoubleToString lp64 false false dict depth xml := by
  rw [BuildEntries,if_neg (show textKey ≠ Logic.key "#xmltype" by decide),
    if_neg (not_not.mpr (show textKey = Logic.key "#text" from rfl))]

variable {key} in
theorem BuildEntries_tag (apart : key ≠ marker) (other : key ≠ textKey) :
    BuildEntries DoubleToString lp64 false false ((key,value)::dict) depth xml =
      (BuildXMLString DoubleToString lp64 false false value (depth + 1) ((xml.note depth key).append (60::(tagName key ++ [62])))).bind fun xml =>
        BuildEntries DoubleToString lp64 false false dict depth xml := by
  rw [BuildEntries,if_neg (show key ≠ Logic.key "#xmltype" from apart),if_pos (show key ≠ Logic.key "#text" from other),opening]

variable {key} in
theorem BuildChildren_skip (skipped : key = marker ∨ key.head? = some 45) :
    BuildChildren DoubleToString lp64 false false ((key,value)::dict) depth xml =
      BuildChildren DoubleToString lp64 false false dict depth (xml.note depth key) := by
  rw [BuildChildren]
  exact if_pos skipped

theorem BuildChildren_text : BuildChildren DoubleToString lp64 false false ((textKey,value)::dict) depth xml =
    (BuildXMLString DoubleToString lp64 false false value (depth + 1) (xml.note depth textKey)).bind fun xml =>
      BuildChildren DoubleToString lp64 false false dict depth xml := by
  rw [BuildChildren,if_neg (show ¬(textKey = Logic.key "#xmltype" ∨ textKey.head? = some 45) by decide),
    if_neg (not_not.mpr (show textKey = Logic.key "#text" from rfl))]

variable {key} in
theorem BuildChildren_tag (apart : key ≠ marker) (other : key ≠ textKey) (dash : key.head? ≠ some 45) :
    BuildChildren DoubleToString lp64 false false ((key,value)::dict) depth xml =
      (BuildXMLString DoubleToString lp64 false false value (depth + 1) ((xml.note depth key).append (60::(tagName key ++ [62])))).bind fun xml =>
        BuildChildren DoubleToString lp64 false false dict depth xml := by
  rw [BuildChildren,if_neg (show ¬(key = Logic.key "#xmltype" ∨ key.head? = some 45) from not_or.mpr ⟨apart,dash⟩),if_pos (show key ≠ Logic.key "#text" from other),opening]

end Steps

/-- A text that is written for a leaf. -/
theorem Texts.leaf {text : List UInt8} (unmarked : Unmarked text) : Texts lp64 text [] := by
  have texts : Texts lp64 (text ++ []) [] := .data unmarked .nil
  rwa [List.append_nil] at texts

theorem Texts.one (n : Int64) : Texts lp64 (bigText lp64 n) [n] := by
  have texts : Texts lp64 (bigText lp64 n ++ []) [n] := .big n .nil
  rwa [List.append_nil] at texts

theorem ascii_unmarked (value : Bool) : Unmarked (ascii (if value then "true" else "false")) := by
  cases value with
  | false => exact unmarked_of_all rfl
  | true => exact unmarked_of_all rfl

mutual

theorem Flat.written {silent : Bool} : ∀ {value : Value}, Flat silent value → ∀ (depth : Int) (xml : State), ∃ text,
    BuildXMLString DoubleToString lp64 false false value depth xml = some (xml.append text) ∧ Texts lp64 text (bigs value) ∧
      (silent = true → text = [])
  | .null,flat,_,_ => by
    rw [Flat] at flat
    refine ⟨_,by rw [BuildXMLString],.leaf (unmarked_of_all rfl),fun quiet => ?_⟩
    exact absurd (flat.symm.trans quiet) Bool.false_ne_true
  | .fundamental (.boolean value),flat,_,_ => by
    rw [Flat] at flat
    · refine ⟨_,by rw [BuildXMLString],.leaf (ascii_unmarked value),fun quiet => ?_⟩
      exact absurd (flat.symm.trans quiet) Bool.false_ne_true
    · rintro real ⟨⟩
  | .fundamental (.integer value),flat,_,_ => by
    rw [Flat] at flat
    · refine ⟨_,by rw [BuildXMLString],.leaf (decimal_unmarked _),fun quiet => ?_⟩
      exact absurd (flat.symm.trans quiet) Bool.false_ne_true
    · rintro real ⟨⟩
  | .fundamental (.bigInteger value),flat,_,_ => by
    rw [Flat] at flat
    · refine ⟨_,by rw [BuildXMLString],.one value,fun quiet => ?_⟩
      exact absurd (flat.symm.trans quiet) Bool.false_ne_true
    · rintro real ⟨⟩
  | .fundamental (.real value),flat,_,_ => by
    rw [Flat] at flat
    exact flat.elim
  | .string value,flat,_,xml => by
    rw [Flat] at flat
    refine ⟨_,by rw [BuildXMLString,if_neg Bool.false_ne_true],.leaf (XMLDoubleQuote_unmarked flat.1),fun quiet => ?_⟩
    rw [flat.2 quiet]
    rfl
  | .list items,flat,depth,xml => by
    rw [Flat] at flat
    rw [BuildXMLString,bigs]
    exact FlatItems.written flat true depth xml
  | .dictionary dict,flat,depth,xml => by
    rw [Flat] at flat
    rw [BuildXMLString_plain flat.1,bigs_plain flat.1]
    exact FlatEntries.written flat.2 depth xml
  | .binary _,flat,_,_ => by
    rw [Flat] at flat
    exact flat.elim

theorem FlatItems.written {silent : Bool} : ∀ {items : List Value}, FlatItems silent items → ∀ (first : Bool) (depth : Int) (xml : State),
    ∃ text, BuildItems DoubleToString lp64 false false items first depth xml = some (xml.append text) ∧
      Texts lp64 text (bigsItems items) ∧ (silent = true → text = [])
  | [],_,_,_,xml => ⟨[],by rw [BuildItems,State.append_nil],.nil,fun _ => rfl⟩
  | value::items,flat,first,depth,xml => by
    rw [FlatItems] at flat
    obtain ⟨text,one,texts,silence⟩ := Flat.written flat.1 depth xml
    obtain ⟨more,rest,others,silence'⟩ := FlatItems.written flat.2 false depth (xml.append text)
    refine ⟨text ++ more,?_,texts.append others,fun quiet => by rw [silence quiet,silence' quiet]; rfl⟩
    rw [BuildItems_cons,one,Option.bind_some,rest,State.append_append]

theorem FlatEntries.written {silent : Bool} : ∀ {dict : List (WString × Value)}, FlatEntries silent dict →
    ∀ (depth : Int) (xml : State), ∃ text,
      BuildEntries DoubleToString lp64 false false dict depth xml = some (xml.append text) ∧
        Texts lp64 text (bigsEntries false dict) ∧ (silent = true → text = [])
  | [],_,_,xml => ⟨[],by rw [BuildEntries,State.append_nil],.nil,fun _ => rfl⟩
  | (key,value)::dict,flat,depth,xml => by
    rw [FlatEntries] at flat
    rw [bigsEntries]
    obtain ⟨rfl | ⟨rfl,flatValue⟩,flatRest⟩ := flat
    · rw [BuildEntries_marker,if_pos (.inl rfl)]
      exact FlatEntries.written flatRest depth xml
    · obtain ⟨text,one,texts,silence⟩ := Flat.written flatValue (depth + 1) xml
      obtain ⟨more,rest,others,silence'⟩ := FlatEntries.written flatRest depth (xml.append text)
      refine ⟨text ++ more,?_,?_,fun quiet => by rw [silence quiet,silence' quiet]; rfl⟩
      · rw [BuildEntries_text,one,Option.bind_some,rest,State.append_append]
      · rw [if_neg (by decide)]
        exact texts.append others

end

/-- The result is a document behind the text; what is noted for the depths above stays. -/
def Grows (lp64 : Bool) (result : Option State) (text : List UInt8) (depth : Int) (key_map_ : Int → Option WString) (n : Nat)
    (ns : List Int64) : Prop :=
  ∃ more after, result = some ⟨text ++ more,after⟩ ∧ (∀ i < depth, after i = key_map_ i) ∧ Doc lp64 more n ns

theorem Grows.bind {result : Option State} {next : State → Option State} {text : List UInt8} {depth : Int}
    {key_map_ : Int → Option WString} {m n : Nat} {ns ms : List Int64} (first : Grows lp64 result text depth key_map_ m ns)
    (second : ∀ more after, (∀ i < depth, after i = key_map_ i) → Grows lp64 (next ⟨text ++ more,after⟩) (text ++ more) depth after n ms) :
    Grows lp64 (result.bind next) text depth key_map_ (m + n) (ns ++ ms) := by
  obtain ⟨more,after,rfl,same,doc⟩ := first
  obtain ⟨rest,last,written,same',doc'⟩ := second more after same
  refine ⟨more ++ rest,last,?_,fun i low => (same' i low).trans (same i low),doc.append doc'⟩
  rw [Option.bind_some,written,List.append_assoc]

theorem Grows.of_flat {silent : Bool} {value : Value} (flat : Flat silent value) (text : List UInt8) (depth : Int)
    (key_map_ : Int → Option WString) :
    Grows lp64 (BuildXMLString DoubleToString lp64 false false value depth ⟨text,key_map_⟩) text depth key_map_ 0 (bigs value) := by
  obtain ⟨more,written,texts,-⟩ := @Flat.written DoubleToString lp64 silent value flat depth ⟨text,key_map_⟩
  exact ⟨more,key_map_,written,fun _ _ => rfl,.texts texts⟩

/-- What the loop over a dictionary does is seen from the depth of the dictionary. -/
theorem Grows.above {result : Option State} {text : List UInt8} {depth : Int} {key_map_ noted : Int → Option WString} {n : Nat}
    {ns : List Int64} (grows : Grows lp64 result text (depth + 1) noted n ns) (same : ∀ i < depth, noted i = key_map_ i) :
    Grows lp64 result text depth key_map_ n ns := by
  obtain ⟨more,after,written,kept,doc⟩ := grows
  exact ⟨more,after,written,fun i low => (kept i (by omega)).trans (same i low),doc⟩

theorem note_above {key_map_ : Int → Option WString} {depth i : Int} (low : i < depth) (key : WString) :
    Function.update key_map_ depth (some key) i = key_map_ i :=
  Function.update_of_ne (by omega) _ _

/-- The attributes: a blank before each. -/
theorem BuildAttributes_written {dict : List (WString × Value)} (entries : Entries true dict) (depth : Int) (xml : State) :
    ∃ text, BuildAttributes DoubleToString lp64 false false dict depth xml = some (xml.append text) ∧
      Texts lp64 text (bigsAttributes dict) ∧ (text = [] ∨ text.head? = some 32) := by
  induction dict generalizing xml with
  | nil => exact ⟨[],by rw [BuildAttributes,State.append_nil],.nil,.inl rfl⟩
  | cons entry dict ih =>
    obtain ⟨key,value⟩ := entry
    rw [Entries] at entries
    rw [BuildAttributes,bigsAttributes]
    by_cases dash : key.head? = some 45
    · rw [if_pos dash,if_pos dash]
      have attr_ : Unmarked (tagName (key.drop 1)) ∧ Flat false value := by
        obtain ⟨rfl | ⟨rfl,-⟩ | ⟨-,attr_⟩ | ⟨⟨-,-,plain⟩,-⟩,-⟩ := entries
        · exact absurd dash (by decide)
        · exact absurd dash (by decide)
        · exact attr_
        · exact absurd ⟨rfl,dash⟩ plain
      obtain ⟨one,written,texts,-⟩ := @Flat.written DoubleToString lp64 false value attr_.2 (depth + 1)
        (xml.append (ascii " " ++ tagName (key.drop 1) ++ ascii "="))
      obtain ⟨more,rest,others,-⟩ := ih entries.2 ((xml.append (ascii " " ++ tagName (key.drop 1) ++ ascii "=")).append one)
      have sign : Unmarked (ascii " " ++ tagName (key.drop 1) ++ ascii "=") :=
        (Unmarked.append (unmarked_of_all rfl) attr_.1).append
          (unmarked_of_all rfl)
      refine ⟨(ascii " " ++ tagName (key.drop 1) ++ ascii "=") ++ (one ++ more),?_,.data sign (texts.append others),.inr rfl⟩
      rw [written,Option.bind_some,rest,State.append_append,State.append_append,List.append_assoc]
    · rw [if_neg dash,if_neg dash]
      exact ih entries.2 xml

/-- The same for the loop behind the attributes, which leaves a key for its own depth. -/
def Noted (lp64 : Bool) (result : Option State) (text : List UInt8) (depth : Int) (key_map_ : Int → Option WString) (n : Nat)
    (ns : List Int64) : Prop :=
  ∃ more after, result = some ⟨text ++ more,after⟩ ∧ (∀ i < depth, after i = key_map_ i) ∧ (after depth).isSome ∧ Doc lp64 more n ns

theorem Noted.above {result : Option State} {text : List UInt8} {depth : Int} {key_map_ : Int → Option WString} {key : WString} {n : Nat}
    {ns : List Int64} (noted : Noted lp64 result text depth (Function.update key_map_ depth (some key)) n ns) :
    Noted lp64 result text depth key_map_ n ns := by
  obtain ⟨more,after,written,kept,there,doc⟩ := noted
  exact ⟨more,after,written,fun i low => (kept i low).trans (note_above low key),there,doc⟩

theorem Grows.noted {result : Option State} {next : State → Option State} {text : List UInt8} {depth : Int}
    {key_map_ : Int → Option WString} {key : WString} {m n : Nat} {ns ms : List Int64}
    (first : Grows lp64 result text (depth + 1) (Function.update key_map_ depth (some key)) m ns)
    (second : ∀ more after, (after depth).isSome → Noted lp64 (next ⟨text ++ more,after⟩) (text ++ more) depth after n ms) :
    Noted lp64 (result.bind next) text depth key_map_ (m + n) (ns ++ ms) := by
  obtain ⟨more,after,rfl,same,doc⟩ := first
  have there : after depth = some key := (same depth (by omega)).trans (Function.update_self ..)
  obtain ⟨rest,last,written,same',kept,doc'⟩ := second more after (by rw [there]; rfl)
  refine ⟨more ++ rest,last,?_,fun i low => ?_,kept,doc.append doc'⟩
  · rw [Option.bind_some,written,List.append_assoc]
  · exact ((same' i low).trans (same i (by omega))).trans (note_above low key)

mutual

theorem Content.closes : ∀ {value : Value}, Content value → closes value = false
  | .null,_ => rfl
  | .fundamental _,_ => rfl
  | .string _,_ => rfl
  | .binary _,_ => rfl
  | .list items,content => by
    rw [Content] at content
    rw [XMLValueSerializer.closes]
    exact ContentItems.closes content
  | .dictionary dict,content => by
    rw [Content] at content
    rw [XMLValueSerializer.closes]
    exact decide_eq_false content.1

theorem ContentItems.closes : ∀ {items : List Value}, ContentItems items → closesItems items = false
  | [],_ => rfl
  | value::items,content => by
    rw [ContentItems] at content
    rw [closesItems,Content.closes content.1,ContentItems.closes content.2]
    rfl

end

mutual

theorem Element.closes : ∀ {value : Value}, Element value → closes value = true
  | .null,element => by
    rw [Element] at element
    · exact element.elim
    · rintro _ ⟨⟩
    · rintro _ ⟨⟩
  | .fundamental _,element => by
    rw [Element] at element
    · exact element.elim
    · rintro _ ⟨⟩
    · rintro _ ⟨⟩
  | .string _,element => by
    rw [Element] at element
    · exact element.elim
    · rintro _ ⟨⟩
    · rintro _ ⟨⟩
  | .binary _,element => by
    rw [Element] at element
    · exact element.elim
    · rintro _ ⟨⟩
    · rintro _ ⟨⟩
  | .list items,element => by
    rw [Element] at element
    rw [XMLValueSerializer.closes]
    exact ElementItems.closes element
  | .dictionary dict,element => by
    rw [Element] at element
    rw [XMLValueSerializer.closes]
    exact decide_eq_true element.1

theorem ElementItems.closes : ∀ {items : List Value}, ElementItems items → closesItems items = true
  | [],element => by
    rw [ElementItems] at element
    exact element.elim
  | value::items,element => by
    rw [ElementItems] at element
    rw [closesItems]
    obtain ⟨-,later⟩ | ⟨here,-⟩ := element
    · rw [ElementItems.closes later,Bool.or_true]
    · rw [Element.closes here,Bool.true_or]

end

/-- A tag with its value: the value closes it, or it stays open. -/
theorem Grows.tag {value : Value} {key : WString} (named : IsName (tagName key)) {text : List UInt8} {depth : Int}
    {key_map_ : Int → Option WString} {result : Option State}
    (content : Content value → Grows lp64 result (text ++ 60::(tagName key ++ [62])) depth key_map_ (unclosed value) (bigs value))
    (element : Element value → Grows lp64 result text depth key_map_ (unclosed value) (bigs value))
    (either : Content value ∨ Element value) :
    Grows lp64 result text depth key_map_ (if closes value then unclosed value else 1 + unclosed value) (bigs value) := by
  obtain plain | closing := either
  · obtain ⟨more,after,written,same,doc⟩ := content plain
    rw [plain.closes,if_neg Bool.false_ne_true]
    refine ⟨60::(tagName key ++ [62]) ++ more,after,?_,same,(Doc.opened named).append doc⟩
    rw [written,List.append_assoc]
  · rw [closing.closes,if_pos rfl]
    exact element closing

mutual

theorem Flat.unclosed_nil {silent : Bool} : ∀ {value : Value}, Flat silent value → unclosed value = 0
  | .null,_ => rfl
  | .fundamental _,_ => rfl
  | .string _,_ => rfl
  | .binary _,_ => rfl
  | .list items,flat => by
    rw [Flat] at flat
    rw [unclosed]
    exact FlatItems.unclosed_nil flat
  | .dictionary dict,flat => by
    rw [Flat] at flat
    rw [unclosed,decide_eq_false flat.1]
    exact FlatEntries.unclosed_nil flat.2

theorem FlatItems.unclosed_nil {silent : Bool} : ∀ {items : List Value}, FlatItems silent items → unclosedItems items = 0
  | [],_ => rfl
  | value::items,flat => by
    rw [FlatItems] at flat
    rw [unclosedItems,Flat.unclosed_nil flat.1,FlatItems.unclosed_nil flat.2]

theorem FlatEntries.unclosed_nil {silent : Bool} : ∀ {dict : List (WString × Value)}, FlatEntries silent dict →
    unclosedEntries false dict = 0
  | [],_ => rfl
  | (key,value)::dict,flat => by
    rw [FlatEntries] at flat
    rw [unclosedEntries,FlatEntries.unclosed_nil flat.2]
    obtain rfl | ⟨rfl,flatValue⟩ := flat.1
    · rw [if_pos (.inl rfl)]
    · rw [if_neg (by decide),if_pos (.inl rfl),Flat.unclosed_nil flatValue]

end

/-- A dictionary with attributes turns the tag before it into its own, and closes it. -/
theorem Element.closed {dict : List (WString × Value)} (attr_ : HasAttr dict) (entries : Entries true dict) {key : WString}
    (named : IsName (tagName key)) (text : List UInt8) {depth : Int} {key_map_ : Int → Option WString}
    (noted : key_map_ (depth - 1) = some key)
    (children : ∀ inside, (key_map_ depth).isSome ∨ dict ≠ [] → Noted lp64
      (BuildChildren DoubleToString lp64 false false dict depth ⟨inside,key_map_⟩) inside depth key_map_ (unclosedEntries true dict)
      (bigsEntries true dict)) :
    Grows lp64 (BuildXMLString DoubleToString lp64 false false (.dictionary dict) depth ⟨text ++ 60::(tagName key ++ [62]),key_map_⟩) text
      depth key_map_ (unclosed (.dictionary dict)) (bigs (.dictionary dict)) := by
  have some_ : dict ≠ [] := by
    rintro rfl
    cases attr_
  have cut : (text ++ 60::(tagName key ++ [62])).dropLast = text ++ 60::tagName key := by
    rw [← List.cons_append,← List.append_assoc,List.dropLast_concat]
  obtain ⟨attributes,first,texts,spaced⟩ := @BuildAttributes_written DoubleToString lp64 dict entries depth
    ⟨text ++ 60::tagName key,key_map_⟩
  obtain ⟨inside,after,second,same,there,doc⟩ := children (text ++ 60::tagName key ++ attributes ++ ascii ">") (.inr some_)
  have above : after (depth - 1) = some key := (same _ (by omega)).trans noted
  have bigs_ : bigs (.dictionary dict) = bigsAttributes dict ++ bigsEntries true dict := by
    rw [bigs]
    exact if_pos attr_
  refine ⟨60::(tagName key ++ attributes ++ 62::(inside ++ 60::47::(tagName key ++ [62]))),
    Function.update (Function.update after (depth - 1) (some key)) depth none,?_,fun i low => ?_,?_⟩
  · have behind : (State.append ⟨text ++ 60::tagName key,key_map_⟩ attributes).append (ascii ">") =
        ⟨text ++ 60::tagName key ++ attributes ++ ascii ">",key_map_⟩ := rfl
    have closing : State.close ⟨text ++ 60::tagName key ++ attributes ++ ascii ">" ++ inside,after⟩ depth =
        some ⟨text ++ 60::tagName key ++ attributes ++ ascii ">" ++ inside ++ (ascii "</" ++ tagName key ++ ascii ">"),
          Function.update (Function.update after (depth - 1) (some key)) depth none⟩ := by
      have still : (Function.update after (depth - 1) (some key) depth).isSome := by
        rw [Function.update_of_ne (by omega)]
        exact there
      have taken : (after (depth - 1)).getD [] = key := by
        rw [above]
        rfl
      simp only [State.close,taken]
      exact if_pos still
    rw [BuildXMLString_attributes attr_ depth (List.append_ne_nil_of_right_ne_nil _ (List.cons_ne_nil _ _)),cut,first,Option.bind_some,
      behind,second,Option.bind_some,closing]
    have tags : ascii "</" = [60,47] ∧ ascii ">" = [62] := ⟨rfl,rfl⟩
    simp only [tags.1,tags.2,List.append_assoc,List.cons_append,List.nil_append]
  · rw [Function.update_of_ne (by omega)]
    by_cases here : i = depth - 1
    · rw [here,Function.update_self,noted]
    · rw [Function.update_of_ne here,same i low]
  · rw [unclosed,decide_eq_true attr_,bigs_]
    exact .element named texts spaced doc

mutual

theorem Content.written : ∀ {value : Value}, Content value → ∀ (text : List UInt8) (depth : Int) (key_map_ : Int → Option WString),
    Grows lp64 (BuildXMLString DoubleToString lp64 false false value depth ⟨text,key_map_⟩) text depth key_map_ (unclosed value) (bigs value)
  | .null,_,text,depth,key_map_ => @Grows.of_flat DoubleToString lp64 false .null rfl text depth key_map_
  | .fundamental (.boolean value),_,text,depth,key_map_ =>
    @Grows.of_flat DoubleToString lp64 false (.fundamental (.boolean value)) rfl text depth key_map_
  | .fundamental (.integer value),_,text,depth,key_map_ =>
    @Grows.of_flat DoubleToString lp64 false (.fundamental (.integer value)) rfl text depth key_map_
  | .fundamental (.bigInteger value),_,text,depth,key_map_ =>
    @Grows.of_flat DoubleToString lp64 false (.fundamental (.bigInteger value)) rfl text depth key_map_
  | .fundamental (.real value),content,_,_,_ => by
    rw [Content] at content
    exact content.elim
  | .string value,content,text,depth,key_map_ => by
    rw [Content] at content
    have flat : Flat false (.string value) := ⟨content,fun quiet => absurd quiet Bool.false_ne_true⟩
    exact Grows.of_flat flat text depth key_map_
  | .binary _,content,_,_,_ => by
    rw [Content] at content
    exact content.elim
  | .list items,content,text,depth,key_map_ => by
    rw [Content] at content
    rw [BuildXMLString,unclosed,bigs]
    exact ContentItems.written content true text depth key_map_
  | .dictionary dict,content,text,depth,key_map_ => by
    rw [Content] at content
    rw [BuildXMLString_plain content.1,bigs_plain content.1,unclosed,decide_eq_false content.1]
    exact Entries.written content.2 text depth key_map_

theorem ContentItems.written : ∀ {items : List Value}, ContentItems items → ∀ (first : Bool) (text : List UInt8) (depth : Int)
    (key_map_ : Int → Option WString),
    Grows lp64 (BuildItems DoubleToString lp64 false false items first depth ⟨text,key_map_⟩) text depth key_map_ (unclosedItems items)
      (bigsItems items)
  | [],_,_,text,depth,key_map_ => ⟨[],key_map_,by rw [BuildItems,List.append_nil],fun _ _ => rfl,.texts .nil⟩
  | value::items,content,first,text,depth,key_map_ => by
    rw [ContentItems] at content
    rw [BuildItems_cons,unclosedItems,bigsItems]
    exact (Content.written content.1 text depth key_map_).bind fun more after _ =>
      ContentItems.written content.2 false (text ++ more) depth after

theorem Element.written : ∀ {value : Value}, Element value → ∀ {key : WString}, IsName (tagName key) → ∀ (text : List UInt8)
    (depth : Int) {key_map_ : Int → Option WString}, key_map_ (depth - 1) = some key →
    Grows lp64 (BuildXMLString DoubleToString lp64 false false value depth ⟨text ++ 60::(tagName key ++ [62]),key_map_⟩) text depth
      key_map_ (unclosed value) (bigs value)
  | .list items,element,key,named,text,depth,key_map_,noted => by
    rw [Element] at element
    rw [BuildXMLString,unclosed,bigs]
    exact ElementItems.written element true named text depth noted
  | .dictionary dict,element,key,named,text,depth,key_map_,noted => by
    rw [Element] at element
    exact Element.closed element.1 element.2 named text noted fun inside =>
      Entries.children element.2 inside depth key_map_
  | .null,element,_,_,_,_,_,_ => by cases Element.closes element
  | .fundamental _,element,_,_,_,_,_,_ => by cases Element.closes element
  | .string _,element,_,_,_,_,_,_ => by cases Element.closes element
  | .binary _,element,_,_,_,_,_,_ => by cases Element.closes element

theorem ElementItems.written : ∀ {items : List Value}, ElementItems items → ∀ (first : Bool) {key : WString}, IsName (tagName key) →
    ∀ (text : List UInt8) (depth : Int) {key_map_ : Int → Option WString}, key_map_ (depth - 1) = some key →
    Grows lp64 (BuildItems DoubleToString lp64 false false items first depth ⟨text ++ 60::(tagName key ++ [62]),key_map_⟩) text depth
      key_map_ (unclosedItems items) (bigsItems items)
  | [],element,_,_,_,_,_,_,_ => by
    rw [ElementItems] at element
    exact element.elim
  | value::items,element,first,key,named,text,depth,key_map_,noted => by
    rw [ElementItems] at element
    rw [BuildItems_cons,unclosedItems,bigsItems]
    obtain ⟨silent,later⟩ | ⟨here,content⟩ := element
    · obtain ⟨more,written,texts,silence⟩ := @Flat.written DoubleToString lp64 true value silent depth
        ⟨text ++ 60::(tagName key ++ [62]),key_map_⟩
      have quiet := silence rfl
      subst quiet
      rw [written,Option.bind_some,State.append_nil,Flat.unclosed_nil silent,Nat.zero_add,texts.nil_of rfl]
      exact ElementItems.written later false named text depth noted
    · exact (Element.written here named text depth noted).bind fun more after _ =>
        ContentItems.written content false (text ++ more) depth after

theorem Entries.written : ∀ {dict : List (WString × Value)}, Entries false dict → ∀ (text : List UInt8) (depth : Int)
    (key_map_ : Int → Option WString),
    Grows lp64 (BuildEntries DoubleToString lp64 false false dict depth ⟨text,key_map_⟩) text depth key_map_ (unclosedEntries false dict)
      (bigsEntries false dict)
  | [],_,text,depth,key_map_ => ⟨[],key_map_,by rw [BuildEntries,List.append_nil],fun _ _ => rfl,.texts .nil⟩
  | (key,value)::dict,entries,text,depth,key_map_ => by
    rw [Entries] at entries
    rw [unclosedEntries,bigsEntries]
    obtain ⟨rfl | ⟨rfl,content⟩ | ⟨dash,-⟩ | ⟨⟨apart,other,-⟩,named,either⟩,rest⟩ := entries
    · rw [BuildEntries_marker,if_pos (.inl rfl),if_pos (.inl rfl),Nat.zero_add,List.nil_append]
      exact Entries.written rest text depth key_map_
    · rw [BuildEntries_text,if_neg (by decide),if_pos (.inl rfl),if_neg (by decide)]
      exact ((Content.written content text (depth + 1) key_map_).above fun _ _ => rfl).bind fun more after _ =>
        Entries.written rest (text ++ more) depth after
    · exact absurd dash.1 Bool.false_ne_true
    · have plain : ¬(key = marker ∨ false = true ∧ key.head? = some 45) := by
        rintro (same | dash)
        · exact apart same
        · exact Bool.false_ne_true dash.1
      have noted : Function.update key_map_ depth (some key) (depth + 1 - 1) = some key := by
        rw [Int.add_sub_cancel]
        exact Function.update_self ..
      have tag := Grows.tag named (fun content => Content.written content (text ++ 60::(tagName key ++ [62])) (depth + 1)
        (Function.update key_map_ depth (some key))) (fun element => Element.written element named text (depth + 1) noted) either
      rw [BuildEntries_tag _ _ _ _ apart other,if_neg plain,if_neg plain]
      have closing : (key = textKey ∨ closes value = true) ↔ closes value = true := or_iff_right other
      simp only [closing]
      exact (tag.above fun i low => note_above low key).bind fun more after _ => Entries.written rest (text ++ more) depth after

theorem Entries.children : ∀ {dict : List (WString × Value)}, Entries true dict → ∀ (text : List UInt8) (depth : Int)
    (key_map_ : Int → Option WString), (key_map_ depth).isSome ∨ dict ≠ [] →
    Noted lp64 (BuildChildren DoubleToString lp64 false false dict depth ⟨text,key_map_⟩) text depth key_map_ (unclosedEntries true dict)
      (bigsEntries true dict)
  | [],_,text,depth,key_map_,there =>
    ⟨[],key_map_,by rw [BuildChildren,List.append_nil],fun _ _ => rfl,there.resolve_right fun some_ => some_ rfl,.texts .nil⟩
  | (key,value)::dict,entries,text,depth,key_map_,_ => by
    rw [Entries] at entries
    rw [unclosedEntries,bigsEntries]
    have here : (Function.update key_map_ depth (some key) depth).isSome := by
      rw [Function.update_self]
      rfl
    by_cases skipped : key = marker ∨ key.head? = some 45
    · have skip : key = marker ∨ true = true ∧ key.head? = some 45 := skipped.imp_right fun dash => ⟨rfl,dash⟩
      rw [BuildChildren_skip _ _ _ _ skipped,if_pos skip,if_pos skip,Nat.zero_add,List.nil_append]
      exact (Entries.children entries.2 text depth (Function.update key_map_ depth (some key)) (.inl here)).above
    · have plain : ¬(key = marker ∨ true = true ∧ key.head? = some 45) := fun skip => skipped (skip.imp_right And.right)
      rw [if_neg plain,if_neg plain]
      obtain ⟨rfl | ⟨rfl,content⟩ | ⟨dash,-⟩ | ⟨⟨apart,other,-⟩,named,either⟩,rest⟩ := entries
      · exact absurd (.inl rfl) skipped
      · rw [BuildChildren_text,if_pos (.inl rfl)]
        exact (Content.written content text (depth + 1) (Function.update key_map_ depth (some textKey))).noted fun more after there =>
          Entries.children rest (text ++ more) depth after (.inl there)
      · exact absurd (.inr dash.2) skipped
      · have noted : Function.update key_map_ depth (some key) (depth + 1 - 1) = some key := by
          rw [Int.add_sub_cancel]
          exact Function.update_self ..
        have tag := Grows.tag named (fun content => Content.written content (text ++ 60::(tagName key ++ [62])) (depth + 1)
          (Function.update key_map_ depth (some key))) (fun element => Element.written element named text (depth + 1) noted) either
        rw [BuildChildren_tag _ _ _ _ apart other fun dash => skipped (.inr dash)]
        have closing : (key = textKey ∨ closes value = true) ↔ closes value = true := or_iff_right other
        simp only [closing]
        exact tag.noted fun more after there => Entries.children rest (text ++ more) depth after (.inl there)

end

end Build

/-! ### What is well formed -/

/-- The low 32 bits hold the integer, where no more of it is printed. -/
def Fits (lp64 : Bool) (n : Int64) : Prop := lp64 = true → -2 ^ 31 ≤ n.toInt ∧ n.toInt < 2 ^ 31

theorem bigText_eq_iff {lp64 : Bool} {n : Int64} : bigText lp64 n = decimal n.toInt ↔ Fits lp64 n := by
  cases lp64 with
  | false => exact iff_of_true rfl fun long => absurd long Bool.false_ne_true
  | true =>
    have low : n.toInt32.toInt = n.toInt.bmod (2 ^ 32) := Int64.toInt_toInt32 n
    constructor
    · intro same _
      have narrow : n.toInt32.toInt64.toInt = n.toInt32.toInt := Int32.toInt_toInt64 _
      rw [bigText,if_pos rfl,← narrow] at same
      have back := congrArg Int64.toInt (Logic.decimal_injective same)
      rw [narrow] at back
      rw [← back]
      exact ⟨n.toInt32.le_toInt,n.toInt32.toInt_lt⟩
    · intro fits
      obtain ⟨least,most⟩ := fits rfl
      rw [bigText,if_pos rfl,low,Int.bmod_eq_of_le (by omega) (by omega)]

section Claim
variable (DoubleToString : Float → List UInt8) (lp64 : Bool) (root : Value)

/-- The tags are balanced, and the 64-bit integers are written in decimal, in order. -/
def WellFormed : Prop :=
  ∃ text, Serialize DoubleToString lp64 root = some text ∧ Tagged text ∧ (∀ n ∈ bigs root, bigText lp64 n = decimal n.toInt) ∧
    Appear (bigs root) text

/-- Every tag has a value that closes it. -/
def Good : Prop := Content root ∧ unclosed root = 0 ∧ ∀ n ∈ bigs root, Fits lp64 n

theorem wellFormed_iff : (Good lp64 root → WellFormed DoubleToString lp64 root) ∧
    (Content root → WellFormed DoubleToString lp64 root → Good lp64 root) := by
  have document (content : Content root) : ∃ text, Serialize DoubleToString lp64 root = some text ∧
      Doc lp64 text (unclosed root) (bigs root) := by
    obtain ⟨text,after,written,-,doc⟩ := @Content.written DoubleToString lp64 root content [] 0 fun _ => none
    refine ⟨text,?_,doc⟩
    rw [Serialize,written]
    rfl
  constructor
  · rintro ⟨content,closed,fits⟩
    obtain ⟨text,written,doc⟩ := document content
    have exact_ : ∀ n ∈ bigs root, bigText lp64 n = decimal n.toInt := fun n member => bigText_eq_iff.mpr (fits n member)
    exact ⟨text,written,doc.tagged closed,exact_,doc.appear exact_⟩
  · rintro content ⟨text,written,tagged,exact_,-⟩
    obtain ⟨text',written',doc⟩ := document content
    rw [written,Option.some_inj] at written'
    subst written'
    refine ⟨content,?_,fun n member => bigText_eq_iff.mp (exact_ n member)⟩
    have opened := (doc.adds []).symm.trans (tagged.adds [])
    rw [surplus] at opened
    omega

end Claim

/-- A tag with one attribute and a text. -/
def attributed : Value :=
  .dictionary [(key "a",.dictionary [(key "#text",.string (ascii "x")),(key "#xmltype",.fundamental (.integer 2)),(key "-b",.string (ascii "y"))])]

theorem attributed_wellFormed : Good true attributed ∧ WellFormed (fun _ => []) true attributed := by
  have attribute_ : Unmarked (tagName ((key "-b").drop 1)) := unmarked_of_all rfl
  have tag : IsName (tagName (key "a")) := ⟨by decide,fun c member => by rw [List.mem_singleton.mp member]; decide⟩
  have flat : Flat false (.string (ascii "y")) := ⟨(unmarked_of_all rfl),fun quiet => absurd quiet Bool.false_ne_true⟩
  have text : Content (.string (ascii "x")) := unmarked_of_all rfl
  have good : Good true attributed := by
    refine ⟨⟨by decide,.inr (.inr (.inr ⟨by decide,tag,.inr ⟨by decide,?_⟩⟩)),trivial⟩,by decide,fun n none_ => absurd none_ List.not_mem_nil⟩
    exact ⟨.inr (.inl ⟨rfl,text⟩),.inl rfl,.inr (.inr (.inl ⟨⟨rfl,rfl⟩,attribute_,flat⟩)),trivial⟩
  exact ⟨good,(wellFormed_iff (fun _ => []) true attributed).1 good⟩

/-- The tag of a string stays open. -/
theorem tag_open : ¬WellFormed (fun _ => []) true (.dictionary [(key "a",.string (ascii "x"))]) := by
  rintro ⟨text,written,tagged,-⟩
  have same : Serialize (fun _ => []) true (.dictionary [(key "a",.string (ascii "x"))]) = some (ascii "<a>x") := rfl
  rw [same,Option.some_inj] at written
  have balanced := tagged.adds []
  rw [← written] at balanced
  revert balanced
  decide

end Migfm.Logic.XMLValueSerializer
