import Migfm.Public.JsonTexts

/-! What `FastWriter` writes, `Reader` reads back: the same value but for the kinds of its numbers. -/
namespace Migfm.Public.Json
open Library.SortedMap
open Logic (ascii decimalDigits)

section Reading
variable {tool : Tool}

/-! ### What is held -/

theorem held_object (members : List (List UInt8 × Value)) : (Value.object members).held =
    .object (entries (keyed (members.map fun member => (member.1,member.2.held)))) := fold_object members

theorem held_array (items : List Value) : (Value.array items).held = .array (items.map Value.held) := fold_array items

theorem asRead_object (members : List (List UInt8 × Value)) : tool.asRead (.object members) =
    .object (members.map fun member => (member.1,tool.asRead member.2)) := fold_object members

theorem asRead_array (items : List Value) : tool.asRead (.array items) = .array (items.map tool.asRead) := fold_array items

theorem kind_leaf (value : Value) (single : value.Leaf) : (tool.kind value).Leaf ∧ (tool.kind value).cut = tool.kind value.cut := by
  cases value with
  | int value =>
    change _ ∧ (tool.kind (.int value)).cut = tool.kind (.int value)
    rw [Tool.kind]
    split
    · exact ⟨trivial,rfl⟩
    · exact ⟨trivial,rfl⟩
  | uint value =>
    change _ ∧ (tool.kind (.uint value)).cut = tool.kind (.uint value)
    rw [Tool.kind]
    split
    · exact ⟨trivial,rfl⟩
    · exact ⟨trivial,rfl⟩
  | real value =>
    change _ ∧ (tool.kind (.real value)).cut = tool.kind (.real value)
    rw [Tool.kind]
    cases tool.sscanf (valueToString_double tool value) with
    | none => exact ⟨trivial,rfl⟩
    | some other => exact ⟨trivial,rfl⟩
  | array items => cases single
  | object members => cases single
  | _ => exact ⟨trivial,rfl⟩

theorem cut_cut (value : Value) : value.cut.cut = value.cut := by
  cases value with
  | string value => exact congrArg Value.string (c_str_nonzero (c_str_zero value))
  | _ => rfl

theorem held_leaf {value : Value} (single : value.Leaf) : value.held = value.cut := fold_leaf single

theorem leaf_cut {value : Value} (single : value.Leaf) : value.cut.Leaf := by
  cases value with
  | array items => cases single
  | object members => cases single
  | _ => trivial

theorem entries_reverse (members : List (List UInt8 × Value)) :
    entries (keyed (entries (keyed members)).reverse) = entries (keyed members) := by
  rw [keyed_eq]
  · exact entries_perm (List.reverse_perm _)
  · intro member listed
    exact keyed_nonzero member (entries_subset (List.mem_reverse.mp listed))

/-- What the reader makes of the text holds what the value in the reader's kinds holds. -/
theorem held_back (value : Value) : (back tool value).held = (tool.asRead value).held := by
  induction value using Value.rule with
  | leaf value single =>
    obtain ⟨kept,cut⟩ := @kind_leaf tool value single
    obtain ⟨kept',cut'⟩ := @kind_leaf tool value.cut (leaf_cut single)
    rw [back,fold_leaf single,Tool.asRead,fold_leaf single,held_leaf kept,held_leaf kept',cut,cut',cut_cut]
  | array items ih =>
    have each : ∀ item ∈ items, (Value.held ∘ back tool) item = (Value.held ∘ tool.asRead) item := ih
    rw [back,fold_array,← back,asRead_array,held_array,held_array,List.map_map,List.map_map,List.map_congr_left each]
  | object members ih =>
    have each : ∀ member ∈ members, (member.1,(back tool member.2).held) = (member.1,(tool.asRead member.2).held) := by
      intro member listed
      rw [ih member listed]
    rw [back,fold_object,← back,asRead_object,held_object,held_object,keyed_map,entries_map,entries_reverse,← entries_map,← keyed_map,
      List.map_map,List.map_map]
    exact congrArg (fun members => Value.object (entries (keyed members))) (List.map_congr_left each)

theorem held_asRead (value : Value) : (tool.asRead value).held = tool.asRead value.held := by
  induction value using Value.rule with
  | leaf value single =>
    obtain ⟨kept,cut⟩ := @kind_leaf tool value single
    rw [Tool.asRead,fold_leaf single,held_leaf kept,held_leaf single,cut,fold_leaf (leaf_cut single)]
  | array items ih =>
    have each : ∀ item ∈ items, (Value.held ∘ tool.asRead) item = (tool.asRead ∘ Value.held) item := ih
    rw [asRead_array,held_array,held_array,asRead_array,List.map_map,List.map_map,List.map_congr_left each]
  | object members ih =>
    have each : ∀ member ∈ members, (member.1,(tool.asRead member.2).held) = (member.1,tool.asRead member.2.held) := by
      intro member listed
      rw [ih member listed]
    rw [asRead_object,held_object,held_object,asRead_object,← entries_map,← keyed_map,List.map_map,List.map_map]
    exact congrArg (fun members => Value.object (entries (keyed members))) (List.map_congr_left each)

/-! ### The round trip -/

/-- An `int` above 2^31 - 1 is read as unsigned, and an unsigned number that is not above it as `int`. -/
def Tool.SameKind (tool : Tool) : Value → Prop
  | .int value => value ≤ 0x7fffffff
  | .uint value => ¬value ≤ 0x7fffffff
  | .real value => ∀ other, tool.sscanf (valueToString_double tool value) = some other → other = value
  | _ => True

def Tool.Keeps (tool : Tool) (value : Value) : Prop := ∀ leaf : Value, leaf.Part value → tool.SameKind leaf

theorem keeps_array {items : List Value} : tool.Keeps (.array items) ↔ ∀ item ∈ items, tool.Keeps item := by
  constructor
  · intro keeps item member leaf part
    exact keeps leaf (.item member part)
  · intro each leaf part
    cases part with
    | here single => cases single
    | item member part => exact each _ member leaf part

theorem keeps_object {members : List (List UInt8 × Value)} : tool.Keeps (.object members) ↔ ∀ member ∈ members, tool.Keeps member.2 := by
  constructor
  · intro keeps member listed leaf part
    exact keeps leaf (.member listed part)
  · intro each leaf part
    cases part with
    | here single => cases single
    | member listed part => exact each _ listed leaf part

theorem sameKind_iff (value : Value) : tool.SameKind value ↔ tool.kind value = value := by
  cases value with
  | int value =>
    rw [Tool.SameKind,Tool.kind]
    split
    · rename_i small
      exact iff_of_true small rfl
    · rename_i large
      exact iff_of_false large Value.noConfusion
  | uint value =>
    rw [Tool.SameKind,Tool.kind]
    split
    · rename_i small
      exact iff_of_false (not_not.mpr small) Value.noConfusion
    · rename_i large
      exact iff_of_true large rfl
  | real value =>
    rw [Tool.SameKind,Tool.kind]
    cases tool.sscanf (valueToString_double tool value) with
    | none =>
      refine iff_of_true ?_ rfl
      intro other same
      cases same
    | some read =>
      rw [Option.map_some,Option.getD_some,Value.real.injEq]
      constructor
      · intro same
        exact same read rfl
      · intro same other found
        cases found
        exact same
  | _ => exact iff_of_true trivial rfl

theorem keeps_leaf {value : Value} (single : value.Leaf) : tool.Keeps value ↔ tool.SameKind value := by
  constructor
  · intro keeps
    exact keeps value (.here single)
  · intro same leaf part
    cases part with
    | here => exact same
    | item => cases single
    | member => cases single

theorem map_eq_self {α : Type} {f : α → α} {items : List α} : items.map f = items ↔ ∀ item ∈ items, f item = item := by
  rw [← List.map_inj_left,List.map_id']

theorem keeps_iff (value : Value) : tool.Keeps value ↔ tool.asRead value = value := by
  induction value using Value.rule with
  | leaf value single => rw [keeps_leaf single,sameKind_iff,Tool.asRead,fold_leaf single]
  | array items ih =>
    rw [keeps_array,asRead_array,Value.array.injEq,map_eq_self]
    exact forall₂_congr ih
  | object members ih =>
    rw [keeps_object,asRead_object,Value.object.injEq,map_eq_self]
    refine forall₂_congr fun member listed => (ih member listed).trans ?_
    rw [Prod.ext_iff]
    exact (and_iff_right rfl).symm

theorem readDocument_write (documented : tool.Documented) (yaml : Bool) {root : Value} (prints : tool.Prints root) :
    readDocument tool.codePointToUTF8 tool.sscanf (FastWriter.write tool yaml root) = some (back tool root) := by
  have read := (readBack_value documented yaml prints).read (2 * (FastWriter.write tool yaml root).length + 2) [10]
    (by rw [FastWriter.write,List.length_append]; omega) (ends_listed [] (by simp))
  rw [readDocument,parse,FastWriter.write] at *
  rw [read]
  rfl

/-- The reader takes what `FastWriter` writes, and gives a value that holds the same but for the kinds of its numbers. -/
theorem FastWriter_read (documented : tool.Documented) (yaml : Bool) {root : Value} (prints : tool.Prints root) :
    ∃ value, readDocument tool.codePointToUTF8 tool.sscanf (FastWriter.write tool yaml root) = some value ∧
      value.held = (tool.asRead root).held ∧ (value.held = root.held ↔ tool.Keeps root.held) := by
  refine ⟨back tool root,readDocument_write documented yaml prints,held_back root,?_⟩
  rw [held_back,held_asRead,keeps_iff]

/-- The tools of json_tool.h and the C library, on what `note` needs of them. -/
def noteTool : Tool where
  codePointToUTF8 code := [code.toUInt8]
  isControlCharacter c := 0 < c ∧ c < 32
  uintToString value := decimalDigits value.toNat
  sprintf _ := ascii "1.500000000000000"
  sscanf text := if text = ascii "1.50" then some 1.5 else none

/-- A string that must be escaped, a number above 2^31 - 1, and a name twice, of which the first counts. -/
def note : Value := .object [
  (ascii "b",.array [.int (-7),.int 4294967296,.real 1.5]),
  (ascii "a",.string (ascii "\"up\"\n" ++ [1])),
  (ascii "b",.null)]

theorem noteTool_documented : noteTool.Documented where
  utf8 c small := by
    change [c.toNat.toUInt8] = [c]
    rw [Nat.toUInt8_eq,UInt8.ofNat_toNat]
  control c := decide_eq_true_iff
  decimal value := rfl

theorem note_prints : noteTool.Prints note := by
  intro x part
  have printed : Printed (ascii "1.500000000000000") := ⟨⟨⟨49,_,rfl,by decide⟩,List.all_eq_true.mp rfl⟩,List.contains_iff_mem.mp rfl⟩
  exact ⟨printed,rfl⟩

theorem note_held : note.held = .object [
    (ascii "a",.string (ascii "\"up\"\n" ++ [1])),
    (ascii "b",.array [.int (-7),.int 4294967296,.real 1.5])] := by
  rfl

theorem note_read : ∃ value, readDocument noteTool.codePointToUTF8 noteTool.sscanf (FastWriter.write noteTool false note) = some value ∧
    value.held = .object [
      (ascii "a",.string (ascii "\"up\"\n" ++ [1])),
      (ascii "b",.array [.int (-7),.uint 4294967296,.real 1.5])] ∧ value.held ≠ note.held := by
  obtain ⟨value,read,holds,same⟩ := FastWriter_read noteTool_documented false note_prints
  refine ⟨value,read,holds.trans ?_,?_⟩
  · rfl
  · intro held
    have keeps := same.mp held
    rw [note_held] at keeps
    have large := keeps (.int 4294967296) (.member (.tail _ (.head _)) (.item (.tail _ (.head _)) (.here trivial)))
    revert large
    exact (by decide : ¬(4294967296 : Int64) ≤ 0x7fffffff)

/-! ### Members and leaves -/

/-- What is read under a name is what the reader makes of the value there. -/
theorem member_back {members : List (List UInt8 × Value)} (nonzero : ∀ member ∈ members, 0 ∉ member.1) (name : List UInt8) :
    (back tool (.object members)).member name = some (((members.lookup name).map (back tool)).getD .null) := by
  have kept : keyed (members.map fun member => (member.1,back tool member.2)) = members.map fun member => (member.1,back tool member.2) := by
    apply keyed_eq
    intro member listed
    obtain ⟨other,within,rfl⟩ := List.mem_map.mp listed
    exact nonzero other within
  rw [back,fold_object,← back,kept,Value.member,lookup_entries,lookup_find,find_map,lookup_find,Option.map_map,Option.map_map]
  rfl

theorem text_back {members : List (List UInt8 × Value)} (nonzero : ∀ member ∈ members, 0 ∉ member.1) {name value : List UInt8}
    (found : members.lookup name = some (.string value)) : (back tool (.object members)).text name = some (c_str value) := by
  rw [Value.text,member_back nonzero,found]
  exact congrArg some (c_str_nonzero (c_str_zero value))

theorem text_back_absent {members : List (List UInt8 × Value)} (nonzero : ∀ member ∈ members, 0 ∉ member.1) {name : List UInt8}
    (absent : members.lookup name = none) : (back tool (.object members)).text name = some [] := by
  rw [Value.text,member_back nonzero,absent]
  rfl

theorem prints_leaf {value : Value} (other : ∀ x, value ≠ .real x) (single : value.Leaf) : tool.Prints value := by
  intro x part
  cases part with
  | here => exact absurd rfl (other x)
  | item => cases single
  | member => cases single

theorem prints_array {items : List Value} (each : ∀ item ∈ items, tool.Prints item) : tool.Prints (.array items) := by
  intro x part
  cases part with
  | item member part => exact each _ member x part

theorem prints_object {members : List (List UInt8 × Value)} (each : ∀ member ∈ members, tool.Prints member.2) :
    tool.Prints (.object members) := by
  intro x part
  cases part with
  | member listed part => exact each _ listed x part

/-! ### C strings -/

theorem escaped_nonzero {c : UInt8} {text : List UInt8} (stands : Escaped tool c text) (nonzero : c ≠ 0) : 0 ∉ text := by
  cases stands with
  | plain quote backslash =>
    rw [List.mem_singleton]
    exact nonzero.symm
  | pair other same =>
    intro listed
    simp only [List.mem_cons,List.not_mem_nil,or_false] at listed
    rcases listed with zero | rfl
    · cases zero
    · cases same
  | @unicode first second _ _ _ _ _ read =>
    intro listed
    simp only [List.mem_cons,List.not_mem_nil,or_false] at listed
    rcases listed with zero | zero | zero | zero | rfl | rfl
    · cases zero
    · cases zero
    · cases zero
    · cases zero
    · cases read
    · cases found : hexDigit first with
      | none =>
        simp only [decodeUnicodeEscapeSequence,found] at read
        cases read
      | some digit =>
        simp only [decodeUnicodeEscapeSequence,found] at read
        cases read

theorem quotedString_nonzero (documented : tool.Documented) (value : List UInt8) : 0 ∉ valueToQuotedString tool value := by
  rw [valueToQuotedString_eq]
  intro listed
  simp only [List.mem_cons,List.mem_append,List.mem_flatMap,List.not_mem_nil,or_false] at listed
  rcases listed with zero | ⟨c,within,zero⟩ | zero
  · cases zero
  · refine escaped_nonzero (escaped_byte documented c) ?_ zero
    rintro rfl
    exact c_str_zero value within
  · cases zero

theorem Numeral.nonzero {text : List UInt8} (numeral : Numeral text) : 0 ∉ text := by
  intro zero
  have number := numeral.each 0 zero
  cases number

theorem leaf_nonzero (documented : tool.Documented) {value : Value} (single : value.Leaf) (prints : tool.Prints value) :
    0 ∉ writeLeaf tool value := by
  cases value with
  | null =>
    rw [writeLeaf]
    decide
  | int value =>
    rw [writeLeaf,valueToString_LargestInt,documented.decimal,documented.decimal]
    split
    · exact (numeral_digits _).negative.nonzero
    · exact (numeral_digits _).nonzero
  | uint value =>
    rw [writeLeaf,documented.decimal]
    exact (numeral_digits _).nonzero
  | real value => exact (printed_double (prints value (.here trivial)).1).nonzero
  | string value => exact quotedString_nonzero documented value
  | boolean value =>
    rw [writeLeaf]
    cases value
    · decide
    · decide
  | array items => cases single
  | object members => cases single

theorem listed_nonzero {close : UInt8} (apart : close ≠ 0) {texts : List (List UInt8)} (each : ∀ text ∈ texts, 0 ∉ text) :
    0 ∉ listed close texts := by
  induction texts using listed.induct with
  | case1 =>
    rw [listed,List.mem_singleton]
    exact apart.symm
  | case2 text =>
    rw [listed,List.mem_append,List.mem_singleton,not_or]
    exact ⟨each text (.head _),apart.symm⟩
  | case3 text texts some_ ih =>
    obtain ⟨first,each⟩ := List.forall_mem_cons.mp each
    rw [listed,List.mem_append,List.mem_cons,not_or,not_or]
    · exact ⟨first,by decide,ih each⟩
    · exact some_

theorem writeValue_nonzero (documented : tool.Documented) (yaml : Bool) {value : Value} (prints : tool.Prints value) :
    0 ∉ writeValue tool yaml value := by
  induction value using Value.rule with
  | leaf value single =>
    rw [writeValue,fold_leaf single]
    exact leaf_nonzero documented single prints
  | array items ih =>
    rw [writeValue,fold_array,List.mem_cons,not_or]
    refine ⟨by decide,listed_nonzero (by decide) ?_⟩
    intro text member
    obtain ⟨item,within,rfl⟩ := List.mem_map.mp member
    exact ih item within fun x part => prints x (.item within part)
  | object members ih =>
    rw [writeValue,fold_object,List.mem_cons,not_or]
    refine ⟨by decide,listed_nonzero (by decide) ?_⟩
    intro text member
    obtain ⟨entry,within,rfl⟩ := List.mem_map.mp member
    obtain ⟨other,among,rfl⟩ := List.mem_map.mp (entries_subset within)
    obtain ⟨first,inside,rfl⟩ := List.mem_map.mp among
    rw [writeMember,List.mem_append,List.mem_append,not_or,not_or]
    refine ⟨⟨quotedString_nonzero documented _,?_⟩,ih first inside fun x part => prints x (.member inside part)⟩
    cases yaml
    · decide
    · decide

theorem write_c_str (documented : tool.Documented) (yaml : Bool) {root : Value} (prints : tool.Prints root) :
    c_str (FastWriter.write tool yaml root) = FastWriter.write tool yaml root := by
  apply c_str_nonzero
  rw [FastWriter.write,List.mem_append,not_or]
  exact ⟨writeValue_nonzero documented yaml prints,by decide⟩

end Reading

end Migfm.Public.Json
