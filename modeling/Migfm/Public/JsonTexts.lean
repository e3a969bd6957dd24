import Migfm.Public.JsonWriter

/-! The texts of `FastWriter` are read back part by part: numbers, strings, arrays and objects. -/
namespace Migfm.Public.Json
open Library.SortedMap
open Logic (ascii decimalDigits isDigit denoted)

/-! ### Values -/

def Value.Leaf : Value → Prop
  | .array _ => False
  | .object _ => False
  | _ => True

theorem Value.rule {P : Value → Prop} (leaf : ∀ value, Leaf value → P value)
    (array : ∀ items, (∀ item ∈ items, P item) → P (.array items))
    (object : ∀ members, (∀ member ∈ members, P member.2) → P (.object members)) (value : Value) : P value := by
  apply @Value.rec P (fun items => ∀ item ∈ items, P item) (fun members => ∀ member ∈ members, P member.2) fun member => P member.2
  · exact leaf _ trivial
  · exact fun value => leaf _ trivial
  · exact fun value => leaf _ trivial
  · exact fun value => leaf _ trivial
  · exact fun value => leaf _ trivial
  · exact fun value => leaf _ trivial
  · exact array
  · exact object
  · intro item member
    cases member
  · intro item items first rest
    exact List.forall_mem_cons.mpr ⟨first,rest⟩
  · intro item member
    cases member
  · intro member members first rest
    exact List.forall_mem_cons.mpr ⟨first,rest⟩
  · exact fun name value each => each

section Fold
variable {β : Type} {leaf : Value → β} {array : List β → β} {object : List (List UInt8 × β) → β}

theorem fold_leaf {value : Value} (single : value.Leaf) : value.fold leaf array object = leaf value := by
  cases value with
  | array items => cases single
  | object members => cases single
  | _ => rfl

theorem fold_array (items : List Value) : (Value.array items).fold leaf array object = array (items.map (Value.fold leaf array object)) := by
  rw [Value.fold,foldItems_map]

theorem fold_object (members : List (List UInt8 × Value)) : (Value.object members).fold leaf array object =
    object (members.map fun member => (member.1,member.2.fold leaf array object)) := by
  rw [Value.fold,foldMembers_map]

end Fold

theorem keyed_map {α β : Type} (f : α → β) (members : List (List UInt8 × α)) :
    keyed (members.map fun member => (member.1,f member.2)) = (keyed members).map fun member => (member.1,f member.2) := by
  rw [keyed,List.map_map,keyed,List.map_map]
  rfl

theorem keyed_nonzero {α : Type} {members : List (List UInt8 × α)} : ∀ member ∈ keyed members, 0 ∉ member.1 := by
  intro member listed
  obtain ⟨other,_,rfl⟩ := List.mem_map.mp listed
  exact c_str_zero other.1

theorem keyed_eq {α : Type} {members : List (List UInt8 × α)} (nonzero : ∀ member ∈ members, 0 ∉ member.1) : keyed members = members := by
  have same : ∀ member ∈ members, (fun member => (c_str member.1,member.2)) member = id member := by
    intro member listed
    exact Prod.ext (c_str_nonzero (nonzero member listed)) rfl
  rw [keyed,List.map_congr_left same,List.map_id]

/-! ### Numbers -/

/-- How the text of a number starts and what it is made of. -/
structure Numeral (text : List UInt8) : Prop where
  starts : ∃ c rest, text = c::rest ∧ ((48 ≤ c ∧ c ≤ 57) ∨ c = 45)
  each : ∀ c ∈ text, isNumber c

/-- A number ends here. -/
def Ends (rest : List UInt8) : Prop := ∀ c ∈ rest.head?, ¬isNumber c

theorem ends_listed {c : UInt8} (rest : List UInt8) (mark : c ∈ [44,93,125,10]) : Ends (c::rest) := by
  intro first same
  rw [List.head?_cons] at same
  cases same
  simp only [List.mem_cons,List.not_mem_nil,or_false] at mark
  rcases mark with rfl | rfl | rfl | rfl
  all_goals decide

theorem readToken_numeral {text rest : List UInt8} (numeral : Numeral text) (ends : Ends rest) :
    readToken (text ++ rest) = (.number text,rest) := by
  obtain ⟨⟨c,digits,rfl,first⟩,each⟩ := numeral
  obtain ⟨_,each⟩ := List.forall_mem_cons.mp each
  have visible : c ≠ 32 ∧ c ≠ 9 ∧ c ≠ 13 ∧ c ≠ 10 := by
    refine ⟨?_,?_,?_,?_⟩
    all_goals
      rintro rfl
      revert first
      decide
  have cut : rest.takeWhile isNumber = [] ∧ rest.dropWhile isNumber = rest := by
    cases rest with
    | nil => exact ⟨rfl,rfl⟩
    | cons next rest =>
      have other := ends next rfl
      exact ⟨List.takeWhile_cons_of_neg other,List.dropWhile_cons_of_neg other⟩
  have taken : (digits ++ rest).takeWhile isNumber = digits := by
    rw [List.takeWhile_append_of_pos each,cut.1,List.append_nil]
  have dropped : (digits ++ rest).dropWhile isNumber = rest := by
    rw [List.dropWhile_append_of_pos each,cut.2]
  rw [List.cons_append,readToken,skipSpaces_visible _ visible]
  split
  all_goals rename_i same
  all_goals cases same
  all_goals try exact absurd first (by decide)
  rw [if_pos first,taken,dropped]

theorem le_foldl_some {digits : List UInt8} (some_ : digits ≠ []) (n : Nat) :
    10 * n ≤ digits.foldl (fun n digit => 10 * n + (digit.toNat - 48)) n := by
  obtain ⟨digit,digits,rfl⟩ := List.exists_cons_of_ne_nil some_
  rw [List.foldl_cons]
  exact (Nat.le_add_right ..).trans (le_foldl_digits digits _)

/-- Digits of a number that is not above the largest are never too many. -/
theorem decodeDigits_exact {threshold last : UInt64} (positive : 0 < threshold.toNat) (digit : last.toNat ≤ 9)
    (bounded : 10 * threshold.toNat + last.toNat < 2 ^ 64) {digits : List UInt8} {value : UInt64}
    (each : ∀ c ∈ digits, 48 ≤ c ∧ c ≤ 57)
    (small : digits.foldl (fun n digit => 10 * n + (digit.toNat - 48)) value.toNat ≤ 10 * threshold.toNat + last.toNat) :
    ∃ number, decodeDigits threshold last value digits = some number ∧
      number.toNat = digits.foldl (fun n digit => 10 * n + (digit.toNat - 48)) value.toNat := by
  induction digits generalizing value with
  | nil => exact ⟨value,rfl,rfl⟩
  | cons c digits ih =>
    obtain ⟨⟨low,_⟩,each⟩ := List.forall_mem_cons.mp each
    rw [List.foldl_cons] at small
    have least := (le_foldl_digits digits (10 * value.toNat + (c.toNat - 48))).trans small
    have byte : (c - 48).toUInt64.toNat = c.toNat - 48 := by
      rw [UInt8.toNat_toUInt64,UInt8.toNat_sub_of_le _ _ low]
      rfl
    have next : (value * 10 + (c - 48).toUInt64).toNat = 10 * value.toNat + (c.toNat - 48) := by
      rw [UInt64.toNat_add,UInt64.toNat_mul,byte]
      change (value.toNat * 10 % 2 ^ 64 + (c.toNat - 48)) % 2 ^ 64 = _
      omega
    have fits : ¬(value ≥ threshold ∧ (digits ≠ [] ∨ (c - 48).toUInt64 > last)) := by
      rintro ⟨many,more | beyond⟩
      · have tens := (le_foldl_some more (10 * value.toNat + (c.toNat - 48))).trans small
        rw [ge_iff_le,UInt64.le_iff_toNat_le] at many
        omega
      · rw [gt_iff_lt,UInt64.lt_iff_toNat_lt,byte] at beyond
        rw [ge_iff_le,UInt64.le_iff_toNat_le] at many
        omega
    have rest := @ih (value * 10 + (c - 48).toUInt64) each (by rw [next]; exact small)
    rw [next] at rest
    rw [decodeDigits,List.foldl_cons,if_neg fits]
    exact rest

theorem numeral_digits (n : Nat) : Numeral (decimalDigits n) := by
  obtain ⟨c,digits,starts,_⟩ := Logic.decimalDigits_head n
  refine ⟨⟨c,digits,starts,.inl (digit_bounds c (starts ▸ List.mem_cons_self))⟩,?_⟩
  intro c listed
  exact decide_eq_true (.inl (digit_bounds c listed))

theorem Numeral.negative {text : List UInt8} (numeral : Numeral text) : Numeral (45::text) :=
  ⟨⟨45,text,rfl,.inr rfl⟩,List.forall_mem_cons.mpr ⟨by decide,numeral.each⟩⟩

section Decoding
variable (sscanf : List UInt8 → Option Float)

/-- Digits behind a sign or none are no double. -/
theorem whole_number {first : UInt8} {digits : List UInt8} (sign : (48 ≤ first ∧ first ≤ 57) ∨ first = 45)
    (each : ∀ c ∈ digits, 48 ≤ c ∧ c ≤ 57) :
    ((first::digits).any (· ∈ [46,101,69,43]) || ((first::digits).drop 1).any (· = 45)) = false := by
  have bytes : ∀ c ∈ first::digits, c ∉ [46,101,69,43] := by
    intro c listed mark
    have shape : (48 ≤ c ∧ c ≤ 57) ∨ c = 45 := by
      rcases List.mem_cons.mp listed with rfl | digit
      · exact sign
      · exact .inl (each c digit)
    simp only [List.mem_cons,List.not_mem_nil,or_false] at mark
    revert shape
    rcases mark with rfl | rfl | rfl | rfl
    all_goals decide
  rw [Bool.or_eq_false_iff,List.any_eq_false,List.any_eq_false]
  constructor
  · intro c listed mark
    exact bytes c listed (of_decide_eq_true mark)
  · intro c listed minus
    obtain ⟨low,_⟩ := each c listed
    rw [of_decide_eq_true minus] at low
    revert low
    decide

theorem decodeNumber_uint (value : UInt64) : decodeNumber sscanf (decimalDigits value.toNat) =
    some (if value ≤ 0x7fffffff then .int value.toInt64 else .uint value) := by
  obtain ⟨c,digits,starts,_⟩ := Logic.decimalDigits_head value.toNat
  have each := @digit_bounds value.toNat
  have sum : denoted (decimalDigits value.toNat) = value.toNat := Logic.denoted_decimalDigits value.toNat
  have bound := value.toNat_lt
  obtain ⟨number,decoded,same⟩ := @decodeDigits_exact (0xffffffffffffffff / 10) (0xffffffffffffffff % 10)
    (by decide) (by decide) (by decide) (decimalDigits value.toNat) 0 each (by
      change denoted (decimalDigits value.toNat) ≤ 18446744073709551615
      rw [sum]
      omega)
  change number.toNat = denoted (decimalDigits value.toNat) at same
  rw [sum] at same
  rw [UInt64.toNat_inj.mp same] at decoded
  rw [starts] at each
  obtain ⟨first,each⟩ := List.forall_mem_cons.mp each
  have whole := whole_number (.inl first) each
  have unsigned : ∀ rest, c::digits = 45::rest → False := by
    intro rest minus
    cases minus
    revert first
    decide
  rw [starts] at decoded ⊢
  rw [decodeNumber,whole,if_neg Bool.false_ne_true,decoded]
  exact unsigned

theorem decodeNumber_negative {value : UInt64} (small : value.toNat ≤ 2 ^ 63) :
    decodeNumber sscanf (45::decimalDigits value.toNat) = some (.int (-value.toInt64)) := by
  have each := @digit_bounds value.toNat
  have sum : denoted (decimalDigits value.toNat) = value.toNat := Logic.denoted_decimalDigits value.toNat
  obtain ⟨number,decoded,same⟩ := @decodeDigits_exact (0x8000000000000000 / 10) (0x8000000000000000 % 10)
    (by decide) (by decide) (by decide) (decimalDigits value.toNat) 0 each (by
      change denoted (decimalDigits value.toNat) ≤ 9223372036854775808
      rw [sum]
      omega)
  change number.toNat = denoted (decimalDigits value.toNat) at same
  rw [sum] at same
  rw [UInt64.toNat_inj.mp same] at decoded
  rw [decodeNumber,whole_number (.inr rfl) each,if_neg Bool.false_ne_true,decoded]

theorem decodeNumber_point {text : List UInt8} (point : 46 ∈ text) : decodeNumber sscanf text = (sscanf text).map .real := by
  have double : text.any (· ∈ [46,101,69,43]) = true := List.any_eq_true.mpr ⟨46,point,by decide⟩
  rw [decodeNumber.eq_def,double,Bool.true_or,if_pos rfl]

end Decoding

/-! ### Strings -/

/-- What json_tool.h documents. -/
structure Tool.Documented (tool : Tool) : Prop where
  utf8 : ∀ c : UInt8, c < 128 → tool.codePointToUTF8 c.toNat = [c]
  control : ∀ c, tool.isControlCharacter c ↔ 0 < c ∧ c < 32
  decimal : ∀ value, tool.uintToString value = decimalDigits value.toNat

section Strings
variable {tool : Tool}

/-- A byte as it stands in a string. -/
inductive Escaped (tool : Tool) (c : UInt8) : List UInt8 → Prop
  | plain : c ≠ 34 → c ≠ 92 → Escaped tool c [c]
  | pair {mark : UInt8} : mark ≠ 117 → escape mark = some c → Escaped tool c [92,mark]
  | unicode {first second : UInt8} : c < 128 → first ≠ 34 → first ≠ 92 → second ≠ 34 → second ≠ 92 →
      decodeUnicodeEscapeSequence [48,48,first,second] = some (c.toNat,[]) → Escaped tool c [92,117,48,48,first,second]

theorem escaped_hex : ∀ c : Fin 32, decodeUnicodeEscapeSequence [48,48,hexUppercase (c / 16),hexUppercase (c % 16)] = some (c.val,[]) ∧
    hexUppercase (c / 16) ≠ 34 ∧ hexUppercase (c / 16) ≠ 92 ∧ hexUppercase (c % 16) ≠ 34 ∧ hexUppercase (c % 16) ≠ 92 := by
  decide

theorem escaped_byte (documented : tool.Documented) (c : UInt8) : Escaped tool c (escaped tool c) := by
  unfold escaped
  split
  · exact .pair (by decide) rfl
  · exact .pair (by decide) rfl
  · exact .pair (by decide) rfl
  · exact .pair (by decide) rfl
  · exact .pair (by decide) rfl
  · exact .pair (by decide) rfl
  · exact .pair (by decide) rfl
  · rename_i quote backslash _ _ _ _ _
    split
    · rename_i control
      obtain ⟨_,small⟩ := (documented.control c).mp control
      have byte : c < 128 := UInt8.lt_trans small (by decide)
      obtain ⟨read,first,first',second,second'⟩ := escaped_hex ⟨c.toNat,UInt8.lt_iff_toNat_lt.mp small⟩
      rw [if_pos byte]
      exact .unicode byte first first' second second' read
    · exact .plain quote backslash

theorem readString_next {c : UInt8} (quote : c ≠ 34) (backslash : c ≠ 92) (tail : List UInt8) :
    readString (c::tail) = (readString tail).map fun found => (c::found.1,found.2) := by
  rw [readString]
  · exact quote
  · exact fun _ _ same => absurd same backslash

theorem readString_escaped {c : UInt8} {text : List UInt8} (stands : Escaped tool c text) (tail : List UInt8) :
    readString (text ++ tail) = (readString tail).map fun found => (text ++ found.1,found.2) := by
  cases stands with
  | plain quote backslash => exact readString_next quote backslash tail
  | pair other same => rfl
  | unicode small first first' second second' read =>
    simp only [List.cons_append,List.nil_append]
    rw [readString,readString_next (c := 48) (by decide) (by decide),readString_next (c := 48) (by decide) (by decide),
      readString_next first first',readString_next second second',Option.map_map,Option.map_map,Option.map_map,Option.map_map]
    rfl

theorem decodeUnicodeEscapeSequence_append (a b c d : UInt8) (tail : List UInt8) :
    decodeUnicodeEscapeSequence (a::b::c::d::tail) = (decodeUnicodeEscapeSequence [a,b,c,d]).map fun found => (found.1,tail) := by
  rw [decodeUnicodeEscapeSequence,decodeUnicodeEscapeSequence]
  cases hexDigit a with
  | none => rfl
  | some a =>
    cases hexDigit b with
    | none => rfl
    | some b =>
      cases hexDigit c with
      | none => rfl
      | some c => cases hexDigit d <;> rfl

theorem decodeString_escaped (documented : tool.Documented) {c : UInt8} {text : List UInt8} (stands : Escaped tool c text)
    (tail : List UInt8) :
    decodeString tool.codePointToUTF8 (text ++ tail) = (decodeString tool.codePointToUTF8 tail).map (c::·) := by
  cases stands with
  | plain quote backslash =>
    rw [List.singleton_append,decodeString]
    · exact quote
    · exact fun _ same => absurd same backslash
    · exact fun _ _ same => absurd same backslash
    · exact fun same => absurd same backslash
  | @pair mark other same =>
    rw [List.cons_append,List.singleton_append,decodeString,same]
    · cases decodeString tool.codePointToUTF8 tail <;> rfl
    · exact other
  | @unicode first second small _ _ _ _ read =>
    have sequence : decodeUnicodeEscapeSequence (48::48::first::second::tail) = some (c.toNat,tail) := by
      rw [decodeUnicodeEscapeSequence_append,read]
      rfl
    have low : ¬(0xd800 ≤ c.toNat ∧ c.toNat ≤ 0xdbff) := by
      have byte := c.toNat_lt
      omega
    have point : decodeUnicodeCodePoint (48::48::first::second::tail) = some (c.toNat,tail) := by
      rw [decodeUnicodeCodePoint,sequence]
      exact if_neg low
    simp only [List.cons_append,List.nil_append]
    rw [decodeString]
    split
    · rename_i found
      rw [point] at found
      cases found
      rw [documented.utf8 c small]
      rfl
    · rename_i found
      rw [point] at found
      cases found

theorem readString_flatMap (documented : tool.Documented) (value rest : List UInt8) :
    readString (value.flatMap (escaped tool) ++ 34::rest) = some (value.flatMap (escaped tool),rest) := by
  induction value with
  | nil => rfl
  | cons c value ih =>
    rw [List.flatMap_cons,List.append_assoc,readString_escaped (escaped_byte documented c),ih]
    rfl

theorem decodeString_flatMap (documented : tool.Documented) (value : List UInt8) :
    decodeString tool.codePointToUTF8 (value.flatMap (escaped tool)) = some value := by
  induction value with
  | nil => rw [List.flatMap_nil,decodeString]
  | cons c value ih =>
    rw [List.flatMap_cons,decodeString_escaped documented (escaped_byte documented c),ih]
    rfl

/-- The shortcut for a string with nothing to escape gives what the walk gives. -/
theorem valueToQuotedString_eq (tool : Tool) (value : List UInt8) :
    valueToQuotedString tool value = 34::((c_str value).flatMap (escaped tool) ++ [34]) := by
  rw [valueToQuotedString]
  split
  · rename_i none_
    obtain ⟨marks,controls⟩ := none_
    rw [List.any_eq_false] at marks controls
    have each : ∀ c ∈ c_str value, escaped tool c = [c] := by
      intro c listed
      have mark := marks c listed
      have control := controls c listed
      unfold escaped
      split
      · exact absurd rfl mark
      · exact absurd rfl mark
      · exact absurd rfl mark
      · exact absurd rfl mark
      · exact absurd rfl mark
      · exact absurd rfl mark
      · exact absurd rfl mark
      · exact if_neg control
    rw [List.flatMap_congr each,List.flatMap_singleton']
  · rfl

theorem readToken_quotedString (documented : tool.Documented) (value rest : List UInt8) :
    readToken (valueToQuotedString tool value ++ rest) = (.string ((c_str value).flatMap (escaped tool)),rest) := by
  rw [valueToQuotedString_eq,List.cons_append,List.append_assoc,readToken,skipSpaces_visible _ (by decide)]
  simp only [List.singleton_append,readString_flatMap documented]

end Strings

/-! ### Reading -/

section Reading
variable (tool : Tool)

/-- The text of a value in front of the end of a number: the reader takes the text and gives the value. -/
structure ReadBack (text : List UInt8) (value : Value) : Prop where
  starts : ∃ c rest, text = c::rest ∧ c ∉ [32,9,13,10,93]
  read : ∀ fuel rest, 2 * text.length ≤ fuel → Ends rest →
    readValue tool.codePointToUTF8 tool.sscanf fuel (text ++ rest) = some (value,rest)

variable {tool}

theorem readBack_numeral {text : List UInt8} {value : Value} (numeral : Numeral text) (decoded : decodeNumber tool.sscanf text = some value) :
    ReadBack tool text value := by
  obtain ⟨c,rest,same,first⟩ := numeral.starts
  refine ⟨⟨c,rest,same,?_⟩,?_⟩
  · intro mark
    simp only [List.mem_cons,List.not_mem_nil,or_false] at mark
    revert first
    rcases mark with rfl | rfl | rfl | rfl | rfl
    all_goals decide
  · intro fuel rest enough ends
    obtain ⟨fuel,rfl⟩ : ∃ less, fuel = less + 1 := ⟨fuel - 1,by rw [same] at enough; simp only [List.length_cons] at enough; omega⟩
    rw [readValue,skipCommentTokens_of (readToken_numeral numeral ends) (by simp)]
    simp only [decoded,Option.map_some]

/-- A word that is a token of its own. -/
theorem readBack_word {text : List UInt8} {value : Value} {token : Token} (starts : ∃ c rest, text = c::rest ∧ c ∉ [32,9,13,10,93])
    (read : ∀ rest, readToken (text ++ rest) = (token,rest))
    (kind : (token,value) ∈ [(Token.true_,Value.boolean true),(.false_,.boolean false),(.null,.null)]) : ReadBack tool text value := by
  refine ⟨starts,?_⟩
  intro fuel rest enough ends
  obtain ⟨c,tail,same,_⟩ := starts
  obtain ⟨fuel,rfl⟩ : ∃ less, fuel = less + 1 := ⟨fuel - 1,by rw [same] at enough; simp only [List.length_cons] at enough; omega⟩
  simp only [List.mem_cons,Prod.mk.injEq,List.not_mem_nil,or_false] at kind
  rcases kind with ⟨rfl,rfl⟩ | ⟨rfl,rfl⟩ | ⟨rfl,rfl⟩
  all_goals rw [readValue,skipCommentTokens_of (read rest) (by simp)]

theorem readBack_quotedString (documented : tool.Documented) (value : List UInt8) :
    ReadBack tool (valueToQuotedString tool value) (.string (c_str value)) := by
  have text := valueToQuotedString_eq tool value
  refine ⟨⟨34,_,text,by decide⟩,?_⟩
  intro fuel rest enough ends
  obtain ⟨fuel,rfl⟩ : ∃ less, fuel = less + 1 := ⟨fuel - 1,by rw [text] at enough; simp only [List.length_cons] at enough; omega⟩
  rw [readValue,skipCommentTokens_of (readToken_quotedString documented value rest) (by simp)]
  simp only [decodeString_flatMap documented,Option.map_some]

theorem readBack_null : ReadBack tool (ascii "null") .null :=
  readBack_word ⟨110,ascii "ull",rfl,by decide⟩ (fun rest => rfl) (by simp)

theorem readBack_boolean (value : Bool) : ReadBack tool (ascii (if value then "true" else "false")) (.boolean value) := by
  cases value with
  | true => exact readBack_word ⟨116,ascii "rue",rfl,by decide⟩ (fun rest => rfl) (by simp)
  | false => exact readBack_word ⟨102,ascii "alse",rfl,by decide⟩ (fun rest => rfl) (by simp)

theorem readBack_uint (documented : tool.Documented) (value : UInt64) : ReadBack tool (tool.uintToString value) (tool.kind (.uint value)) := by
  rw [documented.decimal]
  exact readBack_numeral (numeral_digits _) (decodeNumber_uint tool.sscanf value)

theorem negative_size {value : Int64} (negative : value < 0) : value ≤ 0x7fffffff ∧ (-value).toUInt64.toNat ≤ 2 ^ 63 := by
  have bound := value.toBitVec.isLt
  rw [Int64.lt_iff_toInt_lt] at negative
  rw [Int64.le_iff_toInt_le]
  change value.toBitVec.toInt < 0 at negative
  change value.toBitVec.toInt ≤ 2147483647 ∧ (-value.toBitVec).toNat ≤ 2 ^ 63
  rw [BitVec.toNat_neg]
  rw [BitVec.toInt_eq_toNat_cond] at negative ⊢
  split at negative
  · omega
  · rw [if_neg (by omega)]
    omega

theorem positive_size {value : Int64} (positive : ¬value < 0) : value.toUInt64 ≤ 0x7fffffff ↔ value ≤ 0x7fffffff := by
  have bound := value.toBitVec.isLt
  rw [Int64.lt_iff_toInt_lt] at positive
  rw [Int64.le_iff_toInt_le,UInt64.le_iff_toNat_le]
  change ¬value.toBitVec.toInt < 0 at positive
  change value.toBitVec.toNat ≤ 2147483647 ↔ value.toBitVec.toInt ≤ 2147483647
  rw [BitVec.toInt_eq_toNat_cond] at positive ⊢
  split at positive
  · rw [if_pos (by omega)]
    omega
  · omega

theorem readBack_int (documented : tool.Documented) (value : Int64) :
    ReadBack tool (valueToString_LargestInt tool value) (tool.kind (.int value)) := by
  rw [valueToString_LargestInt,Tool.kind]
  by_cases negative : value < 0
  · obtain ⟨small,size⟩ := negative_size negative
    have back : -(-value).toUInt64.toInt64 = value := by rw [Int64.toInt64_toUInt64,Int64.neg_neg]
    rw [if_pos negative,if_pos small,documented.decimal]
    apply readBack_numeral (numeral_digits _).negative
    rw [decodeNumber_negative tool.sscanf size,back]
  · rw [if_neg negative,documented.decimal]
    apply readBack_numeral (numeral_digits _)
    rw [decodeNumber_uint,Int64.toInt64_toUInt64]
    simp only [positive_size negative]

/-- The text of a double that `sscanf` can take: a numeral with a point. -/
structure Printed (text : List UInt8) : Prop extends Numeral text where
  point : 46 ∈ text

theorem Numeral.take {text : List UInt8} (numeral : Numeral text) (n : Nat) : Numeral (text.take (n + 1)) := by
  obtain ⟨⟨c,rest,rfl,first⟩,each⟩ := numeral
  refine ⟨⟨c,rest.take n,rfl,first⟩,?_⟩
  intro other listed
  exact each other (List.mem_of_mem_take listed)

theorem printed_double {value : Float} (printed : Printed (tool.sprintf value)) : Printed (valueToString_double tool value) := by
  rw [valueToString_double]
  split
  · exact printed
  · split
    · rename_i pointed
      refine ⟨printed.toNumeral.take _,?_⟩
      have listed := List.mem_of_mem_head? pointed
      have within := List.mem_reverse.mp ((List.dropWhile_sublist _).subset listed)
      exact (List.take_subset_take_left _ (Nat.le_succ _)) within
    · exact printed

theorem readBack_real {value : Float} (printed : Printed (tool.sprintf value))
    (read : (tool.sscanf (valueToString_double tool value)).isSome) :
    ReadBack tool (valueToString_double tool value) (tool.kind (.real value)) := by
  obtain ⟨other,scanned⟩ := Option.isSome_iff_exists.mp read
  have text := printed_double printed
  apply readBack_numeral text.toNumeral
  rw [decodeNumber_point tool.sscanf text.point,Tool.kind,scanned]
  rfl

/-- The parts that are no arrays and no objects. -/
inductive Value.Part (leaf : Value) : Value → Prop
  | here : leaf.Leaf → Part leaf leaf
  | item {items : List Value} {item : Value} : item ∈ items → Part leaf item → Part leaf (.array items)
  | member {members : List (List UInt8 × Value)} {member : List UInt8 × Value} : member ∈ members → Part leaf member.2 →
      Part leaf (.object members)

/-- `sprintf` prints each double of the value so that it can be read. -/
def Tool.Prints (tool : Tool) (value : Value) : Prop :=
  ∀ x, (Value.real x).Part value → Printed (tool.sprintf x) ∧ (tool.sscanf (valueToString_double tool x)).isSome

theorem readBack_leaf (documented : tool.Documented) {value : Value} (single : value.Leaf) (prints : tool.Prints value) :
    ReadBack tool (writeLeaf tool value) (tool.kind value.cut) := by
  cases value with
  | null => exact readBack_null
  | int value => exact readBack_int documented value
  | uint value => exact readBack_uint documented value
  | real value =>
    obtain ⟨printed,read⟩ := prints value (.here trivial)
    exact readBack_real printed read
  | string value => exact readBack_quotedString documented value
  | boolean value => exact readBack_boolean value
  | array items => cases single
  | object members => cases single

/-! ### Arrays and objects -/

theorem skip_mark (c : UInt8) (token : Token) (rest : List UInt8) (mark : (c,token) ∈
    [(123,.objectBegin),(125,.objectEnd),(91,.arrayBegin),(93,.arrayEnd),(44,.arraySeparator),(58,.memberSeparator)]) :
    skipCommentTokens (c::rest) = (token,rest) := by
  simp only [List.mem_cons,Prod.mk.injEq,List.not_mem_nil,or_false] at mark
  apply skipCommentTokens_of
  · rcases mark with ⟨rfl,rfl⟩ | ⟨rfl,rfl⟩ | ⟨rfl,rfl⟩ | ⟨rfl,rfl⟩ | ⟨rfl,rfl⟩ | ⟨rfl,rfl⟩
    all_goals
      rw [readToken,skipSpaces_visible _ (by decide)]
      rfl
  · rintro rfl
    simp at mark

theorem readArray_listed {pairs : List (List UInt8 × Value)} (each : ∀ pair ∈ pairs, ReadBack tool pair.1 pair.2) (some_ : pairs ≠ [])
    {fuel : Nat} (enough : 2 * (listed 93 (pairs.map Prod.fst)).length ≤ fuel) (before : List Value) (rest : List UInt8) :
    readArray tool.codePointToUTF8 tool.sscanf fuel before (listed 93 (pairs.map Prod.fst) ++ rest) =
      some (.array (before ++ pairs.map Prod.snd),rest) := by
  induction pairs generalizing fuel before with
  | nil => exact absurd rfl some_
  | cons pair pairs ih =>
    obtain ⟨first,each⟩ := List.forall_mem_cons.mp each
    cases pairs with
    | nil =>
      rw [List.map_singleton,listed,List.length_append,List.length_singleton] at enough
      obtain ⟨fuel,rfl⟩ : ∃ less, fuel = less + 1 := ⟨fuel - 1,by omega⟩
      have value := first.read fuel (93::rest) (by omega) (ends_listed rest (by simp))
      rw [List.map_singleton,listed,List.append_assoc,List.singleton_append,readArray,value]
      simp only [Option.bind_eq_bind,Option.bind_some,skip_mark 93 .arrayEnd rest (by simp)]
      rfl
    | cons next pairs =>
      have more : listed 93 ((pair::next::pairs).map Prod.fst) = pair.1 ++ 44::listed 93 ((next::pairs).map Prod.fst) := rfl
      rw [more,List.length_append,List.length_cons] at enough
      obtain ⟨fuel,rfl⟩ : ∃ less, fuel = less + 1 := ⟨fuel - 1,by omega⟩
      have value := first.read fuel (44::(listed 93 ((next::pairs).map Prod.fst) ++ rest)) (by omega) (ends_listed _ (by simp))
      rw [more,List.append_assoc,List.cons_append,readArray,value]
      simp only [Option.bind_eq_bind,Option.bind_some,skip_mark 44 .arraySeparator _ (by simp)]
      rw [ih each (by simp) (by omega),List.append_assoc]
      rfl

theorem readBack_array {pairs : List (List UInt8 × Value)} (each : ∀ pair ∈ pairs, ReadBack tool pair.1 pair.2) :
    ReadBack tool (91::listed 93 (pairs.map Prod.fst)) (.array (pairs.map Prod.snd)) := by
  refine ⟨⟨91,_,rfl,by decide⟩,?_⟩
  intro fuel rest enough ends
  rw [List.length_cons] at enough
  obtain ⟨fuel,rfl⟩ : ∃ less, fuel = less + 1 := ⟨fuel - 1,by omega⟩
  rw [List.cons_append,readValue,skip_mark 91 .arrayBegin _ (by simp)]
  cases pairs with
  | nil =>
    rw [List.map_nil,listed,List.singleton_append]
    simp only [skipSpaces_visible rest (show (93 : UInt8) ≠ 32 ∧ (93 : UInt8) ≠ 9 ∧ (93 : UInt8) ≠ 13 ∧ (93 : UInt8) ≠ 10 by decide)]
    rfl
  | cons pair pairs =>
    obtain ⟨c,tail,same,visible⟩ := (each pair (.head _)).starts
    have first : ∃ after, listed 93 ((pair::pairs).map Prod.fst) = c::after := by
      cases pairs with
      | nil => exact ⟨tail ++ [93],by rw [List.map_singleton,listed,same,List.cons_append]⟩
      | cons next pairs =>
        have more : listed 93 ((pair::next::pairs).map Prod.fst) = pair.1 ++ 44::listed 93 ((next::pairs).map Prod.fst) := rfl
        exact ⟨tail ++ 44::listed 93 ((next::pairs).map Prod.fst),by rw [more,same,List.cons_append]⟩
    obtain ⟨after,first⟩ := first
    have whole := @readArray_listed tool (pair::pairs) each (by simp) fuel (by omega) [] rest
    simp only [List.mem_cons,List.not_mem_nil,or_false,not_or] at visible
    obtain ⟨space,tab,feed,line,bracket⟩ := visible
    have spaces : skipSpaces (listed 93 ((pair::pairs).map Prod.fst) ++ rest) = c::(after ++ rest) := by
      rw [first,List.cons_append,skipSpaces_visible _ ⟨space,tab,feed,line⟩]
    simp only [spaces]
    split
    · rename_i found
      cases found
      exact absurd rfl bracket
    · exact whole

theorem readToken_space (text : List UInt8) : readToken (32::text) = readToken text := by
  have spaces : skipSpaces (32::text) = skipSpaces text := List.dropWhile_cons_of_pos (by decide)
  rw [readToken,spaces,readToken]

theorem skip_comment {text rest : List UInt8} (read : readToken text = (.comment,rest)) :
    skipCommentTokens text = skipCommentTokens rest := by
  rw [skipCommentTokens]
  split
  · rename_i found
    rw [read] at found
    cases found
    rfl
  · rename_i other
    exact absurd read (other rest)

theorem readValue_space (fuel : Nat) (text : List UInt8) : readValue tool.codePointToUTF8 tool.sscanf fuel (32::text) =
    readValue tool.codePointToUTF8 tool.sscanf fuel text := by
  have tokens : skipCommentTokens (32::text) = skipCommentTokens text := by
    cases read : readToken text with
    | mk token rest =>
      by_cases comment : token = .comment
      · subst comment
        have spaced : readToken (32::text) = (.comment,rest) := (readToken_space text).trans read
        rw [skip_comment read,skip_comment spaced]
      · rw [skipCommentTokens_of read comment,skipCommentTokens_of ((readToken_space text).trans read) comment]
  cases fuel with
  | zero => rw [readValue,readValue]
  | succ fuel => rw [readValue,readValue,tokens]

/-- A member behind which `X` follows: its name, and what is read behind the colon. -/
theorem writeMember_eq (tool : Tool) (yaml : Bool) (member : List UInt8 × List UInt8) (after : List UInt8) :
    writeMember tool yaml member ++ after =
      valueToQuotedString tool member.1 ++ 58::((if yaml then [32] else []) ++ (member.2 ++ after)) := by
  rw [writeMember,List.append_assoc,List.append_assoc]
  cases yaml <;> rfl

theorem readValue_behind (yaml : Bool) (fuel : Nat) (text : List UInt8) :
    readValue tool.codePointToUTF8 tool.sscanf fuel ((if yaml then [32] else []) ++ text) =
      readValue tool.codePointToUTF8 tool.sscanf fuel text := by
  cases yaml with
  | false => rfl
  | true => exact readValue_space fuel text

theorem length_writeMember (tool : Tool) (yaml : Bool) (member : List UInt8 × List UInt8) :
    member.2.length + 3 ≤ (writeMember tool yaml member).length := by
  rw [writeMember,valueToQuotedString_eq]
  cases yaml with
  | false =>
    simp only [Bool.false_eq_true,if_false,List.length_append,List.length_cons,List.length_nil]
    omega
  | true =>
    simp only [if_true,List.length_append,List.length_cons,List.length_nil]
    omega

theorem readObject_listed (documented : tool.Documented) (yaml : Bool) {members : List (List UInt8 × List UInt8 × Value)}
    (names : ∀ member ∈ members, 0 ∉ member.1) (each : ∀ member ∈ members, ReadBack tool member.2.1 member.2.2) (some_ : members ≠ [])
    {fuel : Nat} (enough : 2 * (listed 125 (members.map fun member => writeMember tool yaml (member.1,member.2.1))).length ≤ fuel)
    (before : List (List UInt8 × Value)) (name rest : List UInt8) :
    readObject tool.codePointToUTF8 tool.sscanf fuel before name
        (listed 125 (members.map fun member => writeMember tool yaml (member.1,member.2.1)) ++ rest) =
      some (.object ((members.map fun member => (member.1,member.2.2)).reverse ++ before),rest) := by
  induction members generalizing fuel before name with
  | nil => exact absurd rfl some_
  | cons member members ih =>
    obtain ⟨nonzero,names⟩ := List.forall_mem_cons.mp names
    obtain ⟨first,each⟩ := List.forall_mem_cons.mp each
    have size : member.2.1.length + 3 ≤ (writeMember tool yaml (member.1,member.2.1)).length :=
      length_writeMember tool yaml (member.1,member.2.1)
    have key : c_str member.1 = member.1 := c_str_nonzero nonzero
    have start (after : List UInt8) := skipCommentTokens_of (readToken_quotedString documented member.1 after) (by simp)
    cases members with
    | nil =>
      rw [List.map_singleton,listed,List.length_append,List.length_singleton] at enough
      obtain ⟨fuel,rfl⟩ : ∃ less, fuel = less + 1 := ⟨fuel - 1,by omega⟩
      have value := first.read fuel (125::rest) (by omega) (ends_listed rest (by simp))
      rw [List.map_singleton,listed,List.append_assoc,List.singleton_append,writeMember_eq,readObject,start]
      simp only [decodeString_flatMap documented,Option.bind_eq_bind,Option.bind_some,readColon_first,readValue_behind,value,key]
      rw [readComma,readToken_mark .objectEnd rest (by simp)]
      rfl
    | cons next members =>
      have more : listed 125 ((member::next::members).map fun member => writeMember tool yaml (member.1,member.2.1)) =
        writeMember tool yaml (member.1,member.2.1) ++
          44::listed 125 ((next::members).map fun member => writeMember tool yaml (member.1,member.2.1)) := rfl
      rw [more,List.length_append,List.length_cons] at enough
      obtain ⟨fuel,rfl⟩ : ∃ less, fuel = less + 1 := ⟨fuel - 1,by omega⟩
      have value := first.read fuel
        (44::(listed 125 ((next::members).map fun member => writeMember tool yaml (member.1,member.2.1)) ++ rest)) (by omega)
        (ends_listed _ (by simp))
      rw [more,List.append_assoc,List.cons_append,writeMember_eq,readObject,start]
      simp only [decodeString_flatMap documented,Option.bind_eq_bind,Option.bind_some,readColon_first,readValue_behind,value,key]
      rw [readComma,readToken_mark .arraySeparator _ (by simp)]
      simp only [Option.bind_some,Bool.false_eq_true,if_false]
      rw [ih names each (by simp) (by omega),List.map_cons (a := member),List.reverse_cons,List.append_assoc]
      rfl

theorem readBack_object (documented : tool.Documented) (yaml : Bool) {members : List (List UInt8 × List UInt8 × Value)}
    (names : ∀ member ∈ members, 0 ∉ member.1) (each : ∀ member ∈ members, ReadBack tool member.2.1 member.2.2) :
    ReadBack tool (123::listed 125 (members.map fun member => writeMember tool yaml (member.1,member.2.1)))
      (.object (members.map fun member => (member.1,member.2.2)).reverse) := by
  refine ⟨⟨123,_,rfl,by decide⟩,?_⟩
  intro fuel rest enough ends
  rw [List.length_cons] at enough
  obtain ⟨fuel,rfl⟩ : ∃ less, fuel = less + 1 := ⟨fuel - 1,by omega⟩
  rw [List.cons_append,readValue,skip_mark 123 .objectBegin _ (by simp)]
  cases members with
  | nil =>
    rw [List.map_nil,listed,List.length_singleton] at enough
    obtain ⟨fuel,rfl⟩ : ∃ less, fuel = less + 1 := ⟨fuel - 1,by omega⟩
    rw [List.map_nil,listed,List.singleton_append]
    simp only [readObject,skip_mark 125 .objectEnd rest (by simp)]
    rfl
  | cons member members =>
    have whole := @readObject_listed tool documented yaml (member::members) names each (by simp) fuel (by omega) [] [] rest
    rw [List.append_nil] at whole
    exact whole

/-- What the reader makes of a value's text. -/
def back (tool : Tool) : Value → Value :=
  Value.fold (fun leaf => tool.kind leaf.cut) .array fun members => .object (entries (keyed members)).reverse

theorem readBack_value (documented : tool.Documented) (yaml : Bool) {value : Value} (prints : tool.Prints value) :
    ReadBack tool (writeValue tool yaml value) (back tool value) := by
  induction value using Value.rule with
  | leaf value single =>
    rw [writeValue,fold_leaf single,back,fold_leaf single]
    exact readBack_leaf documented single prints
  | array items ih =>
    rw [writeValue,fold_array,back,fold_array]
    have pairs := @readBack_array tool (items.map fun item => (writeValue tool yaml item,back tool item)) (by
      intro pair listed
      obtain ⟨item,member,rfl⟩ := List.mem_map.mp listed
      exact ih item member fun x part => prints x (.item member part))
    rw [List.map_map,List.map_map] at pairs
    exact pairs
  | object members ih =>
    rw [writeValue,fold_object,back,fold_object,keyed_map,entries_map,keyed_map,entries_map,List.map_map]
    have object := @readBack_object tool documented yaml
      ((entries (keyed members)).map fun member => (member.1,writeValue tool yaml member.2,back tool member.2))
      (by
        intro member listed
        obtain ⟨other,entry,rfl⟩ := List.mem_map.mp listed
        exact keyed_nonzero other (entries_subset entry))
      (by
        intro member listed
        obtain ⟨other,entry,rfl⟩ := List.mem_map.mp listed
        obtain ⟨first,within,rfl⟩ := List.mem_map.mp (entries_subset entry)
        exact ih first within fun x part => prints x (.member within part))
    rw [List.map_map,List.map_map] at object
    exact object

end Reading

end Migfm.Public.Json
