import Mathlib.Logic.Function.Basic
import Migfm.Public.UrlDecode

/-! The three readers of a query string, `GetHttpParamElement` and `ParserHttpRequest`
of public/basic/basic_util.cc and `SetData` of public/protocol/http_packet.cc, each
with the places of the string it looks at. -/
namespace Migfm.Public.QueryString

/-! ### GetHttpParamElement -/

/-- The bytes from one place of a C string up to another; the end of the string can be
copied with them, and nothing behind it. -/
def between (query : List UInt8) (start stop : Nat) : Option (List UInt8) :=
  if start ≤ stop ∧ stop ≤ query.length + 1 then some (((query ++ [0]).take stop).drop start) else none

/-- The loop over what is left of the query. The last copy takes one byte more than the
value has. -/
def GetHttpParamElementLoop (query name : List UInt8) :
    List UInt8 → Nat → Nat → Bool → List UInt8 → Option (List UInt8)
  | [],str,format_str,flag,value => if flag then between query (format_str + 1) (str + 1) else some value
  | c::rest,str,format_str,flag,value =>
    if c = 61 then do
      let str_name ← between query format_str str
      if str_name = name then GetHttpParamElementLoop query name rest (str + 1) str true value
      else GetHttpParamElementLoop query name rest (str + 1) format_str flag value
    else if c = 38 ∧ flag then do
      let value ← between query (format_str + 1) str
      GetHttpParamElementLoop query name rest (str + 1) str false value
    else GetHttpParamElementLoop query name rest (str + 1) format_str flag value

/-- `none` is an access out of range; `value` is what the caller's string holds before. -/
def GetHttpParamElement (query name value : List UInt8) : Option (List UInt8) :=
  GetHttpParamElementLoop (cString query) (cString name) (cString query) 0 0 false value

theorem between_middle {query before inside after : List UInt8} (same : query ++ [0] = before ++ (inside ++ after)) :
    between query before.length (before.length + inside.length) = some inside := by
  have length := congrArg List.length same
  simp only [List.length_append,List.length_singleton] at length
  rw [between,if_pos ⟨Nat.le_add_right _ _,by omega⟩,same,List.take_length_add_append,List.take_left,List.drop_left]

section GetHttpParamElement
variable {query name value : List UInt8}

theorem between_some {start stop : Nat} (low : start ≤ stop) (high : stop ≤ query.length + 1) :
    between query start stop = some (((query ++ [0]).take stop).drop start) := if_pos ⟨low,high⟩

/-- Whatever is asked for, every copy is within the string. -/
theorem GetHttpParamElementLoop_some {rest : List UInt8} {str format_str : Nat} {flag : Bool}
    (behind : str + rest.length = query.length) (started : format_str ≤ str) (flagged : flag = true → format_str < str) :
    ∃ result, GetHttpParamElementLoop query name rest str format_str flag value = some result := by
  induction rest generalizing str format_str flag value with
  | nil =>
    rw [List.length_nil] at behind
    rw [GetHttpParamElementLoop]
    split
    · exact ⟨_,between_some (by omega) (by omega)⟩
    · exact ⟨value,rfl⟩
  | cons c rest ih =>
    rw [List.length_cons] at behind
    rw [GetHttpParamElementLoop]
    split
    · rw [between_some started (by omega),Option.bind_eq_bind,Option.bind_some]
      split
      · exact ih (by omega) (by omega) fun _ => by omega
      · exact ih (by omega) (by omega) fun set => Nat.lt_succ_of_lt (flagged set)
    split
    · rename_i _ closes
      have before := flagged closes.2
      rw [between_some before (by omega),Option.bind_eq_bind,Option.bind_some]
      exact ih (by omega) (by omega) fun set => absurd set Bool.false_ne_true
    · exact ih (by omega) (by omega) fun set => Nat.lt_succ_of_lt (flagged set)

theorem GetHttpParamElement_some (query name value : List UInt8) : ∃ result, GetHttpParamElement query name value = some result :=
  GetHttpParamElementLoop_some (Nat.zero_add _) le_rfl fun set => absurd set Bool.false_ne_true

/-- Behind a value that was found, every name that is compared starts with `&`. -/
theorem GetHttpParamElementLoop_closed (other : 38 ∉ name) (before : List UInt8) {seen rest : List UInt8}
    (same : query = before ++ (38::seen ++ rest)) :
    GetHttpParamElementLoop query name rest (before.length + (38::seen).length) before.length false value = some value := by
  induction rest generalizing seen with
  | nil => rfl
  | cons c rest ih =>
    have next := @ih (seen ++ [c]) (by simp only [same,List.cons_append,List.append_assoc,List.nil_append])
    rw [← List.cons_append,List.length_append,← Nat.add_assoc,List.length_singleton] at next
    have whole : query ++ [0] = before ++ (38::seen ++ (c::rest ++ [0])) := by simp only [same,List.append_assoc]
    have differs : 38::seen ≠ name := by
      rintro rfl
      exact other List.mem_cons_self
    have shut : ¬(c = 38 ∧ false = true) := fun closes => Bool.false_ne_true closes.2
    rw [GetHttpParamElementLoop,between_middle whole,Option.bind_eq_bind,Option.bind_some,if_neg differs,if_neg shut,ite_self]
    exact next

/-- Within the value, every name that is compared starts with `=`. -/
theorem GetHttpParamElementLoop_byte (other : 61 ∉ name) {before seen rest : List UInt8} {c : UInt8}
    (same : query = before ++ (61::seen ++ c::rest)) (plain : c ≠ 38) :
    GetHttpParamElementLoop query name (c::rest) (before.length + (61::seen).length) before.length true value =
      GetHttpParamElementLoop query name rest (before.length + (61::(seen ++ [c])).length) before.length true value := by
  have whole : query ++ [0] = before ++ (61::seen ++ (c::rest ++ [0])) := by simp only [same,List.append_assoc]
  have differs : 61::seen ≠ name := by
    rintro rfl
    exact other List.mem_cons_self
  have within : ¬(c = 38 ∧ true = true) := fun closes => plain closes.1
  rw [GetHttpParamElementLoop,between_middle whole,Option.bind_eq_bind,Option.bind_some,if_neg differs,if_neg within,
    ite_self,← List.cons_append,List.length_append,← Nat.add_assoc]
  rfl

theorem GetHttpParamElementLoop_last (other : 61 ∉ name) (before : List UInt8) {seen rest : List UInt8} (plain : 38 ∉ rest)
    (same : query = before ++ (61::seen ++ rest)) :
    GetHttpParamElementLoop query name rest (before.length + (61::seen).length) before.length true value =
      some (seen ++ rest ++ [0]) := by
  induction rest generalizing seen with
  | nil =>
    have whole : query ++ [0] = (before ++ [61]) ++ ((seen ++ [0]) ++ []) := by
      simp only [same,List.append_assoc,List.cons_append,List.append_nil,List.nil_append]
    have copied := between_middle whole
    simp only [List.length_append,List.length_singleton] at copied
    rw [GetHttpParamElementLoop,if_pos rfl,List.append_nil,← copied,List.length_cons]
    exact congrArg _ (by omega)
  | cons c rest ih =>
    rw [List.mem_cons,not_or] at plain
    rw [GetHttpParamElementLoop_byte other same (Ne.symm plain.1)]
    rw [ih plain.2 (by simp only [same,List.cons_append,List.append_assoc,List.nil_append]),List.append_cons seen c rest]

theorem GetHttpParamElementLoop_inside (plainName : 38 ∉ name) (other : 61 ∉ name) (before after : List UInt8)
    {seen inside : List UInt8} (plain : 38 ∉ inside) (same : query = before ++ (61::seen ++ (inside ++ 38::after))) :
    GetHttpParamElementLoop query name (inside ++ 38::after) (before.length + (61::seen).length) before.length true value =
      some (seen ++ inside) := by
  induction inside generalizing seen with
  | nil =>
    have whole : query ++ [0] = (before ++ [61]) ++ (seen ++ (38::after ++ [0])) := by
      simp only [same,List.append_assoc,List.cons_append,List.nil_append]
    have copied := between_middle whole
    have joined : query = (before ++ 61::seen) ++ (38::[] ++ after) := by
      simp only [same,List.append_assoc,List.cons_append,List.nil_append]
    have closed := @GetHttpParamElementLoop_closed query name seen plainName _ _ _ joined
    have stops : before.length + (61::seen).length = (before ++ [61]).length + seen.length := by
      rw [List.length_append,List.length_cons,List.length_singleton]
      omega
    rw [List.nil_append,GetHttpParamElementLoop,if_neg (by decide),if_pos ⟨rfl,rfl⟩,stops]
    rw [List.length_append,List.length_singleton] at copied ⊢
    rw [copied,Option.bind_eq_bind,Option.bind_some,List.append_nil]
    have place : before.length + 1 + seen.length = (before ++ 61::seen).length := by
      rw [List.length_append,List.length_cons]
      omega
    rw [place]
    exact closed
  | cons c inside ih =>
    rw [List.mem_cons,not_or] at plain
    have next : query = before ++ (61::seen ++ c::(inside ++ 38::after)) := same
    rw [List.cons_append,GetHttpParamElementLoop_byte other next (Ne.symm plain.1)]
    rw [ih plain.2 (by simp only [same,List.cons_append,List.append_assoc,List.nil_append]),List.append_cons seen c inside]

/-- A name that the query does not start with is not found. -/
theorem GetHttpParamElementLoop_missed {seen rest : List UInt8} (same : query = seen ++ rest)
    (missed : ∀ front after, query = front ++ 61::after → front ≠ name) :
    GetHttpParamElementLoop query name rest seen.length 0 false value = some value := by
  induction rest generalizing seen with
  | nil => rfl
  | cons c rest ih =>
    have next := @ih (seen ++ [c]) (by simp only [same,List.append_assoc,List.cons_append,List.nil_append])
    rw [List.length_append,List.length_singleton] at next
    have compared := @between_middle query [] seen (c::rest ++ [0]) (by simp only [same,List.append_assoc,List.nil_append])
    rw [List.length_nil,Nat.zero_add] at compared
    have shut : ¬(c = 38 ∧ false = true) := fun closes => Bool.false_ne_true closes.2
    rw [GetHttpParamElementLoop,compared,Option.bind_eq_bind,Option.bind_some,if_neg shut]
    split
    · rename_i sign
      rw [if_neg (missed seen rest (by rw [same,sign]))]
      exact next
    · exact next

/-- The name that the query starts with is found at the first `=`. -/
theorem GetHttpParamElementLoop_first (other : 61 ∉ name) {seen left after : List UInt8} (named : name = seen ++ left)
    (same : query = name ++ 61::after) :
    GetHttpParamElementLoop query name (left ++ 61::after) seen.length 0 false value =
      GetHttpParamElementLoop query name after (name.length + 1) name.length true value := by
  induction left generalizing seen with
  | nil =>
    rw [List.append_nil] at named
    have compared := @between_middle query [] name (61::after ++ [0]) (by simp only [same,List.append_assoc,List.nil_append])
    rw [List.length_nil,Nat.zero_add] at compared
    rw [← named,List.nil_append,GetHttpParamElementLoop,if_pos rfl,compared,Option.bind_eq_bind,Option.bind_some,if_pos rfl]
  | cons c left ih =>
    have next := @ih (seen ++ [c]) (by rw [named,List.append_cons])
    rw [List.length_append,List.length_singleton] at next
    have shut : ¬(c = 38 ∧ false = true) := fun closes => Bool.false_ne_true closes.2
    have letter : c ≠ 61 := by
      rintro rfl
      exact other (named ▸ List.mem_append_right _ List.mem_cons_self)
    rw [List.cons_append,GetHttpParamElementLoop,if_neg letter,if_neg shut]
    exact next

end GetHttpParamElement

/-- A part of a pair: neither a separator nor the end of the string is in it. -/
def Plain (text : List UInt8) : Prop := 38 ∉ text ∧ 61 ∉ text ∧ 0 ∉ text

theorem cString_of_notMem {text : List UInt8} (none_ : 0 ∉ text) : cString text = text :=
  List.takeWhile_eq_self_iff.mpr fun _ member => decide_eq_true fun zero => none_ (zero ▸ member)

section Plain
variable {query name : List UInt8} (whole : 0 ∉ query) (plain : Plain name) (value : List UInt8)
include whole plain

theorem GetHttpParamElement_missed (missed : ∀ front after, query = front ++ 61::after → front ≠ name) :
    GetHttpParamElement query name value = some value := by
  rw [GetHttpParamElement,cString_of_notMem whole,cString_of_notMem plain.2.2]
  exact @GetHttpParamElementLoop_missed query name value [] query rfl missed

/-- The value of the first of several pairs. -/
theorem GetHttpParamElement_first {inside after : List UInt8} (closed : 38 ∉ inside)
    (same : query = name ++ 61::(inside ++ 38::after)) : GetHttpParamElement query name value = some inside := by
  have found := @GetHttpParamElementLoop_first query name value plain.2.1 [] name _ rfl same
  rw [GetHttpParamElement,cString_of_notMem whole,cString_of_notMem plain.2.2]
  nth_rewrite 2 [same]
  refine found.trans ?_
  exact @GetHttpParamElementLoop_inside query name value plain.1 plain.2.1 name after [] inside closed same

/-- The value of the only pair, and the byte that ends the string. -/
theorem GetHttpParamElement_only {inside : List UInt8} (closed : 38 ∉ inside) (same : query = name ++ 61::inside) :
    GetHttpParamElement query name value = some (inside ++ [0]) := by
  have found := @GetHttpParamElementLoop_first query name value plain.2.1 [] name _ rfl same
  rw [GetHttpParamElement,cString_of_notMem whole,cString_of_notMem plain.2.2]
  nth_rewrite 2 [same]
  refine found.trans ?_
  exact @GetHttpParamElementLoop_last query name value plain.2.1 name [] inside closed same

end Plain

/-! ### ParserHttpRequest and SetData -/

abbrev HttpMap : Type := List UInt8 → Option (List UInt8)

def find (c : UInt8) (text : List UInt8) : Option Nat := if c ∈ text then some (text.idxOf c) else none

/-- A `size_t` kept as `int32`; `npos` becomes -1. -/
def position : Option Nat → Int32
  | none => -1
  | some n => Int32.ofNat n

/-- `substr`, `none` where it throws. A negative number, as a `size_t`, is beyond every
length. -/
def substr (text : List UInt8) (pos n : Int) : Option (List UInt8) :=
  if pos < 0 ∨ text.length < pos then none
  else some (if n < 0 then text.drop pos.toNat else (text.drop pos.toNat).take n.toNat)

/-- One turn of the loop: the key, the value and the text that is left. -/
def turn (length : Nat) (request_str : List UInt8) : Option (List UInt8 × List UInt8 × List UInt8) := do
  let start_pos := position (find 61 request_str)
  let end_pos := position (some ((find 38 request_str).getD length))
  let key ← substr request_str 0 start_pos.toInt
  let value ← substr request_str (key.length + 1) (end_pos.toInt - key.length - 1)
  let rest ← if (find 38 request_str).isSome then substr request_str (end_pos + 1).toInt request_str.length else some []
  some (key,value,rest)

inductive Outcome
  | stored (http_map : HttpMap)
  | out_of_range
  | running

/-- The loop, with a bound on its turns. -/
def pairsLoop (length : Nat) : Nat → List UInt8 → HttpMap → Outcome
  | 0,_,_ => .running
  | n + 1,request_str,http_map =>
    if request_str = [] then .stored http_map
    else
      match turn length request_str with
      | none => .out_of_range
      | some (key,value,rest) => pairsLoop length n rest (Function.update http_map key (some value))

def ParserHttpRequest (n : Nat) (request : List UInt8) (http_map : HttpMap) : Outcome :=
  pairsLoop request.length n request http_map

/-- `assign` copies `len` bytes of the data. -/
def SetData (n : Nat) (data : List UInt8) (len : Int32) (map_value_ : HttpMap) : Outcome :=
  if 0 ≤ len.toInt ∧ len.toInt ≤ data.length then
    pairsLoop len.toInt.toNat n (data.take len.toInt.toNat) map_value_
  else .out_of_range

theorem SetData_eq {data : List UInt8} {len : Int32} (whole : len.toInt = data.length) (n : Nat) (map_value_ : HttpMap) :
    SetData n data len map_value_ = ParserHttpRequest n data map_value_ := by
  have same : len.toInt.toNat = data.length := by omega
  rw [SetData,if_pos (by omega),same,List.take_length,ParserHttpRequest]

theorem find_split {c : UInt8} {front : List UInt8} (rest : List UInt8) (none_ : c ∉ front) :
    find c (front ++ c::rest) = some front.length := by
  rw [find,if_pos (List.mem_append_right _ List.mem_cons_self),List.idxOf_append_of_notMem none_,List.idxOf_cons_self,Nat.add_zero]

theorem find_none {c : UInt8} {text : List UInt8} : find c text = none ↔ c ∉ text := by
  rw [find]
  split
  · rename_i there
    exact iff_of_false (by simp) (not_not.mpr there)
  · rename_i nowhere
    exact iff_of_true rfl nowhere

theorem find_some {c : UInt8} {text : List UInt8} {n : Nat} (found : find c text = some n) :
    ∃ front rest, text = front ++ c::rest ∧ front.length = n ∧ c ∉ front := by
  have there : c ∈ text := by
    by_contra nowhere
    rw [find_none.mpr nowhere] at found
    cases found
  obtain ⟨front,rest,rfl,none_⟩ := List.eq_append_cons_of_mem there
  rw [find_split rest none_] at found
  exact ⟨front,rest,rfl,Option.some.inj found,none_⟩

/-- The turn does not throw: there is an `=`, and it and the `&` are at places that an
`int32` keeps. -/
def Turnable (text : List UInt8) : Prop :=
  (∃ p, find 61 text = some p ∧ p % 2 ^ 32 < 2 ^ 31) ∧ ∀ e, find 38 text = some e → e % 2 ^ 32 < 2 ^ 31 - 1

/-- What is read after the turn. -/
def following (text : List UInt8) : List UInt8 :=
  match find 38 text with
  | none => []
  | some e => text.drop (e % 2 ^ 32 + 1)

theorem find_lt {c : UInt8} {text : List UInt8} {n : Nat} (found : find c text = some n) : n < text.length := by
  obtain ⟨front,rest,rfl,rfl,-⟩ := find_some found
  rw [List.length_append,List.length_cons]
  omega

theorem position_low {n : Nat} (low : n % 2 ^ 32 < 2 ^ 31) : (position (some n)).toInt = (n % 2 ^ 32 : Nat) := by
  have size : Int32.size = 4294967296 := rfl
  rw [position,Int32.toInt_ofNat',size,Int.bmod_def]
  omega

theorem position_high {n : Nat} (high : 2 ^ 31 ≤ n % 2 ^ 32) : (position (some n)).toInt = (n % 2 ^ 32 : Nat) - 2 ^ 32 := by
  have size : Int32.size = 4294967296 := rfl
  rw [position,Int32.toInt_ofNat',size,Int.bmod_def]
  omega

theorem substr_beyond {text : List UInt8} {pos : Int} (beyond : text.length < pos) (n : Int) : substr text pos n = none :=
  if_pos (.inr beyond)

theorem substr_within {text : List UInt8} {pos : Nat} (within : pos ≤ text.length) (n : Int) :
    ∃ part, substr text pos n = some part ∧ part ⊆ text := by
  refine ⟨_,if_neg (by omega),?_⟩
  split
  · exact List.drop_subset _ _
  · exact List.Subset.trans (List.take_subset _ _) (List.drop_subset _ _)

theorem substr_front {text : List UInt8} {n : Nat} : substr text 0 n = some (text.take n) := by
  rw [substr,if_neg (by omega),if_neg (by omega)]
  rfl

theorem substr_back {text : List UInt8} {pos : Nat} (within : pos ≤ text.length) :
    substr text pos text.length = some (text.drop pos) := by
  rw [substr,if_neg (by omega),if_neg (by omega),Int.toNat_natCast,Int.toNat_natCast,
    List.take_of_length_le (by rw [List.length_drop]; omega)]

/-- The key and the value of a turn that has an `=`. -/
theorem turn_key {text : List UInt8} {p : Nat} (found : find 61 text = some p) (low : p % 2 ^ 32 < 2 ^ 31) (length : Nat) :
    ∃ value, substr text (p % 2 ^ 32 + 1 : Nat) ((position (some ((find 38 text).getD length))).toInt - (p % 2 ^ 32 : Nat) - 1) =
        some value ∧ value ⊆ text ∧ turn length text = (if (find 38 text).isSome then
        substr text (position (some ((find 38 text).getD length)) + 1).toInt text.length else some []).map
      fun rest => (text.take (p % 2 ^ 32),value,rest) := by
  have inside := find_lt found
  have key : substr text 0 (position (some p)).toInt = some (text.take (p % 2 ^ 32)) := by rw [position_low low,substr_front]
  have size : (text.take (p % 2 ^ 32)).length = p % 2 ^ 32 := by
    rw [List.length_take]
    omega
  obtain ⟨value,copied,part⟩ := @substr_within text (p % 2 ^ 32 + 1) (by omega)
    ((position (some ((find 38 text).getD length))).toInt - (p % 2 ^ 32 : Nat) - 1)
  refine ⟨value,copied,part,?_⟩
  rw [Nat.cast_succ] at copied
  rw [turn,found]
  dsimp only
  rw [key,Option.bind_eq_bind,Option.bind_some,size,copied,Option.bind_some]
  split
  · cases substr text (position (some ((find 38 text).getD length)) + 1).toInt text.length with
    | none => rfl
    | some rest => rfl
  · rfl

theorem turn_found {text : List UInt8} {p : Nat} (found : find 61 text = some p) (low : p % 2 ^ 32 < 2 ^ 31)
    (next : ∀ e, find 38 text = some e → e % 2 ^ 32 < 2 ^ 31 - 1) (length : Nat) :
    ∃ value, substr text (p % 2 ^ 32 + 1 : Nat) ((position (some ((find 38 text).getD length))).toInt - (p % 2 ^ 32 : Nat) - 1) =
      some value ∧ value ⊆ text ∧ turn length text = some (text.take (p % 2 ^ 32),value,following text) := by
  obtain ⟨value,copied,part,turns⟩ := turn_key found low length
  refine ⟨value,copied,part,?_⟩
  rw [turns,following]
  cases stops : find 38 text with
  | none => rfl
  | some e =>
    have inside := find_lt stops
    have low := next e stops
    have place : (position (some e) + 1).toInt = (e % 2 ^ 32 + 1 : Nat) := by
      rw [Int32.toInt_add,position_low (by omega),Int32.toInt_one,Int.bmod_def]
      omega
    rw [Option.isSome_some,if_pos rfl,Option.getD_some,place,substr_back (by omega),Option.map_some]

theorem turn_turnable {text : List UInt8} (turnable : Turnable text) (length : Nat) :
    ∃ key value, turn length text = some (key,value,following text) ∧ value ⊆ text := by
  obtain ⟨⟨p,found,low⟩,next⟩ := turnable
  obtain ⟨value,-,part,turns⟩ := turn_found found low next length
  exact ⟨_,value,turns,part⟩

/-- Otherwise the turn throws, or it leaves the text as it is. -/
theorem turn_stuck {text : List UInt8} (stuck : ¬Turnable text) (length : Nat) :
    turn length text = none ∨ ∃ key value, turn length text = some (key,value,text) := by
  by_cases turnable : ∃ p, find 61 text = some p ∧ p % 2 ^ 32 < 2 ^ 31
  · obtain ⟨p,found,low⟩ := turnable
    obtain ⟨value,-,-,turns⟩ := turn_key found low length
    have far : ∃ e, find 38 text = some e ∧ 2 ^ 31 - 1 ≤ e % 2 ^ 32 := by
      by_contra near
      refine stuck ⟨⟨p,found,low⟩,fun e stops => ?_⟩
      by_contra beyond
      exact near ⟨e,stops,Nat.not_lt.mp beyond⟩
    obtain ⟨e,stops,beyond⟩ := far
    rw [stops,Option.isSome_some,if_pos rfl,Option.getD_some] at turns
    by_cases wraps : e % 2 ^ 32 = 2 ^ 32 - 1
    · have place : (position (some e) + 1).toInt = (0 : Nat) := by
        rw [Int32.toInt_add,position_high (by omega),Int32.toInt_one,Int.bmod_def]
        omega
      rw [place,substr_back (Nat.zero_le _),List.drop_zero] at turns
      exact .inr ⟨_,value,turns⟩
    · have place : (position (some e) + 1).toInt < 0 := by
        rw [Int32.toInt_add,Int32.toInt_one,Int.bmod_def]
        by_cases low : e % 2 ^ 32 < 2 ^ 31
        · rw [position_low low]
          omega
        · rw [position_high (Nat.not_lt.mp low)]
          omega
      rw [substr,if_pos (.inl place)] at turns
      exact .inl turns
  · left
    have whole : substr text 0 (position (find 61 text)).toInt = some text := by
      have negative : (position (find 61 text)).toInt < 0 := by
        cases found : find 61 text with
        | none => decide
        | some p =>
          have high : 2 ^ 31 ≤ p % 2 ^ 32 := Nat.not_lt.mp fun low => turnable ⟨p,found,low⟩
          rw [position_high high]
          omega
      rw [substr,if_neg (by omega),if_pos negative]
      rfl
    rw [turn]
    dsimp only
    rw [whole,Option.bind_eq_bind,Option.bind_some,substr_beyond (by omega),Option.bind_none]

/-! ### Runs -/

/-- The texts that reading comes to. -/
inductive Behind : List UInt8 → List UInt8 → Prop
  | here (text : List UInt8) : Behind text text
  | next {text last : List UInt8} : text ≠ [] → Behind (following text) last → Behind text last

def Readable (text : List UInt8) : Prop := ∀ last, Behind text last → last ≠ [] → Turnable last

theorem length_following {text : List UInt8} (some_ : text ≠ []) : (following text).length < text.length := by
  have positive := List.length_pos_of_ne_nil some_
  rw [following]
  split
  · exact positive
  · rw [List.length_drop]
    omega

theorem following_subset (text : List UInt8) : following text ⊆ text := by
  rw [following]
  split
  · exact List.nil_subset _
  · exact List.drop_subset _ _

theorem pairsLoop_stuck {text : List UInt8} (some_ : text ≠ []) (stuck : ¬Turnable text) (length n : Nat)
    (http_map stored : HttpMap) : pairsLoop length n text http_map ≠ .stored stored := by
  induction n generalizing http_map with
  | zero => exact Outcome.noConfusion
  | succ n ih =>
    rw [pairsLoop,if_neg some_]
    obtain fails | ⟨key,value,stays⟩ := turn_stuck stuck length
    · rw [fails]
      exact Outcome.noConfusion
    · rw [stays]
      exact ih _

/-- Where the loop ends well, every turn went well. -/
theorem readable_of_stored {length n : Nat} {text : List UInt8} {http_map stored : HttpMap}
    (ends : pairsLoop length n text http_map = .stored stored) : Readable text := by
  induction n generalizing text http_map with
  | zero => cases ends
  | succ n ih =>
    intro last behind some_
    by_cases empty : text = []
    · subst empty
      cases behind with
      | here => exact absurd rfl some_
      | next nonempty => exact absurd rfl nonempty
    have turnable : Turnable text := by
      by_contra stuck
      exact pairsLoop_stuck empty stuck _ _ _ _ ends
    cases behind with
    | here => exact turnable
    | next _ behind =>
      obtain ⟨key,value,turns,-⟩ := turn_turnable turnable length
      rw [pairsLoop,if_neg empty,turns] at ends
      exact ih ends last behind some_

/-- Where every text is turned over, the loop ends. -/
theorem stored_of_readable {text : List UInt8} (readable : Readable text) (length : Nat) {n : Nat} (enough : text.length < n)
    (http_map : HttpMap) : ∃ stored, pairsLoop length n text http_map = .stored stored := by
  induction n generalizing text http_map with
  | zero => exact absurd enough (Nat.not_lt_zero _)
  | succ n ih =>
    rw [pairsLoop]
    split
    · exact ⟨http_map,rfl⟩
    · rename_i some_
      obtain ⟨key,value,turns,-⟩ := turn_turnable (readable text (.here text) some_) length
      rw [turns]
      have shorter := length_following some_
      exact ih (fun last behind => readable last (.next some_ behind)) (by omega) _

theorem turnable_short {text : List UInt8} (short : text.length < 2 ^ 31) : Turnable text ↔ 61 ∈ text := by
  constructor
  · rintro ⟨⟨p,found,-⟩,-⟩
    obtain ⟨front,rest,rfl,-⟩ := find_some found
    exact List.mem_append_right _ List.mem_cons_self
  · intro there
    have found : find 61 text = some (text.idxOf 61) := if_pos there
    have low := find_lt found
    refine ⟨⟨_,found,by omega⟩,fun e stops => ?_⟩
    have low := find_lt stops
    omega

theorem following_split {front : List UInt8} (rest : List UInt8) (short : front.length < 2 ^ 31) (none_ : 38 ∉ front) :
    following (front ++ 38::rest) = rest := by
  rw [following,find_split rest none_]
  dsimp only
  rw [Nat.mod_eq_of_lt (by omega),← List.drop_drop,List.drop_left]
  rfl

theorem behind_of_split {text front rest : List UInt8} (same : text = front ++ 38::rest) (short : text.length < 2 ^ 31) :
    Behind text rest := by
  induction size : text.length using Nat.strong_induction_on generalizing text front with
  | _ n ih =>
    subst size
    have some_ : text ≠ [] := by
      rw [same]
      exact List.append_ne_nil_of_right_ne_nil _ (List.cons_ne_nil _ _)
    have there : 38 ∈ text := by
      rw [same]
      exact List.mem_append_right _ List.mem_cons_self
    obtain ⟨first,behind,parts,none_⟩ := List.eq_append_cons_of_mem there
    have next : following text = behind := by
      rw [parts,List.length_append] at short
      rw [parts,following_split behind (by omega) none_]
    have shorter := length_following some_
    refine .next some_ ?_
    rw [next] at shorter ⊢
    obtain ⟨left,rfl,tail⟩ | ⟨left,rfl,tail⟩ := List.append_eq_append_iff.mp (parts.symm.trans same)
    · cases left with
      | nil =>
        rw [(List.cons.inj tail).2]
        exact .here rest
      | cons c left => exact ih behind.length shorter (List.cons.inj tail).2 (by omega) rfl
    · cases left with
      | nil =>
        rw [(List.cons.inj tail).2]
        exact .here behind
      | cons c left =>
        obtain ⟨rfl,-⟩ := List.cons.inj tail
        exact absurd (List.mem_append_right _ List.mem_cons_self) none_

theorem split_of_behind {text last : List UInt8} (behind : Behind text last) (short : text.length < 2 ^ 31) (some_ : last ≠ []) :
    last = text ∨ ∃ front, text = front ++ 38::last := by
  induction behind with
  | here => exact .inl rfl
  | next nonempty _ ih =>
    rename_i text last _
    have shorter := length_following nonempty
    by_cases there : 38 ∈ text
    · obtain ⟨first,behind,parts,none_⟩ := List.eq_append_cons_of_mem there
      have next : following text = behind := by
        rw [parts,List.length_append] at short
        rw [parts,following_split behind (by omega) none_]
      obtain same | ⟨front,same⟩ := ih (by omega) some_
      · exact .inr ⟨first,by rw [same,next,parts]⟩
      · refine .inr ⟨first ++ 38::front,?_⟩
        rw [parts,← next,same,List.append_assoc,List.cons_append]
    · have ends : following text = [] := by rw [following,find_none.mpr there]
      obtain same | ⟨front,same⟩ := ih (by omega) some_
      · exact absurd (same.trans ends) some_
      · exact absurd (same.symm.trans ends) (List.append_ne_nil_of_right_ne_nil _ (List.cons_ne_nil _ _))

/-- A text of less than 2 GiB: it, and what stands behind any `&`, is empty or has an `=`. -/
theorem readable_iff {text : List UInt8} (short : text.length < 2 ^ 31) :
    Readable text ↔ ∀ last, (last = text ∨ ∃ front, text = front ++ 38::last) → last ≠ [] → 61 ∈ last := by
  constructor
  · intro readable last part some_
    obtain rfl | ⟨front,same⟩ := part
    · exact (turnable_short short).mp (readable last (.here last) some_)
    · have turnable := readable last (behind_of_split same short) some_
      rw [same,List.length_append,List.length_cons] at short
      exact (turnable_short (by omega)).mp turnable
  · intro signs last behind some_
    have part := split_of_behind behind short some_
    have shorter : last.length ≤ text.length := by
      obtain rfl | ⟨front,rfl⟩ := part
      · exact le_rfl
      · rw [List.length_append,List.length_cons]
        omega
    exact (turnable_short (by omega)).mpr (signs last part some_)

/-! ### Lists of pairs -/

/-- `key=value` and `&` between two of them. -/
def queryOf (pairs : List (List UInt8 × List UInt8)) : List UInt8 := [38].intercalate (pairs.map fun pair => pair.1 ++ 61::pair.2)

structure Listed (pairs : List (List UInt8 × List UInt8)) : Prop where
  named : ∀ pair ∈ pairs, pair.1 ≠ []
  apart : (pairs.map Prod.fst).Nodup
  plain : ∀ pair ∈ pairs, Plain pair.1 ∧ Plain pair.2

theorem queryOf_only (pair : List UInt8 × List UInt8) : queryOf [pair] = pair.1 ++ 61::pair.2 := by
  rw [queryOf,List.map_singleton,List.intercalate_singleton]

theorem queryOf_cons (pair next : List UInt8 × List UInt8) (pairs : List (List UInt8 × List UInt8)) :
    queryOf (pair::next::pairs) = pair.1 ++ 61::(pair.2 ++ 38::queryOf (next::pairs)) := by
  rw [queryOf,List.map_cons,List.map_cons,List.intercalate_cons_cons,List.append_assoc,List.append_assoc,List.cons_append]
  rfl

theorem Listed.tail {pair : List UInt8 × List UInt8} {pairs : List (List UInt8 × List UInt8)} (listed : Listed (pair::pairs)) :
    Listed pairs :=
  ⟨fun other member => listed.named other (List.mem_cons_of_mem _ member),listed.apart.of_cons,
    fun other member => listed.plain other (List.mem_cons_of_mem _ member)⟩

theorem Listed.whole {pairs : List (List UInt8 × List UInt8)} (listed : Listed pairs) : 0 ∉ queryOf pairs := by
  induction pairs with
  | nil => exact List.not_mem_nil
  | cons pair pairs ih =>
    have plain := listed.plain pair List.mem_cons_self
    have rest := ih listed.tail
    cases pairs with
    | nil =>
      rw [queryOf_only,List.mem_append,List.mem_cons]
      rintro (key | sign | value)
      · exact plain.1.2.2 key
      · exact absurd sign (by decide)
      · exact plain.2.2.2 value
    | cons next pairs =>
      rw [queryOf_cons,List.mem_append,List.mem_cons,List.mem_append,List.mem_cons]
      rintro (key | sign | value | sign | later)
      · exact plain.1.2.2 key
      · exact absurd sign (by decide)
      · exact plain.2.2.2 value
      · exact absurd sign (by decide)
      · exact rest later

/-- A turn at a pair: what is behind the `=` up to the `&`, or to the end. -/
theorem turn_pair {key value tail : List UInt8} (plainKey : Plain key) (plainValue : Plain value) {length : Nat}
    (ends : tail = [] ∨ ∃ rest, tail = 38::rest) (within : (key ++ 61::(value ++ tail)).length ≤ length) (short : length < 2 ^ 31) :
    turn length (key ++ 61::(value ++ tail)) = some (key,value,tail.drop 1) := by
  have found := find_split (value ++ tail) plainKey.2.1
  have sizes : (key ++ 61::(value ++ tail)).length = key.length + 1 + value.length + tail.length := by
    simp only [List.length_append,List.length_cons]
    omega
  have room : key.length % 2 ^ 32 = key.length := Nat.mod_eq_of_lt (by omega)
  obtain ⟨copied,exact_,-,turns⟩ := turn_found found (by omega) (fun e stops => by have low := find_lt stops; omega) length
  have behind : (key ++ 61::(value ++ tail)).drop (key.length + 1) = value ++ tail := by
    rw [← List.drop_drop,List.drop_left]
    rfl
  rw [room] at exact_ turns
  rw [turns,List.take_left]
  have plain : 38 ∉ key ++ 61::value := by
    rw [List.mem_append,List.mem_cons]
    rintro (inKey | sign | inValue)
    · exact plainKey.1 inKey
    · exact absurd sign (by decide)
    · exact plainValue.1 inValue
  obtain rfl | ⟨rest,rfl⟩ := ends
  · rw [List.append_nil] at *
    have stops : find 38 (key ++ 61::value) = none := find_none.mpr plain
    rw [stops,Option.getD_none,position_low (by omega),substr,if_neg (by omega),if_neg (by omega),Int.toNat_natCast,behind,
      List.take_of_length_le (by omega)] at exact_
    rw [← Option.some.inj exact_,following,stops]
    rfl
  · have same : key ++ 61::(value ++ 38::rest) = (key ++ 61::value) ++ 38::rest := by
      rw [List.append_assoc,List.cons_append]
    have stops : find 38 (key ++ 61::(value ++ 38::rest)) = some (key ++ 61::value).length := by
      rw [same]
      exact find_split rest plain
    have place : (key ++ 61::value).length = key.length + 1 + value.length := by
      rw [List.length_append,List.length_cons]
      omega
    have number : (((key.length + 1 + value.length) % 2 ^ 32 : Nat) : Int) - key.length - 1 = value.length := by omega
    rw [stops,Option.getD_some,place,position_low (by omega),number,substr,if_neg (by omega),if_neg (by omega),
      Int.toNat_natCast,Int.toNat_natCast,behind,List.take_left] at exact_
    rw [← Option.some.inj exact_,same,following_split rest (by omega) plain]
    rfl

/-- The two builders store the list, pair by pair. -/
theorem pairsLoop_listed {pairs : List (List UInt8 × List UInt8)} (listed : Listed pairs) {length : Nat}
    (within : (queryOf pairs).length ≤ length) (short : length < 2 ^ 31) (n : Nat) (http_map : HttpMap) :
    pairsLoop length (pairs.length + 1 + n) (queryOf pairs) http_map =
      .stored (pairs.foldl (fun map pair => Function.update map pair.1 (some pair.2)) http_map) := by
  induction pairs generalizing http_map with
  | nil =>
    rw [List.length_nil,Nat.zero_add,Nat.add_comm,pairsLoop]
    rfl
  | cons pair pairs ih =>
    have plain := listed.plain pair List.mem_cons_self
    obtain ⟨tail,ends,same,behind⟩ : ∃ tail, (tail = [] ∨ ∃ rest, tail = 38::rest) ∧
        queryOf (pair::pairs) = pair.1 ++ 61::(pair.2 ++ tail) ∧ tail.drop 1 = queryOf pairs := by
      cases pairs with
      | nil => exact ⟨[],.inl rfl,by rw [queryOf_only,List.append_nil],rfl⟩
      | cons next pairs => exact ⟨_,.inr ⟨_,rfl⟩,queryOf_cons pair next pairs,rfl⟩
    have some_ : queryOf (pair::pairs) ≠ [] := by
      rw [same]
      exact List.append_ne_nil_of_right_ne_nil _ (List.cons_ne_nil _ _)
    have sizes := congrArg List.length behind
    rw [List.length_drop] at sizes
    rw [same] at within some_ ⊢
    have turns := turn_pair plain.1 plain.2 ends within short
    simp only [List.length_append,List.length_cons] at within
    have bound : (pair::pairs).length + 1 + n = pairs.length + 1 + n + 1 := Nat.add_right_comm ..
    rw [bound,pairsLoop,if_neg some_,turns,behind]
    exact ih listed.tail (by omega) _

theorem builders_listed {pairs : List (List UInt8 × List UInt8)} (listed : Listed pairs) {len : Int32}
    (whole : len.toInt = (queryOf pairs).length) (http_map : HttpMap) :
    ParserHttpRequest (pairs.length + 1) (queryOf pairs) http_map =
        .stored (pairs.foldl (fun map pair => Function.update map pair.1 (some pair.2)) http_map) ∧
      SetData (pairs.length + 1) (queryOf pairs) len http_map =
        .stored (pairs.foldl (fun map pair => Function.update map pair.1 (some pair.2)) http_map) := by
  have short := Int32.toInt_lt len
  rw [SetData_eq whole,and_self]
  exact pairsLoop_listed listed le_rfl (by omega) 0 http_map

/-- The reader always ends, and stores something. -/
def Ends (reader : Nat → HttpMap → Outcome) : Prop := ∀ before, ∃ n stored, reader n before = .stored stored

/-- What the reader stores for the pairs is what `GetHttpParamElement` returns, and it
stores nothing else. -/
def Agrees (query : List UInt8) (pairs : List (List UInt8 × List UInt8)) (reader : Nat → HttpMap → Outcome) : Prop :=
  ∀ n before stored, reader n before = .stored stored →
    (∀ pair ∈ pairs, ∀ value, GetHttpParamElement query pair.1 value = stored pair.1) ∧
      ∀ key ∉ pairs.map Prod.fst, stored key = before key

structure Reads (query : List UInt8) : Prop where
  copies : ∀ name value, GetHttpParamElement query name value ≠ none
  parser : Ends fun n before => ParserHttpRequest n query before
  set : ∀ len : Int32, len.toInt = query.length → Ends fun n before => SetData n query len before
  agree : ∀ pairs, Listed pairs → query = queryOf pairs →
    Agrees query pairs (fun n before => ParserHttpRequest n query before) ∧
      ∀ len : Int32, len.toInt = query.length → Agrees query pairs fun n before => SetData n query len before

theorem stored_whole {length n : Nat} {text : List UInt8} {http_map stored : HttpMap} (whole : 0 ∉ text)
    (before : ∀ key value, http_map key = some value → 0 ∉ value) (ends : pairsLoop length n text http_map = .stored stored) :
    ∀ key value, stored key = some value → 0 ∉ value := by
  induction n generalizing text http_map with
  | zero => cases ends
  | succ n ih =>
    rw [pairsLoop] at ends
    split at ends
    · cases ends
      exact before
    · rename_i some_
      have turnable : Turnable text := by
        by_contra stuck
        refine pairsLoop_stuck some_ stuck length (n + 1) http_map stored ?_
        rw [pairsLoop,if_neg some_]
        exact ends
      obtain ⟨key,value,turns,part⟩ := turn_turnable turnable length
      rw [turns] at ends
      refine ih (fun zero => whole (following_subset text zero)) (fun other kept same => ?_) ends
      by_cases here : other = key
      · rw [here,Function.update_self] at same
        cases same
        exact fun zero => whole (part zero)
      · rw [Function.update_of_ne here] at same
        exact before other kept same

/-- Before the `=` of the second pair the first one is compared. -/
theorem second_missed {pair next : List UInt8 × List UInt8} {pairs : List (List UInt8 × List UInt8)}
    (listed : Listed (pair::next::pairs)) {rest front after : List UInt8} (same : pair.1 ++ 61::rest = front ++ 61::after) :
    front ≠ next.1 := by
  have first := listed.plain pair List.mem_cons_self
  have second := listed.plain next (List.mem_cons_of_mem _ List.mem_cons_self)
  have apart : pair.1 ≠ next.1 := fun same => (List.nodup_cons.mp listed.apart).1 (same ▸ List.mem_cons_self)
  obtain ⟨left,rfl,tail⟩ | ⟨left,key,tail⟩ := List.append_eq_append_iff.mp same
  · cases left with
    | nil =>
      rw [List.append_nil]
      exact apart
    | cons c left =>
      obtain ⟨rfl,-⟩ := List.cons.inj tail
      exact fun named => second.1.2.1 (named ▸ List.mem_append_right _ List.mem_cons_self)
  · cases left with
    | nil =>
      rw [List.append_nil] at key
      exact fun named => apart (key.trans named)
    | cons c left =>
      obtain ⟨rfl,-⟩ := List.cons.inj tail
      exact absurd (key ▸ List.mem_append_right _ List.mem_cons_self) first.1.2.1

/-- The readers agree on no list of pairs but the empty one. -/
theorem reads_iff (query : List UInt8) :
    Reads query ↔ Readable query ∧ ∀ pairs, Listed pairs → query = queryOf pairs → pairs = [] := by
  constructor
  · intro reads
    obtain ⟨n,stored,ends⟩ := reads.parser fun _ => none
    refine ⟨readable_of_stored ends,fun pairs listed same => ?_⟩
    have agrees := (reads.agree pairs listed same).1 n _ stored ends
    obtain _ | ⟨pair,_ | ⟨next,pairs⟩⟩ := pairs
    · rfl
    · have plain := listed.plain pair List.mem_cons_self
      have whole := listed.whole
      rw [← same] at whole
      have returned := GetHttpParamElement_only whole plain.1 [] plain.2.1 (same.trans (queryOf_only pair))
      have kept := (agrees.1 pair List.mem_cons_self []).symm.trans returned
      have clean := stored_whole whole (fun key value impossible => absurd impossible (by simp)) ends _ _ kept
      exact absurd (List.mem_append_right _ List.mem_cons_self) clean
    · have plain := listed.plain next (List.mem_cons_of_mem _ List.mem_cons_self)
      have whole := listed.whole
      rw [← same] at whole
      have returned (value : List UInt8) : GetHttpParamElement query next.1 value = some value := by
        refine GetHttpParamElement_missed whole plain.1 value fun front after parts => ?_
        rw [queryOf_cons] at same
        exact second_missed listed (same.symm.trans parts)
      have kept (value : List UInt8) : stored next.1 = some value :=
        (agrees.1 next (List.mem_cons_of_mem _ List.mem_cons_self) value).symm.trans (returned value)
      have two := (kept []).symm.trans (kept [0])
      cases two
  · rintro ⟨readable,only⟩
    have ends : Ends fun n before => ParserHttpRequest n query before := fun before =>
      ⟨_,stored_of_readable readable query.length (Nat.lt_succ_self _) before⟩
    have agrees (pairs : List (List UInt8 × List UInt8)) (listed : Listed pairs) (same : query = queryOf pairs) :
        Agrees query pairs fun n before => ParserHttpRequest n query before := by
      intro n before stored stores
      have none_ := only pairs listed same
      subst none_
      refine ⟨fun pair member => absurd member List.not_mem_nil,fun key _ => ?_⟩
      subst same
      cases n with
      | zero => cases stores
      | succ n =>
        cases stores
        rfl
    refine ⟨fun name value => ?_,ends,fun len whole => ?_,fun pairs listed same => ⟨agrees pairs listed same,fun len whole => ?_⟩⟩
    · obtain ⟨result,copied⟩ := GetHttpParamElement_some query name value
      rw [copied]
      exact Option.some_ne_none result
    · simpa only [SetData_eq whole] using ends
    · simpa only [SetData_eq whole] using agrees pairs listed same

/-- `a=1&b=2`. -/
def twoPairs : List (List UInt8 × List UInt8) := [([97],[49]),([98],[50])]

theorem second_lost : ¬Reads (queryOf twoPairs) := by
  intro reads
  have listed : Listed twoPairs := ⟨by decide,by decide,by simp only [Plain]; decide⟩
  obtain ⟨n,stored,ends⟩ := reads.parser fun _ => none
  have agrees := (reads.agree twoPairs listed rfl).1 n _ stored ends
  have returned (value : List UInt8) : GetHttpParamElement (queryOf twoPairs) [98] value = some value := rfl
  have kept (value : List UInt8) : stored [98] = some value :=
    (agrees.1 ([98],[50]) (by decide) value).symm.trans (returned value)
  cases (kept []).symm.trans (kept [0])

end Migfm.Public.QueryString
