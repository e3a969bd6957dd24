import Migfm.Public.Strings
import Mathlib.Data.List.TakeWhile
import Mathlib.Data.Finset.Max

/-! Documents that are written as the members of one object, each a string, with
nothing escaped: what the reader makes of them. -/
namespace Migfm.Public.Json
open Logic (ascii)

/-- A name and its text, between quotes. -/
abbrev Field := List UInt8 × List UInt8

/-- From a member on. -/
def members : List Field → List UInt8
  | [] => [125]
  | field::rest =>
    34::(field.1 ++ 34::58::34::(field.2 ++ 34::(if rest.isEmpty then [125] else 44::members rest)))

def record (fields : List Field) : List UInt8 := 123::members fields

/-- A name as the writers have them. -/
structure Name (name : List UInt8) : Prop where
  plain : Plain name
  nonzero : 0 ∉ name
  first : ∃ c rest, name = c::rest ∧ c ∉ [32,9,13,10,44,125,47]

/-- A text that is written as it is. -/
structure Clean (value : List UInt8) : Prop where
  plain : Plain value
  nonzero : 0 ∉ value

/-! ### Where strings stand -/

theorem suffix_append_cases {c : UInt8} {l a b : List UInt8} (suffix : c::l <:+ a ++ b) :
    c::l <:+ b ∨ ∃ s, c::s <:+ a ∧ l = s ++ b := by
  obtain ⟨t,same⟩ := suffix
  rcases List.append_eq_append_iff.mp same with ⟨s,first,rest⟩ | ⟨s,first,rest⟩
  · cases s with
    | nil => exact .inl (rest ▸ List.suffix_refl _)
    | cons c s =>
      cases rest
      exact .inr ⟨s,⟨t,first.symm⟩,rfl⟩
  · exact .inl ⟨s,rest.symm⟩

/-- A string that starts in a part of the document: it ends there, or with it, or its
end is escaped. -/
theorem readString_append {part rest content after : List UInt8}
    (read : readString (part ++ 34::rest) = some (content,after)) :
    (content.length < part.length ∧ ¬ Plain part) ∨ (content = part ∧ after = rest) ∨
      ∃ more, content = part ++ 34::more ∧ readString rest = some (more,after) := by
  induction part using readString.induct generalizing content with
  | case1 =>
    cases read
    exact .inr (.inl ⟨rfl,rfl⟩)
  | case2 part =>
    cases read
    exact .inl ⟨Nat.succ_pos _,fun plain => (plain 34 (.head _)).1 rfl⟩
  | case3 c part ih =>
    rw [List.cons_append,List.cons_append,readString,Option.map_eq_some_iff] at read
    obtain ⟨⟨inner,_⟩,read,same⟩ := read
    cases same
    rcases ih read with ⟨less,-⟩ | ⟨rfl,rfl⟩ | ⟨more,rfl,past⟩
    · exact .inl ⟨Nat.succ_lt_succ (Nat.succ_lt_succ less),fun plain => (plain 92 (.head _)).2 rfl⟩
    · exact .inr (.inl ⟨rfl,rfl⟩)
    · exact .inr (.inr ⟨more,rfl,past⟩)
  | case4 c part quote escape ih =>
    by_cases backslash : c = 92
    · -- the quote that ends the part is escaped
      cases part with
      | nil =>
        subst backslash
        rw [List.cons_append,List.nil_append,readString,Option.map_eq_some_iff] at read
        obtain ⟨⟨inner,_⟩,read,same⟩ := read
        cases same
        exact .inr (.inr ⟨inner,rfl,read⟩)
      | cons next part => exact absurd rfl (escape next part backslash)
    · rw [List.cons_append,readString,Option.map_eq_some_iff] at read
      · obtain ⟨⟨inner,_⟩,read,same⟩ := read
        cases same
        rcases ih read with ⟨less,special⟩ | ⟨rfl,rfl⟩ | ⟨more,rfl,past⟩
        · exact .inl ⟨Nat.succ_lt_succ less,fun plain => special (List.forall_mem_cons.mp plain).2⟩
        · exact .inr (.inl ⟨rfl,rfl⟩)
        · exact .inr (.inr ⟨more,rfl,past⟩)
      · exact quote
      · exact fun _ _ same => absurd same backslash

theorem readString_plain {content : List UInt8} (plain : Plain content) (rest : List UInt8) :
    readString (content ++ 34::rest) = some (content,rest) := by
  induction content with
  | nil => rfl
  | cons c content ih =>
    obtain ⟨⟨quote,backslash⟩,plain⟩ := List.forall_mem_cons.mp plain
    rw [List.cons_append,readString,ih plain]
    · rfl
    · exact quote
    · exact fun _ _ same => absurd same backslash

/-- No member's string ends behind the quote that closes a text. -/
theorem readString_ending {fields : List Field} (names : ∀ field ∈ fields, Name field.1) {more rest : List UInt8}
    (follows : Follows rest) : readString (if fields.isEmpty then [125] else 44::members fields) ≠ some (more,rest) := by
  intro read
  cases fields with
  | nil => cases read
  | cons field fields =>
    -- what follows is the next member's name
    cases read
    obtain ⟨c,name,same,other⟩ := (names field (.head _)).first
    obtain ⟨first,head,among⟩ := follows
    rw [same,List.cons_append,skipSpaces,List.dropWhile_cons_of_neg] at head
    · cases head
      simp only [List.mem_cons,List.not_mem_nil,or_false,not_or] at other
      tauto
    · simp only [List.mem_cons,List.not_mem_nil,or_false,not_or] at other
      simp only [decide_eq_true_eq]
      tauto

/-- A string that is read as a member stands as it is, or in an unclean text of the
record, which is no shorter. -/
theorem content_cases {fields : List Field} (names : ∀ field ∈ fields, Name field.1) {after content rest : List UInt8}
    (starts : 34::after <:+ members fields) (read : readString after = some (content,rest)) (follows : Follows rest) :
    Plain content ∨ ∃ field ∈ fields, ¬ Plain field.2 ∧ content.length ≤ field.2.length := by
  induction fields with
  | nil =>
    rw [members] at starts
    have quote := starts.subset (List.mem_cons_self : (34 : UInt8) ∈ 34::after)
    exact absurd quote (by decide)
  | cons field fields ih =>
    obtain ⟨name,names⟩ := List.forall_mem_cons.mp names
    have ending (more : List UInt8) := @readString_ending fields names more rest follows
    rw [members] at starts
    rcases List.suffix_cons_iff.mp starts with same | starts
    · -- the name
      cases same
      rw [readString_plain name.plain] at read
      cases read
      exact .inl name.plain
    rcases suffix_append_cases starts with starts | ⟨part,within,-⟩
    rotate_left
    · exact absurd rfl (name.plain 34 (within.subset (.head _))).1
    rcases List.suffix_cons_iff.mp starts with same | starts
    · cases same
      cases read
      exact .inl (by simp [Plain])
    rcases List.suffix_cons_iff.mp starts with same | starts
    · cases same
    rcases List.suffix_cons_iff.mp starts with same | starts
    · -- the text
      cases same
      rcases readString_append read with ⟨less,special⟩ | ⟨rfl,-⟩ | ⟨more,-,past⟩
      · exact .inr ⟨field,.head _,special,less.le⟩
      · by_cases plain : Plain field.2
        · exact .inl plain
        · exact .inr ⟨field,.head _,plain,le_rfl⟩
      · exact absurd past (ending _)
    rcases suffix_append_cases starts with starts | ⟨part,within,rfl⟩
    rotate_left
    · -- a quote inside the text
      have special : ¬ Plain field.2 := fun plain => (plain 34 (within.subset (.head _))).1 rfl
      have shorter := (List.suffix_cons 34 part).length_le.trans within.length_le
      rcases readString_append read with ⟨less,-⟩ | ⟨rfl,-⟩ | ⟨more,-,past⟩
      · exact .inr ⟨field,.head _,special,less.le.trans shorter⟩
      · exact .inr ⟨field,.head _,special,shorter⟩
      · exact absurd past (ending _)
    rcases List.suffix_cons_iff.mp starts with same | starts
    · cases same
      exact absurd read (ending _)
    cases fields with
    | nil =>
      have quote := starts.subset (List.mem_cons_self : (34 : UInt8) ∈ 34::after)
      exact absurd quote (by decide)
    | cons next fields =>
      rcases List.suffix_cons_iff.mp starts with same | starts
      · cases same
      rcases ih names starts with plain | ⟨field,member,special⟩
      · exact .inl plain
      · exact .inr ⟨field,.tail _ member,special⟩

/-! ### What is read -/

theorem skipSpaces_visible {c : UInt8} (rest : List UInt8) (visible : c ≠ 32 ∧ c ≠ 9 ∧ c ≠ 13 ∧ c ≠ 10) :
    skipSpaces (c::rest) = c::rest := by
  rw [skipSpaces,List.dropWhile_cons_of_neg]
  simp only [decide_eq_true_eq]
  tauto

theorem skipCommentTokens_of {text rest : List UInt8} {token : Token} (read : readToken text = (token,rest))
    (other : token ≠ .comment) : skipCommentTokens text = (token,rest) := by
  rw [skipCommentTokens]
  split
  · rename_i found
    rw [read] at found
    cases found
    exact absurd rfl other
  · exact read

section Reading
variable {codePointToUTF8 : Nat → List UInt8} {sscanf : List UInt8 → Option Float}

theorem readToken_quoted {content : List UInt8} (plain : Plain content) (rest : List UInt8) :
    readToken (34::(content ++ 34::rest)) = (.string content,rest) := by
  rw [readToken,skipSpaces_visible _ (by decide)]
  simp only [readString_plain plain]

theorem readToken_mark (token : Token) {c : UInt8} (rest : List UInt8)
    (mark : (c,token) ∈ [(123,.objectBegin),(125,.objectEnd),(44,.arraySeparator),(58,.memberSeparator)]) :
    readToken (c::rest) = (token,rest) := by
  simp only [List.mem_cons,Prod.mk.injEq,List.not_mem_nil,or_false] at mark
  rcases mark with ⟨rfl,rfl⟩ | ⟨rfl,rfl⟩ | ⟨rfl,rfl⟩ | ⟨rfl,rfl⟩
  all_goals
    rw [readToken,skipSpaces_visible _ (by decide)]
    rfl

theorem readColon_first (rest : List UInt8) : readColon (58::rest) = some rest := by
  rw [readColon,readToken_mark .memberSeparator rest (by simp)]

theorem readComma_ending (fields : List Field) :
    readComma (if fields.isEmpty then [125] else 44::members fields) =
      some (fields.isEmpty,if fields.isEmpty then [] else members fields) := by
  cases fields with
  | nil => rw [List.isEmpty_nil,if_pos rfl,readComma,readToken_mark .objectEnd [] (by simp),if_pos rfl]
  | cons field fields =>
    rw [List.isEmpty_cons,if_neg (by simp),readComma,readToken_mark .arraySeparator _ (by simp),if_neg (by simp)]

theorem readValue_quoted {value : List UInt8} (plain : Plain value) (rest : List UInt8) (fuel : Nat) :
    readValue codePointToUTF8 sscanf (fuel + 1) (34::(value ++ 34::rest)) = some (.string value,rest) := by
  rw [readValue,skipCommentTokens_of (readToken_quoted plain rest) (by simp)]
  simp only [decodeString_plain codePointToUTF8 plain,Option.map_some]

theorem c_str_nonzero {text : List UInt8} (nonzero : 0 ∉ text) : c_str text = text :=
  List.takeWhile_eq_self_iff.mpr fun c member => by
    simp only [ne_eq,decide_not,Bool.not_eq_true',decide_eq_false_iff_not]
    exact fun zero => nonzero (zero ▸ member)

theorem readObject_members {fields : List Field} (names : ∀ field ∈ fields, Name field.1)
    (values : ∀ field ∈ fields, Plain field.2) (some_ : fields ≠ []) {fuel : Nat} (enough : fields.length < fuel)
    (before : List (List UInt8 × Value)) (name : List UInt8) :
    readObject codePointToUTF8 sscanf fuel before name (members fields) =
      some (.object ((fields.map fun field => (field.1,.string field.2)).reverse ++ before),[]) := by
  induction fields generalizing fuel before name with
  | nil => exact absurd rfl some_
  | cons field fields ih =>
    obtain ⟨fuel,rfl⟩ : ∃ less, fuel = less + 1 := ⟨fuel - 1,by omega⟩
    obtain ⟨more,rfl⟩ : ∃ less, fuel = less + 1 := ⟨fuel - 1,by simp only [List.length_cons] at enough; omega⟩
    obtain ⟨first,names⟩ := List.forall_mem_cons.mp names
    obtain ⟨value,values⟩ := List.forall_mem_cons.mp values
    rw [readObject,members,skipCommentTokens_of (readToken_quoted first.plain _) (by simp)]
    simp only [decodeString_plain codePointToUTF8 first.plain,Option.bind_eq_bind,Option.bind_some,readColon_first,
      readValue_quoted value,readComma_ending,c_str_nonzero first.nonzero]
    cases fields with
    | nil => rfl
    | cons next fields =>
      simp only [List.isEmpty_cons,Bool.false_eq_true,if_false]
      rw [ih names values (by simp) (by simpa using enough),List.map_cons (a := field),List.reverse_cons (a := _),
        List.append_assoc]
      rfl

/-- A record of clean texts is read as it was written. -/
theorem parse_record {fields : List Field} (names : ∀ field ∈ fields, Name field.1)
    (values : ∀ field ∈ fields, Plain field.2) (some_ : fields ≠ []) {fuel : Nat} (enough : fields.length + 1 < fuel) :
    parse codePointToUTF8 sscanf fuel (record fields) =
      some (.object (fields.map fun field => (field.1,.string field.2)).reverse) := by
  obtain ⟨fuel,rfl⟩ : ∃ less, fuel = less + 1 := ⟨fuel - 1,by omega⟩
  rw [parse,record,readValue,skipCommentTokens_of (readToken_mark .objectBegin _ (by simp)) (by simp)]
  simp only [readObject_members names values some_ (Nat.lt_of_succ_lt_succ enough),List.append_nil,Option.map_some]

/-! ### Names -/

theorem lookup_members {items : List (List UInt8 × Value)} (distinct : (items.map Prod.fst).Nodup) {name : List UInt8}
    {value : Value} (member : (name,value) ∈ items) : items.lookup name = some value := by
  induction items with
  | nil => cases member
  | cons item items ih =>
    obtain ⟨absent,distinct⟩ := List.nodup_cons.mp distinct
    rw [List.lookup_cons]
    rcases List.mem_cons.mp member with same | later
    · cases same
      rw [beq_self_eq_true]
    · have other : name ≠ item.1 := fun same => absent (same ▸ List.mem_map_of_mem later)
      rw [beq_eq_false_iff_ne.mpr other]
      exact ih distinct later

section Texts
variable {fields : List Field}

/-- The object of a record. -/
def object (fields : List Field) : Value := .object (fields.map fun field => (field.1,.string field.2)).reverse

theorem member_of_mem (distinct : (fields.map Prod.fst).Nodup) {field : Field} (member : field ∈ fields) :
    (object fields).member field.1 = some (.string field.2) := by
  have names : ((fields.map fun field => (field.1,Value.string field.2)).reverse.map Prod.fst).Nodup := by
    rw [List.map_reverse,List.map_map,List.nodup_reverse]
    exact distinct
  have found := lookup_members names (List.mem_reverse.mpr (List.mem_map_of_mem member))
  rw [object,Value.member,found,Option.getD_some]

theorem text_of_absent {name : List UInt8} (absent : name ∉ fields.map Prod.fst) : (object fields).text name = some [] := by
  have none_ : (fields.map fun field => (field.1,Value.string field.2)).reverse.lookup name = none := by
    rw [List.lookup_eq_none_iff]
    intro item member
    obtain ⟨field,within,rfl⟩ := List.mem_map.mp (List.mem_reverse.mp member)
    have other : name ≠ field.1 := fun same => absent (List.mem_map.mpr ⟨field,within,same.symm⟩)
    exact bne_iff_ne.mpr other
  rw [Value.text,object,Value.member,none_]
  rfl

end Texts

/-! ### Unclean texts -/

theorem c_str_plain {text : List UInt8} (plain : Plain text) : Plain (c_str text) := fun c member =>
  plain c ((List.takeWhile_sublist _).subset member)

/-- What a member of a root is as a text: a string of the document, or a plain text. -/
theorem text_cases {all : List (List UInt8 × Value)} {name value : List UInt8} (read : (Value.object all).text name = some value) :
    Plain value ∨ ∃ string, (name,.string string) ∈ all ∧ value = c_str string := by
  rw [Value.text,Value.member,Option.bind_some] at read
  cases found : all.lookup name with
  | none =>
    rw [found] at read
    cases read
    exact .inl fun _ member => nomatch member
  | some item =>
    rw [found,Option.getD_some] at read
    cases item with
    | null =>
      cases read
      exact .inl fun _ member => nomatch member
    | string string =>
      cases read
      obtain ⟨before,after,same,-⟩ := List.lookup_eq_some_iff.mp found
      exact .inr ⟨string,same ▸ by simp,rfl⟩
    | boolean item =>
      cases read
      refine .inl ?_
      cases item
      all_goals
        simp only [Plain]
        decide +kernel
    | _ => cases read

variable (short : ∀ unicode, (codePointToUTF8 unicode).length ≤ 4)
include short

/-- An unclean text is not read back: the longest of them stands nowhere between
quotes, also not in another's text. -/
theorem plain_of_read {fields : List Field} (names : ∀ field ∈ fields, Name field.1) {fuel : Nat} {root : Value}
    (read : parse codePointToUTF8 sscanf fuel (record fields) = some root)
    (kept : ∀ field ∈ fields, ¬ Plain field.2 → ∃ name, root.text name = some field.2) :
    ∀ field ∈ fields, Plain field.2 := by
  classical
  by_contra unclean
  push Not at unclean
  obtain ⟨some_,among,unclean⟩ := unclean
  obtain ⟨field,member,longest⟩ := Finset.exists_max_image (fields.toFinset.filter fun field => ¬ Plain field.2)
    (fun field => field.2.length) ⟨some_,by simpa using ⟨among,unclean⟩⟩
  simp only [Finset.mem_filter,List.mem_toFinset] at member longest
  obtain ⟨member,unclean⟩ := member
  obtain ⟨name,text⟩ := kept field member unclean
  -- the root is an object, and each of its strings stands in the document
  rw [parse,Option.map_eq_some_iff] at read
  obtain ⟨⟨_,rest⟩,read,rfl⟩ := read
  cases fuel with
  | zero => cases read
  | succ fuel =>
    rw [record,readValue,skipCommentTokens_of (readToken_mark .objectBegin _ (by simp)) (by simp)] at read
    obtain ⟨-,all,rfl,stands⟩ := (reads codePointToUTF8 sscanf fuel).object read
    rcases text_cases text with plain | ⟨string,within,same⟩
    · exact unclean plain
    · rcases stands name string within with none_ | ⟨after,⟨start,content,starts,quoted,decoded⟩,follows⟩
      · cases none_
      · rcases Classical.em (Plain content) with plain | escaped
        · rw [decodeString_plain codePointToUTF8 plain] at decoded
          cases decoded
          exact unclean (same ▸ c_str_plain plain)
        · rcases content_cases names starts quoted follows with plain | ⟨other,among,special,longer⟩
          · exact escaped plain
          · have cut := (List.takeWhile_sublist (· ≠ 0) (l := string)).length_le
            have shorter := (decodeString_length codePointToUTF8 short decoded).2 escaped
            have most := longest other ⟨among,special⟩
            rw [same] at most
            exact absurd (cut.trans_lt (shorter.trans_le (longer.trans most))) (lt_irrefl _)

end Reading
/-! ### Clean documents -/

theorem c_str_zero (text : List UInt8) : 0 ∉ c_str text := fun member => by
  simpa using List.mem_takeWhile_imp member

theorem text_nonzero {root : Value} {name value : List UInt8} (read : root.text name = some value) : 0 ∉ value := by
  rw [Value.text,Option.bind_eq_some_iff] at read
  obtain ⟨item,-,read⟩ := read
  cases item with
  | null =>
    cases read
    exact List.not_mem_nil
  | string string =>
    cases read
    exact c_str_zero string
  | boolean item =>
    cases read
    cases item
    all_goals decide
  | _ => cases read

theorem record_nonzero {fields : List Field} (names : ∀ field ∈ fields, Name field.1) (values : ∀ field ∈ fields, 0 ∉ field.2) :
    0 ∉ record fields := by
  have nonzero : 0 ∉ members fields := by
    induction fields with
    | nil =>
      rw [members]
      decide
    | cons field fields ih =>
      obtain ⟨name,names⟩ := List.forall_mem_cons.mp names
      obtain ⟨value,values⟩ := List.forall_mem_cons.mp values
      have rest := ih names values
      have first := name.nonzero
      rw [members]
      cases fields with
      | nil => simp [first,value]
      | cons next fields => simp [first,value,rest]
  simp [record,nonzero]

theorem length_lt_record (fields : List Field) : fields.length + 1 < 2 * (record fields).length + 2 := by
  have bound : fields.length ≤ (members fields).length := by
    induction fields with
    | nil => exact Nat.zero_le _
    | cons field fields ih =>
      rw [members]
      cases fields with
      | nil => simp
      | cons next fields =>
        simp only [List.isEmpty_cons,Bool.false_eq_true,if_false,List.length_cons,List.length_append] at ih ⊢
        omega
  rw [record,List.length_cons]
  omega

theorem Clean.of_all {value : List UInt8} (each : value.all fun c => c ≠ 34 ∧ c ≠ 92 ∧ c ≠ 0) : Clean value := by
  rw [List.all_eq_true] at each
  refine ⟨fun c member => ?_,fun member => (of_decide_eq_true (each 0 member)).2.2 rfl⟩
  obtain ⟨quote,backslash,-⟩ := of_decide_eq_true (each c member)
  exact ⟨quote,backslash⟩

/-- Whether a name is one the reader takes as it is. -/
def named (name : List UInt8) : Bool :=
  name.all (fun c => c ≠ 34 ∧ c ≠ 92 ∧ c ≠ 0) &&
    match name with
    | [] => false
    | c::_ => !([32,9,13,10,44,125,47].contains c)

theorem Name.of_named {name : List UInt8} (ok : named name) : Name name := by
  rw [named.eq_def,Bool.and_eq_true] at ok
  obtain ⟨each,first⟩ := ok
  obtain ⟨plain,nonzero⟩ := Clean.of_all each
  refine ⟨plain,nonzero,?_⟩
  cases name with
  | nil => cases first
  | cons c rest => exact ⟨c,rest,rfl,fun among => by simp [among] at first⟩

theorem names_of {fields : List Field} (names : List String) (same : fields.map Prod.fst = names.map ascii)
    (ok : names.all fun name => named (ascii name)) : ∀ field ∈ fields, Name field.1 := by
  intro field member
  have within := List.mem_map_of_mem (f := Prod.fst) member
  rw [same,List.mem_map] at within
  obtain ⟨name,listed,same⟩ := within
  exact same ▸ Name.of_named (List.all_eq_true.mp ok name listed)

section Documents
variable {codePointToUTF8 : Nat → List UInt8} {sscanf : List UInt8 → Option Float} {fuel : Nat} {fields : List Field}
variable (names : ∀ field ∈ fields, Name field.1)
include names

theorem parse_clean (clean : ∀ field ∈ fields, Clean field.2) (some_ : fields ≠ [])
    (enough : 2 * (record fields).length + 2 ≤ fuel) :
    parse codePointToUTF8 sscanf fuel (c_str (record fields)) = some (object fields) := by
  rw [c_str_nonzero (record_nonzero names fun field member => (clean field member).nonzero)]
  exact parse_record names (fun field member => (clean field member).plain) some_ ((length_lt_record fields).trans_le enough)

theorem clean_of_read (short : ∀ unicode, (codePointToUTF8 unicode).length ≤ 4) {root : Value}
    (read : parse codePointToUTF8 sscanf fuel (c_str (record fields)) = some root)
    (kept : ∀ field ∈ fields, Clean field.2 ∨ ∃ name, root.text name = some field.2) : ∀ field ∈ fields, Clean field.2 := by
  have nonzero : ∀ field ∈ fields, 0 ∉ field.2 := by
    intro field member
    rcases kept field member with clean | ⟨name,text⟩
    · exact clean.nonzero
    · exact text_nonzero text
  rw [c_str_nonzero (record_nonzero names nonzero)] at read
  have plain := plain_of_read short names read fun field member special =>
    (kept field member).resolve_left fun clean => special clean.plain
  exact fun field member => ⟨plain field member,nonzero field member⟩

omit names in
theorem object_text (distinct : (fields.map Prod.fst).Nodup) (clean : ∀ field ∈ fields, Clean field.2) :
    ∀ field ∈ fields, (object fields).text field.1 = some field.2 := by
  intro field member
  rw [Value.text,member_of_mem distinct member,Option.bind_some,Value.asString,c_str_nonzero (clean field member).nonzero]

end Documents

theorem Clean.c_str {value : List UInt8} (clean : Clean value) : Clean (c_str value) :=
  (c_str_nonzero clean.nonzero).symm ▸ clean

theorem Clean.of_text {root : Value} {name value : List UInt8} (clean : Clean (Json.c_str value))
    (read : root.text name = some value) : Clean value := c_str_nonzero (text_nonzero read) ▸ clean

/-- A text that was read is written as it is. -/
theorem written {root : Value} {name value : List UInt8} (read : root.text name = some value) :
    ∃ name, root.text name = some (c_str value) := ⟨name,(c_str_nonzero (text_nonzero read)).symm ▸ read⟩

end Migfm.Public.Json
