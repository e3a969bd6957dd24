import Migfm.Library.Scanning
import Migfm.Logic.ValueSerializer

/-! `HeaderFunction` of public/http/http_method.cc on the lines that libcurl gives it. A line is not terminated,
so a scan goes on into what follows. -/
namespace Migfm.Public.HttpMethod
open Library (scan scan_eq_none scan_eq_some scan_append scan_at)
open Logic (ascii denoted)

structure CurlContent where
  headers_ : List UInt8 → Option (List UInt8)
  code_ : Int32
  subversion_ : Int32

def isspace (c : UInt8) : Bool := c = 32 ∨ (9 ≤ c ∧ c ≤ 13)

def isdigit (c : UInt8) : Bool := 48 ≤ c ∧ c ≤ 57

/-! ### sscanf -/

/-- The characters of a directive. Without a result the memory is left; with `none` the input differs. -/
def literal : List UInt8 → List UInt8 → Option (Option (List UInt8))
  | [],p => some (some p)
  | _::_,[] => none
  | d::directive,c::p => if c = d then literal directive p else some none

/-- `%d` -/
def number (p : List UInt8) : Option (Option (Int × List UInt8)) :=
  match scan isspace p with
  | none => none
  | some (_,c,q) =>
    match scan isdigit (if c = 43 ∨ c = 45 then q else c::q) with
    | none => none
    | some (digits,stop,rest) =>
      if digits = [] then some none
      else some (some (if c = 45 then -(denoted digits : Int) else denoted digits,stop::rest))

def http : List UInt8 := ascii "HTTP/1."

/-- The numbers that are read for `HTTP/1.%d %d`. The blank of the format adds nothing to `%d`. -/
def sscanf (p : List UInt8) : Option (List Int) :=
  match literal http p with
  | none => none
  | some none => some []
  | some (some p) =>
    match number p with
    | none => none
    | some none => some []
    | some (some (subversion,p)) =>
      match number p with
      | none => none
      | some none => some [subversion]
      | some (some (code,_)) => some [subversion,code]

/-- The numbers are written as they are read. -/
def assigned (content : CurlContent) : List Int → CurlContent
  | [] => content
  | [subversion] => { content with subversion_ := Int32.ofInt subversion }
  | subversion::code::_ => { content with subversion_ := Int32.ofInt subversion,code_ := Int32.ofInt code }

/-! ### HeaderFunction -/

/-- The text up to the character and with it, if that comes before a terminator. -/
def strchr (p : List UInt8) (c : UInt8) : Option (Option (List UInt8)) :=
  (scan (fun d => d ≠ c ∧ d ≠ 0) p).map fun (before,stop,_) => if stop = c then some (before ++ [stop]) else none

/-- The text from `start` to `end`. -/
def ending (p : List UInt8) : Option (List UInt8) :=
  match strchr p 13 with
  | none => none
  | some (some text) => some text
  | some none =>
    match strchr p 10 with
    | none => none
    | some (some text) => some text
    | some none => (strchr p 0).join

/-- `end` goes back over the blanks, as far as `start`; the text is reversed. -/
def back : List UInt8 → List UInt8
  | c::d::p => if isspace c then back (d::p) else c::d::p
  | p => p

def trimmed (text : List UInt8) : List UInt8 := (back text.reverse).reverse

/-- `p-(char*)ptr` -/
def offset (mem p : List UInt8) : UInt64 := UInt64.ofNat (mem.length - p.length)

/-- What is returned, with the content then; there is none when it reads outside of the memory. -/
def HeaderFunction (content : CurlContent) (size nmemb : UInt64) (mem : List UInt8) : Option (UInt64 × CurlContent) :=
  match scan isspace mem with
  | none => none
  | some (_,c,p) =>
    if content.code_ = 0 then
      (sscanf (c::p)).map fun values => (if values.length ≠ 2 then -1 else size * nmemb,assigned content values)
    else if c = 0 then some (offset mem (c::p),content)
    else match scan (fun d => d ≠ 58 ∧ d ≠ 0) (c::p) with
      | none => none
      | some (start,stop,q) =>
        if stop = 0 then some (offset mem (stop::q),content)
        else
          let name := (trimmed (start ++ [stop])).dropLast
          match scan isspace q with
          | none => none
          | some (_,c,p) =>
            if c = 0 then some (offset mem (c::p),content)
            else (ending (c::p)).map fun text =>
              (size * nmemb,{ content with headers_ := Function.update content.headers_ name (some (trimmed text)) })

/-! ### What is promised -/

/-- A line as libcurl gives it. -/
structure Line where
  bytes : List UInt8
  size : UInt64
  nmemb : UInt64
  length_eq : bytes.length = (size * nmemb).toNat

def Line.n (line : Line) : UInt64 := line.size * line.nmemb

def Blank (text : List UInt8) : Prop := ∀ c ∈ text, isspace c = true

def Digits (text : List UInt8) : Prop := ∀ c ∈ text, isdigit c = true

/-- The version, its minor number, and the code. -/
def StatusLine (line : List UInt8) : Prop :=
  ∃ minor blanks code reason, line = http ++ minor ++ blanks ++ code ++ reason ∧ Digits minor ∧ minor ≠ [] ∧
    Blank blanks ∧ blanks ≠ [] ∧ Digits code ∧ code ≠ []

/-- `Name: value` with blanks around the value, which the line's end belongs to. -/
structure Field (line name before value behind : List UInt8) : Prop where
  whole : line = name ++ 58::(before ++ value ++ behind)
  some_name : name ≠ []
  named : ∀ c ∈ name, c ≠ 58 ∧ isspace c = false
  blank_before : Blank before
  blank_behind : Blank behind
  ends : behind.getLast? = some 10
  some_value : value ≠ []
  first : ∀ c, value.head? = some c → isspace c = false
  last : ∀ c, value.getLast? = some c → isspace c = false

/-- The headers then; the line is not taken for a header while there is no code. -/
def Stores (code_ : Int32) (line : List UInt8) (headers_ next : List UInt8 → Option (List UInt8)) : Prop :=
  (∀ name before value behind, code_ ≠ 0 → Field line name before value behind →
    next = Function.update headers_ name (some value)) ∧
  ((code_ = 0 ∨ ¬∃ name before value behind, Field line name before value behind) → next = headers_)

/-- Whatever follows the line, and also when nothing does. -/
def Right (code_ : Int32) (line : Line) : Prop :=
  ∀ content : CurlContent, content.code_ = code_ → ∃ returned next,
    (∀ after, HeaderFunction content line.size line.nmemb (line.bytes ++ after) = some (returned,next)) ∧
    ((code_ = 0 → StatusLine line.bytes) → returned = line.n) ∧ Stores code_ line.bytes content.headers_ next.headers_

/-! ### Where it is right -/

/-- A number that may go on. -/
def Unfinished (text : List UInt8) : Prop :=
  ∃ blanks sign digits, text = blanks ++ (sign ++ digits) ∧ Blank blanks ∧ (sign = [] ∨ sign = [43] ∨ sign = [45]) ∧ Digits digits

def Number (text : List UInt8) : Prop :=
  ∃ blanks sign digits, text = blanks ++ (sign ++ digits) ∧ Blank blanks ∧ (sign = [] ∨ sign = [43] ∨ sign = [45]) ∧
    Digits digits ∧ digits ≠ []

/-- What may go on to a status line. -/
def Begun (rest : List UInt8) : Prop :=
  rest <+: http ∨ ∃ version, rest = http ++ version ∧
    (Unfinished version ∨ ∃ number code, version = number ++ code ∧ Number number ∧ Unfinished code)

def Open (line : List UInt8) : Prop := ∃ blanks rest, line = blanks ++ rest ∧ Blank blanks ∧ Begun rest

/-- The value has neither CR nor NUL and a CR follows, or it is its first NUL that ends it. -/
def Ended (value behind : List UInt8) : Prop :=
  (13 ∉ value ∧ 0 ∉ value ∧ 13 ∈ behind) ∨ ∃ text, value = text ++ [0] ∧ text ≠ [] ∧ 13 ∉ text ∧ 10 ∉ text ∧ 0 ∉ text

def Inside (code_ : Int32) (line : List UInt8) : Prop :=
  if code_ = 0 then ¬Open line
  else ∃ name before value behind, Field line name before value behind ∧ 0 ∉ name ∧ Ended value behind

/-! ### What follows the line -/

theorem literal_append {directive p : List UInt8} {found : Option (List UInt8)} (matched : literal directive p = some found)
    (more : List UInt8) : literal directive (p ++ more) = some (found.map (· ++ more)) := by
  induction directive generalizing p with
  | nil =>
    cases matched
    rfl
  | cons d directive ih =>
    cases p with
    | nil => cases matched
    | cons c p =>
      rw [literal] at matched
      rw [List.cons_append,literal]
      split at matched
      · rename_i same
        rw [if_pos same]
        exact ih matched
      · rename_i other
        rw [if_neg other]
        cases matched
        rfl

theorem number_append {p : List UInt8} {found : Option (Int × List UInt8)} (read : number p = some found) (more : List UInt8) :
    number (p ++ more) = some (found.map fun (value,rest) => (value,rest ++ more)) := by
  rw [number] at read
  cases skipped : scan isspace p with
  | none =>
    rw [skipped] at read
    cases read
  | some found =>
    obtain ⟨blanks,c,q⟩ := found
    rw [skipped] at read
    dsimp only at read
    rw [number,scan_append skipped more]
    dsimp only
    have signed : (if c = 43 ∨ c = 45 then q ++ more else c::(q ++ more)) = (if c = 43 ∨ c = 45 then q else c::q) ++ more := by
      split
      · rfl
      · rfl
    rw [signed]
    cases counted : scan isdigit (if c = 43 ∨ c = 45 then q else c::q) with
    | none =>
      rw [counted] at read
      cases read
    | some found =>
      obtain ⟨digits,stop,rest⟩ := found
      rw [counted] at read
      rw [scan_append counted more]
      dsimp only at read ⊢
      split at read
      · rename_i none_
        rw [if_pos none_]
        cases read
        rfl
      · rename_i some_
        rw [if_neg some_]
        cases read
        rfl

theorem sscanf_append {p : List UInt8} {values : List Int} (read : sscanf p = some values) (more : List UInt8) :
    sscanf (p ++ more) = some values := by
  rw [sscanf] at read ⊢
  cases matched : literal http p with
  | none =>
    rw [matched] at read
    cases read
  | some found =>
    rw [literal_append matched more]
    rw [matched] at read
    cases found with
    | none => exact read
    | some version =>
      dsimp only [Option.map_some] at read ⊢
      cases first : number version with
      | none =>
        rw [first] at read
        cases read
      | some found =>
        rw [number_append first more]
        rw [first] at read
        cases found with
        | none => exact read
        | some found =>
          obtain ⟨subversion,rest⟩ := found
          dsimp only [Option.map_some] at read ⊢
          cases second : number rest with
          | none =>
            rw [second] at read
            cases read
          | some found =>
            rw [number_append second more]
            rw [second] at read
            cases found with
            | none => exact read
            | some found => exact read

theorem strchr_append {p : List UInt8} {c : UInt8} {found : Option (List UInt8)} (read : strchr p c = some found)
    (more : List UInt8) : strchr (p ++ more) c = some found := by
  rw [strchr] at read ⊢
  obtain ⟨⟨before,stop,rest⟩,scanned,same⟩ := Option.map_eq_some_iff.mp read
  rw [scan_append scanned more]
  exact congrArg some same

theorem ending_append {p text : List UInt8} (read : ending p = some text) (more : List UInt8) :
    ending (p ++ more) = some text := by
  rw [ending] at read ⊢
  cases first : strchr p 13 with
  | none =>
    rw [first] at read
    cases read
  | some found =>
    rw [strchr_append first more]
    rw [first] at read
    cases found with
    | some found => exact read
    | none =>
      dsimp only at read ⊢
      cases second : strchr p 10 with
      | none =>
        rw [second] at read
        cases read
      | some found =>
        rw [strchr_append second more]
        rw [second] at read
        cases found with
        | some found => exact read
        | none =>
          dsimp only at read ⊢
          obtain ⟨found,third⟩ : ∃ found, strchr p 0 = some found := by
            cases third : strchr p 0 with
            | none =>
              rw [third] at read
              cases read
            | some found => exact ⟨found,rfl⟩
          rw [strchr_append third more]
          rw [third] at read
          exact read

theorem offset_append (mem p more : List UInt8) : offset (mem ++ more) (p ++ more) = offset mem p := by
  rw [offset,offset,List.length_append,List.length_append,Nat.add_sub_add_right]

/-- A run that ends within the line is the same whatever follows. -/
theorem HeaderFunction_append {content : CurlContent} {size nmemb : UInt64} {mem : List UInt8} {answer : UInt64 × CurlContent}
    (ran : HeaderFunction content size nmemb mem = some answer) (more : List UInt8) :
    HeaderFunction content size nmemb (mem ++ more) = some answer := by
  rw [HeaderFunction] at ran ⊢
  cases skipped : scan isspace mem with
  | none =>
    rw [skipped] at ran
    cases ran
  | some found =>
    obtain ⟨blanks,c,p⟩ := found
    rw [scan_append skipped more]
    rw [skipped] at ran
    dsimp only at ran ⊢
    rw [← List.cons_append,offset_append]
    by_cases status : content.code_ = 0
    · rw [if_pos status] at ran ⊢
      obtain ⟨values,read,same⟩ := Option.map_eq_some_iff.mp ran
      rw [sscanf_append read more]
      exact congrArg some same
    · rw [if_neg status] at ran ⊢
      by_cases terminator : c = 0
      · rw [if_pos terminator] at ran ⊢
        exact ran
      · rw [if_neg terminator] at ran ⊢
        cases named : scan (fun d => d ≠ 58 ∧ d ≠ 0) (c::p) with
        | none =>
          rw [named] at ran
          cases ran
        | some found =>
          obtain ⟨start,stop,q⟩ := found
          rw [scan_append named more]
          rw [named] at ran
          dsimp only at ran ⊢
          rw [← List.cons_append,offset_append]
          by_cases terminator : stop = 0
          · rw [if_pos terminator] at ran ⊢
            exact ran
          · rw [if_neg terminator] at ran ⊢
            cases skipped : scan isspace q with
            | none =>
              rw [skipped] at ran
              cases ran
            | some found =>
              obtain ⟨blanks,c,p⟩ := found
              rw [scan_append skipped more]
              rw [skipped] at ran
              dsimp only at ran ⊢
              rw [← List.cons_append,offset_append]
              by_cases terminator : c = 0
              · rw [if_pos terminator] at ran ⊢
                exact ran
              · rw [if_neg terminator] at ran ⊢
                obtain ⟨text,read,same⟩ := Option.map_eq_some_iff.mp ran
                rw [ending_append read more]
                exact congrArg some same

/-! ### Status lines -/

theorem isdigit_cases {c : UInt8} (digit : isdigit c = true) : isspace c = false ∧ c ≠ 43 ∧ c ≠ 45 := by
  obtain ⟨low,high⟩ := of_decide_eq_true digit
  simp only [isspace,UInt8.le_iff_toNat_le,← UInt8.toNat_inj,decide_eq_false_iff_not] at *
  change 48 ≤ c.toNat at low
  change c.toNat ≤ 57 at high
  refine ⟨fun blank => ?_,fun same => ?_,fun same => ?_⟩
  · rcases blank with blank | ⟨_,blank⟩
    · change c.toNat = 32 at blank
      omega
    · change c.toNat ≤ 13 at blank
      omega
  · rw [same] at low
    exact absurd low (by decide)
  · rw [same] at low
    exact absurd low (by decide)

theorem literal_none {directive p : List UInt8} : literal directive p = none ↔ p <+: directive ∧ p ≠ directive := by
  induction directive generalizing p with
  | nil =>
    refine iff_of_false (Option.some_ne_none _) ?_
    intro ⟨start,other⟩
    exact other (List.prefix_nil.mp start)
  | cons d directive ih =>
    cases p with
    | nil => exact iff_of_true rfl ⟨List.nil_prefix,(List.cons_ne_nil d directive).symm⟩
    | cons c p =>
      rw [literal,List.cons_prefix_cons,ne_eq,List.cons.injEq]
      split
      · rename_i same
        rw [ih,and_iff_right same,not_and]
        exact and_congr_right fun _ => (imp_iff_right same).symm
      · rename_i other
        exact iff_of_false (Option.some_ne_none _) fun ⟨⟨same,_⟩,_⟩ => other same

theorem literal_some {directive p rest : List UInt8} : literal directive p = some (some rest) ↔ p = directive ++ rest := by
  induction directive generalizing p with
  | nil => exact ⟨fun same => Option.some.inj (Option.some.inj same),fun same => congrArg (some ∘ some) same⟩
  | cons d directive ih =>
    cases p with
    | nil => exact iff_of_false (Option.some_ne_none _).symm (List.cons_ne_nil _ _).symm
    | cons c p =>
      rw [literal,List.cons_append,List.cons.injEq]
      split
      · rename_i same
        rw [ih,and_iff_right same]
      · rename_i other
        refine iff_of_false (fun same => ?_) fun ⟨same,_⟩ => other same
        cases Option.some.inj same

/-- `%d` reads what starts like a number and then as many digits as there are. -/
theorem number_signed {blanks sign q : List UInt8} {c : UInt8} (blank : Blank blanks) (signed : sign = [] ∨ sign = [43] ∨ sign = [45])
    (first : sign = [] → isspace c = false ∧ c ≠ 43 ∧ c ≠ 45) :
    number (blanks ++ (sign ++ c::q)) = (scan isdigit (c::q)).map fun (digits,stop,rest) =>
      if digits = [] then none else some (if sign = [45] then -(denoted digits : Int) else denoted digits,stop::rest) := by
  have plus : isspace 43 = false := by decide
  have minus : isspace 45 = false := by decide
  have finish (value : List UInt8 → Int) (p : List UInt8) :
      (match scan isdigit p with
        | none => none
        | some (digits,stop,rest) => if digits = [] then some none else some (some (value digits,stop::rest))) =
      (scan isdigit p).map fun (digits,stop,rest) => if digits = [] then none else some (value digits,stop::rest) := by
    cases scan isdigit p with
    | none => rfl
    | some found =>
      dsimp only [Option.map_some]
      split
      · rfl
      · rfl
  rcases signed with rfl | rfl | rfl
  · obtain ⟨unblank,unsigned,positive⟩ := first rfl
    rw [number,List.nil_append,scan_at q blank unblank]
    dsimp only
    rw [if_neg (not_or_intro unsigned positive)]
    simp only [if_neg positive]
    rw [finish]
    rfl
  · rw [number,List.singleton_append,scan_at (c::q) blank plus]
    dsimp only
    rw [if_pos (Or.inl rfl),finish]
    rfl
  · rw [number,List.singleton_append,scan_at (c::q) blank minus]
    dsimp only
    rw [if_pos (Or.inr rfl),finish]
    rfl

theorem number_none {p : List UInt8} : number p = none ↔ Unfinished p := by
  constructor
  · intro outside
    rw [number] at outside
    cases skipped : scan isspace p with
    | none => exact ⟨p,[],[],by rw [List.append_nil,List.append_nil],scan_eq_none.mp skipped,Or.inl rfl,
        fun c member => absurd member List.not_mem_nil⟩
    | some found =>
      obtain ⟨blanks,c,q⟩ := found
      obtain ⟨rfl,blank,_⟩ := scan_eq_some.mp skipped
      rw [skipped] at outside
      dsimp only at outside
      have all (rest : List UInt8) (counted : scan isdigit rest = none) : Digits rest := scan_eq_none.mp counted
      have counted : scan isdigit (if c = 43 ∨ c = 45 then q else c::q) = none := by
        cases counted : scan isdigit (if c = 43 ∨ c = 45 then q else c::q) with
        | none => rfl
        | some found =>
          rw [counted] at outside
          dsimp only at outside
          split at outside
          · cases outside
          · cases outside
      by_cases signed : c = 43 ∨ c = 45
      · rw [if_pos signed] at counted
        refine ⟨blanks,[c],q,rfl,blank,?_,all q counted⟩
        rcases signed with rfl | rfl
        · exact Or.inr (Or.inl rfl)
        · exact Or.inr (Or.inr rfl)
      · rw [if_neg signed] at counted
        exact ⟨blanks,[],c::q,rfl,blank,Or.inl rfl,all _ counted⟩
  · rintro ⟨blanks,sign,digits,rfl,blank,signed,all⟩
    cases digits with
    | cons digit digits =>
      rw [number_signed blank signed fun _ => isdigit_cases (all digit List.mem_cons_self),scan_eq_none.mpr all]
      rfl
    | nil =>
      rw [number,List.append_nil]
      rcases signed with rfl | rfl | rfl
      · rw [List.append_nil,scan_eq_none.mpr blank]
      · rw [scan_at [] blank (by decide)]
        rfl
      · rw [scan_at [] blank (by decide)]
        rfl

theorem number_some {p rest : List UInt8} {value : Int} (read : number p = some (some (value,rest))) :
    ∃ text, p = text ++ rest ∧ Number text := by
  rw [number] at read
  cases skipped : scan isspace p with
  | none =>
    rw [skipped] at read
    cases read
  | some found =>
    obtain ⟨blanks,c,q⟩ := found
    obtain ⟨rfl,blank,_⟩ := scan_eq_some.mp skipped
    rw [skipped] at read
    dsimp only at read
    cases counted : scan isdigit (if c = 43 ∨ c = 45 then q else c::q) with
    | none =>
      rw [counted] at read
      cases read
    | some found =>
      obtain ⟨digits,stop,after⟩ := found
      obtain ⟨whole,all,_⟩ := scan_eq_some.mp counted
      rw [counted] at read
      dsimp only at read
      split at read
      · cases read
      · rename_i some_
        cases read
        by_cases signed : c = 43 ∨ c = 45
        · rw [if_pos signed] at whole
          refine ⟨blanks ++ ([c] ++ digits),?_,blanks,[c],digits,rfl,blank,?_,all,some_⟩
          · rw [whole,List.append_assoc,List.append_assoc]
            rfl
          · rcases signed with rfl | rfl
            · exact Or.inr (Or.inl rfl)
            · exact Or.inr (Or.inr rfl)
        · rw [if_neg signed] at whole
          refine ⟨blanks ++ ([] ++ digits),?_,blanks,[],digits,rfl,blank,Or.inl rfl,all,some_⟩
          rw [whole,List.nil_append,List.append_assoc]

/-- A number that something follows is read up to there, unless that goes on with it. -/
theorem number_followed {text code : List UInt8} (numeral : Number text) (unfinished : Unfinished code) :
    Unfinished (text ++ code) ∨ ∃ value, number (text ++ code) = some (some (value,code)) := by
  obtain ⟨blanks,sign,digits,rfl,blank,signed,all,some_⟩ := numeral
  cases digits with
  | nil => exact absurd rfl some_
  | cons digit digits =>
    cases code with
    | nil => exact Or.inl ⟨blanks,sign,digit::digits,List.append_nil _,blank,signed,all⟩
    | cons c code =>
      by_cases more : isdigit c = true
      · -- then it is all digits
        obtain ⟨others,marks,later,whole,spaces,marked,follow⟩ := unfinished
        have digits_ : Digits (c::code) := by
          obtain ⟨unblank,unsigned,positive⟩ := isdigit_cases more
          cases others with
          | cons first others =>
            cases whole
            rw [spaces c List.mem_cons_self] at unblank
            cases unblank
          | nil =>
            rcases marked with rfl | rfl | rfl
            · rw [whole]
              exact follow
            · cases whole
              exact absurd rfl unsigned
            · cases whole
              exact absurd rfl positive
        refine Or.inl ⟨blanks,sign,digit::digits ++ c::code,by simp only [List.append_assoc],blank,signed,?_⟩
        intro d member
        rcases List.mem_append.mp member with member | member
        · exact all d member
        · exact digits_ d member
      · refine Or.inr ⟨if sign = [45] then -(denoted (digit::digits) : Int) else denoted (digit::digits),?_⟩
        have joined : blanks ++ (sign ++ digit::digits) ++ c::code = blanks ++ (sign ++ digit::(digits ++ c::code)) := by
          simp only [List.append_assoc,List.cons_append]
        rw [joined,number_signed blank signed fun _ => isdigit_cases (all digit List.mem_cons_self),← List.cons_append,
          scan_at code all (Bool.eq_false_iff.mpr more)]
        dsimp only [Option.map_some]
        rw [if_neg some_]

theorem sscanf_none {rest : List UInt8} : sscanf rest = none ↔ Begun rest := by
  constructor
  · intro outside
    rw [sscanf] at outside
    cases matched : literal http rest with
    | none => exact Or.inl (literal_none.mp matched).1
    | some found =>
      rw [matched] at outside
      cases found with
      | none => cases outside
      | some version =>
        refine Or.inr ⟨version,literal_some.mp matched,?_⟩
        dsimp only at outside
        cases first : number version with
        | none => exact Or.inl (number_none.mp first)
        | some found =>
          rw [first] at outside
          cases found with
          | none => cases outside
          | some found =>
            obtain ⟨subversion,code⟩ := found
            dsimp only at outside
            obtain ⟨text,whole,numeral⟩ := number_some first
            refine Or.inr ⟨text,code,whole,numeral,number_none.mp ?_⟩
            cases second : number code with
            | none => rfl
            | some found =>
              rw [second] at outside
              cases found with
              | none => cases outside
              | some found => cases outside
  · intro begun
    rw [sscanf]
    have unfinished (version : List UInt8) (goes : Unfinished version) : sscanf (http ++ version) = none := by
      rw [sscanf,literal_some.mpr rfl]
      dsimp only
      rw [number_none.mpr goes]
    rw [← sscanf]
    rcases begun with start | ⟨version,rfl,goes | ⟨text,code,rfl,numeral,goes⟩⟩
    · by_cases whole : rest = http
      · rw [whole,← List.append_nil http]
        exact unfinished [] ⟨[],[],[],rfl,fun c member => absurd member List.not_mem_nil,Or.inl rfl,
          fun c member => absurd member List.not_mem_nil⟩
      · rw [sscanf,literal_none.mpr ⟨start,whole⟩]
    · exact unfinished version goes
    · rcases number_followed numeral goes with goes | ⟨value,read⟩
      · exact unfinished _ goes
      · rw [sscanf,literal_some.mpr rfl]
        dsimp only
        rw [read]
        dsimp only
        rw [number_none.mpr goes]

/-- A status line gives both numbers. -/
theorem sscanf_status {line : List UInt8} (status : StatusLine line) : ∀ values, sscanf line = some values → values.length = 2 := by
  obtain ⟨minor,blanks,code,reason,rfl,minor_digits,some_minor,blank,some_blank,code_digits,some_code⟩ := status
  intro values read
  obtain ⟨m,minor,rfl⟩ := List.exists_cons_of_ne_nil some_minor
  obtain ⟨b,blanks,rfl⟩ := List.exists_cons_of_ne_nil some_blank
  obtain ⟨c,code,rfl⟩ := List.exists_cons_of_ne_nil some_code
  have parts : http ++ m::minor ++ b::blanks ++ c::code ++ reason = http ++ ([] ++ ([] ++ m::(minor ++ b::(blanks ++ c::(code ++ reason))))) := by
    simp only [List.append_assoc,List.cons_append,List.nil_append]
  have space : isdigit b = false := by
    by_contra digit
    have unblank := (isdigit_cases (Bool.eq_true_of_not_eq_false digit)).1
    rw [blank b List.mem_cons_self] at unblank
    cases unblank
  rw [parts,sscanf,literal_some.mpr rfl] at read
  dsimp only at read
  rw [number_signed (fun c member => absurd member List.not_mem_nil) (Or.inl rfl) fun _ => isdigit_cases (minor_digits m List.mem_cons_self),
    ← List.cons_append,scan_at _ minor_digits space] at read
  dsimp only [Option.map_some] at read
  rw [if_neg some_minor] at read
  dsimp only at read
  have second : b::(blanks ++ c::(code ++ reason)) = b::blanks ++ ([] ++ c::(code ++ reason)) := rfl
  rw [second,number_signed blank (Or.inl rfl) fun _ => isdigit_cases (code_digits c List.mem_cons_self)] at read
  cases counted : scan isdigit (c::(code ++ reason)) with
  | none =>
    rw [counted] at read
    cases read
  | some found =>
    obtain ⟨digits,stop,rest⟩ := found
    obtain ⟨whole,-,stops⟩ := scan_eq_some.mp counted
    have some_digits : digits ≠ [] := by
      rintro rfl
      cases whole
      rw [code_digits c List.mem_cons_self] at stops
      cases stops
    rw [counted] at read
    dsimp only [Option.map_some] at read
    rw [if_neg some_digits] at read
    cases read
    rfl

/-! ### Values -/

theorem back_blank {blanks rest : List UInt8} {c : UInt8} (blank : Blank blanks) (stops : isspace c = false) :
    back (blanks ++ c::rest) = c::rest := by
  induction blanks with
  | nil =>
    cases rest with
    | nil => rfl
    | cons d rest =>
      rw [List.nil_append,back,stops]
      rfl
  | cons b blanks ih =>
    obtain ⟨space,blank⟩ := List.forall_mem_cons.mp blank
    obtain ⟨d,more,some_⟩ := List.exists_cons_of_ne_nil (List.append_ne_nil_of_right_ne_nil blanks (List.cons_ne_nil c rest))
    rw [List.cons_append,some_,back,if_pos space,← some_]
    exact ih blank

theorem back_suffix (text : List UInt8) : back text <:+ text := by
  induction text with
  | nil => exact List.suffix_rfl
  | cons c text ih =>
    cases text with
    | nil => exact List.suffix_rfl
    | cons d text =>
      rw [back]
      split
      · exact ih.trans (List.suffix_cons c _)
      · exact List.suffix_rfl

theorem trimmed_value {value blanks : List UInt8} (blank : Blank blanks) (some_ : value ≠ [])
    (last : ∀ c, value.getLast? = some c → isspace c = false) : trimmed (value ++ blanks) = value := by
  obtain ⟨init,c,rfl⟩ := List.eq_nil_or_concat' value |>.resolve_left some_
  have spaces : Blank blanks.reverse := fun d member => blank d (List.mem_reverse.mp member)
  rw [trimmed,List.reverse_append,List.reverse_append,List.reverse_singleton,List.singleton_append,
    back_blank spaces (last c (List.getLast?_concat ..)),List.reverse_cons,List.reverse_reverse]

/-- A blank at the end is left out, unless the text starts there. -/
theorem trimmed_end {before : List UInt8} {stop : UInt8} (blank : isspace stop = true) (some_ : before ≠ []) :
    trimmed (before ++ [stop]) <+: before := by
  have some_ : before.reverse ≠ [] := fun none_ => some_ (List.reverse_eq_nil_iff.mp none_)
  obtain ⟨d,more,first⟩ := List.exists_cons_of_ne_nil some_
  rw [trimmed,List.reverse_append,List.reverse_singleton,List.singleton_append,first,back,if_pos blank,← first,
    ← List.reverse_suffix,List.reverse_reverse]
  exact back_suffix _

theorem zero_passes {c : UInt8} (blank : isspace c = true) : c ≠ 0 := by
  rintro rfl
  exact absurd blank (by decide)

theorem strchr_at {before after : List UInt8} {c stop : UInt8} (all : ∀ d ∈ before, d ≠ c ∧ d ≠ 0) (stops : stop = c ∨ stop = 0) :
    strchr (before ++ stop::after) c = some (if stop = c then some (before ++ [stop]) else none) := by
  have passes (d : UInt8) (member : d ∈ before) : decide (d ≠ c ∧ d ≠ 0) = true := decide_eq_true (all d member)
  have stays : decide (stop ≠ c ∧ stop ≠ 0) = false := by
    rw [decide_eq_false_iff_not]
    rcases stops with rfl | rfl
    · exact fun apart => apart.1 rfl
    · exact fun apart => apart.2 rfl
  rw [strchr,scan_at after passes stays]
  rfl

/-- The text up to the character, or that the first NUL comes before. -/
theorem strchr_cases {p : List UInt8} {c : UInt8} {found : Option (List UInt8)} (read : strchr p c = some found) :
    ∃ before stop after, p = before ++ stop::after ∧ (∀ d ∈ before, d ≠ c ∧ d ≠ 0) ∧
      ((stop = c ∧ found = some (before ++ [c])) ∨ (stop = 0 ∧ found = none)) := by
  obtain ⟨⟨before,stop,after⟩,scanned,rfl⟩ := Option.map_eq_some_iff.mp read
  obtain ⟨rfl,all,stops⟩ := scan_eq_some.mp scanned
  refine ⟨before,stop,after,rfl,fun d member => of_decide_eq_true (all d member),?_⟩
  dsimp only
  by_cases same : stop = c
  · exact Or.inl ⟨same,by rw [if_pos same,same]⟩
  · have zero := of_decide_eq_false stops
    exact Or.inr ⟨by_contra fun other => zero ⟨same,other⟩,if_neg same⟩

theorem ending_iff {value behind : List UInt8} (blank : Blank behind) (some_ : value ≠ [])
    (first : ∀ c, value.head? = some c → isspace c = false ∧ c ≠ 0) (last : ∀ c, value.getLast? = some c → isspace c = false) :
    (∃ text, ending (value ++ behind) = some text ∧ trimmed text = value) ↔ Ended value behind := by
  -- a text before a blank is not empty: the value does not start with one
  have starts {before after : List UInt8} {stop : UInt8} (whole : value ++ behind = before ++ stop::after)
      (none_ : before = []) : isspace stop = false ∧ stop ≠ 0 := by
    obtain ⟨c,rest,rfl⟩ := List.exists_cons_of_ne_nil some_
    cases none_
    cases whole
    exact first _ rfl
  have cr_blank : isspace 13 = true := by decide
  have lf_blank : isspace 10 = true := by decide
  have nothing : Blank [] := fun c member => absurd member List.not_mem_nil
  constructor
  · rintro ⟨text,read,same⟩
    rw [ending] at read
    cases cr : strchr (value ++ behind) 13 with
    | none =>
      rw [cr] at read
      cases read
    | some found =>
      rw [cr] at read
      obtain ⟨before,stop,after,whole,all,⟨rfl,rfl⟩ | ⟨rfl,rfl⟩⟩ := strchr_cases cr
      · cases read
        have some_before : before ≠ [] := fun none_ => absurd (starts whole none_).1 (by decide)
        have start := trimmed_end cr_blank some_before
        rw [same] at start
        obtain ⟨more,rfl⟩ := start
        refine Or.inl ⟨fun member => (all 13 (List.mem_append_left _ member)).1 rfl,
          fun member => (all 0 (List.mem_append_left _ member)).2 rfl,?_⟩
        rw [List.append_assoc,List.append_cancel_left_eq] at whole
        rw [whole]
        exact List.mem_append_right _ List.mem_cons_self
      · dsimp only at read
        cases lf : strchr (value ++ behind) 10 with
        | none =>
          rw [lf] at read
          cases read
        | some found =>
          rw [lf] at read
          obtain ⟨line,stop,later,parts,clean,⟨rfl,rfl⟩ | ⟨rfl,rfl⟩⟩ := strchr_cases lf
          · -- the value would end before the NUL
            cases read
            have some_line : line ≠ [] := fun none_ => absurd (starts parts none_).1 (by decide)
            have start := (trimmed_end lf_blank some_line).subset
            rw [same] at start
            have zero : (0 : UInt8) ∈ value ++ behind := by
              rw [whole]
              exact List.mem_append_right _ List.mem_cons_self
            rcases List.mem_append.mp zero with zero | zero
            · exact absurd rfl (clean 0 (start zero)).2
            · exact absurd rfl (zero_passes (blank 0 zero))
          · have nul : strchr (before ++ 0::after) 0 = some (some (before ++ [0])) := by
              rw [strchr_at (fun d member => ⟨(all d member).2,(all d member).2⟩) (Or.inl rfl),if_pos rfl]
            rw [← whole] at nul
            dsimp only at read
            rw [nul] at read
            cases read
            have twice : before = line := by
              have one : scan (fun d => decide (d ≠ 0)) (before ++ 0::after) = some (before,0,after) :=
                scan_at after (fun d member => decide_eq_true (all d member).2) rfl
              have two : scan (fun d => decide (d ≠ 0)) (line ++ 0::later) = some (line,0,later) :=
                scan_at later (fun d member => decide_eq_true (clean d member).2) rfl
              rw [← whole,parts,two] at one
              cases one
              rfl
            have some_before : before ≠ [] := fun none_ => absurd rfl (starts whole none_).2
            have kept : trimmed (before ++ [0] ++ []) = before ++ [0] := by
              refine trimmed_value nothing (List.append_ne_nil_of_right_ne_nil _ (List.cons_ne_nil _ _)) fun c ends => ?_
              rw [List.getLast?_concat] at ends
              cases ends
              decide
            rw [List.append_nil,same] at kept
            refine Or.inr ⟨before,kept,some_before,fun member => (all 13 member).1 rfl,?_,fun member => (all 0 member).2 rfl⟩
            rw [twice]
            exact fun member => (clean 10 member).1 rfl
  · rintro (⟨cr,nul,behind_cr⟩ | ⟨text,rfl,-,cr,lf,nul⟩)
    · obtain ⟨early,late,rfl,new⟩ := List.eq_append_cons_of_mem behind_cr
      have all (d : UInt8) (member : d ∈ value ++ early) : d ≠ 13 ∧ d ≠ 0 := by
        rcases List.mem_append.mp member with member | member
        · exact ⟨fun same => cr (same ▸ member),fun same => nul (same ▸ member)⟩
        · exact ⟨fun same => new (same ▸ member),zero_passes (blank d (List.mem_append_left _ member))⟩
      refine ⟨value ++ early ++ [13],?_,?_⟩
      · rw [ending,← List.append_assoc,strchr_at all (Or.inl rfl),if_pos rfl]
      · rw [List.append_assoc]
        refine trimmed_value (fun d member => blank d ?_) some_ last
        rcases List.mem_append.mp member with member | member
        · exact List.mem_append_left _ member
        · rw [List.mem_singleton.mp member]
          exact List.mem_append_right _ List.mem_cons_self
    · have apart {c : UInt8} (other : c ∉ text) : ∀ d ∈ text, d ≠ c ∧ d ≠ 0 :=
        fun d member => ⟨fun same => other (same ▸ member),fun same => nul (same ▸ member)⟩
      refine ⟨text ++ [0],?_,?_⟩
      · rw [ending,List.append_assoc,List.singleton_append,strchr_at (apart cr) (Or.inr rfl),strchr_at (apart lf) (Or.inr rfl),
          strchr_at (apart nul) (Or.inr rfl)]
        rfl
      · rw [← List.append_nil (text ++ [0]),trimmed_value nothing some_ last,List.append_nil]

/-! ### Fields -/

theorem trimmed_colon (start : List UInt8) : (trimmed (start ++ [58])).dropLast = start := by
  have stays (text : List UInt8) : back (58::text) = 58::text := by
    cases text with
    | nil => rfl
    | cons c text =>
      rw [back,if_neg (by decide)]
  rw [trimmed,List.reverse_append,List.reverse_singleton,List.singleton_append,stays,List.reverse_cons,List.reverse_reverse,
    List.dropLast_concat]

theorem value_last {value behind other : List UInt8} (blank : Blank behind) (blank_other : Blank other) {others : List UInt8}
    (some_ : value ≠ []) (last : ∀ c, value.getLast? = some c → isspace c = false)
    (some_others : others ≠ []) (last_others : ∀ c, others.getLast? = some c → isspace c = false)
    (same : value ++ behind = others ++ other) : value = others := by
  rw [← trimmed_value blank some_ last,same,trimmed_value blank_other some_others last_others]

namespace Field
variable {line name before value behind : List UInt8} (field : Field line name before value behind)
include field

theorem scan_name (clean : 0 ∉ name) :
    scan (fun d => decide (d ≠ 58 ∧ d ≠ 0)) line = some (name,58,before ++ value ++ behind) := by
  rw [field.whole]
  exact scan_at _ (fun d member => decide_eq_true ⟨(field.named d member).1,fun same => clean (same ▸ member)⟩) rfl

theorem scan_value : ∃ c rest, value = c::rest ∧ scan isspace (before ++ value ++ behind) = some (before,c,rest ++ behind) := by
  obtain ⟨c,rest,some_⟩ := List.exists_cons_of_ne_nil field.some_value
  refine ⟨c,rest,some_,?_⟩
  have first := field.first c (by rw [some_]; rfl)
  rw [some_,List.append_assoc,List.cons_append]
  exact scan_at _ field.blank_before first

/-- A line starts with its name. -/
theorem starts : ∃ c rest, line = c::rest ∧ scan isspace line = some ([],c,rest) := by
  obtain ⟨c,rest,some_⟩ := List.exists_cons_of_ne_nil field.some_name
  have first := (field.named c (some_ ▸ List.mem_cons_self)).2
  refine ⟨c,rest ++ 58::(before ++ value ++ behind),by rw [field.whole,some_,List.cons_append],?_⟩
  rw [field.whole,some_]
  exact scan_at _ (fun d (member : d ∈ []) => absurd member List.not_mem_nil) first

theorem unique {others spaces text tail : List UInt8} (twice : Field line others spaces text tail) : name = others ∧ value = text := by
  have first {name before value behind : List UInt8} (field : Field line name before value behind) :
      scan (fun d => decide (d ≠ 58)) line = some (name,58,before ++ value ++ behind) := by
    rw [field.whole]
    exact scan_at _ (fun d member => decide_eq_true (field.named d member).1) rfl
  have one := first field
  rw [first twice] at one
  simp only [Option.some.injEq,Prod.mk.injEq,true_and] at one
  obtain ⟨rfl,rest⟩ := one
  obtain ⟨c,more,some_,found⟩ := field.scan_value
  obtain ⟨d,others,some_other,found_other⟩ := twice.scan_value
  rw [← rest,found_other] at found
  simp only [Option.some.injEq,Prod.mk.injEq] at found
  obtain ⟨rfl,rfl,same⟩ := found
  refine ⟨rfl,value_last field.blank_behind twice.blank_behind field.some_value field.last twice.some_value twice.last ?_⟩
  rw [some_,some_other,List.cons_append,List.cons_append,same]

end Field

/-! ### The callback -/

theorem offset_ne {line : Line} {p : List UInt8} (some_ : p ≠ []) (inside : p.length ≤ line.bytes.length) :
    offset line.bytes p ≠ line.n := by
  have length := List.length_pos_iff.mpr some_
  have high := (line.size * line.nmemb).toNat_lt
  intro same
  have numbers := congrArg UInt64.toNat same
  rw [offset,Line.n,UInt64.toNat_ofNat',← line.length_eq,Nat.mod_eq_of_lt] at numbers
  · omega
  · rw [← line.length_eq] at high
    omega

/-- A run that ends within the line and returns its length is one that stores. -/
theorem HeaderFunction_stores {content next : CurlContent} {line : Line} (code : content.code_ ≠ 0)
    (ran : HeaderFunction content line.size line.nmemb line.bytes = some (line.n,next)) :
    ∃ blanks c p start q before d rest text, scan isspace line.bytes = some (blanks,c,p) ∧
      scan (fun d => decide (d ≠ 58 ∧ d ≠ 0)) (c::p) = some (start,58,q) ∧ scan isspace q = some (before,d,rest) ∧ d ≠ 0 ∧
      ending (d::rest) = some text ∧ next.headers_ = Function.update content.headers_ start (some (trimmed text)) := by
  rw [HeaderFunction] at ran
  cases skipped : scan isspace line.bytes with
  | none =>
    rw [skipped] at ran
    cases ran
  | some found =>
    obtain ⟨blanks,c,p⟩ := found
    obtain ⟨whole,-,-⟩ := scan_eq_some.mp skipped
    have first : (c::p).length ≤ line.bytes.length := by
      rw [whole,List.length_append]
      exact Nat.le_add_left ..
    rw [skipped] at ran
    dsimp only at ran
    rw [if_neg code] at ran
    split at ran
    · exact absurd (congrArg Prod.fst (Option.some.inj ran)) (offset_ne (List.cons_ne_nil _ _) first)
    · cases named : scan (fun d => decide (d ≠ 58 ∧ d ≠ 0)) (c::p) with
      | none =>
        rw [named] at ran
        cases ran
      | some found =>
        obtain ⟨start,stop,q⟩ := found
        obtain ⟨parts,-,stops⟩ := scan_eq_some.mp named
        have second : (stop::q).length ≤ line.bytes.length := by
          rw [parts,List.length_append] at first
          omega
        rw [named] at ran
        dsimp only at ran
        split at ran
        · exact absurd (congrArg Prod.fst (Option.some.inj ran)) (offset_ne (List.cons_ne_nil _ _) second)
        · rename_i other
          have colon : stop = 58 := by_contra fun apart => of_decide_eq_false stops ⟨apart,other⟩
          subst colon
          cases spaced : scan isspace q with
          | none =>
            rw [spaced] at ran
            cases ran
          | some found =>
            obtain ⟨before,d,rest⟩ := found
            obtain ⟨pieces,-,-⟩ := scan_eq_some.mp spaced
            have third : (d::rest).length ≤ line.bytes.length := by
              rw [List.length_cons,pieces,List.length_append] at second
              omega
            rw [spaced] at ran
            dsimp only at ran
            split at ran
            · exact absurd (congrArg Prod.fst (Option.some.inj ran)) (offset_ne (List.cons_ne_nil _ _) third)
            · rename_i value
              obtain ⟨text,read,same⟩ := Option.map_eq_some_iff.mp ran
              refine ⟨blanks,c,p,start,q,before,d,rest,text,rfl,named,spaced,value,read,?_⟩
              cases same
              rw [trimmed_colon]

theorem HeaderFunction_field {content : CurlContent} {line : Line} {name before value behind : List UInt8} (code : content.code_ ≠ 0)
    (field : Field line.bytes name before value behind) (clean : 0 ∉ name) (ended : Ended value behind) :
    HeaderFunction content line.size line.nmemb line.bytes =
      some (line.n,{ content with headers_ := Function.update content.headers_ name (some value) }) := by
  obtain ⟨c,p,whole,skipped⟩ := field.starts
  obtain ⟨d,rest,some_,spaced⟩ := field.scan_value
  have named := field.scan_name clean
  have initial : c ≠ 0 := by
    rintro rfl
    obtain ⟨c,name,rfl⟩ := List.exists_cons_of_ne_nil field.some_name
    have same := field.whole
    rw [whole] at same
    cases same
    exact clean List.mem_cons_self
  have present : d ≠ 0 := by
    rintro rfl
    rcases ended with ⟨-,nul,-⟩ | ⟨text,same,some_text,-,-,nul⟩
    · exact nul (some_ ▸ List.mem_cons_self)
    · obtain ⟨c,text,rfl⟩ := List.exists_cons_of_ne_nil some_text
      rw [some_] at same
      cases same
      exact nul List.mem_cons_self
  have first (c : UInt8) (head : value.head? = some c) : isspace c = false ∧ c ≠ 0 := by
    refine ⟨field.first c head,?_⟩
    rw [some_] at head
    cases head
    exact present
  obtain ⟨text,read,same⟩ := (ending_iff field.blank_behind field.some_value first field.last).mpr ended
  rw [some_,List.cons_append] at read
  rw [HeaderFunction,skipped]
  dsimp only
  rw [if_neg code,if_neg initial,← whole,named]
  dsimp only
  rw [if_neg (by decide),spaced]
  dsimp only
  rw [if_neg present,read,Option.map_some,trimmed_colon,same]
  rfl

theorem header_right {code_ : Int32} (code : code_ ≠ 0) (line : Line) : Right code_ line ↔ Inside code_ line.bytes := by
  rw [Inside,if_neg code]
  constructor
  · intro right
    obtain ⟨returned,next,ran,length,fields,others⟩ := right ⟨fun _ => none,code_,0⟩ rfl
    have alone := ran []
    rw [List.append_nil,length fun zero => absurd zero code] at alone
    obtain ⟨blanks,c,p,start,q,before,d,rest,text,skipped,named,spaced,present,read,stored⟩ := HeaderFunction_stores code alone
    by_cases isfield : ∃ name before value behind, Field line.bytes name before value behind
    · obtain ⟨name,spaces,value,behind,field⟩ := isfield
      have promised := fields name spaces value behind code field
      rw [stored] at promised
      have here := congrFun promised start
      rw [Function.update_self] at here
      have name_ : start = name := by
        by_contra apart
        rw [Function.update_of_ne apart] at here
        cases here
      rw [name_,Function.update_self] at here
      obtain ⟨first,more,whole,starts⟩ := field.starts
      rw [starts] at skipped
      cases skipped
      rw [← whole] at named
      obtain ⟨parts,clean,-⟩ := scan_eq_some.mp named
      have noNul : 0 ∉ name := fun member => (of_decide_eq_true (clean 0 (name_ ▸ member))).2 rfl
      rw [field.scan_name noNul] at named
      cases named
      obtain ⟨e,later,some_,found⟩ := field.scan_value
      rw [found] at spaced
      cases spaced
      refine ⟨_,_,value,behind,field,noNul,(ending_iff field.blank_behind field.some_value ?_ field.last).mp ⟨text,?_,?_⟩⟩
      · intro c head
        refine ⟨field.first c head,?_⟩
        rw [some_] at head
        cases head
        exact present
      · rw [some_]
        exact read
      · exact Option.some.inj here
    · have kept := others (Or.inr isfield)
      rw [stored] at kept
      have here := congrFun kept start
      rw [Function.update_self] at here
      cases here
  · rintro ⟨name,before,value,behind,field,clean,ended⟩ content rfl
    refine ⟨line.n,_,HeaderFunction_append (HeaderFunction_field code field clean ended),fun _ => rfl,?_,?_⟩
    · intro others spaces text tail _ twice
      obtain ⟨rfl,rfl⟩ := field.unique twice
      rfl
    · rintro (zero | none_)
      · exact absurd zero code
      · exact absurd ⟨name,before,value,behind,field⟩ none_

/-- A status line may begin with blanks, and then with its version. -/
theorem scan_begun {blanks rest : List UInt8} (blank : Blank blanks) (begun : Begun rest) :
    rest = [] ∨ ∃ more, rest = 72::more ∧ scan isspace (blanks ++ rest) = some (blanks,72,more) := by
  have starts (more : List UInt8) : scan isspace (blanks ++ 72::more) = some (blanks,72,more) := scan_at more blank (by decide)
  rcases begun with start | ⟨version,rfl,-⟩
  · cases rest with
    | nil => exact Or.inl rfl
    | cons c rest =>
      obtain ⟨rfl,-⟩ := List.cons_prefix_cons.mp start
      exact Or.inr ⟨rest,rfl,starts rest⟩
  · exact Or.inr ⟨_,rfl,starts _⟩

theorem Open_iff (line : List UInt8) : Open line ↔ ((scan isspace line).bind fun (_,c,p) => sscanf (c::p)) = none := by
  constructor
  · rintro ⟨blanks,rest,rfl,blank,begun⟩
    rcases scan_begun blank begun with rfl | ⟨more,rfl,found⟩
    · rw [List.append_nil,scan_eq_none.mpr blank]
      rfl
    · rw [found,Option.bind_some]
      exact sscanf_none.mpr begun
  · intro outside
    cases skipped : scan isspace line with
    | none => exact ⟨line,[],(List.append_nil _).symm,scan_eq_none.mp skipped,Or.inl List.nil_prefix⟩
    | some found =>
      obtain ⟨spaces,c,p⟩ := found
      obtain ⟨whole,blank,-⟩ := scan_eq_some.mp skipped
      rw [skipped] at outside
      exact ⟨spaces,c::p,whole,blank,sscanf_none.mp outside⟩

theorem status_run {content : CurlContent} (code : content.code_ = 0) (line : Line) (mem : List UInt8) :
    HeaderFunction content line.size line.nmemb mem = ((scan isspace mem).bind fun (_,c,p) => sscanf (c::p)).map
      fun values => (if values.length ≠ 2 then -1 else line.n,assigned content values) := by
  rw [HeaderFunction]
  cases scan isspace mem with
  | none => rfl
  | some found =>
    dsimp only [Option.bind_some]
    rw [if_pos code]
    rfl

theorem assigned_headers (content : CurlContent) (values : List Int) : (assigned content values).headers_ = content.headers_ := by
  rcases values with _ | ⟨subversion,_ | ⟨code,_⟩⟩
  · rfl
  · rfl
  · rfl

theorem status_right (line : Line) : Right 0 line ↔ Inside 0 line.bytes := by
  rw [Inside,if_pos rfl,Open_iff]
  constructor
  · intro right outside
    obtain ⟨returned,next,ran,-⟩ := right ⟨fun _ => none,0,0⟩ rfl
    have alone := ran []
    rw [List.append_nil,status_run rfl,outside] at alone
    cases alone
  · intro inside content code
    obtain ⟨values,read⟩ := Option.ne_none_iff_exists'.mp inside
    have ran := status_run code line line.bytes
    rw [read,Option.map_some] at ran
    refine ⟨_,_,HeaderFunction_append ran,?_,?_,?_⟩
    · intro status
      obtain ⟨minor,blanks,reason,later,parts,_⟩ := status rfl
      obtain ⟨more,whole⟩ : ∃ more, line.bytes = 72::more := ⟨_,parts⟩
      have first : scan isspace line.bytes = some ([],72,more) := by
        rw [whole]
        rfl
      rw [first,Option.bind_some] at read
      dsimp only at read
      rw [← whole] at read
      rw [sscanf_status (status rfl) values read]
      rfl
    · intro name before value behind other
      exact absurd rfl other
    · intro _
      exact assigned_headers content values

/-- The line that ends the headers. -/
def last_line : Line := ⟨[13,10],1,2,rfl⟩

end Migfm.Public.HttpMethod
