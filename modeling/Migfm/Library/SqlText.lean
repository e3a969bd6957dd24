import Mathlib.Data.List.TakeWhile
import Mathlib.Tactic

/-! SQL text by the lexical rules of MySQL, as far as strings, integers and the
comments between them go: a backslash escapes in a string, a doubled quote stands
for itself, and strings next to each other are one. -/
namespace Migfm.Library.SqlText

inductive Token
  | word (run : List UInt8)
  | number (value : Nat)
  | string (value : List UInt8)
  | symbol (c : UInt8)
deriving DecidableEq

/-- Where in the text the lexer is. -/
inductive Mode
  | between
  | word (run : List UInt8)
  | quoted (quote : UInt8) (value : List UInt8)
  | escaped (quote : UInt8) (value : List UInt8)
  | closed (quote : UInt8) (value : List UInt8)
  | dash
  | dashes
  | slash
  | line
  | block
  | star
deriving DecidableEq

def space (c : UInt8) : Bool := c = 32 || (9 ≤ c && c ≤ 13)

def digit (c : UInt8) : Bool := 48 ≤ c && c ≤ 57

/-- Letters, digits, `_`, `$` and all bytes of characters that are not ASCII. -/
def wordChar (c : UInt8) : Bool := digit c || (65 ≤ c && c ≤ 90) || (97 ≤ c && c ≤ 122) || c = 95 || c = 36 || 128 ≤ c

def numeral (run : List UInt8) : Nat := run.foldl (fun n c => 10 * n + (c.toNat - 48)) 0

/-- A run of digits is a number. -/
def wordToken (run : List UInt8) : Token := if run.all digit then .number (numeral run) else .word run

/-- What a backslash and this character stand for; before the wildcards it stays. -/
def unescape (c : UInt8) : List UInt8 :=
  if c = 48 then [0] else if c = 98 then [8] else if c = 110 then [10] else if c = 114 then [13]
  else if c = 116 then [9] else if c = 90 then [26] else if c = 37 ∨ c = 95 then [92,c] else [c]

/-- A character where no token is open. -/
def enter (c : UInt8) : List Token × Mode :=
  if space c then ([],.between)
  else if wordChar c then ([],.word [c])
  else if c = 39 ∨ c = 34 then ([],.quoted c [])
  else if c = 35 then ([],.line)
  else if c = 45 then ([],.dash)
  else if c = 47 then ([],.slash)
  else ([.symbol c],.between)

/-- The tokens come before those of the character. -/
def ahead (tokens : List Token) (c : UInt8) : List Token × Mode := (tokens ++ (enter c).1,(enter c).2)

def step : Mode → UInt8 → List Token × Mode
  | .between,c => enter c
  | .word run,c => if wordChar c then ([],.word (run ++ [c])) else ahead [wordToken run] c
  | .quoted quote value,c =>
    if c = quote then ([],.closed quote value)
    else if c = 92 then ([],.escaped quote value)
    else ([],.quoted quote (value ++ [c]))
  | .escaped quote value,c => ([],.quoted quote (value ++ unescape c))
  | .closed quote value,c => if c = quote then ([],.quoted quote (value ++ [c])) else ahead [.string value] c
  | .dash,c => if c = 45 then ([],.dashes) else ahead [.symbol 45] c
  -- two dashes are a comment before a blank
  | .dashes,c => if c = 10 then ([],.between) else if c ≤ 32 then ([],.line) else ahead [.symbol 45,.symbol 45] c
  | .slash,c => if c = 42 then ([],.block) else ahead [.symbol 47] c
  | .line,c => if c = 10 then ([],.between) else ([],.line)
  | .block,c => if c = 42 then ([],.star) else ([],.block)
  | .star,c => if c = 47 then ([],.between) else if c = 42 then ([],.star) else ([],.block)

/-- The text must not end within a string or a block comment. -/
def finish : Mode → Option (List Token)
  | .between | .line => some []
  | .word run => some [wordToken run]
  | .closed _ value => some [.string value]
  | .dash => some [.symbol 45]
  | .dashes => some [.symbol 45,.symbol 45]
  | .slash => some [.symbol 47]
  | .quoted _ _ | .escaped _ _ | .block | .star => none

def lexFrom : Mode → List UInt8 → Option (List Token)
  | mode,[] => finish mode
  | mode,c::text => (lexFrom (step mode c).2 text).map ((step mode c).1 ++ ·)

/-- What comes of a piece of text, and where the lexer is after it. -/
def scan : Mode → List UInt8 → List Token × Mode
  | mode,[] => ([],mode)
  | mode,c::text => ((step mode c).1 ++ (scan (step mode c).2 text).1,(scan (step mode c).2 text).2)

theorem lexFrom_append (mode : Mode) (front text : List UInt8) :
    lexFrom mode (front ++ text) = (lexFrom (scan mode front).2 text).map ((scan mode front).1 ++ ·) := by
  induction front generalizing mode with
  | nil => simp [scan]
  | cons c front ih => simp [lexFrom,scan,ih,Function.comp_def]

/-- Strings next to each other are one. -/
def join : List Token → List Token
  | [] => []
  | .string value::tokens =>
    match join tokens with
    | .string other::tokens => .string (value ++ other)::tokens
    | tokens => .string value::tokens
  | token::tokens => token::join tokens

def lex (text : List UInt8) : Option (List Token) := (lexFrom .between text).map join

/-! ### No token is shorter than its text -/

/-- The shortest text of a token. -/
def Token.length : Token → Nat
  | .word run => run.length
  | .number value => (Nat.toDigits 10 value).length
  | .string value => value.length + 2
  | .symbol _ => 1

def total (tokens : List Token) : Nat := (tokens.map Token.length).sum

@[simp] theorem total_nil : total [] = 0 := rfl

@[simp] theorem total_cons (token : Token) (tokens : List Token) : total (token::tokens) = token.length + total tokens := by
  simp [total]

@[simp] theorem total_append (first second : List Token) : total (first ++ second) = total first + total second := by
  simp [total]

/-- What is still to come of a token counts too. -/
def Mode.length : Mode → Nat
  | .between | .line | .block | .star => 0
  | .word run => run.length
  | .quoted _ value => value.length + 1
  | .escaped _ value => value.length + 2
  | .closed _ value => value.length + 2
  | .dash | .slash => 1
  | .dashes => 2

theorem numeral_lt {run : List UInt8} (digits : run.all digit) : numeral run < 10 ^ run.length := by
  induction run using List.reverseRecOn with
  | nil => decide
  | append_singleton run c ih =>
    rw [List.all_append,Bool.and_eq_true] at digits
    have small := ih digits.1
    have high : c.toNat - 48 ≤ 9 := by
      have bounds := digits.2
      simp only [List.all_cons,List.all_nil,digit,Bool.and_true,Bool.and_eq_true,decide_eq_true_eq,UInt8.le_iff_toNat_le] at bounds
      have top : (57 : UInt8).toNat = 57 := rfl
      omega
    rw [numeral,List.foldl_append,List.length_append,List.length_singleton,pow_succ]
    rw [numeral] at small
    simp only [List.foldl_cons,List.foldl_nil]
    omega

theorem wordToken_length {run : List UInt8} (some_ : 0 < run.length) : (wordToken run).length ≤ run.length := by
  unfold wordToken
  split
  · rename_i digits
    exact (Nat.length_toDigits_le_iff (by decide) some_).mpr (numeral_lt digits)
  · exact Nat.le_refl _

theorem unescape_length (c : UInt8) : (unescape c).length ≤ 2 := by
  unfold unescape
  repeat (split; · simp)
  simp

/-- A run has a character. -/
def Mode.Sound : Mode → Prop
  | .word run => 0 < run.length
  | _ => True

theorem enter_length (c : UInt8) : total (enter c).1 + (enter c).2.length ≤ 1 ∧ (enter c).2.Sound := by
  unfold enter
  split
  · exact ⟨Nat.zero_le 1,trivial⟩
  · split
    · exact ⟨Nat.le_refl 1,Nat.one_pos⟩
    · split
      · exact ⟨Nat.le_refl 1,trivial⟩
      · split
        · exact ⟨Nat.zero_le 1,trivial⟩
        · split
          · exact ⟨Nat.le_refl 1,trivial⟩
          · split
            · exact ⟨Nat.le_refl 1,trivial⟩
            · exact ⟨Nat.le_refl 1,trivial⟩

theorem ahead_length {tokens : List Token} {n : Nat} (short : total tokens ≤ n) (c : UInt8) :
    total (ahead tokens c).1 + (ahead tokens c).2.length ≤ n + 1 ∧ (ahead tokens c).2.Sound := by
  obtain ⟨length,sound⟩ := enter_length c
  refine ⟨?_,sound⟩
  simp only [ahead,total_append]
  omega

theorem step_length {mode : Mode} (sound : mode.Sound) (c : UInt8) :
    total (step mode c).1 + (step mode c).2.length ≤ mode.length + 1 ∧ (step mode c).2.Sound := by
  cases mode with
  | between => simpa [step,Mode.length] using enter_length c
  | word run =>
    simp only [step]
    split
    · exact ⟨by simp [Mode.length],by simp [Mode.Sound]⟩
    · exact ahead_length (by simpa [Mode.length] using wordToken_length sound) c
  | quoted quote value =>
    simp only [step]
    split
    · exact ⟨by simp [Mode.length],trivial⟩
    · split
      · exact ⟨by simp [Mode.length],trivial⟩
      · exact ⟨by simp [Mode.length],trivial⟩
  | escaped quote value =>
    have short := unescape_length c
    simp only [step]
    refine ⟨?_,trivial⟩
    simp only [Mode.length,total_nil,List.length_append]
    omega
  | closed quote value =>
    simp only [step]
    split
    · exact ⟨by simp [Mode.length],trivial⟩
    · exact ahead_length (by simp [Token.length,Mode.length]) c
  | dash | dashes | slash =>
    simp only [step]
    repeat (first | exact ahead_length (by simp [Token.length,Mode.length]) c | split | exact ⟨by simp [Mode.length],trivial⟩)
  | line | block | star =>
    simp only [step]
    repeat (first | split | exact ⟨by simp [Mode.length],trivial⟩)

theorem finish_length {mode : Mode} (sound : mode.Sound) {tokens : List Token} (ends : finish mode = some tokens) :
    total tokens ≤ mode.length := by
  cases mode with
  | quoted | escaped | block | star => cases ends
  | word run =>
    cases ends
    simpa [Mode.length] using wordToken_length sound
  | _ =>
    cases ends
    simp [Mode.length,Token.length]

theorem lexFrom_length {text : List UInt8} {mode : Mode} (sound : mode.Sound) {tokens : List Token}
    (lexed : lexFrom mode text = some tokens) : total tokens ≤ mode.length + text.length := by
  induction text generalizing mode tokens with
  | nil =>
    have short := finish_length sound lexed
    rw [List.length_nil]
    exact short
  | cons c text ih =>
    obtain ⟨rest,later,rfl⟩ := Option.map_eq_some_iff.mp lexed
    obtain ⟨length,sound'⟩ := step_length sound c
    have short := ih sound' later
    rw [total_append,List.length_cons]
    omega

theorem join_total (tokens : List Token) : total (join tokens) ≤ total tokens ∧ (total (join tokens) = total tokens → join tokens = tokens) := by
  induction tokens with
  | nil => exact ⟨Nat.le_refl _,fun _ => rfl⟩
  | cons token tokens ih =>
    obtain ⟨short,same⟩ := ih
    cases token with
    | string value =>
      rw [join]
      split
      · rename_i other rest joined
        rw [joined] at short
        simp only [total_cons,Token.length,List.length_append] at short ⊢
        exact ⟨by omega,by omega⟩
      · refine ⟨?_,?_⟩
        · simp only [total_cons]
          omega
        · intro equal
          simp only [total_cons,Nat.add_left_cancel_iff] at equal
          rw [same equal]
    | word | number | symbol =>
      simp only [join,total_cons,Nat.add_left_cancel_iff,Nat.add_le_add_iff_left]
      exact ⟨short,fun equal => by rw [same equal]⟩

theorem lex_length {text : List UInt8} {tokens : List Token} (lexed : lex text = some tokens) : total tokens ≤ text.length := by
  obtain ⟨raw,read,rfl⟩ := Option.map_eq_some_iff.mp lexed
  have short := @lexFrom_length text .between trivial raw read
  rw [Mode.length] at short
  have joined := (join_total raw).1
  omega

/-! ### Strings that stand for themselves -/

/-- The body of a string is its value: no quote in it, and no backslash but before a wildcard. -/
inductive Literal (quote : UInt8) : List UInt8 → Prop
  | nil : Literal quote []
  | byte {c : UInt8} {body : List UInt8} (other : c ≠ quote) (plain : c ≠ 92) (rest : Literal quote body) : Literal quote (c::body)
  | wildcard {c : UInt8} {body : List UInt8} (wild : c = 37 ∨ c = 95) (rest : Literal quote body) : Literal quote (92::c::body)

theorem unescape_two {c : UInt8} (two : (unescape c).length = 2) : (c = 37 ∨ c = 95) ∧ unescape c = [92,c] := by
  unfold unescape at two ⊢
  repeat (split at two; · cases two)
  split at two
  · rename_i wild
    rw [if_pos wild]
    exact ⟨wild,by simp [*]⟩
  · cases two

section Quoted
variable {quote : UInt8}

/-- A string ends at a quote, and its value is not longer than its body. -/
theorem lexFrom_quoted {text value : List UInt8} {tokens : List Token} (lexed : lexFrom (.quoted quote value) text = some tokens) :
    ∃ body rest more later, text = body ++ quote::rest ∧ tokens = .string (value ++ more)::later ∧ lexFrom .between rest = some later ∧
      more.length ≤ body.length ∧ (more.length = body.length → more = body ∧ Literal quote body) := by
  induction length : text.length using Nat.strong_induction_on generalizing text value tokens with
  | _ n ih =>
  cases text with
  | nil => cases lexed
  | cons c text =>
    obtain ⟨tokens,later,rfl⟩ := Option.map_eq_some_iff.mp lexed
    by_cases ends : c = quote
    · simp only [step,if_pos ends] at later ⊢
      cases text with
      | nil =>
        cases later
        exact ⟨[],[],[],[],by rw [ends]; rfl,by simp,rfl,Nat.le_refl 0,fun _ => ⟨rfl,.nil⟩⟩
      | cons d text =>
        obtain ⟨tokens,after,rfl⟩ := Option.map_eq_some_iff.mp later
        by_cases doubled : d = quote
        · simp only [step,if_pos doubled] at after ⊢
          obtain ⟨body,rest,more,last,rfl,rfl,read,short,_⟩ := ih text.length (by simp [← length]) after rfl
          refine ⟨c::d::body,rest,d::more,last,rfl,by simp,read,by simp; omega,?_⟩
          intro equal
          simp at equal
          omega
        · simp only [step,if_neg doubled,ahead] at after ⊢
          refine ⟨[],d::text,[],(enter d).1 ++ tokens,by rw [ends]; rfl,by simp,?_,Nat.le_refl 0,fun _ => ⟨rfl,.nil⟩⟩
          rw [lexFrom,step,after,Option.map_some]
    · by_cases escape : c = 92
      · simp only [step,if_neg ends,if_pos escape] at later ⊢
        cases text with
        | nil => cases later
        | cons d text =>
          obtain ⟨tokens,after,rfl⟩ := Option.map_eq_some_iff.mp later
          simp only [step] at after ⊢
          obtain ⟨body,rest,more,last,rfl,rfl,read,short,exact_⟩ := ih text.length (by simp [← length]) after rfl
          have two := unescape_length d
          refine ⟨c::d::body,rest,unescape d ++ more,last,rfl,by simp,read,by simp; omega,?_⟩
          intro equal
          simp only [List.length_append,List.length_cons] at equal
          obtain ⟨same,literal⟩ := exact_ (by omega)
          obtain ⟨wild,stays⟩ := unescape_two (c := d) (by omega)
          rw [escape,stays,same]
          exact ⟨rfl,.wildcard wild literal⟩
      · simp only [step,if_neg ends,if_neg escape] at later ⊢
        obtain ⟨body,rest,more,last,rfl,rfl,read,short,exact_⟩ := ih text.length (by simp [← length]) later rfl
        refine ⟨c::body,rest,c::more,last,rfl,by simp,read,by simp; omega,?_⟩
        intro equal
        simp only [List.length_cons,Nat.add_right_cancel_iff] at equal
        obtain ⟨same,literal⟩ := exact_ equal
        rw [same]
        exact ⟨rfl,.byte ends escape literal⟩

theorem lexFrom_literal {body : List UInt8} (literal : Literal quote body) (value : List UInt8) {rest : List UInt8}
    (single : rest.head? ≠ some quote) (other : quote ≠ 92) :
    lexFrom (.quoted quote value) (body ++ quote::rest) = (lexFrom .between rest).map (.string (value ++ body) :: ·) := by
  induction literal generalizing value with
  | nil =>
    cases rest with
    | nil => simp [lexFrom,step,finish]
    | cons d rest =>
      have differ : d ≠ quote := by simpa using single
      simp [lexFrom,step,differ,ahead,Function.comp_def]
  | byte ends plain _ ih =>
    simp only [List.cons_append,lexFrom,step,if_neg ends,if_neg plain,ih]
    simp [Function.comp_def]
  | @wildcard c _ wild _ ih =>
    have stays : unescape c = [92,c] := by rcases wild with rfl | rfl <;> rfl
    simp only [List.cons_append,lexFrom,step,if_neg (Ne.symm other),if_true,stays,ih]
    simp [Function.comp_def]

end Quoted

/-! ### Calls -/

/-- An argument that is written as a literal. -/
inductive Arg
  | text (value : List UInt8)
  | int (value : Int)

/-- How the digits of numbers are written. -/
structure Prints (digits : Nat → List UInt8) : Prop where
  each : ∀ n, (digits n).all digit
  numeral : ∀ n, numeral (digits n) = n
  length : ∀ n, (digits n).length = (Nat.toDigits 10 n).length

section Calls
variable (digits : Nat → List UInt8)

/-- Strings stand in single quotes as they are. -/
def Arg.render : Arg → List UInt8
  | .text value => 39::value ++ [39]
  | .int value => if value < 0 then 45::digits value.natAbs else digits value.natAbs

def Arg.tokens : Arg → List Token
  | .text value => [.string value]
  | .int value => if value < 0 then [.symbol 45,.number value.natAbs] else [.number value.natAbs]

/-- The arguments after the first and what ends the call. -/
def following (close : List UInt8) : List Arg → List UInt8
  | [] => close
  | arg::args => 44::arg.render digits ++ following close args

def followingTokens (close : List Token) : List Arg → List Token
  | [] => close
  | arg::args => .symbol 44::arg.tokens ++ followingTokens close args

/-- What may come after an argument. -/
def Delimited (text : List UInt8) : Prop := ∃ c rest, text = c::rest ∧ (c = 44 ∨ c = 41)

theorem digit_word {c : UInt8} (digits : digit c) : wordChar c := by
  rw [wordChar,digits]
  rfl

theorem enter_digit {c : UInt8} (digits : digit c) : enter c = ([],.word [c]) := by
  have blank : space c = false := by
    simp only [space,digit,Bool.and_eq_true,decide_eq_true_eq,UInt8.le_iff_toNat_le,Bool.or_eq_false_iff,decide_eq_false_iff_not,
      Bool.and_eq_false_iff,← UInt8.toNat_inj] at digits ⊢
    simp at digits ⊢
    omega
  rw [enter,blank,digit_word digits]
  rfl

theorem symbol_enter {c : UInt8} (delimiter : c = 44 ∨ c = 41) : enter c = ([.symbol c],.between) := by
  rcases delimiter with rfl | rfl <;> rfl

section Delimited
variable {rest : List UInt8} (delimited : Delimited rest)
include delimited

theorem lexFrom_run {text : List UInt8} (chars : text.all digit) (run : List UInt8) :
    lexFrom (.word run) (text ++ rest) = (lexFrom .between rest).map (wordToken (run ++ text) :: ·) := by
  induction text generalizing run with
  | nil =>
    obtain ⟨c,rest,rfl,at_⟩ := delimited
    have other : wordChar c = false := by rcases at_ with rfl | rfl <;> rfl
    simp [lexFrom,step,other,ahead,Function.comp_def]
  | cons c text ih =>
    obtain ⟨this,others⟩ := Bool.and_eq_true_iff.mp chars
    simp only [List.cons_append,lexFrom,step,digit_word this,if_true,ih others]
    simp [Function.comp_def]

variable {digits} (prints : Prints digits)
include prints

omit delimited in
theorem prints_run (n : Nat) : ∃ c text, digits n = c::text ∧ digit c ∧ text.all digit ∧ wordToken (c::text) = .number n := by
  have each := prints.each n
  have value := prints.numeral n
  cases written : digits n with
  | nil =>
    have none_ := prints.length n
    rw [written] at none_
    exact absurd Nat.length_toDigits_pos (by rw [← none_]; decide)
  | cons c text =>
    rw [written] at each value
    obtain ⟨this,others⟩ := Bool.and_eq_true_iff.mp each
    refine ⟨c,text,rfl,this,others,?_⟩
    rw [wordToken,each,value]
    rfl

theorem lexFrom_int (value : Int) : lexFrom .between ((Arg.int value).render digits ++ rest) =
    (lexFrom .between rest).map ((Arg.int value).tokens ++ ·) := by
  obtain ⟨c,text,written,first,others,token⟩ := prints_run prints value.natAbs
  have run := lexFrom_run delimited others [c]
  rw [Arg.render,Arg.tokens,written]
  split
  · have apart : c ≠ 45 := by
      rintro rfl
      cases first
    have dash : enter 45 = ([],.dash) := rfl
    simp only [List.cons_append,lexFrom,step,dash,if_neg apart,ahead,enter_digit first,run,List.nil_append,token]
    simp [Function.comp_def]
  · simp only [List.cons_append,lexFrom,step,enter_digit first,run,List.nil_append,token]
    simp [Function.comp_def]

end Delimited

/-- What ends the call. -/
structure Closes (close : List UInt8) (tokens : List Token) : Prop where
  delimited : Delimited close
  read : lexFrom .between close = some tokens
  length : total tokens = close.length
  joined : join tokens = tokens
  fresh : ∀ value, tokens.head? ≠ some (.string value)
  clean : 0 ∉ close

section Closes
variable {digits} (prints : Prints digits) {close : List UInt8} {tokens : List Token} (closes : Closes close tokens)
include prints

theorem render_length (arg : Arg) : total arg.tokens = (arg.render digits).length := by
  cases arg with
  | text value => simp [Arg.tokens,Arg.render,Token.length]
  | int value =>
    simp only [Arg.tokens,Arg.render]
    split <;> simp [Token.length,prints.length,Nat.add_comm]

include closes

omit prints in
theorem following_delimited (args : List Arg) : Delimited (following digits close args) := by
  cases args with
  | nil => exact closes.delimited
  | cons arg args => exact ⟨44,_,rfl,.inl rfl⟩

theorem following_length (args : List Arg) : total (followingTokens tokens args) = (following digits close args).length := by
  induction args with
  | nil => exact closes.length
  | cons arg args ih => simp [followingTokens,following,Token.length,render_length prints,ih]; omega

/-- An argument and what follows it are read as they are meant exactly if a text stands for itself. -/
theorem lexFrom_arg {arg : Arg} {args : List Arg}
    (rest : lexFrom .between (following digits close args) = some (followingTokens tokens args) ↔ ∀ value, .text value ∈ args → Literal 39 value) :
    lexFrom .between (arg.render digits ++ following digits close args) = some (arg.tokens ++ followingTokens tokens args) ↔
      ∀ value, .text value ∈ arg::args → Literal 39 value := by
  have delimited := @following_delimited digits _ _ closes args
  cases arg with
  | int value =>
    rw [lexFrom_int delimited prints]
    simp [rest]
  | text value =>
    have single : (following digits close args).head? ≠ some 39 := by
      obtain ⟨c,later,same,at_⟩ := delimited
      rw [same]
      rcases at_ with rfl | rfl <;> simp
    have quote : enter 39 = ([],.quoted 39 []) := rfl
    have text : (Arg.text value).render digits ++ following digits close args = 39::(value ++ 39::following digits close args) := by
      simp [Arg.render]
    rw [text,lexFrom]
    simp only [step,quote,List.nil_append,Arg.tokens]
    constructor
    · intro lexed
      have read : lexFrom (.quoted 39 []) (value ++ 39::following digits close args) =
          some (.string value::followingTokens tokens args) := by simpa using lexed
      obtain ⟨body,last,more,later,same,shape,after,short,exact_⟩ := lexFrom_quoted read
      cases shape
      have total_ := @lexFrom_length last .between trivial _ after
      have lengths := congrArg List.length same
      rw [following_length prints closes,Mode.length] at total_
      simp only [List.length_append,List.length_cons,List.length_nil] at lengths
      obtain ⟨rfl,literal⟩ := exact_ (by omega)
      have equal : following digits close args = last := by simpa using same
      rw [← equal] at after
      intro other member
      obtain same | member := List.mem_cons.mp member
      · cases same
        exact literal
      · exact rest.mp after other member
    · intro literals
      rw [lexFrom_literal (literals value List.mem_cons_self) [] single (by decide),
        rest.mpr fun other member => literals other (List.mem_cons_of_mem _ member)]
      simp

theorem lexFrom_following (args : List Arg) :
    lexFrom .between (following digits close args) = some (followingTokens tokens args) ↔ ∀ value, .text value ∈ args → Literal 39 value := by
  induction args with
  | nil => exact iff_of_true closes.read (fun _ absurd => by cases absurd)
  | cons arg args ih =>
    rw [← lexFrom_arg prints closes ih]
    have comma : enter 44 = ([.symbol 44],.between) := rfl
    simp [following,followingTokens,lexFrom,step,comma]

omit prints in
theorem following_fresh (args : List Arg) (value : List UInt8) : (followingTokens tokens args).head? ≠ some (.string value) := by
  cases args with
  | nil => exact closes.fresh value
  | cons arg args => simp [followingTokens]

omit prints closes in
theorem join_string {value : List UInt8} {tokens : List Token} (fresh : ∀ other, tokens.head? ≠ some (.string other))
    (joined : join tokens = tokens) : join (.string value::tokens) = .string value::tokens := by
  rw [join,joined]
  split
  · rename_i other rest
    exact absurd rfl (fresh other)
  · rfl

omit prints closes in
theorem join_words {words : List Token} (plain : ∀ value, .string value ∉ words) (tokens : List Token) :
    join (words ++ tokens) = words ++ join tokens := by
  induction words with
  | nil => rfl
  | cons word words ih =>
    have rest := ih fun value member => plain value (List.mem_cons_of_mem _ member)
    cases word with
    | string value => exact absurd List.mem_cons_self (plain value)
    | word | number | symbol => simp only [List.cons_append,join,rest]

omit prints in
theorem join_arg (arg : Arg) {args : List Arg} (rest : join (followingTokens tokens args) = followingTokens tokens args) :
    join (arg.tokens ++ followingTokens tokens args) = arg.tokens ++ followingTokens tokens args := by
  cases arg with
  | text value => exact join_string (following_fresh closes args) rest
  | int value =>
    have plain : ∀ other, .string other ∉ (Arg.int value).tokens := by
      intro other
      simp only [Arg.tokens]
      split <;> simp
    rw [join_words plain,rest]

omit prints in
theorem join_following (args : List Arg) : join (followingTokens tokens args) = followingTokens tokens args := by
  induction args with
  | nil => exact closes.joined
  | cons arg args ih => simpa [followingTokens,join] using join_arg closes arg ih

omit closes in
theorem zero_render (arg : Arg) : 0 ∈ arg.render digits ↔ ∃ value, arg = .text value ∧ 0 ∈ value := by
  have clean (n : Nat) : 0 ∉ digits n := by
    intro member
    have zero := List.all_eq_true.mp (prints.each n) 0 member
    cases zero
  cases arg with
  | text value => simp [Arg.render]
  | int value =>
    simp only [Arg.render]
    split <;> simp [clean]

theorem zero_following (args : List Arg) : 0 ∈ following digits close args ↔ ∃ value, .text value ∈ args ∧ 0 ∈ value := by
  induction args with
  | nil => simp [following,closes.clean]
  | cons arg args ih =>
    simp only [following,List.cons_append,List.mem_cons,List.mem_append,zero_render prints,ih]
    constructor
    · rintro (absurd | ⟨value,rfl,zero⟩ | ⟨value,member,zero⟩)
      · cases absurd
      · exact ⟨value,.inl rfl,zero⟩
      · exact ⟨value,.inr member,zero⟩
    · rintro ⟨value,same | member,zero⟩
      · exact .inr (.inl ⟨value,same.symm,zero⟩)
      · exact .inr (.inr ⟨value,member,zero⟩)

end Closes

/-- What is read of a C string: it ends at the first NUL. -/
def cut (text : List UInt8) : List UInt8 := text.takeWhile (· ≠ 0)

theorem cut_append {front : List UInt8} (clean : 0 ∉ front) (text : List UInt8) : cut (front ++ text) = front ++ cut text := by
  rw [cut,List.takeWhile_append_of_pos]
  · rfl
  · intro c member
    have other : c ≠ 0 := fun same => clean (same ▸ member)
    simpa using other

theorem cut_clean {text : List UInt8} (clean : 0 ∉ text) : cut text = text := by
  simpa [cut] using cut_append clean []

theorem cut_shorter {text : List UInt8} (zero : 0 ∈ text) : (cut text).length < text.length := by
  have part : cut text <+: text := List.takeWhile_prefix _
  refine Nat.lt_of_le_of_ne part.length_le ?_
  intro equal
  have same : cut text = text := part.eq_of_length equal
  have other := List.takeWhile_eq_self_iff.mp same 0 zero
  simp at other

section Statement
variable {digits} (prints : Prints digits) {close : List UInt8} {tokens : List Token} (closes : Closes close tokens)
include prints closes

/-- A statement is the call it is meant to be exactly if its texts stand for themselves. By length: no token is shorter than
its text, so that nothing is left over for a token that is longer. -/
theorem lex_call_iff {front : List UInt8} {words : List Token}
    (reads : ∀ text, lexFrom .between (front ++ text) = (lexFrom .between text).map (words ++ ·))
    (plain : ∀ value, .string value ∉ words) (clean : 0 ∉ front) (arg : Arg) (args : List Arg) :
    lex (cut (front ++ (arg.render digits ++ following digits close args))) = some (words ++ (arg.tokens ++ followingTokens tokens args)) ↔
      ∀ value, .text value ∈ arg::args → Literal 39 value ∧ 0 ∉ value := by
  have zeros : 0 ∈ arg.render digits ++ following digits close args ↔ ∃ value, .text value ∈ arg::args ∧ 0 ∈ value := by
    have every := zero_following prints closes (arg::args)
    simpa [following] using every
  have exact_ := @lexFrom_arg _ prints _ _ closes arg args (lexFrom_following prints closes args)
  have length : total (arg.tokens ++ followingTokens tokens args) = (arg.render digits ++ following digits close args).length := by
    rw [total_append,List.length_append,render_length prints,following_length prints closes]
  have joined := join_arg closes arg (join_following closes args)
  rw [cut_append clean,lex,reads,Option.map_map]
  constructor
  · intro lexed
    obtain ⟨raw,read,shape⟩ := Option.map_eq_some_iff.mp lexed
    rw [Function.comp_apply,join_words plain,List.append_cancel_left_eq] at shape
    have longest := @lexFrom_length _ .between trivial _ read
    obtain ⟨shorter,same⟩ := join_total raw
    rw [shape,length] at shorter
    rw [Mode.length] at longest
    have whole : 0 ∉ arg.render digits ++ following digits close args := by
      intro zero
      have less := cut_shorter zero
      omega
    rw [cut_clean whole] at read longest
    have equal : raw = arg.tokens ++ followingTokens tokens args := by
      rw [← shape]
      refine (same ?_).symm
      rw [shape,length]
      omega
    rw [equal] at read
    intro value member
    exact ⟨exact_.mp read value member,fun zero => whole (zeros.mpr ⟨value,member,zero⟩)⟩
  · intro literals
    have whole : 0 ∉ arg.render digits ++ following digits close args := by
      intro zero
      obtain ⟨value,member,inside⟩ := zeros.mp zero
      exact (literals value member).2 inside
    rw [cut_clean whole,exact_.mpr fun value member => (literals value member).1,Option.map_some,Function.comp_apply,join_words plain,joined]

end Statement

end Calls

end Migfm.Library.SqlText
