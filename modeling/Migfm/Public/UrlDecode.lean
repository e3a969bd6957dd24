import Mathlib.Data.List.TakeWhile
import Mathlib.Data.UInt

/-! `UrlDecode` of public/basic/basic_util.cc against what a URL-encoded text stands for. -/
namespace Migfm.Public

/-! ### The decoder -/

def isupper (c : UInt8) : Bool := 65 ≤ c ∧ c ≤ 90

def isxdigit (c : UInt8) : Bool := (48 ≤ c ∧ c ≤ 57) ∨ (65 ≤ c ∧ c ≤ 70) ∨ (97 ≤ c ∧ c ≤ 102)

/-- One digit of `php_htoi`. -/
def htoi (s : UInt8) : Int :=
  let c : Int := if isupper s then s.toNat + 32 else s.toNat
  if 48 ≤ c ∧ c ≤ 57 then c - 48 else c - 97 + 10

def php_htoi (first second : UInt8) : Int := htoi first * 16 + htoi second

/-- What is read of a string up to its end. -/
def cString (text : List UInt8) : List UInt8 := text.takeWhile fun c => c ≠ 0

/-- The loop, with the bytes that are left. -/
def UrlDecodeLoop : List UInt8 → List UInt8
  | [] => []
  | 43::data => 32::UrlDecodeLoop data
  | 37::first::second::data =>
    if isxdigit first ∧ isxdigit second then UInt8.ofInt (php_htoi first second)::UrlDecodeLoop data
    else 37::UrlDecodeLoop (first::second::data)
  | c::data => c::UrlDecodeLoop data

def UrlDecode (content : List UInt8) : List UInt8 := cString (UrlDecodeLoop (cString content))

/-! ### The text that is meant -/

def hexValue (c : UInt8) : Option UInt8 :=
  if 48 ≤ c ∧ c ≤ 57 then some (c - 48)
  else if 65 ≤ c ∧ c ≤ 70 then some (c - 55)
  else if 97 ≤ c ∧ c ≤ 102 then some (c - 87)
  else none

/-- `+` for a blank, `%` and two digits for a byte. -/
def decoded : List UInt8 → List UInt8
  | [] => []
  | 43::text => 32::decoded text
  | 37::first::second::text =>
    match hexValue first,hexValue second with
    | some high,some low => (16 * high + low)::decoded text
    | _,_ => 37::decoded (first::second::text)
  | c::text => c::decoded text

set_option maxRecDepth 4000 in
/-- A digit, checked for each byte. -/
theorem hexValue_eq (c : UInt8) : hexValue c = if isxdigit c then some (UInt8.ofInt (htoi c)) else none := by
  have each : ∀ n < 256, hexValue (UInt8.ofNat n) =
      if isxdigit (UInt8.ofNat n) then some (UInt8.ofInt (htoi (UInt8.ofNat n))) else none := by
    decide
  have here := each c.toNat c.toNat_lt
  rwa [UInt8.ofNat_toNat] at here

theorem php_htoi_byte (first second : UInt8) :
    UInt8.ofInt (php_htoi first second) = 16 * UInt8.ofInt (htoi first) + UInt8.ofInt (htoi second) := by
  rw [php_htoi,UInt8.ofInt_add,UInt8.ofInt_mul,mul_comm]
  rfl

theorem hexValue_some {c value : UInt8} (digit : hexValue c = some value) : isxdigit c ∧ value = UInt8.ofInt (htoi c) := by
  rw [hexValue_eq] at digit
  by_cases hex : isxdigit c
  · rw [if_pos hex] at digit
    exact ⟨hex,(Option.some.inj digit).symm⟩
  · rw [if_neg hex] at digit
    cases digit

/-- The loop does what is meant, by induction along the text. -/
theorem UrlDecodeLoop_eq (text : List UInt8) : UrlDecodeLoop text = decoded text := by
  induction text using decoded.induct with
  | case1 => rfl
  | case2 text ih => rw [UrlDecodeLoop,decoded,ih]
  | case3 first second text high low two one ih =>
    obtain ⟨hex,rfl⟩ := hexValue_some one
    obtain ⟨also,rfl⟩ := hexValue_some two
    rw [UrlDecodeLoop,decoded,if_pos ⟨hex,also⟩,one,two,php_htoi_byte,ih]
  | case4 first second text other ih =>
    have digits : ¬(isxdigit first ∧ isxdigit second) := by
      rintro ⟨hex,also⟩
      exact other _ _ ((hexValue_eq first).trans (if_pos hex)) ((hexValue_eq second).trans (if_pos also))
    rw [UrlDecodeLoop,decoded,if_neg digits,ih]
    split
    · rename_i high low one two
      exact absurd two fun here => other _ _ one here
    · rfl
  | case5 c text plus percent ih => rw [UrlDecodeLoop,decoded,ih] <;> assumption

theorem UrlDecode_eq (content : List UInt8) : UrlDecode content = cString (decoded (cString content)) := by
  rw [UrlDecode,UrlDecodeLoop_eq]

/-! ### When it is what is meant -/

theorem cString_iff {text : List UInt8} : cString text = text ↔ 0 ∉ text := by
  rw [cString,List.takeWhile_eq_self_iff]
  constructor
  · intro each zero
    exact absurd rfl (of_decide_eq_true (each 0 zero))
  · intro fresh c listed
    rw [decide_eq_true_iff]
    rintro rfl
    exact fresh listed

/-- A decoded end cuts the text. -/
theorem UrlDecode_iff {content : List UInt8} (ended : 0 ∉ content) : UrlDecode content = decoded content ↔ 0 ∉ decoded content := by
  rw [UrlDecode_eq,cString_iff.mpr ended,cString_iff]

theorem decoded_nil {text : List UInt8} : decoded text = [] ↔ text = [] := by
  constructor
  · intro nothing
    induction text using decoded.induct with
    | case1 => rfl
    | case2 text => rw [decoded] at nothing; cases nothing
    | case3 first second text high low two one => rw [decoded,one,two] at nothing; cases nothing
    | case4 first second text other =>
      rw [decoded] at nothing
      split at nothing
      · cases nothing
      · cases nothing
    | case5 c text plus percent => rw [decoded] at nothing <;> first | cases nothing | assumption
  · rintro rfl
    rfl

/-- Without `+` and `%` nothing is decoded. -/
theorem decoded_same {text : List UInt8} (plus : 43 ∉ text) (percent : 37 ∉ text) : decoded text = text := by
  induction text with
  | nil => rfl
  | cons c text ih =>
    rw [List.mem_cons,not_or] at plus percent
    rw [decoded,ih plus.2 percent.2]
    · rintro rfl
      exact plus.1 rfl
    · rintro first second data rfl
      exact absurd rfl percent.1

/-- A `+` that is not part of a code is a blank. -/
theorem blank_decoded {text : List UInt8} (plus : 43 ∈ text) (percent : 37 ∉ text) : 32 ∈ decoded text := by
  induction text with
  | nil => cases plus
  | cons c text ih =>
    rw [List.mem_cons,not_or] at percent
    by_cases here : c = 43
    · subst here
      rw [decoded]
      exact List.mem_cons_self
    · rw [decoded]
      · exact List.mem_cons_of_mem _ (ih ((List.mem_cons.mp plus).resolve_left fun same => here same.symm) percent.2)
      · exact here
      · rintro first second data rfl
        exact absurd rfl percent.1

theorem decoded_head {c : UInt8} (percent : c ≠ 37) (text : List UInt8) :
    (decoded (c::text)).head? = some (if c = 43 then 32 else c) := by
  by_cases plus : c = 43
  · subst plus
    rw [decoded]
    rfl
  · rw [decoded,if_neg plus]
    · rfl
    · exact plus
    · rintro first second data rfl
      exact absurd rfl percent

end Migfm.Public
