import Migfm.Public.UrlDecode
import Migfm.Library.Words

/-! `UrlEncode` of public/basic/basic_util.cc, and which strings come back through
`UrlDecode`. -/
namespace Migfm.Public

/-! ### The encoder -/

/-- Letters, digits and the four marks stand for themselves. -/
def isplain (ch : UInt8) : Bool :=
  (65 ≤ ch ∧ ch ≤ 90) ∨ (97 ≤ ch ∧ ch ≤ 122) ∨ (48 ≤ ch ∧ ch ≤ 57) ∨ ch = 46 ∨ ch = 45 ∨ ch = 95 ∨ ch = 42

/-- A digit of `%02X`. -/
def upperDigit (n : UInt8) : UInt8 := if n < 10 then 48 + n else 55 + n

/-- `sprintf` of `%%%02X`. -/
def percentCode (ch : UInt8) : List UInt8 := [37,upperDigit (ch / 16),upperDigit (ch % 16)]

/-- The loop, with the bytes that are left and the result so far. -/
def UrlEncodeLoop (resultSize : Int32) : List UInt8 → List UInt8 → Option (List UInt8)
  | [],result => some result
  | ch::str,result =>
    if (result.length : Int) < resultSize.toInt then
      if isplain ch then UrlEncodeLoop resultSize str (result ++ [ch])
      else if ch = 32 then UrlEncodeLoop resultSize str (result ++ [43])
      else if (result.length : Int) + 3 < resultSize.toInt then UrlEncodeLoop resultSize str (result ++ percentCode ch)
      else none
    else some result

/-- The sizes are `int`s. -/
def UrlEncode (content : List UInt8) : Option (List UInt8) :=
  let strSize := Int32.ofNat content.length
  let resultSize := strSize * 3
  if strSize ≤ 0 ∨ resultSize ≤ 0 then none
  else UrlEncodeLoop resultSize (content.take strSize.toInt.toNat) []

/-! ### What it writes -/

def code (ch : UInt8) : List UInt8 := if isplain ch then [ch] else if ch = 32 then [43] else percentCode ch

def encoded (str : List UInt8) : List UInt8 := str.flatMap code

/-- A byte that is not written as one. -/
def Special (ch : UInt8) : Prop := isplain ch = false ∧ ch ≠ 32

instance (ch : UInt8) : Decidable (Special ch) := inferInstanceAs (Decidable (_ ∧ _))

theorem code_special {ch : UInt8} (special : Special ch) : code ch = percentCode ch := by
  rw [code,if_neg (by simp [special.1]),if_neg special.2]

theorem code_length {ch : UInt8} (common : ¬Special ch) : (code ch).length = 1 := by
  rw [code]
  by_cases plain : isplain ch
  · rw [if_pos plain]
    rfl
  · rw [if_neg plain,if_pos (by_contra fun other => common ⟨by simpa using plain,other⟩)]
    rfl

section Loop
variable {resultSize : Int32} {str result : List UInt8}

theorem UrlEncodeLoop_common {ch : UInt8} (common : ¬Special ch) (room : (result.length : Int) < resultSize.toInt) :
    UrlEncodeLoop resultSize (ch::str) result = UrlEncodeLoop resultSize str (result ++ code ch) := by
  rw [UrlEncodeLoop,if_pos room,code]
  by_cases plain : isplain ch
  · rw [if_pos plain,if_pos plain]
  · have blank : ch = 32 := by_contra fun other => common ⟨by simpa using plain,other⟩
    rw [if_neg plain,if_neg plain,if_pos blank,if_pos blank]

theorem UrlEncodeLoop_special {ch : UInt8} (special : Special ch) (room : (result.length : Int) < resultSize.toInt) :
    UrlEncodeLoop resultSize (ch::str) result =
      if (result.length : Int) + 3 < resultSize.toInt then UrlEncodeLoop resultSize str (result ++ code ch) else none := by
  rw [UrlEncodeLoop,if_pos room,if_neg (by simp [special.1]),if_neg special.2,code_special special]

/-- With three bytes of room for each one that is left, and one more, everything is written. -/
theorem UrlEncodeLoop_room (room : (result.length : Int) + 3 * str.length < resultSize.toInt) :
    UrlEncodeLoop resultSize str result = some (result ++ encoded str) := by
  induction str generalizing result with
  | nil => simp [UrlEncodeLoop,encoded]
  | cons ch str ih =>
    rw [List.length_cons] at room
    have rest (length : (code ch).length ≤ 3) : UrlEncodeLoop resultSize str (result ++ code ch) =
        some (result ++ encoded (ch::str)) := by
      rw [ih (by rw [List.length_append]; omega),encoded,encoded,List.flatMap_cons,List.append_assoc]
    by_cases special : Special ch
    · rw [UrlEncodeLoop_special special (by omega),if_pos (by omega),rest (by rw [code_special special]; rfl)]
    · rw [UrlEncodeLoop_common special (by omega),rest (by rw [code_length special]; omega)]

/-- With just three bytes for each, a byte that takes one makes the room for the last. -/
theorem UrlEncodeLoop_tight (room : (result.length : Int) + 3 * str.length = resultSize.toInt)
    (common : ∃ ch ∈ str, ¬Special ch) : UrlEncodeLoop resultSize str result = some (result ++ encoded str) := by
  induction str generalizing result with
  | nil =>
    obtain ⟨ch,listed,_⟩ := common
    cases listed
  | cons ch str ih =>
    rw [List.length_cons] at room
    by_cases special : Special ch
    · obtain ⟨other,listed,plain⟩ := common
      have later : other ∈ str := (List.mem_cons.mp listed).resolve_left fun same => plain (same ▸ special)
      have more := List.length_pos_of_mem later
      have length : (code ch).length = 3 := by rw [code_special special]; rfl
      rw [UrlEncodeLoop_special special (by omega),if_pos (by omega),ih (by rw [List.length_append]; omega) ⟨other,later,plain⟩,
        encoded,encoded,List.flatMap_cons,List.append_assoc]
    · have length := code_length special
      rw [UrlEncodeLoop_common special (by omega),UrlEncodeLoop_room (by rw [List.length_append]; omega),
        encoded,encoded,List.flatMap_cons,List.append_assoc]

/-- If all bytes take three, the last one fails. -/
theorem UrlEncodeLoop_full (room : (result.length : Int) + 3 * str.length = resultSize.toInt) (some : str ≠ [])
    (special : ∀ ch ∈ str, Special ch) : UrlEncodeLoop resultSize str result = none := by
  induction str generalizing result with
  | nil => exact absurd rfl some
  | cons ch str ih =>
    rw [List.length_cons] at room
    have here := special ch List.mem_cons_self
    have length : (code ch).length = 3 := by rw [code_special here]; rfl
    rw [UrlEncodeLoop_special here (by omega)]
    by_cases last : str = []
    · rw [last,List.length_nil] at room
      rw [if_neg (by omega)]
    · have more := List.length_pos_of_ne_nil last
      rw [if_pos (by omega)]
      exact ih (by rw [List.length_append]; omega) last fun other listed => special other (List.mem_cons_of_mem _ listed)

/-- Whatever is returned is the code of a beginning, of the whole only if there was room for each byte. -/
theorem UrlEncodeLoop_prefix {text : List UInt8} (outcome : UrlEncodeLoop resultSize str result = some text) :
    ∃ n, n ≤ str.length ∧ text = result ++ encoded (str.take n) ∧
      (n = str.length → str ≠ [] → (result.length : Int) + str.length ≤ resultSize.toInt) := by
  induction str generalizing result with
  | nil =>
    cases outcome
    exact ⟨0,le_rfl,by simp [encoded],fun _ some => absurd rfl some⟩
  | cons ch str ih =>
    by_cases room : (result.length : Int) < resultSize.toInt
    · have onward : UrlEncodeLoop resultSize str (result ++ code ch) = some text ∧ 1 ≤ (code ch).length := by
        by_cases special : Special ch
        · rw [UrlEncodeLoop_special special room] at outcome
          split at outcome
          · exact ⟨outcome,by rw [code_special special]; exact Nat.le_add_left 1 2⟩
          · cases outcome
        · rw [UrlEncodeLoop_common special room] at outcome
          exact ⟨outcome,(code_length special).ge⟩
      obtain ⟨n,bound,same,whole⟩ := ih onward.1
      refine ⟨n + 1,Nat.succ_le_succ bound,?_,?_⟩
      · rw [same,List.take_succ_cons,encoded,encoded,List.flatMap_cons,List.append_assoc]
      · intro all _
        rw [List.length_cons]
        by_cases last : str = []
        · rw [last,List.length_nil]
          omega
        · have fits := whole (Nat.succ.inj all) last
          have wide := onward.2
          rw [List.length_append] at fits
          omega
    · rw [UrlEncodeLoop,if_neg room] at outcome
      cases outcome
      refine ⟨0,Nat.zero_le _,by simp [encoded],fun all _ => absurd all.symm (Nat.succ_ne_zero _)⟩

end Loop

/-! ### What comes back -/

theorem hexValue_upperDigit (n : UInt8) (digit : n < 16) : hexValue (upperDigit n) = some n := by
  have each : ∀ n < 16, hexValue (upperDigit (UInt8.ofNat n)) = some (UInt8.ofNat n) := by decide
  have here := each n.toNat digit
  rwa [UInt8.ofNat_toNat] at here

theorem isplain_ne {ch other : UInt8} (plain : isplain ch) (never : isplain other = false) : ch ≠ other := by
  rintro rfl
  rw [plain] at never
  cases never

/-- Each code is read as its byte. -/
theorem decoded_code (ch : UInt8) (rest : List UInt8) : decoded (code ch ++ rest) = ch::decoded rest := by
  rw [code]
  by_cases plain : isplain ch
  · rw [if_pos plain,List.singleton_append,decoded]
    · exact isplain_ne plain rfl
    · rintro first second data rfl
      exact absurd rfl (isplain_ne plain rfl)
  rw [if_neg plain]
  by_cases blank : ch = 32
  · rw [if_pos blank,List.singleton_append,decoded,blank]
  · rw [if_neg blank]
    have high : ch / 16 < 16 := by
      rw [UInt8.lt_iff_toNat_lt,UInt8.toNat_div]
      have bound := ch.toNat_lt
      exact (Nat.div_lt_iff_lt_mul (by decide)).mpr bound
    have low : ch % 16 < 16 := by
      rw [UInt8.lt_iff_toNat_lt,UInt8.toNat_mod]
      exact Nat.mod_lt _ (by decide)
    have whole : 16 * (ch / 16) + ch % 16 = ch := by
      rw [← UInt8.toNat_inj,UInt8.toNat_add,UInt8.toNat_mul,UInt8.toNat_div,UInt8.toNat_mod]
      have bound := ch.toNat_lt
      change (16 * (ch.toNat / 16) % 256 + ch.toNat % 16) % 256 = ch.toNat
      omega
    change decoded (37::upperDigit (ch / 16)::upperDigit (ch % 16)::rest) = _
    rw [decoded,hexValue_upperDigit _ high,hexValue_upperDigit _ low]
    exact congrArg (·::decoded rest) whole

theorem decoded_encoded (str : List UInt8) : decoded (encoded str) = str := by
  induction str with
  | nil => rfl
  | cons ch str ih =>
    rw [encoded,List.flatMap_cons,decoded_code]
    exact congrArg (ch::·) ih

theorem upperDigit_ne (n : UInt8) (digit : n < 16) : upperDigit n ≠ 0 := by
  have each : ∀ n < 16, upperDigit (UInt8.ofNat n) ≠ 0 := by decide
  have here := each n.toNat digit
  rwa [UInt8.ofNat_toNat] at here

theorem encoded_ended (str : List UInt8) : 0 ∉ encoded str := by
  intro zero
  obtain ⟨ch,_,written⟩ := List.mem_flatMap.mp zero
  -- no byte is read from an end, so none is written as one
  have ended : ∀ c ∈ code ch, c ≠ 0 := by
    rw [code]
    intro c listed
    split at listed
    · rename_i plain
      cases List.mem_singleton.mp listed
      exact isplain_ne plain rfl
    · split at listed
      · cases List.mem_singleton.mp listed
        decide
      · have high : ch / 16 < 16 := by
          rw [UInt8.lt_iff_toNat_lt,UInt8.toNat_div]
          exact (Nat.div_lt_iff_lt_mul (by decide)).mpr ch.toNat_lt
        have low : ch % 16 < 16 := by
          rw [UInt8.lt_iff_toNat_lt,UInt8.toNat_mod]
          exact Nat.mod_lt _ (by decide)
        simp only [percentCode,List.mem_cons,List.not_mem_nil,or_false] at listed
        rcases listed with rfl | rfl | rfl
        · decide
        · exact upperDigit_ne _ high
        · exact upperDigit_ne _ low
  exact ended 0 written rfl

theorem UrlDecode_encoded {str : List UInt8} (ended : 0 ∉ str) : UrlDecode (encoded str) = str := by
  rw [UrlDecode_iff (encoded_ended str) |>.mpr (by rwa [decoded_encoded])]
  exact decoded_encoded str

/-! ### The sizes -/

section Sizes
variable {content : List UInt8}

theorem strSize_small (small : 3 * content.length < 2^31) : (Int32.ofNat content.length).toInt = content.length :=
  Int32.toInt_ofNat_of_lt (by omega)

theorem resultSize_small (small : 3 * content.length < 2^31) :
    (Int32.ofNat content.length * 3).toInt = 3 * content.length := by
  rw [Int32.toInt_mul,strSize_small small]
  change (↑content.length * 3 : Int).bmod 4294967296 = _
  rw [Int.bmod_def]
  omega

theorem UrlEncode_small (some : content ≠ []) (small : 3 * content.length < 2^31) :
    UrlEncode content = UrlEncodeLoop (Int32.ofNat content.length * 3) content [] := by
  have more := List.length_pos_of_ne_nil some
  have first : ¬Int32.ofNat content.length ≤ 0 := by
    rw [Int32.le_iff_toInt_le,strSize_small small]
    change ¬(content.length : Int) ≤ 0
    omega
  have second : ¬Int32.ofNat content.length * 3 ≤ 0 := by
    rw [Int32.le_iff_toInt_le,resultSize_small small]
    change ¬(3 * content.length : Int) ≤ 0
    omega
  dsimp only [UrlEncode]
  rw [if_neg (not_or.mpr ⟨first,second⟩),strSize_small small,Int.toNat_natCast,List.take_length]

/-- Where the sizes overflow only a beginning is encoded, if anything. -/
theorem UrlEncode_large {text : List UInt8} (large : 2^31 ≤ 3 * content.length) (outcome : UrlEncode content = some text) :
    ∃ n < content.length, text = encoded (content.take n) := by
  dsimp only [UrlEncode] at outcome
  split at outcome
  · cases outcome
  rename_i sizes
  rw [not_or,Int32.le_iff_toInt_le,Int32.le_iff_toInt_le] at sizes
  obtain ⟨n,bound,same,whole⟩ := UrlEncodeLoop_prefix outcome
  rw [List.nil_append,List.take_take] at same
  rw [List.length_take] at bound whole
  have strSize : (Int32.ofNat content.length).toInt = (content.length : Int).bmod (2^32) := Int32.toInt_ofNat'
  have resultSize : (Int32.ofNat content.length * 3).toInt = ((Int32.ofNat content.length).toInt * 3).bmod (2^32) :=
    Int32.toInt_mul ..
  have positive : 0 < (Int32.ofNat content.length).toInt := not_le.mp sizes.1
  have within : n ≤ (Int32.ofNat content.length).toInt.toNat := bound.trans (min_le_left ..)
  rw [min_eq_left within] at same
  refine ⟨n,?_,same⟩
  by_contra all
  -- then the length is an `int`, and three times it is none that leaves room
  have size : (Int32.ofNat content.length).toInt = content.length := by
    rw [Int.bmod_def] at strSize
    omega
  have bounded := Int32.toInt_lt (Int32.ofNat content.length)
  rw [size] at bounded
  have equal : n = min (Int32.ofNat content.length).toInt.toNat content.length := by omega
  have fits := whole equal (List.ne_nil_of_length_pos (by rw [List.length_take]; omega))
  rw [resultSize,size,Int.bmod_def,List.length_nil] at fits
  obtain wraps | wraps : (content.length * 3 : Int) / 4294967296 = 0 ∨ (content.length * 3 : Int) / 4294967296 = 1 := by omega
  · omega
  · omega

end Sizes

/-- What `UrlEncode` makes of a string, `UrlDecode` makes the string of. -/
def ComesBack (content : List UInt8) : Prop := ∃ text, UrlEncode content = some text ∧ UrlDecode text = content

/-- A string comes back exactly if the sizes fit and not all of its bytes take three. -/
theorem comesBack_iff {content : List UInt8} (ended : 0 ∉ content) :
    ComesBack content ↔ 3 * content.length < 2^31 ∧ ∃ ch ∈ content, ¬Special ch := by
  by_cases small : 3 * content.length < 2^31
  · rw [and_iff_right small]
    by_cases some : content = []
    · subst some
      refine iff_of_false ?_ ?_
      · rintro ⟨text,outcome,_⟩
        cases outcome
      · rintro ⟨ch,listed,_⟩
        cases listed
    have room : (([] : List UInt8).length : Int) + 3 * content.length = (Int32.ofNat content.length * 3).toInt := by
      rw [resultSize_small small,List.length_nil]
      omega
    rw [ComesBack,UrlEncode_small some small]
    constructor
    · rintro ⟨text,outcome,_⟩
      by_contra none
      rw [UrlEncodeLoop_full room some fun ch listed => by_contra fun common => none ⟨ch,listed,common⟩] at outcome
      cases outcome
    · intro common
      exact ⟨_,UrlEncodeLoop_tight room common,UrlDecode_encoded ended⟩
  · refine iff_of_false ?_ fun both => small both.1
    rintro ⟨text,outcome,back⟩
    obtain ⟨n,shorter,rfl⟩ := UrlEncode_large (not_lt.mp small) outcome
    rw [UrlDecode_encoded fun zero => ended (List.mem_of_mem_take zero)] at back
    have length := congrArg List.length back
    rw [List.length_take] at length
    omega

/-- `a/` comes back. -/
theorem slash_comesBack : ComesBack [97,47] := (comesBack_iff (by decide)).mpr ⟨by decide,by decide⟩

/-- `/` alone does not. -/
theorem slash_lost : ¬∀ content : List UInt8, content ≠ [] → 0 ∉ content → ComesBack content := by
  intro all
  obtain ⟨text,outcome,_⟩ := all [47] (by decide) (by decide)
  cases outcome

end Migfm.Public
