import Migfm.Logic.BaseValues

/-! The conversions of public/basic/basic_util.cc between UTF-8 and wide strings,
with the macros of icu_utf.h as far as they are used. A wide string holds UTF-16
code units. -/
namespace Migfm.Logic

/-! ### UTF-8 -/

def utf8_countTrailBytes (leadByte : Nat) : Nat :=
  if leadByte < 0xc0 then 0
  else if leadByte < 0xe0 then 1
  else if leadByte < 0xf0 then 2
  else if leadByte < 0xf8 then 3
  else if leadByte < 0xfc then 4
  else if leadByte < 0xfe then 5
  else 0

def utf8_minLegal : Nat → Nat
  | 1 => 0x80
  | 2 => 0x800
  | 3 => 0x10000
  | _ => 0

def CBU8_IS_LEAD (c : Nat) : Bool := 0xc0 ≤ c ∧ c < 0xfe

def CBU8_IS_TRAIL (c : UInt8) : Bool := c.toNat &&& 0xc0 = 0x80

def CBU_IS_SURROGATE (c : Nat) : Bool := c &&& 0xfffff800 = 0xd800

def IsValidCodepoint (code_point : Nat) : Bool :=
  code_point < 0xd800 ∨ (0xe000 ≤ code_point ∧ code_point ≤ 0x10ffff)

/-- One trail byte: the code point so far, and whether something was illegal. -/
def utf8_trail (c : Nat × Bool) (trail : UInt8) : Nat × Bool :=
  (c.1 <<< 6 ||| (trail.toNat &&& 0x3f),c.2 || !CBU8_IS_TRAIL trail)

/-- The `switch` over the count of trail bytes. -/
def utf8_trails (c : Nat) : List UInt8 → Nat × Bool
  | [a] => utf8_trail (c,false) a
  | [a,b] => utf8_trail (utf8_trail (c,false) a) b
  | [a,b,d] =>
    let first := utf8_trail (c,false) a
    if first.1 < 0x110 then utf8_trail (utf8_trail first b) d else (first.1,true)
  | _ => (c,true)

/-- The bytes after the lead byte, as `strict < 0` reads them: the code point unless
the sequence is illegal, and what is left. -/
def utf8_nextCharSafeBody (lead : Nat) (s : List UInt8) : Option Nat × List UInt8 :=
  let count := utf8_countTrailBytes lead
  if count ≤ s.length then
    if count = 0 then (none,s)
    else
      let (c,illegal) := utf8_trails (lead &&& (1 <<< (6 - count) - 1)) (s.take count)
      if illegal ∨ c < utf8_minLegal count ∨ CBU_IS_SURROGATE c then
        (none,s.drop ((s.take count).takeWhile CBU8_IS_TRAIL).length)
      else (some c,s.drop count)
  else (none,s.dropWhile CBU8_IS_TRAIL)

/-- `CBU8_NEXT` from the first byte, and the check of the code point. -/
def ReadUTF8 : List UInt8 → Option Nat × List UInt8
  | [] => (none,[])
  | byte::s =>
    let (code_point,rest) :=
      if byte.toNat < 0x80 then (some byte.toNat,s)
      else if CBU8_IS_LEAD byte.toNat then utf8_nextCharSafeBody byte.toNat s
      else (none,s)
    (code_point.filter IsValidCodepoint,rest)

/-- `CBU8_APPEND_UNSAFE`. -/
def WriteUTF8 (code_point : Nat) : List UInt8 :=
  if code_point ≤ 0x7f then [code_point.toUInt8]
  else if code_point ≤ 0x7ff then
    [(code_point >>> 6 ||| 0xc0).toUInt8,(code_point &&& 0x3f ||| 0x80).toUInt8]
  else if code_point ≤ 0xffff then
    [(code_point >>> 12 ||| 0xe0).toUInt8,(code_point >>> 6 &&& 0x3f ||| 0x80).toUInt8,
      (code_point &&& 0x3f ||| 0x80).toUInt8]
  else
    [(code_point >>> 18 ||| 0xf0).toUInt8,(code_point >>> 12 &&& 0x3f ||| 0x80).toUInt8,
      (code_point >>> 6 &&& 0x3f ||| 0x80).toUInt8,(code_point &&& 0x3f ||| 0x80).toUInt8]

/-! ### UTF-16 -/

def CBU_IS_SURROGATE_LEAD (c : Nat) : Bool := c &&& 0x400 = 0

def CBU16_IS_TRAIL (c : Nat) : Bool := c &&& 0xfffffc00 = 0xdc00

def CBU16_GET_SUPPLEMENTARY (lead trail : Nat) : Nat := (lead <<< 10) + trail - (0xd800 <<< 10 + 0xdc00 - 0x10000)

def ReadUTF16 : WString → Option Nat × WString
  | [] => (none,[])
  | c::src =>
    if CBU_IS_SURROGATE c then
      match src with
      | trail::rest =>
        if CBU_IS_SURROGATE_LEAD c ∧ CBU16_IS_TRAIL trail then
          ((some (CBU16_GET_SUPPLEMENTARY c trail)).filter IsValidCodepoint,rest)
        else (none,src)
      | [] => (none,src)
    else ((some c).filter IsValidCodepoint,src)

/-- `CBU16_APPEND_UNSAFE`. -/
def WriteUTF16 (code_point : Nat) : WString :=
  if code_point ≤ 0xffff then [code_point]
  else [(code_point >>> 10) + 0xd7c0,code_point &&& 0x3ff ||| 0xdc00]

/-! ### Conversions -/

section ConverUnicode
variable {Source Dest : Type} (read : List Source → Option Nat × List Source) (write : Nat → List Dest)

/-- The loop of `ConverUnicode`; what cannot be read becomes U+FFFD. -/
def ConverUnicodeAll : Nat → List Source → List Dest
  | 0,_ => []
  | _ + 1,[] => []
  | n + 1,src =>
    let (code_point,rest) := read src
    write (code_point.getD 0xfffd) ++ ConverUnicodeAll n rest

/-- The length passes through `int32`. -/
def ConverUnicode (src : List Source) : List Dest :=
  let src_len32 := (Int32.ofNat src.length).toInt.toNat
  ConverUnicodeAll read write src_len32 (src.take src_len32)

end ConverUnicode

def UTF8ToWide (utf8 : List UInt8) : WString := ConverUnicode ReadUTF8 WriteUTF16 utf8

def WideToUTF8 (wide : WString) : List UInt8 := ConverUnicode ReadUTF16 WriteUTF8 wide

def WideToASCII (wide : WString) : List UInt8 := wide.map Nat.toUInt8

/-! ### Reading what was written -/

variable {code_point : Nat}

theorem or_add {n x a : Nat} (low : x < 2 ^ n) : x ||| 2 ^ n * a = 2 ^ n * a + x := by
  rw [Nat.or_comm,Nat.two_pow_add_eq_or_of_lt low]

/-- The byte of six bits after a lead byte. -/
theorem trail_toNat (bits : Nat) : (bits &&& 0x3f ||| 0x80).toUInt8.toNat = 0x80 + bits % 64 := by
  have masked : bits &&& 0x3f = bits % 64 := Nat.and_two_pow_sub_one_eq_mod bits 6
  have small : bits % 64 < 2 ^ 6 := Nat.mod_lt _ (by decide)
  have whole : bits % 64 ||| 0x80 = 0x80 + bits % 64 := @or_add 6 _ 2 small
  rw [masked,whole]
  exact Nat.mod_eq_of_lt (by omega)

theorem lead_toNat {n a bits : Nat} (low : bits < 2 ^ n) (byte : 2 ^ n * a + 2 ^ n ≤ 256) :
    (bits ||| 2 ^ n * a).toUInt8.toNat = 2 ^ n * a + bits := by
  rw [or_add low]
  exact Nat.mod_eq_of_lt (by omega)

theorem utf8_trail_eq {trail : UInt8} {bits : Nat} (same : trail.toNat = 0x80 + bits % 64) (c : Nat) (illegal : Bool) :
    utf8_trail (c,illegal) trail = (64 * c + bits % 64,illegal) := by
  have small : bits % 64 < 2 ^ 6 := Nat.mod_lt _ (by decide)
  have masked : trail.toNat &&& 0x3f = bits % 64 := by
    rw [same]
    exact (Nat.and_two_pow_sub_one_eq_mod _ 6).trans (by omega)
  have legal : CBU8_IS_TRAIL trail := by
    have each : ∀ bits < 64, (0x80 + bits) &&& 0xc0 = 0x80 := by decide
    rw [CBU8_IS_TRAIL,same]
    exact decide_eq_true (each _ small)
  rw [utf8_trail,masked,legal,← Nat.shiftLeft_add_eq_or_of_lt small c,Nat.shiftLeft_eq]
  simp
  omega

theorem and_high (c n k : Nat) : c &&& ((2 ^ k - 1) <<< n) = 2 ^ n * (c / 2 ^ n % 2 ^ k) := by
  rw [Nat.mul_comm,← Nat.shiftLeft_eq]
  refine Nat.eq_of_testBit_eq fun i => ?_
  rw [Nat.testBit_and,Nat.testBit_shiftLeft,Nat.testBit_shiftLeft,Nat.testBit_two_pow_sub_one,Nat.testBit_mod_two_pow,
    ← Nat.shiftRight_eq_div_pow,Nat.testBit_shiftRight]
  by_cases high : n ≤ i
  · simp [high,Bool.and_comm]
  · simp [high]

theorem surrogate_iff {c : Nat} (bounded : c < 2 ^ 32) : CBU_IS_SURROGATE c ↔ 0xd800 ≤ c ∧ c < 0xe000 := by
  have masked : c &&& 0xfffff800 = 2 ^ 11 * (c / 2 ^ 11 % 2 ^ 21) := and_high c 11 21
  rw [CBU_IS_SURROGATE,masked,decide_eq_true_iff]
  omega

theorem lead_surrogate_iff {c : Nat} : CBU_IS_SURROGATE_LEAD c ↔ c / 2 ^ 10 % 2 = 0 := by
  have masked : c &&& 0x400 = 2 ^ 10 * (c / 2 ^ 10 % 2 ^ 1) := and_high c 10 1
  rw [CBU_IS_SURROGATE_LEAD,masked,decide_eq_true_iff]
  omega

theorem trail_surrogate_iff {c : Nat} (bounded : c < 2 ^ 32) : CBU16_IS_TRAIL c ↔ 0xdc00 ≤ c ∧ c < 0xe000 := by
  have masked : c &&& 0xfffffc00 = 2 ^ 10 * (c / 2 ^ 10 % 2 ^ 22) := and_high c 10 22
  rw [CBU16_IS_TRAIL,masked,decide_eq_true_iff]
  omega
theorem scalar_iff : IsValidCodepoint code_point ↔ code_point < 0xd800 ∨ (0xe000 ≤ code_point ∧ code_point ≤ 0x10ffff) := by
  rw [IsValidCodepoint,decide_eq_true_iff]

/-- A sequence without anything illegal is read as its code point. -/
theorem utf8_nextCharSafeBody_legal {lead count c : Nat} {s : List UInt8} (counts : utf8_countTrailBytes lead = count + 1)
    (length : s.length = count + 1) (trails : utf8_trails (lead &&& (1 <<< (6 - (count + 1)) - 1)) s = (c,false))
    (legal : utf8_minLegal (count + 1) ≤ c) (valid : IsValidCodepoint c) (rest : List UInt8) :
    utf8_nextCharSafeBody lead (s ++ rest) = (some c,rest) := by
  have regular : ¬CBU_IS_SURROGATE c := by
    have scalar := scalar_iff.mp valid
    rw [surrogate_iff (by omega)]
    omega
  have head : (s ++ rest).take (count + 1) = s := by rw [← length,List.take_left]
  have tail : (s ++ rest).drop (count + 1) = rest := by rw [← length,List.drop_left]
  rw [utf8_nextCharSafeBody,counts,if_pos (by rw [List.length_append]; omega),if_neg (Nat.succ_ne_zero count),head,trails]
  dsimp only
  rw [if_neg (by simp [regular,Nat.not_lt.mpr legal]),tail]

theorem ReadUTF8_lead {lead : UInt8} {c : Nat} {s rest : List UInt8} (high : 0xc0 ≤ lead.toNat) (low : lead.toNat < 0xfe)
    (valid : IsValidCodepoint c) (body : utf8_nextCharSafeBody lead.toNat s = (some c,rest)) :
    ReadUTF8 (lead::s) = (some c,rest) := by
  rw [ReadUTF8,if_neg (by omega),if_pos (by simp [CBU8_IS_LEAD,high,low]),body]
  dsimp only
  rw [Option.filter_some,if_pos valid]

theorem ReadUTF8_write (valid : IsValidCodepoint code_point) (rest : List UInt8) :
    ReadUTF8 (WriteUTF8 code_point ++ rest) = (some code_point,rest) := by
  have scalar := scalar_iff.mp valid
  rw [WriteUTF8]
  split
  · rename_i ascii
    have byte : code_point.toUInt8.toNat = code_point := Nat.mod_eq_of_lt (by omega)
    rw [List.singleton_append,ReadUTF8,byte,if_pos (by omega)]
    dsimp only
    rw [Option.filter_some,if_pos valid]
  split
  · have lead : (code_point >>> 6 ||| 0xc0).toUInt8.toNat = 0xc0 + code_point / 64 := by
      rw [Nat.shiftRight_eq_div_pow]
      exact @lead_toNat 6 3 _ (by omega) (by omega)
    have bits : (0xc0 + code_point / 64) &&& (1 <<< (6 - (0 + 1)) - 1) = code_point / 64 :=
      (Nat.and_two_pow_sub_one_eq_mod _ 5).trans (by omega)
    refine ReadUTF8_lead (by omega) (by omega) valid (@utf8_nextCharSafeBody_legal _ 0 _ [_] ?_ rfl ?_ ?_ valid rest)
    · rw [lead,utf8_countTrailBytes,if_neg (by omega),if_pos (by omega)]
    · rw [lead,bits,utf8_trails,utf8_trail_eq (trail_toNat _)]
      exact congrArg (·,false) (by omega)
    · exact (Nat.not_le.mp ‹_› : 0x7f < code_point)
  split
  · have lead : (code_point >>> 12 ||| 0xe0).toUInt8.toNat = 0xe0 + code_point / 4096 := by
      rw [Nat.shiftRight_eq_div_pow]
      exact @lead_toNat 5 7 _ (by omega) (by omega)
    have bits : (0xe0 + code_point / 4096) &&& (1 <<< (6 - (1 + 1)) - 1) = code_point / 4096 :=
      (Nat.and_two_pow_sub_one_eq_mod _ 4).trans (by omega)
    refine ReadUTF8_lead (by omega) (by omega) valid (@utf8_nextCharSafeBody_legal _ 1 _ [_,_] ?_ rfl ?_ ?_ valid rest)
    · rw [lead,utf8_countTrailBytes,if_neg (by omega),if_neg (by omega),if_pos (by omega)]
    · rw [lead,bits,utf8_trails,utf8_trail_eq (trail_toNat _),utf8_trail_eq (trail_toNat _),Nat.shiftRight_eq_div_pow]
      exact congrArg (·,false) (by omega)
    · exact (Nat.not_le.mp ‹_› : 0x7ff < code_point)
  · have lead : (code_point >>> 18 ||| 0xf0).toUInt8.toNat = 0xf0 + code_point / 262144 := by
      rw [Nat.shiftRight_eq_div_pow]
      exact @lead_toNat 4 15 _ (by omega) (by omega)
    have bits : (0xf0 + code_point / 262144) &&& (1 <<< (6 - (2 + 1)) - 1) = code_point / 262144 :=
      (Nat.and_two_pow_sub_one_eq_mod _ 3).trans (by omega)
    refine ReadUTF8_lead (by omega) (by omega) valid (@utf8_nextCharSafeBody_legal _ 2 _ [_,_,_] ?_ rfl ?_ ?_ valid rest)
    · rw [lead,utf8_countTrailBytes,if_neg (by omega),if_neg (by omega),if_neg (by omega),if_pos (by omega)]
    · rw [lead,bits,utf8_trails,utf8_trail_eq (trail_toNat _),Nat.shiftRight_eq_div_pow,if_pos (by omega),
        utf8_trail_eq (trail_toNat _),utf8_trail_eq (trail_toNat _),Nat.shiftRight_eq_div_pow]
      exact congrArg (·,false) (by omega)
    · exact (Nat.not_le.mp ‹_› : 0xffff < code_point)

theorem CBU16_GET_SUPPLEMENTARY_eq (lead trail : Nat) :
    CBU16_GET_SUPPLEMENTARY lead trail = 2 ^ 10 * lead + trail - 0x35fdc00 := by
  have offset : 0xd800 <<< 10 + 0xdc00 - 0x10000 = 0x35fdc00 := by decide
  unfold CBU16_GET_SUPPLEMENTARY
  rw [offset,Nat.shiftLeft_eq,Nat.mul_comm]

theorem ReadUTF16_write (valid : IsValidCodepoint code_point) (rest : WString) :
    ReadUTF16 (WriteUTF16 code_point ++ rest) = (some code_point,rest) := by
  have scalar := scalar_iff.mp valid
  rw [WriteUTF16]
  split
  · have single : ¬CBU_IS_SURROGATE code_point := by
      rw [surrogate_iff (by omega)]
      omega
    rw [List.singleton_append,ReadUTF16.eq_def]
    dsimp only
    rw [if_neg single,Option.filter_some,if_pos valid]
  · have lead : code_point >>> 10 = code_point / 1024 := Nat.shiftRight_eq_div_pow ..
    have trail : code_point &&& 0x3ff ||| 0xdc00 = 0xdc00 + code_point % 1024 := by
      have masked : code_point &&& 0x3ff = code_point % 1024 := Nat.and_two_pow_sub_one_eq_mod _ 10
      rw [masked]
      exact @or_add 10 _ 55 (Nat.mod_lt _ (by decide))
    have surrogate : CBU_IS_SURROGATE (code_point / 1024 + 0xd7c0) := (surrogate_iff (by omega)).mpr (by omega)
    have leads : CBU_IS_SURROGATE_LEAD (code_point / 1024 + 0xd7c0) := by
      rw [lead_surrogate_iff]
      omega
    have trails : CBU16_IS_TRAIL (0xdc00 + code_point % 1024) := (trail_surrogate_iff (by omega)).mpr (by omega)
    have supplementary : CBU16_GET_SUPPLEMENTARY (code_point / 1024 + 0xd7c0) (0xdc00 + code_point % 1024) = code_point := by
      rw [CBU16_GET_SUPPLEMENTARY_eq]
      omega
    rw [lead,trail,List.cons_append,List.singleton_append,ReadUTF16.eq_def]
    dsimp only
    rw [if_pos surrogate,if_pos ⟨leads,trails⟩,supplementary,Option.filter_some,if_pos valid]

/-! ### Whole texts -/

/-- The UTF-8 of a text. -/
def utf8 (text : List Char) : List UInt8 := text.flatMap String.utf8EncodeChar

/-- The UTF-16 of a text. -/
def utf16 (text : List Char) : WString := text.flatMap fun c => WriteUTF16 c.toNat

theorem valid_char (c : Char) : IsValidCodepoint c.toNat := by
  rw [scalar_iff]
  have valid := c.valid
  simp only [UInt32.isValidChar,Nat.isValidChar] at valid
  change c.val.toNat < _ ∨ _ ≤ c.val.toNat ∧ c.val.toNat ≤ _
  omega

theorem lead_toUInt8 {n a bits : Nat} (low : bits < 2 ^ n) (byte : 2 ^ n * a + 2 ^ n ≤ 256) :
    (bits ||| 2 ^ n * a).toUInt8 = UInt8.ofNat (bits + 2 ^ n * a) := by
  refine UInt8.toNat_inj.mp ((lead_toNat low byte).trans ?_)
  exact ((Nat.mod_eq_of_lt (by omega)).trans (Nat.add_comm ..)).symm

/-- What is written for a character is its UTF-8. -/
theorem WriteUTF8_char (c : Char) : WriteUTF8 c.toNat = String.utf8EncodeChar c := by
  have scalar := scalar_iff.mp (valid_char c)
  have six (bits : Nat) : (bits &&& 0x3f ||| 0x80).toUInt8 = UInt8.ofNat (bits % 0x40 + 0x80) := by
    refine UInt8.toNat_inj.mp ((trail_toNat bits).trans ?_)
    exact ((Nat.mod_eq_of_lt (by omega)).trans (Nat.add_comm ..)).symm
  have same : c.val.toNat = c.toNat := rfl
  rw [WriteUTF8,String.utf8EncodeChar.eq_def]
  simp only [six,Nat.shiftRight_eq_div_pow,same]
  split
  · rfl
  split
  · have lead : (c.toNat / 2 ^ 6 ||| 0xc0).toUInt8 = UInt8.ofNat (c.toNat / 64 % 0x20 + 0xc0) := by
      rw [Nat.mod_eq_of_lt (by omega)]
      exact @lead_toUInt8 6 3 _ (by omega) (by omega)
    rw [lead]
  split
  · have lead : (c.toNat / 2 ^ 12 ||| 0xe0).toUInt8 = UInt8.ofNat (c.toNat / 4096 % 0x10 + 0xe0) := by
      rw [Nat.mod_eq_of_lt (by omega)]
      exact @lead_toUInt8 5 7 _ (by omega) (by omega)
    rw [lead]
  · have lead : (c.toNat / 2 ^ 18 ||| 0xf0).toUInt8 = UInt8.ofNat (c.toNat / 262144 % 0x08 + 0xf0) := by
      rw [Nat.mod_eq_of_lt (by omega)]
      exact @lead_toUInt8 4 15 _ (by omega) (by omega)
    rw [lead]

section ConverUnicode
variable {Source Dest : Type} {read : List Source → Option Nat × List Source} {write : Nat → List Dest}
  {encode : Char → List Source} (reads : ∀ c rest, read (encode c ++ rest) = (some c.toNat,rest))
  (some_ : ∀ c, encode c ≠ [])
include reads some_

/-- Text is converted character by character, whatever follows it. -/
theorem ConverUnicodeAll_append (text : List Char) (rest : List Source) (n : Nat) :
    ConverUnicodeAll read write (text.length + n) (text.flatMap encode ++ rest) =
      text.flatMap (fun c => write c.toNat) ++ ConverUnicodeAll read write n rest := by
  induction text with
  | nil => rw [List.length_nil,Nat.zero_add,List.flatMap_nil,List.flatMap_nil,List.nil_append,List.nil_append]
  | cons c text ih =>
    obtain ⟨first,others,starts⟩ := List.exists_cons_of_ne_nil (some_ c)
    have reading := reads c (text.flatMap encode ++ rest)
    rw [List.length_cons,Nat.add_right_comm,List.flatMap_cons,List.flatMap_cons,List.append_assoc,List.append_assoc,← ih]
    rw [starts,List.cons_append] at reading ⊢
    rw [ConverUnicodeAll,reading]
    · rfl
    · simp

omit reads in
theorem length_encode (text : List Char) : text.length ≤ (text.flatMap encode).length := by
  induction text with
  | nil => exact le_rfl
  | cons c text ih =>
    have one := List.length_pos_of_ne_nil (some_ c)
    rw [List.length_cons,List.flatMap_cons,List.length_append]
    omega

theorem ConverUnicode_encode (text : List Char) (short : (text.flatMap encode).length < 2 ^ 31) :
    ConverUnicode read write (text.flatMap encode) = text.flatMap fun c => write c.toNat := by
  have whole : (Int32.ofNat (text.flatMap encode).length).toInt.toNat = (text.flatMap encode).length := by
    rw [Int32.toInt_ofNat_of_lt short,Int.toNat_natCast]
  obtain ⟨n,enough⟩ := Nat.exists_eq_add_of_le (length_encode some_ text)
  have converted := @ConverUnicodeAll_append Source Dest read write encode reads some_ text [] n
  rw [List.append_nil] at converted
  rw [ConverUnicode,whole,List.take_length,enough,converted]
  cases n <;> rw [ConverUnicodeAll,List.append_nil]

end ConverUnicode

theorem utf8EncodeChar_ne_nil (c : Char) : String.utf8EncodeChar c ≠ [] := by
  rw [← WriteUTF8_char,WriteUTF8]
  split
  · exact List.cons_ne_nil _ _
  split
  · exact List.cons_ne_nil _ _
  split
  · exact List.cons_ne_nil _ _
  · exact List.cons_ne_nil _ _

theorem WriteUTF16_ne_nil (c : Nat) : WriteUTF16 c ≠ [] := by
  rw [WriteUTF16]
  split
  · exact List.cons_ne_nil _ _
  · exact List.cons_ne_nil _ _

theorem ReadUTF8_char (c : Char) (rest : List UInt8) : ReadUTF8 (String.utf8EncodeChar c ++ rest) = (some c.toNat,rest) := by
  rw [← WriteUTF8_char]
  exact ReadUTF8_write (valid_char c) rest

theorem UTF8ToWide_utf8 {text : List Char} (short : (utf8 text).length < 2 ^ 31) : UTF8ToWide (utf8 text) = utf16 text :=
  ConverUnicode_encode ReadUTF8_char utf8EncodeChar_ne_nil text short

theorem WideToUTF8_utf16 {text : List Char} (short : (utf16 text).length < 2 ^ 31) : WideToUTF8 (utf16 text) = utf8 text := by
  have written := @ConverUnicode_encode _ _ ReadUTF16 WriteUTF8 _ (fun c => ReadUTF16_write (valid_char c))
    (fun c => WriteUTF16_ne_nil c.toNat) text short
  simp only [WriteUTF8_char] at written
  exact written

theorem length_utf16_le (text : List Char) : (utf16 text).length ≤ (utf8 text).length := by
  induction text with
  | nil => exact le_rfl
  | cons c text ih =>
    have each : (WriteUTF16 c.toNat).length ≤ (String.utf8EncodeChar c).length := by
      by_cases single : c.toNat ≤ 0xffff
      · rw [WriteUTF16,if_pos single]
        exact List.length_pos_of_ne_nil (utf8EncodeChar_ne_nil c)
      · rw [WriteUTF16,if_neg single,← WriteUTF8_char,WriteUTF8,if_neg (by omega),if_neg (by omega),if_neg single]
        exact Nat.le_add_left 2 2
    unfold utf16 utf8 at ih ⊢
    rw [List.flatMap_cons,List.flatMap_cons,List.length_append,List.length_append]
    omega

/-- A byte with its highest bit. -/
theorem or_high {mark : Nat} (high : mark.testBit 7) (bits : Nat) : 128 ≤ (bits ||| mark).toUInt8.toNat := by
  refine @Nat.ge_two_pow_of_testBit 7 _ ?_
  change ((bits ||| mark) % 2 ^ 8).testBit 7 = true
  rw [Nat.testBit_mod_two_pow,Nat.testBit_or,high,Bool.or_true]
  rfl

/-- Beyond ASCII no byte is ASCII. -/
theorem WriteUTF8_high (beyond : 128 ≤ code_point) : ∀ byte ∈ WriteUTF8 code_point, 128 ≤ byte.toNat := by
  have trail := fun bits => @or_high 0x80 (by decide) bits
  rw [WriteUTF8,if_neg (by omega)]
  split
  · simp only [List.forall_mem_cons]
    exact ⟨or_high (by decide) _,trail _,List.forall_mem_nil _⟩
  split
  · simp only [List.forall_mem_cons]
    exact ⟨or_high (by decide) _,trail _,trail _,List.forall_mem_nil _⟩
  · simp only [List.forall_mem_cons]
    exact ⟨or_high (by decide) _,trail _,trail _,trail _,List.forall_mem_nil _⟩

theorem WriteUTF16_high (beyond : 128 ≤ code_point) : ∀ c ∈ WriteUTF16 code_point, 128 ≤ c := by
  rw [WriteUTF16]
  split
  · exact List.forall_mem_singleton.mpr beyond
  · have trail : 0xdc00 ≤ code_point &&& 0x3ff ||| 0xdc00 := Nat.right_le_or
    simp only [List.forall_mem_cons]
    exact ⟨by omega,by omega,List.forall_mem_nil _⟩

theorem utf8_append (text more : List Char) : utf8 (text ++ more) = utf8 text ++ utf8 more := List.flatMap_append

theorem utf16_append (text more : List Char) : utf16 (text ++ more) = utf16 text ++ utf16 more := List.flatMap_append

theorem utf8_cons (c : Char) (text : List Char) : utf8 (c::text) = String.utf8EncodeChar c ++ utf8 text := List.flatMap_cons

theorem utf16_cons (c : Char) (text : List Char) : utf16 (c::text) = WriteUTF16 c.toNat ++ utf16 text := List.flatMap_cons

theorem utf16_injective {text other : List Char} (same : utf16 text = utf16 other) : text = other := by
  induction text generalizing other with
  | nil =>
    cases other with
    | nil => rfl
    | cons c other => exact absurd (List.append_eq_nil_iff.mp (same.symm.trans rfl)).1 (WriteUTF16_ne_nil c.toNat)
  | cons c text ih =>
    cases other with
    | nil => exact absurd (List.append_eq_nil_iff.mp (same.trans rfl)).1 (WriteUTF16_ne_nil c.toNat)
    | cons d other =>
      have read := congrArg ReadUTF16 same
      rw [utf16_cons,utf16_cons,ReadUTF16_write (valid_char c),ReadUTF16_write (valid_char d)] at read
      have code : c.toNat = d.toNat := Option.some.inj (congrArg Prod.fst read)
      rw [Char.toNat_inj.mp code,ih (congrArg Prod.snd read)]

theorem utf16_unit {text : List Char} {unit : Nat} (member : unit ∈ utf16 text) : 128 ≤ unit ∨ ∃ c ∈ text, unit = c.toNat := by
  obtain ⟨c,listed,inside⟩ := List.mem_flatMap.mp member
  by_cases ascii : c.toNat < 128
  · rw [WriteUTF16,if_pos (by omega)] at inside
    exact .inr ⟨c,listed,List.mem_singleton.mp inside⟩
  · exact .inl (WriteUTF16_high (Nat.not_lt.mp ascii) unit inside)

theorem utf8_byte {text : List Char} {byte : UInt8} (member : byte ∈ utf8 text) : 128 ≤ byte.toNat ∨ ∃ c ∈ text, byte.toNat = c.toNat := by
  obtain ⟨c,listed,inside⟩ := List.mem_flatMap.mp member
  by_cases high : 128 ≤ c.toNat
  · rw [← WriteUTF8_char] at inside
    exact .inl (WriteUTF8_high high byte inside)
  · rw [← WriteUTF8_char,WriteUTF8,if_pos (by omega),List.mem_singleton] at inside
    refine .inr ⟨c,listed,?_⟩
    rw [inside,Nat.toUInt8,UInt8.toNat_ofNat']
    omega

theorem utf8_injective {text other : List Char} (short : (utf8 text).length < 2 ^ 31) (same : utf8 text = utf8 other) : text = other := by
  have wide := UTF8ToWide_utf8 short
  rw [same] at short
  rw [same,UTF8ToWide_utf8 short] at wide
  exact (utf16_injective wide).symm

theorem ascii_text {text : List Char} (ascii : ∀ c ∈ text, c.toNat < 128) :
    utf8 text = text.map (fun c => c.toNat.toUInt8) ∧ utf16 text = text.map Char.toNat := by
  induction text with
  | nil => exact ⟨rfl,rfl⟩
  | cons c text ih =>
    have small := ascii c List.mem_cons_self
    obtain ⟨bytes,units⟩ := ih fun c member => ascii c (List.mem_cons_of_mem _ member)
    constructor
    · rw [utf8,List.flatMap_cons,← utf8,bytes,← WriteUTF8_char,WriteUTF8,if_pos (by omega)]
      rfl
    · rw [utf16_cons,units,WriteUTF16,if_pos (by omega)]
      rfl

end Migfm.Logic
