import Mathlib.Data.List.TakeWhile
import Migfm.Library.Words
import Migfm.Logic.StringConversions

/-! The conversions of public/basic/basic_util.cc with their indexes: what is read where, for either
width of `wchar_t`, and what is converted of bytes that are no UTF-8. -/
namespace Migfm.Logic.Unicode

inductive wchar_t
  | bits16
  | bits32

def wchar_t.bits : wchar_t → Nat
  | bits16 => 16
  | bits32 => 32

/-! ### Reading -/

section Bytes
variable (s : List UInt8)

/-- `CBU8_IS_TRAIL` of as many bytes as `count` has, from `i` on. -/
def skip : Nat → Nat → Option Nat
  | 0,i => some i
  | count + 1,i => do
    let trail ← s[i]?
    if CBU8_IS_TRAIL trail then skip count (i + 1) else some i

/-- A `case` of the `switch`. -/
def trail (c : Nat × Bool) (i : Nat) : Option ((Nat × Bool) × Nat) := s[i]?.map fun trail => (utf8_trail c trail,i + 1)

/-- Each `case` falls through to the next. -/
def trails (count c i : Nat) : Option ((Nat × Bool) × Nat) :=
  match count with
  | 1 => trail s (c,false) i
  | 2 => do
    let (c,i) ← trail s (c,false) i
    trail s c i
  | 3 => do
    let (c,i) ← trail s (c,false) i
    if c.1 < 0x110 then
      let (c,i) ← trail s c i
      trail s c i
    else some ((c.1,true),i)
  | _ => some ((c,true),i)

/-- The code point, or none for a negative one, and the index behind. No outcome: an index is outside, or its sum
with the count overflows. -/
def utf8_nextCharSafeBody (i c : Nat) : Option (Option Nat × Nat) :=
  let count := utf8_countTrailBytes c
  if 2 ^ 31 ≤ i + count then none
  else if i + count ≤ s.length then
    if count = 0 then some (none,i)
    else do
      let (c,last) ← trails s count (c &&& (1 <<< (6 - count) - 1)) i
      if c.2 ∨ c.1 < utf8_minLegal count ∨ CBU_IS_SURROGATE c.1 then
        let i ← skip s count i
        return (none,i)
      else some (some c.1,last)
  else do
    let i ← skip s (s.length - i) i
    return (none,i)

/-- The sign of a `char` is lost in the casts and under the mask. -/
def CBU8_NEXT (i : Nat) : Option (Option Nat × Nat) := do
  let c ← s[i]?
  if c.toNat < 0x80 then some (some c.toNat,i + 1)
  else if CBU8_IS_LEAD c.toNat then utf8_nextCharSafeBody s (i + 1) c.toNat
  else some (none,i + 1)

/-- With the index that the next round starts from. -/
def ReadUnicodeCharacter (i : Nat) : Option (Option Nat × Nat) := do
  let (code_point,i) ← CBU8_NEXT s i
  return (code_point.filter IsValidCodepoint,i)

end Bytes

/-- The same for `wchar_t`. -/
def ReadWideCharacter (src : WString) (i : Nat) : Option (Option Nat × Nat) := do
  let c ← src[i]?
  if CBU_IS_SURROGATE c then
    if ¬CBU_IS_SURROGATE_LEAD c ∨ src.length ≤ i + 1 then some (none,i + 1)
    else
      let trail ← src[i + 1]?
      if CBU16_IS_TRAIL trail then some ((some (CBU16_GET_SUPPLEMENTARY c trail)).filter IsValidCodepoint,i + 2)
      else some (none,i + 1)
  else some ((some c).filter IsValidCodepoint,i + 1)

/-! ### Converting -/

def WriteUnicodeCharacter (wide : wchar_t) (code_point : Nat) : WString :=
  if code_point ≤ 0xffff then [code_point % 2 ^ wide.bits]
  else [((code_point >>> 10) + 0xd7c0) % 2 ^ 16,(code_point &&& 0x3ff ||| 0xdc00) % 2 ^ 16]

section ConverUnicode
variable {Source Dest : Type} (read : List Source → Nat → Option (Option Nat × Nat)) (write : Nat → List Dest)

/-- So many rounds at most. -/
def loop (src : List Source) : Nat → Nat → List Dest → Option (List Dest)
  | 0,_,_ => none
  | n + 1,i,output =>
    if i < src.length then do
      let (code_point,i) ← read src i
      loop src n i (output ++ write (code_point.getD 0xfffd))
    else some output

/-- `success` is never changed. Nothing past the length as an `int32` may be read. -/
def ConverUnicode (n : Nat) (src : List Source) : Option (Bool × List Dest) :=
  let src_len32 := (Int32.ofNat src.length).toInt.toNat
  (loop read write (src.take src_len32) n 0 []).map (true,·)

end ConverUnicode

def UTF8ToWide (wide : wchar_t) : Nat → List UInt8 → Option (Bool × WString) :=
  ConverUnicode ReadUnicodeCharacter (WriteUnicodeCharacter wide)

def WideToUTF8 : Nat → WString → Option (Bool × List UInt8) := ConverUnicode ReadWideCharacter WriteUTF8

/-! ### What is promised -/

def Valid (s : List UInt8) : Prop := ∃ text, s = utf8 text

/-- The units of any bytes: characters, and what is no character. Of the latter, bytes behind the first do not
begin a character either. -/
inductive Units : List UInt8 → List (Option Char) → Prop
  | nil : Units [] []
  | char (c : Char) {rest : List UInt8} {units : List (Option Char)} (others : Units rest units) :
      Units (String.utf8EncodeChar c ++ rest) (some c::units)
  | skipped {byte : UInt8} {trails rest : List UInt8} {units : List (Option Char)} (inside : ∀ trail ∈ trails, CBU8_IS_TRAIL trail)
      (none_ : ∀ c, ¬String.utf8EncodeChar c <+: byte::trails ++ rest) (others : Units rest units) :
      Units (byte::trails ++ rest) (none::units)

/-- U+FFFD for what is no character. -/
def replaced (units : List (Option Char)) : List Char := units.map fun c => c.getD '\ufffd'

/-- The conversion comes to its end, with every unit written. -/
def Converts (wide : wchar_t) (s : List UInt8) (ok : Bool) : Prop :=
  ∃ n units, UTF8ToWide wide n s = some (ok,utf16 (replaced units)) ∧ Units s units

/-- UTF-8 comes back. Any bytes are converted, with a failure just if they are no UTF-8. -/
def Right (s : List UInt8) : Prop :=
  (Valid s → ∀ wide, ∃ n ok out m ok', UTF8ToWide wide n s = some (ok,out) ∧ WideToUTF8 m out = some (ok',s)) ∧
    ∀ wide, ∃ ok, Converts wide s ok ∧ (ok = false ↔ ¬Valid s)

/-! ### The indexes -/

section Bytes
variable {s : List UInt8} {i : Nat}

theorem drop_cons {α : Type} (s : List α) (i count : Nat) (within : i + (count + 1) ≤ s.length) :
    ∃ a, s.drop i = a::s.drop (i + 1) ∧ s[i]? = some a :=
  ⟨_,List.drop_eq_getElem_cons (by omega),List.getElem?_eq_getElem (by omega)⟩

theorem skip_eq {count : Nat} (within : i + count ≤ s.length) :
    skip s count i = some (i + (((s.drop i).take count).takeWhile CBU8_IS_TRAIL).length) := by
  induction count generalizing i with
  | zero => rfl
  | succ count ih =>
    obtain ⟨a,parts,here⟩ := drop_cons s i count within
    rw [skip,here,parts,List.take_succ_cons,List.takeWhile_cons,Option.bind_eq_bind,Option.bind_some]
    by_cases trails : CBU8_IS_TRAIL a
    · rw [if_pos trails,if_pos trails,ih (by omega),List.length_cons,Nat.add_right_comm i 1,Nat.add_assoc]
    · rw [if_neg trails,if_neg trails]
      rfl

theorem dropWhile_trails (s : List UInt8) (i : Nat) :
    (s.drop i).dropWhile CBU8_IS_TRAIL = s.drop (i + ((s.drop i).takeWhile CBU8_IS_TRAIL).length) := by
  have parts : (s.drop i).takeWhile CBU8_IS_TRAIL ++ (s.drop i).dropWhile CBU8_IS_TRAIL = s.drop i :=
    List.takeWhile_append_dropWhile
  rw [← List.drop_drop]
  exact List.drop_left.symm.trans (congrArg (List.drop _) parts)

theorem trail_eq {c : Nat × Bool} {a : UInt8} (here : s[i]? = some a) : trail s c i = some (utf8_trail c a,i + 1) := by
  rw [trail,here]
  rfl

/-- The bytes behind the lead byte are read as from their list. -/
theorem trails_eq {count : Nat} (c : Nat) (positive : count ≠ 0) (within : i + count ≤ s.length) :
    ∃ last, trails s count c i = some (utf8_trails c ((s.drop i).take count),last) ∧
      ((utf8_trails c ((s.drop i).take count)).2 = false → last = i + count) := by
  match count with
  | 0 => exact absurd rfl positive
  | 1 =>
    obtain ⟨a,parts,here⟩ := drop_cons s i 0 within
    rw [parts]
    exact ⟨i + 1,trail_eq here,fun _ => rfl⟩
  | 2 =>
    obtain ⟨a,parts,here⟩ := drop_cons s i 1 within
    obtain ⟨b,parts_b,here_b⟩ := drop_cons s (i + 1) 0 (by omega)
    rw [parts,parts_b,trails,trail_eq here]
    exact ⟨i + 2,trail_eq here_b,fun _ => rfl⟩
  | 3 =>
    obtain ⟨a,parts,here⟩ := drop_cons s i 2 within
    obtain ⟨b,parts_b,here_b⟩ := drop_cons s (i + 1) 1 (by omega)
    obtain ⟨d,parts_d,here_d⟩ := drop_cons s (i + 1 + 1) 0 (by omega)
    rw [parts,parts_b,parts_d,trails,trail_eq here]
    dsimp only [Option.bind_eq_bind,Option.bind_some,List.take_succ_cons,List.take_zero,utf8_trails]
    by_cases low : (utf8_trail (c,false) a).1 < 0x110
    · rw [if_pos low,if_pos low,trail_eq here_b]
      exact ⟨i + 3,trail_eq here_d,fun _ => rfl⟩
    · rw [if_neg low,if_neg low]
      exact ⟨i + 1,rfl,nofun⟩
  | count + 4 =>
    obtain ⟨a,parts,-⟩ := drop_cons s i (count + 3) within
    obtain ⟨b,parts_b,-⟩ := drop_cons s (i + 1) (count + 2) (by omega)
    obtain ⟨d,parts_d,-⟩ := drop_cons s (i + 1 + 1) (count + 1) (by omega)
    obtain ⟨e,parts_e,-⟩ := drop_cons s (i + 1 + 1 + 1) count (by omega)
    rw [parts,parts_b,parts_d,parts_e]
    exact ⟨i,rfl,nofun⟩

/-- The first of the bytes that follow. -/
theorem utf8_nextCharSafeBody_eq {c : Nat} (before : i ≤ s.length) (small : i + utf8_countTrailBytes c < 2 ^ 31) :
    ∃ last, utf8_nextCharSafeBody s i c = some ((Logic.utf8_nextCharSafeBody c (s.drop i)).1,last) ∧
      (Logic.utf8_nextCharSafeBody c (s.drop i)).2 = s.drop last ∧ i ≤ last ∧ last ≤ s.length := by
  rw [utf8_nextCharSafeBody,Logic.utf8_nextCharSafeBody,List.length_drop]
  dsimp only
  rw [if_neg (Nat.not_le.mpr small)]
  generalize utf8_countTrailBytes c = count at small ⊢
  by_cases enough : i + count ≤ s.length
  · have enough_drop : count ≤ s.length - i := by omega
    rw [if_pos enough,if_pos enough_drop]
    by_cases zero : count = 0
    · rw [if_pos zero,if_pos zero]
      exact ⟨i,rfl,rfl,Nat.le_refl i,before⟩
    · rw [if_neg zero,if_neg zero]
      obtain ⟨last,read,legal⟩ := trails_eq (c &&& (1 <<< (6 - count) - 1)) zero enough
      rw [read,Option.bind_eq_bind,Option.bind_some]
      generalize utf8_trails (c &&& (1 <<< (6 - count) - 1)) ((s.drop i).take count) = result at legal ⊢
      dsimp only
      by_cases wrong : result.2 ∨ result.1 < utf8_minLegal count ∨ CBU_IS_SURROGATE result.1
      · rw [if_pos wrong,if_pos wrong,skip_eq enough]
        have length := (List.takeWhile_prefix (l := (s.drop i).take count) CBU8_IS_TRAIL).length_le
        rw [List.length_take] at length
        refine ⟨_,rfl,?_,Nat.le_add_right ..,by omega⟩
        rw [List.drop_drop]
      · rw [if_neg wrong,if_neg wrong,legal (Bool.eq_false_iff.mpr fun illegal => wrong (.inl illegal))]
        exact ⟨i + count,rfl,by rw [List.drop_drop],Nat.le_add_right ..,enough⟩
  · have enough_drop : ¬count ≤ s.length - i := by omega
    have all : (s.drop i).take (s.length - i) = s.drop i := List.take_of_length_le (by rw [List.length_drop])
    have length := (List.takeWhile_prefix (l := s.drop i) CBU8_IS_TRAIL).length_le
    rw [List.length_drop] at length
    rw [if_neg enough,if_neg enough_drop,skip_eq (by omega),all]
    exact ⟨_,rfl,dropWhile_trails s i,Nat.le_add_right ..,by omega⟩

end Bytes

/-! ### What is read is written so -/

section Bytes
variable {s rest : List UInt8} {cp : Nat}

theorem is_trail_iff (byte : UInt8) : CBU8_IS_TRAIL byte ↔ 0x80 ≤ byte.toNat ∧ byte.toNat < 0xc0 := by
  have masked : byte.toNat &&& 0xc0 = 2 ^ 6 * (byte.toNat / 2 ^ 6 % 2 ^ 2) := and_high byte.toNat 6 2
  have small := byte.toNat_lt
  rw [CBU8_IS_TRAIL,masked,decide_eq_true_iff]
  omega

theorem utf8_trail_legal {c : Nat × Bool} {byte : UInt8} (legal : (utf8_trail c byte).2 = false) :
    c.2 = false ∧ ∃ y, y < 64 ∧ byte.toNat = 0x80 + y ∧ utf8_trail c byte = (64 * c.1 + y,false) := by
  obtain ⟨before,isTrail⟩ := Bool.or_eq_false_iff.mp legal
  rw [Bool.not_eq_false'] at isTrail
  obtain ⟨low,high⟩ := (is_trail_iff byte).mp isTrail
  have same : byte.toNat = 0x80 + (byte.toNat - 0x80) % 64 := by omega
  refine ⟨before,byte.toNat - 0x80,by omega,by omega,?_⟩
  have read := utf8_trail_eq same c.1 c.2
  rw [Nat.mod_eq_of_lt (by omega),before] at read
  rw [← before] at read
  exact read.trans (by rw [before])

/-- A byte with six bits. -/
theorem trail_byte {byte : UInt8} {bits y : Nat} (same : byte.toNat = 0x80 + y) (low : bits % 64 = y) :
    (bits &&& 0x3f ||| 0x80).toUInt8 = byte := by
  apply UInt8.toNat_inj.mp
  rw [trail_toNat,low,same]

theorem lead_byte {n a bits : Nat} {byte : UInt8} (same : byte.toNat = 2 ^ n * a + bits) (low : bits < 2 ^ n)
    (small : 2 ^ n * a + 2 ^ n ≤ 256) : (bits ||| 2 ^ n * a).toUInt8 = byte := by
  apply UInt8.toNat_inj.mp
  rw [lead_toNat low small,same]

/-- The bytes of a sequence that is not illegal, by their count. -/
theorem trails_legal {lead : UInt8} {count : Nat} {bytes : List UInt8} (isLead : 0xc0 ≤ lead.toNat) (positive : count ≠ 0)
    (counts : utf8_countTrailBytes lead.toNat = count) (length : bytes.length = count)
    (legal : (utf8_trails (lead.toNat &&& (1 <<< (6 - count) - 1)) bytes).2 = false)
    (minimal : utf8_minLegal count ≤ (utf8_trails (lead.toNat &&& (1 <<< (6 - count) - 1)) bytes).1) :
    WriteUTF8 (utf8_trails (lead.toNat &&& (1 <<< (6 - count) - 1)) bytes).1 = lead::bytes ∧
      (utf8_trails (lead.toNat &&& (1 <<< (6 - count) - 1)) bytes).1 < 0x110000 := by
  have small := lead.toNat_lt
  have ranges : (count = 1 ∧ lead.toNat < 0xe0) ∨ (count = 2 ∧ 0xe0 ≤ lead.toNat ∧ lead.toNat < 0xf0) ∨
      (count = 3 ∧ 0xf0 ≤ lead.toNat ∧ lead.toNat < 0xf8) ∨ 4 ≤ count := by
    rw [utf8_countTrailBytes] at counts
    split_ifs at counts <;> omega
  rcases ranges with ⟨rfl,below⟩ | ⟨rfl,above,below⟩ | ⟨rfl,above,below⟩ | many
  · obtain ⟨a,rfl⟩ := List.length_eq_one_iff.mp length
    have masked : lead.toNat &&& (1 <<< (6 - 1) - 1) = lead.toNat % 2 ^ 5 := Nat.and_two_pow_sub_one_eq_mod _ 5
    rw [masked,utf8_trails] at legal minimal ⊢
    obtain ⟨-,y,bound,byte,read⟩ := utf8_trail_legal legal
    rw [read,utf8_minLegal] at minimal
    rw [read]
    dsimp only at minimal ⊢
    refine ⟨?_,by omega⟩
    rw [WriteUTF8,if_neg (by omega),if_pos (by omega),trail_byte byte (by omega),Nat.shiftRight_eq_div_pow]
    exact congrArg (·::[a]) (@lead_byte 6 3 _ _ (by omega) (by omega) (by omega))
  · obtain ⟨a,b,rfl⟩ := List.length_eq_two.mp length
    have masked : lead.toNat &&& (1 <<< (6 - 2) - 1) = lead.toNat % 2 ^ 4 := Nat.and_two_pow_sub_one_eq_mod _ 4
    rw [masked,utf8_trails] at legal minimal ⊢
    obtain ⟨legal_a,z,bound_z,byte_b,read_b⟩ := utf8_trail_legal legal
    obtain ⟨-,y,bound_y,byte_a,read_a⟩ := utf8_trail_legal legal_a
    rw [read_b,read_a,utf8_minLegal] at minimal
    rw [read_b,read_a]
    dsimp only at minimal ⊢
    refine ⟨?_,by omega⟩
    rw [WriteUTF8,if_neg (by omega),if_neg (by omega),if_pos (by omega),Nat.shiftRight_eq_div_pow,
      Nat.shiftRight_eq_div_pow,trail_byte byte_a (by omega),trail_byte byte_b (by omega)]
    exact congrArg (·::[a,b]) (@lead_byte 5 7 _ _ (by omega) (by omega) (by omega))
  · obtain ⟨a,b,d,rfl⟩ := List.length_eq_three.mp length
    have masked : lead.toNat &&& (1 <<< (6 - 3) - 1) = lead.toNat % 2 ^ 3 := Nat.and_two_pow_sub_one_eq_mod _ 3
    rw [masked,utf8_trails] at legal minimal ⊢
    by_cases low : (utf8_trail (lead.toNat % 2 ^ 3,false) a).1 < 0x110
    · rw [if_pos low] at legal minimal ⊢
      obtain ⟨legal_b,x,bound_x,byte_d,read_d⟩ := utf8_trail_legal legal
      obtain ⟨legal_a,z,bound_z,byte_b,read_b⟩ := utf8_trail_legal legal_b
      obtain ⟨-,y,bound_y,byte_a,read_a⟩ := utf8_trail_legal legal_a
      rw [read_a] at low
      rw [read_d,read_b,read_a,utf8_minLegal] at minimal
      rw [read_d,read_b,read_a]
      dsimp only at low minimal ⊢
      refine ⟨?_,by omega⟩
      rw [WriteUTF8,if_neg (by omega),if_neg (by omega),if_neg (by omega),Nat.shiftRight_eq_div_pow,
        Nat.shiftRight_eq_div_pow,Nat.shiftRight_eq_div_pow,trail_byte byte_a (by omega),trail_byte byte_b (by omega),
        trail_byte byte_d (by omega)]
      exact congrArg (·::[a,b,d]) (@lead_byte 4 15 _ _ (by omega) (by omega) (by omega))
    · rw [if_neg low] at legal
      cases legal
  · rcases bytes with _ | ⟨_,_ | ⟨_,_ | ⟨_,_ | ⟨_,_⟩⟩⟩⟩
    any_goals simp at length; omega
    cases legal

end Bytes

section Bytes
variable {s rest : List UInt8}

/-- A lead byte and what follows: a character that is written so, or the bytes that can only follow. -/
theorem utf8_nextCharSafeBody_cases {lead : UInt8} (isLead : 0xc0 ≤ lead.toNat) (s : List UInt8) :
    (∃ cp rest, Logic.utf8_nextCharSafeBody lead.toNat s = (some cp,rest) ∧ IsValidCodepoint cp ∧ lead::s = WriteUTF8 cp ++ rest) ∨
      ∃ trails rest, Logic.utf8_nextCharSafeBody lead.toNat s = (none,rest) ∧ s = trails ++ rest ∧
        ∀ trail ∈ trails, CBU8_IS_TRAIL trail := by
  rw [Logic.utf8_nextCharSafeBody]
  dsimp only
  generalize counts : utf8_countTrailBytes lead.toNat = count
  by_cases enough : count ≤ s.length
  · rw [if_pos enough]
    by_cases zero : count = 0
    · rw [if_pos zero]
      exact .inr ⟨[],s,rfl,rfl,fun _ member => absurd member List.not_mem_nil⟩
    · rw [if_neg zero]
      have written := trails_legal isLead zero counts (List.length_take_of_le enough)
      generalize utf8_trails (lead.toNat &&& (1 <<< (6 - count) - 1)) (s.take count) = result at written ⊢
      by_cases wrong : result.2 ∨ result.1 < utf8_minLegal count ∨ CBU_IS_SURROGATE result.1
      · rw [if_pos wrong]
        refine .inr ⟨(s.take count).takeWhile CBU8_IS_TRAIL,_,rfl,?_,fun trail member => List.mem_takeWhile_imp member⟩
        obtain ⟨others,parts⟩ := (List.takeWhile_prefix CBU8_IS_TRAIL).trans (List.take_prefix count s)
        generalize (s.take count).takeWhile CBU8_IS_TRAIL = front at parts ⊢
        rw [← parts,List.drop_left]
      · rw [if_neg wrong]
        obtain ⟨legal,minimal,scalar⟩ := not_or.mp wrong |>.imp_right not_or.mp
        obtain ⟨same,bound⟩ := written (Bool.eq_false_iff.mpr legal) (Nat.not_lt.mp minimal)
        refine .inl ⟨_,_,rfl,?_,?_⟩
        · rw [surrogate_iff (by omega)] at scalar
          rw [scalar_iff]
          omega
        · rw [same,List.cons_append,List.take_append_drop]
  · rw [if_neg enough]
    exact .inr ⟨s.takeWhile CBU8_IS_TRAIL,_,rfl,List.takeWhile_append_dropWhile.symm,
      fun trail member => List.mem_takeWhile_imp member⟩

theorem exists_char {cp : Nat} (valid : IsValidCodepoint cp) : ∃ c : Char, c.toNat = cp := by
  have scalar := scalar_iff.mp valid
  have same : cp.toUInt32.toNat = cp := Nat.mod_eq_of_lt (by omega)
  refine ⟨⟨cp.toUInt32,?_⟩,same⟩
  rw [UInt32.isValidChar,Nat.isValidChar,same]
  omega

/-- What is read first: a character, or bytes of which none but the first may begin one. -/
theorem ReadUTF8_cases (byte : UInt8) (s : List UInt8) :
    (∃ c rest, ReadUTF8 (byte::s) = (some c.toNat,rest) ∧ byte::s = String.utf8EncodeChar c ++ rest) ∨
      ∃ trails rest, ReadUTF8 (byte::s) = (none,rest) ∧ s = trails ++ rest ∧ ∀ trail ∈ trails, CBU8_IS_TRAIL trail := by
  rw [ReadUTF8]
  by_cases ascii : byte.toNat < 0x80
  · have valid : IsValidCodepoint byte.toNat := scalar_iff.mpr (.inl (by omega))
    obtain ⟨c,same⟩ := exists_char valid
    rw [if_pos ascii]
    dsimp only
    rw [Option.filter_some,if_pos valid]
    refine .inl ⟨c,s,by rw [same],?_⟩
    have back : byte.toNat.toUInt8 = byte := UInt8.ofNat_toNat
    rw [← WriteUTF8_char,same,WriteUTF8,if_pos (by omega),back,List.singleton_append]
  · rw [if_neg ascii]
    by_cases isLead : CBU8_IS_LEAD byte.toNat
    · rw [if_pos isLead]
      rw [CBU8_IS_LEAD,decide_eq_true_iff] at isLead
      obtain ⟨cp,rest,read,valid,written⟩ | ⟨trails,rest,read,parts,inside⟩ := utf8_nextCharSafeBody_cases isLead.1 s
      · obtain ⟨c,rfl⟩ := exists_char valid
        rw [read]
        dsimp only
        rw [Option.filter_some,if_pos valid]
        rw [WriteUTF8_char] at written
        exact .inl ⟨c,rest,rfl,written⟩
      · rw [read]
        exact .inr ⟨trails,rest,rfl,parts,inside⟩
    · rw [if_neg isLead]
      exact .inr ⟨[],s,rfl,rfl,fun _ member => absurd member List.not_mem_nil⟩

end Bytes

/-! ### Rounds -/

section Reading
variable {s : List UInt8} {i : Nat}

/-- A read is that of the bytes that follow, unless the sum overflows; and then they are too few for a character. -/
theorem ReadUnicodeCharacter_eq (before : i < s.length) (small : s.length < 2 ^ 31) :
    ∃ last, (ReadUnicodeCharacter s i = some ((ReadUTF8 (s.drop i)).1,last) ∨
        ReadUnicodeCharacter s i = none ∧ (ReadUTF8 (s.drop i)).1 = none ∧ 2 ^ 31 ≤ s.length + 5) ∧
      (ReadUTF8 (s.drop i)).2 = s.drop last ∧ i < last ∧ last ≤ s.length := by
  obtain ⟨byte,parts,here⟩ := drop_cons s i 0 before
  rw [ReadUnicodeCharacter,CBU8_NEXT,here,parts,ReadUTF8]
  dsimp only [Option.bind_eq_bind,Option.bind_some]
  by_cases ascii : byte.toNat < 0x80
  · rw [if_pos ascii,if_pos ascii]
    exact ⟨i + 1,.inl rfl,rfl,Nat.lt_succ_self i,before⟩
  · rw [if_neg ascii,if_neg ascii]
    by_cases isLead : CBU8_IS_LEAD byte.toNat
    · rw [if_pos isLead,if_pos isLead]
      have most : utf8_countTrailBytes byte.toNat ≤ 5 := by
        rw [utf8_countTrailBytes]
        split_ifs <;> omega
      by_cases sum : i + 1 + utf8_countTrailBytes byte.toNat < 2 ^ 31
      · obtain ⟨last,read,left,after,inside⟩ := utf8_nextCharSafeBody_eq before sum
        rw [read]
        exact ⟨last,.inl rfl,left,after,inside⟩
      · have few : ¬utf8_countTrailBytes byte.toNat ≤ (s.drop (i + 1)).length := by
          rw [List.length_drop]
          omega
        have overflow : utf8_nextCharSafeBody s (i + 1) byte.toNat = none := by
          rw [utf8_nextCharSafeBody]
          exact if_pos (Nat.not_lt.mp sum)
        rw [overflow,Logic.utf8_nextCharSafeBody]
        dsimp only
        rw [if_neg few]
        have length := (List.takeWhile_prefix (l := s.drop (i + 1)) CBU8_IS_TRAIL).length_le
        rw [List.length_drop] at length
        refine ⟨i + 1 + ((s.drop (i + 1)).takeWhile CBU8_IS_TRAIL).length,.inr ⟨rfl,rfl,by omega⟩,
          dropWhile_trails s (i + 1),by omega,by omega⟩
    · rw [if_neg isLead,if_neg isLead]
      exact ⟨i + 1,.inl rfl,rfl,Nat.lt_succ_self i,before⟩

end Reading

theorem ReadWideCharacter_eq {src : WString} {i : Nat} (before : i < src.length) :
    ∃ last, ReadWideCharacter src i = some ((ReadUTF16 (src.drop i)).1,last) ∧ (ReadUTF16 (src.drop i)).2 = src.drop last ∧ i < last := by
  obtain ⟨c,parts,here⟩ := drop_cons src i 0 before
  rw [ReadWideCharacter,here,parts,ReadUTF16.eq_def]
  dsimp only [Option.bind_eq_bind,Option.bind_some]
  by_cases surrogate : CBU_IS_SURROGATE c
  · rw [if_pos surrogate,if_pos surrogate]
    by_cases last : src.length ≤ i + 1
    · rw [if_pos (.inr last),List.drop_of_length_le last]
      exact ⟨i + 1,rfl,(List.drop_of_length_le last).symm,Nat.lt_succ_self i⟩
    · obtain ⟨trail,parts_trail,here_trail⟩ := drop_cons src (i + 1) 0 (Nat.not_le.mp last)
      rw [parts_trail,here_trail]
      dsimp only [Option.bind_some]
      by_cases leads : CBU_IS_SURROGATE_LEAD c
      · rw [if_neg (not_or.mpr ⟨not_not.mpr leads,last⟩)]
        by_cases trails : CBU16_IS_TRAIL trail
        · rw [if_pos trails,if_pos ⟨leads,trails⟩]
          generalize (some (CBU16_GET_SUPPLEMENTARY c trail)).filter IsValidCodepoint = code_point
          exact ⟨i + 2,rfl,rfl,by omega⟩
        · rw [if_neg trails,if_neg fun both => trails both.2]
          exact ⟨i + 1,rfl,parts_trail.symm,Nat.lt_succ_self i⟩
      · rw [if_pos (.inl leads),if_neg fun both => leads both.1]
        exact ⟨i + 1,rfl,parts_trail.symm,Nat.lt_succ_self i⟩
  · rw [if_neg surrogate,if_neg surrogate]
    exact ⟨i + 1,rfl,rfl,Nat.lt_succ_self i⟩

/-! ### The loop -/

section Loop
variable {Source Dest : Type} {read : List Source → Nat → Option (Option Nat × Nat)}
  {readList : List Source → Option Nat × List Source} {write : Nat → List Dest} {src : List Source} {i n m : Nat} {output : List Dest}

/-- A round on the list. -/
theorem ConverUnicodeAll_some (some_ : src ≠ []) :
    ConverUnicodeAll readList write (m + 1) src =
      write ((readList src).1.getD 0xfffd) ++ ConverUnicodeAll readList write m (readList src).2 := by
  cases src with
  | nil => exact absurd rfl some_
  | cons c src => rfl

/-- If each read from the index is that from the list, as long as the rest is one of those promised, then the loop
converts the list. -/
theorem loop_eq {P : List Source → Prop}
    (each : ∀ i < src.length, P (src.drop i) → ∃ last, read src i = some ((readList (src.drop i)).1,last) ∧
      (readList (src.drop i)).2 = src.drop last ∧ i < last ∧ P (src.drop last))
    (start : P (src.drop i)) (rounds : src.length - i < n) (enough : src.length - i ≤ m) :
    loop read write src n i output = some (output ++ ConverUnicodeAll readList write m (src.drop i)) := by
  induction n generalizing i m output with
  | zero => exact absurd rounds (Nat.not_lt_zero _)
  | succ n ih =>
    rw [loop]
    by_cases more : i < src.length
    · obtain ⟨last,here,rest,later,promised⟩ := each i more start
      obtain ⟨m,rfl⟩ : ∃ k, m = k + 1 := ⟨m - 1,by omega⟩
      have some_ : src.drop i ≠ [] := by
        rw [ne_eq,List.drop_eq_nil_iff]
        omega
      rw [if_pos more,here,ConverUnicodeAll_some some_,rest,← List.append_assoc]
      exact ih promised (by omega) (by omega)
    · rw [if_neg more,List.drop_of_length_le (Nat.not_lt.mp more)]
      cases m <;> rw [ConverUnicodeAll,List.append_nil]

/-- What is written is no longer than what is read. -/
theorem loop_length {out : List Dest}
    (each : ∀ i < src.length, ∀ code_point last, read src i = some (code_point,last) →
      last ≤ src.length ∧ (write (code_point.getD 0xfffd)).length ≤ last - i ∧ i ≤ last)
    (before : i ≤ src.length) (ends : loop read write src n i output = some out) :
    out.length ≤ output.length + (src.length - i) := by
  induction n generalizing i output with
  | zero => cases ends
  | succ n ih =>
    rw [loop] at ends
    by_cases more : i < src.length
    · rw [if_pos more] at ends
      obtain ⟨⟨code_point,last⟩,here,rest⟩ := Option.bind_eq_some_iff.mp ends
      obtain ⟨inside,short,later⟩ := each i more code_point last here
      have least := ih inside rest
      rw [List.length_append] at least
      omega
    · rw [if_neg more] at ends
      cases ends
      exact Nat.le_add_right ..

theorem ConverUnicode_eq {P : List Source → Prop} (short : src.length < 2 ^ 31)
    (each : ∀ i < src.length, P (src.drop i) → ∃ last, read src i = some ((readList (src.drop i)).1,last) ∧
      (readList (src.drop i)).2 = src.drop last ∧ i < last ∧ P (src.drop last)) (start : P src) :
    ∃ n, ConverUnicode read write n src = some (true,Logic.ConverUnicode readList write src) := by
  have whole : (Int32.ofNat src.length).toInt.toNat = src.length := by
    rw [Int32.toInt_ofNat_of_lt short,Int.toNat_natCast]
  refine ⟨src.length + 1,?_⟩
  have begin_ : P (src.drop 0) := start
  rw [ConverUnicode,Logic.ConverUnicode,whole,List.take_length,loop_eq each begin_ (by omega) (Nat.le_refl _)]
  rfl

end Loop

/-! ### Units -/

section Whole
variable {wide : wchar_t} {s : List UInt8}

theorem WriteUnicodeCharacter_char (wide : wchar_t) (c : Char) : WriteUnicodeCharacter wide c.toNat = WriteUTF16 c.toNat := by
  have scalar := scalar_iff.mp (valid_char c)
  rw [WriteUnicodeCharacter,WriteUTF16]
  by_cases single : c.toNat ≤ 0xffff
  · have fits : c.toNat < 2 ^ wide.bits := by
      cases wide
      · exact Nat.lt_succ_of_le single
      · exact Nat.lt_of_le_of_lt single (by decide)
    rw [if_pos single,if_pos single,Nat.mod_eq_of_lt fits]
  · have lead : c.toNat >>> 10 = c.toNat / 1024 := Nat.shiftRight_eq_div_pow ..
    have masked : c.toNat &&& 0x3ff = c.toNat % 1024 := Nat.and_two_pow_sub_one_eq_mod _ 10
    have trail : c.toNat % 1024 ||| 0xdc00 = 0xdc00 + c.toNat % 1024 := @or_add 10 _ 55 (Nat.mod_lt _ (by decide))
    rw [if_neg single,if_neg single,lead,masked,trail,Nat.mod_eq_of_lt (by omega),Nat.mod_eq_of_lt (by omega)]

/-- The bytes that a read takes, by what it gives. -/
theorem ReadUTF8_units (some_ : s ≠ []) :
    (∃ c, (ReadUTF8 s).1 = some c.toNat ∧ s = String.utf8EncodeChar c ++ (ReadUTF8 s).2) ∨
      (ReadUTF8 s).1 = none ∧ ∃ byte trails, s = byte::trails ++ (ReadUTF8 s).2 ∧ (∀ trail ∈ trails, CBU8_IS_TRAIL trail) ∧
        ∀ c, ¬String.utf8EncodeChar c <+: byte::trails ++ (ReadUTF8 s).2 := by
  cases s with
  | nil => exact absurd rfl some_
  | cons byte s =>
    obtain ⟨c,rest,read,written⟩ | ⟨trails,rest,read,parts,inside⟩ := ReadUTF8_cases byte s
    · rw [read]
      exact .inl ⟨c,rfl,written⟩
    · have whole : byte::s = byte::trails ++ rest := by rw [parts,List.cons_append]
      rw [read]
      refine .inr ⟨rfl,byte,trails,whole,inside,?_⟩
      rintro c ⟨more,begins⟩
      rw [whole,← begins,ReadUTF8_char] at read
      cases congrArg Prod.fst read

theorem length_unit (some_ : s ≠ []) : (ReadUTF8 s).2.length +
    (WriteUnicodeCharacter wide ((ReadUTF8 s).1.getD 0xfffd)).length ≤ s.length := by
  obtain ⟨c,read,written⟩ | ⟨read,byte,trails,parts,-,-⟩ := ReadUTF8_units some_
  · have short := length_utf16_le [c]
    have total := congrArg List.length written
    rw [utf8,utf16,List.flatMap_singleton,List.flatMap_singleton] at short
    rw [List.length_append] at total
    rw [read,Option.getD_some,WriteUnicodeCharacter_char]
    omega
  · have total := congrArg List.length parts
    rw [List.length_append,List.length_cons] at total
    rw [read,Option.getD_none]
    exact Nat.le_trans (Nat.add_le_add_left (Nat.le_refl 1) _) (by omega)

/-- Any bytes have units, and these are what the list is converted to. -/
theorem exists_units (wide : wchar_t) (s : List UInt8) (n : Nat) (enough : s.length ≤ n) :
    ∃ units, Units s units ∧ ConverUnicodeAll ReadUTF8 (WriteUnicodeCharacter wide) n s = utf16 (replaced units) := by
  induction n generalizing s with
  | zero =>
    cases List.length_eq_zero_iff.mp (Nat.le_zero.mp enough)
    exact ⟨[],.nil,rfl⟩
  | succ n ih =>
    by_cases empty : s = []
    · subst empty
      exact ⟨[],.nil,rfl⟩
    · rw [ConverUnicodeAll_some empty]
      obtain ⟨c,read,written⟩ | ⟨read,byte,trails,parts,inside,none_⟩ := ReadUTF8_units empty
      · have shorter : (ReadUTF8 s).2.length ≤ n := by
          have total := congrArg List.length written
          have one := List.length_pos_of_ne_nil (utf8EncodeChar_ne_nil c)
          rw [List.length_append] at total
          omega
        obtain ⟨units,others,converted⟩ := ih _ shorter
        refine ⟨some c::units,written ▸ .char c others,?_⟩
        rw [read,converted,Option.getD_some,WriteUnicodeCharacter_char]
        exact (utf16_cons c (replaced units)).symm
      · have shorter : (ReadUTF8 s).2.length ≤ n := by
          have total := congrArg List.length parts
          rw [List.length_append,List.length_cons] at total
          omega
        obtain ⟨units,others,converted⟩ := ih _ shorter
        refine ⟨none::units,parts ▸ .skipped inside none_ others,?_⟩
        have replacement : (Char.ofNat 0xfffd).toNat = 0xfffd := by decide
        rw [read,converted,Option.getD_none,← replacement,WriteUnicodeCharacter_char]
        exact (utf16_cons _ (replaced units)).symm

/-- UTF-8 has its characters as units. -/
theorem Units.of_utf8 {units : List (Option Char)} (cut : Units s units) {text : List Char} (whole : s = utf8 text) :
    replaced units = text := by
  induction cut generalizing text with
  | nil =>
    cases text with
    | nil => rfl
    | cons d text => exact absurd (List.append_eq_nil_iff.mp (whole.trans (utf8_cons d text)).symm).1 (utf8EncodeChar_ne_nil d)
  | char c others ih =>
    cases text with
    | nil => exact absurd (List.append_eq_nil_iff.mp whole).1 (utf8EncodeChar_ne_nil c)
    | cons d text =>
      have read := congrArg ReadUTF8 (whole.trans (utf8_cons d text))
      rw [ReadUTF8_char,ReadUTF8_char] at read
      have same : c = d := Char.toNat_inj.mp (Option.some.inj (congrArg Prod.fst read))
      rw [same]
      exact congrArg (d::·) (ih (congrArg Prod.snd read))
  | skipped inside none_ others ih =>
    cases text with
    | nil => cases whole
    | cons d text => exact absurd ⟨utf8 text,(whole.trans (utf8_cons d text)).symm⟩ (none_ d)

/-- If no sum overflows along the list, the bytes are converted. -/
theorem converts_of {P : List UInt8 → Prop} (short : s.length < 2 ^ 31) (start : P s)
    (each : ∀ i < s.length, P (s.drop i) → ReadUnicodeCharacter s i ≠ none ∧ P (ReadUTF8 (s.drop i)).2) (wide : wchar_t) :
    Converts wide s true := by
  have along : ∀ i < s.length, P (s.drop i) → ∃ last, ReadUnicodeCharacter s i = some ((ReadUTF8 (s.drop i)).1,last) ∧
      (ReadUTF8 (s.drop i)).2 = s.drop last ∧ i < last ∧ P (s.drop last) := by
    intro i before promised
    obtain ⟨calm,after⟩ := each i before promised
    obtain ⟨last,read | ⟨overflow,-,-⟩,rest,later,-⟩ := ReadUnicodeCharacter_eq before short
    · exact ⟨last,read,rest,later,rest ▸ after⟩
    · exact absurd overflow calm
  obtain ⟨n,converted⟩ := @ConverUnicode_eq _ _ _ ReadUTF8 (WriteUnicodeCharacter wide) s P short along start
  have whole : (Int32.ofNat s.length).toInt.toNat = s.length := by
    rw [Int32.toInt_ofNat_of_lt short,Int.toNat_natCast]
  obtain ⟨units,cut,same⟩ := exists_units wide s s.length (Nat.le_refl _)
  rw [Logic.ConverUnicode,whole,List.take_length,same] at converted
  exact ⟨n,units,converted,cut⟩

theorem converts_of_short (short : s.length + 5 < 2 ^ 31) (wide : wchar_t) : Converts wide s true := by
  refine @converts_of s (fun _ => True) (by omega) trivial ?_ wide
  intro i before _
  refine ⟨fun overflow => ?_,trivial⟩
  obtain ⟨_,read | ⟨-,-,long⟩,-⟩ := ReadUnicodeCharacter_eq before (by omega)
  · cases overflow.symm.trans read
  · omega

theorem converts_of_valid (valid : Valid s) (short : s.length < 2 ^ 31) (wide : wchar_t) : Converts wide s true := by
  refine converts_of short valid ?_ wide
  rintro i before ⟨text,whole⟩
  cases text with
  | nil =>
    rw [utf8,List.flatMap_nil,List.drop_eq_nil_iff] at whole
    omega
  | cons c text =>
    have read : ReadUTF8 (s.drop i) = (some c.toNat,utf8 text) := by
      rw [whole,utf8_cons]
      exact ReadUTF8_char c (utf8 text)
    refine ⟨fun overflow => ?_,text,congrArg Prod.snd read⟩
    obtain ⟨_,found | ⟨-,none_,-⟩,-⟩ := ReadUnicodeCharacter_eq before short
    · cases overflow.symm.trans found
    · cases none_.symm.trans (congrArg Prod.fst read)

/-- No more is written than bytes are counted. -/
theorem length_converted {n : Nat} {ok : Bool} {out : WString} (ends : UTF8ToWide wide n s = some (ok,out)) :
    ok = true ∧ out.length ≤ (Int32.ofNat s.length).toInt.toNat := by
  obtain ⟨_,looped,same⟩ := Option.map_eq_some_iff.mp ends
  cases same
  have bound := (Int32.ofNat s.length).toInt_lt
  have taken := List.length_take_le (Int32.ofNat s.length).toInt.toNat s
  refine ⟨rfl,?_⟩
  have least := loop_length (fun i before code_point last read => ?_) (Nat.zero_le _) looped
  · rw [List.length_nil] at least
    omega
  · obtain ⟨_,found | ⟨overflow,-,-⟩,rest,later,inside⟩ := ReadUnicodeCharacter_eq before (by omega)
    · cases read.symm.trans found
      have some_ : (s.take (Int32.ofNat s.length).toInt.toNat).drop i ≠ [] := by
        rw [ne_eq,List.drop_eq_nil_iff]
        omega
      have unit := @length_unit wide _ some_
      rw [rest,List.length_drop,List.length_drop] at unit
      exact ⟨inside,by omega,by omega⟩
    · cases read.symm.trans overflow

theorem length_utf8_le (text : List Char) : (utf8 text).length ≤ 3 * (utf16 text).length := by
  induction text with
  | nil => exact Nat.le_refl 0
  | cons c text ih =>
    have each : (String.utf8EncodeChar c).length ≤ 3 * (WriteUTF16 c.toNat).length := by
      rw [← WriteUTF8_char,WriteUTF8,WriteUTF16]
      split_ifs <;> simp only [List.length_cons,List.length_nil] <;> omega
    rw [utf8_cons,utf16_cons,List.length_append,List.length_append]
    omega

/-- The length must fit the `int32`. -/
theorem Converts.short (valid : Valid s) {ok : Bool} (converts : Converts wide s ok) : s.length < 2 ^ 31 := by
  obtain ⟨text,whole⟩ := valid
  obtain ⟨n,units,ends,cut⟩ := converts
  have counted := (length_converted ends).2
  rw [cut.of_utf8 whole] at counted
  have least := length_utf8_le text
  obtain ⟨i,wraps⟩ := Library.Words.toInt_ofNat_wraps s.length
  have bound := (Int32.ofNat s.length).toInt_lt
  rw [← whole] at least
  by_contra long
  omega

theorem round_trip (valid : Valid s) (short : s.length < 2 ^ 31) (wide : wchar_t) :
    ∃ n ok out m ok', UTF8ToWide wide n s = some (ok,out) ∧ WideToUTF8 m out = some (ok',s) := by
  obtain ⟨text,rfl⟩ := valid
  obtain ⟨n,units,ends,cut⟩ := converts_of_valid ⟨text,rfl⟩ short wide
  rw [cut.of_utf8 rfl] at ends
  have short_wide := Nat.lt_of_le_of_lt (length_utf16_le text) short
  obtain ⟨m,back⟩ := @ConverUnicode_eq _ _ ReadWideCharacter ReadUTF16 WriteUTF8 (utf16 text) (fun _ => True) short_wide
    (fun i before _ => (ReadWideCharacter_eq before).imp fun _ found => ⟨found.1,found.2.1,found.2.2,trivial⟩) trivial
  have written := WideToUTF8_utf16 short_wide
  rw [Logic.WideToUTF8] at written
  rw [written] at back
  exact ⟨n,true,utf16 text,m,true,ends,back⟩

end Whole

theorem conversion_iff (s : List UInt8) :
    (Right s ↔ Valid s ∧ s.length < 2 ^ 31) ∧ (s.length + 5 < 2 ^ 31 → ∀ wide, Converts wide s true) := by
  refine ⟨⟨fun right => ?_,fun ⟨valid,short⟩ => ?_⟩,converts_of_short⟩
  · obtain ⟨ok,converts,failure⟩ := right.2 .bits32
    have valid : Valid s := by
      obtain ⟨n,units,ends,-⟩ := converts
      rw [(length_converted ends).1] at failure
      by_contra invalid
      cases failure.mpr invalid
    exact ⟨valid,converts.short valid⟩
  · refine ⟨fun _ wide => round_trip valid short wide,fun wide => ⟨true,converts_of_valid valid short wide,?_⟩⟩
    exact iff_of_false Bool.true_eq_false.mp fun invalid => invalid valid

/-- A byte that begins nothing is converted, and no failure is reported. -/
theorem no_failure : ¬Right [0xff] := by
  intro right
  obtain ⟨ok,⟨n,units,ends,-⟩,failure⟩ := right.2 .bits32
  rw [(length_converted ends).1] at failure
  have invalid : ¬Valid [0xff] := by
    rintro ⟨text,whole⟩
    cases text with
    | nil => cases whole
    | cons c text =>
      have read := ReadUTF8_char c (utf8 text)
      rw [← utf8_cons,← whole] at read
      cases congrArg Prod.fst read
  cases failure.mpr invalid

end Migfm.Logic.Unicode
