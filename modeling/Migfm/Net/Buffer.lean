import Migfm.Library.Ring
import Migfm.Library.Runs
import Migfm.Logic.ValueSerializer
import Migfm.Public.Md5sum
import Migfm.Net.EchoConn

/-! The text buffers of chat/core/buffer.c. `malloc` and `realloc` succeed, and
`fresh` is what they leave in new memory. Copying outside of a block has no outcome. -/
namespace Migfm.Net.Buffer
open Library.Ring Library.Runs
open Logic (decimal decimalDigits decimalDigits_lt decimalDigits_ge)
open Public.Md5sum (hexDigit hex)

def BUFFER_MAX_REUSE_SIZE : Nat := 4 * 1024
def BUFFER_PIECE_SIZE : Nat := 64

/-- `ptr` is the block, empty where the pointer is NULL. -/
structure buffer where
  ptr : List UInt8
  used : Nat
  size : Nat

def buffer_init : buffer := ⟨[],0,0⟩

def malloc (fresh : Nat → UInt8) (size : Nat) : List UInt8 := (List.range size).map fresh

def realloc (fresh : Nat → UInt8) (ptr : List UInt8) (size : Nat) : List UInt8 :=
  ptr.take size ++ malloc fresh (size - ptr.length)

def buffer.memcpy (b : buffer) (offset : Nat) (bytes : List UInt8) : Option buffer :=
  if offset + bytes.length ≤ b.ptr.length then some { b with ptr := overwrite b.ptr offset bytes } else none

/-- The first `size` bytes. -/
def buffer.load (b : buffer) (size : Nat) : Option (List UInt8) :=
  if size ≤ b.ptr.length then some (b.ptr.take size) else none

/-- What `strlen` finds at a pointer to bytes with a NUL behind them. -/
def c_str (s : List UInt8) : List UInt8 := s.takeWhile (· ≠ 0)

/-! ### Allocation -/

/-- A multiple of `BUFFER_PIECE_SIZE`, always more than `size`. -/
def pieces (size : Nat) : Nat := size + (BUFFER_PIECE_SIZE - size % BUFFER_PIECE_SIZE)

def buffer_prepare_copy (fresh : Nat → UInt8) (b : buffer) (size : Nat) : buffer :=
  if b.size = 0 ∨ size > b.size then { ptr := malloc fresh (pieces size),used := 0,size := pieces size }
  else { b with used := 0 }

def buffer_prepare_append (fresh : Nat → UInt8) (b : buffer) (size : Nat) : buffer :=
  if b.size = 0 then { ptr := malloc fresh (pieces size),used := 0,size := pieces size }
  else if b.used + size > b.size then
    { b with ptr := realloc fresh b.ptr (pieces (b.size + size)),size := pieces (b.size + size) }
  else b

def buffer_reset (b : buffer) : Option buffer :=
  if b.size > BUFFER_MAX_REUSE_SIZE then some ⟨[],0,0⟩
  else if b.size ≠ 0 then do
    let b ← b.memcpy 0 [0]
    return { b with used := 0 }
  else some { b with used := 0 }

/-! ### Copying -/

def buffer_copy_string (fresh : Nat → UInt8) (b : buffer) (s : List UInt8) : Option buffer := do
  let s_len := (c_str s).length + 1
  let b ← (buffer_prepare_copy fresh b s_len).memcpy 0 (c_str s ++ [0])
  return { b with used := s_len }

def buffer_copy_string_len (fresh : Nat → UInt8) (b : buffer) (src : List UInt8) : Option buffer := do
  let b ← (buffer_prepare_copy fresh b src.length).memcpy 0 src
  let b ← b.memcpy src.length [0]
  return { b with used := src.length + 1 }

def buffer_copy_string_buffer (fresh : Nat → UInt8) (b src : buffer) : Option buffer :=
  if src.used = 0 then buffer_reset b
  else do buffer_copy_string_len fresh b (← src.load (src.used - 1))

/-! ### Appending -/

def buffer_append_memory (fresh : Nat → UInt8) (b : buffer) (s : List UInt8) : Option buffer :=
  if s.length = 0 then some b
  else do
    let b ← (buffer_prepare_append fresh b s.length).memcpy (buffer_prepare_append fresh b s.length).used s
    return { b with used := b.used + s.length }

def buffer_copy_memory (fresh : Nat → UInt8) (b : buffer) (s : List UInt8) : Option buffer :=
  buffer_append_memory fresh { b with used := 0 } s

/-- `if(b->used==0) b->used++;` -/
def buffer.begin_ (b : buffer) : buffer := if b.used = 0 then { b with used := 1 } else b

def buffer_append_string (fresh : Nat → UInt8) (b : buffer) (s : List UInt8) : Option buffer := do
  let s_len := (c_str s).length
  let b := (buffer_prepare_append fresh b (s_len + 1)).begin_
  let b ← b.memcpy (b.used - 1) (c_str s ++ [0])
  return { b with used := b.used + s_len }

def buffer_append_string_len (fresh : Nat → UInt8) (b : buffer) (s : List UInt8) : Option buffer :=
  if s.length = 0 then some b
  else do
    let b := (buffer_prepare_append fresh b (s.length + 1)).begin_
    let b ← b.memcpy (b.used - 1) s
    let b := { b with used := b.used + s.length }
    b.memcpy (b.used - 1) [0]

def buffer_append_string_buffer (fresh : Nat → UInt8) (b src : buffer) : Option buffer :=
  if src.used = 0 then some b
  else do buffer_append_string_len fresh b (← src.load (src.used - 1))

/-! ### Numbers -/

/-- The digits as the first loop of `LI_ltostr` leaves them, the last one first. -/
def digits (val : Int64) : List UInt8 :=
  if val > 9 then (48 + val % 10).toInt8.toUInt8::digits (val / 10) else [(48 + val).toInt8.toUInt8]
termination_by val.toInt.toNat
decreasing_by
  rename_i large
  have above : 9 < val.toInt := Int64.lt_iff_toInt_lt.mp large
  rw [Int64.toInt_div_of_ne_right _ _ (by decide)]
  change (val.toInt.tdiv 10).toNat < val.toInt.toNat
  rw [Int.tdiv_eq_ediv_of_nonneg (by omega)]
  omega

/-- Its second loop, which swaps what lies at `buf` and at `end_`. -/
def swaps (text : List UInt8) (buf end_ : Nat) : List UInt8 :=
  if buf < end_ then swaps ((text.set buf (text.getD end_ 0)).set end_ (text.getD buf 0)) (buf + 1) (end_ - 1) else text
termination_by end_ - buf

/-- The text without its NUL. A `long` has 64 bits. -/
def LI_ltostr (val : Int64) : List UInt8 :=
  if val < 0 then 45::swaps (digits (-val)) 0 ((digits (-val)).length - 1)
  else swaps (digits val) 0 ((digits val).length - 1)

def buffer_append_long (fresh : Nat → UInt8) (b : buffer) (val : Int64) : Option buffer := do
  let b := (buffer_prepare_append fresh b 32).begin_
  let b ← b.memcpy (b.used - 1) (LI_ltostr val ++ [0])
  return { b with used := b.used + (LI_ltostr val).length }

def buffer_copy_long (fresh : Nat → UInt8) (b : buffer) (val : Int64) : Option buffer :=
  buffer_append_long fresh { b with used := 0 } val

/-- `while (copy) { copy >>= 4; shift++; }` -/
def nibbles (copy : UInt64) : Nat :=
  if copy = 0 then 0 else nibbles (copy >>> 4) + 1
termination_by copy.toNat
decreasing_by
  rename_i some_
  have positive : copy.toNat ≠ 0 := fun zero => some_ (UInt64.toNat_inj.mp zero)
  rw [UInt64.toNat_shiftRight]
  exact Nat.lt_of_le_of_lt (Nat.shiftRight_eq_div_pow .. |>.le) (Nat.div_lt_self (Nat.pos_of_ne_zero positive) (by decide))

/-- The number of digits. -/
def shift (value : UInt64) : Nat :=
  let shift := nibbles value
  let shift := if shift = 0 then shift + 1 else shift
  if shift % 2 = 1 then shift + 1 else shift

/-- `hex_chars[(value >> shift) & 0x0F]` for each of them. -/
def hexChars (value : UInt64) : Nat → List UInt8
  | 0 => []
  | n + 1 => hexDigit ((value >>> (4 * UInt64.ofNat n)) &&& 0x0F).toUInt8::hexChars value n

def buffer_append_long_hex (fresh : Nat → UInt8) (b : buffer) (value : UInt64) : Option buffer := do
  let b := (buffer_prepare_append fresh b (shift value + 1)).begin_
  let b ← b.memcpy (b.used - 1) (hexChars value (shift value) ++ [0])
  return { b with used := b.used + shift value }

/-! ### Comparing -/

def strcmp : List UInt8 → List UInt8 → Option Bool
  | a::as, b::bs => if a ≠ b then some false else if a = 0 then some true else strcmp as bs
  | _, _ => none

/-- `strcmp` is asked for 0 only. -/
def buffer_is_equal (a b : buffer) : Option Bool :=
  if a.used ≠ b.used then some false
  else if a.used = 0 then some true
  else strcmp a.ptr b.ptr

/-! ### Any number of buffers -/

inductive Op
  | reset
  | copy_string (s : List UInt8)
  | copy_string_len (src : List UInt8)
  | copy_string_buffer (src : Nat)
  | prepare_copy (size : Nat)
  | prepare_append (size : Nat)
  | copy_long (val : Int64)
  | append_long (val : Int64)
  | append_long_hex (value : UInt64)
  | copy_memory (s : List UInt8)
  | append_memory (s : List UInt8)
  | append_string (s : List UInt8)
  | append_string_len (s : List UInt8)
  | append_string_buffer (src : Nat)

structure Event where
  name : Nat
  op : Op
  fresh : Nat → UInt8

abbrev State := Nat → buffer

def Op.call (op : Op) (state : State) (fresh : Nat → UInt8) (b : buffer) : Option buffer :=
  match op with
  | reset => buffer_reset b
  | copy_string s => buffer_copy_string fresh b s
  | copy_string_len src => buffer_copy_string_len fresh b src
  | copy_string_buffer src => buffer_copy_string_buffer fresh b (state src)
  | prepare_copy size => some (buffer_prepare_copy fresh b size)
  | prepare_append size => some (buffer_prepare_append fresh b size)
  | copy_long val => buffer_copy_long fresh b val
  | append_long val => buffer_append_long fresh b val
  | append_long_hex value => buffer_append_long_hex fresh b value
  | copy_memory s => buffer_copy_memory fresh b s
  | append_memory s => buffer_append_memory fresh b s
  | append_string s => buffer_append_string fresh b s
  | append_string_len s => buffer_append_string_len fresh b s
  | append_string_buffer src => buffer_append_string_buffer fresh b (state src)

def Op.source : Op → Option Nat
  | copy_string_buffer src => some src
  | append_string_buffer src => some src
  | _ => none

/-- A buffer is not copied to itself: its block may be freed in between. -/
def step (state : State) (event : Event) : Option State :=
  if event.op.source = some event.name then none
  else (event.op.call state event.fresh (state event.name)).map (Function.update state event.name)

/-! ### What a buffer is for -/

/-- The bytes of a number in hexadecimal, the highest first. -/
def hexadecimal (n : Nat) : List UInt8 :=
  if n = 0 then hex 0 else (Nat.digits 256 n).reverse.flatMap fun byte => hex byte.toUInt8

abbrev Texts := Nat → List UInt8

/-- A string ends with NUL, and what is appended to it begins in place of that. -/
def Op.meaning (op : Op) (texts : Texts) (text : List UInt8) : List UInt8 :=
  match op with
  | reset => []
  | copy_string s => c_str s ++ [0]
  | copy_string_len src => src ++ [0]
  | copy_string_buffer src => if texts src = [] then [] else (texts src).dropLast ++ [0]
  | prepare_copy _ => []
  | prepare_append _ => text
  | copy_long val => decimal val.toInt ++ [0]
  | append_long val => text.dropLast ++ (decimal val.toInt ++ [0])
  | append_long_hex value => text.dropLast ++ (hexadecimal value.toNat ++ [0])
  | copy_memory s => s
  | append_memory s => text ++ s
  | append_string s => text.dropLast ++ (c_str s ++ [0])
  | append_string_len s => if s = [] then text else text.dropLast ++ (s ++ [0])
  | append_string_buffer src => if (texts src).dropLast = [] then text else text.dropLast ++ ((texts src).dropLast ++ [0])

def means (texts : Texts) (event : Event) : Texts :=
  Function.update texts event.name (event.op.meaning texts (texts event.name))

structure Represents (b : buffer) (text : List UInt8) : Prop where
  size : b.size = b.ptr.length
  used : b.used = text.length
  inside : b.used ≤ b.ptr.length
  text : b.ptr.take b.used = text

/-- The NUL goes behind the block where `buffer_copy_string_len` copies as many bytes as it has, and
the lowest `long` has no negative. -/
def Fits (state : State) (event : Event) : Prop :=
  event.op.source ≠ some event.name ∧
    match event.op with
    | .copy_string_len src => src.length = (state event.name).size → (state event.name).size = 0
    | .copy_string_buffer src =>
      (state src).used = (state event.name).size + 1 → (state event.name).size = 0
    | .copy_long val => val ≠ Int64.minValue
    | .append_long val => val ≠ Int64.minValue
    | _ => True

/-! ### Decimal texts -/

theorem swaps_get (text : List UInt8) (buf end_ : Nat) (inside : end_ < text.length) (i : Nat) :
    (swaps text buf end_)[i]? = if buf ≤ i ∧ i ≤ end_ then text[buf + end_ - i]? else text[i]? := by
  induction text, buf, end_ using swaps.induct with
  | case1 text buf end_ less ih =>
    rw [swaps,if_pos less,ih (by simp only [List.length_set]; omega)]
    have first : buf < text.length := by omega
    simp only [List.getElem?_set,List.length_set,List.getD_eq_getElem?_getD]
    grind
  | case2 text buf end_ less =>
    rw [swaps,if_neg less]
    grind

theorem swaps_reverse (text : List UInt8) : swaps text 0 (text.length - 1) = text.reverse := by
  by_cases empty : text = []
  · subst empty
    rw [swaps]
    rfl
  · have inside : text.length - 1 < text.length := Nat.sub_one_lt (List.length_pos_iff.mpr empty).ne'
    refine List.ext_getElem? fun i => ?_
    rw [swaps_get text 0 _ inside]
    by_cases reached : i < text.length
    · rw [if_pos ⟨Nat.zero_le i,Nat.le_sub_one_of_lt reached⟩,List.getElem?_reverse reached,Nat.zero_add]
    · rw [if_neg (by omega),List.getElem?_eq_none (Nat.not_lt.mp reached),
        List.getElem?_eq_none (by rw [List.length_reverse]; exact Nat.not_lt.mp reached)]

theorem digit_char {d : Int64} (low : 0 ≤ d.toInt) (high : d.toInt < 10) : (48 + d).toInt8.toUInt8 = (48 + d.toInt.toNat).toUInt8 := by
  obtain ⟨n,same⟩ := Int.eq_ofNat_of_zero_le low
  have small : n < 10 := by omega
  have whole : d = Int64.ofNat n := by
    apply Int64.toInt_inj.mp
    rw [same,Int64.toInt_ofNat_of_lt (by omega)]
  rw [same,whole,Int.toNat_natCast]
  interval_cases n <;> rfl

theorem digits_reverse (val : Int64) (positive : 0 ≤ val.toInt) : digits val = (decimalDigits val.toInt.toNat).reverse := by
  induction val using digits.induct with
  | case1 val large ih =>
    have above : 9 < val.toInt := Int64.lt_iff_toInt_lt.mp large
    have quotient : (val / 10).toInt = val.toInt / 10 := by
      rw [Int64.toInt_div_of_ne_right _ _ (by decide)]
      exact Int.tdiv_eq_ediv_of_nonneg positive
    have rest : (val % 10).toInt = val.toInt % 10 := by
      rw [Int64.toInt_mod]
      exact Int.tmod_eq_emod_of_nonneg positive
    rw [digits,if_pos large,ih (by rw [quotient]; omega),decimalDigits_ge (n := val.toInt.toNat) (by omega),List.reverse_append,quotient,
      digit_char (by rw [rest]; omega) (by rw [rest]; omega),rest]
    have tens : (val.toInt / 10).toNat = val.toInt.toNat / 10 := by omega
    have ones : (val.toInt % 10).toNat = val.toInt.toNat % 10 := by omega
    rw [tens,ones]
    rfl
  | case2 val large =>
    have below : val.toInt ≤ 9 := Int.not_lt.mp fun above => large (Int64.lt_iff_toInt_lt.mpr above)
    rw [digits,if_neg large,decimalDigits_lt (by omega),digit_char positive (by omega)]
    rfl

theorem digits_text (val : Int64) (positive : 0 ≤ val.toInt) :
    swaps (digits val) 0 ((digits val).length - 1) = decimalDigits val.toInt.toNat := by
  rw [swaps_reverse,digits_reverse val positive,List.reverse_reverse]

theorem LI_ltostr_decimal {val : Int64} (ordinary : val ≠ Int64.minValue) : LI_ltostr val = decimal val.toInt := by
  have sign : val < 0 ↔ val.toInt < 0 := Int64.lt_iff_toInt_lt
  rw [LI_ltostr,decimal]
  by_cases negative : val.toInt < 0
  · have low : -2 ^ 63 < val.toInt :=
      lt_of_le_of_ne val.le_toInt fun lowest => ordinary (Int64.toInt_inj.mp lowest.symm)
    have magnitude : (-val).toInt = -val.toInt := by
      rw [Int64.toInt_neg]
      exact Int.bmod_eq_of_le_mul_two (by omega) (by omega)
    rw [if_pos (sign.mpr negative),if_pos negative,digits_text _ (by omega),magnitude]
    have size : (-val.toInt).toNat = val.toInt.natAbs := by omega
    rw [size]
  · rw [if_neg fun less => negative (sign.mp less),if_neg negative,digits_text _ (by omega)]
    have size : val.toInt.toNat = val.toInt.natAbs := by omega
    rw [size]

theorem LI_ltostr_lowest : LI_ltostr Int64.minValue = [45,48] := by
  have alone : digits Int64.minValue = [48] := by
    rw [digits]
    rfl
  have still : swaps [48] 0 0 = [48] := by
    rw [swaps]
    rfl
  rw [LI_ltostr]
  change 45::swaps (digits Int64.minValue) 0 ((digits Int64.minValue).length - 1) = _
  rw [alone]
  exact congrArg _ still

theorem decimal_short (val : Int64) : (decimal val.toInt).length ≤ 20 := by
  have digits_ (n : Nat) (small : n < 10 ^ 19) : (decimalDigits n).length ≤ 19 := by
    rw [decimalDigits,List.length_map]
    exact (Nat.length_toDigits_le_iff (by decide) (by decide)).mpr small
  have low := val.le_toInt
  have high := val.toInt_lt
  have small := digits_ val.toInt.natAbs (by omega)
  rw [decimal]
  split
  · exact Nat.succ_le_succ small
  · exact small.trans (by decide)

theorem LI_ltostr_short (val : Int64) : (LI_ltostr val).length ≤ 20 := by
  by_cases lowest : val = Int64.minValue
  · rw [lowest,LI_ltostr_lowest]
    decide
  · rw [LI_ltostr_decimal lowest]
    exact decimal_short val

/-! ### Hexadecimal texts -/

theorem nibbles_digits (copy : UInt64) : nibbles copy = (Nat.digits 16 copy.toNat).length := by
  induction copy using nibbles.induct with
  | case1 =>
    rw [nibbles,if_pos rfl]
    rfl
  | case2 copy some_ ih =>
    have positive : 0 < copy.toNat := Nat.pos_of_ne_zero fun zero => some_ (UInt64.toNat_inj.mp zero)
    have quotient : (copy >>> 4).toNat = copy.toNat / 16 := by
      rw [UInt64.toNat_shiftRight]
      exact Nat.shiftRight_eq_div_pow ..
    rw [nibbles,if_neg some_,ih,quotient,Nat.digits_def' (by decide) positive,List.length_cons]

theorem digits_two (n : Nat) (large : 256 ≤ n) :
    (Nat.digits 16 n).length = (Nat.digits 16 (n / 256)).length + 2 ∧
      Nat.digits 256 n = n % 256::Nat.digits 256 (n / 256) := by
  have positive : 0 < n := by omega
  have next : 0 < n / 16 := by omega
  have quotient : n / 16 / 16 = n / 256 := Nat.div_div_eq_div_mul ..
  refine ⟨?_,Nat.digits_def' (by decide) positive⟩
  rw [Nat.digits_def' (by decide) positive,Nat.digits_def' (by decide) next,quotient]
  rfl

/-- Two digits for a byte, or one less where the first is 0. -/
theorem digits_bytes (n : Nat) (positive : 0 < n) :
    (Nat.digits 16 n).length + 1 = 2 * (Nat.digits 256 n).length ∨ (Nat.digits 16 n).length = 2 * (Nat.digits 256 n).length := by
  induction n using Nat.strongRecOn with
  | ind n ih =>
    by_cases large : 256 ≤ n
    · obtain ⟨sixteen,bytes⟩ := digits_two n large
      have rest := ih (n / 256) (by omega) (by omega)
      rw [sixteen,bytes,List.length_cons]
      omega
    · rw [Nat.digits_of_lt 256 n positive.ne' (Nat.not_le.mp large)]
      by_cases one : n < 16
      · rw [Nat.digits_of_lt 16 n positive.ne' one]
        exact .inl rfl
      · rw [Nat.digits_def' (by decide) positive,Nat.digits_of_lt 16 (n / 16) (by omega) (by omega)]
        exact .inr rfl

/-- Twice the number of bytes, and at least two. -/
theorem shift_bytes (value : UInt64) : shift value = 2 * max 1 (Nat.digits 256 value.toNat).length := by
  rw [shift,nibbles_digits]
  by_cases zero : value.toNat = 0
  · rw [zero]
    rfl
  · have positive := Nat.pos_of_ne_zero zero
    have some_ : 0 < (Nat.digits 256 value.toNat).length :=
      List.length_pos_iff.mpr fun none => zero (Nat.digits_eq_nil_iff_eq_zero.mp none)
    have even := digits_bytes value.toNat positive
    rw [max_eq_right some_]
    split_ifs <;> omega

theorem nibble_toNat (value : UInt64) {n : Nat} (small : n < 16) :
    ((value >>> (4 * UInt64.ofNat n)) &&& 0x0F).toUInt8.toNat = value.toNat / 16 ^ n % 16 := by
  have amount : (4 * UInt64.ofNat n).toNat % 64 = 4 * n := by
    interval_cases n <;> rfl
  have power : 2 ^ (4 * n) = 16 ^ n := Nat.pow_mul 2 4 n
  rw [UInt64.toNat_toUInt8,UInt64.toNat_and,UInt64.toNat_shiftRight,amount,Nat.shiftRight_eq_div_pow,power]
  change (_ &&& (2 ^ 4 - 1)) % 256 = _
  rw [Nat.and_two_pow_sub_one_eq_mod]
  exact Nat.mod_eq_of_lt (by omega)

theorem hexChars_byte (value : UInt64) {n : Nat} (small : n < 15) :
    hexChars value (n + 2) = hexChars (value >>> 8) n ++ hex value.toUInt8 := by
  have shifted : (value >>> 8).toNat = value.toNat / 256 := by
    rw [UInt64.toNat_shiftRight]
    exact Nat.shiftRight_eq_div_pow ..
  induction n with
  | zero =>
    have byte : value.toUInt8.toNat = value.toNat % 256 := UInt64.toNat_toUInt8 value
    have high : ((value >>> (4 * UInt64.ofNat 1)) &&& 0x0F).toUInt8 = value.toUInt8 / 16 := by
      apply UInt8.toNat_inj.mp
      rw [nibble_toNat value (by decide),UInt8.toNat_div,byte]
      change value.toNat / 16 % 16 = value.toNat % 256 / 16
      omega
    have low : ((value >>> (4 * UInt64.ofNat 0)) &&& 0x0F).toUInt8 = value.toUInt8 % 16 := by
      apply UInt8.toNat_inj.mp
      rw [nibble_toNat value (by decide),UInt8.toNat_mod,byte]
      change value.toNat / 1 % 16 = value.toNat % 256 % 16
      omega
    change [hexDigit ((value >>> (4 * UInt64.ofNat 1)) &&& 0x0F).toUInt8,hexDigit ((value >>> (4 * UInt64.ofNat 0)) &&& 0x0F).toUInt8] = _
    rw [high,low]
    rfl
  | succ n ih =>
    have same : ((value >>> (4 * UInt64.ofNat (n + 2))) &&& 0x0F).toUInt8 =
        ((value >>> 8 >>> (4 * UInt64.ofNat n)) &&& 0x0F).toUInt8 := by
      apply UInt8.toNat_inj.mp
      rw [nibble_toNat value (by omega),nibble_toNat (value >>> 8) (by omega),shifted,Nat.div_div_eq_div_mul,
        Nat.pow_add,Nat.mul_comm]
    rw [hexChars,ih (by omega),same,hexChars,List.cons_append]

theorem hexChars_hexadecimal (value : UInt64) : hexChars value (shift value) = hexadecimal value.toNat := by
  rw [shift_bytes]
  induction size : value.toNat using Nat.strongRecOn generalizing value with
  | ind n ih =>
    by_cases large : 256 ≤ n
    · have shifted : (value >>> 8).toNat = n / 256 := by
        rw [UInt64.toNat_shiftRight,size]
        exact Nat.shiftRight_eq_div_pow ..
      have eight : (Nat.digits 256 n).length ≤ 8 :=
        (Nat.digits_length_le_iff (by decide) _).mpr (size ▸ value.toNat_lt)
      have bytes := (digits_two n large).2
      have some_ : 0 < (Nat.digits 256 (n / 256)).length :=
        List.length_pos_iff.mpr fun none => by
          have zero := Nat.digits_eq_nil_iff_eq_zero.mp none
          omega
      have rest := ih (n / 256) (by omega) (value >>> 8) shifted
      rw [max_eq_right some_,hexadecimal,if_neg (by omega)] at rest
      rw [hexadecimal,if_neg (by omega)]
      rw [bytes,List.length_cons] at eight ⊢
      rw [max_eq_right (Nat.succ_pos _),Nat.mul_succ,hexChars_byte value (by omega),rest,List.reverse_cons,List.flatMap_append,
        List.flatMap_singleton]
      congr 2
      apply UInt8.toNat_inj.mp
      rw [UInt64.toNat_toUInt8,size]
      exact (Nat.mod_mod n 256).symm
    · have one : max 1 (Nat.digits 256 n).length = 1 := by
        by_cases zero : n = 0
        · rw [zero]
          rfl
        · rw [Nat.digits_of_lt 256 n zero (Nat.not_le.mp large)]
          rfl
      have byte : value.toUInt8 = n.toUInt8 := by
        apply UInt8.toNat_inj.mp
        rw [UInt64.toNat_toUInt8,size]
        rfl
      rw [one,hexChars_byte value (by decide),byte,hexadecimal]
      split
      · rename_i zero
        rw [zero]
        rfl
      · rename_i some_
        rw [Nat.digits_of_lt 256 n some_ (Nat.not_le.mp large)]
        exact (List.append_nil _).symm

/-! ### One buffer -/

section One
variable {fresh : Nat → UInt8} {b src : buffer} {text bytes more : List UInt8} {size offset : Nat} {texts : Texts}

theorem pieces_gt (size : Nat) : size < pieces size :=
  Nat.lt_add_of_pos_right (Nat.sub_pos_of_lt (Nat.mod_lt _ (by decide)))

theorem malloc_length : (malloc fresh size).length = size := by
  rw [malloc,List.length_map,List.length_range]

/-- Bytes over the end of the text. -/
theorem Represents.write (holds : Represents b text) (behind : offset ≤ text.length)
    (fits : offset + bytes.length ≤ b.ptr.length) :
    Represents { b with ptr := overwrite b.ptr offset bytes,used := offset + bytes.length } (text.take offset ++ bytes) where
  size := holds.size.trans (length_overwrite fits).symm
  used := by
    rw [List.length_append,List.length_take,min_eq_left behind]
  inside := by
    rw [length_overwrite fits]
    exact fits
  text := by
    rw [take_overwrite_end fits,← holds.text,List.take_take,holds.used,min_eq_left behind]

theorem memcpy_some (fits : offset + bytes.length ≤ b.ptr.length) :
    b.memcpy offset bytes = some { b with ptr := overwrite b.ptr offset bytes } := if_pos fits

theorem Represents.clear (holds : Represents b text) : Represents { b with used := 0 } [] :=
  ⟨holds.size,rfl,Nat.zero_le _,rfl⟩

theorem Represents.load (holds : Represents b text) : b.load (b.used - 1) = some text.dropLast := by
  rw [buffer.load,if_pos ((Nat.sub_le ..).trans holds.inside),List.dropLast_eq_take,← holds.used]
  conv =>
    rhs
    rw [← holds.text,List.take_take,min_eq_left (Nat.sub_le ..)]

/-- Room for a text of its own. -/
theorem prepare_copy_spec (fresh : Nat → UInt8) (holds : Represents b text) (size : Nat) :
    Represents (buffer_prepare_copy fresh b size) [] ∧ size ≤ (buffer_prepare_copy fresh b size).ptr.length ∧
      ((buffer_prepare_copy fresh b size).ptr.length = size ↔ b.size = size ∧ b.size ≠ 0) := by
  have more := pieces_gt size
  rw [buffer_prepare_copy]
  split
  · rename_i short
    refine ⟨⟨malloc_length.symm,rfl,Nat.zero_le _,rfl⟩,malloc_length.ge.trans' more.le,?_⟩
    rw [malloc_length]
    omega
  · rename_i enough
    have whole := holds.size
    refine ⟨holds.clear,?_,?_⟩
    · change size ≤ b.ptr.length
      omega
    · change b.ptr.length = size ↔ _
      omega

/-- Room behind the text. -/
theorem prepare_append_spec (fresh : Nat → UInt8) (holds : Represents b text) (size : Nat) :
    Represents (buffer_prepare_append fresh b size) text ∧
      text.length + size ≤ (buffer_prepare_append fresh b size).ptr.length ∧ (buffer_prepare_append fresh b size).used = text.length := by
  have whole := holds.size
  have used := holds.used
  have inside := holds.inside
  rw [buffer_prepare_append]
  split
  · have more := pieces_gt size
    have empty : text = [] := List.length_eq_zero_iff.mp (by omega)
    subst empty
    refine ⟨⟨malloc_length.symm,rfl,Nat.zero_le _,rfl⟩,?_,rfl⟩
    change 0 + size ≤ (malloc fresh (pieces size)).length
    rw [malloc_length]
    omega
  · split
    · have more := pieces_gt (b.size + size)
      have kept : realloc fresh b.ptr (pieces (b.size + size)) = b.ptr ++ malloc fresh (pieces (b.size + size) - b.ptr.length) := by
        rw [realloc,List.take_of_length_le (by omega)]
      have grown : (realloc fresh b.ptr (pieces (b.size + size))).length = pieces (b.size + size) := by
        rw [kept,List.length_append,malloc_length]
        omega
      refine ⟨⟨grown.symm,used,?_,?_⟩,?_,used⟩
      · rw [grown]
        change b.used ≤ _
        omega
      · change (realloc fresh b.ptr (pieces (b.size + size))).take b.used = text
        rw [kept,List.take_append_of_le_length inside,holds.text]
      · change _ ≤ (realloc fresh b.ptr (pieces (b.size + size))).length
        omega
    · refine ⟨holds,?_,used⟩
      omega

/-- Bytes in place of the NUL. -/
theorem begin_spec (holds : Represents b text) (bytes : List UInt8) (room : text.length - 1 + bytes.length ≤ b.ptr.length) :
    b.begin_.used = text.length - 1 + 1 ∧
      b.begin_.memcpy (b.begin_.used - 1) bytes =
        some ⟨overwrite b.ptr (text.length - 1) bytes,text.length - 1 + 1,b.size⟩ ∧
      Represents ⟨overwrite b.ptr (text.length - 1) bytes,text.length - 1 + bytes.length,b.size⟩ (text.dropLast ++ bytes) := by
  have used := holds.used
  have starts : b.begin_ = ⟨b.ptr,text.length - 1 + 1,b.size⟩ := by
    rw [buffer.begin_]
    split
    · have one : text.length - 1 + 1 = 1 := by omega
      rw [one]
    · have same : b.used = text.length - 1 + 1 := by omega
      rw [← same]
  rw [starts,Nat.add_sub_cancel,List.dropLast_eq_take]
  exact ⟨rfl,memcpy_some room,holds.write (Nat.sub_le text.length 1) room⟩

def Gives (outcome : Option buffer) (text : List UInt8) : Prop := ∃ next, outcome = some next ∧ Represents next text

theorem gives_bind {outcome : Option buffer} {rest : buffer → Option buffer} (first : outcome = some b) (gives : Gives (rest b) text) :
    Gives (outcome >>= rest) text := by
  rw [first]
  exact gives

theorem reset_gives (holds : Represents b text) : Gives (buffer_reset b) [] := by
  rw [buffer_reset]
  split
  · exact ⟨_,rfl,rfl,rfl,le_rfl,rfl⟩
  · split
    · rename_i some_
      have fits : 0 + ([0] : List UInt8).length ≤ b.ptr.length := by
        rw [← holds.size]
        exact Nat.pos_of_ne_zero some_
      refine gives_bind (memcpy_some fits) ⟨_,rfl,?_⟩
      exact ⟨holds.size.trans (length_overwrite fits).symm,rfl,Nat.zero_le _,rfl⟩
    · exact ⟨_,rfl,holds.clear⟩

theorem copy_string_gives (fresh : Nat → UInt8) (holds : Represents b text) (s : List UInt8) : Gives (buffer_copy_string fresh b s) (c_str s ++ [0]) := by
  have length : (c_str s ++ [0]).length = (c_str s).length + 1 := List.length_append
  obtain ⟨cleared,room,_⟩ := prepare_copy_spec fresh holds ((c_str s).length + 1)
  have fits : 0 + (c_str s ++ [0]).length ≤ (buffer_prepare_copy fresh b ((c_str s).length + 1)).ptr.length := by omega
  have written := cleared.write (Nat.zero_le _) fits
  rw [Nat.zero_add,length] at written
  exact gives_bind (memcpy_some fits) ⟨_,rfl,written⟩

/-- The NUL needs a byte more than was asked for. -/
theorem copy_string_len_spec (fresh : Nat → UInt8) (holds : Represents b text) (bytes : List UInt8) :
    (bytes.length = b.size → b.size = 0) ∧ Gives (buffer_copy_string_len fresh b bytes) (bytes ++ [0]) ∨
      ¬(bytes.length = b.size → b.size = 0) ∧ buffer_copy_string_len fresh b bytes = none := by
  obtain ⟨cleared,room,exact_⟩ := prepare_copy_spec fresh holds bytes.length
  have fits : 0 + bytes.length ≤ (buffer_prepare_copy fresh b bytes.length).ptr.length := by omega
  have same := length_overwrite fits
  by_cases more : bytes.length + 1 ≤ (buffer_prepare_copy fresh b bytes.length).ptr.length
  · refine .inl ⟨by omega,?_⟩
    have both : 0 + (bytes ++ [0]).length ≤ (buffer_prepare_copy fresh b bytes.length).ptr.length := by
      rw [List.length_append,Nat.zero_add]
      exact more
    have written := cleared.write (Nat.zero_le _) both
    rw [← overwrite_overwrite both,Nat.zero_add,Nat.zero_add,List.length_append] at written
    exact gives_bind (memcpy_some fits) (gives_bind (memcpy_some (more.trans same.ge)) ⟨_,rfl,written⟩)
  · refine .inr ⟨by omega,?_⟩
    rw [buffer_copy_string_len,memcpy_some fits]
    have outside : ¬bytes.length + ([0] : List UInt8).length ≤ (overwrite (buffer_prepare_copy fresh b bytes.length).ptr 0 bytes).length := by
      rw [same]
      exact more
    change Option.bind (buffer.memcpy _ bytes.length [0]) _ = none
    rw [buffer.memcpy,if_neg outside]
    rfl

theorem append_memory_gives (holds : Represents b text) (s : List UInt8) : Gives (buffer_append_memory fresh b s) (text ++ s) := by
  rw [buffer_append_memory]
  split
  · rename_i none
    rw [List.length_eq_zero_iff.mp none,List.append_nil]
    exact ⟨b,rfl,holds⟩
  · obtain ⟨ready,room,used⟩ := prepare_append_spec fresh holds s.length
    have written := ready.write le_rfl room
    rw [List.take_length,← used] at written
    rw [← used] at room
    exact gives_bind (memcpy_some room) ⟨_,rfl,written⟩

theorem append_string_gives (holds : Represents b text) (s : List UInt8) :
    Gives (buffer_append_string fresh b s) (text.dropLast ++ (c_str s ++ [0])) := by
  have length : (c_str s ++ [0]).length = (c_str s).length + 1 := List.length_append
  obtain ⟨ready,room,_⟩ := prepare_append_spec fresh holds ((c_str s).length + 1)
  obtain ⟨_,copied,written⟩ := begin_spec ready (c_str s ++ [0]) (by omega)
  rw [length,← Nat.add_assoc,Nat.add_right_comm] at written
  exact gives_bind copied ⟨_,rfl,written⟩

theorem append_string_len_gives (fresh : Nat → UInt8) (holds : Represents b text) (s : List UInt8) :
    Gives (buffer_append_string_len fresh b s) (if s = [] then text else text.dropLast ++ (s ++ [0])) := by
  rw [buffer_append_string_len]
  by_cases none : s = []
  · rw [if_pos (List.length_eq_zero_iff.mpr none),if_pos none]
    exact ⟨b,rfl,holds⟩
  · rw [if_neg fun zero => none (List.length_eq_zero_iff.mp zero),if_neg none]
    have length : (s ++ [0]).length = s.length + 1 := List.length_append
    obtain ⟨ready,room,_⟩ := prepare_append_spec fresh holds (s.length + 1)
    have fits : text.length - 1 + (s ++ [0]).length ≤ (buffer_prepare_append fresh b (s.length + 1)).ptr.length := by omega
    have first : text.length - 1 + s.length ≤ (buffer_prepare_append fresh b (s.length + 1)).ptr.length := by omega
    obtain ⟨_,_,whole⟩ := begin_spec ready (s ++ [0]) fits
    obtain ⟨_,copied,_⟩ := begin_spec ready (s) first
    rw [← overwrite_overwrite fits] at whole
    refine gives_bind copied ⟨_,?_,whole⟩
    have last : text.length - 1 + 1 + s.length - 1 = text.length - 1 + s.length := by omega
    have room : text.length - 1 + s.length + ([0] : List UInt8).length ≤
        (overwrite (buffer_prepare_append fresh b (s.length + 1)).ptr (text.length - 1) s).length := by
      rw [length_overwrite first]
      change _ + 1 ≤ _
      omega
    change buffer.memcpy ⟨_,text.length - 1 + 1 + s.length,_⟩ (text.length - 1 + 1 + s.length - 1) [0] = _
    rw [last,memcpy_some room,length,← Nat.add_assoc,Nat.add_right_comm]

theorem append_long_gives (fresh : Nat → UInt8) (holds : Represents b text) (val : Int64) :
    Gives (buffer_append_long fresh b val) (text.dropLast ++ (LI_ltostr val ++ [0])) := by
  have length : (LI_ltostr val ++ [0]).length = (LI_ltostr val).length + 1 := List.length_append
  have short := LI_ltostr_short val
  obtain ⟨ready,room,_⟩ := prepare_append_spec fresh holds 32
  obtain ⟨_,copied,written⟩ := begin_spec ready (LI_ltostr val ++ [0]) (by omega)
  rw [length,← Nat.add_assoc,Nat.add_right_comm] at written
  exact gives_bind copied ⟨_,rfl,written⟩

theorem hexChars_length (value : UInt64) (n : Nat) : (hexChars value n).length = n := by
  induction n with
  | zero => rfl
  | succ n ih => rw [hexChars,List.length_cons,ih]

theorem append_long_hex_gives (holds : Represents b text) (value : UInt64) :
    Gives (buffer_append_long_hex fresh b value) (text.dropLast ++ (hexadecimal value.toNat ++ [0])) := by
  have length : (hexChars value (shift value) ++ [0]).length = shift value + 1 := by
    rw [List.length_append,hexChars_length]
    rfl
  obtain ⟨ready,room,_⟩ := prepare_append_spec fresh holds (shift value + 1)
  obtain ⟨_,copied,written⟩ := begin_spec ready (hexChars value (shift value) ++ [0]) (by omega)
  rw [length,← Nat.add_assoc,Nat.add_right_comm,hexChars_hexadecimal] at written
  rw [hexChars_hexadecimal] at copied
  rw [buffer_append_long_hex,hexChars_hexadecimal]
  exact gives_bind copied ⟨_,rfl,written⟩

theorem Gives.unique {outcome : Option buffer} {other : List UInt8} (gives : Gives outcome text) (again : Gives outcome other) :
    text = other := by
  obtain ⟨next,outcome_,holds⟩ := gives
  obtain ⟨same,outcome',holds'⟩ := again
  obtain rfl := Option.some_inj.mp (outcome_.symm.trans outcome')
  exact holds.text.symm.trans holds'.text

theorem append_long_iff (holds : Represents b text) (val : Int64) :
    Gives (buffer_append_long fresh b val) (text.dropLast ++ (decimal val.toInt ++ [0])) ↔ val ≠ Int64.minValue := by
  have gives := append_long_gives fresh holds val
  constructor
  · rintro right rfl
    have same := List.append_cancel_right (List.append_cancel_left (gives.unique right))
    rw [LI_ltostr_lowest] at same
    exact absurd same (by decide)
  · intro ordinary
    rwa [LI_ltostr_decimal ordinary] at gives

theorem copy_string_len_iff (holds : Represents b text) (bytes : List UInt8) :
    Gives (buffer_copy_string_len fresh b bytes) (bytes ++ [0]) ↔ (bytes.length = b.size → b.size = 0) := by
  obtain ⟨fits,gives⟩ | ⟨exceeds,fails⟩ := copy_string_len_spec fresh holds bytes
  · exact iff_of_true gives fits
  · refine iff_of_false ?_ exceeds
    rintro ⟨next,outcome,_⟩
    rw [fails] at outcome
    cases outcome

theorem Represents.empty_iff (holds : Represents b text) : b.used = 0 ↔ text = [] := by
  rw [holds.used,List.length_eq_zero_iff]

theorem copy_string_buffer_iff (holds : Represents b text) (from_ : Represents src bytes) :
    Gives (buffer_copy_string_buffer fresh b src) (if bytes = [] then [] else bytes.dropLast ++ [0]) ↔
      (src.used = b.size + 1 → b.size = 0) := by
  rw [buffer_copy_string_buffer]
  by_cases empty : src.used = 0
  · rw [if_pos empty,if_pos (from_.empty_iff.mp empty)]
    refine iff_of_true (reset_gives holds) ?_
    omega
  · rw [if_neg empty,if_neg fun none => empty (from_.empty_iff.mpr none),from_.load]
    refine (copy_string_len_iff holds bytes.dropLast).trans ?_
    have used := from_.used
    rw [List.length_dropLast]
    omega

theorem append_string_buffer_gives (holds : Represents b text) (from_ : Represents src bytes) :
    Gives (buffer_append_string_buffer fresh b src)
      (if bytes.dropLast = [] then text else text.dropLast ++ (bytes.dropLast ++ [0])) := by
  rw [buffer_append_string_buffer]
  by_cases empty : src.used = 0
  · rw [if_pos empty,from_.empty_iff.mp empty]
    exact ⟨b,rfl,holds⟩
  · rw [if_neg empty,from_.load]
    exact append_string_len_gives fresh holds bytes.dropLast

/-- Every call on buffers that hold texts. -/
theorem call_iff (op : Op) {state : State} (holds : ∀ name, Represents (state name) (texts name)) (name : Nat)
    (apart : op.source ≠ some name) :
    Gives (op.call state fresh (state name)) (op.meaning texts (texts name)) ↔ Fits state ⟨name,op,fresh⟩ := by
  have here := holds name
  cases op with
  | reset => exact iff_of_true (reset_gives here) ⟨apart,trivial⟩
  | copy_string s => exact iff_of_true (copy_string_gives fresh here s) ⟨apart,trivial⟩
  | copy_string_len src => exact (copy_string_len_iff here src).trans (and_iff_right apart).symm
  | copy_string_buffer src => exact (copy_string_buffer_iff here (holds src)).trans (and_iff_right apart).symm
  | prepare_copy size => exact iff_of_true ⟨_,rfl,(prepare_copy_spec fresh here size).1⟩ ⟨apart,trivial⟩
  | prepare_append size => exact iff_of_true ⟨_,rfl,(prepare_append_spec fresh here size).1⟩ ⟨apart,trivial⟩
  | copy_long val => exact (append_long_iff here.clear val).trans (and_iff_right apart).symm
  | append_long val => exact (append_long_iff here val).trans (and_iff_right apart).symm
  | append_long_hex value => exact iff_of_true (append_long_hex_gives here value) ⟨apart,trivial⟩
  | copy_memory s => exact iff_of_true (append_memory_gives here.clear s) ⟨apart,trivial⟩
  | append_memory s => exact iff_of_true (append_memory_gives here s) ⟨apart,trivial⟩
  | append_string s => exact iff_of_true (append_string_gives here s) ⟨apart,trivial⟩
  | append_string_len s => exact iff_of_true (append_string_len_gives fresh here s) ⟨apart,trivial⟩
  | append_string_buffer src => exact iff_of_true (append_string_buffer_gives here (holds src)) ⟨apart,trivial⟩

end One

/-! ### Runs -/

def Agree (state : State) (texts : Texts) : Prop := ∀ name, Represents (state name) (texts name)

theorem step_iff {state : State} {texts : Texts} {event : Event} (agree : Agree state texts) :
    (∃ next, step state event = some next ∧ Agree next (means texts event)) ↔ Fits state event := by
  obtain ⟨name,op,fresh⟩ := event
  rw [step]
  by_cases itself : op.source = some name
  · rw [if_pos itself]
    refine iff_of_false ?_ fun fits => fits.1 itself
    rintro ⟨next,outcome,_⟩
    cases outcome
  · rw [if_neg itself,← call_iff op agree name itself]
    constructor
    · rintro ⟨next,outcome,agreed⟩
      obtain ⟨b,called,rfl⟩ := Option.map_eq_some_iff.mp outcome
      have here := agreed name
      rw [Function.update_self,means,Function.update_self] at here
      exact ⟨b,called,here⟩
    · rintro ⟨b,called,holds⟩
      refine ⟨_,Option.map_eq_some_iff.mpr ⟨b,called,rfl⟩,?_⟩
      intro other
      rw [means]
      by_cases same : other = name
      · rw [same,Function.update_self,Function.update_self]
        exact holds
      · rw [Function.update_of_ne same,Function.update_of_ne same]
        exact agree other

theorem strcmp_texts {s t : List UInt8} (clean : 0 ∉ s) (clean' : 0 ∉ t) (rest rest' : List UInt8) :
    strcmp (s ++ 0::rest) (t ++ 0::rest') = some (decide (s = t)) := by
  induction s generalizing t with
  | nil =>
    cases t with
    | nil => rfl
    | cons c t =>
      have other : 0 ≠ c := fun same => clean' (same ▸ List.mem_cons_self)
      rw [List.nil_append,List.cons_append,strcmp,if_pos other]
      rfl
  | cons c s ih =>
    have some_ : c ≠ 0 := fun same => clean (same ▸ List.mem_cons_self)
    have more : 0 ∉ s := fun member => clean (List.mem_cons_of_mem c member)
    cases t with
    | nil =>
      rw [List.nil_append,List.cons_append,strcmp,if_pos some_]
      rfl
    | cons d t =>
      have rest_ : 0 ∉ t := fun member => clean' (List.mem_cons_of_mem d member)
      rw [List.cons_append,List.cons_append,strcmp]
      by_cases same : c = d
      · rw [if_neg (not_not.mpr same),if_neg some_,ih more rest_,same]
        simp only [List.cons.injEq,true_and]
      · rw [if_pos same]
        simp only [List.cons.injEq,same,false_and,decide_false]

/-- Buffers of strings are equal where the strings are. -/
theorem buffer_is_equal_strings {a b : buffer} {s t : List UInt8} (holds : Represents a (s ++ [0])) (holds' : Represents b (t ++ [0]))
    (clean : 0 ∉ s) (clean' : 0 ∉ t) : buffer_is_equal a b = some (decide (s = t)) := by
  have block {b : buffer} {s : List UInt8} (holds : Represents b (s ++ [0])) : b.ptr = s ++ 0::b.ptr.drop b.used := by
    conv =>
      lhs
      rw [← List.take_append_drop b.used b.ptr,holds.text,List.append_assoc,List.singleton_append]
  have length (s : List UInt8) : (s ++ [0]).length = s.length + 1 := List.length_append
  have used := holds.used
  have used' := holds'.used
  rw [length] at used used'
  rw [buffer_is_equal]
  by_cases same : a.used = b.used
  · rw [if_neg (not_not.mpr same),if_neg (by omega),block holds,block holds',strcmp_texts clean clean']
  · rw [if_pos same]
    have differ : s ≠ t := by
      rintro rfl
      exact same (used.trans used'.symm)
    rw [decide_eq_false differ]

/-! ### The buffer of a packet -/

def buffer_init_string (fresh : Nat → UInt8) (str : List UInt8) : Option buffer := buffer_copy_string fresh buffer_init str

/-- The loop of `echo_handle_packet` after its first block, with its buffer. -/
def gatherBuffer (fresh : Nat → UInt8) (tail_offset : Nat) (buf : buffer) (blocks : Blocks) : List Nat → Option (buffer × Blocks)
  | [] => some (buf,blocks)
  | block::rest => do
    let b ← blocks block
    let buf ← buffer_append_string_len fresh buf (if rest = [] then b.address.take tail_offset else b.address)
    let blocks ← echo_block_decref blocks block
    gatherBuffer fresh tail_offset buf blocks rest

/-- `echo_handle_packet` with its buffer. -/
def packetBuffer (fresh : Nat → UInt8) (blocks : Blocks) (packet : EchoPacket) : Option (buffer × Blocks) := do
  let buf ← buffer_init_string fresh []
  match packet with
  | .empty => return (buf,blocks)
  | .one_block block offset length => do
    let b ← blocks block
    let buf ← buffer_append_string_len fresh buf ((b.address.drop offset).take length)
    let blocks ← echo_block_decref blocks block
    return (buf,blocks)
  | .blocks [] _ _ => return (buf,blocks)
  | .blocks (block::rest) head_position tail_offset => do
    let b ← blocks block
    let buf ← buffer_append_string_len fresh buf (b.address.drop head_position)
    let blocks ← echo_block_decref blocks block
    gatherBuffer fresh tail_offset buf blocks rest

/-- What the worker of a packet task hands to the plugins: the buffer without its NUL. -/
def handed (outcome : Option (buffer × Blocks)) : Option (List UInt8 × Blocks) :=
  outcome.bind fun pair => (pair.1.load (pair.1.used - 1)).map (·,pair.2)

section Packet
variable {fresh : Nat → UInt8} {buf : buffer} {text : List UInt8}

theorem append_part (fresh : Nat → UInt8) (holds : Represents buf (text ++ [0])) (part : List UInt8) :
    Gives (buffer_append_string_len fresh buf part) (text ++ part ++ [0]) := by
  have gives := append_string_len_gives fresh holds part
  by_cases none : part = []
  · subst none
    rw [if_pos rfl] at gives
    rwa [List.append_nil]
  · rw [if_neg none,List.dropLast_concat] at gives
    rwa [List.append_assoc]

theorem handed_some (holds : Represents buf (text ++ [0])) (blocks : Blocks) : handed (some (buf,blocks)) = some (text,blocks) := by
  rw [handed,Option.bind_some,holds.load,List.dropLast_concat]
  rfl

theorem gatherBuffer_gather (holds : Represents buf (text ++ [0])) (tail_offset : Nat) (blocks : Blocks) (ids : List Nat) :
    handed (gatherBuffer fresh tail_offset buf blocks ids) =
      (gather tail_offset blocks ids).map fun pair => (text ++ pair.1,pair.2) := by
  induction ids generalizing buf text blocks with
  | nil =>
    rw [gatherBuffer,handed_some holds,gather,Option.map_some,List.append_nil]
  | cons block rest ih =>
    rw [gatherBuffer,gather]
    cases blocks block with
    | none => rfl
    | some b =>
      obtain ⟨next,appended,holds⟩ := append_part fresh holds (if rest = [] then b.address.take tail_offset else b.address)
      simp only [Option.bind_eq_bind,Option.bind_some,appended]
      cases echo_block_decref blocks block with
      | none => rfl
      | some blocks =>
        simp only [Option.bind_some,ih holds]
        cases gather tail_offset blocks rest with
        | none => rfl
        | some pair =>
          rw [Option.map_some,List.append_assoc]
          rfl

/-- The bytes of a packet are what its buffer holds. -/
theorem packetBuffer_handed (fresh : Nat → UInt8) (blocks : Blocks) (packet : EchoPacket) :
    handed (packetBuffer fresh blocks packet) = echo_handle_packet blocks packet := by
  have empty : Represents buffer_init [] := ⟨rfl,rfl,le_rfl,rfl⟩
  obtain ⟨buf,copied,holds⟩ := copy_string_gives fresh empty []
  rw [packetBuffer,buffer_init_string,copied]
  cases packet with
  | empty => exact handed_some holds blocks
  | one_block block offset length =>
    rw [echo_handle_packet]
    simp only [Option.bind_eq_bind,Option.bind_some]
    cases blocks block with
    | none => rfl
    | some b =>
      obtain ⟨next,appended,holds⟩ := append_part fresh holds ((b.address.drop offset).take length)
      simp only [Option.bind_some,appended]
      cases echo_block_decref blocks block with
      | none => rfl
      | some blocks => exact handed_some holds blocks
  | blocks ids head_position tail_offset =>
    cases ids with
    | nil => exact handed_some holds blocks
    | cons block rest =>
      rw [echo_handle_packet]
      simp only [Option.bind_eq_bind,Option.bind_some]
      cases blocks block with
      | none => rfl
      | some b =>
        obtain ⟨next,appended,holds⟩ := append_part fresh holds (b.address.drop head_position)
        simp only [Option.bind_some,appended]
        cases echo_block_decref blocks block with
        | none => rfl
        | some blocks =>
          simp only [Option.bind_some,gatherBuffer_gather holds]
          cases gather tail_offset blocks rest <;> rfl

end Packet

end Migfm.Net.Buffer
