import Migfm.Library.Blocks
import Migfm.Library.LittleEndian
import Migfm.Library.Ring

/-! The digests of public/basic/md5sum.cc. -/
namespace Migfm.Public.Md5sum
open Library.Blocks Library.LittleEndian Library.Ring

/-! ### A block -/

/-- abcd[4]. -/
structure Abcd where
  a : UInt32
  b : UInt32
  c : UInt32
  d : UInt32
  deriving DecidableEq

/-- One operation: the place in the block, the rotation and the constant. -/
structure Operation where
  k : Nat
  s : UInt32
  Ti : UInt32

def ROTATE_LEFT (x n : UInt32) : UInt32 := (x <<< n) ||| (x >>> (32 - n))

def F (x y z : UInt32) : UInt32 := (x &&& y) ||| (~~~x &&& z)
def G (x y z : UInt32) : UInt32 := (x &&& z) ||| (y &&& ~~~z)
def H (x y z : UInt32) : UInt32 := x ^^^ y ^^^ z
def I (x y z : UInt32) : UInt32 := y ^^^ (x ||| ~~~z)

section Process
variable (f : UInt32 → UInt32 → UInt32 → UInt32) (X : Nat → UInt32)

def SET (a b c d : UInt32) (op : Operation) : UInt32 :=
  let t := a + f b c d + X op.k + op.Ti
  ROTATE_LEFT t op.s + b

/-- Four operations in a row, each on the register before the last. -/
def setRow (word : Abcd) (ops : Operation × Operation × Operation × Operation) : Abcd :=
  let a := SET f X word.a word.b word.c word.d ops.1
  let d := SET f X word.d a word.b word.c ops.2.1
  let c := SET f X word.c d a word.b ops.2.2.1
  let b := SET f X word.b c d a ops.2.2.2
  ⟨a,b,c,d⟩

end Process

def round1 : List (Operation × Operation × Operation × Operation) :=
  [(⟨0,7,0xd76aa478⟩,⟨1,12,0xe8c7b756⟩,⟨2,17,0x242070db⟩,⟨3,22,0xc1bdceee⟩),
   (⟨4,7,0xf57c0faf⟩,⟨5,12,0x4787c62a⟩,⟨6,17,0xa8304613⟩,⟨7,22,0xfd469501⟩),
   (⟨8,7,0x698098d8⟩,⟨9,12,0x8b44f7af⟩,⟨10,17,0xffff5bb1⟩,⟨11,22,0x895cd7be⟩),
   (⟨12,7,0x6b901122⟩,⟨13,12,0xfd987193⟩,⟨14,17,0xa679438e⟩,⟨15,22,0x49b40821⟩)]

def round2 : List (Operation × Operation × Operation × Operation) :=
  [(⟨1,5,0xf61e2562⟩,⟨6,9,0xc040b340⟩,⟨11,14,0x265e5a51⟩,⟨0,20,0xe9b6c7aa⟩),
   (⟨5,5,0xd62f105d⟩,⟨10,9,0x02441453⟩,⟨15,14,0xd8a1e681⟩,⟨4,20,0xe7d3fbc8⟩),
   (⟨9,5,0x21e1cde6⟩,⟨14,9,0xc33707d6⟩,⟨3,14,0xf4d50d87⟩,⟨8,20,0x455a14ed⟩),
   (⟨13,5,0xa9e3e905⟩,⟨2,9,0xfcefa3f8⟩,⟨7,14,0x676f02d9⟩,⟨12,20,0x8d2a4c8a⟩)]

def round3 : List (Operation × Operation × Operation × Operation) :=
  [(⟨5,4,0xfffa3942⟩,⟨8,11,0x8771f681⟩,⟨11,16,0x6d9d6122⟩,⟨14,23,0xfde5380c⟩),
   (⟨1,4,0xa4beea44⟩,⟨4,11,0x4bdecfa9⟩,⟨7,16,0xf6bb4b60⟩,⟨10,23,0xbebfbc70⟩),
   (⟨13,4,0x289b7ec6⟩,⟨0,11,0xeaa127fa⟩,⟨3,16,0xd4ef3085⟩,⟨6,23,0x04881d05⟩),
   (⟨9,4,0xd9d4d039⟩,⟨12,11,0xe6db99e5⟩,⟨15,16,0x1fa27cf8⟩,⟨2,23,0xc4ac5665⟩)]

def round4 : List (Operation × Operation × Operation × Operation) :=
  [(⟨0,6,0xf4292244⟩,⟨7,10,0x432aff97⟩,⟨14,15,0xab9423a7⟩,⟨5,21,0xfc93a039⟩),
   (⟨12,6,0x655b59c3⟩,⟨3,10,0x8f0ccc92⟩,⟨10,15,0xffeff47d⟩,⟨1,21,0x85845dd1⟩),
   (⟨8,6,0x6fa87e4f⟩,⟨15,10,0xfe2ce6e0⟩,⟨6,15,0xa3014314⟩,⟨13,21,0x4e0811a1⟩),
   (⟨4,6,0xf7537e82⟩,⟨11,10,0xbd3af235⟩,⟨2,15,0x2ad7d2bb⟩,⟨9,21,0xeb86d391⟩)]

/-- X[k] of a block. -/
def words (data : List UInt8) (k : Nat) : UInt32 :=
  let byte := fun i => (data.getD (4 * k + i) 0).toUInt32
  byte 0 + (byte 1 <<< 8) + (byte 2 <<< 16) + (byte 3 <<< 24)

def md5_process (abcd : Abcd) (data : List UInt8) : Abcd :=
  let X := words data
  let word := round1.foldl (setRow F X) abcd
  let word := round2.foldl (setRow G X) word
  let word := round3.foldl (setRow H X) word
  let word := round4.foldl (setRow I X) word
  ⟨abcd.a + word.a,abcd.b + word.b,abcd.c + word.c,abcd.d + word.d⟩

/-! ### A message -/

structure md5_state_t where
  count : UInt32 × UInt32
  abcd : Abcd
  buf : List UInt8

def start : Abcd := ⟨0x67452301,0xefcdab89,0x98badcfe,0x10325476⟩

/-- `buf` is left as it is. -/
def md5_init (pms : md5_state_t) : md5_state_t := { pms with count := (0,0), abcd := start }

/-- The full blocks and the final partial block of `p`. -/
def md5_blocks (pms : md5_state_t) (p : List UInt8) : md5_state_t :=
  let pms := { pms with abcd := blocks 64 md5_process (p.length / 64) pms.abcd p }
  { pms with buf := overwrite pms.buf 0 (p.drop (64 * (p.length / 64))) }

/-- The message length, updated; the shift of a large number is the one of its low bits. -/
def lengthen (count : UInt32 × UInt32) (nbytes : Int32) : UInt32 × UInt32 :=
  let nbits := (nbytes <<< 3).toUInt32
  let low := count.1 + nbits
  let high := count.2 + (nbytes >>> 29).toUInt32
  (low,if low < nbits then high + 1 else high)

def md5_append (pms : md5_state_t) (data : List UInt8) (nbytes : Int32) : md5_state_t :=
  if nbytes ≤ 0 then pms else
  let p := data.take nbytes.toNatClampNeg
  let offset := ((pms.count.1 >>> 3) &&& 63).toNat
  let pms := { pms with count := lengthen pms.count nbytes }
  if offset = 0 then md5_blocks pms p else
  let copy := if 64 < offset + p.length then 64 - offset else p.length
  let pms := { pms with buf := overwrite pms.buf offset (p.take copy) }
  if offset + copy < 64 then pms
  else md5_blocks { pms with abcd := md5_process pms.abcd pms.buf } (p.drop copy)

/-- The bytes of a word, the lowest first. -/
def wordBytes (word : UInt32) : List UInt8 := (List.range 4).map fun i => (word >>> (8 * UInt32.ofNat i)).toUInt8

def pad : List UInt8 := 0x80::List.replicate 63 0

def md5_finish (pms : md5_state_t) : List UInt8 :=
  let data := wordBytes pms.count.1 ++ wordBytes pms.count.2
  let pms := md5_append pms pad ((((55 : UInt32) - (pms.count.1 >>> 3)) &&& 63) + 1).toInt32
  let pms := md5_append pms data 8
  wordBytes pms.abcd.a ++ wordBytes pms.abcd.b ++ wordBytes pms.abcd.c ++ wordBytes pms.abcd.d

def hexDigit (n : UInt8) : UInt8 := if n < 10 then 48 + n else 87 + n

/-- `%02x`. -/
def hex (byte : UInt8) : List UInt8 := [hexDigit (byte / 16),hexDigit (byte % 16)]

/-- `pms` is the state before `md5_init`; the length of the source passes through `int`. -/
def Calculate (pms : md5_state_t) (sSource : List UInt8) : List UInt8 :=
  (md5_finish (md5_append (md5_init pms) sSource (Int32.ofNat sSource.length))).flatMap hex

/-! ### Words -/

theorem toNat_offset (count : UInt32) : ((count >>> 3) &&& 63).toNat = count.toNat / 8 % 64 := by
  have mask : (63 : UInt32).toNat = 2 ^ 6 - 1 := by decide
  rw [UInt32.toNat_and,mask,Nat.and_two_pow_sub_one_eq_mod,UInt32.toNat_shiftRight,Nat.shiftRight_eq_div_pow]
  rfl

variable {nbytes : Int32}

theorem toNat_nbits (natural : 0 ≤ nbytes) : (nbytes <<< 3).toUInt32.toNat = 8 * nbytes.toNatClampNeg % 2 ^ 32 := by
  have shift : (nbytes <<< 3).toUInt32.toBitVec = nbytes.toBitVec <<< 3 := rfl
  rw [← UInt32.toNat_toBitVec,shift,BitVec.toNat_shiftLeft,Int32.toNat_toBitVec_of_le natural,Nat.shiftLeft_eq]
  omega

theorem toNat_high (natural : 0 ≤ nbytes) : (nbytes >>> 29).toUInt32.toNat = nbytes.toNatClampNeg / 2 ^ 29 := by
  have shift : (nbytes >>> 29).toUInt32.toBitVec = nbytes.toBitVec.sshiftRight 29 := rfl
  have sign : nbytes.toBitVec.msb = false := by
    rw [BitVec.msb_eq_false_iff_two_mul_lt,Int32.toNat_toBitVec_of_le natural]
    have := nbytes.toNatClampNeg_lt
    omega
  rw [← UInt32.toNat_toBitVec,shift,BitVec.sshiftRight_eq_of_msb_false sign,BitVec.toNat_ushiftRight,Int32.toNat_toBitVec_of_le natural,
    Nat.shiftRight_eq_div_pow]

/-! ### What a state holds -/

/-- The state holds a message: its length in bits, its whole blocks and, in `buf`, what is left of it. -/
structure Holds (pms : md5_state_t) (message : List UInt8) : Prop where
  counted : pms.count.1.toNat + 2 ^ 32 * pms.count.2.toNat = 8 * message.length % 2 ^ 64
  taken : pms.abcd = (absorb 64 md5_process start message).1
  room : pms.buf.length = 64
  kept : (absorb 64 md5_process start message).2 <+: pms.buf

variable {pms : md5_state_t} {message p data : List UInt8}

theorem md5_init_holds (room : pms.buf.length = 64) : Holds (md5_init pms) [] := by
  refine ⟨rfl,rfl,room,?_⟩
  rw [absorb_nil (by decide)]
  exact List.nil_prefix

theorem Holds.offset (holds : Holds pms message) : ((pms.count.1 >>> 3) &&& 63).toNat = message.length % 64 := by
  have counted := holds.counted
  have low := pms.count.1.toNat_lt
  rw [toNat_offset]
  omega

/-- The new length, with the carry into the high word. -/
theorem Holds.lengthen (holds : Holds pms message) (natural : 0 ≤ nbytes) :
    (lengthen pms.count nbytes).1.toNat + 2 ^ 32 * (lengthen pms.count nbytes).2.toNat =
      8 * (message.length + nbytes.toNatClampNeg) % 2 ^ 64 := by
  have counted := holds.counted
  have bits := toNat_nbits natural
  have above := toNat_high natural
  have small := nbytes.toNatClampNeg_lt
  have low := pms.count.1.toNat_lt
  have high := pms.count.2.toNat_lt
  have carry := UInt32.toNat_add pms.count.1 (nbytes <<< 3).toUInt32
  have sum := UInt32.toNat_add pms.count.2 (nbytes >>> 29).toUInt32
  have next := UInt32.toNat_add (pms.count.2 + (nbytes >>> 29).toUInt32) 1
  have one : (1 : UInt32).toNat = 1 := rfl
  rw [Md5sum.lengthen]
  dsimp only
  split <;> (rename_i less; rw [UInt32.lt_iff_toNat_lt] at less; omega)

/-- What `md5_blocks` makes of a state, whatever its block holds. -/
theorem md5_blocks_spec (pms : md5_state_t) (p : List UInt8) (room : pms.buf.length = 64) :
    (md5_blocks pms p).count = pms.count ∧ (md5_blocks pms p).abcd = (absorb 64 md5_process pms.abcd p).1 ∧
      (md5_blocks pms p).buf.length = 64 ∧ (absorb 64 md5_process pms.abcd p).2 <+: (md5_blocks pms p).buf := by
  have left := @length_absorb _ _ 64 md5_process pms.abcd p
  have fits : 0 + (p.drop (64 * (p.length / 64))).length ≤ pms.buf.length := by
    rw [List.length_drop,room]
    omega
  exact ⟨rfl,rfl,(length_overwrite fits).trans room,pms.buf.drop _,rfl⟩

/-- A call takes its bytes, wherever the last one ended in a block. -/
theorem Holds.append (holds : Holds pms message) (positive : 0 < nbytes) (readable : nbytes.toNatClampNeg ≤ data.length) :
    Holds (md5_append pms data nbytes) (message ++ data.take nbytes.toNatClampNeg) := by
  have whole : (data.take nbytes.toNatClampNeg).length = nbytes.toNatClampNeg := by rw [List.length_take,min_eq_left readable]
  have counted := holds.lengthen (Int32.le_of_lt positive)
  have left := @length_absorb _ _ 64 md5_process start message
  have split := @absorb_append _ _ 64 md5_process (by decide) start message (data.take nbytes.toNatClampNeg)
  have length : (message ++ data.take nbytes.toNatClampNeg).length = message.length + nbytes.toNatClampNeg := by
    rw [List.length_append,whole]
  rw [md5_append,if_neg (Int32.not_le.mpr positive)]
  dsimp only
  rw [← length] at counted
  generalize data.take nbytes.toNatClampNeg = p at *
  generalize Md5sum.lengthen pms.count nbytes = count at *
  rw [holds.offset,← left]
  rw [← holds.taken] at split
  obtain ⟨behind,kept⟩ := holds.kept
  have room := holds.room
  have short : message.length % 64 < 64 := Nat.mod_lt _ (by decide)
  generalize (absorb 64 md5_process start message).2 = rest at *
  have front : pms.buf.take rest.length = rest := by rw [← kept,List.take_left]
  have copy : (if 64 < rest.length + p.length then 64 - rest.length else p.length) = min (64 - rest.length) p.length := by
    split <;> omega
  have copied : (p.take (min (64 - rest.length) p.length)).length = min (64 - rest.length) p.length := by
    rw [List.length_take]
    omega
  have fits : rest.length + (p.take (min (64 - rest.length) p.length)).length ≤ pms.buf.length := by omega
  rw [copy]
  split_ifs with empty partial_
  · rw [List.length_eq_zero_iff.mp empty,List.nil_append] at split
    obtain ⟨same,abcd,size,stored⟩ := md5_blocks_spec { pms with count } p room
    rw [← split] at abcd stored
    exact ⟨by rw [same]; exact counted,abcd,size,stored⟩
  -- all of `p` goes into the block, which is not full yet
  · have all : p.take (min (64 - rest.length) p.length) = p := List.take_of_length_le (by omega)
    have waits : (rest ++ p).length < 64 := by
      rw [List.length_append]
      omega
    rw [absorb_of_lt waits] at split
    refine ⟨counted,?_,(length_overwrite fits).trans room,?_⟩
    · rw [split]
    · rw [split,all,overwrite,front]
      exact List.prefix_append _ _
  -- the block is filled and processed before the rest of `p`
  · have filled : overwrite pms.buf rest.length (p.take (min (64 - rest.length) p.length)) =
        rest ++ p.take (min (64 - rest.length) p.length) := by
      rw [overwrite,front,List.drop_eq_nil_of_le (by omega),List.append_nil]
    have block := @absorb_block _ _ 64 md5_process _ (by decide) ((length_overwrite fits).trans room) pms.abcd
      (p.drop (min (64 - rest.length) p.length))
    rw [filled,List.append_assoc,List.take_append_drop,← split,← filled] at block
    obtain ⟨same,abcd,size,stored⟩ := md5_blocks_spec
      { count,abcd := md5_process pms.abcd (overwrite pms.buf rest.length (p.take (min (64 - rest.length) p.length))),
        buf := overwrite pms.buf rest.length (p.take (min (64 - rest.length) p.length)) }
      (p.drop (min (64 - rest.length) p.length)) ((length_overwrite fits).trans room)
    rw [← block] at abcd stored
    exact ⟨by rw [same]; exact counted,abcd,size,stored⟩

/-! ### A digest -/

theorem toBytes_add (n m value : Nat) : toBytes n value ++ toBytes m (value / 256 ^ n) = toBytes (n + m) value := by
  induction n generalizing value with
  | zero => rw [toBytes,List.nil_append,pow_zero,Nat.div_one,Nat.zero_add]
  | succ n ih => rw [Nat.add_right_comm,toBytes,toBytes,List.cons_append,← ih,Nat.div_div_eq_div_mul,pow_succ']

theorem toBytes_mod (n value : Nat) : toBytes n (value % 256 ^ n) = toBytes n value := by
  have same := toBytes_ofBytes (toBytes n value)
  rwa [length_toBytes,ofBytes_toBytes] at same

theorem wordBytes_toBytes (word : UInt32) : wordBytes word = toBytes 4 word.toNat := by
  have each : ∀ i < 4, (word >>> (8 * UInt32.ofNat i)).toUInt8 = UInt8.ofNat (word.toNat / 256 ^ i) := by
    intro i less
    have shift : (8 * UInt32.ofNat i).toNat % 32 = 8 * i := by
      rw [UInt32.toNat_mul,UInt32.toNat_ofNat']
      change 8 * (i % 2 ^ 32) % 2 ^ 32 % 32 = 8 * i
      omega
    apply UInt8.toNat_inj.mp
    rw [UInt32.toNat_toUInt8,UInt32.toNat_shiftRight,shift,Nat.shiftRight_eq_div_pow,UInt8.toNat_ofNat',Nat.pow_mul]
  have bytes : wordBytes word = (List.range 4).map fun i => UInt8.ofNat (word.toNat / 256 ^ i) :=
    List.map_congr_left fun i member => each i (List.mem_range.mp member)
  rw [bytes]
  simp only [List.range_succ,List.range_zero,List.nil_append,List.cons_append,List.map_cons,List.map_nil,toBytes,Nat.div_div_eq_div_mul,
    pow_zero,Nat.div_one]
  rfl

def padding (length : Nat) : List UInt8 := 0x80::List.replicate ((119 - length % 64) % 64) 0 ++ toBytes 8 (8 * length)

/-- The digest of a message. -/
def MD5 (message : List UInt8) : List UInt8 :=
  let padded := message ++ padding message.length
  let abcd := blocks 64 md5_process (padded.length / 64) start padded
  wordBytes abcd.a ++ wordBytes abcd.b ++ wordBytes abcd.c ++ wordBytes abcd.d

theorem Holds.length_bytes (holds : Holds pms message) :
    wordBytes pms.count.1 ++ wordBytes pms.count.2 = toBytes 8 (8 * message.length) := by
  have counted := holds.counted
  have low := pms.count.1.toNat_lt
  have high : (8 * message.length % 2 ^ 64) / 256 ^ 4 = pms.count.2.toNat := by omega
  have lowest : 8 * message.length % 2 ^ 64 % 256 ^ 4 = pms.count.1.toNat := by omega
  rw [wordBytes_toBytes,wordBytes_toBytes,← toBytes_mod 8,← toBytes_add 4 4,← toBytes_mod 4 (_ % _),← high,← lowest]
  rfl

theorem Holds.pad_length (holds : Holds pms message) :
    ((((55 : UInt32) - (pms.count.1 >>> 3)) &&& 63) + 1).toInt32.toNatClampNeg = (119 - message.length % 64) % 64 + 1 := by
  have counted := holds.counted
  have low := pms.count.1.toNat_lt
  have mask : (63 : UInt32).toNat = 2 ^ 6 - 1 := by decide
  have shift : (pms.count.1 >>> 3).toNat = pms.count.1.toNat / 8 := by
    rw [UInt32.toNat_shiftRight,Nat.shiftRight_eq_div_pow]
    rfl
  have number : ((((55 : UInt32) - (pms.count.1 >>> 3)) &&& 63) + 1).toNat = (119 - message.length % 64) % 64 + 1 := by
    rw [UInt32.toNat_add,UInt32.toNat_and,mask,Nat.and_two_pow_sub_one_eq_mod,UInt32.toNat_sub,shift]
    change (((2 ^ 32 - pms.count.1.toNat / 8 + 55) % 2 ^ 32) % 2 ^ 6 + 1) % 2 ^ 32 = _
    omega
  generalize (((55 : UInt32) - (pms.count.1 >>> 3)) &&& 63) + 1 = word at *
  have signed : word.toInt32 = Int32.ofNat word.toNat := UInt32.toInt32_ofNatLT word.toNat_lt
  rw [signed,number,Int32.toNatClampNeg_ofNat_of_lt (by omega)]

theorem Holds.finish (holds : Holds pms message) : md5_finish pms = MD5 message := by
  have pads := holds.pad_length
  have bytes := holds.length_bytes
  rw [md5_finish,bytes]
  generalize ((((55 : UInt32) - (pms.count.1 >>> 3)) &&& 63) + 1).toInt32 = nbytes at *
  have positive : 0 < nbytes := by
    rw [Int32.lt_iff_toInt_lt]
    have number : nbytes.toInt.toNat = _ := pads
    change 0 < nbytes.toInt
    omega
  have front : pad.take nbytes.toNatClampNeg = 0x80::List.replicate ((119 - message.length % 64) % 64) 0 := by
    rw [pads,pad,List.take_succ_cons,List.take_replicate,min_eq_left (by omega)]
  have padded := holds.append positive (show nbytes.toNatClampNeg ≤ pad.length by rw [pads,pad,List.length_cons,List.length_replicate]; omega)
  have finished := padded.append (show (0 : Int32) < 8 by decide) (show (8 : Int32).toNatClampNeg ≤ (toBytes 8 (8 * message.length)).length by
    rw [length_toBytes]; decide)
  have last : (toBytes 8 (8 * message.length)).take (8 : Int32).toNatClampNeg = toBytes 8 (8 * message.length) :=
    List.take_of_length_le (by rw [length_toBytes]; decide)
  have abcd := finished.taken
  rw [last,front,List.append_assoc] at abcd
  rw [abcd]
  rfl

/-! ### Padding -/

/-- The padded text tells which message it is of. -/
theorem padded_injective {first second : List UInt8} (small : first.length < 2 ^ 61) (small' : second.length < 2 ^ 61)
    (same : first ++ padding first.length = second ++ padding second.length) : first = second := by
  have parts : ∀ message : List UInt8, message ++ padding message.length =
      (message ++ 0x80::List.replicate ((119 - message.length % 64) % 64) 0) ++ toBytes 8 (8 * message.length) := by
    intro message
    rw [padding,List.append_assoc]
  rw [parts,parts] at same
  have lengths := (List.append_inj' same (by rw [length_toBytes,length_toBytes])).2
  have number := congrArg ofBytes lengths
  rw [ofBytes_toBytes_of_lt (by omega),ofBytes_toBytes_of_lt (by omega)] at number
  have equal : first.length = second.length := by omega
  rw [← parts,← parts] at same
  exact (List.append_inj same equal).1

/-! ### Messages in pieces -/

theorem Int32_positive {n : Nat} (some_ : n ≠ 0) (small : n < 2 ^ 31) : 0 < Int32.ofNat n := by
  rw [Int32.lt_iff_toInt_lt,Int32.toInt_ofNat_of_lt small]
  change (0 : Int) < n
  omega

theorem Holds.piece (holds : Holds pms message) (small : p.length < 2 ^ 31) :
    Holds (md5_append pms p (Int32.ofNat p.length)) (message ++ p) := by
  by_cases empty : p = []
  · subst empty
    rw [List.append_nil]
    exact holds
  · have bytes : (Int32.ofNat p.length).toNatClampNeg = p.length := Int32.toNatClampNeg_ofNat_of_lt small
    have appended := holds.append (Int32_positive (List.length_eq_zero_iff.not.mpr empty) small) bytes.le
    rwa [bytes,List.take_length] at appended

def md5_pieces (pms : md5_state_t) (pieces : List (List UInt8)) : md5_state_t :=
  pieces.foldl (fun pms data => md5_append pms data (Int32.ofNat data.length)) pms

theorem Holds.pieces (holds : Holds pms message) {pieces : List (List UInt8)} (small : ∀ piece ∈ pieces, piece.length < 2 ^ 31) :
    Holds (md5_pieces pms pieces) (message ++ pieces.flatten) := by
  induction pieces generalizing pms message with
  | nil =>
    rw [List.flatten_nil,List.append_nil]
    exact holds
  | cons piece pieces ih =>
    obtain ⟨first,others⟩ := List.forall_mem_cons.mp small
    rw [List.flatten_cons,← List.append_assoc]
    exact ih (holds.piece first) others

set_option maxRecDepth 4000 in
example : MD5 [97,98,99] = [0x90,0x01,0x50,0x98,0x3c,0xd2,0x4f,0xb0,0xd6,0x96,0x3f,0x7d,0x28,0xe1,0x7f,0x72] := by decide

/-! ### The text of a digest -/

theorem toNatClampNeg_length (n : Nat) : (Int32.ofNat n).toNatClampNeg = if n % 2 ^ 32 < 2 ^ 31 then n % 2 ^ 32 else 0 := by
  have size : Int32.size = 4294967296 := rfl
  rw [Int32.toNatClampNeg,Int32.toInt_ofNat',Int.bmod_def,size]
  split <;> split <;> omega

/-- `Calculate` gives the digest of what the `int` of the length leaves of the source. -/
theorem Calculate_digest (room : pms.buf.length = 64) (sSource : List UInt8) :
    Calculate pms sSource = (MD5 (sSource.take (if sSource.length % 2 ^ 32 < 2 ^ 31 then sSource.length % 2 ^ 32 else 0))).flatMap hex := by
  have bytes := toNatClampNeg_length sSource.length
  rw [← bytes,Calculate]
  by_cases positive : 0 < Int32.ofNat sSource.length
  · have readable : (Int32.ofNat sSource.length).toNatClampNeg ≤ sSource.length := by
      rw [bytes]
      split
      · exact Nat.mod_le _ _
      · exact Nat.zero_le _
    rw [((md5_init_holds room).append positive readable).finish,List.nil_append]
  · have none_ : (Int32.ofNat sSource.length).toNatClampNeg = 0 := by
      rw [Int32.lt_iff_toInt_lt] at positive
      exact Int.toNat_eq_zero.mpr (not_lt.mp positive)
    rw [md5_append,if_pos (Int32.not_lt.mp positive),(md5_init_holds room).finish,none_,List.take_zero]

theorem hexDigit_injective {first second : UInt8} (one : first.toNat < 16) (other : second.toNat < 16)
    (same : hexDigit first = hexDigit second) : first = second := by
  have each : ∀ m < 16, ∀ n < 16, hexDigit (UInt8.ofNat m) = hexDigit (UInt8.ofNat n) → UInt8.ofNat m = UInt8.ofNat n := by decide
  have here := each first.toNat one second.toNat other
  rw [UInt8.ofNat_toNat,UInt8.ofNat_toNat] at here
  exact here same

theorem hex_injective {first second : UInt8} (same : hex first = hex second) : first = second := by
  have high : ∀ byte : UInt8, (byte / 16).toNat < 16 := by
    intro byte
    have small := byte.toNat_lt
    rw [UInt8.toNat_div]
    exact (Nat.div_lt_iff_lt_mul (by decide)).mpr small
  have low : ∀ byte : UInt8, (byte % 16).toNat < 16 := by
    intro byte
    rw [UInt8.toNat_mod]
    exact Nat.mod_lt _ (by decide)
  obtain ⟨left,right⟩ := List.cons_eq_cons.mp same
  have digits := congrArg UInt8.toNat (hexDigit_injective (high first) (high second) left)
  have units := congrArg UInt8.toNat (hexDigit_injective (low first) (low second) (List.cons_eq_cons.mp right).1)
  rw [UInt8.toNat_div,UInt8.toNat_div] at digits
  rw [UInt8.toNat_mod,UInt8.toNat_mod] at units
  apply UInt8.toNat_inj.mp
  change first.toNat / 16 = second.toNat / 16 at digits
  change first.toNat % 16 = second.toNat % 16 at units
  omega

theorem hex_flatMap_injective {first second : List UInt8} (same : first.flatMap hex = second.flatMap hex) : first = second := by
  induction first generalizing second with
  | nil =>
    cases second with
    | nil => rfl
    | cons byte rest => cases same
  | cons byte rest ih =>
    cases second with
    | nil => cases same
    | cons other more =>
      rw [List.flatMap_cons,List.flatMap_cons] at same
      obtain ⟨digits,rest_⟩ := List.append_inj same rfl
      rw [hex_injective digits,ih rest_]

theorem Calculate_abc : Calculate ⟨(7,7),start,List.replicate 64 7⟩ [97,98,99] = (MD5 [97,98,99]).flatMap hex :=
  Calculate_digest (by decide) [97,98,99]

/-- Two texts are told apart by `Calculate` iff their digests differ. -/
theorem Calculate_eq_iff {other : md5_state_t} (room : pms.buf.length = 64) (room' : other.buf.length = 64) {first second : List UInt8}
    (small : first.length < 2 ^ 31) (small' : second.length < 2 ^ 31) :
    Calculate pms first = Calculate other second ↔ MD5 first = MD5 second := by
  have whole : ∀ {text : List UInt8}, text.length < 2 ^ 31 →
      text.take (if text.length % 2 ^ 32 < 2 ^ 31 then text.length % 2 ^ 32 else 0) = text := by
    intro text less
    rw [Nat.mod_eq_of_lt (by omega),if_pos less,List.take_length]
  rw [Calculate_digest room,Calculate_digest room',whole small,whole small']
  constructor
  · exact hex_flatMap_injective
  · intro same
    rw [same]

end Migfm.Public.Md5sum
