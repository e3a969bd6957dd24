import Mathlib.Tactic

/-! Little-endian byte strings of a fixed width and the numbers they denote.
A byte string of width `n` denotes a number below `256 ^ n`; writing and
reading are inverse to each other on both sides. -/
namespace Migfm.Library.LittleEndian

/-- The `n` lowest bytes of `value`, lowest first. -/
def toBytes : Nat → Nat → List UInt8
  | 0, _ => []
  | n+1, value => UInt8.ofNat value :: toBytes n (value / 256)

/-- The number a byte string denotes, lowest byte first. -/
def ofBytes : List UInt8 → Nat
  | [] => 0
  | byte::rest => byte.toNat + 256 * ofBytes rest

@[simp] theorem length_toBytes (n value : Nat) : (toBytes n value).length = n := by
  induction n generalizing value with
  | zero => rfl
  | succ n ih => simp [toBytes,ih]

theorem ofBytes_lt (bytes : List UInt8) : ofBytes bytes < 256 ^ bytes.length := by
  induction bytes with
  | nil => simp [ofBytes]
  | cons byte rest ih =>
    have small := byte.toNat_lt
    simp only [ofBytes,List.length_cons,Nat.pow_succ]
    omega

theorem ofBytes_toBytes (n value : Nat) : ofBytes (toBytes n value) = value % 256 ^ n := by
  induction n generalizing value with
  | zero => simp [toBytes,ofBytes,Nat.mod_one]
  | succ n ih =>
    have low : (UInt8.ofNat value).toNat = value % 256 := UInt8.toNat_ofNat'
    rw [toBytes,ofBytes,ih,low,Nat.pow_succ,Nat.mul_comm (256 ^ n) 256,Nat.mod_mul]

theorem ofBytes_toBytes_of_lt {n value : Nat} (bound : value < 256 ^ n) :
    ofBytes (toBytes n value) = value := by
  rw [ofBytes_toBytes,Nat.mod_eq_of_lt bound]

theorem toBytes_ofBytes (bytes : List UInt8) : toBytes bytes.length (ofBytes bytes) = bytes := by
  induction bytes with
  | nil => rfl
  | cons byte rest ih =>
    have small := byte.toNat_lt
    have high : (byte.toNat + 256 * ofBytes rest) / 256 = ofBytes rest := by omega
    have low : UInt8.ofNat (byte.toNat + 256 * ofBytes rest) = byte := by
      apply UInt8.toNat_inj.mp
      rw [UInt8.toNat_ofNat']
      omega
    simp only [ofBytes,List.length_cons,toBytes,high,low,ih]

/-- An integer type stored in a fixed number of bytes. -/
class Scalar (α : Type) where
  width : Nat
  zero : α
  encode : α → List UInt8
  decode : List UInt8 → α
  length_encode (value : α) : (encode value).length = width
  decode_encode (value : α) : decode (encode value) = value
  encode_decode (bytes : List UInt8) (size : bytes.length = width) : encode (decode bytes) = bytes

private theorem toBytes_mod {n : Nat} {bytes : List UInt8} (size : bytes.length = n) :
    toBytes n (ofBytes bytes % 256 ^ n) = bytes := by
  subst size
  rw [Nat.mod_eq_of_lt (ofBytes_lt bytes),toBytes_ofBytes]

instance : Scalar Int8 where
  width := 1
  zero := 0
  encode value := toBytes 1 value.toUInt8.toNat
  decode bytes := (UInt8.ofNat (ofBytes bytes)).toInt8
  length_encode _ := length_toBytes ..
  decode_encode value := by rw [ofBytes_toBytes_of_lt value.toUInt8.toNat_lt]; simp
  encode_decode bytes size := by
    have wrapped := toBytes_mod size
    simpa using wrapped

instance : Scalar Int16 where
  width := 2
  zero := 0
  encode value := toBytes 2 value.toUInt16.toNat
  decode bytes := (UInt16.ofNat (ofBytes bytes)).toInt16
  length_encode _ := length_toBytes ..
  decode_encode value := by rw [ofBytes_toBytes_of_lt value.toUInt16.toNat_lt]; simp
  encode_decode bytes size := by
    have wrapped := toBytes_mod size
    simpa using wrapped

instance : Scalar Int32 where
  width := 4
  zero := 0
  encode value := toBytes 4 value.toUInt32.toNat
  decode bytes := (UInt32.ofNat (ofBytes bytes)).toInt32
  length_encode _ := length_toBytes ..
  decode_encode value := by rw [ofBytes_toBytes_of_lt value.toUInt32.toNat_lt]; simp
  encode_decode bytes size := by
    have wrapped := toBytes_mod size
    simpa using wrapped

instance : Scalar Int64 where
  width := 8
  zero := 0
  encode value := toBytes 8 value.toUInt64.toNat
  decode bytes := (UInt64.ofNat (ofBytes bytes)).toInt64
  length_encode _ := length_toBytes ..
  decode_encode value := by rw [ofBytes_toBytes_of_lt value.toUInt64.toNat_lt]; simp
  encode_decode bytes size := by
    have wrapped := toBytes_mod size
    simpa using wrapped

/-- The value with the same bytes, highest first. -/
def Scalar.swap {α : Type} [Scalar α] (value : α) : α := Scalar.decode (Scalar.encode value).reverse

theorem Scalar.swap_swap {α : Type} [Scalar α] (value : α) : Scalar.swap (Scalar.swap value) = value := by
  have size : (Scalar.encode value).reverse.length = Scalar.width α := by rw [List.length_reverse,Scalar.length_encode]
  rw [Scalar.swap,Scalar.swap,Scalar.encode_decode _ size,List.reverse_reverse,Scalar.decode_encode]

end Migfm.Library.LittleEndian
