import Migfm.Wire.Buffer

/-! Typed values through `operator<<` and `operator>>` of public/protocol/data_packet.cc. -/
namespace Migfm.Wire.Buffer
open Library Library.LittleEndian Library.Words
open Public.Json (c_str)

/-! ### Byte order -/

section ByteOrder
variable (x : BitVec 64)

/-- The byte at place `k`, and no other. -/
theorem mask_bit {k : Nat} (below : k < 8) (j : Nat) : (255#64 <<< (8 * k)).getLsbD j = decide (8 * k ≤ j ∧ j < 8 * k + 8) := by
  rw [BitVec.getLsbD_shiftLeft]
  by_cases low : j < 8 * k
  · simp [low]
  · by_cases high : j < 8 * k + 8
    · have inside : j - 8 * k < 8 := by omega
      have one : (255#64).getLsbD (j - 8 * k) = true := by
        generalize j - 8 * k = n at inside
        interval_cases n <;> rfl
      simp [one,low,high]
      omega
    · have zero : (255#64).getLsbD (j - 8 * k) = false := by
        have narrow : 255#64 = BitVec.setWidth 64 255#8 := rfl
        rw [narrow,BitVec.getLsbD_setWidth,BitVec.getLsbD_of_ge _ _ (by omega),Bool.and_false]
      simp [zero]
      omega

def swapped : BitVec 64 :=
  ((x &&& 255#64 <<< (8 * 7)) >>> 56) ||| ((x &&& 255#64 <<< (8 * 6)) >>> 40) ||| ((x &&& 255#64 <<< (8 * 5)) >>> 24) |||
    ((x &&& 255#64 <<< (8 * 4)) >>> 8) ||| ((x &&& 255#64 <<< (8 * 3)) <<< 8) ||| ((x &&& 255#64 <<< (8 * 2)) <<< 24) |||
    ((x &&& 255#64 <<< (8 * 1)) <<< 40) ||| ((x &&& 255#64 <<< (8 * 0)) <<< 56)

/-- Every bit moves to the mirrored byte. -/
theorem swapped_bit {i : Nat} (below : i < 64) : (swapped x).getLsbD i = x.getLsbD (56 - 8 * (i / 8) + i % 8) := by
  simp only [swapped,BitVec.getLsbD_or,BitVec.getLsbD_and,BitVec.getLsbD_ushiftRight,BitVec.getLsbD_shiftLeft,
    mask_bit (show 7 < 8 by decide),mask_bit (show 6 < 8 by decide),mask_bit (show 5 < 8 by decide),mask_bit (show 4 < 8 by decide),
    mask_bit (show 3 < 8 by decide),mask_bit (show 2 < 8 by decide),mask_bit (show 1 < 8 by decide),mask_bit (show 0 < 8 by decide)]
  obtain ⟨k,r,small,rfl⟩ : ∃ k r, r < 8 ∧ i = 8 * k + r := ⟨i / 8,i % 8,Nat.mod_lt _ (by decide),(Nat.div_add_mod i 8).symm⟩
  have place : k < 8 := by omega
  interval_cases k <;> interval_cases r <;> simp

theorem swapped_swapped : swapped (swapped x) = x := by
  apply BitVec.eq_of_getLsbD_eq
  intro i below
  rw [swapped_bit _ below,swapped_bit _ (by omega)]
  congr 1
  omega

end ByteOrder

theorem htonl64_htonl64 (lw : Int64) : htonl64 (htonl64 lw) = lw := by
  have form (lw : Int64) : (htonl64 lw).toBitVec = swapped lw.toBitVec := rfl
  apply Int64.toBitVec_inj.mp
  rw [form,form,swapped_swapped]

/-! ### operator>> -/

inductive Kind
  | bool
  | int8
  | int16
  | int32
  | int64
  | text

def Value.kind : Value → Kind
  | .bool _ => .bool
  | .int8 _ => .int8
  | .int16 _ => .int16
  | .int32 _ => .int32
  | .int64 _ => .int64
  | .text _ => .text

/-- A string whose last byte is no NUL, or that is not there whole, reads as the empty one. -/
def readChars (len : Int32) : Reading (List UInt8) := fun packet =>
  if 0 < len.toInt ∧ len.toInt ≤ packet.remaining ∧ packet.data.read (packet.cursor + len.toInt - 1) = 0 then
    some (c_str (packet.data.copy packet.cursor len.toNatClampNeg).toList,
      { packet with cursor := packet.cursor + len.toInt,touched := packet.touched ++ [.copy packet.cursor len.toNatClampNeg] })
  else some ([],packet)

def readString : Reading (List UInt8) := do
  let dw ← read32
  readChars (htonl dw)

/-- `operator>>`; `ntohs`, `ntohl` and `ntohl64` swap the bytes as their counterparts do. -/
def get : Kind → Reading Value
  | .bool => (fun b => .bool (b != 0)) <$> read8
  | .int8 => .int8 <$> read8
  | .int16 => (fun w => .int16 (htons w)) <$> read16
  | .int32 => (fun dw => .int32 (htonl dw)) <$> read32
  | .int64 => (fun lw => .int64 (htonl64 lw)) <$> read64
  | .text => .text <$> readString

def getAll : List Kind → Reading (List Value)
  | [] => pure []
  | kind::kinds => do
    let value ← get kind
    let values ← getAll kinds
    return value::values

/-- The constructor. -/
def DataInPacket.new (bytes : List UInt8) (around : Int → UInt8) : DataInPacket := ⟨⟨bytes,around⟩,Int32.ofNat bytes.length,0,[]⟩

/-! ### Whole values -/

/-- A text has no NUL, and its length counts as an `int32`. -/
def Value.Proper : Value → Prop
  | .text str => 0 ∉ str ∧ str.length + 1 < 2^31
  | _ => True

/-- The blocks of a value. -/
def Value.blocks : Value → List (List UInt8)
  | .text str => [Scalar.encode (htonl (Int32.ofNat str.length + 1)),str ++ [0]]
  | value => [value.bytes]

theorem blocks_bytes {value : Value} (proper : value.Proper) : value.blocks.flatten = value.bytes := by
  cases value with
  | text str => simp [Value.blocks,Value.bytes,framed,Public.Json.c_str_nonzero proper.1]
  | _ => simp [Value.blocks]

theorem htonl_htonl (dw : Int32) : htonl (htonl dw) = dw := Scalar.swap_swap dw

theorem htons_htons (w : Int16) : htons (htons w) = w := Scalar.swap_swap w

theorem c_str_ended {str : List UInt8} (nonzero : 0 ∉ str) : c_str (str ++ [0]) = str := by
  rw [c_str,List.takeWhile_append_of_pos]
  · simp
  · intro byte member
    rw [decide_eq_true_iff]
    rintro rfl
    exact nonzero member

theorem reads_chars {str : List UInt8} (nonzero : 0 ∉ str) (small : str.length + 1 < 2^31) :
    Reads (readChars (Int32.ofNat str.length + 1)) [str ++ [0]] str := by
  intro packet rest ready
  simp only [List.flatten_cons,List.flatten_nil,List.append_nil] at ready
  have size : (str ++ [0]).length = str.length + 1 := List.length_append
  have len : (Int32.ofNat str.length + 1).toInt = (str ++ [0]).length := by
    rw [DataOutPacket.counted,Int32.toInt_ofNat_of_lt small,size]
  have clamp : (Int32.ofNat str.length + 1).toNatClampNeg = (str ++ [0]).length := by
    rw [DataOutPacket.counted,Int32.toNatClampNeg_ofNat_of_lt small,size]
  have left := ready.remaining
  have start := ready.cursor
  have place : (packet.cursor + ((str ++ [0]).length : Int) - 1).toNat = packet.cursor.toNat + str.length := by omega
  have last : packet.data.read (packet.cursor + ((str ++ [0]).length : Int) - 1) = 0 := by
    rw [Memory.read,if_pos (by omega),place,List.getD_eq_getElem?_getD,← List.getElem?_drop,ready.rest,List.append_assoc,
      List.getElem?_append_right (Nat.le_refl _),Nat.sub_self]
    rfl
  rw [List.length_append] at left
  refine ⟨_,?_,ready.advance (packet.touched ++ [.copy packet.cursor (str ++ [0]).length]) rfl,?_⟩
  · rw [readChars,len,clamp,if_pos ⟨by omega,by omega,last⟩,ready.copy,c_str_ended nonzero]
  · simp [DataInPacket.widths,Touch.width?]

theorem reads_string {str : List UInt8} (nonzero : 0 ∉ str) (small : str.length + 1 < 2^31) :
    Reads readString [Scalar.encode (htonl (Int32.ofNat str.length + 1)),str ++ [0]] str := by
  apply Reads.cons (reads_scalar (htonl (Int32.ofNat str.length + 1)))
  rw [htonl_htonl]
  exact reads_chars nonzero small

theorem reads_value {value : Value} (proper : value.Proper) : Reads (get value.kind) value.blocks value := by
  cases value with
  | bool b =>
    have read := Reads.map (fun b : Int8 => Value.bool (b != 0)) (reads_scalar (if b then 1 else 0 : Int8))
    cases b <;> exact read
  | int8 b => exact Reads.map Value.int8 (reads_scalar b)
  | int16 w =>
    have read := Reads.map (fun w => Value.int16 (htons w)) (reads_scalar (htons w))
    rw [htons_htons] at read
    exact read
  | int32 dw =>
    have read := Reads.map (fun dw => Value.int32 (htonl dw)) (reads_scalar (htonl dw))
    rw [htonl_htonl] at read
    exact read
  | int64 lw =>
    have read := Reads.map (fun lw => Value.int64 (htonl64 lw)) (reads_scalar (htonl64 lw))
    rw [htonl64_htonl64] at read
    exact read
  | text str => exact Reads.map Value.text (reads_string proper.1 proper.2)

theorem reads_all {values : List Value} (proper : ∀ value ∈ values, value.Proper) :
    Reads (getAll (values.map Value.kind)) (values.flatMap Value.blocks) values := by
  induction values with
  | nil => exact Reads.pure []
  | cons value values ih =>
    obtain ⟨this,others⟩ := List.forall_mem_cons.mp proper
    rw [List.flatMap_cons,← List.append_nil (values.flatMap Value.blocks)]
    exact (reads_value this).append ((ih others).append (Reads.pure (value::values)))

/-! ### Cut streams -/

/-- The cursor has not passed the end. -/
def DataInPacket.Inside (packet : DataInPacket) : Prop := 0 ≤ packet.cursor ∧ packet.cursor ≤ packet.dataLen.toInt

/-- A reader always has an outcome, and does not pass the end. -/
def Stays {α : Type} (m : Reading α) : Prop := ∀ packet : DataInPacket, DataInPacket.Inside packet →
  ∃ value next, m packet = some (value,next) ∧ DataInPacket.Inside next ∧ next.dataLen = packet.dataLen

section Stays
variable {α β : Type}

theorem Stays.bind {m : Reading α} {k : α → Reading β} (head : Stays m) (tail : ∀ a, Stays (k a)) : Stays (m >>= k) := by
  intro packet inside
  obtain ⟨a,middle,first,inside,same⟩ := head packet inside
  obtain ⟨b,next,second,inside,still⟩ := tail a middle inside
  refine ⟨b,next,?_,inside,still.trans same⟩
  simp only [Bind.bind,StateT.bind,first,Option.bind_some]
  exact second

theorem stays_pure (a : α) : Stays (pure a) := fun packet inside => ⟨a,packet,rfl,inside,rfl⟩

theorem Stays.map {m : Reading α} (f : α → β) (head : Stays m) : Stays (f <$> m) := by
  rw [map_eq_pure_bind]
  exact head.bind fun a => stays_pure (f a)

theorem stays_scalar [Scalar α] : Stays (readScalar α) := by
  intro packet inside
  have high := packet.dataLen.toInt_lt
  obtain ⟨low,most⟩ := inside
  have left : sizeT packet.remaining = packet.remaining.toNat := by
    rw [DataInPacket.remaining]
    exact sizeT_of_nonneg (by omega) (by omega)
  rw [readScalar,left]
  by_cases enough : Scalar.width α ≤ packet.remaining.toNat
  · rw [if_pos enough]
    refine ⟨_,_,rfl,?_,rfl⟩
    rw [DataInPacket.remaining] at enough
    simp only [DataInPacket.Inside]
    omega
  · rw [if_neg enough]
    exact ⟨_,_,rfl,⟨low,most⟩,rfl⟩

theorem stays_chars (len : Int32) : Stays (readChars len) := by
  intro packet inside
  obtain ⟨low,most⟩ := inside
  rw [readChars]
  split
  · rename_i there
    obtain ⟨some_,enough,_⟩ := there
    rw [DataInPacket.remaining] at enough
    refine ⟨_,_,rfl,?_,rfl⟩
    simp only [DataInPacket.Inside]
    omega
  · exact ⟨_,_,rfl,⟨low,most⟩,rfl⟩

end Stays

theorem stays_get (kind : Kind) : Stays (get kind) := by
  cases kind with
  | bool => exact stays_scalar.map _
  | int8 => exact stays_scalar.map _
  | int16 => exact stays_scalar.map _
  | int32 => exact stays_scalar.map _
  | int64 => exact stays_scalar.map _
  | text => exact (stays_scalar.bind fun dw => stays_chars (htonl dw)).map _

theorem stays_getAll (kinds : List Kind) : Stays (getAll kinds) := by
  induction kinds with
  | nil => exact stays_pure []
  | cons kind kinds ih => exact (stays_get kind).bind fun value => ih.bind fun values => stays_pure (value::values)

/-- A list is read in two parts. -/
theorem getAll_append (first rest : List Kind) : getAll (first ++ rest) = do
    let values ← getAll first
    let more ← getAll rest
    return values ++ more := by
  induction first with
  | nil =>
    rw [List.nil_append,getAll,pure_bind]
    simp
  | cons kind first ih =>
    rw [List.cons_append,getAll,getAll,ih]
    simp

theorem DataInPacket.new_ready {bytes : List UInt8} (small : bytes.length < 2^31) (around : Int → UInt8) :
    DataInPacket.Ready (DataInPacket.new bytes around) bytes :=
  ⟨Int.le_refl 0,rfl,Nat.zero_le _,Int32.toInt_ofNat_of_lt small⟩

theorem DataInPacket.new_inside {bytes : List UInt8} (small : bytes.length < 2^31) (around : Int → UInt8) :
    DataInPacket.Inside (DataInPacket.new bytes around) := by
  have whole := (DataInPacket.new_ready small around).dataLen
  refine ⟨Int.le_refl 0,?_⟩
  rw [whole]
  exact Int.natCast_nonneg _

/-- However many values are read, the cursor does not pass the end of the bytes, and the values that are
whole in them are the ones written. -/
def Recovered (values : List Value) (bytes : List UInt8) : Prop := ∀ (around : Int → UInt8), ∀ count ≤ values.length,
  ∃ read packet, getAll ((values.take count).map Value.kind) (DataInPacket.new bytes around) = some (read,packet) ∧
    0 ≤ packet.cursor ∧ packet.cursor ≤ bytes.length ∧
    ∀ whole ≤ count, ((values.take whole).flatMap Value.bytes).length ≤ bytes.length → read.take whole = values.take whole

theorem blocks_flatten {values : List Value} (proper : ∀ value ∈ values, value.Proper) :
    (values.flatMap Value.blocks).flatten = values.flatMap Value.bytes := by
  induction values with
  | nil => rfl
  | cons value values ih =>
    obtain ⟨this,others⟩ := List.forall_mem_cons.mp proper
    rw [List.flatMap_cons,List.flatten_append,List.flatMap_cons,blocks_bytes this,ih others]

/-- The bytes of values, cut anywhere. -/
theorem recovered_cut {values : List Value} (proper : ∀ value ∈ values, value.Proper) (small : (values.flatMap Value.bytes).length < 2^31)
    (cut : Nat) : Recovered values ((values.flatMap Value.bytes).take cut) := by
  intro around count most
  have bound : ((values.flatMap Value.bytes).take cut).length < 2^31 := Nat.lt_of_le_of_lt (List.length_take_le' ..) small
  obtain ⟨read,packet,outcome,⟨low,high⟩,same⟩ := stays_getAll ((values.take count).map Value.kind) _ (DataInPacket.new_inside bound around)
  rw [same,(DataInPacket.new_ready bound around).dataLen] at high
  refine ⟨read,packet,outcome,low,high,?_⟩
  intro whole part there
  have kinds : (values.take count).map Value.kind = (values.take whole).map Value.kind ++ ((values.take count).drop whole).map Value.kind := by
    have same : values.take whole = (values.take count).take whole := by rw [List.take_take,Nat.min_eq_left part]
    rw [← List.map_append,same,List.take_append_drop]
  have bytes : ∃ rest, (values.flatMap Value.bytes).take cut = (values.take whole).flatMap Value.bytes ++ rest := by
    have parts : values.flatMap Value.bytes = (values.take whole).flatMap Value.bytes ++ (values.drop whole).flatMap Value.bytes := by
      rw [← List.flatMap_append,List.take_append_drop]
    rw [List.length_take] at there
    rw [parts,List.take_append,List.take_of_length_le (Nat.le_trans there (Nat.min_le_left ..))]
    exact ⟨_,rfl⟩
  obtain ⟨rest,split⟩ := bytes
  have ready := DataInPacket.new_ready bound around
  have firsts : ∀ value ∈ values.take whole, value.Proper := fun value member => proper value (List.mem_of_mem_take member)
  obtain ⟨next,first,_,_⟩ := reads_all firsts _ rest (by rw [blocks_flatten firsts,← split]; exact ready)
  rw [kinds,getAll_append] at outcome
  simp only [Bind.bind,StateT.bind,first,Option.bind_some] at outcome
  obtain ⟨⟨more,last⟩,_,outcome⟩ := Option.bind_eq_some_iff.mp outcome
  cases outcome
  apply List.take_left'
  rw [List.length_take]
  omega

/-! ### Lost bytes -/

namespace DataOutPacket

/-- The writer finds the room that it needs, or doubles a length that stays an `int32`. -/
def Room (out : DataOutPacket) (call : Call) : Prop := Roomy out.cursor_ out.buffer_.length call.need call.bytes.length

section Lost
variable {heap : Nat → Nat → UInt8} {out after : DataOutPacket}

/-- A cursor within an `int32`, and no further than `most`. -/
def Reaches (after : DataOutPacket) (most : Nat) : Prop := after.cursor_ ≤ most ∧ after.cursor_ ≤ after.buffer_.length ∧ after.buffer_.length < 2^31

theorem failed_reaches (out : DataOutPacket) (most : Nat) : Reaches out.failed most := ⟨Nat.zero_le _,Nat.zero_le _,Nat.two_pow_pos 31⟩

theorem store_reaches {bytes : List UInt8} (int : out.buffer_.length < 2^31) (done : store bytes out = some after) :
    Reaches after (out.cursor_ + bytes.length) := by
  rw [store] at done
  by_cases room : out.cursor_ + bytes.length ≤ out.buffer_.length
  · rw [if_pos room] at done
    cases done
    have length : (out.buffer_.take out.cursor_ ++ bytes ++ out.buffer_.drop (out.cursor_ + bytes.length)).length = out.buffer_.length := by
      rw [List.length_append,List.length_append,List.length_take,List.length_drop]
      omega
    exact ⟨Nat.le_refl _,by rw [length]; exact room,by rw [length]; exact int⟩
  · rw [if_neg room] at done
    cases done

theorem grow_int {need : Nat} (int : out.buffer_.length < 2^31) (done : grow heap need out = some after) :
    after.cursor_ = out.cursor_ ∧ after.buffer_.length < 2^31 := by
  rw [grow] at done
  split at done
  · simp only at done
    split at done
    · cases done
    · cases done
      have high := (Int32.ofNat need * 2).toInt_lt
      refine ⟨rfl,?_⟩
      rw [List.length_map,List.length_range]
      omega
  · cases done
    exact ⟨rfl,int⟩

theorem write_reaches {bytes : List UInt8} (int : out.buffer_.length < 2^31) (done : write heap bytes out = some after) :
    Reaches after (out.cursor_ + bytes.length) := by
  rw [write] at done
  cases grown : grow heap (out.cursor_ + bytes.length) out with
  | none =>
    rw [grown] at done
    cases done
    exact failed_reaches _ _
  | some ready =>
    rw [grown] at done
    obtain ⟨cursor,int⟩ := grow_int int grown
    rw [← cursor]
    exact store_reaches int done

theorem writeString_reaches {str : List UInt8} {n : Int32} (int : out.buffer_.length < 2^31) (done : WriteString heap str n out = some after) :
    Reaches after (out.cursor_ + (str.length + 5)) := by
  rw [WriteString] at done
  cases grown : grow heap (sizeT (out.cursor_ + n.toInt + 4)) out with
  | none =>
    simp only [grown] at done
    cases done
    exact failed_reaches _ _
  | some ready =>
    simp only [grown] at done
    obtain ⟨prefixed,first,done⟩ := Option.bind_eq_some_iff.mp done
    obtain ⟨cursor,int⟩ := grow_int int grown
    obtain ⟨low,_,int⟩ := write_reaches int first
    split at done
    · cases done
    · have four : (Scalar.encode (htonl (n + 1))).length = 4 := Scalar.length_encode _
      obtain ⟨last,within,int⟩ := store_reaches int done
      have copied_ : ((str.take n.toNatClampNeg ++ [0]).take (n + 1).toNatClampNeg).length ≤ str.length + 1 := by
        rw [List.length_take,List.length_append,List.length_take,List.length_singleton]
        omega
      exact ⟨by omega,within,int⟩

theorem perform_reaches {value : Value} (int : out.buffer_.length < 2^31) (done : out.perform heap (.put value) = some after) :
    Reaches after (out.cursor_ + value.bytes.length) := by
  cases value with
  | bool b => exact write_reaches int done
  | int8 b => exact write_reaches int done
  | int16 w => exact write_reaches int done
  | int32 dw => exact write_reaches int done
  | int64 lw => exact write_reaches int done
  | text str =>
    rw [Value.bytes,framed_length]
    exact writeString_reaches int done

/-- From 2^30 on the doubled length is negative. -/
theorem grow_fails {need : Nat} (enough : out.buffer_.length < need) (large : 2^30 ≤ need) (int : need < 2^31) :
    grow heap need out = none := by
  have negative : (Int32.ofNat need * 2).toInt ≤ 0 := by
    have two : (2 : Int32).toInt = 2 := rfl
    rw [Int32.toInt_mul,Int32.toInt_ofNat_of_lt int,two,Int.bmod_def]
    split <;> omega
  rw [grow,if_pos enough]
  exact if_pos negative

theorem write_fails {bytes : List UInt8} (fails : grow heap (out.cursor_ + bytes.length) out = none) : write heap bytes out = some out.failed := by
  rw [write,fails]

/-- Where the buffer cannot grow, the packet is emptied. -/
theorem perform_fails {value : Value} (fails : grow heap (out.cursor_ + Call.need (.put value)) out = none)
    (int : out.cursor_ + value.bytes.length < 2^31) : out.perform heap (.put value) = some out.failed := by
  cases value with
  | bool b => exact write_fails fails
  | int8 b => exact write_fails fails
  | int16 w => exact write_fails fails
  | int32 dw => exact write_fails fails
  | int64 lw => exact write_fails fails
  | text str =>
    have size := framed_length (c_str str)
    have need : Call.need (.put (.text str)) = (c_str str).length + 4 := by
      change (framed (c_str str)).length - 1 = _
      omega
    rw [need,← Nat.add_assoc] at fails
    rw [Value.bytes,size] at int
    change WriteString heap (c_str str) (Int32.ofNat (c_str str).length) out = _
    simp only [WriteString,need_exact (by omega : out.cursor_ + (c_str str).length + 4 < 2^31),fails]

/-- Without room, bytes are lost, or one is stored outside. -/
theorem perform_lost {written : List UInt8} (holds : Holds out written) {value : Value} (full : ¬ Room out (.put value))
    (done : out.perform heap (.put value) = some after) : after.cursor_ ≠ out.cursor_ + value.bytes.length := by
  obtain ⟨_,within,int⟩ := perform_reaches holds.int done
  intro same
  have clear : Clear out (.put value) := by
    by_contra unclear
    rw [perform_outside holds unclear] at done
    cases done
  have room := holds.within
  have size : Call.bytes (.put value) = value.bytes := rfl
  have large : out.buffer_.length < out.cursor_ + Call.need (.put value) ∧ 2^30 ≤ out.cursor_ + Call.need (.put value) ∧
      Call.need (.put value) ≤ value.bytes.length := by
    rw [Room,Roomy,size] at full
    cases string : Call.string (.put value) with
    | none =>
      have need := other_need string
      rw [size] at need
      split at full <;> omega
    | some str =>
      have apart := clear str string
      obtain ⟨need,length⟩ := string_need string
      rw [size] at length
      split at full <;> omega
  obtain ⟨enough,large,most⟩ := large
  rw [perform_fails (grow_fails enough large (by omega)) (by omega)] at done
  cases done
  have cursor := holds.cursor
  simp only [failed] at same
  omega

theorem run_reaches {values : List Value} (int : out.buffer_.length < 2^31) (ran : Runs.run (perform heap) out (values.map Call.put) = some after) :
    after.cursor_ ≤ out.cursor_ + (values.flatMap Value.bytes).length := by
  induction values generalizing out with
  | nil =>
    cases ran
    exact Nat.le_add_right ..
  | cons value values ih =>
    obtain ⟨next,performed,rest⟩ := Option.bind_eq_some_iff.mp ran
    obtain ⟨most,_,int⟩ := perform_reaches int performed
    have last := ih int rest
    rw [List.flatMap_cons,List.length_append]
    omega

/-- Where all bytes are there at the end, every value found room. -/
theorem room_of_run {values : List Value} {written : List UInt8} (holds : Holds out written)
    (ran : Runs.run (perform heap) out (values.map Call.put) = some after)
    (all : after.cursor_ = out.cursor_ + (values.flatMap Value.bytes).length) : Runs.Along (perform heap) Room out (values.map Call.put) := by
  induction values generalizing out written with
  | nil => exact trivial
  | cons value values ih =>
    obtain ⟨next,performed,rest⟩ := Option.bind_eq_some_iff.mp ran
    obtain ⟨most,_,int⟩ := perform_reaches holds.int performed
    have last := run_reaches int rest
    rw [List.flatMap_cons,List.length_append] at all
    have room : Room out (.put value) := by
      by_contra full
      exact perform_lost holds full performed (by omega)
    have roomy : Roomy written.length out.buffer_.length (Call.need (.put value)) (Call.bytes (.put value)).length := holds.cursor ▸ room
    refine ⟨room,?_⟩
    intro other outcome
    obtain ⟨kept,performed',holds⟩ := @Holds.perform heap _ _ holds (.put value) roomy
    rw [performed] at performed' outcome
    cases performed'
    cases outcome
    exact ih holds rest (by omega)

theorem run_of_room {values : List Value} {written : List UInt8} (holds : Holds out written)
    (along : Runs.Along (perform heap) Room out (values.map Call.put)) :
    ∃ after, Runs.run (perform heap) out (values.map Call.put) = some after ∧ Holds after (written ++ values.flatMap Value.bytes) := by
  induction values generalizing out written with
  | nil =>
    refine ⟨out,rfl,?_⟩
    rw [List.flatMap_nil,List.append_nil]
    exact holds
  | cons value values ih =>
    obtain ⟨room,along⟩ := along
    have roomy : Roomy written.length out.buffer_.length (Call.need (.put value)) (Call.bytes (.put value)).length := holds.cursor ▸ room
    obtain ⟨next,performed,holds⟩ := @Holds.perform heap _ _ holds (.put value) roomy
    obtain ⟨after,ran,holds⟩ := ih holds (along next performed)
    refine ⟨after,?_,?_⟩
    · rw [List.map_cons,Runs.run,performed]
      exact ran
    · rw [List.flatMap_cons,← List.append_assoc]
      exact holds

end Lost
end DataOutPacket

/-! ### Round trip -/

/-- What is written: all of it is in the bytes of the packet, it is read back, and of cut bytes what is whole in them. -/
def RoundTrip (heap : Nat → Nat → UInt8) (len : Int32) (values : List Value) : Prop :=
  ∃ out, Runs.run (DataOutPacket.perform heap) (DataOutPacket.create heap len) (values.map Call.put) = some out ∧
    out.cursor_ = (values.flatMap Value.bytes).length ∧
    (∀ around, ∃ packet, getAll (values.map Value.kind) (DataInPacket.new (out.buffer_.take out.cursor_) around) = some (values,packet)) ∧
    ∀ cut, Recovered values ((out.buffer_.take out.cursor_).take cut)

def Value.Nonzero : Value → Prop
  | .text str => 0 ∉ str
  | _ => True

theorem proper_of_small {values : List Value} (nonzero : ∀ value ∈ values, value.Nonzero) (small : (values.flatMap Value.bytes).length < 2^31) :
    ∀ value ∈ values, value.Proper := by
  intro value member
  cases value with
  | text str =>
    have without : 0 ∉ str := nonzero _ member
    refine ⟨without,?_⟩
    obtain ⟨front,back,rfl⟩ := List.append_of_mem member
    rw [List.flatMap_append,List.flatMap_cons,List.length_append,List.length_append,Value.bytes,DataOutPacket.framed_length,
      Public.Json.c_str_nonzero without] at small
    omega
  | _ => exact trivial

/-- Every list of values comes back. -/
def AlwaysRoundTrip : Prop := ∀ (heap : Nat → Nat → UInt8) (len : Int32) (values : List Value), (∀ value ∈ values, value.Nonzero) →
  RoundTrip heap len values

end Migfm.Wire.Buffer
