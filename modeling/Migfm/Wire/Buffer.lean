import Migfm.Wire.DataPacket
import Migfm.Library.Runs
import Migfm.Public.Members

/-! The output packet of public/protocol/data_packet.cc with the memory behind it: what a
writer stores outside of the buffer has no outcome. -/
namespace Migfm.Wire.Buffer
open Library Library.LittleEndian Library.Words
open Public.Json (c_str)

/-- `buffer_length_` is the length of `buffer_`, and `cursor_` stands for `cursor_ - buffer_`;
`grown` counts the allocations. -/
structure DataOutPacket where
  buffer_ : List UInt8
  cursor_ : Nat
  grown : Nat

/-! ### Byte order -/

def htons (w : Int16) : Int16 := Scalar.swap w
def htonl (dw : Int32) : Int32 := Scalar.swap dw

/-- The macro. -/
def htonl64 (lw : Int64) : Int64 :=
  let x := lw.toUInt64
  (((x &&& 0xff00000000000000) >>> 56) ||| ((x &&& 0x00ff000000000000) >>> 40) |||
    ((x &&& 0x0000ff0000000000) >>> 24) ||| ((x &&& 0x000000ff00000000) >>> 8) |||
    ((x &&& 0x00000000ff000000) <<< 8) ||| ((x &&& 0x0000000000ff0000) <<< 24) |||
    ((x &&& 0x000000000000ff00) <<< 40) ||| ((x &&& 0x00000000000000ff) <<< 56)).toInt64

/-- What `operator<<` takes. -/
inductive Value
  | bool (b : Bool)
  | int8 (b : Int8)
  | int16 (w : Int16)
  | int32 (dw : Int32)
  | int64 (lw : Int64)
  | text (str : List UInt8)

inductive Call
  | write8 (b : Int8)
  | write16 (w : Int16)
  | write32 (dw : Int32)
  | write64 (lw : Int64)
  | writeData (buf : List UInt8)
  | writeString (str : List UInt8)
  | put (value : Value)

namespace DataOutPacket
section Heap
/-! `heap` is what an allocation finds in its memory. -/
variable (heap : Nat → Nat → UInt8)

/-- The constructor; `malloc` of a negative length fails. -/
def create (len : Int32) : DataOutPacket := ⟨(List.range len.toNatClampNeg).map (heap 0),0,1⟩

/-- `realloc` to twice the length, where `need` bytes do not fit. The new length is an `int32`: where it is
not positive, `realloc` fails. -/
def grow (need : Nat) (out : DataOutPacket) : Option DataOutPacket :=
  if out.buffer_.length < need then
    let doubled := (Int32.ofNat need * 2).toInt
    if doubled ≤ 0 then none
    else some ⟨(List.range doubled.toNat).map fun i => out.buffer_.getD i (heap out.grown i),out.cursor_,out.grown + 1⟩
  else some out

/-- After a failed `realloc`. -/
def failed (out : DataOutPacket) : DataOutPacket := ⟨[],0,out.grown⟩

/-- The bytes go to the cursor. -/
def store (bytes : List UInt8) (out : DataOutPacket) : Option DataOutPacket :=
  if out.cursor_ + bytes.length ≤ out.buffer_.length then
    some ⟨out.buffer_.take out.cursor_ ++ bytes ++ out.buffer_.drop (out.cursor_ + bytes.length),out.cursor_ + bytes.length,out.grown⟩
  else none

/-- What the writers of one block of bytes share. -/
def write (bytes : List UInt8) (out : DataOutPacket) : Option DataOutPacket :=
  match grow heap (out.cursor_ + bytes.length) out with
  | none => some out.failed
  | some out => store bytes out

def Write8 (b : Int8) : DataOutPacket → Option DataOutPacket := write heap (Scalar.encode b)
def Write16 (w : Int16) : DataOutPacket → Option DataOutPacket := write heap (Scalar.encode w)
def Write32 (dw : Int32) : DataOutPacket → Option DataOutPacket := write heap (Scalar.encode dw)
def Write64 (lw : Int64) : DataOutPacket → Option DataOutPacket := write heap (Scalar.encode lw)

/-- `memcpy` of a negative length runs off the memory. -/
def WriteData (buf : List UInt8) (len : Int32) (out : DataOutPacket) : Option DataOutPacket :=
  if len < 0 then none else write heap (buf.take len.toNatClampNeg) out

/-- `sizeof(len)` stands for the length and leaves no room for the NUL, which is stored all the same. -/
def WriteString (str : List UInt8) (n : Int32) (out : DataOutPacket) : Option DataOutPacket :=
  let len := n + 1
  match grow heap (sizeT (out.cursor_ + n.toInt + 4)) out with
  | none => some out.failed
  | some out => do
    let out ← Write32 heap (htonl len) out
    if len < 0 then none else store ((str.take n.toNatClampNeg ++ [0]).take len.toNatClampNeg) out

/-- `operator<<`; that of `std::string` and that of `const char*` are alike. -/
def put : Value → DataOutPacket → Option DataOutPacket
  | .bool b => Write8 heap (if b then 1 else 0)
  | .int8 b => Write8 heap b
  | .int16 w => Write16 heap (htons w)
  | .int32 dw => Write32 heap (htonl dw)
  | .int64 lw => Write64 heap (htonl64 lw)
  | .text str => WriteString heap (c_str str) (Int32.ofNat (c_str str).length)

/-- The lengths are those of the texts. -/
def perform (out : DataOutPacket) : Call → Option DataOutPacket
  | .write8 b => Write8 heap b out
  | .write16 w => Write16 heap w out
  | .write32 dw => Write32 heap dw out
  | .write64 lw => Write64 heap lw out
  | .writeData buf => WriteData heap buf (Int32.ofNat buf.length) out
  | .writeString str => WriteString heap str (Int32.ofNat str.length) out
  | .put value => put heap value out

end Heap
end DataOutPacket

/-! ### What is written -/

/-- A string with its length, which counts the NUL. -/
def framed (str : List UInt8) : List UInt8 := Scalar.encode (htonl (Int32.ofNat str.length + 1)) ++ (str ++ [0])

def Value.bytes : Value → List UInt8
  | .bool b => Scalar.encode (if b then 1 else 0 : Int8)
  | .int8 b => Scalar.encode b
  | .int16 w => Scalar.encode (htons w)
  | .int32 dw => Scalar.encode (htonl dw)
  | .int64 lw => Scalar.encode (htonl64 lw)
  | .text str => framed (c_str str)

def Call.bytes : Call → List UInt8
  | .write8 b => Scalar.encode b
  | .write16 w => Scalar.encode w
  | .write32 dw => Scalar.encode dw
  | .write64 lw => Scalar.encode lw
  | .writeData buf => buf
  | .writeString str => framed str
  | .put value => value.bytes

/-- The room that the writer looks for. -/
def Value.need (value : Value) : Nat :=
  match value with
  | .text _ => value.bytes.length - 1
  | _ => value.bytes.length

def Call.need (call : Call) : Nat :=
  match call with
  | .writeString _ => call.bytes.length - 1
  | .put value => value.need
  | _ => call.bytes.length

/-- The text that a call writes as a string. -/
def Call.string : Call → Option (List UInt8)
  | .writeString str => some str
  | .put (.text str) => some (c_str str)
  | _ => none

namespace DataOutPacket

/-- The packet holds what was written, and nothing else before its cursor. -/
structure Holds (out : DataOutPacket) (written : List UInt8) : Prop where
  cursor : out.cursor_ = written.length
  within : written.length ≤ out.buffer_.length
  int : out.buffer_.length < 2^31
  content : out.buffer_.take written.length = written

section Store
variable {heap : Nat → Nat → UInt8} {out : DataOutPacket} {written : List UInt8}

theorem Holds.store (holds : Holds out written) {bytes : List UInt8} (room : written.length + bytes.length ≤ out.buffer_.length) :
    ∃ after, store bytes out = some after ∧ Holds after (written ++ bytes) ∧ after.buffer_.length = out.buffer_.length := by
  have fits : out.cursor_ + bytes.length ≤ out.buffer_.length := holds.cursor ▸ room
  have length : (out.buffer_.take out.cursor_ ++ bytes ++ out.buffer_.drop (out.cursor_ + bytes.length)).length = out.buffer_.length := by
    rw [List.length_append,List.length_append,List.length_take,List.length_drop]
    omega
  refine ⟨_,if_pos fits,⟨?_,?_,length ▸ holds.int,?_⟩,length⟩
  · rw [List.length_append,holds.cursor]
  · rw [length,List.length_append]
    exact room
  · simp only [holds.cursor,holds.content]
    exact List.take_left

theorem store_outside {bytes : List UInt8} (outside : out.buffer_.length < out.cursor_ + bytes.length) : store bytes out = none :=
  if_neg (Nat.not_le.mpr outside)

theorem grow_fits {need : Nat} (fits : need ≤ out.buffer_.length) : grow heap need out = some out := if_neg (Nat.not_lt.mpr fits)

/-- Up to 2^30 the length is doubled without overflow. -/
theorem doubled_exact {need : Nat} (small : need < 2^30) : (Int32.ofNat need * 2).toInt = 2 * need := by
  rw [Int32.toInt_mul,Int32.toInt_ofNat_of_lt (by omega)]
  have two : (2 : Int32).toInt = 2 := rfl
  rw [two,Int.bmod_eq_of_le (by omega) (by omega)]
  omega

/-- `realloc` keeps the bytes of the old buffer. -/
theorem regrown_take {buffer : List UInt8} (fresh : Nat → UInt8) {size keep : Nat} (inside : keep ≤ buffer.length) (room : keep ≤ size) :
    ((List.range size).map fun i => buffer.getD i (fresh i)).take keep = buffer.take keep := by
  apply List.ext_getElem
  · rw [List.length_take,List.length_take,List.length_map,List.length_range]
    omega
  · intro i left right
    have there : i < buffer.length := by rw [List.length_take] at right; omega
    rw [List.getElem_take,List.getElem_map,List.getElem_range,List.getElem_take,List.getD_eq_getElem?_getD,List.getElem?_eq_getElem there,
      Option.getD_some]

/-- The bytes before the cursor and the cursor stay where the buffer grows. -/
theorem Holds.grow (holds : Holds out written) {need : Nat} (small : need < 2^30) (enough : out.buffer_.length < need) :
    ∃ larger, grow heap need out = some larger ∧ Holds larger written ∧ larger.buffer_.length = 2 * need := by
  have size : (2 * (need : Int)).toNat = 2 * need := by omega
  have length : ((List.range (2 * need)).map fun i => out.buffer_.getD i (heap out.grown i)).length = 2 * need := by
    rw [List.length_map,List.length_range]
  have within := holds.within
  refine ⟨⟨(List.range (2 * need)).map fun i => out.buffer_.getD i (heap out.grown i),out.cursor_,out.grown + 1⟩,?_,⟨holds.cursor,?_,?_,?_⟩,length⟩
  · rw [DataOutPacket.grow,if_pos enough]
    simp only [doubled_exact small,size]
    rw [if_neg (by omega)]
  · simp only [length]
    omega
  · simp only [length]
    omega
  · rw [regrown_take _ holds.within (by omega)]
    exact holds.content

/-- Room for what the writer looks for, and for what it stores; or a length that doubles without overflow. -/
def Roomy (filled length need size : Nat) : Prop := if filled + need ≤ length then filled + size ≤ length else filled + need < 2^30

theorem Holds.ready (holds : Holds out written) {need size : Nat} (roomy : Roomy written.length out.buffer_.length need size)
    (most : size ≤ need + 1) : ∃ ready, DataOutPacket.grow heap (out.cursor_ + need) out = some ready ∧ Holds ready written ∧ written.length + size ≤ ready.buffer_.length := by
  rw [Roomy] at roomy
  rw [holds.cursor]
  by_cases fits : written.length + need ≤ out.buffer_.length
  · rw [if_pos fits] at roomy
    exact ⟨out,grow_fits fits,holds,roomy⟩
  · rw [if_neg fits] at roomy
    obtain ⟨larger,grown,kept,length⟩ := @Holds.grow heap _ _ holds _ roomy (by omega)
    exact ⟨larger,grown,kept,by omega⟩

theorem Holds.write (holds : Holds out written) {bytes : List UInt8} (roomy : Roomy written.length out.buffer_.length bytes.length bytes.length) :
    ∃ after, write heap bytes out = some after ∧ Holds after (written ++ bytes) := by
  obtain ⟨ready,grown,kept,room⟩ := @Holds.ready heap _ _ holds _ _ roomy (Nat.le_succ _)
  obtain ⟨after,stored,holds,_⟩ := kept.store room
  refine ⟨after,?_,holds⟩
  rw [DataOutPacket.write,grown]
  exact stored

theorem framed_length (str : List UInt8) : (framed str).length = str.length + 5 := by
  rw [framed,List.length_append,Scalar.length_encode,List.length_append,List.length_singleton]
  have four : Scalar.width Int32 = 4 := rfl
  omega

/-- The length that a string has counts its NUL. -/
theorem counted {n : Nat} : Int32.ofNat n + 1 = Int32.ofNat (n + 1) := (Int32.ofNat_add n 1).symm

/-- What `WriteString` copies, and the NUL behind it. -/
theorem copied {str : List UInt8} (small : str.length + 1 < 2^31) :
    (str.take (Int32.ofNat str.length).toNatClampNeg ++ [0]).take (Int32.ofNat str.length + 1).toNatClampNeg = str ++ [0] := by
  rw [counted,Int32.toNatClampNeg_ofNat_of_lt small,Int32.toNatClampNeg_ofNat_of_lt (Nat.lt_of_succ_lt small),List.take_length]
  apply List.take_of_length_le
  rw [List.length_append,List.length_singleton]

theorem counted_nonneg {n : Nat} (small : n + 1 < 2^31) : ¬ Int32.ofNat n + 1 < 0 := by
  rw [counted,Int32.lt_iff_toInt_lt,Int32.toInt_ofNat_of_lt small]
  exact Int.not_lt.mpr (Int.natCast_nonneg _)

theorem need_exact {filled n : Nat} (small : filled + n + 4 < 2^31) : sizeT (filled + (Int32.ofNat n).toInt + 4) = filled + n + 4 := by
  rw [Int32.toInt_ofNat_of_lt (by omega),sizeT_of_nonneg (by omega) (by omega)]
  omega

theorem Holds.writeString (holds : Holds out written) {str : List UInt8}
    (roomy : Roomy written.length out.buffer_.length ((framed str).length - 1) (framed str).length) :
    ∃ after, WriteString heap str (Int32.ofNat str.length) out = some after ∧ Holds after (written ++ framed str) := by
  have length := framed_length str
  have int := holds.int
  have small : written.length + str.length + 4 < 2^31 := by
    rw [Roomy,length] at roomy
    split at roomy <;> omega
  have need : sizeT (out.cursor_ + (Int32.ofNat str.length).toInt + 4) = out.cursor_ + ((framed str).length - 1) := by
    rw [holds.cursor,need_exact small,length]
    omega
  obtain ⟨ready,grown,kept,room⟩ := @Holds.ready heap _ _ holds _ _ roomy (by omega)
  have four : (Scalar.encode (htonl (Int32.ofNat str.length + 1))).length = 4 := Scalar.length_encode _
  have fits : written.length + 4 ≤ ready.buffer_.length := by omega
  have first : Write32 heap (htonl (Int32.ofNat str.length + 1)) ready = DataOutPacket.store (Scalar.encode (htonl (Int32.ofNat str.length + 1))) ready := by
    rw [Write32,DataOutPacket.write,grow_fits (by rw [four,kept.cursor]; exact fits)]
  obtain ⟨prefixed,stored,kept,same⟩ := kept.store (by rw [four]; exact fits)
  have behind : (written ++ Scalar.encode (htonl (Int32.ofNat str.length + 1))).length + (str ++ [0]).length ≤ prefixed.buffer_.length := by
    rw [List.length_append,four,same,List.length_append,List.length_singleton]
    omega
  obtain ⟨after,copied_,holds,_⟩ := kept.store behind
  refine ⟨after,?_,?_⟩
  · simp only [WriteString,need,grown,first,stored,Option.bind_eq_bind,Option.bind_some]
    rw [if_neg (counted_nonneg (by omega)),copied (by omega)]
    exact copied_
  · rw [framed,← List.append_assoc]
    exact holds

theorem Holds.writeData (holds : Holds out written) {buf : List UInt8} (roomy : Roomy written.length out.buffer_.length buf.length buf.length) :
    ∃ after, WriteData heap buf (Int32.ofNat buf.length) out = some after ∧ Holds after (written ++ buf) := by
  have int := holds.int
  have small : buf.length < 2^31 := by
    rw [Roomy] at roomy
    split at roomy <;> omega
  have nonneg : ¬ Int32.ofNat buf.length < 0 := by
    rw [Int32.lt_iff_toInt_lt,Int32.toInt_ofNat_of_lt small]
    exact Int.not_lt.mpr (Int.natCast_nonneg _)
  rw [WriteData,if_neg nonneg,Int32.toNatClampNeg_ofNat_of_lt small,List.take_length]
  exact holds.write roomy

/-- One call with room. -/
theorem Holds.perform (holds : Holds out written) {call : Call} (roomy : Roomy written.length out.buffer_.length call.need call.bytes.length) :
    ∃ after, out.perform heap call = some after ∧ Holds after (written ++ call.bytes) := by
  cases call with
  | write8 b => exact holds.write roomy
  | write16 w => exact holds.write roomy
  | write32 dw => exact holds.write roomy
  | write64 lw => exact holds.write roomy
  | writeData buf => exact holds.writeData roomy
  | writeString str => exact holds.writeString roomy
  | put value =>
    cases value with
    | bool b => exact holds.write roomy
    | int8 b => exact holds.write roomy
    | int16 w => exact holds.write roomy
    | int32 dw => exact holds.write roomy
    | int64 lw => exact holds.write roomy
    | text str => exact holds.writeString roomy

/-- The packet without the memory behind its cursor. -/
def view (out : DataOutPacket) (widths : List Nat) : Wire.DataOutPacket := ⟨out.buffer_.take out.cursor_,out.buffer_.length,widths⟩

/-- Where no byte goes astray, the writers of one block are the `put` of the packet without memory. -/
theorem write_view (within : out.cursor_ ≤ out.buffer_.length) {bytes : List UInt8} {after : DataOutPacket}
    (done : DataOutPacket.write heap bytes out = some after) (widths : List Nat) :
    ∃ later, (view out widths).put bytes = view after later := by
  have filled : (out.buffer_.take out.cursor_).length = out.cursor_ := by rw [List.length_take]; omega
  have put (ready : DataOutPacket) (cursor : ready.cursor_ = out.cursor_) (stored : store bytes ready = some after) :
      view after (widths ++ [bytes.length]) = ⟨ready.buffer_.take out.cursor_ ++ bytes,ready.buffer_.length,widths ++ [bytes.length]⟩ := by
    rw [store] at stored
    by_cases room : ready.cursor_ + bytes.length ≤ ready.buffer_.length
    · rw [if_pos room] at stored
      cases stored
      have front : (ready.buffer_.take ready.cursor_ ++ bytes).length = ready.cursor_ + bytes.length := by
        rw [List.length_append,List.length_take]
        omega
      rw [view,List.take_left' front,List.length_append,front,List.length_drop,cursor]
      simp only [Wire.DataOutPacket.mk.injEq,true_and,and_true]
      omega
    · rw [if_neg room] at stored
      cases stored
  rw [DataOutPacket.write,DataOutPacket.grow] at done
  simp only [Wire.DataOutPacket.put,view,filled]
  by_cases enough : out.buffer_.length < out.cursor_ + bytes.length
  · rw [if_pos enough] at done
    rw [if_pos (by exact_mod_cast enough)]
    by_cases fails : (Int32.ofNat (out.cursor_ + bytes.length) * 2).toInt ≤ 0
    · rw [if_pos fails] at done ⊢
      cases done
      exact ⟨widths,rfl⟩
    · simp only [if_neg fails] at done ⊢
      have length : ((List.range (Int32.ofNat (out.cursor_ + bytes.length) * 2).toInt.toNat).map
          fun i => out.buffer_.getD i (heap out.grown i)).length = (Int32.ofNat (out.cursor_ + bytes.length) * 2).toInt.toNat := by
        rw [List.length_map,List.length_range]
      have room : out.cursor_ ≤ (Int32.ofNat (out.cursor_ + bytes.length) * 2).toInt.toNat := by
        by_contra less
        rw [store_outside (by simp only [length]; omega)] at done
        cases done
      refine ⟨widths ++ [bytes.length],?_⟩
      apply Eq.trans _ (put ⟨_,out.cursor_,out.grown + 1⟩ rfl done).symm
      rw [length,regrown_take _ within room]
      simp only [Wire.DataOutPacket.mk.injEq,true_and,and_true]
      omega
  · rw [if_neg enough] at done
    rw [if_neg (by exact_mod_cast enough)]
    exact ⟨_,(put out rfl done).symm⟩

end Store

/-! ### Runs -/

/-- The string does not fit just up to its NUL. -/
def Clear (out : DataOutPacket) (call : Call) : Prop := ∀ str, call.string = some str → out.cursor_ + str.length + 4 ≠ out.buffer_.length

/-- Every call stores inside of the buffer, which then begins with all that was written; growing keeps that and the cursor. -/
def Safe (heap : Nat → Nat → UInt8) (len : Int32) (calls : List Call) : Prop := ∀ first rest, calls = first ++ rest →
  ∃ out, Runs.run (perform heap) (create heap len) first = some out ∧ Holds out (first.flatMap Call.bytes) ∧
    ∀ need < 2^30, ∃ larger, grow heap need out = some larger ∧ Holds larger (first.flatMap Call.bytes)

section Run
variable {heap : Nat → Nat → UInt8} {out : DataOutPacket} {written : List UInt8}

theorem create_holds (heap : Nat → Nat → UInt8) (len : Int32) : Holds (create heap len) [] := by
  have high := len.toInt_lt
  refine ⟨rfl,Nat.zero_le _,?_,rfl⟩
  rw [create,List.length_map,List.length_range,Int32.toNatClampNeg]
  omega

theorem string_need {call : Call} {str : List UInt8} (there : call.string = some str) :
    call.need = str.length + 4 ∧ call.bytes.length = str.length + 5 := by
  have framed_need : (framed str).length - 1 = str.length + 4 := by rw [framed_length]; omega
  cases call with
  | writeString text =>
    cases there
    exact ⟨framed_need,framed_length str⟩
  | put value =>
    cases value with
    | text text =>
      cases there
      exact ⟨framed_need,framed_length _⟩
    | _ => cases there
  | _ => cases there

theorem other_need {call : Call} (other : call.string = none) : call.need = call.bytes.length := by
  cases call with
  | writeString text => cases other
  | put value =>
    cases value with
    | text text => cases other
    | _ => rfl
  | _ => rfl

theorem Clear.roomy (holds : Holds out written) {call : Call} (small : written.length + call.bytes.length < 2^30) (clear : Clear out call) :
    Roomy written.length out.buffer_.length call.need call.bytes.length := by
  rw [Roomy]
  cases string : call.string with
  | none =>
    rw [other_need string]
    split <;> omega
  | some str =>
    have apart := clear str string
    obtain ⟨need,size⟩ := string_need string
    rw [holds.cursor] at apart
    rw [size] at small
    rw [need,size]
    split <;> omega

/-- The NUL goes behind the buffer. -/
theorem string_outside (holds : Holds out written) {str : List UInt8} (exact_ : out.cursor_ + str.length + 4 = out.buffer_.length) :
    WriteString heap str (Int32.ofNat str.length) out = none := by
  have int := holds.int
  have four : (Scalar.encode (htonl (Int32.ofNat str.length + 1))).length = 4 := Scalar.length_encode _
  have fits : out.cursor_ + 4 ≤ out.buffer_.length := by omega
  have first : Write32 heap (htonl (Int32.ofNat str.length + 1)) out = store (Scalar.encode (htonl (Int32.ofNat str.length + 1))) out := by
    rw [Write32,write,grow_fits (by rw [four]; exact fits)]
  obtain ⟨prefixed,stored,kept,same⟩ := @Holds.store _ _ holds (Scalar.encode (htonl (Int32.ofNat str.length + 1))) (by rw [four,← holds.cursor]; exact fits)
  have outside : store (str ++ [0]) prefixed = none := by
    apply store_outside
    rw [kept.cursor,same,List.length_append,four,← holds.cursor,List.length_append,List.length_singleton]
    omega
  simp only [WriteString,need_exact (by omega : out.cursor_ + str.length + 4 < 2^31),grow_fits (Nat.le_of_eq exact_),first,stored,
    Option.bind_eq_bind,Option.bind_some]
  rw [if_neg (counted_nonneg (by omega)),copied (by omega)]
  exact outside

theorem perform_outside (holds : Holds out written) {call : Call} (unclear : ¬ Clear out call) : out.perform heap call = none := by
  rw [Clear] at unclear
  push Not at unclear
  obtain ⟨str,there,exact_⟩ := unclear
  cases call with
  | writeString text =>
    cases there
    exact string_outside holds exact_
  | put value =>
    cases value with
    | text text =>
      cases there
      exact string_outside holds exact_
    | _ => cases there
  | _ => cases there

/-- By induction on the calls. -/
theorem run_holds_iff {calls : List Call} (holds : Holds out written) (small : written.length + (calls.flatMap Call.bytes).length < 2^30) :
    (∀ first rest, calls = first ++ rest →
      ∃ after, Runs.run (perform heap) out first = some after ∧ Holds after (written ++ first.flatMap Call.bytes)) ↔
    Runs.Along (perform heap) Clear out calls := by
  induction calls generalizing out written with
  | nil =>
    constructor
    · intro _
      exact trivial
    · intro _ first rest split
      obtain ⟨rfl,_⟩ := List.append_eq_nil_iff.mp split.symm
      refine ⟨out,rfl,?_⟩
      rw [List.flatMap_nil,List.append_nil]
      exact holds
  | cons call calls ih =>
    rw [List.flatMap_cons,List.length_append] at small
    constructor
    · intro runs
      have clear : Clear out call := by
        by_contra unclear
        obtain ⟨after,ran,_⟩ := runs [call] calls rfl
        rw [Runs.run,perform_outside holds unclear] at ran
        cases ran
      obtain ⟨next,performed,kept⟩ := @Holds.perform heap _ _ holds call (clear.roomy holds (by omega))
      refine ⟨clear,?_⟩
      intro other outcome
      rw [performed] at outcome
      cases outcome
      apply (ih kept (by rw [List.length_append]; omega)).mp
      intro first rest split
      obtain ⟨after,ran,holds⟩ := runs (call::first) rest (by rw [split,List.cons_append])
      rw [Runs.run,performed] at ran
      rw [List.flatMap_cons,← List.append_assoc] at holds
      exact ⟨after,ran,holds⟩
    · rintro ⟨clear,along⟩ first rest split
      cases first with
      | nil =>
        refine ⟨out,rfl,?_⟩
        rw [List.flatMap_nil,List.append_nil]
        exact holds
      | cons head first =>
        rw [List.cons_append,List.cons.injEq] at split
        obtain ⟨rfl,split⟩ := split
        obtain ⟨next,performed,kept⟩ := @Holds.perform heap _ _ holds call (clear.roomy holds (by omega))
        obtain ⟨after,ran,holds⟩ := (ih kept (by rw [List.length_append]; omega)).mpr (along next performed) first rest split
        refine ⟨after,?_,?_⟩
        · rw [Runs.run,performed]
          exact ran
        · rw [List.flatMap_cons,← List.append_assoc]
          exact holds

theorem Holds.grows (holds : Holds out written) {need : Nat} (small : need < 2^30) :
    ∃ larger, DataOutPacket.grow heap need out = some larger ∧ Holds larger written := by
  by_cases enough : out.buffer_.length < need
  · obtain ⟨larger,grown,kept,_⟩ := @Holds.grow heap _ _ holds _ small enough
    exact ⟨larger,grown,kept⟩
  · exact ⟨out,grow_fits (Nat.not_lt.mp enough),holds⟩

end Run

/-- The packet stays inside of its buffer exactly in the runs in which no string fits just up to its NUL. -/
theorem safe_iff_clear (heap : Nat → Nat → UInt8) (len : Int32) (calls : List Call) (small : (calls.flatMap Call.bytes).length < 2^30) :
    Safe heap len calls ↔ Runs.Along (perform heap) Clear (create heap len) calls := by
  have runs := @run_holds_iff heap _ _ calls (create_holds heap len) (by rw [List.length_nil,Nat.zero_add]; exact small)
  constructor
  · intro safe
    apply runs.mp
    intro first rest split
    obtain ⟨out,ran,holds,_⟩ := safe first rest split
    exact ⟨out,ran,holds⟩
  · intro along first rest split
    obtain ⟨out,ran,holds⟩ := runs.mpr along first rest split
    exact ⟨out,ran,holds,fun need bound => Holds.grows holds bound⟩

/-- A number and a string in the usual buffer. -/
theorem safe_iff_clear_two : Safe (fun _ _ => 0) 1024 [.put (.int32 7),.put (.text [104,105])] ↔
    Runs.Along (perform fun _ _ => 0) Clear (create (fun _ _ => 0) 1024) [.put (.int32 7),.put (.text [104,105])] := by
  apply safe_iff_clear
  decide

/-- Every run stays inside of its buffer. -/
def AlwaysSafe : Prop := ∀ (heap : Nat → Nat → UInt8) (len : Int32) (calls : List Call), (calls.flatMap Call.bytes).length < 2^30 → Safe heap len calls

/-- Twenty characters in a packet of 24 bytes. -/
theorem string_past_end : ¬ AlwaysSafe := by
  intro safe
  have unclear : ¬ Clear (create (fun _ _ => 0) 24) (.put (.text (List.replicate 20 97))) := by
    intro clear
    exact clear (List.replicate 20 97) rfl rfl
  obtain ⟨out,ran,_⟩ := safe (fun _ _ => 0) 24 [.put (.text (List.replicate 20 97))] (by decide) _ [] (List.append_nil _).symm
  rw [Runs.run,perform_outside (create_holds _ _) unclear] at ran
  cases ran

end DataOutPacket

end Migfm.Wire.Buffer
