import Migfm.Library.LittleEndian
import Migfm.Library.Words

/-! The packet objects of public/protocol/data_packet.cc: a growing output
buffer and a cursor over received bytes. Memory outside the received bytes is
unknown, and every copy and store the reader makes is recorded, so that what an
access outside the packet would return is never assumed. Allocation succeeds
for every size that is not negative. -/
namespace Migfm.Wire
open Library.LittleEndian Library.Words

/-- A signed value converted to `size_t`. -/
def sizeT (value : Int) : Nat := (value % 2^64).toNat

theorem sizeT_of_nonneg {value : Int} (low : 0 ≤ value) (high : value < 2^63) : sizeT value = value.toNat := by
  unfold sizeT
  rw [Int.emod_eq_of_lt low (by omega)]

/-- A fixed char array of a message struct. -/
abbrev CharArray (n : Nat) := Vector UInt8 n

/-- The last byte is NUL. -/
def CharArray.Terminated {n : Nat} (array : CharArray n) : Prop := array[n-1]? = some 0

instance {n : Nat} (array : CharArray n) : Decidable array.Terminated := by
  unfold CharArray.Terminated; infer_instance

theorem CharArray.Terminated.store {n : Nat} {array : CharArray n} (last : array.Terminated) :
    array.setIfInBounds (n-1) 0 = array := by
  apply Vector.ext
  intro i bound
  rw [Vector.getElem_setIfInBounds]
  split
  · rename_i same
    subst same
    have found : array[n-1]? = some array[n-1] := Vector.getElem?_eq_getElem bound
    rw [CharArray.Terminated,found,Option.some.injEq] at last
    exact last.symm
  · rfl

/-! ### DataOutPacket -/

/-- `buffer` is the part of `buffer_` before `cursor_`; `widths` lists the size of each write. -/
structure DataOutPacket where
  buffer : List UInt8
  bufferLength : Int
  widths : List Nat

def DataOutPacket.new (len : Int) : DataOutPacket := ⟨[],len,[]⟩

/-- Every write first grows the buffer to twice the length it needs. The new
length is an `int32`: where it is not positive `realloc` fails and the packet
is reset. -/
def DataOutPacket.put (out : DataOutPacket) (bytes : List UInt8) : DataOutPacket :=
  let filled := out.buffer.length + bytes.length
  if (filled : Int) > out.bufferLength then
    let doubled := (Int32.ofNat filled * 2).toInt
    if doubled ≤ 0 then ⟨[],0,out.widths⟩
    else ⟨out.buffer ++ bytes,doubled,out.widths ++ [bytes.length]⟩
  else ⟨out.buffer ++ bytes,out.bufferLength,out.widths ++ [bytes.length]⟩

abbrev Writing := StateT DataOutPacket Option

def writeScalar {α : Type} [Scalar α] (value : α) : Writing Unit :=
  fun out => some ((),out.put (Scalar.encode value))

def write8 (b : Int8) : Writing Unit := writeScalar b
def write16 (w : Int16) : Writing Unit := writeScalar w
def write32 (dw : Int32) : Writing Unit := writeScalar dw
def write64 (lw : Int64) : Writing Unit := writeScalar lw

/-- `memcpy` of a negative length runs off the address space: no outcome. -/
def writeData (buf : List UInt8) (len : Int32) : Writing Unit :=
  fun out => if len < 0 then none else some ((),out.put (buf.take len.toNatClampNeg))

/-- The first `n` bytes of the memory `GetData` points to. Bytes that were not
written keep what the allocator left there. -/
def DataOutPacket.stream (out : DataOutPacket) (uninit : Nat → UInt8) (n : Nat) : List UInt8 :=
  (List.range n).map fun i => out.buffer.getD i (uninit i)

/-- `out.WriteData(array,n)` for a fixed array. -/
def writeArray {n : Nat} (array : CharArray n) : Writing Unit := writeData array.toList (Int32.ofNat n)

/-- `out.WriteData(text.c_str(),text.length())`. -/
def writeText (text : List UInt8) : Writing Unit := writeData text (Int32.ofNat text.length)

def writeList {α : Type} (write : α → Writing Unit) : List α → Writing Unit
  | [] => pure ()
  | x::xs => do
    write x
    writeList write xs

/-- `m` appends exactly `chunks`, one write each, wherever they fit. -/
def Writes (m : Writing Unit) (chunks : List (List UInt8)) : Prop :=
  ∀ out : DataOutPacket, (out.buffer.length + chunks.flatten.length : Int) ≤ out.bufferLength →
    m out = some ((),⟨out.buffer ++ chunks.flatten,out.bufferLength,out.widths ++ chunks.map List.length⟩)

theorem put_fits (out : DataOutPacket) (bytes : List UInt8)
    (fits : (out.buffer.length + bytes.length : Int) ≤ out.bufferLength) :
    out.put bytes = ⟨out.buffer ++ bytes,out.bufferLength,out.widths ++ [bytes.length]⟩ := by
  unfold DataOutPacket.put
  rw [if_neg (by push_cast; omega)]

theorem Writes.nothing : Writes (pure ()) [] := by
  intro out _
  change some ((),out) = _
  simp

theorem Writes.cons {first rest : Writing Unit} {chunk : List UInt8} {chunks : List (List UInt8)}
    (head : Writes first [chunk]) (tail : Writes rest chunks) :
    Writes (first >>= fun _ => rest) (chunk::chunks) := by
  intro out fits
  simp only [List.flatten_cons,List.length_append] at fits
  have start := head out (by simp only [List.flatten_cons,List.flatten_nil,List.append_nil]; omega)
  have finish := tail ⟨out.buffer ++ chunk,out.bufferLength,out.widths ++ [chunk.length]⟩
    (by simp only [List.length_append]; push_cast; omega)
  simp only [bind,StateT.bind,start,List.flatten_cons,List.flatten_nil,List.append_nil,List.map_cons,
    List.map_nil,Option.bind_some]
  rw [finish]
  simp

theorem Writes.append {first rest : Writing Unit} {front back : List (List UInt8)}
    (head : Writes first front) (tail : Writes rest back) :
    Writes (first >>= fun _ => rest) (front ++ back) := by
  intro out fits
  simp only [List.flatten_append,List.length_append] at fits
  have start := head out (by omega)
  have finish := tail ⟨out.buffer ++ front.flatten,out.bufferLength,out.widths ++ front.map List.length⟩
    (by simp only [List.length_append]; push_cast; omega)
  simp only [bind,StateT.bind,start,Option.bind_some]
  rw [finish]
  simp

theorem writes_scalar {α : Type} [Scalar α] (value : α) : Writes (writeScalar value) [Scalar.encode value] := by
  intro out fits
  simp only [List.flatten_cons,List.flatten_nil,List.append_nil] at fits
  simp [writeScalar,put_fits out _ fits]

theorem writes_list {α : Type} {write : α → Writing Unit} {layout : α → List (List UInt8)}
    (one : ∀ x, Writes (write x) (layout x)) (xs : List α) : Writes (writeList write xs) (xs.flatMap layout) := by
  induction xs with
  | nil => exact Writes.nothing
  | cons x xs ih => exact (one x).append ih

theorem writes_data (buf : List UInt8) (len : Int32) (exact : len.toInt = buf.length) :
    Writes (writeData buf len) [buf] := by
  intro out fits
  have nonneg : ¬ len < 0 := by rw [Int32.lt_iff_toInt_lt]; simp [exact]
  have whole : buf.take len.toNatClampNeg = buf := by
    apply List.take_of_length_le
    simp [Int32.toNatClampNeg,exact]
  simp only [List.flatten_cons,List.flatten_nil,List.append_nil] at fits
  simp [writeData,nonneg,whole,put_fits out _ fits]

theorem writes_array {n : Nat} (array : CharArray n) (small : n < 2^31) :
    Writes (writeArray array) [array.toList] := by
  apply writes_data
  rw [Vector.length_toList]
  exact Int32.toInt_ofNat_of_lt small

theorem writes_text (text : List UInt8) (small : text.length < 2^31) : Writes (writeText text) [text] :=
  writes_data text _ (Int32.toInt_ofNat_of_lt small)

/-! ### DataInPacket -/

/-- Received bytes with the unknown memory on both sides of them. -/
structure Memory where
  bytes : List UInt8
  around : Int → UInt8

def Memory.read (memory : Memory) (offset : Int) : UInt8 :=
  if 0 ≤ offset then memory.bytes.getD offset.toNat (memory.around offset) else memory.around offset

def Memory.copy (memory : Memory) (offset : Int) (n : Nat) : Vector UInt8 n :=
  Vector.ofFn fun i => memory.read (offset + i.val)

/-- What a reader does to memory: a copy out of the packet, a store into a
fixed array of the message, or a length it computed from `data_length`. -/
inductive Touch
  | copy (offset : Int) (size : Nat)
  | store (index capacity : Nat)
  | count (value remaining : Int)
deriving DecidableEq

/-- The access stays inside the `total` bytes received, or inside its array. -/
def Touch.Safe (total : Nat) : Touch → Prop
  | .copy offset size => 0 ≤ offset ∧ offset + size ≤ total
  | .store index capacity => index < capacity
  | .count value remaining => 0 ≤ value ∧ value ≤ remaining

instance (total : Nat) (touch : Touch) : Decidable (touch.Safe total) := by
  cases touch <;> (unfold Touch.Safe; infer_instance)

def Touch.width? : Touch → Option Nat
  | .copy _ size => some size
  | _ => none

/-- `cursor` is `cursor_ - data_`. -/
structure DataInPacket where
  data : Memory
  dataLen : Int32
  cursor : Int
  touched : List Touch

def DataInPacket.remaining (packet : DataInPacket) : Int := packet.dataLen.toInt - packet.cursor

/-- The sizes of the copies made so far, in order. -/
def DataInPacket.widths (packet : DataInPacket) : List Nat := packet.touched.filterMap Touch.width?

/-- A reader may have no outcome: an exception or a null dereference. -/
abbrev Reading := StateT DataInPacket Option

def record (touch : Touch) : Reading Unit :=
  fun packet => some ((),{packet with touched := packet.touched ++ [touch]})

/-- A length computed from `data_length`, beside the bytes that are left. -/
def count (value : Int32) : Reading Unit :=
  fun packet => record (.count value.toInt packet.remaining) packet

/-- The length check compares `size_t` values, so a cursor past the end passes it. -/
def readScalar (α : Type) [Scalar α] : Reading α := fun packet =>
  if Scalar.width α ≤ sizeT packet.remaining then
    some (Scalar.decode (packet.data.copy packet.cursor (Scalar.width α)).toList,
      {packet with
        cursor := packet.cursor + Scalar.width α
        touched := packet.touched ++ [.copy packet.cursor (Scalar.width α)]})
  else some (Scalar.zero,packet)

def read8 : Reading Int8 := readScalar Int8
def read16 : Reading Int16 := readScalar Int16
def read32 : Reading Int32 := readScalar Int32
def read64 : Reading Int64 := readScalar Int64

/-- `ReadData(size,n)`: null at the end of the packet, else the old cursor. -/
def readData (size : Int) : Reading (Option Int) := fun packet =>
  if Int32.ofInt packet.remaining = 0 then some (none,packet)
  else some (some packet.cursor,{packet with cursor := packet.cursor + size})

/-- `memcpy` of `n` bytes; from a null pointer only the empty copy has an outcome. -/
def memcpy (source : Option Int) (n : Nat) : Reading (Vector UInt8 n) := fun packet =>
  let offset := source.getD packet.cursor
  if source = none ∧ n ≠ 0 then none
  else some (packet.data.copy offset n,{packet with touched := packet.touched ++ [.copy offset n]})

/-- `memcpy(dest,in.ReadData(n,temp),n)`. -/
def readBlock (n : Nat) : Reading (Vector UInt8 n) := do
  memcpy (← readData n) n

/-- A fixed array read, with `array[index] = '\0'` after it. A store past the
array does not reach the array. -/
def readArray (n index : Nat) : Reading (CharArray n) := do
  let array ← readBlock n
  record (.store index n)
  return array.setIfInBounds index 0

/-- `new char[len]`, which throws for a negative length, the copy into it and
`assign(str,len)`. -/
def readText (len : Int32) : Reading (List UInt8) := fun packet =>
  if len < 0 then none
  else (do
    count len
    let text ← readBlock len.toNatClampNeg
    return text.toList : Reading (List UInt8)) packet

def readList {α : Type} (element : Reading α) : Nat → Reading (List α)
  | 0 => pure []
  | n+1 => do
    let x ← element
    let xs ← readList element n
    return x::xs

/-- The cursor stands inside the received bytes and `rest` is still to be read. -/
structure DataInPacket.Ready (packet : DataInPacket) (rest : List UInt8) : Prop where
  cursor : 0 ≤ packet.cursor
  rest : packet.data.bytes.drop packet.cursor.toNat = rest
  within : packet.cursor.toNat ≤ packet.data.bytes.length
  dataLen : packet.dataLen.toInt = packet.data.bytes.length

theorem DataInPacket.Ready.remaining {packet : DataInPacket} {rest : List UInt8} (ready : packet.Ready rest) :
    packet.remaining = rest.length := by
  have size := congrArg List.length ready.rest
  have inside := ready.within
  have start := ready.cursor
  have whole := ready.dataLen
  rw [List.length_drop] at size
  unfold DataInPacket.remaining
  omega

theorem DataInPacket.Ready.length_lt {packet : DataInPacket} {rest : List UInt8} (ready : packet.Ready rest) :
    rest.length < 2^31 := by
  have size := ready.remaining
  have start := ready.cursor
  have high := packet.dataLen.toInt_lt
  unfold DataInPacket.remaining at size
  omega

theorem Memory.copy_toList (memory : Memory) {offset : Int} {n : Nat} (start : 0 ≤ offset)
    (inside : offset.toNat + n ≤ memory.bytes.length) :
    (memory.copy offset n).toList = (memory.bytes.drop offset.toNat).take n := by
  apply List.ext_getElem
  · rw [Vector.length_toList,List.length_take,List.length_drop]
    omega
  · intro i left right
    have small : i < n := by simpa using left
    have place : (offset + (i : Int)).toNat = offset.toNat + i := by omega
    have nonneg : 0 ≤ offset + (i : Int) := by omega
    have bound : offset.toNat + i < memory.bytes.length := by omega
    simp [Memory.copy,Memory.read,nonneg,place,List.getElem?_eq_getElem bound]

theorem DataInPacket.Ready.copy {packet : DataInPacket} {chunk rest : List UInt8}
    (ready : packet.Ready (chunk ++ rest)) :
    (packet.data.copy packet.cursor chunk.length).toList = chunk := by
  have size := congrArg List.length ready.rest
  have inside := ready.within
  rw [List.length_drop,List.length_append] at size
  rw [Memory.copy_toList _ ready.cursor (by omega),ready.rest]
  simp

theorem DataInPacket.Ready.advance {packet : DataInPacket} {chunk rest : List UInt8} {n : Nat}
    (ready : packet.Ready (chunk ++ rest)) (touched : List Touch) (size : chunk.length = n) :
    DataInPacket.Ready {packet with cursor := packet.cursor + n, touched := touched} rest := by
  have total := congrArg List.length ready.rest
  have inside := ready.within
  have start := ready.cursor
  rw [List.length_drop,List.length_append] at total
  have place : (packet.cursor + (n : Int)).toNat = packet.cursor.toNat + n := by omega
  refine ⟨by simp only; omega,?_,?_,ready.dataLen⟩
  · simp only [place]
    rw [← List.drop_drop,ready.rest,← size]
    simp
  · simp only [place]
    omega

/-- Every access recorded after `before` is safe for `total` received bytes. -/
def SafeSince (total : Nat) (before after : List Touch) : Prop :=
  ∃ new, after = before ++ new ∧ ∀ touch ∈ new, touch.Safe total

theorem SafeSince.refl (total : Nat) (touched : List Touch) : SafeSince total touched touched :=
  ⟨[],by simp,by simp⟩

theorem SafeSince.one {total : Nat} (touched : List Touch) {touch : Touch} (safe : touch.Safe total) :
    SafeSince total touched (touched ++ [touch]) :=
  ⟨[touch],rfl,by simpa using safe⟩

theorem SafeSince.trans {total : Nat} {first second third : List Touch}
    (left : SafeSince total first second) (right : SafeSince total second third) :
    SafeSince total first third := by
  obtain ⟨new,rfl,safe⟩ := left
  obtain ⟨newer,rfl,safer⟩ := right
  refine ⟨new ++ newer,by simp,?_⟩
  intro touch member
  rcases List.mem_append.mp member with early | late
  · exact safe touch early
  · exact safer touch late

/-- `m` reads exactly `chunks`, one copy each, wherever the cursor stands
before them, and returns `value`. -/
def Reads {α : Type} (m : Reading α) (chunks : List (List UInt8)) (value : α) : Prop :=
  ∀ (packet : DataInPacket) (rest : List UInt8), packet.Ready (chunks.flatten ++ rest) →
    ∃ next, m packet = some (value,next) ∧ next.Ready rest ∧
      next.widths = packet.widths ++ chunks.map List.length

theorem Reads.pure {α : Type} (value : α) : Reads (pure value) [] value := by
  intro packet rest ready
  exact ⟨packet,rfl,by simpa using ready,by simp⟩

theorem Reads.append {α β : Type} {m : Reading α} {k : α → Reading β} {front back : List (List UInt8)}
    {a : α} {b : β} (head : Reads m front a) (tail : Reads (k a) back b) :
    Reads (m >>= k) (front ++ back) b := by
  intro packet rest ready
  rw [List.flatten_append,List.append_assoc] at ready
  obtain ⟨middle,first,ready,widths⟩ := head packet _ ready
  obtain ⟨next,second,ready,widths'⟩ := tail middle _ ready
  refine ⟨next,?_,ready,?_⟩
  · simp only [bind,StateT.bind,first,Option.bind_some]
    exact second
  · rw [widths',widths]
    simp

theorem Reads.map {α β : Type} {m : Reading α} {chunks : List (List UInt8)} {a : α} (f : α → β)
    (head : Reads m chunks a) : Reads (f <$> m) chunks (f a) := by
  intro packet rest ready
  obtain ⟨next,outcome,ready,widths⟩ := head packet rest ready
  refine ⟨next,?_,ready,widths⟩
  simp only [Functor.map,StateT.map,outcome]
  rfl

theorem Reads.cons {α β : Type} {m : Reading α} {k : α → Reading β} {chunk : List UInt8}
    {chunks : List (List UInt8)} {a : α} {b : β} (head : Reads m [chunk] a) (tail : Reads (k a) chunks b) :
    Reads (m >>= k) (chunk::chunks) b :=
  head.append tail

theorem safe_copy {packet : DataInPacket} {chunk rest : List UInt8} {n : Nat}
    (ready : packet.Ready (chunk ++ rest)) (size : chunk.length = n) :
    Touch.Safe packet.data.bytes.length (.copy packet.cursor n) := by
  have total := congrArg List.length ready.rest
  have inside := ready.within
  have start := ready.cursor
  rw [List.length_drop,List.length_append] at total
  exact ⟨start,by omega⟩

theorem readScalar_ready {α : Type} [Scalar α] {packet : DataInPacket} {chunk rest : List UInt8}
    (ready : packet.Ready (chunk ++ rest)) (size : chunk.length = Scalar.width α) :
    readScalar α packet = some (Scalar.decode chunk,
      {packet with
        cursor := packet.cursor + Scalar.width α
        touched := packet.touched ++ [.copy packet.cursor (Scalar.width α)]}) := by
  have left := ready.remaining
  have small := ready.length_lt
  rw [List.length_append] at left small
  have enough : Scalar.width α ≤ sizeT packet.remaining := by
    rw [sizeT_of_nonneg (by omega) (by omega)]
    omega
  have bytes := ready.copy
  rw [size] at bytes
  rw [readScalar,if_pos enough,bytes]

theorem readData_ready {packet : DataInPacket} {rest : List UInt8} (ready : packet.Ready rest) (size : Int) :
    readData size packet =
      if rest = [] then some (none,packet)
      else some (some packet.cursor,{packet with cursor := packet.cursor + size}) := by
  have left := ready.remaining
  have small := ready.length_lt
  have atEnd : Int32.ofInt packet.remaining = 0 ↔ rest = [] := by
    rw [left,← List.length_eq_zero_iff]
    constructor
    · intro zero
      have value := congrArg Int32.toInt zero
      rw [Int32.toInt_ofInt_of_le (by omega) (by omega)] at value
      exact Int.ofNat_eq_zero.mp value
    · intro zero
      rw [zero]
      rfl
  unfold readData
  simp only [atEnd]

/-- At the end of the packet only the empty block can be asked for. -/
theorem readBlock_ready {packet : DataInPacket} {chunk rest : List UInt8} {n : Nat}
    (ready : packet.Ready (chunk ++ rest)) (size : chunk.length = n) :
    ∃ block next, readBlock n packet = some (block,next) ∧ block.toList = chunk ∧ next.Ready rest ∧
      next.data = packet.data ∧ next.widths = packet.widths ++ [n] ∧
      SafeSince packet.data.bytes.length packet.touched next.touched := by
  have bytes := ready.copy
  rw [size] at bytes
  have inside := SafeSince.one packet.touched (safe_copy ready size)
  have advanced := ready.advance (packet.touched ++ [.copy packet.cursor n]) size
  by_cases atEnd : chunk ++ rest = []
  · have empty : n = 0 := by
      rw [← size,(List.append_eq_nil_iff.mp atEnd).1]
      rfl
    subst empty
    simp only [Int.natCast_zero,Int.add_zero] at advanced
    refine ⟨packet.data.copy packet.cursor 0,_,?_,bytes,advanced,rfl,?_,inside⟩
    · simp [readBlock,bind,StateT.bind,readData_ready ready,memcpy,atEnd]
    · simp [DataInPacket.widths,Touch.width?]
  · refine ⟨packet.data.copy packet.cursor n,_,?_,bytes,advanced,rfl,?_,inside⟩
    · simp [readBlock,bind,StateT.bind,readData_ready ready,memcpy,atEnd]
    · simp [DataInPacket.widths,Touch.width?]

theorem reads_scalar {α : Type} [Scalar α] (value : α) : Reads (readScalar α) [Scalar.encode value] value := by
  intro packet rest ready
  simp only [List.flatten_cons,List.flatten_nil,List.append_nil] at ready
  have size : (Scalar.encode value).length = Scalar.width α := Scalar.length_encode value
  have read := readScalar_ready ready size
  rw [Scalar.decode_encode] at read
  refine ⟨_,read,ready.advance _ size,?_⟩
  simp [DataInPacket.widths,Touch.width?,size]

theorem DataInPacket.Ready.touch {packet : DataInPacket} {rest : List UInt8} (ready : packet.Ready rest)
    (touched : List Touch) : DataInPacket.Ready {packet with touched := touched} rest :=
  ⟨ready.cursor,ready.rest,ready.within,ready.dataLen⟩

theorem readArray_ready {packet : DataInPacket} {chunk rest : List UInt8} {n index : Nat}
    (ready : packet.Ready (chunk ++ rest)) (size : chunk.length = n) :
    ∃ (block : CharArray n) (next : DataInPacket),
      readArray n index packet = some (block.setIfInBounds index 0,next) ∧ block.toList = chunk ∧
      next.Ready rest ∧ next.data = packet.data ∧ next.widths = packet.widths ++ [n] ∧
      (index < n → SafeSince packet.data.bytes.length packet.touched next.touched) := by
  obtain ⟨block,next,read,bytes,ready',data,widths,safe⟩ := readBlock_ready ready size
  refine ⟨block,_,?_,bytes,ready'.touch (next.touched ++ [.store index n]),data,?_,?_⟩
  · simp only [readArray,bind,StateT.bind,read,Option.bind_some,record]
    rfl
  · simp only [DataInPacket.widths] at widths ⊢
    simp [widths,Touch.width?]
  · intro inside
    have stored : Touch.Safe packet.data.bytes.length (.store index n) := inside
    exact safe.trans (SafeSince.one _ stored)

theorem readText_ready {packet : DataInPacket} {chunk rest : List UInt8} {len : Int32}
    (ready : packet.Ready (chunk ++ rest)) (size : len.toInt = chunk.length) :
    ∃ next, readText len packet = some (chunk,next) ∧ next.Ready rest ∧ next.data = packet.data ∧
      next.widths = packet.widths ++ [chunk.length] ∧
      SafeSince packet.data.bytes.length packet.touched next.touched := by
  have nonneg : ¬ len < 0 := by rw [Int32.lt_iff_toInt_lt]; simp [size]
  have length : chunk.length = len.toNatClampNeg := by simp [Int32.toNatClampNeg,size]
  have left := ready.remaining
  rw [List.length_append] at left
  have counted : Touch.Safe packet.data.bytes.length (.count len.toInt packet.remaining) := by
    constructor <;> omega
  obtain ⟨block,next,read,bytes,ready',data,widths,safe⟩ :=
    readBlock_ready (ready.touch (packet.touched ++ [.count len.toInt packet.remaining])) length
  refine ⟨next,?_,ready',data,?_,(SafeSince.one _ counted).trans safe⟩
  · rw [readText,if_neg nonneg]
    simp only [bind,StateT.bind,count,record,Option.bind_some,read]
    exact congrArg (fun text => some (text,next)) bytes
  · rw [widths,length]
    simp [DataInPacket.widths,Touch.width?]

/-- The array comes back with a NUL in one place. -/
theorem reads_array_store {n : Nat} (array : CharArray n) (index : Nat) :
    Reads (readArray n index) [array.toList] (array.setIfInBounds index 0) := by
  intro packet rest ready
  simp only [List.flatten_cons,List.flatten_nil,List.append_nil] at ready
  have size : array.toList.length = n := by simp
  obtain ⟨block,next,read,bytes,ready',_,widths,_⟩ := @readArray_ready packet _ rest n index ready size
  have same : block = array := Vector.toList_inj.mp bytes
  subst same
  exact ⟨next,read,ready',by simpa using widths⟩

theorem reads_array {n : Nat} (array : CharArray n) (index : Nat)
    (kept : array.setIfInBounds index 0 = array) : Reads (readArray n index) [array.toList] array := by
  have read := reads_array_store array index
  rwa [kept] at read

theorem reads_text (text : List UInt8) (len : Int32) (size : len.toInt = text.length) :
    Reads (readText len) [text] text := by
  intro packet rest ready
  simp only [List.flatten_cons,List.flatten_nil,List.append_nil] at ready
  obtain ⟨next,read,ready',_,widths,_⟩ := readText_ready ready size
  exact ⟨next,read,ready',by simpa using widths⟩

theorem reads_count (value : Int32) : Reads (count value) [] () := by
  intro packet rest ready
  refine ⟨_,rfl,ready.touch _,?_⟩
  simp [DataInPacket.widths,Touch.width?]

theorem reads_list {α : Type} {element : Reading α} {layout : α → List (List UInt8)} (xs : List α)
    (one : ∀ x ∈ xs, Reads element (layout x) x) : Reads (readList element xs.length) (xs.flatMap layout) xs := by
  induction xs with
  | nil => exact Reads.pure []
  | cons x xs ih =>
    have tail := ih fun y member => one y (List.mem_cons_of_mem _ member)
    rw [List.flatMap_cons,← List.append_nil (xs.flatMap layout)]
    exact (one x List.mem_cons_self).append (tail.append (Reads.pure (x::xs)))

/-! ### Readers on unknown contents -/

/-- Wherever `n` bytes are left, `m` has an outcome, consumes just these and
makes safe accesses only. -/
def Fits {α : Type} (m : Reading α) (n : Nat) : Prop :=
  ∀ (packet : DataInPacket) (rest : List UInt8), packet.Ready rest → n ≤ rest.length →
    ∃ value next, m packet = some (value,next) ∧ next.Ready (rest.drop n) ∧ next.data = packet.data ∧
      SafeSince packet.data.bytes.length packet.touched next.touched

theorem Fits.pure {α : Type} (value : α) : Fits (pure value) 0 := by
  intro packet rest ready _
  exact ⟨value,packet,rfl,ready,rfl,SafeSince.refl _ _⟩

theorem Fits.bind {α β : Type} {m : Reading α} {k : α → Reading β} {a b : Nat}
    (head : Fits m a) (tail : ∀ value, Fits (k value) b) : Fits (m >>= k) (a + b) := by
  intro packet rest ready enough
  obtain ⟨value,middle,first,ready,data,safe⟩ := head packet rest ready (by omega)
  obtain ⟨result,next,second,ready,data',safe'⟩ :=
    tail value middle _ ready (by rw [List.length_drop]; omega)
  refine ⟨result,next,?_,by simpa [List.drop_drop] using ready,data'.trans data,?_⟩
  · simp only [Bind.bind,StateT.bind,first,Option.bind_some]
    exact second
  · rw [data] at safe'
    exact safe.trans safe'

theorem Fits.map {α β : Type} {m : Reading α} {n : Nat} (f : α → β) (head : Fits m n) : Fits (f <$> m) n := by
  intro packet rest ready enough
  obtain ⟨value,next,outcome,ready,data,safe⟩ := head packet rest ready enough
  refine ⟨f value,next,?_,ready,data,safe⟩
  simp only [Functor.map,StateT.map,outcome]
  rfl

theorem fits_scalar (α : Type) [Scalar α] : Fits (readScalar α) (Scalar.width α) := by
  intro packet rest ready enough
  have split : packet.Ready (rest.take (Scalar.width α) ++ rest.drop (Scalar.width α)) := by
    rwa [List.take_append_drop]
  have size : (rest.take (Scalar.width α)).length = Scalar.width α := by
    rw [List.length_take]; omega
  exact ⟨_,_,readScalar_ready split size,split.advance _ size,rfl,SafeSince.one _ (safe_copy split size)⟩

theorem fits_array {n index : Nat} (inside : index < n) : Fits (readArray n index) n := by
  intro packet rest ready enough
  have split : packet.Ready (rest.take n ++ rest.drop n) := by rwa [List.take_append_drop]
  have size : (rest.take n).length = n := by rw [List.length_take]; omega
  obtain ⟨block,next,read,_,ready',data,_,safe⟩ := @readArray_ready packet _ _ n index split size
  exact ⟨_,next,read,ready',data,safe inside⟩

theorem fits_count {value : Int32} (zero : value.toInt = 0) : Fits (count value) 0 := by
  intro packet rest ready _
  have counted : Touch.Safe packet.data.bytes.length (.count value.toInt packet.remaining) := by
    rw [zero,ready.remaining]
    exact ⟨Int.le_refl 0,Int.natCast_nonneg _⟩
  exact ⟨(),_,rfl,ready.touch _,rfl,SafeSince.one _ counted⟩

theorem fits_text {len : Int32} (nonneg : 0 ≤ len.toInt) : Fits (readText len) len.toInt.toNat := by
  intro packet rest ready enough
  have split : packet.Ready (rest.take len.toInt.toNat ++ rest.drop len.toInt.toNat) := by
    rwa [List.take_append_drop]
  have size : len.toInt = (rest.take len.toInt.toNat).length := by
    rw [List.length_take]; omega
  obtain ⟨next,read,ready',data,_,safe⟩ := readText_ready split size
  exact ⟨_,next,read,ready',data,safe⟩

/-- Where the first part of a read fits, the second starts right after it. -/
theorem Fits.after {α β : Type} {m : Reading α} {k : α → Reading β} {n : Nat} {packet next : DataInPacket}
    {rest : List UInt8} {result : β} (head : Fits m n) (ready : packet.Ready rest) (enough : n ≤ rest.length)
    (outcome : (m >>= k) packet = some (result,next)) :
    ∃ value middle, middle.Ready (rest.drop n) ∧ k value middle = some (result,next) := by
  obtain ⟨value,middle,first,ready',_,_⟩ := head packet rest ready enough
  simp only [Bind.bind,StateT.bind,first,Option.bind_some] at outcome
  exact ⟨value,middle,ready',outcome⟩

/-- Every outcome of `m` satisfies `result`. -/
def Yields {α : Type} (m : Reading α) (result : α → DataInPacket → Prop) : Prop :=
  ∀ packet value next, m packet = some (value,next) → result value next

theorem Yields.bind {α β : Type} {m : Reading α} {k : α → Reading β} {result : β → DataInPacket → Prop}
    (tail : ∀ value, Yields (k value) result) : Yields (m >>= k) result := by
  intro packet value next outcome
  obtain ⟨⟨middle,between⟩,_,second⟩ := Option.bind_eq_some_iff.mp outcome
  exact tail middle between value next second

theorem Yields.map {α β : Type} {m : Reading α} {f : α → β} {result : β → DataInPacket → Prop}
    (head : Yields m fun value next => result (f value) next) : Yields (f <$> m) result := by
  intro packet value next outcome
  obtain ⟨⟨before,between⟩,first,second⟩ := Option.bind_eq_some_iff.mp outcome
  cases second
  exact head packet before _ first

theorem Yields.pure {α : Type} {value : α} {result : α → DataInPacket → Prop}
    (holds : ∀ next, result value next) : Yields (pure value) result := by
  intro packet _ next outcome
  cases outcome
  exact holds _

theorem yields_none {α : Type} (result : α → DataInPacket → Prop) : Yields (fun _ => none) result := by
  intro _ _ _ outcome
  cases outcome

theorem yields_then {α β : Type} {m : Reading α} {k : α → β} {result : α → DataInPacket → Prop}
    {final : β → DataInPacket → Prop} (head : Yields m result)
    (step : ∀ a next, result a next → final (k a) next) : Yields (m >>= fun a => pure (k a)) final := by
  intro packet value next outcome
  obtain ⟨⟨a,between⟩,first,second⟩ := Option.bind_eq_some_iff.mp outcome
  cases second
  exact step a _ (head packet a _ first)

theorem map_outcome {α β : Type} {m : Reading α} {f : α → β} {packet next : DataInPacket} {value : β}
    (outcome : (f <$> m) packet = some (value,next)) : ∃ a, m packet = some (a,next) := by
  obtain ⟨⟨a,between⟩,first,second⟩ := Option.bind_eq_some_iff.mp outcome
  cases second
  exact ⟨a,first⟩

/-- No outcome of `m` forgets an access. -/
def Keeps {α : Type} (m : Reading α) : Prop :=
  ∀ packet value next, m packet = some (value,next) → ∀ touch ∈ packet.touched, touch ∈ next.touched

theorem Keeps.bind {α β : Type} {m : Reading α} {k : α → Reading β} (head : Keeps m)
    (tail : ∀ value, Keeps (k value)) : Keeps (m >>= k) := by
  intro packet value next outcome touch member
  obtain ⟨⟨middle,between⟩,first,second⟩ := Option.bind_eq_some_iff.mp outcome
  exact tail middle between value next second touch (head packet middle between first touch member)

theorem Keeps.pure {α : Type} (value : α) : Keeps (pure value) := by
  intro packet result next outcome touch member
  cases outcome
  exact member

theorem readList_length {α : Type} (element : Reading α) (n : Nat) :
    Yields (readList element n) fun xs _ => xs.length = n := by
  induction n with
  | zero => exact Yields.pure fun _ => rfl
  | succ n ih =>
    apply Yields.bind
    intro x packet value next outcome
    obtain ⟨⟨xs,between⟩,read,finish⟩ := Option.bind_eq_some_iff.mp outcome
    cases finish
    rw [List.length_cons,ih _ _ _ read]

theorem keeps_scalar (α : Type) [Scalar α] : Keeps (readScalar α) := by
  intro packet value next outcome touch member
  unfold readScalar at outcome
  split at outcome
  · cases outcome
    simp [member]
  · cases outcome
    exact member

theorem keeps_record (touch : Touch) : Keeps (record touch) := by
  intro packet value next outcome other member
  cases outcome
  simp [member]

theorem keeps_block (n : Nat) : Keeps (readBlock n) := by
  apply Keeps.bind
  · intro packet value next outcome touch member
    unfold readData at outcome
    split at outcome <;> (cases outcome; exact member)
  · intro source packet value next outcome touch member
    simp only [memcpy] at outcome
    split at outcome
    · cases outcome
    · cases outcome
      simp [member]

theorem keeps_array (n index : Nat) : Keeps (readArray n index) :=
  (keeps_block n).bind fun _ => (keeps_record _).bind fun _ => Keeps.pure _

theorem keeps_list {α : Type} {element : Reading α} (one : Keeps element) (n : Nat) : Keeps (readList element n) := by
  induction n with
  | zero => exact Keeps.pure _
  | succ n ih => exact one.bind fun _ => ih.bind fun _ => Keeps.pure _

theorem readArray_store (n index : Nat) : Yields (readArray n index) fun _ next => .store index n ∈ next.touched := by
  apply Yields.bind
  intro block packet value next outcome
  cases outcome
  simp

/-- The length of the text and the record made of it. -/
theorem readText_outcome {len : Int32} {packet next : DataInPacket} {text : List UInt8}
    (outcome : readText len packet = some (text,next)) :
    (text.length : Int) = len.toInt ∧ .count len.toInt packet.remaining ∈ next.touched := by
  unfold readText at outcome
  split at outcome
  · cases outcome
  · rename_i nonneg
    simp only [bind,StateT.bind,count,record,Option.bind_some] at outcome
    obtain ⟨⟨block,between⟩,copied,result⟩ := Option.bind_eq_some_iff.mp outcome
    cases result
    constructor
    · rw [Int32.lt_iff_toInt_lt,Int32.toInt_zero] at nonneg
      rw [Vector.length_toList,Int32.toNatClampNeg]
      omega
    · exact keeps_block _ _ _ _ copied _ (by simp)

theorem readText_length (len : Int32) : Yields (readText len) fun text _ => (text.length : Int) = len.toInt :=
  fun _ _ _ outcome => (readText_outcome outcome).1

/-- No outcome of `m` copied more than `size` bytes. -/
def CopiesAtMost {α : Type} (m : Reading α) (size : Nat) : Prop :=
  ∀ packet value next, m packet = some (value,next) → next.widths.sum ≤ packet.widths.sum + size

theorem CopiesAtMost.pure {α : Type} (value : α) : CopiesAtMost (pure value) 0 := by
  intro packet result next outcome
  cases outcome
  exact Nat.le_refl _

theorem CopiesAtMost.bind {α β : Type} {m : Reading α} {k : α → Reading β} {a b : Nat}
    (head : CopiesAtMost m a) (tail : ∀ value, CopiesAtMost (k value) b) : CopiesAtMost (m >>= k) (a + b) := by
  intro packet value next outcome
  obtain ⟨⟨middle,between⟩,first,second⟩ := Option.bind_eq_some_iff.mp outcome
  have start := head _ _ _ first
  have finish := tail _ _ _ _ second
  omega

theorem copies_scalar (α : Type) [Scalar α] : CopiesAtMost (readScalar α) (Scalar.width α) := by
  intro packet value next outcome
  unfold readScalar at outcome
  split at outcome
  · cases outcome
    simp [DataInPacket.widths,Touch.width?]
  · cases outcome
    exact Nat.le_add_right _ _

theorem copies_count (value : Int32) : CopiesAtMost (count value) 0 := by
  intro packet result next outcome
  cases outcome
  simp [DataInPacket.widths,List.filterMap_cons,Touch.width?]

theorem copies_array (n index : Nat) : CopiesAtMost (readArray n index) n := by
  intro packet value next outcome
  obtain ⟨⟨block,between⟩,read,stored⟩ := Option.bind_eq_some_iff.mp outcome
  obtain ⟨⟨source,middle⟩,data,copied⟩ := Option.bind_eq_some_iff.mp read
  cases stored
  have same : middle.widths = packet.widths := by
    unfold readData at data
    split at data <;> (cases data; rfl)
  simp only [memcpy] at copied
  split at copied
  · cases copied
  · cases copied
    simp only [DataInPacket.widths] at same
    simp [DataInPacket.widths,List.filterMap_cons,Touch.width?,same]

theorem copies_list {α : Type} {element : Reading α} {a : Nat} (one : CopiesAtMost element a) (n : Nat) :
    CopiesAtMost (readList element n) (a * n) := by
  induction n with
  | zero => exact CopiesAtMost.pure _
  | succ n ih =>
    have all : CopiesAtMost (readList element (n+1)) (a + (a * n + 0)) :=
      one.bind fun _ => ih.bind fun _ => CopiesAtMost.pure _
    rwa [Nat.mul_succ,Nat.add_comm (a * n)]

/-- A text longer than what is left is counted, and its count is not safe. -/
theorem unsafe_text {len : Int32} {packet next : DataInPacket} {rest text : List UInt8} {total : Nat}
    (ready : packet.Ready rest) (outcome : readText len packet = some (text,next))
    (long : (rest.length : Int) < len.toInt) (safe : ∀ touch ∈ next.touched, touch.Safe total) : False := by
  have counted := safe _ (readText_outcome outcome).2
  rw [ready.remaining] at counted
  have inside : len.toInt ≤ rest.length := counted.2
  omega

end Migfm.Wire
