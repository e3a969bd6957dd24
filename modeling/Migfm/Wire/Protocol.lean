import Migfm.Wire.DataPacket

/-! The frame around every message. The chat and the robot server have the same
`PacketHead`, `BUILDHEAD` and `BUILDPACKHEAD`, and the same code before and
after the switch of `PackStream` and `UnpackStream`; a `Dialect` is what the
switches of one server say. -/
namespace Migfm.Wire
open Library.LittleEndian Library.Words

def PACKET_HEAD_LENGTH : Nat := 4 * 5 + 2 + 1 + 8

structure PacketHead where
  packet_length : Int32
  operate_code : Int32
  data_length : Int32
  current_time : Int32
  msg_type : Int16
  is_zip : Int8
  msg_id : Int64
  reserverd : Int32

def PacketHead.layout (head : PacketHead) : List (List UInt8) :=
  [Scalar.encode head.packet_length,Scalar.encode head.operate_code,Scalar.encode head.data_length,
    Scalar.encode head.current_time,Scalar.encode head.msg_type,Scalar.encode head.is_zip,
    Scalar.encode head.msg_id,Scalar.encode head.reserverd]

/-- BUILDHEAD, the writes. -/
def buildHead (head : PacketHead) : Writing Unit := do
  write32 head.packet_length
  write32 head.operate_code
  write32 head.data_length
  write32 head.current_time
  write16 head.msg_type
  write8 head.is_zip
  write64 head.msg_id
  write32 head.reserverd

/-- BUILDPACKHEAD. -/
def buildPackHead : Reading PacketHead := do
  let packet_length ← read32
  let operate_code ← read32
  let data_length ← read32
  let current_time ← read32
  let msg_type ← read16
  let is_zip ← read8
  let msg_id ← read64
  let reserverd ← read32
  return {packet_length,operate_code,data_length,current_time,msg_type,is_zip,msg_id,reserverd}

theorem length_head (head : PacketHead) : head.layout.flatten.length = PACKET_HEAD_LENGTH := by
  simp [PacketHead.layout,Scalar.length_encode,PACKET_HEAD_LENGTH,Scalar.width]

theorem writes_head (head : PacketHead) : Writes (buildHead head) head.layout :=
  (writes_scalar _).cons ((writes_scalar _).cons ((writes_scalar _).cons ((writes_scalar _).cons
    ((writes_scalar _).cons ((writes_scalar _).cons ((writes_scalar _).cons (writes_scalar _)))))))

theorem reads_head (head : PacketHead) : Reads buildPackHead head.layout head :=
  (reads_scalar _).cons ((reads_scalar _).cons ((reads_scalar _).cons ((reads_scalar _).cons
    ((reads_scalar _).cons ((reads_scalar _).cons ((reads_scalar _).cons ((reads_scalar _).cons (Reads.pure _))))))))

theorem fits_head : Fits buildPackHead PACKET_HEAD_LENGTH :=
  (fits_scalar Int32).bind fun _ => (fits_scalar Int32).bind fun _ => (fits_scalar Int32).bind fun _ =>
    (fits_scalar Int32).bind fun _ => (fits_scalar Int16).bind fun _ => (fits_scalar Int8).bind fun _ =>
      (fits_scalar Int64).bind fun _ => (fits_scalar Int32).bind fun _ => Fits.pure _

theorem copies_head : CopiesAtMost buildPackHead PACKET_HEAD_LENGTH :=
  (copies_scalar Int32).bind fun _ => (copies_scalar Int32).bind fun _ => (copies_scalar Int32).bind fun _ =>
    (copies_scalar Int32).bind fun _ => (copies_scalar Int16).bind fun _ => (copies_scalar Int8).bind fun _ =>
      (copies_scalar Int64).bind fun _ => (copies_scalar Int32).bind fun _ => CopiesAtMost.pure _

/-- The switch over `operate_code` in one server: the codes it has a case for,
the struct each case casts to, its size macro, its writes and its reads. The
size is a `size_t`; the read is also given `data_length`. -/
structure Dialect (Body : Type) where
  handles : Int32 → Bool
  casts : Int32 → Body → Bool
  size : Body → Nat
  write : Body → Writing Unit
  read : Int32 → Int32 → Reading Body

variable {Body : Type}

/-- The head BUILDHEAD writes for a body of `size` bytes. -/
def PacketHead.sent (head : PacketHead) (size : Nat) : PacketHead :=
  {head with data_length := Int32.ofNat size, packet_length := Int32.ofNat size + Int32.ofNat PACKET_HEAD_LENGTH}

structure Packed where
  ok : Bool
  stream : List UInt8
  packet_stream_length : Int32
  widths : List Nat

/-- The length PackStream announces where it computed `packet_length`. -/
def announced (packhead : PacketHead) (packet_length : Int32) : Int32 :=
  if packhead.packet_length = Int32.ofNat PACKET_HEAD_LENGTH ∧ packhead.data_length = 0 then
    Int32.ofNat PACKET_HEAD_LENGTH
  else packet_length

/-- No outcome: an array of negative length, or a struct of another kind behind
the cast. `uninit` is what the allocator left in bytes nothing wrote. -/
def Dialect.packStream (dialect : Dialect Body) (uninit : Nat → UInt8) (packhead : PacketHead) (body : Body) :
    Option Packed :=
  if dialect.handles packhead.operate_code = false then
    some ⟨false,[],announced packhead packhead.packet_length,[]⟩
  else if dialect.casts packhead.operate_code body = false then none
  else
    let head := packhead.sent (dialect.size body)
    if head.packet_length < 0 then none
    else
      let writing := do
        buildHead head
        dialect.write body
      match writing (DataOutPacket.new head.packet_length.toInt) with
      | none => none
      | some (_,out) =>
        let len := announced packhead head.packet_length
        some ⟨true,out.stream uninit len.toNatClampNeg,len,out.widths⟩

/-- `*packhead` is set only in the cases of the switch. -/
structure Unpacked (Body : Type) where
  ok : Bool
  packet : Option (PacketHead × Body)
  touched : List Touch

def Unpacked.widths (unpacked : Unpacked Body) : List Nat := unpacked.touched.filterMap Touch.width?

/-- A field of `struct PacketHead` laid over the received bytes. -/
def field (packet_stream : List UInt8) (offset : Nat) : Int32 :=
  Scalar.decode ((packet_stream.drop offset).take 4)

/-- The checks before the switch; `PACKET_HEAD_LENGTH` is a `size_t`, and so are
the comparisons with it. -/
def headerAccepts (packet_stream : List UInt8) : Bool :=
  let packet_length := field packet_stream 0
  let data_length := field packet_stream 8
  if packet_stream.length < PACKET_HEAD_LENGTH then false
  else if sizeT packet_length.toInt < PACKET_HEAD_LENGTH ∨ packet_length.toInt ≠ packet_stream.length ∨
      sizeT data_length.toInt ≠ sizeT (packet_length.toInt - PACKET_HEAD_LENGTH) then false
  else true

/-- The packet object of a stream that passed the checks. -/
def received (packet_stream : List UInt8) (around : Int → UInt8) : DataInPacket :=
  {data := ⟨packet_stream,around⟩, dataLen := field packet_stream 0, cursor := 0, touched := []}

/-- BUILDPACKHEAD and the rest of a case. -/
def Dialect.readPacket (dialect : Dialect Body) (packet_operate : Int32) : Reading (PacketHead × Body) := do
  let packhead ← buildPackHead
  let body ← dialect.read packet_operate packhead.data_length
  return (packhead,body)

def Dialect.unpackStream (dialect : Dialect Body) (around : Int → UInt8) (packet_stream : List UInt8) :
    Option (Unpacked Body) :=
  let packet_operate := field packet_stream 4
  if headerAccepts packet_stream = false || dialect.handles packet_operate = false then some ⟨false,none,[]⟩
  else
    match dialect.readPacket packet_operate (received packet_stream around) with
    | none => none
    | some (packet,next) => some ⟨true,some packet,next.touched⟩

/-! ### Packing then unpacking -/

/-- What a message must come back as. -/
structure Rebuilds (head : PacketHead) (body : Body) (packed : Packed) (unpacked : Unpacked Body) : Prop where
  packs : packed.ok = true
  unpacks : unpacked.ok = true
  same : ∃ rebuilt : PacketHead, unpacked.packet = some (rebuilt,body) ∧
    rebuilt = {head with packet_length := rebuilt.packet_length, data_length := rebuilt.data_length} ∧
    rebuilt.packet_length.toInt = PACKET_HEAD_LENGTH + rebuilt.data_length.toInt ∧
    rebuilt.packet_length = packed.packet_stream_length

/-- Whatever the unwritten and the surrounding memory holds. -/
def Dialect.RoundTrips (dialect : Dialect Body) (head : PacketHead) (body : Body) : Prop :=
  ∀ uninit around, ∃ packed unpacked, dialect.packStream uninit head body = some packed ∧
    dialect.unpackStream around packed.stream = some unpacked ∧ Rebuilds head body packed unpacked

/-- The head asks PackStream to announce a bare header. -/
def PacketHead.bare (head : PacketHead) : Prop :=
  head.packet_length = Int32.ofNat PACKET_HEAD_LENGTH ∧ head.data_length = 0

instance (head : PacketHead) : Decidable head.bare := by unfold PacketHead.bare; infer_instance

theorem field_append {front chunk rest : List UInt8} {offset : Nat} {value : Int32}
    (place : front.length = offset) (encoded : chunk = Scalar.encode value) :
    field (front ++ (chunk ++ rest)) offset = value := by
  have size : chunk.length = 4 := by rw [encoded]; exact Scalar.length_encode value
  unfold field
  rw [← place,List.drop_left,← size,List.take_left,encoded,Scalar.decode_encode]

theorem fields_head (head : PacketHead) (rest : List UInt8) :
    field (head.layout.flatten ++ rest) 0 = head.packet_length ∧
      field (head.layout.flatten ++ rest) 4 = head.operate_code ∧
      field (head.layout.flatten ++ rest) 8 = head.data_length := by
  have four (value : Int32) : (Scalar.encode value).length = 4 := Scalar.length_encode value
  simp only [PacketHead.layout,List.flatten_cons,List.append_assoc]
  refine ⟨@field_append [] _ _ 0 _ rfl rfl,?_,?_⟩
  · exact field_append (four _) rfl
  · rw [← List.append_assoc (Scalar.encode head.packet_length)]
    exact field_append (by rw [List.length_append,four,four]) rfl

theorem sent_packet_length {size : Nat} (head : PacketHead) (sized : PACKET_HEAD_LENGTH + size < 2^31) :
    (head.sent size).packet_length.toInt = PACKET_HEAD_LENGTH + size ∧
      (head.sent size).data_length.toInt = size := by
  have body : (Int32.ofNat size).toInt = size := Int32.toInt_ofNat_of_lt (by unfold PACKET_HEAD_LENGTH at sized; omega)
  refine ⟨?_,body⟩
  unfold PACKET_HEAD_LENGTH at sized ⊢
  simp only [PacketHead.sent,Int32.toInt_add,body]
  have constant : (Int32.ofNat PACKET_HEAD_LENGTH).toInt = 31 := rfl
  rw [constant,Int.bmod_eq_of_le (by omega) (by omega)]
  omega

/-- The stream is what was written, then what the allocator left. -/
theorem stream_eq (out : DataOutPacket) (uninit : Nat → UInt8) {n : Nat} (written : out.buffer.length ≤ n) :
    ∃ padding : List UInt8, padding.length = n - out.buffer.length ∧
      out.stream uninit n = out.buffer ++ padding := by
  refine ⟨(out.stream uninit n).drop out.buffer.length,?_,?_⟩
  · simp [DataOutPacket.stream]
  · apply List.ext_getElem?
    intro i
    rw [List.getElem?_append]
    split
    · rename_i inside
      have bound : i < n := by omega
      simp [DataOutPacket.stream,bound,inside]
    · rename_i outside
      rw [List.getElem?_drop]
      congr 1
      omega

theorem stream_length (out : DataOutPacket) (uninit : Nat → UInt8) (n : Nat) :
    (out.stream uninit n).length = n := by
  simp [DataOutPacket.stream]

theorem headerAccepts_iff (packet_stream : List UInt8) :
    headerAccepts packet_stream = true ↔
      PACKET_HEAD_LENGTH ≤ packet_stream.length ∧
      (field packet_stream 0).toInt = packet_stream.length ∧
      (field packet_stream 8).toInt = packet_stream.length - PACKET_HEAD_LENGTH := by
  have low := (field packet_stream 8).le_toInt
  have high := (field packet_stream 8).toInt_lt
  have top := (field packet_stream 0).toInt_lt
  unfold headerAccepts PACKET_HEAD_LENGTH
  simp only
  split
  · constructor
    · exact fun impossible => absurd impossible Bool.false_ne_true
    · omega
  split
  · rename_i long wrong
    constructor
    · exact fun impossible => absurd impossible Bool.false_ne_true
    · rintro ⟨_,whole,body⟩
      rw [whole,body,sizeT_of_nonneg (by omega) (by omega)] at wrong
      omega
  · rename_i long right
    simp only [not_or,not_not] at right
    obtain ⟨_,whole,body⟩ := right
    rw [whole] at body
    unfold sizeT at body
    simp only [true_iff]
    omega

theorem received_ready {packet_stream : List UInt8} (around : Int → UInt8)
    (accepts : headerAccepts packet_stream = true) : (received packet_stream around).Ready packet_stream := by
  obtain ⟨_,whole,_⟩ := (headerAccepts_iff packet_stream).mp accepts
  exact ⟨Int.le_refl 0,rfl,Nat.zero_le _,whole⟩

theorem announced_bare {head : PacketHead} (bare : head.bare) (packet_length : Int32) :
    announced head packet_length = Int32.ofNat PACKET_HEAD_LENGTH := if_pos bare

theorem announced_full {head : PacketHead} (full : ¬ head.bare) (packet_length : Int32) :
    announced head packet_length = packet_length := if_neg full

/-- A case of the switch whose writes fit the buffer. -/
theorem packStream_writes {dialect : Dialect Body} {head : PacketHead} {body : Body}
    {chunks : List (List UInt8)} (uninit : Nat → UInt8) (handled : dialect.handles head.operate_code = true)
    (cast : dialect.casts head.operate_code body = true) (sized : PACKET_HEAD_LENGTH + dialect.size body < 2^31)
    (written : Writes (dialect.write body) chunks) (fits : chunks.flatten.length ≤ dialect.size body) :
    ∃ out : DataOutPacket,
      out.buffer = (head.sent (dialect.size body)).layout.flatten ++ chunks.flatten ∧
      out.widths = ((head.sent (dialect.size body)).layout ++ chunks).map List.length ∧
      dialect.packStream uninit head body =
        some ⟨true,
          out.stream uninit (announced head (head.sent (dialect.size body)).packet_length).toNatClampNeg,
          announced head (head.sent (dialect.size body)).packet_length,out.widths⟩ := by
  obtain ⟨total,_⟩ := sent_packet_length head sized
  have nonneg : ¬ (head.sent (dialect.size body)).packet_length < 0 := by
    rw [Int32.lt_iff_toInt_lt,total,Int32.toInt_zero]
    omega
  have all := (writes_head (head.sent (dialect.size body))).append written
  have room : (([] : List UInt8).length +
      ((head.sent (dialect.size body)).layout ++ chunks).flatten.length : Int) ≤
      (head.sent (dialect.size body)).packet_length.toInt := by
    rw [total,List.flatten_append,List.length_append,length_head,List.length_nil]
    omega
  have outcome := all (DataOutPacket.new (head.sent (dialect.size body)).packet_length.toInt) room
  refine ⟨⟨((head.sent (dialect.size body)).layout ++ chunks).flatten,
    (head.sent (dialect.size body)).packet_length.toInt,
    ((head.sent (dialect.size body)).layout ++ chunks).map List.length⟩,List.flatten_append,rfl,?_⟩
  unfold Dialect.packStream
  simp only [handled,cast,Bool.true_eq_false,if_false,if_neg nonneg,outcome]
  rfl

/-- Where writes and reads of a case agree, the message comes back, and every
field was read with the width and in the order it was written. -/
theorem rebuilds {dialect : Dialect Body} {head : PacketHead} {body : Body} {chunks : List (List UInt8)}
    (uninit : Nat → UInt8) (around : Int → UInt8) (handled : dialect.handles head.operate_code = true)
    (cast : dialect.casts head.operate_code body = true) (sized : PACKET_HEAD_LENGTH + dialect.size body < 2^31)
    (proper : head.bare → dialect.size body = 0)
    (written : Writes (dialect.write body) chunks) (fits : chunks.flatten.length ≤ dialect.size body)
    (read : Reads (dialect.read head.operate_code (Int32.ofNat (dialect.size body))) chunks body) :
    ∃ packed unpacked, dialect.packStream uninit head body = some packed ∧
      dialect.unpackStream around packed.stream = some unpacked ∧ Rebuilds head body packed unpacked ∧
      unpacked.widths = packed.widths := by
  obtain ⟨total,inner⟩ := sent_packet_length head sized
  obtain ⟨out,buffer,widths,packs⟩ := packStream_writes uninit handled cast sized written fits
  generalize sentEq : head.sent (dialect.size body) = sent at total inner buffer widths packs
  have length : announced head sent.packet_length = sent.packet_length := by
    by_cases bare : head.bare
    · rw [announced_bare bare,← Int32.toInt_inj,total,proper bare]
      rfl
    · exact announced_full bare _
  rw [length] at packs
  have count : sent.packet_length.toNatClampNeg = PACKET_HEAD_LENGTH + dialect.size body := by
    rw [Int32.toNatClampNeg,total]
    omega
  have used : out.buffer.length ≤ sent.packet_length.toNatClampNeg := by
    rw [buffer,count,List.length_append,length_head]
    omega
  obtain ⟨padding,_,stream⟩ := stream_eq out uninit used
  have size := stream_length out uninit sent.packet_length.toNatClampNeg
  have whole : out.stream uninit sent.packet_length.toNatClampNeg =
      (sent.layout ++ chunks).flatten ++ padding := by
    rw [stream,buffer,List.flatten_append]
  obtain ⟨first,second,third⟩ := fields_head sent (chunks.flatten ++ padding)
  rw [← List.append_assoc,← List.flatten_append,← whole] at first second third
  have accepts : headerAccepts (out.stream uninit sent.packet_length.toNatClampNeg) = true := by
    rw [headerAccepts_iff,first,third,size,count,total,inner]
    omega
  have code : sent.operate_code = head.operate_code := by rw [← sentEq]; rfl
  have body_length : sent.data_length = Int32.ofNat (dialect.size body) := by rw [← sentEq]; rfl
  have all : Reads (dialect.readPacket head.operate_code) (sent.layout ++ chunks) (sent,body) := by
    rw [← List.append_nil chunks]
    rw [← body_length] at read
    exact (reads_head sent).append (read.append (Reads.pure _))
  have ready := received_ready around accepts
  rw [whole] at ready
  obtain ⟨next,outcome,_,copied⟩ := all _ _ ready
  rw [← whole] at outcome
  refine ⟨_,⟨true,some (sent,body),next.touched⟩,packs,?_,⟨rfl,rfl,sent,rfl,?_,?_,rfl⟩,?_⟩
  · unfold Dialect.unpackStream
    simp only [accepts,second,code,handled,Bool.true_eq_false,decide_false,Bool.or_self,outcome]
    rfl
  · rw [← sentEq]
    rfl
  · rw [total,inner]
  · rw [widths]
    exact copied

/-- What a message that came back says about the read of its case. -/
theorem read_of_rebuilds {dialect : Dialect Body} {head : PacketHead} {body : Body} {packed : Packed}
    {unpacked : Unpacked Body} {uninit : Nat → UInt8} {around : Int → UInt8}
    (handled : dialect.handles head.operate_code = true)
    (packs : dialect.packStream uninit head body = some packed)
    (unpacks : dialect.unpackStream around packed.stream = some unpacked)
    (same : Rebuilds head body packed unpacked) :
    ∃ packet_operate data_length rebuilt middle next,
      buildPackHead (received packed.stream around) = some (rebuilt,middle) ∧
      dialect.read packet_operate data_length middle = some (body,next) ∧
      0 ≤ data_length.toInt ∧ PACKET_HEAD_LENGTH + data_length.toInt < 2^31 ∧
      (head.bare → data_length.toInt = 0) ∧
      (¬ head.bare → data_length.toInt % 2^32 = dialect.size body % 2^32) ∧
      headerAccepts packed.stream = true ∧
      unpacked.touched = next.touched := by
  obtain ⟨_,ok,rebuilt,found,_,total,whole⟩ := same
  have accepts : headerAccepts packed.stream = true := by
    cases check : headerAccepts packed.stream with
    | true => rfl
    | false =>
      simp only [Dialect.unpackStream,check,decide_true,Bool.true_or,if_true,Option.some.injEq] at unpacks
      rw [← unpacks] at ok
      exact absurd ok Bool.false_ne_true
  obtain ⟨long,_,_⟩ := (headerAccepts_iff packed.stream).mp accepts
  have length : packed.stream.length = packed.packet_stream_length.toNatClampNeg ∧
      packed.packet_stream_length = announced head (head.sent (dialect.size body)).packet_length := by
    unfold Dialect.packStream at packs
    simp only [handled,Bool.true_eq_false,if_false] at packs
    split at packs
    · cases packs
    split at packs
    · cases packs
    split at packs
    · cases packs
    · cases packs
      exact ⟨stream_length _ _ _,rfl⟩
  have announcedEq := congrArg Int32.toInt length.2
  have top := packed.packet_stream_length.toInt_lt
  have clamped : packed.packet_stream_length.toNatClampNeg = packed.packet_stream_length.toInt.toNat := rfl
  rw [length.1,clamped] at long
  rw [whole] at total
  unfold PACKET_HEAD_LENGTH at long total ⊢
  unfold Dialect.unpackStream at unpacks
  simp only at unpacks
  split at unpacks
  · cases unpacks
    cases ok
  split at unpacks
  · cases unpacks
  rename_i packet last outcome
  cases unpacks
  cases found
  obtain ⟨⟨first,middle⟩,headed,rest⟩ := Option.bind_eq_some_iff.mp outcome
  obtain ⟨⟨second,next⟩,read,finish⟩ := Option.bind_eq_some_iff.mp rest
  cases finish
  refine ⟨_,_,_,middle,last,headed,read,by omega,by omega,?_,?_,accepts,rfl⟩
  · intro bare
    rw [announced_bare bare] at announcedEq
    have constant : (Int32.ofNat PACKET_HEAD_LENGTH).toInt = 31 := rfl
    omega
  · intro full
    rw [announced_full full] at announcedEq
    have constant : (Int32.ofNat PACKET_HEAD_LENGTH).toInt = 31 := rfl
    obtain ⟨i,sum⟩ := toInt_add_wraps (Int32.ofNat (dialect.size body)) (Int32.ofNat PACKET_HEAD_LENGTH)
    obtain ⟨j,narrowed⟩ := toInt_ofNat_wraps (dialect.size body)
    rw [constant,narrowed] at sum
    simp only [PacketHead.sent,sum] at announcedEq
    omega

/-- A bare announcement is refused unless the body is empty. -/
theorem proper_of_rebuilds {dialect : Dialect Body} {head : PacketHead} {body : Body}
    {chunks : List (List UInt8)} {packed : Packed} {uninit : Nat → UInt8}
    (handled : dialect.handles head.operate_code = true)
    (cast : dialect.casts head.operate_code body = true) (sized : PACKET_HEAD_LENGTH + dialect.size body < 2^31)
    (written : Writes (dialect.write body) chunks) (fits : chunks.flatten.length ≤ dialect.size body)
    (packs : dialect.packStream uninit head body = some packed)
    (accepts : headerAccepts packed.stream = true) (bare : head.bare) : dialect.size body = 0 := by
  obtain ⟨total,_⟩ := sent_packet_length head sized
  obtain ⟨out,buffer,_,packs'⟩ := packStream_writes uninit handled cast sized written fits
  rw [packs,Option.some.injEq] at packs'
  subst packs'
  rw [announced_bare bare] at accepts
  obtain ⟨_,whole,_⟩ := (headerAccepts_iff _).mp accepts
  have size : (Int32.ofNat PACKET_HEAD_LENGTH).toNatClampNeg = PACKET_HEAD_LENGTH := rfl
  have stream : out.stream uninit PACKET_HEAD_LENGTH = (head.sent (dialect.size body)).layout.flatten ++ [] := by
    apply List.ext_getElem?
    intro i
    have length := length_head (head.sent (dialect.size body))
    by_cases inside : i < PACKET_HEAD_LENGTH
    · have place : i < (head.sent (dialect.size body)).layout.flatten.length := by omega
      simp [DataOutPacket.stream,buffer,inside,List.getElem?_append_left place,List.getElem?_eq_getElem place]
    · have after : (head.sent (dialect.size body)).layout.flatten.length ≤ i := by omega
      simp [DataOutPacket.stream,inside,List.getElem?_eq_none after]
  simp only [size,stream_length] at whole
  rw [stream,(fields_head _ _).1,total] at whole
  omega

/-! ### Unpacking what a peer sent -/

/-- Every 31 bytes are the layout of some head. -/
theorem head_exists {packet_stream : List UInt8} (long : PACKET_HEAD_LENGTH ≤ packet_stream.length) :
    ∃ head : PacketHead, packet_stream = head.layout.flatten ++ packet_stream.drop PACKET_HEAD_LENGTH := by
  have slice {α : Type} [Scalar α] (offset : Nat) (fits : offset + Scalar.width α ≤ packet_stream.length) :
      ∃ value : α, packet_stream.drop offset =
        Scalar.encode value ++ packet_stream.drop (offset + Scalar.width α) := by
    refine ⟨Scalar.decode ((packet_stream.drop offset).take (Scalar.width α)),?_⟩
    rw [Scalar.encode_decode _ (by rw [List.length_take,List.length_drop]; omega),← List.drop_drop,
      List.take_append_drop]
  unfold PACKET_HEAD_LENGTH at long ⊢
  obtain ⟨packet_length,first⟩ := slice (α := Int32) 0 (by show 0 + 4 ≤ _; omega)
  obtain ⟨operate_code,second⟩ := slice (α := Int32) 4 (by show 4 + 4 ≤ _; omega)
  obtain ⟨data_length,third⟩ := slice (α := Int32) 8 (by show 8 + 4 ≤ _; omega)
  obtain ⟨current_time,fourth⟩ := slice (α := Int32) 12 (by show 12 + 4 ≤ _; omega)
  obtain ⟨msg_type,fifth⟩ := slice (α := Int16) 16 (by show 16 + 2 ≤ _; omega)
  obtain ⟨is_zip,sixth⟩ := slice (α := Int8) 18 (by show 18 + 1 ≤ _; omega)
  obtain ⟨msg_id,seventh⟩ := slice (α := Int64) 19 (by show 19 + 8 ≤ _; omega)
  obtain ⟨reserverd,eighth⟩ := slice (α := Int32) 27 (by show 27 + 4 ≤ _; omega)
  refine ⟨⟨packet_length,operate_code,data_length,current_time,msg_type,is_zip,msg_id,reserverd⟩,?_⟩
  simp only [PacketHead.layout,List.flatten_cons,List.flatten_nil,List.append_nil,List.append_assoc]
  exact first.trans (congrArg _ (second.trans (congrArg _ (third.trans (congrArg _ (fourth.trans
    (congrArg _ (fifth.trans (congrArg _ (sixth.trans (congrArg _ (seventh.trans
      (congrArg _ eighth)))))))))))))

/-- A stream that passes the checks reaches the read of its case right after
the head, with `data_length` the length of the body. -/
theorem unpackStream_accepted (dialect : Dialect Body) (around : Int → UInt8) {packet_stream : List UInt8}
    (accepts : headerAccepts packet_stream = true) (handled : dialect.handles (field packet_stream 4) = true) :
    ∃ (head : PacketHead) (middle : DataInPacket),
      middle.Ready (packet_stream.drop PACKET_HEAD_LENGTH) ∧ middle.data.bytes = packet_stream ∧
      SafeSince packet_stream.length [] middle.touched ∧
      head.data_length.toInt = packet_stream.length - PACKET_HEAD_LENGTH ∧
      dialect.unpackStream around packet_stream =
        (dialect.read (field packet_stream 4) head.data_length middle).map fun (body,next) =>
          ⟨true,some (head,body),next.touched⟩ := by
  obtain ⟨long,_,inner⟩ := (headerAccepts_iff packet_stream).mp accepts
  obtain ⟨head,split⟩ := head_exists long
  have ready := received_ready around accepts
  rw [split] at ready
  obtain ⟨middle,outcome,ready',_⟩ := reads_head head _ _ ready
  rw [← split] at outcome ready
  obtain ⟨head',middle',outcome',_,data,safe⟩ := fits_head _ _ ready long
  rw [outcome] at outcome'
  cases outcome'
  have third := (fields_head head (packet_stream.drop PACKET_HEAD_LENGTH)).2.2
  rw [← split] at third
  rw [third] at inner
  refine ⟨head,middle,ready',congrArg Memory.bytes data,safe,inner,?_⟩
  unfold Dialect.unpackStream
  simp only [accepts,handled,Bool.true_eq_false,decide_false,Bool.or_self,Bool.false_eq_true,if_false]
  simp only [Dialect.readPacket,bind,StateT.bind,outcome,Option.bind_some]
  cases dialect.read (field packet_stream 4) head.data_length middle with
  | none => rfl
  | some result => rfl

/-- No crash, no access outside the packet or a fixed array, and a body shorter
than the fixed part of its kind refused. -/
def Dialect.InBounds (dialect : Dialect Body) (shortest : Int32 → Nat) (around : Int → UInt8)
    (packet_stream : List UInt8) : Prop :=
  ∃ unpacked, dialect.unpackStream around packet_stream = some unpacked ∧
    (∀ touch ∈ unpacked.touched, touch.Safe packet_stream.length) ∧
    (dialect.handles (field packet_stream 4) = true →
      packet_stream.length - PACKET_HEAD_LENGTH < shortest (field packet_stream 4) → unpacked.ok = false)

theorem inBounds_of_unhandled {dialect : Dialect Body} {shortest : Int32 → Nat} {around : Int → UInt8}
    {packet_stream : List UInt8} (unhandled : dialect.handles (field packet_stream 4) = false) :
    dialect.InBounds shortest around packet_stream := by
  refine ⟨⟨false,none,[]⟩,?_,by simp,fun _ _ => rfl⟩
  simp [Dialect.unpackStream,unhandled]

theorem inBounds_of_fits {dialect : Dialect Body} {shortest : Int32 → Nat} {around : Int → UInt8}
    {packet_stream : List UInt8} (accepts : headerAccepts packet_stream = true)
    (handled : dialect.handles (field packet_stream 4) = true)
    (enough : shortest (field packet_stream 4) ≤ packet_stream.length - PACKET_HEAD_LENGTH)
    (fits : ∀ data_length : Int32, data_length.toInt = packet_stream.length - PACKET_HEAD_LENGTH →
      ∃ n, n ≤ packet_stream.length - PACKET_HEAD_LENGTH ∧
        Fits (dialect.read (field packet_stream 4) data_length) n) :
    dialect.InBounds shortest around packet_stream := by
  obtain ⟨head,middle,ready,data,safe,inner,outcome⟩ := unpackStream_accepted dialect around accepts handled
  obtain ⟨n,inside,fit⟩ := fits head.data_length inner
  obtain ⟨body,next,read,_,_,safe'⟩ := fit middle _ ready (by rw [List.length_drop]; exact inside)
  rw [data] at safe'
  obtain ⟨new,all,each⟩ := safe.trans safe'
  rw [read,Option.map_some] at outcome
  refine ⟨_,outcome,?_,by intro _ short; omega⟩
  rw [List.nil_append] at all
  simpa only [all] using each

/-- A case of the switch never refuses a body. -/
theorem enough_of_inBounds {dialect : Dialect Body} {shortest : Int32 → Nat} {around : Int → UInt8}
    {packet_stream : List UInt8} (accepts : headerAccepts packet_stream = true)
    (handled : dialect.handles (field packet_stream 4) = true)
    (bounds : dialect.InBounds shortest around packet_stream) :
    shortest (field packet_stream 4) ≤ packet_stream.length - PACKET_HEAD_LENGTH ∧
      ∃ (head : PacketHead) (middle : DataInPacket) (body : Body) (next : DataInPacket),
        middle.Ready (packet_stream.drop PACKET_HEAD_LENGTH) ∧
        head.data_length.toInt = packet_stream.length - PACKET_HEAD_LENGTH ∧
        dialect.read (field packet_stream 4) head.data_length middle = some (body,next) ∧
        ∀ touch ∈ next.touched, touch.Safe packet_stream.length := by
  obtain ⟨head,middle,ready,_,_,inner,outcome⟩ := unpackStream_accepted dialect around accepts handled
  obtain ⟨unpacked,unpacks,safe,refused⟩ := bounds
  rw [outcome,Option.map_eq_some_iff] at unpacks
  obtain ⟨⟨body,next⟩,read,rfl⟩ := unpacks
  constructor
  · by_contra short
    exact absurd (refused handled (Nat.lt_of_not_le short)) Bool.true_eq_false.mp
  · exact ⟨head,middle,body,next,ready,inner,read,safe⟩

end Migfm.Wire
