import Migfm.Wire.Protocol

/-! The length that PackStream stores and reports, beside the bytes that it writes. -/
namespace Migfm.Wire
open Library.LittleEndian Library.Words

variable {Body : Type}

/-- The stream is the same whatever the allocator left, and has as many bytes as its head and the caller are told. -/
def Dialect.Announces (dialect : Dialect Body) (packhead : PacketHead) (body : Body) : Prop :=
  ∃ packed, (∀ uninit, dialect.packStream uninit packhead body = some packed) ∧ packed.ok = true ∧
    (packed.widths.sum : Int) = packed.packet_stream_length.toInt ∧ field packed.stream 0 = packed.packet_stream_length

theorem stream_take (out : DataOutPacket) (uninit : Nat → UInt8) {n k : Nat} (inside : k ≤ out.buffer.length) (most : k ≤ n) :
    (out.stream uninit n).take k = out.buffer.take k := by
  apply List.ext_getElem
  · rw [List.length_take,List.length_take,stream_length]
    omega
  · intro i left right
    have there : i < out.buffer.length := by rw [List.length_take] at right; omega
    simp [DataOutPacket.stream,there]

/-- What a stream that is long enough says of its length. -/
theorem field_stream {out : DataOutPacket} {head : PacketHead} {rest : List UInt8} (buffer : out.buffer = head.layout.flatten ++ rest)
    (uninit : Nat → UInt8) {n : Nat} (most : 4 ≤ n) : field (out.stream uninit n) 0 = head.packet_length := by
  have length : 4 ≤ out.buffer.length := by
    rw [buffer,List.length_append,length_head,PACKET_HEAD_LENGTH]
    omega
  have stored := (fields_head head rest).1
  rw [field,List.drop_zero] at stored ⊢
  rw [stream_take out uninit length most,buffer,stored]

section Fits
variable {dialect : Dialect Body} {packhead : PacketHead} {body : Body} {chunks : List (List UInt8)}
  (handled : dialect.handles packhead.operate_code = true) (cast : dialect.casts packhead.operate_code body = true)
  (sized : PACKET_HEAD_LENGTH + dialect.size body < 2^31) (written : Writes (dialect.write body) chunks)

include handled cast sized written

/-- What is written, and what is reported. -/
theorem packed_fits (fits : chunks.flatten.length ≤ dialect.size body) (uninit : Nat → UInt8) :
    ∃ packed, dialect.packStream uninit packhead body = some packed ∧ packed.ok = true ∧
      packed.widths.sum = PACKET_HEAD_LENGTH + chunks.flatten.length ∧
      packed.packet_stream_length = announced packhead (packhead.sent (dialect.size body)).packet_length ∧
      field packed.stream 0 = (packhead.sent (dialect.size body)).packet_length := by
  obtain ⟨out,buffer,widths,packs⟩ := packStream_writes uninit handled cast sized written fits
  obtain ⟨total,_⟩ := sent_packet_length packhead sized
  refine ⟨_,packs,rfl,?_,rfl,field_stream buffer uninit ?_⟩
  · rw [widths,← List.length_flatten,List.flatten_append,List.length_append,length_head]
  · rw [announced]
    split
    · decide
    · rw [Int32.toNatClampNeg,total,PACKET_HEAD_LENGTH]
      omega

/-- Only a bare head, or bytes that are left out, spoil what is announced. -/
theorem announces_iff_exact (fits : chunks.flatten.length ≤ dialect.size body) :
    dialect.Announces packhead body ↔ chunks.flatten.length = dialect.size body ∧ (packhead.bare → dialect.size body = 0) := by
  obtain ⟨total,_⟩ := sent_packet_length packhead sized
  have head : (Int32.ofNat PACKET_HEAD_LENGTH).toInt = PACKET_HEAD_LENGTH := rfl
  constructor
  · rintro ⟨packed,packs,_,same,stored⟩
    obtain ⟨other,packs',_,sum,reported,field⟩ := packed_fits handled cast sized written fits fun _ => 0
    rw [packs,Option.some.injEq] at packs'
    subst packs'
    rw [← stored,field,total,sum] at same
    refine ⟨by omega,?_⟩
    intro bare
    rw [field,reported,announced_bare bare] at stored
    rw [stored,head] at total
    omega
  · rintro ⟨exact_,proper⟩
    have length : announced packhead (packhead.sent (dialect.size body)).packet_length = (packhead.sent (dialect.size body)).packet_length := by
      by_cases bare : packhead.bare
      · rw [announced_bare bare]
        apply Int32.toInt_inj.mp
        rw [head,total,proper bare]
        rfl
      · exact announced_full bare _
    refine ⟨⟨true,(packhead.sent (dialect.size body)).layout.flatten ++ chunks.flatten,(packhead.sent (dialect.size body)).packet_length,
      ((packhead.sent (dialect.size body)).layout ++ chunks).map List.length⟩,?_,rfl,?_,(fields_head _ _).1⟩
    · intro uninit
      obtain ⟨out,buffer,widths,packs⟩ := packStream_writes uninit handled cast sized written fits
      have all : out.buffer.length = PACKET_HEAD_LENGTH + dialect.size body := by
        rw [buffer,List.length_append,length_head,exact_]
      have count : (packhead.sent (dialect.size body)).packet_length.toNatClampNeg = out.buffer.length := by
        rw [Int32.toNatClampNeg,total,all]
        omega
      have stream : out.stream uninit out.buffer.length = out.buffer := by
        have whole := @stream_take out uninit out.buffer.length out.buffer.length (Nat.le_refl _) (Nat.le_refl _)
        rwa [List.take_length,List.take_of_length_le (Nat.le_of_eq (stream_length ..))] at whole
      rw [packs,length,count,stream,buffer,widths]
    · rw [← List.length_flatten,List.flatten_append,List.length_append,length_head,total,exact_]
      exact Int.natCast_add ..

end Fits

/-! ### Lengths that are no `int32` -/

/-- The write has no outcome. -/
def Fails (m : Writing Unit) : Prop := ∀ out, m out = none

theorem Fails.after {first rest : Writing Unit} (fails : Fails rest) : Fails (first >>= fun _ => rest) := by
  intro out
  simp only [bind,StateT.bind]
  cases first out with
  | none => rfl
  | some result => exact fails result.2

/-- The length of a text of 2^31 to 2^32 bytes is negative. -/
theorem fails_text {text : List UInt8} (long : 2^31 ≤ text.length) (short : text.length < 2^32) : Fails (writeText text) := by
  intro out
  have negative : Int32.ofNat text.length < 0 := by
    rw [Int32.lt_iff_toInt_lt,Int32.toInt_ofNat',Int.bmod_def]
    have size : Int32.size = 2^32 := rfl
    have zero : (0 : Int32).toInt = 0 := rfl
    rw [size,zero]
    split <;> omega
  rw [writeText,writeData,if_pos negative]

/-- What `WriteData` takes of a text: its length modulo 2^32. -/
def cutText (text : List UInt8) : List UInt8 := text.take (text.length % 2^32)

theorem length_cutText (text : List UInt8) : (cutText text).length = text.length % 2^32 := by
  rw [cutText,List.length_take,Nat.min_eq_left (Nat.mod_le ..)]

/-- An `int32` does not tell a length from what is left of it. -/
theorem ofNat_cut (fixed length : Nat) : Int32.ofNat (fixed + length % 2^32) = Int32.ofNat (fixed + length) := by
  apply Int32.toInt_inj.mp
  have size : Int32.size = 2^32 := rfl
  rw [Int32.toInt_ofNat',Int32.toInt_ofNat',size,← Int.emod_bmod,← @Int.emod_bmod ((fixed + length : Nat) : Int)]
  congr 1
  omega

theorem writeText_cut (text : List UInt8) : writeText (cutText text) = writeText text := by
  have length : Int32.ofNat (text.length % 2^32) = Int32.ofNat text.length := by
    apply Int32.toInt_inj.mp
    rw [Int32.toInt_ofNat',Int32.toInt_ofNat',Int.natCast_mod]
    exact Int.emod_bmod ..
  have clamp : (Int32.ofNat text.length).toNatClampNeg ≤ text.length % 2^32 := by
    have size : Int32.size = 2^32 := rfl
    rw [Int32.toNatClampNeg,Int32.toInt_ofNat',size,Int.bmod_def]
    split <;> omega
  have bytes : (cutText text).take (Int32.ofNat text.length).toNatClampNeg = text.take (Int32.ofNat text.length).toNatClampNeg := by
    rw [cutText,List.take_take,Nat.min_eq_left clamp]
  funext out
  simp only [writeText,writeData,length_cutText,length,bytes]

/-- Each block in turn, whether or not it fits. -/
def Puts (m : Writing Unit) (chunks : List (List UInt8)) : Prop := ∀ out, m out = some ((),chunks.foldl DataOutPacket.put out)

theorem puts_nothing : Puts (pure ()) [] := fun _ => rfl

theorem Puts.append {first rest : Writing Unit} {front back : List (List UInt8)} (head : Puts first front) (tail : Puts rest back) :
    Puts (first >>= fun _ => rest) (front ++ back) := by
  intro out
  simp only [bind,StateT.bind,head out,Option.bind_some,List.foldl_append]
  exact tail _

theorem Puts.cons {first rest : Writing Unit} {chunk : List UInt8} {chunks : List (List UInt8)} (head : Puts first [chunk])
    (tail : Puts rest chunks) : Puts (first >>= fun _ => rest) (chunk::chunks) := head.append tail

theorem puts_scalar {α : Type} [Scalar α] (value : α) : Puts (writeScalar value) [Scalar.encode value] := fun _ => rfl

theorem puts_array {n : Nat} (array : CharArray n) (small : n < 2^31) : Puts (writeArray array) [array.toList] := by
  intro out
  have nonneg : ¬ Int32.ofNat n < 0 := by
    rw [Int32.lt_iff_toInt_lt,Int32.toInt_ofNat_of_lt small]
    exact Int.not_lt.mpr (Int.natCast_nonneg n)
  rw [writeArray,writeData,if_neg nonneg,Int32.toNatClampNeg_ofNat_of_lt small,List.take_of_length_le (Nat.le_of_eq (Vector.length_toList ..))]
  rfl

theorem puts_list {α : Type} {write : α → Writing Unit} {layout : α → List (List UInt8)} (one : ∀ x, Puts (write x) (layout x)) (xs : List α) :
    Puts (writeList write xs) (xs.flatMap layout) := by
  induction xs with
  | nil => exact puts_nothing
  | cons x xs ih => exact (one x).append ih

/-- Below 2^30 bytes no block is lost. -/
theorem put_or_lost (out : DataOutPacket) (bytes : List UInt8) :
    ((out.put bytes).buffer.length = out.buffer.length + bytes.length ∧ (out.put bytes).widths.sum = out.widths.sum + bytes.length) ∨
      ((out.put bytes).buffer.length = 0 ∧ (out.put bytes).widths.sum = out.widths.sum ∧
        (bytes.length = 0 ∨ 2^30 ≤ out.buffer.length + bytes.length)) := by
  rw [DataOutPacket.put]
  by_cases more : (↑(out.buffer.length + bytes.length) : Int) > out.bufferLength
  · simp only [if_pos more]
    by_cases fails : (Int32.ofNat (out.buffer.length + bytes.length) * 2).toInt ≤ 0
    · rw [if_pos fails]
      refine .inr ⟨rfl,rfl,?_⟩
      by_contra less
      have small : out.buffer.length + bytes.length < 2^30 := by omega
      have two : (2 : Int32).toInt = 2 := rfl
      rw [Int32.toInt_mul,Int32.toInt_ofNat_of_lt (by omega),two,Int.bmod_eq_of_le (by omega) (by omega)] at fails
      omega
    · rw [if_neg fails]
      exact .inl ⟨List.length_append,by simp⟩
  · simp only [if_neg more]
    exact .inl ⟨List.length_append,by simp⟩

/-- A block of up to 512 bytes is lost with a full buffer, so that less than a thousandth of the bytes is. -/
theorem foldl_put_lost {chunks : List (List UInt8)} (small : ∀ chunk ∈ chunks, chunk.length ≤ 512) {out : DataOutPacket} {lost : Nat}
    (paid : 1000 * lost + out.buffer.length ≤ out.widths.sum) :
    ∃ after, 1000 * after ≤ (chunks.foldl DataOutPacket.put out).widths.sum ∧
      (chunks.foldl DataOutPacket.put out).widths.sum + after = out.widths.sum + lost + chunks.flatten.length := by
  induction chunks generalizing out lost with
  | nil => exact ⟨lost,by simp only [List.foldl_nil]; omega,by simp⟩
  | cons chunk chunks ih =>
    obtain ⟨this,others⟩ := List.forall_mem_cons.mp small
    rw [List.foldl_cons,List.flatten_cons,List.length_append]
    rcases put_or_lost out chunk with ⟨buffer,widths⟩ | ⟨buffer,widths,most⟩
    · have still : 1000 * lost + (out.put chunk).buffer.length ≤ (out.put chunk).widths.sum := by omega
      obtain ⟨after,bound,total⟩ := ih others still
      exact ⟨after,bound,by omega⟩
    · have still : 1000 * (lost + chunk.length) + (out.put chunk).buffer.length ≤ (out.put chunk).widths.sum := by omega
      obtain ⟨after,bound,total⟩ := ih others still
      exact ⟨after,bound,by omega⟩

section Large
variable {dialect : Dialect Body} {packhead : PacketHead} {body other : Body}

/-- PackStream sees of a body its struct, its size as an `int32` and its writes. -/
theorem announces_congr (casts : dialect.casts packhead.operate_code other = dialect.casts packhead.operate_code body)
    (size : Int32.ofNat (dialect.size other) = Int32.ofNat (dialect.size body)) (write : dialect.write other = dialect.write body) :
    dialect.Announces packhead other ↔ dialect.Announces packhead body := by
  have head : packhead.sent (dialect.size other) = packhead.sent (dialect.size body) := by rw [PacketHead.sent,PacketHead.sent,size]
  have same (uninit : Nat → UInt8) : dialect.packStream uninit packhead other = dialect.packStream uninit packhead body := by
    rw [Dialect.packStream,Dialect.packStream,casts,head,write]
  simp only [Dialect.Announces,same]

theorem not_announces_of_fails (handled : dialect.handles packhead.operate_code = true) (fails : Fails (dialect.write body)) :
    ¬ dialect.Announces packhead body := by
  rintro ⟨packed,packs,_⟩
  have none_ := packs fun _ => 0
  have fails' : Fails (do buildHead (packhead.sent (dialect.size body)); dialect.write body) := Fails.after fails
  rw [Dialect.packStream] at none_
  simp only [handled,Bool.true_eq_false,if_false,fails' _] at none_
  split at none_
  · cases none_
  · split at none_ <;> cases none_

/-- The stored length is that of the packet modulo 2^32. -/
theorem sent_wraps (packhead : PacketHead) (size : Nat) :
    ∃ i : Int, (packhead.sent size).packet_length.toInt = ↑(PACKET_HEAD_LENGTH + size) + 2^32 * i := by
  have head : (Int32.ofNat PACKET_HEAD_LENGTH).toInt = PACKET_HEAD_LENGTH := rfl
  have sum : (packhead.sent size).packet_length = Int32.ofNat size + Int32.ofNat PACKET_HEAD_LENGTH := rfl
  obtain ⟨i,body_wraps⟩ := toInt_ofNat_wraps size
  obtain ⟨j,wraps⟩ := toInt_add_wraps (Int32.ofNat size) (Int32.ofNat PACKET_HEAD_LENGTH)
  refine ⟨i + j,?_⟩
  rw [sum,wraps,body_wraps,head]
  omega

/-- A packet of 2^31 to 2^32 bytes has a negative length. -/
theorem not_announces_of_negative (handled : dialect.handles packhead.operate_code = true) (large : 2^31 ≤ PACKET_HEAD_LENGTH + dialect.size body)
    (most : PACKET_HEAD_LENGTH + dialect.size body < 2^32) : ¬ dialect.Announces packhead body := by
  rintro ⟨packed,packs,_⟩
  have outcome := packs fun _ => 0
  have negative : (packhead.sent (dialect.size body)).packet_length < 0 := by
    have low := (packhead.sent (dialect.size body)).packet_length.le_toInt
    have high := (packhead.sent (dialect.size body)).packet_length.toInt_lt
    obtain ⟨i,wraps⟩ := sent_wraps packhead (dialect.size body)
    rw [Int32.lt_iff_toInt_lt,Int32.toInt_zero]
    omega
  rw [Dialect.packStream] at outcome
  simp only [handled,Bool.true_eq_false,if_false,if_pos negative] at outcome
  split at outcome <;> cases outcome

/-- A case that ends in a text. -/
theorem sized_of_text (handled : dialect.handles packhead.operate_code = true) {text : List UInt8} (short : text.length < 2^32)
    (fails : 2^31 ≤ text.length → Fails (dialect.write body)) (size : dialect.size body ≤ 200 + text.length)
    (announces : dialect.Announces packhead body) : PACKET_HEAD_LENGTH + dialect.size body < 2^31 := by
  by_contra large
  by_cases long : 2^31 ≤ text.length
  · exact not_announces_of_fails handled (fails long) announces
  · rw [PACKET_HEAD_LENGTH] at large
    exact not_announces_of_negative handled (by rw [PACKET_HEAD_LENGTH]; omega) (by rw [PACKET_HEAD_LENGTH]; omega) announces

/-- From 2^32 bytes on most of them are written, more than an `int32` tells. -/
theorem not_announces_of_puts (handled : dialect.handles packhead.operate_code = true) {chunks : List (List UInt8)}
    (puts : Puts (dialect.write body) chunks) (small : ∀ chunk ∈ chunks, chunk.length ≤ 512) (exact_ : chunks.flatten.length = dialect.size body)
    (large : 2^31 ≤ PACKET_HEAD_LENGTH + dialect.size body) : ¬ dialect.Announces packhead body := by
  rintro ⟨packed,packs,_,same,_⟩
  have outcome := packs fun _ => 0
  have all : Puts (do buildHead (packhead.sent (dialect.size body)); dialect.write body)
      ((packhead.sent (dialect.size body)).layout ++ chunks) := by
    apply Puts.append _ puts
    exact (puts_scalar _).cons ((puts_scalar _).cons ((puts_scalar _).cons ((puts_scalar _).cons
      ((puts_scalar _).cons ((puts_scalar _).cons ((puts_scalar _).cons (puts_scalar _)))))))
  have blocks : ∀ chunk ∈ (packhead.sent (dialect.size body)).layout ++ chunks, chunk.length ≤ 512 := by
    intro chunk member
    obtain member | member := List.mem_append.mp member
    · have part := (List.sublist_flatten_of_mem member).length_le
      rw [length_head,PACKET_HEAD_LENGTH] at part
      omega
    · exact small chunk member
  rw [Dialect.packStream] at outcome
  simp only [handled,Bool.true_eq_false,if_false] at outcome
  split at outcome
  · cases outcome
  split at outcome
  · cases outcome
  rename_i nonneg
  simp only [all _] at outcome
  cases outcome
  have paid : 1000 * 0 + (DataOutPacket.new (packhead.sent (dialect.size body)).packet_length.toInt).buffer.length ≤
      (DataOutPacket.new (packhead.sent (dialect.size body)).packet_length.toInt).widths.sum := Nat.le_refl 0
  obtain ⟨lost,bound,total⟩ := foldl_put_lost blocks paid
  have start : (DataOutPacket.new (packhead.sent (dialect.size body)).packet_length.toInt).widths.sum = 0 := rfl
  rw [List.flatten_append,List.length_append,length_head,exact_,start] at total
  have told := (announced packhead (packhead.sent (dialect.size body)).packet_length).toInt_lt
  have huge : 2^32 ≤ PACKET_HEAD_LENGTH + dialect.size body := by
    have high := (packhead.sent (dialect.size body)).packet_length.toInt_lt
    obtain ⟨i,wraps⟩ := sent_wraps packhead (dialect.size body)
    rw [Int32.lt_iff_toInt_lt,Int32.toInt_zero] at nonneg
    omega
  simp only at same
  omega

end Large

end Migfm.Wire
