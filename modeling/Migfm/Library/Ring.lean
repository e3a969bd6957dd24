import Mathlib.Tactic

/-! A queue kept in a block of fixed length between two positions. Where the last
position is before the first, the queue goes on at the start of the block. -/
namespace Migfm.Library.Ring

variable {α : Type*}

/-- What lies from `first` to `last`. -/
def span (block : List α) (first last : Nat) : List α :=
  if first ≤ last then (block.take last).drop first else block.drop first ++ block.take last

/-- The block with `bytes` copied to a position. -/
def overwrite (block : List α) (offset : Nat) (bytes : List α) : List α :=
  block.take offset ++ bytes ++ block.drop (offset + bytes.length)

variable {block bytes : List α} {first last offset n len : Nat}

/-! ### Copying into a block -/

section Overwrite
variable (fits : offset + bytes.length ≤ block.length)
include fits

theorem length_overwrite : (overwrite block offset bytes).length = block.length := by
  simp only [overwrite,List.length_append,List.length_take,List.length_drop]
  omega

theorem take_overwrite (before : n ≤ offset) : (overwrite block offset bytes).take n = block.take n := by
  have inside : n ≤ (block.take offset).length := by
    rw [List.length_take]
    omega
  rw [overwrite,List.append_assoc,List.take_append_of_le_length inside,List.take_take,min_eq_left before]

theorem drop_overwrite (behind : offset + bytes.length ≤ n) : (overwrite block offset bytes).drop n = block.drop n := by
  have parts : (block.take offset ++ bytes).length = offset + bytes.length := by
    rw [List.length_append,List.length_take,min_eq_left (Nat.le_of_add_right_le fits)]
  rw [overwrite,List.drop_append,List.drop_eq_nil_of_le (parts.le.trans behind),parts,List.nil_append,List.drop_drop,
    Nat.add_sub_cancel' behind]

theorem take_overwrite_end : (overwrite block offset bytes).take (offset + bytes.length) = block.take offset ++ bytes := by
  have parts : (block.take offset ++ bytes).length = offset + bytes.length := by
    rw [List.length_append,List.length_take,min_eq_left (Nat.le_of_add_right_le fits)]
  rw [overwrite,← parts,List.take_left']
  rfl

omit fits in
/-- Two copies one behind the other. -/
theorem overwrite_overwrite {more : List α} (fits : offset + (bytes ++ more).length ≤ block.length) :
    overwrite (overwrite block offset bytes) (offset + bytes.length) more = overwrite block offset (bytes ++ more) := by
  rw [List.length_append,← Nat.add_assoc] at fits
  have first := Nat.le_of_add_right_le fits
  rw [overwrite,take_overwrite_end first,drop_overwrite first (Nat.le_add_right ..),overwrite,List.length_append,
    ← Nat.add_assoc,List.append_assoc (block.take offset)]

theorem drop_overwrite_end (behind : offset + bytes.length = block.length) (before : first ≤ offset) :
    (overwrite block offset bytes).drop first = (block.take offset).drop first ++ bytes := by
  have whole := take_overwrite_end fits
  rw [behind,List.take_of_length_le (length_overwrite fits).le] at whole
  rw [whole,List.drop_append_of_le_length]
  rw [List.length_take]
  omega

end Overwrite

/-! ### The queue -/

theorem length_span (inside : first ≤ block.length) (ends : last ≤ block.length) :
    (span block first last).length = if first ≤ last then last - first else last + block.length - first := by
  unfold span
  split
  · rw [List.length_drop,List.length_take,min_eq_left ends]
  · simp only [List.length_append,List.length_drop,List.length_take]
    omega

/-- A prefix that is read in one piece. -/
theorem take_span_whole (ends : last ≤ block.length) (short : len ≤ (span block first last).length)
    (whole : first ≤ last ∨ len ≤ block.length - first) :
    (span block first last).take len = (block.drop first).take len := by
  by_cases ordered : first ≤ last
  · rw [span,if_pos ordered,List.length_drop,List.length_take,min_eq_left ends] at short
    rw [span,if_pos ordered,List.drop_take,List.take_take,min_eq_left short]
  · have fits := whole.resolve_left ordered
    rw [span,if_neg ordered,List.take_append_of_le_length (by rwa [List.length_drop])]

/-- A prefix that is read in two pieces. -/
theorem take_span_parts (wrapped : last < first) (long : block.length - first ≤ len)
    (short : len ≤ (span block first last).length) :
    (span block first last).take len =
      block.drop first ++ block.take (len - (block.length - first)) := by
  rw [span,if_neg (Nat.not_le.mpr wrapped)] at short ⊢
  simp only [List.length_append,List.length_drop,List.length_take] at short
  rw [List.take_append,List.take_of_length_le (by rwa [List.length_drop]),List.length_drop,List.take_take]
  congr 2
  omega

/-- The queue behind a prefix, where the first position stays inside the block. -/
theorem drop_span (ordered : first ≤ last → first + len ≤ last) (inside : first + len ≤ block.length) :
    (span block first last).drop len = span block (first + len) last := by
  by_cases straight : first ≤ last
  · rw [span,span,if_pos straight,if_pos (ordered straight),List.drop_drop]
  · have apart : ¬first + len ≤ last := fun through => straight (Nat.le_of_add_right_le through)
    rw [span,span,if_neg straight,if_neg apart,List.drop_append_of_le_length,List.drop_drop]
    rw [List.length_drop]
    omega

/-- The same, where the first position goes through the end of the block. -/
theorem drop_span_through (wrapped : last < first) (inside : first ≤ block.length)
    (through : block.length ≤ first + len) (short : first + len - block.length ≤ last) :
    (span block first last).drop len = span block (first + len - block.length) last := by
  rw [span,span,if_neg (Nat.not_le.mpr wrapped),if_pos short,List.drop_append,List.drop_eq_nil_of_le,List.nil_append,
    List.length_drop]
  · congr 1
    omega
  · rw [List.length_drop]
    omega

/-- Bytes copied behind the queue, in one piece. -/
theorem span_overwrite (fits : last + bytes.length ≤ block.length) (apart : last < first → last + bytes.length < first) :
    span (overwrite block last bytes) first (last + bytes.length) = span block first last ++ bytes := by
  by_cases straight : first ≤ last
  · rw [span,span,if_pos straight,if_pos (straight.trans (Nat.le_add_right ..)),take_overwrite_end fits,
      List.drop_append_of_le_length]
    rw [List.length_take]
    omega
  · have below := apart (Nat.not_le.mp straight)
    rw [span,span,if_neg straight,if_neg (Nat.not_le.mpr below),take_overwrite_end fits,drop_overwrite fits below.le,
      List.append_assoc]

/-- Bytes copied behind the queue, up to the end of the block and on from its start. -/
theorem span_overwrite_through {more : List α} (straight : first ≤ last) (fits : last + bytes.length = block.length)
    (apart : more.length < first) :
    span (overwrite (overwrite block last bytes) 0 more) first more.length = span block first last ++ bytes ++ more := by
  have inner : 0 + more.length ≤ (overwrite block last bytes).length := by
    rw [length_overwrite fits.le]
    omega
  have start : (overwrite (overwrite block last bytes) 0 more).take more.length = more := by
    have whole := take_overwrite_end inner
    simpa using whole
  rw [span,span,if_pos straight,if_neg (Nat.not_le.mpr apart),start,drop_overwrite inner (by omega),
    drop_overwrite_end fits.le fits straight]

/-- A queue moved to the start of a larger block. -/
theorem span_moved (fits : bytes.length ≤ block.length) : span (overwrite block 0 bytes) 0 bytes.length = bytes := by
  have inside : 0 + bytes.length ≤ block.length := by rwa [Nat.zero_add]
  have whole := take_overwrite_end inside
  rw [span,if_pos (Nat.zero_le _),List.drop_zero]
  simpa using whole

/-! ### Pieces of the block, and pieces moved inside it -/

/-- The `len` cells from a position on. -/
def slice (block : List α) (offset len : Nat) : List α := (block.drop offset).take len

/-- The block with one of its pieces copied to `target`; the two places may overlap. -/
def shift (block : List α) (target source len : Nat) : List α := overwrite block target (slice block source len)

variable {target source more : Nat}

theorem length_slice (inside : offset + len ≤ block.length) : (slice block offset len).length = len := by
  rw [slice,List.length_take,List.length_drop]
  omega

theorem slice_append (block : List α) (offset len more : Nat) :
    slice block offset (len + more) = slice block offset len ++ slice block (offset + len) more := by
  rw [slice,slice,slice,List.take_add,List.drop_drop]

theorem slice_overwrite (fits : offset + bytes.length ≤ block.length) :
    slice (overwrite block offset bytes) offset bytes.length = bytes := by
  have parts : (block.take offset).length = offset := by
    rw [List.length_take,min_eq_left (Nat.le_of_add_right_le fits)]
  rw [slice,List.take_drop,take_overwrite_end fits,List.drop_left' parts]

theorem slice_overwrite_apart (fits : offset + bytes.length ≤ block.length)
    (apart : n + len ≤ offset ∨ offset + bytes.length ≤ n) :
    slice (overwrite block offset bytes) n len = slice block n len := by
  rcases apart with before | behind
  · rw [slice,slice,List.take_drop,List.take_drop,take_overwrite fits before]
  · rw [slice,slice,drop_overwrite fits behind]

section Shift
variable (inside : source + len ≤ block.length) (fits : target + len ≤ block.length)
include inside fits

theorem length_shift : (shift block target source len).length = block.length := by
  apply length_overwrite
  rwa [length_slice inside]

theorem slice_shift : slice (shift block target source len) target len = slice block source len := by
  have moved := length_slice inside
  have copied := @slice_overwrite _ block (slice block source len) target (by rwa [moved])
  rwa [moved] at copied

theorem slice_shift_apart (apart : n + more ≤ target ∨ target + len ≤ n) :
    slice (shift block target source len) n more = slice block n more := by
  have moved := length_slice inside
  apply slice_overwrite_apart
  · rwa [moved]
  · rwa [moved]

end Shift

theorem shift_self (inside : source + len ≤ block.length) : shift block source source len = block := by
  rw [shift,overwrite,length_slice inside,slice,← List.drop_drop,List.append_assoc,List.take_append_drop,
    List.take_append_drop]

theorem shift_nothing (block : List α) (target source : Nat) : shift block target source 0 = block := by
  rw [shift,overwrite,slice,List.take_zero,List.append_nil,List.length_nil,Nat.add_zero,List.take_append_drop]

/-- A piece of the block, with bytes copied inside it. -/
theorem slice_overwrite_inside (fits : source + len ≤ block.length) (inside : offset + bytes.length ≤ len) :
    slice (overwrite block (source + offset) bytes) source len = overwrite (slice block source len) offset bytes := by
  have room : source + offset + bytes.length ≤ block.length := by omega
  have parts : len = offset + bytes.length + (len - (offset + bytes.length)) := by omega
  have before : (slice block source len).take offset = slice block source offset := by
    rw [slice,slice,List.take_take,min_eq_left (by omega)]
  have behind : (slice block source len).drop (offset + bytes.length) =
      slice block (source + (offset + bytes.length)) (len - (offset + bytes.length)) := by
    rw [slice,slice,List.drop_take,List.drop_drop]
  have pieces : overwrite (slice block source len) offset bytes =
      slice block source offset ++ bytes ++ slice block (source + (offset + bytes.length)) (len - (offset + bytes.length)) := by
    rw [overwrite,before,behind]
  rw [pieces]
  conv_lhs => rw [parts]
  rw [slice_append,slice_append,slice_overwrite room,slice_overwrite_apart room (.inl le_rfl),
    slice_overwrite_apart room (.inr (by omega))]

theorem span_straight (straight : first ≤ last) : span block first last = slice block first (last - first) := by
  rw [span,if_pos straight,slice,List.drop_take]

theorem span_wrapped (wrapped : last < first) :
    span block first last = slice block first (block.length - first) ++ slice block 0 last := by
  rw [span,if_neg (Nat.not_le.mpr wrapped),slice,slice,List.drop_zero,List.take_of_length_le (List.length_drop ..).le]

/-- Bytes copied beside the queue. -/
theorem span_overwrite_free (fits : offset + bytes.length ≤ block.length) (behind : last ≤ offset)
    (apart : last < first → offset + bytes.length ≤ first) :
    span (overwrite block offset bytes) first last = span block first last := by
  by_cases straight : first ≤ last
  · rw [span_straight straight,span_straight straight,slice_overwrite_apart fits (.inl (by omega))]
  · have wrapped := Nat.not_le.mp straight
    rw [span_wrapped wrapped,span_wrapped wrapped,length_overwrite fits,slice_overwrite_apart fits (.inr (apart wrapped)),
      slice_overwrite_apart fits (.inl (by omega))]

/-- The queue that goes on behind its last position, with what lies there. -/
theorem span_extend (fits : last + len ≤ block.length) (apart : last < first → last + len < first) :
    span block first (last + len) = span block first last ++ slice block last len := by
  have whole := shift_self fits
  have length := length_slice fits
  have written := @span_overwrite _ block (slice block last len) first last (by rwa [length]) (by rwa [length])
  rwa [length,← shift,whole] at written

end Migfm.Library.Ring
