import Mathlib.Algebra.Group.Nat.Defs
import Mathlib.Data.List.TakeWhile
import Mathlib.Order.Basic

/-! `SummaryLyric` of master/sociality/logic_comm.cc: which lines of a lyric are shared. A line ends in '\r'. -/
namespace Migfm.Sociality.Lyric

/-- The loop over the characters. -/
def window (temp_min temp_max : Int) : List UInt8 → Int → List UInt8 → List UInt8
  | [],_,dlyric => dlyric
  | c::src_lyric,start_pos,dlyric =>
    let start_pos := if c = 13 then start_pos + 1 else start_pos
    if c = 13 ∧ start_pos ≤ temp_min then window temp_min temp_max src_lyric start_pos dlyric
    else
      let dlyric := if temp_min ≤ start_pos then dlyric ++ [c] else dlyric
      if temp_max < start_pos then dlyric else window temp_min temp_max src_lyric start_pos dlyric

/-- No outcome: the index of the count overflows. -/
def SummaryLyric (slyric dlyric : List UInt8) : Option (List UInt8) :=
  if 2 ^ 31 ≤ slyric.length then none
  else
    let lyric_number : Int := slyric.count 13
    let min : Int := 4
    let max : Int := 14
    if lyric_number < min then some slyric
    else if max < lyric_number ∨ (lyric_number < max ∧ min < lyric_number) then
      let inside : Bool := lyric_number < max ∧ min < lyric_number
      let temp_min := if inside then lyric_number - min else min
      let temp_max := if inside then max - lyric_number - max else max
      some (window temp_min temp_max slyric 0 dlyric)
    else some dlyric

/-! ### Lines -/

def joined (lines : List (List UInt8)) : List UInt8 := lines.flatMap fun line => line ++ [13]

/-- The lines of a text, and what is left behind the last. -/
structure Lines (slyric : List UInt8) (lines : List (List UInt8)) (rest : List UInt8) : Prop where
  text : slyric = joined lines ++ rest
  each : ∀ line ∈ lines, 13 ∉ line
  last : 13 ∉ rest

/-- Lines are counted from 0, as `start_pos` is. -/
def Right (slyric : List UInt8) : Prop :=
  ∀ lines rest, Lines slyric lines rest → ∃ dlyric, SummaryLyric slyric [] = some dlyric ∧
    (lines.length < 4 → dlyric = slyric) ∧
    (14 < lines.length → dlyric = joined ((lines.drop 4).take 11)) ∧
    (4 ≤ lines.length → lines.length ≤ 14 → ∃ first count, first + count ≤ lines.length ∧ min 10 lines.length ≤ count ∧
      (dlyric = joined ((lines.drop first).take count) ∨ first + count = lines.length ∧ dlyric = joined (lines.drop first) ++ rest)) ∧
    (slyric ≠ [] → dlyric ≠ [])

theorem joined_cons (line : List UInt8) (lines : List (List UInt8)) (rest : List UInt8) :
    joined (line::lines) ++ rest = line ++ 13::(joined lines ++ rest) := by
  rw [joined,List.flatMap_cons,List.append_assoc,List.append_assoc,List.singleton_append]
  rfl

theorem count_joined {lines : List (List UInt8)} (each : ∀ line ∈ lines, 13 ∉ line) : (joined lines).count 13 = lines.length := by
  induction lines with
  | nil => rfl
  | cons line lines ih =>
    obtain ⟨here,each⟩ := List.forall_mem_cons.mp each
    have whole : joined (line::lines) = line ++ 13::joined lines := by
      have parts := joined_cons line lines []
      rwa [List.append_nil,List.append_nil] at parts
    rw [whole,List.count_append,List.count_eq_zero_of_not_mem here,List.count_cons_self,ih each,Nat.zero_add,List.length_cons]

theorem Lines.count {slyric rest : List UInt8} {lines : List (List UInt8)} (cut : Lines slyric lines rest) :
    slyric.count 13 = lines.length := by
  rw [cut.text,List.count_append,count_joined cut.each,List.count_eq_zero_of_not_mem cut.last,Nat.add_zero]

theorem exists_lines (slyric : List UInt8) : ∃ lines rest, Lines slyric lines rest := by
  induction slyric with
  | nil => exact ⟨[],[],rfl,List.forall_mem_nil _,List.not_mem_nil⟩
  | cons c slyric ih =>
    obtain ⟨lines,rest,text,each,last⟩ := ih
    by_cases ends : c = 13
    · subst ends
      refine ⟨[]::lines,rest,?_,List.forall_mem_cons.mpr ⟨List.not_mem_nil,each⟩,last⟩
      rw [joined_cons,← text]
      rfl
    · have other {line : List UInt8} (plain : 13 ∉ line) : 13 ∉ c::line :=
        List.not_mem_cons_of_ne_of_not_mem (fun same => ends same.symm) plain
      cases lines with
      | nil => exact ⟨[],c::rest,congrArg (c::·) text,each,other last⟩
      | cons line lines =>
        obtain ⟨here,each⟩ := List.forall_mem_cons.mp each
        refine ⟨(c::line)::lines,rest,?_,List.forall_mem_cons.mpr ⟨other here,each⟩,last⟩
        rw [text,joined_cons,joined_cons]
        rfl

/-! ### The window -/

section Window
variable {temp_min temp_max start_pos : Int} {line rest dlyric : List UInt8}

theorem window_char {c : UInt8} (regular : c ≠ 13) (src_lyric : List UInt8) :
    window temp_min temp_max (c::src_lyric) start_pos dlyric =
      if temp_max < start_pos then if temp_min ≤ start_pos then dlyric ++ [c] else dlyric
      else window temp_min temp_max src_lyric start_pos (if temp_min ≤ start_pos then dlyric ++ [c] else dlyric) := by
  rw [window,if_neg regular,if_neg fun ends => regular ends.1]

theorem window_end (src_lyric : List UInt8) :
    window temp_min temp_max (13::src_lyric) start_pos dlyric =
      if start_pos + 1 ≤ temp_min then window temp_min temp_max src_lyric (start_pos + 1) dlyric
      else if temp_max < start_pos + 1 then dlyric ++ [13]
      else window temp_min temp_max src_lyric (start_pos + 1) (dlyric ++ [13]) := by
  rw [window,if_pos rfl]
  by_cases before : start_pos + 1 ≤ temp_min
  · rw [if_pos before,if_pos ⟨rfl,before⟩]
  · rw [if_neg before,if_neg fun both => before both.2]
    dsimp only
    rw [if_pos (by omega : temp_min ≤ start_pos + 1)]

/-- In front of the window nothing is taken. -/
theorem window_skip (plain : 13 ∉ line) (before : start_pos < temp_min) (ordered : temp_min ≤ temp_max) :
    window temp_min temp_max (line ++ 13::rest) start_pos dlyric = window temp_min temp_max rest (start_pos + 1) dlyric := by
  induction line with
  | nil => rw [List.nil_append,window_end,if_pos (by omega)]
  | cons c line ih =>
    obtain ⟨other,plain⟩ := List.ne_and_not_mem_of_not_mem_cons plain
    rw [List.cons_append,window_char other.symm,if_neg (by omega),if_neg (by omega)]
    exact ih plain

/-- In the window each character is taken. -/
theorem window_take (plain : 13 ∉ line) (after : temp_min ≤ start_pos) (within : start_pos ≤ temp_max) :
    window temp_min temp_max (line ++ 13::rest) start_pos dlyric =
      if start_pos = temp_max then dlyric ++ (line ++ [13])
      else window temp_min temp_max rest (start_pos + 1) (dlyric ++ (line ++ [13])) := by
  induction line generalizing dlyric with
  | nil =>
    rw [List.nil_append,window_end,if_neg (by omega),List.nil_append]
    by_cases last : start_pos = temp_max
    · rw [if_pos (by omega),if_pos last]
    · rw [if_neg (by omega),if_neg last]
  | cons c line ih =>
    obtain ⟨other,plain⟩ := List.ne_and_not_mem_of_not_mem_cons plain
    rw [List.cons_append,window_char other.symm,if_neg (by omega),if_pos after,ih plain,List.append_assoc]
    rfl

theorem windows_skip {lines : List (List UInt8)} (each : ∀ line ∈ lines, 13 ∉ line) (before : start_pos + lines.length ≤ temp_min)
    (ordered : temp_min ≤ temp_max) :
    window temp_min temp_max (joined lines ++ rest) start_pos dlyric =
      window temp_min temp_max rest (start_pos + lines.length) dlyric := by
  induction lines generalizing start_pos with
  | nil => exact congrArg (window temp_min temp_max rest · dlyric) (Int.add_zero start_pos).symm
  | cons line lines ih =>
    obtain ⟨plain,each⟩ := List.forall_mem_cons.mp each
    rw [List.length_cons] at before ⊢
    rw [joined_cons,window_skip plain (by omega) ordered,ih each (by omega)]
    congr 1
    omega

theorem windows_take {lines : List (List UInt8)} (each : ∀ line ∈ lines, 13 ∉ line) (after : temp_min ≤ start_pos)
    (within : start_pos + lines.length ≤ temp_max) :
    window temp_min temp_max (joined lines ++ rest) start_pos dlyric =
      window temp_min temp_max rest (start_pos + lines.length) (dlyric ++ joined lines) := by
  induction lines generalizing start_pos dlyric with
  | nil =>
    rw [joined,List.flatMap_nil,List.append_nil]
    exact congrArg (window temp_min temp_max rest · dlyric) (Int.add_zero start_pos).symm
  | cons line lines ih =>
    obtain ⟨plain,each⟩ := List.forall_mem_cons.mp each
    rw [List.length_cons] at within ⊢
    rw [joined_cons,window_take plain after (by omega),if_neg (by omega),ih each (by omega) (by omega),List.append_assoc]
    congr 1
    omega

/-- With no room at all the window is left at once. -/
theorem window_short (src_lyric : List UInt8) (none_ : temp_max < start_pos) :
    (window temp_min temp_max src_lyric start_pos []).length ≤ 1 := by
  induction src_lyric generalizing start_pos with
  | nil => exact Nat.zero_le 1
  | cons c src_lyric ih =>
    by_cases ends : c = 13
    · subst ends
      rw [window_end,if_pos (by omega : temp_max < start_pos + 1)]
      split
      · exact ih (by omega)
      · exact Nat.le_refl 1
    · rw [window_char ends,if_pos none_]
      split
      · exact Nat.le_refl 1
      · exact Nat.zero_le 1

end Window

/-! ### The summary -/

section Summary
variable {slyric rest : List UInt8} {lines : List (List UInt8)}

theorem SummaryLyric_few (short : slyric.length < 2 ^ 31) (few : slyric.count 13 < 4) : SummaryLyric slyric [] = some slyric := by
  rw [SummaryLyric,if_neg (Nat.not_le.mpr short)]
  exact if_pos (by omega)

theorem SummaryLyric_many (short : slyric.length < 2 ^ 31) (cut : Lines slyric lines rest) (many : 14 < lines.length) :
    SummaryLyric slyric [] = some (joined ((lines.drop 4).take 11)) := by
  have number := cut.count
  have inside : ¬((slyric.count 13 : Int) < 14 ∧ 4 < (slyric.count 13 : Int)) := by omega
  -- four lines in front, ten, and the one that is the last
  obtain ⟨line,behind⟩ : ∃ line, lines.drop 14 = line::lines.drop 15 := ⟨_,List.drop_eq_getElem_cons many⟩
  have ten : lines.drop 4 = (lines.drop 4).take 10 ++ line::lines.drop 15 := by
    rw [← behind,← List.drop_drop (i := 10),List.take_append_drop]
  have count : ((lines.drop 4).take 10).length = 10 := by
    rw [List.length_take,List.length_drop]
    omega
  have four : (lines.take 4).length = 4 := by
    rw [List.length_take]
    omega
  generalize (lines.drop 4).take 10 = middle at ten count
  have eleven : (lines.drop 4).take 11 = middle ++ [line] := by
    rw [ten,List.take_append,count,List.take_of_length_le (by omega)]
    rfl
  have whole : lines = lines.take 4 ++ (middle ++ line::lines.drop 15) := by rw [← ten,List.take_append_drop]
  have parts (front back : List (List UInt8)) : joined (front ++ back) = joined front ++ joined back := List.flatMap_append
  have text : slyric = joined (lines.take 4) ++ (joined middle ++ (line ++ 13::(joined (lines.drop 15) ++ rest))) := by
    have all := cut.text.trans (congrArg (joined · ++ rest) whole)
    rwa [parts,parts,List.append_assoc,List.append_assoc,joined_cons] at all
  have plain : ∀ other ∈ middle ++ line::lines.drop 15, 13 ∉ other := by
    intro other member
    exact cut.each other (whole ▸ List.mem_append_right _ member)
  have plain_four : ∀ other ∈ lines.take 4, 13 ∉ other := fun other member => cut.each other (List.mem_of_mem_take member)
  have plain_ten : ∀ other ∈ middle, 13 ∉ other := fun other member => plain other (List.mem_append_left _ member)
  have plain_line : 13 ∉ line := plain line (List.mem_append_right _ List.mem_cons_self)
  have shown : window 4 14 slyric 0 [] = joined ((lines.drop 4).take 11) := by
    have last : joined middle ++ (line ++ [13]) = joined (middle ++ [line]) := by
      have one : joined [line] = line ++ [13] := List.flatMap_singleton ..
      rw [parts,one]
    rw [text,windows_skip plain_four (by omega) (by omega),four,windows_take plain_ten (by omega) (by omega),count,
      window_take plain_line (by omega) (by omega),if_pos (by omega),List.nil_append,last,eleven]
  rw [SummaryLyric,if_neg (Nat.not_le.mpr short)]
  dsimp only
  rw [if_neg (by omega),if_pos (.inl (by omega)),decide_eq_false inside,if_neg Bool.false_ne_true,if_neg Bool.false_ne_true,shown]

/-- Between 4 and 14 lines next to nothing is shown. -/
theorem SummaryLyric_between (short : slyric.length < 2 ^ 31) (some_ : 4 ≤ slyric.count 13) (few : slyric.count 13 ≤ 14) :
    ∃ dlyric, SummaryLyric slyric [] = some dlyric ∧ dlyric.length ≤ 1 := by
  rw [SummaryLyric,if_neg (Nat.not_le.mpr short)]
  dsimp only
  rw [if_neg (by omega)]
  by_cases inside : (slyric.count 13 : Int) < 14 ∧ 4 < (slyric.count 13 : Int)
  · rw [if_pos (.inr inside),decide_eq_true inside,if_pos rfl,if_pos rfl]
    exact ⟨_,rfl,window_short slyric (by omega)⟩
  · rw [if_neg (by omega)]
    exact ⟨[],rfl,Nat.zero_le 1⟩

/-- Each line has its end. -/
theorem length_joined (lines : List (List UInt8)) : lines.length ≤ (joined lines).length := by
  induction lines with
  | nil => exact Nat.le_refl 0
  | cons line lines ih =>
    rw [joined,List.flatMap_cons,← joined,List.length_append,List.length_append,List.length_cons,List.length_cons]
    omega

theorem SummaryLyric_iff (slyric : List UInt8) :
    Right slyric ↔ slyric.length < 2 ^ 31 ∧ (slyric.count 13 < 4 ∨ 14 < slyric.count 13) := by
  constructor
  · intro right
    obtain ⟨lines,rest,cut⟩ := exists_lines slyric
    obtain ⟨dlyric,shown,-,-,between,-⟩ := right lines rest cut
    have short : slyric.length < 2 ^ 31 := by
      by_contra long
      rw [SummaryLyric,if_pos (Nat.not_lt.mp long)] at shown
      cases shown
    refine ⟨short,?_⟩
    by_contra inside
    have number := cut.count
    obtain ⟨other,same,few⟩ := SummaryLyric_between short (by omega) (by omega)
    cases shown.symm.trans same
    -- as many lines are longer than that
    obtain ⟨first,count,within,enough,whole | ⟨ends,whole⟩⟩ := between (by omega) (by omega)
    · have long := length_joined ((lines.drop first).take count)
      rw [← whole,List.length_take,List.length_drop] at long
      omega
    · have long := length_joined (lines.drop first)
      rw [List.length_drop] at long
      rw [whole,List.length_append] at few
      omega
  · rintro ⟨short,few | many⟩ lines rest cut
    · have number := cut.count
      refine ⟨slyric,SummaryLyric_few short few,fun _ => rfl,?_,?_,id⟩
      · intro many
        omega
      · intro some_
        omega
    · have number := cut.count
      refine ⟨_,SummaryLyric_many short cut (by omega),?_,fun _ => rfl,?_,?_⟩
      · intro few
        omega
      · intro _ few
        omega
      · intro _ empty
        have long := length_joined ((lines.drop 4).take 11)
        rw [empty,List.length_nil,List.length_take,List.length_drop] at long
        omega

/-- Five lines of one letter: nothing is shown. -/
theorem five_lines : ¬Right [97,13,98,13,99,13,100,13,101,13] := by
  intro right
  have cut : Lines [97,13,98,13,99,13,100,13,101,13] [[97],[98],[99],[100],[101]] [] := ⟨rfl,by decide,List.not_mem_nil⟩
  obtain ⟨dlyric,shown,-,-,-,some_⟩ := right _ _ cut
  cases shown
  exact some_ (List.cons_ne_nil _ _) rfl

end Summary

end Migfm.Sociality.Lyric
