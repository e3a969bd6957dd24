import Migfm.Logic.StringConversions

/-! `SummaryTestContent` of chat/logic_unit.cc: what of a message is pushed, against
its emoticon codes and its characters. -/
namespace Migfm.Chat
open Logic

/-! ### The summary -/

def MAX_SUMMARY_CONTENT_LEN : Nat := 16

/-- The last place of a character. -/
def rfind (c : UInt8) : List UInt8 → Option Nat
  | [] => none
  | first::rest =>
    match rfind c rest with
    | some pos => some (pos + 1)
    | none => if first = c then some 0 else none

/-- The body of the `do ... while(0)`: the last `[` is looked at, once. -/
def trimmed (content : List UInt8) : List UInt8 :=
  match rfind 91 content with
  | none => content
  | some pos => if 93 ∈ content.drop pos then content else content.take pos

def ellipsis : List UInt8 := [46,46,46,46,46,46]

def SummaryTestContent (msg : List UInt8) : List UInt8 :=
  if msg.length ≤ MAX_SUMMARY_CONTENT_LEN then msg
  else trimmed (msg.take MAX_SUMMARY_CONTENT_LEN) ++ ellipsis

theorem rfind_none {c : UInt8} {text : List UInt8} (nowhere : rfind c text = none) : c ∉ text := by
  induction text with
  | nil => exact List.not_mem_nil
  | cons first rest ih =>
    rw [rfind] at nowhere
    split at nowhere
    · cases nowhere
    · rename_i later
      split at nowhere
      · cases nowhere
      · rename_i other
        exact List.not_mem_cons_of_ne_of_not_mem (Ne.symm other) (ih later)

theorem rfind_some {c : UInt8} {text : List UInt8} {pos : Nat} (found : rfind c text = some pos) :
    ∃ before after, text = before ++ c::after ∧ before.length = pos ∧ c ∉ after := by
  induction text generalizing pos with
  | nil => cases found
  | cons first rest ih =>
    rw [rfind] at found
    split at found
    · rename_i here later
      cases found
      obtain ⟨before,after,rfl,length,last⟩ := ih later
      exact ⟨first::before,after,rfl,by rw [List.length_cons,length],last⟩
    · rename_i nowhere
      split at found
      · rename_i same
        cases found
        exact ⟨[],rest,by rw [same]; rfl,rfl,rfind_none nowhere⟩
      · cases found

/-! ### Emoticon codes -/

/-- A `[` behind which there is no `]`. -/
def Unclosed (text : List UInt8) : Prop := ∃ before after, text = before ++ 91::after ∧ 93 ∉ after

/-- How many `[` stand behind the last `]`. -/
def opens (text : List UInt8) : Nat := text.foldl (fun n c => if c = 91 then n + 1 else if c = 93 then 0 else n) 0

theorem opens_concat (text : List UInt8) (c : UInt8) :
    opens (text ++ [c]) = if c = 91 then opens text + 1 else if c = 93 then 0 else opens text := by
  rw [opens,List.foldl_append]
  rfl

theorem opens_plain {text : List UInt8} (before : List UInt8) (opened : 91 ∉ text) (closed : 93 ∉ text) :
    opens (before ++ text) = opens before := by
  induction text using List.reverseRecOn with
  | nil => rw [List.append_nil]
  | append_singleton text c ih =>
    rw [List.mem_append,List.mem_singleton,not_or] at opened closed
    rw [← List.append_assoc,opens_concat,if_neg (Ne.symm opened.2),if_neg (Ne.symm closed.2)]
    exact ih opened.1 closed.1

/-- No `]` stands behind the last `[`. -/
theorem opens_open {after : List UInt8} (before : List UInt8) (opened : 91 ∉ after) (closed : 93 ∉ after) :
    opens (before ++ 91::after) = opens before + 1 := by
  rw [List.append_cons,opens_plain _ opened closed,opens_concat,if_pos rfl]

/-- A `]` stands behind the last `[`. -/
theorem opens_closed {after : List UInt8} (before : List UInt8) (opened : 91 ∉ after) (closed : 93 ∈ after) :
    opens (before ++ after) = 0 := by
  induction after using List.reverseRecOn with
  | nil => cases closed
  | append_singleton after c ih =>
    rw [List.mem_append,List.mem_singleton] at closed
    rw [List.mem_append,List.mem_singleton,not_or] at opened
    rw [← List.append_assoc,opens_concat,if_neg (Ne.symm opened.2)]
    split
    · rfl
    · rename_i other
      exact ih opened.1 (closed.resolve_right (Ne.symm other))

theorem opens_unclosed {after : List UInt8} (before : List UInt8) (closed : 93 ∉ after) : 0 < opens (before ++ 91::after) := by
  induction after using List.reverseRecOn with
  | nil =>
    rw [opens_concat,if_pos rfl]
    exact Nat.succ_pos _
  | append_singleton after c ih =>
    rw [List.mem_append,List.mem_singleton,not_or] at closed
    rw [← List.cons_append,← List.append_assoc,opens_concat,if_neg (Ne.symm closed.2)]
    split
    · exact Nat.succ_pos _
    · exact ih closed.1

/-- The cut: nothing is cut off where no `[` is open, and else one `[` with what follows it. -/
theorem trimmed_cut (content : List UInt8) : opens content = 0 ∧ trimmed content = content ∨
    ∃ after, content = trimmed content ++ 91::after ∧ opens content = opens (trimmed content) + 1 := by
  rw [trimmed]
  split
  · rename_i nowhere
    have opened := rfind_none nowhere
    refine .inl ⟨?_,rfl⟩
    by_cases closed : 93 ∈ content
    · exact opens_closed [] opened closed
    · exact opens_plain [] opened closed
  · rename_i found
    obtain ⟨before,after,rfl,rfl,opened⟩ := rfind_some found
    have behind : (before ++ 91::after).drop before.length = 91::after := List.drop_left
    have front : (before ++ 91::after).take before.length = before := List.take_left
    rw [behind,front]
    split
    · rename_i closed
      have closed := (List.mem_cons.mp closed).resolve_left (by decide)
      refine .inl ⟨?_,rfl⟩
      rw [List.append_cons]
      exact opens_closed _ opened closed
    · rename_i unclosed
      have closed := (not_or.mp (mt List.mem_cons.mpr unclosed)).2
      exact .inr ⟨after,rfl,opens_open before opened closed⟩

theorem unclosed_iff (text : List UInt8) : Unclosed text ↔ 0 < opens text := by
  constructor
  · rintro ⟨before,after,rfl,closed⟩
    exact opens_unclosed before closed
  · intro some_
    induction text using List.reverseRecOn with
    | nil => exact absurd some_ (Nat.lt_irrefl 0)
    | append_singleton text c ih =>
      rw [opens_concat] at some_
      split at some_
      · rename_i same
        exact ⟨text,[],by rw [same],List.not_mem_nil⟩
      · split at some_
        · exact absurd some_ (Nat.lt_irrefl 0)
        · rename_i other
          obtain ⟨before,after,rfl,closed⟩ := ih some_
          refine ⟨before,after ++ [c],List.append_assoc .., ?_⟩
          rw [List.mem_append,List.mem_singleton,not_or]
          exact ⟨closed,Ne.symm other⟩

/-! ### Characters -/

/-- An ASCII byte stands between two characters. -/
theorem utf8_split {text : List Char} {before after : List UInt8} {c : UInt8} (same : utf8 text = before ++ c::after)
    (ascii : c.toNat < 128) : ∃ front, front <+: text ∧ before = utf8 front := by
  induction text generalizing before with
  | nil => exact absurd same.symm (List.append_ne_nil_of_right_ne_nil before (List.cons_ne_nil c after))
  | cons d text ih =>
    rw [utf8_cons,List.append_eq_append_iff] at same
    obtain ⟨later,rfl,same⟩ | ⟨later,encoded,same⟩ := same
    · obtain ⟨front,kept,rfl⟩ := ih same
      exact ⟨d::front,List.prefix_cons_inj d |>.mpr kept,(utf8_cons d front).symm⟩
    · cases later with
      | nil =>
        rw [List.append_nil] at encoded
        refine ⟨[d],List.cons_prefix_cons.mpr ⟨rfl, List.nil_prefix⟩,?_⟩
        rw [← encoded,utf8_cons]
        exact (List.append_nil _).symm
      | cons first later =>
        obtain ⟨rfl,-⟩ := List.cons.inj same
        have code : d.toNat < 128 := by
          by_contra high
          rw [← WriteUTF8_char] at encoded
          have inside : c ∈ WriteUTF8 d.toNat := by
            rw [encoded]
            exact List.mem_append_right _ List.mem_cons_self
          exact absurd ascii (Nat.not_lt.mpr (WriteUTF8_high (Nat.not_lt.mp high) c inside))
        rw [← WriteUTF8_char,WriteUTF8,if_pos (by omega)] at encoded
        obtain ⟨rfl,-⟩ | ⟨_,-,impossible⟩ := List.cons_eq_append_iff.mp encoded
        · exact ⟨[], List.nil_prefix,rfl⟩
        · exact absurd impossible.symm (List.append_ne_nil_of_right_ne_nil _ (List.cons_ne_nil _ _))

/-- The text does not end inside a character of the message. -/
def Whole (msg part : List UInt8) : Prop := ∀ text, msg = utf8 text → ∃ front, front <+: text ∧ part = utf8 front

/-- What a summary should be. -/
def Summarizes (msg summary : List UInt8) : Prop :=
  (msg.length ≤ MAX_SUMMARY_CONTENT_LEN → summary = msg) ∧
    (MAX_SUMMARY_CONTENT_LEN < msg.length →
      ∃ part, part <+: msg ∧ summary = part ++ ellipsis ∧ ¬Unclosed part ∧ Whole msg part)

theorem cut_whole {msg after : List UInt8} {n : Nat} (cut : msg.take n = part ++ 91::after) : Whole msg part := by
  intro text same
  have whole : utf8 text = part ++ 91::(after ++ msg.drop n) := by
    rw [← same,← List.cons_append,← List.append_assoc,← cut,List.take_append_drop]
  exact utf8_split whole (by decide)

theorem whole_take {msg : List UInt8} {n : Nat} (long : n ≤ msg.length) : Whole msg (msg.take n) ↔
    ∀ text, msg = utf8 text → ∃ front, front <+: text ∧ (utf8 front).length = n := by
  constructor
  · intro whole text same
    obtain ⟨front,kept,cut⟩ := whole text same
    exact ⟨front,kept,by rw [← cut,List.length_take,Nat.min_eq_left long]⟩
  · intro between text same
    obtain ⟨front,⟨rest,rfl⟩,length⟩ := between text same
    exact ⟨front,⟨rest,rfl⟩,by rw [same,utf8_append,List.take_left' length]⟩

theorem trimmed_front (content : List UInt8) : trimmed content <+: content := by
  obtain ⟨-,same⟩ | ⟨after,cut,-⟩ := trimmed_cut content
  · rw [same]
  · exact ⟨91::after,cut.symm⟩

theorem front_inside {part before inside after : List UInt8} (kept : part <+: before ++ 91::(inside ++ 93::after))
    (beyond : before.length < part.length) (short : part.length < before.length + inside.length + 2) :
    ∃ front back, inside = front ++ back ∧ part = before ++ 91::front := by
  obtain ⟨k,length⟩ := Nat.exists_eq_add_of_lt beyond
  have low : k ≤ inside.length := by omega
  refine ⟨inside.take k,inside.drop k,(List.take_append_drop k inside).symm,?_⟩
  rw [List.prefix_iff_eq_take.mp kept,length,Nat.add_assoc,List.take_length_add_append,List.take_succ_cons,
    List.take_append_of_le_length low]

/-- A code of the message is not cut through: it is kept whole, or left out. -/
theorem code_whole {before inside after : List UInt8} (opened : 91 ∉ inside) (closed : 93 ∉ inside) (n : Nat) :
    (trimmed ((before ++ 91::(inside ++ 93::after)).take n)).length ≤ before.length ∨
      before.length + inside.length + 2 ≤ (trimmed ((before ++ 91::(inside ++ 93::after)).take n)).length := by
  by_contra through
  rw [not_or,Nat.not_le,Nat.not_le] at through
  obtain ⟨rest,whole⟩ := (trimmed_front ((before ++ 91::(inside ++ 93::after)).take n)).trans <| List.take_prefix _ _
  obtain ⟨front,back,rfl,part⟩ := front_inside ⟨rest,whole⟩ through.1 through.2
  rw [List.mem_append,not_or] at opened closed
  obtain ⟨none_,same⟩ | ⟨cutOff,parts,-⟩ := trimmed_cut ((before ++ 91::(front ++ back ++ 93::after)).take n)
  · rw [← same,part,opens_open before opened.1 closed.1] at none_
    exact absurd none_ (Nat.succ_ne_zero _)
  · have next : before ++ 91::(front ++ (back ++ 93::after)) =
        before ++ 91::(front ++ 91::(cutOff ++ (before ++ 91::(front ++ back ++ 93::after)).drop n)) := by
      have joined := (List.take_append_drop n (before ++ 91::(front ++ back ++ 93::after))).symm
      rw [parts,part] at joined
      simpa only [List.append_assoc,List.cons_append] using joined
    have next := List.append_cancel_left (List.cons.inj (List.append_cancel_left next)).2
    obtain _ | ⟨c,back⟩ := back
    · exact absurd (List.cons.inj next).1 (by decide)
    · exact opened.2 ((List.cons.inj next).1 ▸ List.mem_cons_self)

/-- The summary is right exactly where one `[` is open at the cut, or none is and the
cut is between two characters. -/
theorem summarizes_iff (msg : List UInt8) : Summarizes msg (SummaryTestContent msg) ↔
    msg.length ≤ MAX_SUMMARY_CONTENT_LEN ∨ opens (msg.take MAX_SUMMARY_CONTENT_LEN) = 1 ∨
      opens (msg.take MAX_SUMMARY_CONTENT_LEN) = 0 ∧
        ∀ text, msg = utf8 text → ∃ front, front <+: text ∧ (utf8 front).length = MAX_SUMMARY_CONTENT_LEN := by
  by_cases short : msg.length ≤ MAX_SUMMARY_CONTENT_LEN
  · have same : SummaryTestContent msg = msg := if_pos short
    exact iff_of_true ⟨fun _ => same,fun long => absurd short (Nat.not_le.mpr long)⟩ (.inl short)
  have long : MAX_SUMMARY_CONTENT_LEN < msg.length := Nat.not_le.mp short
  have cut : SummaryTestContent msg = trimmed (msg.take MAX_SUMMARY_CONTENT_LEN) ++ ellipsis := if_neg short
  have meets : Summarizes msg (SummaryTestContent msg) ↔ ¬Unclosed (trimmed (msg.take MAX_SUMMARY_CONTENT_LEN)) ∧
      Whole msg (trimmed (msg.take MAX_SUMMARY_CONTENT_LEN)) := by
    constructor
    · intro right
      obtain ⟨part,-,same,closed,whole⟩ := right.2 long
      rw [List.append_cancel_right (cut.symm.trans same)]
      exact ⟨closed,whole⟩
    · intro right
      have kept := (trimmed_front (msg.take MAX_SUMMARY_CONTENT_LEN)).trans <| List.take_prefix _ msg
      exact ⟨fun low => absurd low short,fun _ => ⟨_,kept,cut,right.1,right.2⟩⟩
  rw [meets,or_iff_right short,unclosed_iff,Nat.not_lt,Nat.le_zero]
  obtain ⟨none_,same⟩ | ⟨after,parts,one⟩ := trimmed_cut (msg.take MAX_SUMMARY_CONTENT_LEN)
  · rw [same,whole_take (Nat.le_of_lt long),or_iff_right (by omega)]
  · have whole := cut_whole parts
    rw [and_iff_left whole,one]
    omega

/-- Fifteen letters, and a character whose first byte is the sixteenth. -/
def splitText : List Char := ['a','b','c','d','e','f','g','h','i','j','k','l','m','n','o','中']

theorem character_split : ¬Summarizes (utf8 splitText) (SummaryTestContent (utf8 splitText)) := by
  intro right
  obtain ⟨part,-,same,-,whole⟩ := right.2 (by decide)
  have cut : SummaryTestContent (utf8 splitText) = (utf8 splitText).take MAX_SUMMARY_CONTENT_LEN ++ ellipsis := by decide
  obtain ⟨front,kept,rfl⟩ := whole splitText rfl
  have length := congrArg List.length (List.append_cancel_right (cut.symm.trans same))
  have between : ∀ n ≤ 16, (utf8 (splitText.take n)).length ≠ 16 := by decide
  rw [List.prefix_iff_eq_take.mp kept] at length
  exact between front.length kept.length_le length.symm

end Migfm.Chat
