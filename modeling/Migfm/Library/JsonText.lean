import Mathlib.Data.List.Forall2

/-! Texts of JSON objects whose values are strings, and of several with commas between. The bytes of a string
from 128 on are left to the encoding. -/
namespace Migfm.Library.JsonText

def Hex (c : UInt8) : Prop := (48 ≤ c ∧ c ≤ 57) ∨ (65 ≤ c ∧ c ≤ 70) ∨ (97 ≤ c ∧ c ≤ 102)

/-- What may stand between the quotes. -/
inductive Body : List UInt8 → Prop
  | nil : Body []
  | plain {c : UInt8} {rest : List UInt8} : 32 ≤ c → c ≠ 34 → c ≠ 92 → Body rest → Body (c::rest)
  | escape {c : UInt8} {rest : List UInt8} : c ∈ [34,92,47,98,102,110,114,116] → Body rest → Body (92::c::rest)
  | unicode {digits rest : List UInt8} : digits.length = 4 → (∀ c ∈ digits, Hex c) → Body rest → Body (92::117::(digits ++ rest))

def unescaped (text : List UInt8) : Bool := text.all fun c => 32 ≤ c ∧ c ≠ 34 ∧ c ≠ 92

theorem body_of_unescaped {text : List UInt8} (plain : unescaped text) : Body text := by
  induction text with
  | nil => exact .nil
  | cons c rest ih =>
    rw [unescaped,List.all_cons,Bool.and_eq_true,decide_eq_true_iff] at plain
    obtain ⟨⟨space,quote,backslash⟩,plain⟩ := plain
    exact .plain space quote backslash (ih plain)

/-- The names and the values, in order. -/
abbrev Fields := List (List UInt8 × List UInt8)

def Bodies (fields : Fields) : Prop := ∀ field ∈ fields, Body field.1 ∧ Body field.2

def member (field : List UInt8 × List UInt8) : List UInt8 := 34::(field.1 ++ [34,58,34] ++ field.2 ++ [34])

def object (fields : Fields) : List UInt8 := 123::([44].intercalate (fields.map member) ++ [125])

structure Object (fields : Fields) (text : List UInt8) : Prop where
  text : text = object fields
  bodies : Bodies fields

/-- The text is one object each, with commas between. -/
def Objects (all : List Fields) (text : List UInt8) : Prop :=
  ∃ texts, List.Forall₂ Object all texts ∧ text = [44].intercalate texts

/-- Objects that are written one by one, with a comma behind some. -/
def written (pieces : List (Fields × Bool)) : List UInt8 :=
  pieces.flatMap fun piece => object piece.1 ++ if piece.2 then [44] else []

/-- Behind each but the last. -/
def Separated : List Bool → Prop
  | [] => True
  | [last] => last = false
  | comma::next::commas => comma = true ∧ Separated (next::commas)

theorem separated_cons (comma : Bool) (commas : List Bool) :
    Separated (comma::commas) ↔ (comma = true ↔ commas ≠ []) ∧ Separated commas := by
  cases commas with
  | nil => cases comma <;> simp [Separated]
  | cons next commas => simp [Separated]

theorem forall₂_object {all : List Fields} {texts : List (List UInt8)} :
    List.Forall₂ Object all texts ↔ texts = all.map object ∧ ∀ fields ∈ all, Bodies fields := by
  induction all generalizing texts with
  | nil =>
    rw [List.forall₂_nil_left_iff]
    exact (and_iff_left fun fields member => absurd member List.not_mem_nil).symm
  | cons fields all ih =>
    rw [List.forall₂_cons_left_iff,List.forall_mem_cons]
    constructor
    · intro ⟨text,texts,first,rest,whole⟩
      obtain ⟨same,bodies⟩ := ih.mp rest
      rw [whole,first.text,same]
      exact ⟨rfl,first.bodies,bodies⟩
    · intro ⟨whole,first,bodies⟩
      exact ⟨object fields,all.map object,⟨rfl,first⟩,ih.mpr ⟨rfl,bodies⟩,whole⟩

theorem objects_text {all : List Fields} {text : List UInt8} :
    Objects all text ↔ text = [44].intercalate (all.map object) ∧ ∀ fields ∈ all, Bodies fields := by
  simp only [Objects,forall₂_object]
  constructor
  · intro ⟨texts,⟨same,bodies⟩,whole⟩
    rw [whole,same]
    exact ⟨rfl,bodies⟩
  · intro ⟨whole,bodies⟩
    exact ⟨all.map object,⟨rfl,bodies⟩,whole⟩

theorem written_cons (piece : Fields × Bool) (pieces : List (Fields × Bool)) :
    written (piece::pieces) = written [piece] ++ written pieces := by
  rw [written,List.flatMap_cons,written,List.flatMap_singleton,written]

/-- An object does not start with a comma. -/
theorem written_head (piece : Fields × Bool) (pieces : List (Fields × Bool)) (text : List UInt8) :
    written (piece::pieces) ≠ 44::text := by
  intro same
  cases (List.cons.inj same).1

theorem written_iff (pieces : List (Fields × Bool)) :
    written pieces = [44].intercalate ((pieces.map Prod.fst).map object) ↔ Separated (pieces.map Prod.snd) := by
  induction pieces with
  | nil => exact iff_of_true rfl trivial
  | cons piece pieces ih =>
    obtain ⟨fields,comma⟩ := piece
    cases pieces with
    | nil =>
      rw [written,List.flatMap_singleton,List.map_singleton,List.map_singleton,List.intercalate_singleton,List.append_right_eq_self]
      cases comma with
      | false => exact iff_of_true rfl rfl
      | true => exact iff_of_false (List.cons_ne_nil 44 []) Bool.noConfusion
    | cons next pieces =>
      rw [List.map_cons,List.map_cons,List.map_cons,List.map_cons,List.intercalate_cons_cons,written,List.flatMap_cons,List.append_assoc,
        List.append_assoc,List.append_right_inj]
      cases comma with
      | false =>
        refine iff_of_false (fun same => ?_) (fun separated => Bool.noConfusion separated.1)
        exact written_head next pieces _ same
      | true =>
        rw [if_pos rfl,List.append_right_inj]
        exact ih.trans (and_iff_right rfl).symm

/-- What is written is one object each iff the commas are behind each but the last, and the values may stand in strings. -/
theorem written_objects_iff (pieces : List (Fields × Bool)) :
    Objects (pieces.map Prod.fst) (written pieces) ↔
      Separated (pieces.map Prod.snd) ∧ ∀ fields ∈ pieces.map Prod.fst, Bodies fields := by
  rw [objects_text,written_iff]

end Migfm.Library.JsonText
