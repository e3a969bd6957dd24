import Mathlib.Logic.Function.Basic
import Mathlib.Tactic

/-! A store and copies of parts of it that are kept aside. A write reaches the store
first and the copies later; in between it is pending on its thread. -/
namespace Migfm.Library.Aside

variable {Thread Place Value : Type*}

/-- A pending write is what the store holds at the place. -/
def Due (pending : Thread → Option (Place × Value)) (store : Place → Value) (place : Place) : Prop :=
  ∃ thread, pending thread = some (place,store place)

/-- A copy is right wherever no write is due. -/
def Fits (pending : Thread → Option (Place × Value)) (store : Place → Value) (copy : Place → Option Value) : Prop :=
  ∀ place value, copy place = some value → value = store place ∨ Due pending store place

section Rules
variable {pending : Thread → Option (Place × Value)} {store : Place → Value} {copy : Place → Option Value}

theorem Fits.of_read (read : ∀ place value, copy place = some value → value = store place) : Fits pending store copy :=
  fun place value held => .inl (read place value held)

theorem Fits.right (fits : Fits pending store copy) (none_ : ∀ thread, pending thread = none) {place : Place} {value : Value}
    (held : copy place = some value) : value = store place := by
  rcases fits place value held with same | ⟨thread,due⟩
  · exact same
  · rw [none_ thread] at due
    cases due

variable [DecidableEq Thread]

/-- A write reaches the store. -/
theorem Fits.written [DecidableEq Place] (fits : Fits pending store copy) {thread : Thread} (idle : pending thread = none)
    (place : Place) (value : Value) :
    Fits (Function.update pending thread (some (place,value))) (Function.update store place value) copy := by
  intro other held found
  by_cases same : other = place
  · subst same
    exact .inr ⟨thread,by rw [Function.update_self,Function.update_self]⟩
  · rw [Due,Function.update_of_ne same]
    rcases fits other held found with right | ⟨writer,due⟩
    · exact .inl right
    · have apart : writer ≠ thread := by
        rintro rfl
        rw [idle] at due
        cases due
      exact .inr ⟨writer,by rw [Function.update_of_ne apart,due]⟩

theorem Fits.apart (fits : Fits pending store copy) {thread : Thread} {place other : Place} {value held : Value}
    (writes : pending thread = some (place,value)) (apart : other ≠ place) (found : copy other = some held) :
    held = store other ∨ Due (Function.update pending thread none) store other := by
  rcases fits other held found with right | ⟨writer,due⟩
  · exact .inl right
  · have another : writer ≠ thread := by
      rintro rfl
      rw [writes] at due
      cases due
      exact apart rfl
    exact .inr ⟨writer,by rw [Function.update_of_ne another,due]⟩

/-- A write is no longer pending: the copy has it, or another write at the place is due. -/
theorem Fits.retired (fits : Fits pending store copy) {thread : Thread} {place : Place} {value : Value}
    (writes : pending thread = some (place,value))
    (settled : (∀ held, copy place = some held → held = store place) ∨
      Due (Function.update pending thread none) store place) :
    Fits (Function.update pending thread none) store copy := by
  intro other held found
  by_cases same : other = place
  · subst same
    exact settled.imp_left fun right => right held found
  · exact fits.apart writes same found

/-- The write is brought to the copy where that has the place. -/
theorem Fits.brought [DecidableEq Place] (fits : Fits pending store copy) {thread : Thread} {place : Place} {value : Value}
    (writes : pending thread = some (place,value)) {copy' : Place → Option Value}
    (brings : ∀ other, copy' other = if other = place then (copy other).map fun _ => value else copy other)
    (settled : (copy place = none ∨ value = store place) ∨ Due (Function.update pending thread none) store place) :
    Fits (Function.update pending thread none) store copy' := by
  intro other held found
  rw [brings] at found
  split at found
  · rename_i same
    subst same
    obtain ⟨old,before,rfl⟩ := Option.map_eq_some_iff.mp found
    refine settled.imp_left fun right => right.resolve_left ?_
    rw [before]
    exact Option.some_ne_none old
  · rename_i apart
    exact fits.apart writes apart found

/-- A step that is no write. -/
theorem Fits.idle (fits : Fits pending store copy) {thread : Thread} (idle : pending thread = none) :
    Fits (Function.update pending thread none) store copy := by
  rw [← idle,Function.update_eq_self]
  exact fits

end Rules
end Migfm.Library.Aside
