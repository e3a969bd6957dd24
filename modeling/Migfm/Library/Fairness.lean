import Mathlib.Order.Filter.AtTopBot.Basic
import Mathlib.Tactic

/-! Loops whose rounds take what is picked next, and how they end where the picks are fair. -/
namespace Migfm.Library.Fairness
open Filter

section Loop
variable {State Pick : Type*} (going : State → Prop) [DecidablePred going] (step : State → Pick → Option State)

/-- At most so many rounds. There is no outcome where a step has none. -/
def rounds : Nat → (Nat → Pick) → State → Option State
  | 0,_,state => some state
  | n+1,picks,state =>
    if going state then (step state (picks 0)).bind (rounds n fun k => picks (k + 1)) else some state

/-- The loop comes to its end. -/
def Ends (picks : Nat → Pick) (state final : State) : Prop :=
  ∃ n, rounds going step n picks state = some final ∧ ¬going final

variable {going step} {picks : Nat → Pick} {state final : State}

theorem ends_over (done : ¬going state) : Ends going step picks state final ↔ final = state := by
  constructor
  · rintro ⟨n,ends,-⟩
    cases n with
    | zero => exact (Option.some.inj ends).symm
    | succ n =>
      rw [rounds,if_neg done] at ends
      exact (Option.some.inj ends).symm
  · rintro rfl
    exact ⟨0,rfl,done⟩

theorem ends_next (more : going state) :
    Ends going step picks state final ↔
      ∃ next, step state (picks 0) = some next ∧ Ends going step (fun k => picks (k + 1)) next final := by
  constructor
  · rintro ⟨n,ends,done⟩
    cases n with
    | zero =>
      cases Option.some.inj ends
      exact absurd more done
    | succ n =>
      rw [rounds,if_pos more] at ends
      obtain ⟨next,outcome,rest⟩ := Option.bind_eq_some_iff.mp ends
      exact ⟨next,outcome,n,rest,done⟩
  · rintro ⟨next,outcome,n,rest,done⟩
    refine ⟨n + 1,?_,done⟩
    rw [rounds,if_pos more,outcome]
    exact rest

/-- What each round keeps, holds at the end. -/
theorem Ends.keeps (Inv : State → Prop) (given : Pick → Prop) (each : ∀ n, given (picks n))
    (kept : ∀ {state next pick}, Inv state → going state → given pick → step state pick = some next → Inv next)
    (start : Inv state) (ends : Ends going step picks state final) : Inv final := by
  obtain ⟨n,ends,-⟩ := ends
  induction n generalizing picks state with
  | zero =>
    cases Option.some.inj ends
    exact start
  | succ n ih =>
    rw [rounds] at ends
    by_cases more : going state
    · rw [if_pos more] at ends
      obtain ⟨next,outcome,rest⟩ := Option.bind_eq_some_iff.mp ends
      exact ih (fun k => each (k + 1)) (kept start more (each 0) outcome) rest
    · rw [if_neg more] at ends
      cases Option.some.inj ends
      exact start

end Loop

/-! ### Fair picks -/

section Fair
variable {α : Type*} {stored : List α} {picks : Nat → Option α}

/-- Only what is stored is picked, and each of it again and again. In between, a pick may fail. -/
structure Fair (stored : List α) (picks : Nat → Option α) : Prop where
  within : ∀ n, ∀ a ∈ picks n, a ∈ stored
  recurs : ∀ a ∈ stored, ∃ᶠ n in atTop, picks n = some a

theorem Fair.tail (fair : Fair stored picks) : Fair stored fun k => picks (k + 1) where
  within n := fair.within (n + 1)
  recurs a member := by
    rw [frequently_atTop]
    intro n
    obtain ⟨m,later,picked⟩ := frequently_atTop.mp (fair.recurs a member) (n + 1)
    refine ⟨m - 1,by omega,?_⟩
    rw [Nat.sub_add_cancel (by omega)]
    exact picked

theorem fair_nil : Fair ([] : List α) fun _ => none where
  within := nofun
  recurs := nofun

/-- Fair picks may begin with any of the stored. -/
theorem exists_fair {a : α} (member : a ∈ stored) : ∃ picks, Fair stored picks ∧ picks 0 = some a := by
  obtain ⟨first,bound,found⟩ := List.mem_iff_getElem.mp member
  refine ⟨fun n => stored[(first + n) % stored.length]?,⟨?_,?_⟩,?_⟩
  · intro n b picked
    exact List.mem_of_getElem? picked
  · intro b stored_
    obtain ⟨place,inside,there⟩ := List.mem_iff_getElem.mp stored_
    rw [frequently_atTop]
    intro n
    refine ⟨n * stored.length + (stored.length - first) + place,?_,?_⟩
    · have : n * 1 ≤ n * stored.length := Nat.mul_le_mul_left n (by omega)
      omega
    · have turns : first + (n * stored.length + (stored.length - first) + place) = place + stored.length * (n + 1) := by
        rw [Nat.mul_add,Nat.mul_comm n]
        omega
      rw [turns,Nat.add_mul_mod_self_left,Nat.mod_eq_of_lt inside,List.getElem?_eq_getElem inside,there]
  · have start : (first + 0) % stored.length = first := Nat.mod_eq_of_lt bound
    dsimp only
    rw [start,List.getElem?_eq_getElem bound,found]

/-- Some picks are fair. -/
theorem fair_exists (stored : List α) : ∃ picks, Fair stored picks := by
  cases stored with
  | nil => exact ⟨_,fair_nil⟩
  | cons a rest =>
    obtain ⟨picks,fair,-⟩ := exists_fair (List.mem_cons_self (a := a) (l := rest))
    exact ⟨picks,fair⟩

section Ending
variable {State : Type*} {going : State → Prop} [DecidablePred going] {step : State → Option α → Option State}
  (Inv : State → Prop) (helps : α → State → Prop)

/-- If at any time some stored one helps, which it goes on doing until it is picked or the measure falls, and
then the measure falls, the loop ends. -/
theorem Fair.ends (measure : State → Nat)
    (some_helps : ∀ {state}, Inv state → going state → ∃ a ∈ stored, helps a state)
    (moves : ∀ {state} {pick : Option α}, Inv state → going state → (∀ a ∈ pick, a ∈ stored) →
      ∃ next, step state pick = some next ∧ Inv next ∧ (measure next < measure state ∨
        measure next = measure state ∧ ∀ a, helps a state → pick ≠ some a ∧ helps a next))
    (fair : Fair stored picks) {state : State} (start : Inv state) : ∃ final, Ends going step picks state final := by
  induction size : measure state using Nat.strong_induction_on generalizing picks state with
  | _ size ih =>
    by_cases more : going state
    · obtain ⟨a,member,help⟩ := some_helps start more
      obtain ⟨m,-,picked⟩ := frequently_atTop.mp (fair.recurs a member) 0
      -- the rounds until the helping one is picked
      induction m generalizing picks state with
      | zero =>
        obtain ⟨next,outcome,inv,less | ⟨-,waits⟩⟩ := moves start more (fair.within 0)
        · obtain ⟨final,ends⟩ := ih _ (size.symm ▸ less) fair.tail inv rfl
          exact ⟨final,(ends_next more).mpr ⟨next,outcome,ends⟩⟩
        · exact absurd picked (waits a help).1
      | succ m waiting =>
        obtain ⟨next,outcome,inv,less | ⟨same,waits⟩⟩ := moves start more (fair.within 0)
        · obtain ⟨final,ends⟩ := ih _ (size.symm ▸ less) fair.tail inv rfl
          exact ⟨final,(ends_next more).mpr ⟨next,outcome,ends⟩⟩
        · by_cases again : going next
          · obtain ⟨final,ends⟩ := waiting fair.tail inv (same.trans size) again (waits a help).2 picked
            exact ⟨final,(ends_next more).mpr ⟨next,outcome,ends⟩⟩
          · exact ⟨next,(ends_next more).mpr ⟨next,outcome,(ends_over again).mpr rfl⟩⟩
    · exact ⟨state,(ends_over more).mpr rfl⟩

end Ending
end Fair
end Migfm.Library.Fairness
