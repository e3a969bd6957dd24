import Mathlib.Tactic

/-! Runs of a machine whose steps may have no outcome, and conditions and
invariants along them. -/
namespace Migfm.Library.Runs

variable {State Event : Type*} (step : State → Event → Option State)

def run (state : State) : List Event → Option State
  | [] => some state
  | event::events => (step state event).bind fun next => run next events

/-- Every step of the run meets the condition. -/
def Along (meets : State → Event → Prop) (state : State) : List Event → Prop
  | [] => True
  | event::events => meets state event ∧ ∀ next, step state event = some next → Along meets next events

variable {step}

theorem Along.imp {meets weaker : State → Event → Prop} (weaken : ∀ state event, meets state event → weaker state event)
    {state : State} {events : List Event} (along : Along step meets state events) :
    Along step weaker state events := by
  induction events generalizing state with
  | nil => exact trivial
  | cons event events ih => exact ⟨weaken _ _ along.1,fun next outcome => ih (along.2 next outcome)⟩

theorem along_always (state : State) (events : List Event) : Along step (fun _ _ => True) state events := by
  induction events generalizing state with
  | nil => exact trivial
  | cons event events ih => exact ⟨trivial,fun next _ => ih next⟩

/-- Two conditions that are one where an invariant holds, if the invariant is kept along with the first. -/
theorem Along.congr_of {Inv : State → Prop} {promised meets spares : State → Event → Prop}
    (each : ∀ {state event}, Inv state → promised state event → (meets state event ↔ spares state event))
    (kept : ∀ {state event next}, Inv state → promised state event → meets state event → step state event = some next → Inv next)
    {state : State} (start : Inv state) {events : List Event} (along : Along step promised state events) :
    Along step meets state events ↔ Along step spares state events := by
  induction events generalizing state with
  | nil => exact Iff.rfl
  | cons event events ih =>
    have here := each start along.1
    constructor
    · rintro ⟨this,rest⟩
      refine ⟨here.mp this,?_⟩
      intro next outcome
      exact (ih (kept start along.1 this outcome) (along.2 next outcome)).mp (rest next outcome)
    · rintro ⟨this,rest⟩
      refine ⟨here.mpr this,?_⟩
      intro next outcome
      exact (ih (kept start along.1 (here.mpr this) outcome) (along.2 next outcome)).mpr (rest next outcome)

theorem Along.congr {Inv : State → Prop} {meets spares : State → Event → Prop}
    (each : ∀ {state event}, Inv state → (meets state event ↔ spares state event))
    (kept : ∀ {state event next}, Inv state → meets state event → step state event = some next → Inv next)
    {state : State} (start : Inv state) (events : List Event) :
    Along step meets state events ↔ Along step spares state events := by
  apply Along.congr_of ?_ ?_ start (along_always state events)
  · intro state event inv _
    exact each inv
  · intro state event next inv _ this outcome
    exact kept inv this outcome

theorem Along.append {meets : State → Event → Prop} {state : State} {first second : List Event}
    (along : Along step meets state first)
    (rest : ∀ next, run step state first = some next → Along step meets next second) :
    Along step meets state (first ++ second) := by
  induction first generalizing state with
  | nil => exact rest state rfl
  | cons event first ih =>
    refine ⟨along.1,?_⟩
    intro next outcome
    refine ih (along.2 next outcome) ?_
    intro final ends
    exact rest final (Option.bind_eq_some_iff.mpr ⟨next,outcome,ends⟩)

/-- A run of two parts. -/
theorem run_append {state final : State} {first second : List Event} (ends : run step state (first ++ second) = some final) :
    ∃ mid, run step state first = some mid ∧ run step mid second = some final := by
  induction first generalizing state with
  | nil => exact ⟨state,rfl,ends⟩
  | cons event first ih =>
    obtain ⟨next,outcome,rest⟩ := Option.bind_eq_some_iff.mp ends
    obtain ⟨mid,reaches,ends⟩ := ih rest
    exact ⟨mid,Option.bind_eq_some_iff.mpr ⟨next,outcome,reaches⟩,ends⟩

theorem run_trans {state mid final : State} {first second : List Event} (reaches : run step state first = some mid)
    (ends : run step mid second = some final) : run step state (first ++ second) = some final := by
  induction first generalizing state with
  | nil =>
    cases reaches
    exact ends
  | cons event first ih =>
    obtain ⟨next,outcome,rest⟩ := Option.bind_eq_some_iff.mp reaches
    exact Option.bind_eq_some_iff.mpr ⟨next,outcome,ih rest⟩

theorem Along.parts {meets : State → Event → Prop} {state : State} {first second : List Event}
    (along : Along step meets state (first ++ second)) :
    Along step meets state first ∧ ∀ next, run step state first = some next → Along step meets next second := by
  induction first generalizing state with
  | nil =>
    refine ⟨trivial,?_⟩
    rintro _ ⟨⟩
    exact along
  | cons event first ih =>
    refine ⟨⟨along.1,fun next outcome => (ih (along.2 next outcome)).1⟩,?_⟩
    intro final ends
    obtain ⟨next,outcome,rest⟩ := Option.bind_eq_some_iff.mp ends
    exact (ih (along.2 next outcome)).2 final rest

/-- A condition on the events alone. -/
theorem Along.events {meets : State → Event → Prop} {state : State} {events : List Event}
    (along : Along step meets state events) {only : Event → Prop} (each : ∀ event ∈ events, only event) :
    Along step (fun state event => meets state event ∧ only event) state events := by
  induction events generalizing state with
  | nil => exact trivial
  | cons event events ih =>
    obtain ⟨this,rest⟩ := List.forall_mem_cons.mp each
    exact ⟨⟨along.1,this⟩,fun next outcome => ih (along.2 next outcome) rest⟩

/-- What every step that meets the condition keeps, holds at the end of the run. -/
theorem run_invariant {meets : State → Event → Prop} {Inv : State → Prop}
    (kept : ∀ {state event next}, Inv state → meets state event → step state event = some next → Inv next)
    {state final : State} (start : Inv state) {events : List Event} (along : Along step meets state events)
    (ends : run step state events = some final) : Inv final := by
  induction events generalizing state with
  | nil =>
    cases ends
    exact start
  | cons event events ih =>
    obtain ⟨next,outcome,rest⟩ := Option.bind_eq_some_iff.mp ends
    exact ih (kept start along.1 outcome) (along.2 next outcome) rest

/-- The same for what every step keeps. -/
theorem run_keeps {Inv : State → Prop} (kept : ∀ {state event next}, Inv state → step state event = some next → Inv next)
    {state final : State} (start : Inv state) {events : List Event} (ends : run step state events = some final) :
    Inv final := by
  exact run_invariant (fun inv _ outcome => kept inv outcome) start (along_always state events) ends

/-- Where a condition on the step is what it takes to stay with what the events mean, the run does so all along
where every step meets the condition. -/
theorem refines_iff {Meaning : Type*} {means : Meaning → Event → Meaning} {Rel : State → Meaning → Prop}
    {meets : State → Event → Prop}
    (each : ∀ {state meaning event}, Rel state meaning →
      ((∃ next, step state event = some next ∧ Rel next (means meaning event)) ↔ meets state event))
    {state : State} {meaning : Meaning} (start : Rel state meaning) (events : List Event) :
    (∀ first, first <+: events → ∃ final, run step state first = some final ∧ Rel final (first.foldl means meaning)) ↔
      Along step meets state events := by
  induction events generalizing state meaning with
  | nil =>
    refine ⟨fun _ => trivial,fun _ first short => ⟨state,?_,?_⟩⟩
    · rw [List.prefix_nil.mp short]
      rfl
    · rw [List.prefix_nil.mp short]
      exact start
  | cons event events ih =>
    constructor
    · intro always
      obtain ⟨final,ends,holds⟩ := always [event] ⟨events,rfl⟩
      obtain ⟨next,outcome,rest⟩ := Option.bind_eq_some_iff.mp ends
      cases rest
      refine ⟨(each start).mp ⟨_,outcome,holds⟩,?_⟩
      intro next same
      cases outcome.symm.trans same
      refine (ih holds).mp fun first short => ?_
      obtain ⟨final,ends,holds⟩ := always (event::first) (List.cons_prefix_cons.mpr ⟨rfl,short⟩)
      rw [run,outcome,Option.bind_some] at ends
      exact ⟨final,ends,holds⟩
    · rintro ⟨this,along⟩ first short
      obtain ⟨next,outcome,holds⟩ := (each start).mpr this
      cases first with
      | nil => exact ⟨state,rfl,start⟩
      | cons other first =>
        obtain ⟨rfl,shorter⟩ := List.cons_prefix_cons.mp short
        obtain ⟨final,ends,holds⟩ := (ih holds).mpr (along next outcome) first shorter
        refine ⟨final,?_,holds⟩
        rw [run,outcome,Option.bind_some]
        exact ends

/-- The same for an invariant. -/
theorem always_iff {meets : State → Event → Prop} {Inv : State → Prop}
    (each : ∀ {state event}, Inv state → ((∃ next, step state event = some next ∧ Inv next) ↔ meets state event))
    {state : State} (start : Inv state) (events : List Event) :
    (∀ first, first <+: events → ∃ final, run step state first = some final ∧ Inv final) ↔ Along step meets state events :=
  @refines_iff State Event step Unit (fun _ _ => ()) (fun state _ => Inv state) meets each state () start events

end Migfm.Library.Runs
