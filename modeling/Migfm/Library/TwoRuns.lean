import Migfm.Library.Runs

/-! Two runs of a machine that answers requests. They differ in requests that are
hidden; what may be seen of the machine is a relation of states. -/
namespace Migfm.Library.TwoRuns

variable {State Request Answer : Type*} (serve : State → Request → State × Answer)

def step (state : State) (request : Request) : Option State := some (serve state request).1

/-- The answers to the requests of the observer. -/
def answers (observed : Request → Bool) (state : State) : List Request → List Answer
  | [] => []
  | request::requests =>
    let (next,answer) := serve state request
    if observed request then answer :: answers observed next requests else answers observed next requests

/-- A hidden request changes nothing that may be seen; any other request changes and
answers by what may be seen. -/
structure Unseen (observed hidden : Request → Bool) (meets : State → Request → Prop) (Same : State → State → Prop) : Prop where
  left : ∀ {first second request}, Same first second → hidden request → Same (serve first request).1 second
  right : ∀ {first second request}, Same first second → hidden request → Same first (serve second request).1
  both : ∀ {first second request}, Same first second → meets first request → meets second request → hidden request = false →
    Same (serve first request).1 (serve second request).1
  answer : ∀ {first second request}, Same first second → observed request →
    hidden request = false ∧ (serve first request).2 = (serve second request).2

section Rules
variable {serve} {observed hidden : Request → Bool} {meets : State → Request → Prop} {Same : State → State → Prop}
variable {first second : State} {request : Request} {requests others : List Request}

theorem Unseen.not_observed (unseen : Unseen serve observed hidden meets Same) (same : Same first second)
    (hides : hidden request) : observed request = false := by
  rw [Bool.eq_false_iff]
  intro sees
  rw [(unseen.answer same sees).1] at hides
  cases hides

/-- The second run serves hidden requests until the next that is not. -/
theorem Unseen.skip (unseen : Unseen serve observed hidden meets Same) (same : Same first second)
    (hides : ∀ request ∈ others, hidden request) (along : Runs.Along (step serve) meets second (others ++ requests)) :
    ∃ later, Same first later ∧ Runs.Along (step serve) meets later requests ∧
      answers serve observed second (others ++ requests) = answers serve observed later requests := by
  induction others generalizing second with
  | nil => exact ⟨second,same,along,rfl⟩
  | cons request others ih =>
    obtain ⟨this,rest⟩ := List.forall_mem_cons.mp hides
    obtain ⟨later,relates,meets,equal⟩ := ih (unseen.right same this) rest (along.2 _ rfl)
    refine ⟨later,relates,meets,?_⟩
    rw [← equal,List.cons_append,answers,unseen.not_observed same this]
    rfl

/-- Runs that differ in hidden requests are answered alike. -/
theorem Unseen.answers_eq (unseen : Unseen serve observed hidden meets Same) (same : Same first second)
    (along : Runs.Along (step serve) meets first requests) (along' : Runs.Along (step serve) meets second others)
    (kept : requests.filter (!hidden ·) = others.filter (!hidden ·)) :
    answers serve observed first requests = answers serve observed second others := by
  induction requests generalizing first second others with
  | nil =>
    have hides : ∀ request ∈ others, hidden request := by simpa using kept.symm
    rw [← List.append_nil others] at along' ⊢
    obtain ⟨_,_,_,equal⟩ := unseen.skip same hides along'
    exact equal.symm
  | cons request requests ih =>
    by_cases hides : hidden request
    · rw [List.filter_cons_of_neg (by simp [hides])] at kept
      rw [answers,unseen.not_observed same hides]
      exact ih (unseen.left same hides) (along.2 _ rfl) along' kept
    · rw [List.filter_cons_of_pos (by simpa using hides),eq_comm,List.filter_eq_cons_iff] at kept
      obtain ⟨skipped,rest,rfl,all,_,kept⟩ := kept
      rw [Bool.not_eq_true] at hides
      obtain ⟨later,relates,meets,equal⟩ := unseen.skip same (by simpa using all) along'
      have next := ih (unseen.both relates along.1 meets.1 hides) (along.2 _ rfl) (meets.2 _ rfl) kept.symm
      rw [equal,answers,answers]
      dsimp only
      split
      · rename_i sees
        rw [(unseen.answer relates sees).2,next]
      · exact next

end Rules
end Migfm.Library.TwoRuns
