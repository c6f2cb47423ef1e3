import EntitySearch.Metadata.Repository

/-!
# Steps of a session

What is made of an answer goes on from the state after it. A failure ends the session, in the state
that it leaves. Noting a request changes neither.
-/

namespace EntitySearch

variable {State Answer Result : Type}

namespace Session

theorem bind_apply (ask : Session State Answer) (next : Answer → Session State Result)
    (state : State) :
    (ask >>= next) state =
      match ask state with
      | (.ok answer, later) => next answer later
      | (.error error, later) => (.error error, later) := by
  simp only [bind, ExceptT.bind, ExceptT.mk, StateT.bind, ExceptT.bindCont]
  rcases ask state with ⟨error | answer, later⟩ <;> rfl

section Outcomes

variable {ask : Session State Answer} {next : Answer → Session State Result} {state later : State}

theorem bind_of_ok {answer : Answer} (answered : ask state = (.ok answer, later)) :
    (ask >>= next) state = next answer later := by
  rw [bind_apply, answered]

theorem bind_of_error {error : SearchError} (failed : ask state = (.error error, later)) :
    (ask >>= next) state = (.error error, later) := by
  rw [bind_apply, failed]

end Outcomes

/-- What is made of an answer changes neither a failure nor the next state. -/
theorem bind_pure_apply (ask : Session State Answer) (make : Answer → Result) (state : State) :
    (do let answer ← ask; pure (make answer) : Session State Result) state =
      ((ask state).1.map make, (ask state).2) := by
  rw [bind_apply]
  rcases ask state with ⟨error | answer, later⟩ <;> rfl

end Session

/-- A request that is noted is answered as it is without the note. -/
theorem Repository.note_eq_iff {ask : Session State Answer} {state later : State}
    {request : Request} {log after : List Request} {outcome : Except SearchError Answer} :
    note request ask (state, log) = (outcome, (later, after)) ↔
      ask state = (outcome, later) ∧ after = log ++ [request] := by
  rw [note]
  rcases ask state with ⟨answer, last⟩
  constructor
  · rintro ⟨⟩
    exact ⟨rfl, rfl⟩
  · rintro ⟨⟨⟩, rfl⟩
    rfl

end EntitySearch
