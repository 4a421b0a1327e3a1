import Mathlib.Tactic.TypeStar

/-!
# Loops

A turn of a loop goes on from another state or leaves with a result.  A loop
whose turns keep an invariant and make a measure smaller is left, with a
result that the last turn allows.
-/

namespace CinderHTTP

/-- What a turn comes to. -/
inductive LoopStep (State Result : Type*) where
  | next (state : State)
  | done (result : Result)

section

variable {State Result : Type*}

/-- The result of a loop that is left within a number of turns. -/
def runLoop (body : State → LoopStep State Result) :
    Nat → State → Option Result
  | 0, _ => none
  | turns + 1, state =>
      match body state with
      | .next after => runLoop body turns after
      | .done result => some result

/-- What a good turn comes to: a state with the invariant and a smaller
measure, or an allowed result. -/
inductive GoodTurn (holds : State → Prop) (measure : State → Nat)
    (allowed : Result → Prop) (state : State) :
    LoopStep State Result → Prop
  | next {after : State} : holds after → measure after < measure state →
      GoodTurn holds measure allowed state (.next after)
  | done {result : Result} : allowed result →
      GoodTurn holds measure allowed state (.done result)

/-- A loop of good turns is left. -/
theorem runLoop_of_turns {body : State → LoopStep State Result}
    {holds : State → Prop} {measure : State → Nat} {allowed : Result → Prop}
    (good : ∀ state, holds state →
      GoodTurn holds measure allowed state (body state))
    {state : State} (held : holds state) {turns : Nat}
    (enough : measure state < turns) :
    ∃ result, runLoop body turns state = some result ∧ allowed result := by
  -- the measure stays below the number of turns that are left
  induction turns generalizing state with
  | zero => exact absurd enough (Nat.not_lt_zero _)
  | succ turns induction =>
      have turn := good state held
      rw [runLoop]
      generalize body state = step at turn
      cases turn with
      | next kept smaller => exact induction kept (by omega)
      | done ends => exact ⟨_, rfl, ends⟩

end

end CinderHTTP
