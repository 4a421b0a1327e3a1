import CinderHTTP.Base.Transition
import Mathlib.Logic.Relation
import Mathlib.Order.WellFounded

/-!
# What a machine must come to

Some actions are the work of the machine, the others happen to it.  A goal is
inevitable when every run comes to it in which the work goes on, in whatever
order: until then some work can always be done.  The rule asks for a measure
in a well-founded order that the work makes smaller and that nothing else
changes.  Where a measure is a number, it bounds the work that can be done
before the goal.
-/

namespace CinderHTTP

namespace Machine

section

variable {State Action : Type*} (machine : Machine State Action)

variable {machine} in
theorem execute_cons {state after : State} {action : Action}
    {actions : List Action}
    (executed : machine.execute state (action :: actions) = some after) :
    ∃ between, machine.next state action = some between ∧
      machine.execute between actions = some after := by
  simp only [execute, executeBy, if_true] at executed
  exact Option.bind_eq_some_iff.mp executed

variable {machine} in
theorem execute_of_step {state between after : State} {action : Action}
    {actions : List Action}
    (stepped : machine.next state action = some between)
    (executed : machine.execute between actions = some after) :
    machine.execute state (action :: actions) = some after := by
  simp only [execute, executeBy, if_true, stepped, Option.bind_some]
  exact executed

/-- One action that is no work. -/
def Idles (works : Action → Prop) (state after : State) : Prop :=
  ∃ action, ¬works action ∧ machine.next state action = some after

/-- The goal is reached, or, however long nothing is done, work can be done
and all of it leads on. -/
inductive Inevitable (works : Action → Prop) (goal : State → Prop) :
    State → Prop
  | reached {state : State} : goal state → Inevitable works goal state
  | leads {state : State} :
      (∀ later, Relation.ReflTransGen (machine.Idles works) state later →
        ∃ action after, works action ∧
          machine.next later action = some after) →
      (∀ later, Relation.ReflTransGen (machine.Idles works) state later →
        ∀ action after, works action →
          machine.next later action = some after →
            Inevitable works goal after) →
      Inevitable works goal state

variable {machine}

theorem Idles.keeps {works : Action → Prop} {state later : State}
    {Measure : Type*} {holds : State → Prop} {measure : State → Measure}
    (idle : ∀ before action after, holds before → ¬works action →
      machine.next before action = some after →
        holds after ∧ measure after = measure before)
    (held : holds state)
    (idles : Relation.ReflTransGen (machine.Idles works) state later) :
    holds later ∧ measure later = measure state := by
  induction idles with
  | refl => exact ⟨held, rfl⟩
  | tail _ stepped induction =>
      obtain ⟨action, unworked, moved⟩ := stepped
      obtain ⟨kept, same⟩ :=
        idle _ action _ induction.1 unworked moved
      exact ⟨kept, same.trans induction.2⟩

/-- Work that is always possible and makes a measure smaller comes to its
goal. -/
theorem inevitable_of_measure {works : Action → Prop} {goal : State → Prop}
    {Measure : Type*} {below : Measure → Measure → Prop}
    (founded : WellFounded below) (measure : State → Measure)
    {holds : State → Prop}
    (possible : ∀ state, holds state →
      ∃ action after, works action ∧ machine.next state action = some after)
    (idle : ∀ before action after, holds before → ¬works action →
      machine.next before action = some after →
        holds after ∧ measure after = measure before)
    (work : ∀ before action after, holds before → works action →
      machine.next before action = some after →
        goal after ∨ holds after ∧ below (measure after) (measure before))
    {state : State} (held : holds state) :
    machine.Inevitable works goal state := by
  -- the induction is on the measure, and idling does not change it
  generalize size : measure state = bound
  induction bound using founded.induction generalizing state with
  | h bound induction =>
      apply Inevitable.leads
      · intro later idles
        exact possible later (Idles.keeps idle held idles).1
      · intro later idles action after worked moved
        obtain ⟨kept, same⟩ := Idles.keeps idle held idles
        rcases work later action after kept worked moved with
          done | ⟨goesOn, smaller⟩
        · exact .reached done
        · apply induction (measure after) _ goesOn rfl
          rw [← size, ← same]
          exact smaller

/-- A number that no action makes larger bounds the actions before the goal
that make it smaller. -/
theorem reaches_of_measure {helps : Action → Bool} {goal : State → Prop}
    {holds : State → Prop} (measure : State → Nat)
    (step : ∀ before action after, holds before →
      machine.next before action = some after →
        goal after ∨ holds after ∧ measure after ≤ measure before ∧
          (helps action = true → measure after < measure before))
    {state after : State} {actions : List Action} (held : holds state)
    (executed : machine.execute state actions = some after)
    (enough : measure state < actions.countP helps) :
    ∃ done rest middle, actions = done ++ rest ∧
      machine.execute state done = some middle ∧ goal middle := by
  induction actions generalizing state with
  | nil => exact absurd enough (Nat.not_lt_zero _)
  | cons action actions induction =>
      obtain ⟨between, moved, goesOn⟩ := execute_cons executed
      rcases step state action between held moved with
        done | ⟨kept, smaller, helped⟩
      · exact ⟨[action], actions, between, rfl, execute_of_step moved rfl, done⟩
      · have fewer : measure between < actions.countP helps := by
          rw [List.countP_cons] at enough
          split at enough
          · have dropped := helped ‹_›
            omega
          · omega
        obtain ⟨done, rest, middle, split, reached, final⟩ :=
          induction kept goesOn fewer
        refine ⟨action :: done, rest, middle, ?_, ?_, final⟩
        · rw [split, List.cons_append]
        · exact execute_of_step moved reached

end

end Machine

end CinderHTTP
