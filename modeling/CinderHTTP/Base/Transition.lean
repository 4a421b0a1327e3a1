import Mathlib.Tactic.TypeStar

/-!
# Machines and their runs

A machine has start states and a partial transition function, whose action
resolves all nondeterminism.  Invariants are proved for every run whose steps
satisfy a side condition, and a simulation carries the reachable states of
one machine to reachable states of another.
-/

namespace CinderHTTP

structure Machine (State Action : Type*) where
  Start : State → Prop
  next : State → Action → Option State

namespace Machine

section

variable {State Action : Type*} (machine : Machine State Action)

/-- The states of runs in which every step is allowed. -/
inductive ReachableBy (allowed : State → Action → Prop) : State → Prop
  | start {state : State} :
      machine.Start state → ReachableBy allowed state
  | step {state after : State} {action : Action} :
      ReachableBy allowed state → allowed state action →
      machine.next state action = some after → ReachableBy allowed after

/-- The states of all runs. -/
def Reachable : State → Prop :=
  machine.ReachableBy fun _ _ => True

variable {machine}

theorem Reachable.start {state : State} (initial : machine.Start state) :
    machine.Reachable state :=
  ReachableBy.start initial

theorem Reachable.step {state after : State} {action : Action}
    (reachable : machine.Reachable state)
    (stepped : machine.next state action = some after) :
    machine.Reachable after :=
  ReachableBy.step reachable trivial stepped

/-- What holds at the start and is kept by every allowed step holds in every
state of such a run. -/
theorem ReachableBy.invariant {allowed : State → Action → Prop}
    {holds : State → Prop} {state : State}
    (reachable : machine.ReachableBy allowed state)
    (initial : ∀ start, machine.Start start → holds start)
    (kept : ∀ before action after, holds before → allowed before action →
      machine.next before action = some after → holds after) :
    holds state := by
  induction reachable with
  | start started => exact initial _ started
  | step _ granted stepped induction =>
      exact kept _ _ _ induction granted stepped

theorem Reachable.invariant {holds : State → Prop} {state : State}
    (reachable : machine.Reachable state)
    (initial : ∀ start, machine.Start start → holds start)
    (kept : ∀ before action after, holds before →
      machine.next before action = some after → holds after) :
    holds state :=
  ReachableBy.invariant reachable initial
    fun before action after held _ stepped =>
      kept before action after held stepped

theorem ReachableBy.reachable {allowed : State → Action → Prop}
    {state : State} (reachable : machine.ReachableBy allowed state) :
    machine.Reachable state := by
  induction reachable with
  | start started => exact .start started
  | step _ _ stepped induction => exact induction.step stepped

/-- Where an invariant of its steps holds, a condition may be replaced by one
that follows from it. -/
theorem ReachableBy.weaken {allowed granted : State → Action → Prop}
    {holds : State → Prop} {state : State}
    (reachable : machine.ReachableBy allowed state)
    (initial : ∀ start, machine.Start start → holds start)
    (kept : ∀ before action after, holds before → allowed before action →
      machine.next before action = some after → holds after)
    (implied : ∀ before action, holds before → allowed before action →
      granted before action) :
    machine.ReachableBy granted state := by
  have both : holds state ∧ machine.ReachableBy granted state := by
    apply reachable.invariant
    · exact fun start started => ⟨initial start started, .start started⟩
    · intro before action after both permitted stepped
      exact ⟨kept before action after both.1 permitted stepped,
        both.2.step (implied before action both.1 permitted) stepped⟩
  exact both.2

/-- Two conditions on the steps that agree along the runs of the first allow
the same runs. -/
theorem reachableBy_iff {allowed granted : State → Action → Prop}
    {holds : State → Prop} {state : State}
    (initial : ∀ start, machine.Start start → holds start)
    (kept : ∀ before action after, holds before → allowed before action →
      machine.next before action = some after → holds after)
    (agree : ∀ before action, holds before →
      (allowed before action ↔ granted before action)) :
    machine.ReachableBy allowed state ↔
      machine.ReachableBy granted state := by
  constructor
  · intro reachable
    apply reachable.weaken initial kept
    intro before action held permitted
    exact (agree before action held).mp permitted
  · intro reachable
    apply reachable.weaken initial
    · intro before action after held permitted stepped
      have permitted := (agree before action held).mpr permitted
      exact kept before action after held permitted stepped
    · intro before action held permitted
      exact (agree before action held).mpr permitted

variable (machine) in
/-- The states that a run can go on to. -/
def Leads (first : State) : State → Prop :=
  Reachable { machine with Start := fun state => state = first }

theorem Leads.invariant {holds : State → Prop} {first state : State}
    (leads : machine.Leads first state) (initial : holds first)
    (kept : ∀ before action after, holds before →
      machine.next before action = some after → holds after) :
    holds state := by
  apply Reachable.invariant leads
  · intro start started
    cases started
    exact initial
  · exact kept

variable (machine) in
/-- The state behind a sequence of actions that are all allowed. -/
def executeBy (allowed : State → Action → Prop)
    [∀ state action, Decidable (allowed state action)] (state : State) :
    List Action → Option State
  | [] => some state
  | action :: actions =>
      if allowed state action then
        (machine.next state action).bind fun after =>
          executeBy allowed after actions
      else none

theorem ReachableBy.execute {allowed : State → Action → Prop}
    [∀ state action, Decidable (allowed state action)]
    {state after : State} {actions : List Action}
    (reachable : machine.ReachableBy allowed state)
    (executed : machine.executeBy allowed state actions = some after) :
    machine.ReachableBy allowed after := by
  induction actions generalizing state with
  | nil =>
      cases executed
      exact reachable
  | cons action actions induction =>
      rw [executeBy] at executed
      split at executed
      · rename_i granted
        obtain ⟨between, stepped, rest⟩ :=
          Option.bind_eq_some_iff.mp executed
        exact induction (reachable.step granted stepped) rest
      · cases executed

variable (machine) in
/-- The state behind a sequence of actions. -/
def execute (state : State) (actions : List Action) : Option State :=
  machine.executeBy (fun _ _ => True) state actions

theorem Reachable.execute {state after : State} {actions : List Action}
    (reachable : machine.Reachable state)
    (executed : machine.execute state actions = some after) :
    machine.Reachable after :=
  ReachableBy.execute reachable executed

end

/-! ## Simulation -/

section

variable {Concrete ConcreteAction Abstract AbstractAction : Type*}
  {concrete : Machine Concrete ConcreteAction}
  {abstract : Machine Abstract AbstractAction}
  {related : Concrete → Abstract → Prop}

/-- Every step of the concrete machine is a step of the abstract one between
related states. -/
structure Simulates (concrete : Machine Concrete ConcreteAction)
    (abstract : Machine Abstract AbstractAction)
    (related : Concrete → Abstract → Prop) : Prop where
  start : ∀ state, concrete.Start state →
    ∃ image, abstract.Start image ∧ related state image
  step : ∀ state action after image, related state image →
    concrete.next state action = some after →
    ∃ imageAction imageAfter,
      abstract.next image imageAction = some imageAfter ∧
        related after imageAfter

theorem Simulates.reachable
    (simulates : Simulates concrete abstract related) {state : Concrete}
    (reachable : concrete.Reachable state) :
    ∃ image, abstract.Reachable image ∧ related state image := by
  apply Reachable.invariant reachable
  · intro start started
    obtain ⟨image, initial, linked⟩ := simulates.start start started
    exact ⟨image, .start initial, linked⟩
  · intro before action after held stepped
    obtain ⟨image, reached, linked⟩ := held
    obtain ⟨_, imageAfter, imageStep, linkedAfter⟩ :=
      simulates.step before action after image linked stepped
    exact ⟨imageAfter, reached.step imageStep, linkedAfter⟩

end

/-! ## History variables -/

section

variable {State Action Record : Type*} (machine : Machine State Action)
  (first : Record) (update : State → Action → Record → Record)

/-- The machine with a variable that its steps write and never read. -/
def recording : Machine (State × Record) Action :=
  { Start := fun pair => machine.Start pair.1 ∧ pair.2 = first
    next := fun pair action =>
      (machine.next pair.1 action).map fun after =>
        (after, update pair.1 action pair.2) }

variable {machine first update}

/-- An invariant of the machine and of its history variable. -/
theorem Reachable.recorded {state : State} {record : Record}
    (reachable : (machine.recording first update).Reachable (state, record))
    (holds : State → Record → Prop)
    (initial : ∀ start, machine.Start start → holds start first)
    (kept : ∀ before action after record, holds before record →
      machine.next before action = some after →
      holds after (update before action record)) :
    holds state record := by
  let both := fun pair : State × Record => holds pair.1 pair.2
  have invariant : both (state, record) := by
    refine reachable.invariant ?_ ?_
    · rintro ⟨start, _⟩ ⟨started, rfl⟩
      exact initial start started
    · rintro ⟨before, record⟩ action after held stepped
      obtain ⟨later, moved, rfl⟩ := Option.map_eq_some_iff.mp stepped
      exact kept before action later record held moved
  exact invariant

/-- A history variable restricts no run. -/
theorem recording_reachable_iff {state : State} :
    (∃ record, (machine.recording first update).Reachable (state, record)) ↔
      machine.Reachable state := by
  constructor
  · rintro ⟨record, reachable⟩
    apply reachable.recorded fun state _ => machine.Reachable state
    · exact fun start started => .start started
    · exact fun before action after _ held stepped => held.step stepped
  · intro reachable
    apply reachable.invariant
    · exact fun start started => ⟨first, .start ⟨started, rfl⟩⟩
    · rintro before action after ⟨record, reached⟩ stepped
      have moved : (machine.recording first update).next (before, record)
          action = some (after, update before action record) := by
        simp only [recording, stepped, Option.map_some]
      exact ⟨_, reached.step moved⟩

end

end Machine

end CinderHTTP
