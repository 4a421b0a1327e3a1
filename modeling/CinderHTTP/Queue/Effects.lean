import CinderHTTP.Queue.System

/-!
# What a step of the queue system does

The sections of a call are classified by what they do to the queue, and the
steps by what they do to the queue, to the logs and to the operations in
progress.  All that is proved about runs rests on this classification.
-/

namespace CinderHTTP

/-! ## Sections -/

inductive PushSection (queue : ConnectionQueue) (clientFd : Int) :
    SectionEnd QueueStatus × ConnectionQueue → Prop
  | waits : PushSection queue clientFd (.waits, queue)
  | refused {status : QueueStatus} (refusal : status ≠ .ok) :
      PushSection queue clientFd (.returns status, queue)
  | taken (room : queue.count < queue.capacity)
      (accepting : queue.shuttingDown = false) :
      PushSection queue clientFd
        (.returns .ok, { queue with toRing := queue.toRing.push clientFd })

theorem connectionQueuePush_section (queue : ConnectionQueue)
    (clientFd : Int) (aborted clock : Bool) :
    PushSection queue clientFd
      (connectionQueuePush queue clientFd aborted clock) := by
  unfold connectionQueuePush
  split_ifs with full isAborted isClock isClosing
  · exact .refused (by decide)
  · exact .refused (by decide)
  · exact .waits
  · exact .refused (by decide)
  · have accepting : queue.shuttingDown = false := by
      simpa using isClosing
    apply PushSection.taken _ accepting
    by_contra reached
    exact full ⟨Nat.le_of_not_lt reached, accepting⟩

inductive PopSection (queue : ConnectionQueue) :
    SectionEnd (QueueStatus × Option Int) × ConnectionQueue → Prop
  | waits : PopSection queue (.waits, queue)
  | drained (empty : queue.count = 0)
      (closing : queue.shuttingDown = true) :
      PopSection queue (.returns (.shutdown, none), queue)
  | taken (filled : 0 < queue.count) :
      PopSection queue (.returns (.ok, some (queue.cell queue.head)),
        { queue with toRing := queue.toRing.pop })

theorem connectionQueuePop_section (queue : ConnectionQueue) :
    PopSection queue (connectionQueuePop queue) := by
  unfold connectionQueuePop
  split_ifs with idle drained
  · exact .waits
  · exact .drained drained.1 drained.2
  · apply PopSection.taken
    by_contra none
    have empty : queue.count = 0 := Nat.eq_zero_of_not_pos none
    cases closing : queue.shuttingDown with
    | false => exact idle ⟨empty, closing⟩
    | true => exact drained ⟨empty, closing⟩

/-! ## Operations -/

/-- What a thread is doing, whether or not it sleeps. -/
inductive Operation where
  | idle
  | push (clientFd : Int)
  | pop
  deriving DecidableEq, Repr

def QueueCall.operation : QueueCall → Operation
  | .idle => .idle
  | .push clientFd _ => .push clientFd
  | .pop _ => .pop

theorem QueueCall.wake_operation (call : QueueCall) :
    call.wake.operation = call.operation := by
  cases call with
  | idle => rfl
  | push clientFd waiting => cases waiting <;> rfl
  | pop waiting => cases waiting <;> rfl

theorem condSignal_operations {sleeps : QueueCall → Bool}
    {chosen : List Nat} {calls woken : List QueueCall}
    (signalled : condSignal sleeps chosen calls = some woken) :
    woken.map QueueCall.operation = calls.map QueueCall.operation := by
  unfold condSignal at signalled
  split at signalled
  · cases signalled
  · cases signalled
    apply List.ext_getElem?
    intro thread
    rw [List.getElem?_map, List.getElem?_mapIdx, List.getElem?_map,
      Option.map_map]
    congr 1
    funext call
    simp only [Function.comp_apply]
    split
    · exact call.wake_operation
    · rfl

theorem condBroadcast_operations (calls : List QueueCall) :
    (condBroadcast calls).map QueueCall.operation =
      calls.map QueueCall.operation := by
  simp only [condBroadcast, List.map_map]
  apply List.map_congr_left
  intro call _
  exact call.wake_operation

namespace QueueSystem

def operations (system : QueueSystem) : List Operation :=
  system.calls.map QueueCall.operation

theorem operations_of_call {system : QueueSystem} {thread : Nat}
    {call : QueueCall} (found : system.calls[thread]? = some call) :
    system.operations[thread]? = some call.operation := by
  simp [operations, found]

@[simp] theorem setCall_operations (system : QueueSystem) (thread : Nat)
    (call : QueueCall) :
    (system.setCall thread call).operations =
      system.operations.set thread call.operation := by
  simp [operations, setCall, List.map_set]

theorem setCall_same {system : QueueSystem} {thread : Nat}
    {call : QueueCall} {operation : Operation}
    (found : system.operations[thread]? = some operation)
    (same : call.operation = operation) :
    (system.setCall thread call).operations = system.operations := by
  rw [setCall_operations, same]
  obtain ⟨bound, value⟩ := List.getElem?_eq_some_iff.mp found
  rw [← value, List.set_getElem_self]

/-! ## Effects -/

/-- The queue and the logs are as before. -/
structure Unchanged (system after : QueueSystem) : Prop where
  queue : after.queue = system.queue
  pushed : after.pushed = system.pushed
  popped : after.popped = system.popped

theorem Unchanged.contents {system after : QueueSystem}
    (unchanged : Unchanged system after) :
    after.queue.contents = system.queue.contents := by
  rw [unchanged.queue]

inductive Effect (system after : QueueSystem) :
    QueueAction → Option QueueReturn → Prop
  | enteredPush {thread : Nat} {clientFd : Int}
      (unchanged : Unchanged system after) (nonnegative : 0 ≤ clientFd)
      (idle : system.operations[thread]? = some .idle)
      (operations : after.operations =
        system.operations.set thread (.push clientFd)) :
      Effect system after (.callPush thread clientFd) none
  | invalid {thread : Nat} {clientFd : Int} (negative : clientFd < 0)
      (same : after = system) :
      Effect system after (.callPush thread clientFd)
        (some (.push thread clientFd .error))
  | enteredPop {thread : Nat} (unchanged : Unchanged system after)
      (idle : system.operations[thread]? = some .idle)
      (operations : after.operations = system.operations.set thread .pop) :
      Effect system after (.callPop thread) none
  | continued {action : QueueAction} (inside : action.inside = true)
      (unchanged : Unchanged system after)
      (same : after.operations = system.operations) :
      Effect system after action none
  | pushRefused {action : QueueAction} {thread : Nat} {clientFd : Int}
      {status : QueueStatus} (inside : action.inside = true)
      (unchanged : Unchanged system after) (refusal : status ≠ .ok)
      (calling : system.operations[thread]? = some (.push clientFd))
      (operations : after.operations = system.operations.set thread .idle) :
      Effect system after action (some (.push thread clientFd status))
  | popRefused {action : QueueAction} {thread : Nat} {status : QueueStatus}
      (inside : action.inside = true)
      (unchanged : Unchanged system after) (refusal : status ≠ .ok)
      (drained : status = .shutdown →
        system.queue.count = 0 ∧ system.queue.shuttingDown = true)
      (calling : system.operations[thread]? = some .pop)
      (operations : after.operations = system.operations.set thread .idle) :
      Effect system after action (some (.pop thread status none))
  | pushed {action : QueueAction} {thread : Nat} {clientFd : Int}
      (inside : action.inside = true)
      (room : system.queue.count < system.queue.capacity)
      (accepting : system.queue.shuttingDown = false)
      (queue : after.queue =
        { system.queue with toRing := system.queue.toRing.push clientFd })
      (pushed : after.pushed = system.pushed ++ [clientFd])
      (popped : after.popped = system.popped)
      (calling : system.operations[thread]? = some (.push clientFd))
      (operations : after.operations = system.operations.set thread .idle) :
      Effect system after action (some (.push thread clientFd .ok))
  | popped {action : QueueAction} {thread : Nat}
      (inside : action.inside = true) (filled : 0 < system.queue.count)
      (queue : after.queue =
        { system.queue with toRing := system.queue.toRing.pop })
      (pushed : after.pushed = system.pushed)
      (popped : after.popped =
        system.popped ++ [system.queue.cell system.queue.head])
      (calling : system.operations[thread]? = some .pop)
      (operations : after.operations = system.operations.set thread .idle) :
      Effect system after action
        (some (.pop thread .ok (some (system.queue.cell system.queue.head))))
  | closed (queue : after.queue = connectionQueueShutdown system.queue)
      (pushed : after.pushed = system.pushed)
      (popped : after.popped = system.popped)
      (same : after.operations = system.operations) :
      Effect system after .shutdown none

theorem setCall_unchanged (system : QueueSystem) (thread : Nat)
    (call : QueueCall) : Unchanged system (system.setCall thread call) :=
  ⟨rfl, rfl, rfl⟩

theorem fail_effect {system after : QueueSystem} {thread : Nat}
    {action : QueueAction} {call : QueueCall}
    {answer : Option QueueReturn} (inside : action.inside = true)
    (found : system.calls[thread]? = some call)
    (stepped : system.fail thread call = some (after, answer)) :
    Effect system after action answer := by
  have calling := operations_of_call found
  have unchanged := system.setCall_unchanged thread .idle
  cases call with
  | idle => cases stepped
  | push clientFd waiting =>
      cases stepped
      exact .pushRefused inside unchanged (by decide) calling
        (setCall_operations ..)
  | pop waiting =>
      cases stepped
      exact .popRefused inside unchanged (by decide) (by simp) calling
        (setCall_operations ..)

theorem runPush_effect {system after : QueueSystem} {thread : Nat}
    {action : QueueAction} {clientFd : Int} {aborted clock : Bool}
    {chosen : List Nat} {answer : Option QueueReturn}
    (inside : action.inside = true)
    (calling : system.operations[thread]? = some (.push clientFd))
    (stepped : system.runPush thread clientFd aborted clock chosen =
      some (after, answer)) :
    Effect system after action answer := by
  have unchanged := system.setCall_unchanged thread
  have possible := connectionQueuePush_section system.queue clientFd
    aborted clock
  unfold runPush at stepped
  generalize connectionQueuePush system.queue clientFd aborted clock =
    outcome at stepped possible
  cases possible with
  | waits =>
      cases stepped
      exact .continued inside (unchanged _) (setCall_same calling rfl)
  | refused refusal =>
      rename_i status
      cases status with
      | ok => exact absurd rfl refusal
      | shutdown =>
          cases stepped
          exact .pushRefused inside (unchanged .idle) refusal calling
            (setCall_operations ..)
      | error =>
          cases stepped
          exact .pushRefused inside (unchanged .idle) refusal calling
            (setCall_operations ..)
  | taken room accepting =>
      obtain ⟨calls, signalled, finished⟩ :=
        Option.map_eq_some_iff.mp stepped
      cases finished
      have operations := (condSignal_operations signalled).trans
        (system.setCall_operations thread .idle)
      exact .pushed inside room accepting rfl rfl rfl calling operations

theorem runPop_effect {system after : QueueSystem} {thread : Nat}
    {action : QueueAction} {chosen : List Nat}
    {answer : Option QueueReturn} (inside : action.inside = true)
    (calling : system.operations[thread]? = some .pop)
    (stepped : system.runPop thread chosen = some (after, answer)) :
    Effect system after action answer := by
  have unchanged := system.setCall_unchanged thread
  have possible := connectionQueuePop_section system.queue
  unfold runPop at stepped
  generalize connectionQueuePop system.queue = outcome at stepped possible
  cases possible with
  | waits =>
      cases stepped
      exact .continued inside (unchanged _) (setCall_same calling rfl)
  | drained empty closing =>
      cases stepped
      exact .popRefused inside (unchanged .idle) (by decide)
        (fun _ => ⟨empty, closing⟩) calling (setCall_operations ..)
  | taken filled =>
      obtain ⟨calls, signalled, finished⟩ :=
        Option.map_eq_some_iff.mp stepped
      cases finished
      have operations := (condSignal_operations signalled).trans
        (system.setCall_operations thread .idle)
      exact .popped inside filled rfl rfl rfl calling operations

/-- Every step has one of the effects. -/
theorem step_effect {system after : QueueSystem} {action : QueueAction}
    {answer : Option QueueReturn}
    (stepped : system.step action = some (after, answer)) :
    Effect system after action answer := by
  have unchanged := system.setCall_unchanged
  cases action with
  | callPush thread clientFd =>
      simp only [step] at stepped
      split at stepped
      · rename_i found
        split at stepped
        · rename_i negative
          cases stepped
          exact .invalid negative rfl
        · rename_i valid
          cases stepped
          exact .enteredPush (unchanged _ _) (Int.not_lt.mp valid)
            (operations_of_call found) (setCall_operations ..)
      · cases stepped
  | callPop thread =>
      simp only [step] at stepped
      split at stepped
      · rename_i found
        cases stepped
        exact .enteredPop (unchanged _ _) (operations_of_call found)
          (setCall_operations ..)
      · cases stepped
  | lockFails thread =>
      simp only [step] at stepped
      split at stepped
      · exact fail_effect rfl ‹_› stepped
      · exact fail_effect rfl ‹_› stepped
      · cases stepped
  | pushSection thread aborted clock chosen =>
      simp only [step] at stepped
      split at stepped
      · exact runPush_effect rfl (operations_of_call ‹_›) stepped
      · exact runPush_effect rfl (operations_of_call ‹_›) stepped
      · cases stepped
  | popSection thread chosen =>
      simp only [step] at stepped
      split at stepped
      · exact runPop_effect rfl (operations_of_call ‹_›) stepped
      · exact runPop_effect rfl (operations_of_call ‹_›) stepped
      · cases stepped
  | wakeUp thread =>
      simp only [step] at stepped
      split at stepped
      · rename_i found
        cases stepped
        exact .continued rfl (unchanged _ _)
          (setCall_same (operations_of_call found) rfl)
      · rename_i found
        cases stepped
        exact .continued rfl (unchanged _ _)
          (setCall_same (operations_of_call found) rfl)
      · cases stepped
  | waitFails thread =>
      simp only [step] at stepped
      split at stepped
      · exact fail_effect rfl ‹_› stepped
      · exact fail_effect rfl ‹_› stepped
      · cases stepped
  | shutdown =>
      cases stepped
      exact .closed rfl rfl rfl (condBroadcast_operations _)

theorem Effect.of_callPush {system after : QueueSystem} {thread : Nat}
    {clientFd : Int} {answer : Option QueueReturn}
    (effect : Effect system after (.callPush thread clientFd) answer) :
    Unchanged system after ∧
      ((answer = none ∧ after.operations =
          system.operations.set thread (.push clientFd)) ∨
        (answer = some (.push thread clientFd .error) ∧
          after.operations = system.operations)) := by
  cases effect with
  | enteredPush unchanged nonnegative idle operations =>
      exact ⟨unchanged, .inl ⟨rfl, operations⟩⟩
  | invalid negative same =>
      subst same
      exact ⟨⟨rfl, rfl, rfl⟩, .inr ⟨rfl, rfl⟩⟩
  | continued inside unchanged same => cases inside
  | pushRefused inside unchanged refusal calling operations => cases inside
  | popRefused inside unchanged refusal drained calling operations =>
      cases inside
  | pushed inside room accepting queue pushed popped calling operations =>
      cases inside
  | popped inside filled queue pushed popped calling operations =>
      cases inside

theorem Effect.of_callPop {system after : QueueSystem} {thread : Nat}
    {answer : Option QueueReturn}
    (effect : Effect system after (.callPop thread) answer) :
    Unchanged system after ∧
      after.operations = system.operations.set thread .pop := by
  cases effect with
  | enteredPop unchanged idle operations => exact ⟨unchanged, operations⟩
  | continued inside unchanged same => cases inside
  | pushRefused inside unchanged refusal calling operations => cases inside
  | popRefused inside unchanged refusal drained calling operations =>
      cases inside
  | pushed inside room accepting queue pushed popped calling operations =>
      cases inside
  | popped inside filled queue pushed popped calling operations =>
      cases inside

end QueueSystem

end CinderHTTP
