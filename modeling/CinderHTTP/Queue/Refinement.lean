import CinderHTTP.Base.BoundedFifo
import CinderHTTP.Queue.Effects

/-!
# The connection queue is a bounded queue

The ring of `connection_queue.c` implements the abstract bounded queue: the
cells from the head on are its contents, a successful push or pop is a step
of the abstract machine, and every other step leaves it alone.
-/

namespace CinderHTTP

namespace QueueSystem

/-! ## The invariant of the ring -/

/-- The ring is in order and holds descriptors only. -/
structure Invariant (capacity : Nat) (system : QueueSystem) : Prop where
  valid : system.queue.toRing.Valid
  capacity : system.queue.capacity = capacity
  calls : ∀ clientFd, .push clientFd ∈ system.operations → 0 ≤ clientFd
  pushed : ∀ clientFd ∈ system.pushed, 0 ≤ clientFd

theorem start_invariant {capacity : Nat} {queue : ConnectionQueue}
    (threads : Nat)
    (created : connectionQueueInit capacity true = some queue) :
    (start queue threads).Invariant capacity := by
  unfold connectionQueueInit at created
  split at created
  · cases created
  · rename_i usable
    cases created
    constructor
    · apply Ring.valid_empty
      exact Nat.pos_of_ne_zero fun zero => usable (.inl zero)
    · rfl
    · intro clientFd member
      simp [operations, start, QueueCall.operation] at member
    · intro clientFd member
      cases member

theorem Invariant.of_unchanged {capacity : Nat} {system after : QueueSystem}
    (invariant : system.Invariant capacity)
    (unchanged : Unchanged system after)
    (calls : ∀ clientFd, .push clientFd ∈ after.operations → 0 ≤ clientFd) :
    after.Invariant capacity := by
  constructor
  · rw [unchanged.queue]
    exact invariant.valid
  · rw [unchanged.queue]
    exact invariant.capacity
  · exact calls
  · rw [unchanged.pushed]
    exact invariant.pushed

theorem Invariant.calls_idle {capacity thread : Nat}
    {system after : QueueSystem} (invariant : system.Invariant capacity)
    (operations : after.operations = system.operations.set thread .idle) :
    ∀ clientFd, .push clientFd ∈ after.operations → 0 ≤ clientFd := by
  intro clientFd member
  rw [operations] at member
  cases List.mem_or_eq_of_mem_set member with
  | inl old => exact invariant.calls clientFd old
  | inr new => cases new

theorem Invariant.effect {capacity : Nat} {system after : QueueSystem}
    {action : QueueAction} {answer : Option QueueReturn}
    (invariant : system.Invariant capacity)
    (effect : Effect system after action answer) : after.Invariant capacity := by
  cases effect with
  | enteredPush unchanged nonnegative idle operations =>
      apply invariant.of_unchanged unchanged
      intro clientFd member
      rw [operations] at member
      cases List.mem_or_eq_of_mem_set member with
      | inl old => exact invariant.calls clientFd old
      | inr new =>
          cases new
          exact nonnegative
  | invalid negative same => exact same ▸ invariant
  | enteredPop unchanged idle operations =>
      apply invariant.of_unchanged unchanged
      intro clientFd member
      rw [operations] at member
      cases List.mem_or_eq_of_mem_set member with
      | inl old => exact invariant.calls clientFd old
      | inr new => cases new
  | continued inside unchanged same =>
      apply invariant.of_unchanged unchanged
      rw [same]
      exact invariant.calls
  | pushRefused inside unchanged refusal calling operations =>
      exact invariant.of_unchanged unchanged
        (invariant.calls_idle operations)
  | popRefused inside unchanged refusal drained calling operations =>
      exact invariant.of_unchanged unchanged
        (invariant.calls_idle operations)
  | pushed inside room accepting queue pushed popped calling operations =>
      rename_i thread entered
      constructor
      · rw [queue]
        exact invariant.valid.push room entered
      · rw [queue]
        exact invariant.capacity
      · exact invariant.calls_idle operations
      · intro clientFd member
        rw [pushed] at member
        cases List.mem_append.mp member with
        | inl old => exact invariant.pushed clientFd old
        | inr new =>
            cases List.mem_singleton.mp new
            exact invariant.calls entered (List.mem_of_getElem? calling)
  | popped inside filled queue pushed popped calling operations =>
      constructor
      · rw [queue]
        exact invariant.valid.pop filled
      · rw [queue]
        exact invariant.capacity
      · exact invariant.calls_idle operations
      · rw [pushed]
        exact invariant.pushed
  | closed queue pushed popped same =>
      constructor
      · rw [queue]
        exact invariant.valid
      · rw [queue]
        exact invariant.capacity
      · rw [same]
        exact invariant.calls
      · rw [pushed]
        exact invariant.pushed

/-! ## The abstract queue -/

/-- The abstract queue that a system stands for. -/
def abstraction (system : QueueSystem) : Fifo Int :=
  { contents := system.queue.contents
    closed := system.queue.shuttingDown
    entered := system.pushed
    departed := system.popped }

theorem Unchanged.abstraction_eq {system after : QueueSystem}
    (unchanged : Unchanged system after) :
    after.abstraction = system.abstraction := by
  simp only [abstraction, unchanged.queue, unchanged.pushed,
    unchanged.popped]

/-- Every effect is a step of the abstract queue. -/
theorem Effect.abstract_step {capacity : Nat} {system after : QueueSystem}
    {action : QueueAction} {answer : Option QueueReturn}
    (effect : Effect system after action answer)
    (invariant : system.Invariant capacity) :
    ∃ action, system.abstraction.next capacity action =
      some after.abstraction := by
  cases effect with
  | enteredPush unchanged nonnegative idle operations =>
      exact ⟨.rest, congrArg some unchanged.abstraction_eq.symm⟩
  | invalid negative same => exact ⟨.rest, same ▸ rfl⟩
  | enteredPop unchanged idle operations =>
      exact ⟨.rest, congrArg some unchanged.abstraction_eq.symm⟩
  | continued inside unchanged same =>
      exact ⟨.rest, congrArg some unchanged.abstraction_eq.symm⟩
  | pushRefused inside unchanged refusal calling operations =>
      exact ⟨.rest, congrArg some unchanged.abstraction_eq.symm⟩
  | popRefused inside unchanged refusal drained calling operations =>
      exact ⟨.rest, congrArg some unchanged.abstraction_eq.symm⟩
  | pushed inside room accepting queue pushed popped calling operations =>
      rename_i thread clientFd
      refine ⟨.enter clientFd, ?_⟩
      have bound : system.queue.contents.length < capacity := by
        rw [Ring.contents_length, ← invariant.capacity]
        exact room
      simp only [Fifo.next, abstraction, accepting, bound, and_self,
        if_true, queue, pushed, popped]
      rw [invariant.valid.push_contents room]
  | popped inside filled queue pushed popped calling operations =>
      refine ⟨.depart, ?_⟩
      simp only [Fifo.next, abstraction,
        invariant.valid.pop_contents filled, queue, pushed, popped]
  | closed queue pushed popped same =>
      refine ⟨.close, ?_⟩
      simp only [Fifo.next, abstraction, queue, pushed, popped]
      rfl

/-- A system in order that has lost, doubled or reordered nothing. -/
structure Sound (capacity : Nat) (system : QueueSystem) : Prop where
  invariant : system.Invariant capacity
  ordered : system.abstraction.Ordered capacity

theorem Sound.effect {capacity : Nat} {system after : QueueSystem}
    {action : QueueAction} {answer : Option QueueReturn}
    (sound : system.Sound capacity)
    (effect : Effect system after action answer) :
    after.Sound capacity := by
  obtain ⟨abstractAction, abstractStep⟩ :=
    effect.abstract_step sound.invariant
  exact ⟨sound.invariant.effect effect, sound.ordered.next abstractStep⟩

theorem start_sound {capacity : Nat} {queue : ConnectionQueue}
    (threads : Nat)
    (created : connectionQueueInit capacity true = some queue) :
    (start queue threads).Sound capacity := by
  refine ⟨start_invariant threads created, ?_⟩
  unfold connectionQueueInit at created
  split at created
  · cases created
  · cases created
    exact ⟨rfl, Nat.zero_le _⟩

/-- A system in order, and the abstract queue it stands for. -/
structure Implements (capacity : Nat) (system : QueueSystem)
    (fifo : Fifo Int) : Prop where
  invariant : system.Invariant capacity
  image : fifo = system.abstraction

theorem simulates_fifo (capacity : Nat) :
    Machine.Simulates (machine capacity) (Fifo.machine capacity)
      (Implements capacity) := by
  constructor
  · intro system started
    obtain ⟨queue, threads, created, same⟩ := started
    refine ⟨system.abstraction, ?_, ?_, rfl⟩
    · unfold connectionQueueInit at created
      split at created
      · cases created
      · cases created
        rw [same]
        rfl
    · rw [same]
      exact start_invariant threads created
  · intro system action after fifo implements stepped
    obtain ⟨⟨_, answer⟩, moved, rfl⟩ := Option.map_eq_some_iff.mp stepped
    have effect := step_effect moved
    obtain ⟨imageAction, imageStep⟩ :=
      effect.abstract_step implements.invariant
    rw [implements.image]
    exact ⟨imageAction, _, imageStep,
      implements.invariant.effect effect, rfl⟩

/-! ## Destruction -/

theorem closeQueued_eq {ring : Ring Int} {index remaining : Nat}
    (fits : index + remaining ≤ ring.capacity)
    (descriptors : ∀ place ∈ List.range' index remaining,
      0 ≤ ring.cell ((ring.head + place) % ring.capacity)) :
    closeQueued ring index remaining =
      (List.range' index remaining).map fun place =>
        ring.cell ((ring.head + place) % ring.capacity) := by
  induction remaining generalizing ring index with
  | zero => rfl
  | succ remaining induction =>
      have first := descriptors index (by simp [List.range'])
      -- The cell that is overwritten is none of those still to come.
      have kept : ∀ place ∈ List.range' (index + 1) remaining,
          Ring.cell { ring with
            items := ring.items.set
              ((ring.head + index) % ring.capacity) (-1) }
            ((ring.head + place) % ring.capacity) =
          ring.cell ((ring.head + place) % ring.capacity) := by
        intro place member
        apply Ring.cell_set_ne
        intro same
        have bounds := List.mem_range'_1.mp member
        have equal := Ring.place_injective (by omega) (by omega) same
        omega
      simp only [closeQueued, ge_iff_le, first, if_true, List.range'_succ,
        List.map_cons]
      congr 1
      rw [induction]
      · exact List.map_congr_left kept
      · change index + 1 + remaining ≤ ring.capacity
        omega
      · intro place member
        change 0 ≤ Ring.cell _ ((ring.head + place) % ring.capacity)
        rw [kept place member]
        apply descriptors
        rw [List.range'_succ]
        exact List.mem_cons_of_mem _ member

/-- Destroying a queue of descriptors closes its contents. -/
theorem connectionQueueDestroy_closes {queue : ConnectionQueue}
    (valid : queue.toRing.Valid)
    (descriptors : ∀ clientFd ∈ queue.contents, 0 ≤ clientFd) :
    (connectionQueueDestroy queue).1 = queue.contents := by
  have loop : closeQueued queue.toRing 0 queue.count = queue.contents := by
    rw [Ring.contents, List.range_eq_range']
    apply closeQueued_eq
    · rw [Nat.zero_add]
      exact valid.count
    · intro place member
      apply descriptors
      rw [Ring.contents, List.range_eq_range']
      exact List.mem_map_of_mem member
  unfold connectionQueueDestroy
  dsimp only
  split
  · exact loop
  · rename_i empty
    have none : queue.count = 0 := Nat.eq_zero_of_not_pos empty
    rw [← loop, none]
    rfl

/-! ## Safety -/

/-- What holds in every reachable state.  The properties of calls speak about
the step that the state makes next. -/
structure Safe (capacity : Nat) (system : QueueSystem) : Prop where
  head : system.queue.head < capacity
  tail : system.queue.tail < capacity
  count : system.queue.count ≤ capacity
  wrap : system.queue.tail =
    (system.queue.head + system.queue.count) % capacity
  /-- Nothing is lost, doubled or reordered. -/
  order : system.popped ++ (List.range system.queue.count).map (fun index =>
      system.queue.cell ((system.queue.head + index) % capacity)) =
    system.pushed
  /-- Only a call that ends with `CONNECTION_QUEUE_OK` moves the ring. -/
  unmoved : ∀ action after answer,
    system.step action = some (after, answer) →
    (∀ thread clientFd, answer ≠ some (.push thread clientFd .ok)) →
    (∀ thread stored, answer ≠ some (.pop thread .ok stored)) →
    after.queue.toRing = system.queue.toRing
  closing : ∀ after answer, system.step .shutdown = some (after, answer) →
    after.queue.shuttingDown = true
  /-- A shutdown lasts, and no push succeeds behind it. -/
  closed : system.queue.shuttingDown = true → ∀ action after answer,
    system.step action = some (after, answer) →
    after.queue.shuttingDown = true ∧
      ∀ thread clientFd, answer ≠ some (.push thread clientFd .ok)
  drained : ∀ action after thread stored,
    system.step action = some (after, some (.pop thread .shutdown stored)) →
    system.queue.count = 0 ∧ system.queue.shuttingDown = true
  destroyed : (connectionQueueDestroy system.queue).1 =
    (List.range system.queue.count).map fun index =>
      system.queue.cell ((system.queue.head + index) % capacity)

theorem Effect.unmoved {system after : QueueSystem}
    {action : QueueAction} {answer : Option QueueReturn}
    (effect : Effect system after action answer)
    (noPush : ∀ thread clientFd, answer ≠ some (.push thread clientFd .ok))
    (noPop : ∀ thread stored, answer ≠ some (.pop thread .ok stored)) :
    after.queue.toRing = system.queue.toRing := by
  cases effect with
  | enteredPush unchanged nonnegative idle operations =>
      rw [unchanged.queue]
  | invalid negative same => rw [same]
  | enteredPop unchanged idle operations => rw [unchanged.queue]
  | continued inside unchanged same => rw [unchanged.queue]
  | pushRefused inside unchanged refusal calling operations =>
      rw [unchanged.queue]
  | popRefused inside unchanged refusal drained calling operations =>
      rw [unchanged.queue]
  | pushed inside room accepting queue pushed popped calling operations =>
      exact absurd rfl (noPush _ _)
  | popped inside filled queue pushed popped calling operations =>
      exact absurd rfl (noPop _ _)
  | closed queue pushed popped same =>
      rw [queue]
      rfl

theorem Effect.closed_stays {system after : QueueSystem}
    {action : QueueAction} {answer : Option QueueReturn}
    (effect : Effect system after action answer)
    (closing : system.queue.shuttingDown = true) :
    after.queue.shuttingDown = true ∧
      ∀ thread clientFd, answer ≠ some (.push thread clientFd .ok) := by
  cases effect with
  | enteredPush unchanged nonnegative idle operations =>
      exact ⟨unchanged.queue ▸ closing, nofun⟩
  | invalid negative same => exact ⟨same ▸ closing, nofun⟩
  | enteredPop unchanged idle operations =>
      exact ⟨unchanged.queue ▸ closing, nofun⟩
  | continued inside unchanged same =>
      exact ⟨unchanged.queue ▸ closing, nofun⟩
  | pushRefused inside unchanged refusal calling operations =>
      refine ⟨unchanged.queue ▸ closing, ?_⟩
      intro thread clientFd succeeded
      cases succeeded
      exact refusal rfl
  | popRefused inside unchanged refusal drained calling operations =>
      exact ⟨unchanged.queue ▸ closing, nofun⟩
  | pushed inside room accepting queue pushed popped calling operations =>
      rw [accepting] at closing
      cases closing
  | popped inside filled queue pushed popped calling operations =>
      refine ⟨?_, nofun⟩
      rw [queue]
      exact closing
  | closed queue pushed popped same =>
      refine ⟨?_, nofun⟩
      rw [queue]
      rfl

theorem Effect.drained {system after : QueueSystem} {action : QueueAction}
    {thread : Nat} {stored : Option Int}
    (effect : Effect system after action
      (some (.pop thread .shutdown stored))) :
    system.queue.count = 0 ∧ system.queue.shuttingDown = true := by
  cases effect with
  | popRefused inside unchanged refusal drained calling operations =>
      exact drained rfl

theorem Sound.order {capacity : Nat} {system : QueueSystem}
    (sound : system.Sound capacity) :
    system.popped ++ system.queue.contents = system.pushed :=
  sound.ordered.order

/-- Destroying the queue closes what was pushed and not popped. -/
theorem Sound.destroy {capacity : Nat} {system : QueueSystem}
    (sound : system.Sound capacity) :
    (connectionQueueDestroy system.queue).1 = system.queue.contents := by
  apply connectionQueueDestroy_closes sound.invariant.valid
  intro clientFd member
  apply sound.invariant.pushed
  rw [← sound.order]
  exact List.mem_append_right _ member

theorem Sound.safe {capacity : Nat} {system : QueueSystem}
    (sound : system.Sound capacity) : system.Safe capacity := by
  have valid := sound.invariant.valid
  have destroyed := sound.destroy
  rw [← sound.invariant.capacity]
  constructor
  · exact valid.head
  · exact valid.tail_lt
  · exact valid.count
  · exact valid.tail
  · exact sound.order
  · intro action after answer stepped noPush noPop
    exact (step_effect stepped).unmoved noPush noPop
  · intro after answer stepped
    cases stepped
    rfl
  · intro closing action after answer stepped
    exact (step_effect stepped).closed_stays closing
  · intro action after thread stored stepped
    exact (step_effect stepped).drained
  · exact destroyed

/-- The connection queue refines a bounded queue: in every state that any
number of threads can reach, the system is the image of a reachable state of
the abstract machine, and the ring is safe. -/
theorem connectionQueue_refines_fifo {capacity : Nat}
    {system : QueueSystem}
    (reachable : (machine capacity).Reachable system) :
    (∃ fifo, (Fifo.machine capacity).Reachable fifo ∧
        Implements capacity system fifo) ∧
      system.Safe capacity := by
  obtain ⟨fifo, reached, implements⟩ :=
    (simulates_fifo capacity).reachable reachable
  have ordered := Fifo.ordered_of_reachable reached
  rw [implements.image] at ordered
  have sound : system.Sound capacity := ⟨implements.invariant, ordered⟩
  exact ⟨⟨fifo, reached, implements⟩, sound.safe⟩

/-- A producer and a consumer on two cells: the third push waits for the
first pop and wraps around. -/
def wrapTrace : List QueueAction :=
  [.callPush 0 5, .pushSection 0 false true [], .callPush 0 6,
    .pushSection 0 false true [], .callPush 0 7,
    .pushSection 0 false true [], .callPop 1, .popSection 1 [0],
    .pushSection 0 false true []]

/-- The ring when the third descriptor has taken the first cell. -/
def wrappedSystem : QueueSystem :=
  { queue :=
      { items := [7, 6], capacity := 2, head := 1, tail := 1, count := 2
        shuttingDown := false }
    calls := [.idle, .idle]
    pushed := [5, 6, 7]
    popped := [5] }

theorem wrappedSystem_reachable :
    (machine 2).Reachable wrappedSystem := by
  have started : (machine 2).Start
      (start { toRing := Ring.empty 2, shuttingDown := false } 2) :=
    ⟨_, 2, rfl, rfl⟩
  apply Machine.Reachable.execute (.start started)
  change (machine 2).execute _ wrapTrace = some wrappedSystem
  decide

theorem connectionQueue_refines_fifo_wrapped :
    wrappedSystem.queue.contents = [6, 7] ∧ wrappedSystem.Safe 2 :=
  ⟨by decide, (connectionQueue_refines_fifo wrappedSystem_reachable).2⟩

end QueueSystem

end CinderHTTP
