import CinderHTTP.Base.Wakeups
import CinderHTTP.Queue.Refinement

/-!
# No wakeup of the queue is lost

Consumers wait for descriptors and producers for free cells.  Both kinds of
waiting are instances of the rules for condition variables: a section that
takes from one side supplies the other side and signals it, a thread sleeps
only when there is nothing for it, and a woken thread leaves without taking
anything only when there is nothing or the queue is closing.
-/

namespace CinderHTTP

/-! ## The two condition variables -/

inductive Side where
  | pop
  | push
  deriving DecidableEq, Repr

namespace Side

def other : Side → Side
  | .pop => .push
  | .push => .pop

def asleep : Side → QueueCall → Bool
  | .pop => QueueCall.sleepsInPop
  | .push => QueueCall.sleepsInPush

def woken : Side → QueueCall → Bool
  | .pop, .pop .woken => true
  | .push, .push _ .woken => true
  | _, _ => false

/-- What the threads of a side wait for: descriptors or free cells. -/
def supply (queue : ConnectionQueue) : Side → Nat
  | .pop => queue.count
  | .push => queue.capacity - queue.count

theorem eq_other_of_ne {side own : Side} (different : side ≠ own) :
    side = own.other := by
  cases side <;> cases own <;> first | rfl | exact absurd rfl different

theorem not_woken_of_asleep (side : Side) {call : QueueCall}
    (sleeps : side.asleep call = true) : side.woken call = false := by
  rcases side with _ | _ <;> rcases call with _ | ⟨_, _ | _ | _⟩ | (_ | _ | _)
  all_goals first | rfl | cases sleeps

theorem woken_wake (side : Side) {call : QueueCall}
    (sleeps : side.asleep call = true) : side.woken call.wake = true := by
  rcases side with _ | _ <;> rcases call with _ | ⟨_, _ | _ | _⟩ | (_ | _ | _)
  all_goals first | rfl | cases sleeps

theorem asleep_wake (side : Side) (call : QueueCall) :
    side.asleep call.wake = false := by
  rcases side with _ | _ <;> rcases call with _ | ⟨_, _ | _ | _⟩ | (_ | _ | _)
  all_goals rfl

theorem other_wake (side : Side) {call : QueueCall}
    (sleeps : side.other.asleep call = true) :
    side.asleep call.wake = side.asleep call ∧
      side.woken call.wake = side.woken call := by
  rcases side with _ | _ <;> rcases call with _ | ⟨_, _ | _ | _⟩ | (_ | _ | _)
  all_goals first | exact ⟨rfl, rfl⟩ | cases sleeps

end Side

/-- The change of one call by a signal. -/
def signalled (sleeps : QueueCall → Bool) (chosen : List Nat) (thread : Nat)
    (call : QueueCall) : QueueCall :=
  if sleeps call && chosen.contains thread then call.wake else call

theorem condSignal_mapIdx {sleeps : QueueCall → Bool} {chosen : List Nat}
    {calls woken : List QueueCall}
    (done : condSignal sleeps chosen calls = some woken) :
    woken = calls.mapIdx (signalled sleeps chosen) := by
  unfold condSignal at done
  split_ifs at done
  exact (Option.some.inj done).symm

theorem condSignal_reaches {sleeps : QueueCall → Bool} {chosen : List Nat}
    {calls woken : List QueueCall}
    (done : condSignal sleeps chosen calls = some woken)
    (some : ∃ call ∈ calls, sleeps call = true) :
    ∃ thread call, calls[thread]? = Option.some call ∧
      sleeps call = true ∧
      signalled sleeps chosen thread call = call.wake := by
  unfold condSignal at done
  split_ifs at done with unreached
  have any : calls.any sleeps = true := List.any_eq_true.mpr some
  rw [any, Bool.true_and, Bool.not_eq_true', Bool.not_eq_false,
    List.any_eq_true] at unreached
  obtain ⟨thread, inChosen, reached⟩ := unreached
  obtain ⟨call, found, asleep⟩ := (Option.any_eq_true _ _).mp reached
  refine ⟨thread, call, found, asleep, ?_⟩
  rw [signalled, asleep, List.contains_iff_mem.mpr inChosen]
  rfl

theorem signalled_cases (sleeps : QueueCall → Bool) (chosen : List Nat)
    (thread : Nat) (call : QueueCall) :
    signalled sleeps chosen thread call = call ∨
      sleeps call = true ∧
        signalled sleeps chosen thread call = call.wake := by
  unfold signalled
  split_ifs with reached
  · exact .inr ⟨(Bool.and_eq_true_iff.mp reached).1, rfl⟩
  · exact .inl rfl

theorem Side.asleep_signalled (side : Side) {sleeps : QueueCall → Bool}
    {chosen : List Nat} {thread : Nat} {call : QueueCall}
    (asleep : side.asleep (signalled sleeps chosen thread call) = true) :
    side.asleep call = true := by
  rcases signalled_cases sleeps chosen thread call with same | ⟨_, woke⟩
  · rwa [same] at asleep
  · rw [woke, side.asleep_wake] at asleep
    cases asleep

theorem Side.woken_signalled (side : Side) {chosen : List Nat}
    {thread : Nat} {call : QueueCall} (woken : side.woken call = true) :
    side.woken (signalled side.asleep chosen thread call) = true := by
  rcases signalled_cases side.asleep chosen thread call with
    same | ⟨asleep, _⟩
  · rwa [same]
  · rw [side.not_woken_of_asleep asleep] at woken
    cases woken

theorem Side.other_signalled (side : Side) (chosen : List Nat)
    (thread : Nat) (call : QueueCall) :
    side.asleep (signalled side.other.asleep chosen thread call) =
        side.asleep call ∧
      side.woken (signalled side.other.asleep chosen thread call) =
        side.woken call := by
  rcases signalled_cases side.other.asleep chosen thread call with
    same | ⟨asleep, woke⟩
  · rw [same]
    exact ⟨rfl, rfl⟩
  · rw [woke]
    exact side.other_wake asleep

/-! ## Steps of calls -/

/-- A thread sleeps only when there is nothing for it, and leaves without
taking anything only when there is nothing or the queue is closing. -/
structure Side.Settled (side : Side) (queue : ConnectionQueue)
    (old new : QueueCall) : Prop where
  sleeps : side.asleep new = true →
    queue.shuttingDown = false ∧ side.supply queue = 0
  leaves : side.woken old = true →
    queue.shuttingDown = true ∨ side.supply queue = 0

theorem Side.settled_awake {queue : ConnectionQueue} {old new : QueueCall}
    (unwoken : ∀ side : Side, side.woken old = false)
    (awake : ∀ side : Side, side.asleep new = false) (side : Side) :
    side.Settled queue old new := by
  constructor
  · intro sleeps
    rw [awake side] at sleeps
    cases sleeps
  · intro woken
    rw [unwoken side] at woken
    cases woken

/-- A section that ends without taking anything concerns its own side. -/
theorem Side.settled_own {queue : ConnectionQueue} {old new : QueueCall}
    (own : Side) (unwoken : own.other.woken old = false)
    (awake : own.other.asleep new = false)
    (sleeps : own.asleep new = true →
      queue.shuttingDown = false ∧ own.supply queue = 0)
    (leaves : queue.shuttingDown = true ∨ own.supply queue = 0)
    (side : Side) : side.Settled queue old new := by
  by_cases same : side = own
  · subst same
    exact ⟨sleeps, fun _ => leaves⟩
  · obtain rfl := eq_other_of_ne same
    constructor
    · intro asleep
      rw [awake] at asleep
      cases asleep
    · intro woken
      rw [unwoken] at woken
      cases woken

namespace QueueSystem

/-- What a step does to the calls. -/
inductive CallStep (system after : QueueSystem) : Prop
  | rests (same : after = system)
  | moves {thread : Nat} {old new : QueueCall}
      (found : system.calls[thread]? = some old)
      (calls : after.calls = system.calls.set thread new)
      (queue : after.queue = system.queue)
      (settled : ∀ side : Side, side.Settled system.queue old new)
  | transfers (side : Side) (chosen : List Nat) {thread : Nat}
      {old : QueueCall} (found : system.calls[thread]? = some old)
      (own : side.other.woken old = false)
      (signal : condSignal side.other.asleep chosen
        (system.calls.set thread .idle) = some after.calls)
      (closing : after.queue.shuttingDown = system.queue.shuttingDown)
      (taken : side.supply system.queue = side.supply after.queue + 1)
      (given : side.other.supply after.queue =
        side.other.supply system.queue + 1)
  | closes (calls : after.calls = condBroadcast system.calls)

theorem runPush_calls {system after : QueueSystem} {thread : Nat}
    {clientFd : Int} {waiting : Waiting} {aborted clock : Bool}
    {chosen : List Nat} {answer : Option QueueReturn}
    (found : system.calls[thread]? = some (.push clientFd waiting))
    (stepped : system.runPush thread clientFd aborted clock chosen =
      some (after, answer)) :
    CallStep system after := by
  have noFree : system.queue.count ≥ system.queue.capacity →
      Side.push.supply system.queue = 0 := Nat.sub_eq_zero_of_le
  unfold runPush connectionQueuePush at stepped
  split_ifs at stepped with full isAborted isClock isClosing
  · cases stepped
    exact .moves found rfl rfl
      (Side.settled_own .push rfl rfl nofun (.inr (noFree full.1)))
  · cases stepped
    exact .moves found rfl rfl
      (Side.settled_own .push rfl rfl nofun (.inr (noFree full.1)))
  · cases stepped
    exact .moves found rfl rfl (Side.settled_own .push rfl rfl
      (fun _ => ⟨full.2, noFree full.1⟩) (.inr (noFree full.1)))
  · cases stepped
    exact .moves found rfl rfl
      (Side.settled_own .push rfl rfl nofun (.inl isClosing))
  · have room : system.queue.count < system.queue.capacity := by
      by_contra reached
      exact full ⟨Nat.le_of_not_lt reached, by simpa using isClosing⟩
    obtain ⟨calls, signal, finished⟩ := Option.map_eq_some_iff.mp stepped
    cases finished
    refine .transfers .push chosen found rfl signal rfl ?_ rfl
    change system.queue.capacity - system.queue.count =
      system.queue.capacity - (system.queue.count + 1) + 1
    omega

theorem runPop_calls {system after : QueueSystem} {thread : Nat}
    {waiting : Waiting} {chosen : List Nat} {answer : Option QueueReturn}
    (found : system.calls[thread]? = some (.pop waiting))
    (bounded : system.queue.count ≤ system.queue.capacity)
    (stepped : system.runPop thread chosen = some (after, answer)) :
    CallStep system after := by
  unfold runPop connectionQueuePop at stepped
  split_ifs at stepped with idle drained
  · cases stepped
    exact .moves found rfl rfl (Side.settled_own .pop rfl rfl
      (fun _ => ⟨idle.2, idle.1⟩) (.inr idle.1))
  · cases stepped
    exact .moves found rfl rfl
      (Side.settled_own .pop rfl rfl nofun (.inl drained.2))
  · have filled : 0 < system.queue.count := by
      by_contra none
      have empty := Nat.eq_zero_of_not_pos none
      cases closing : system.queue.shuttingDown with
      | false => exact idle ⟨empty, closing⟩
      | true => exact drained ⟨empty, closing⟩
    obtain ⟨calls, signal, finished⟩ := Option.map_eq_some_iff.mp stepped
    cases finished
    refine .transfers .pop chosen found rfl signal rfl ?_ ?_
    · change system.queue.count = system.queue.count - 1 + 1
      omega
    · change system.queue.capacity - (system.queue.count - 1) =
        system.queue.capacity - system.queue.count + 1
      omega

theorem fail_calls {system after : QueueSystem} {thread : Nat}
    {call : QueueCall} {answer : Option QueueReturn}
    (found : system.calls[thread]? = some call)
    (unwoken : ∀ side : Side, side.woken call = false)
    (stepped : system.fail thread call = some (after, answer)) :
    CallStep system after := by
  have settled : ∀ side : Side, side.Settled system.queue call .idle :=
    Side.settled_awake unwoken fun side => by cases side <;> rfl
  cases call with
  | idle => cases stepped
  | push clientFd waiting =>
      cases stepped
      exact .moves found rfl rfl settled
  | pop waiting =>
      cases stepped
      exact .moves found rfl rfl settled

theorem step_calls {system after : QueueSystem} {action : QueueAction}
    {answer : Option QueueReturn}
    (bounded : system.queue.count ≤ system.queue.capacity)
    (stepped : system.step action = some (after, answer)) :
    CallStep system after := by
  cases action with
  | callPush thread clientFd =>
      simp only [step] at stepped
      split at stepped
      · rename_i found
        split at stepped
        · cases stepped
          exact .rests rfl
        · cases stepped
          exact .moves found rfl rfl (Side.settled_awake
            (fun side => by cases side <;> rfl)
            (fun side => by cases side <;> rfl))
      · cases stepped
  | callPop thread =>
      simp only [step] at stepped
      split at stepped
      · rename_i found
        cases stepped
        exact .moves found rfl rfl (Side.settled_awake
          (fun side => by cases side <;> rfl)
          (fun side => by cases side <;> rfl))
      · cases stepped
  | lockFails thread =>
      simp only [step] at stepped
      split at stepped
      · exact fail_calls ‹_› (fun side => by cases side <;> rfl) stepped
      · exact fail_calls ‹_› (fun side => by cases side <;> rfl) stepped
      · cases stepped
  | pushSection thread aborted clock chosen =>
      simp only [step] at stepped
      split at stepped
      · exact runPush_calls ‹_› stepped
      · exact runPush_calls ‹_› stepped
      · cases stepped
  | popSection thread chosen =>
      simp only [step] at stepped
      split at stepped
      · exact runPop_calls ‹_› bounded stepped
      · exact runPop_calls ‹_› bounded stepped
      · cases stepped
  | wakeUp thread =>
      simp only [step] at stepped
      split at stepped
      · rename_i found
        cases stepped
        exact .moves found rfl rfl (Side.settled_awake
          (fun side => by cases side <;> rfl)
          (fun side => by cases side <;> rfl))
      · rename_i found
        cases stepped
        exact .moves found rfl rfl (Side.settled_awake
          (fun side => by cases side <;> rfl)
          (fun side => by cases side <;> rfl))
      · cases stepped
  | waitFails thread =>
      simp only [step] at stepped
      split at stepped
      · exact fail_calls ‹_› (fun side => by cases side <;> rfl) stepped
      · exact fail_calls ‹_› (fun side => by cases side <;> rfl) stepped
      · cases stepped
  | shutdown =>
      cases stepped
      exact .closes rfl

/-! ## The invariant -/

/-- Nobody sleeps in a closing queue, and both supplies are covered. -/
structure Wakeful (system : QueueSystem) : Prop where
  closing : system.queue.shuttingDown = true → ∀ side : Side,
    ∀ call ∈ system.calls, side.asleep call = false
  covered : ∀ side : Side, Covered side.asleep side.woken
    (side.supply system.queue) system.calls

theorem Wakeful.moves {system after : QueueSystem} {thread : Nat}
    {old new : QueueCall} (wakeful : system.Wakeful)
    (found : system.calls[thread]? = some old)
    (calls : after.calls = system.calls.set thread new)
    (queue : after.queue = system.queue)
    (settled : ∀ side : Side, side.Settled system.queue old new) :
    after.Wakeful := by
  constructor
  · intro closing side call member
    rw [queue] at closing
    rw [calls] at member
    rcases List.mem_or_eq_of_mem_set member with other | rfl
    · exact wakeful.closing closing side call other
    · by_contra asleep
      rw [Bool.not_eq_false] at asleep
      rw [((settled side).sleeps asleep).1] at closing
      cases closing
  · intro side
    rw [queue, calls]
    cases asleep : side.asleep new with
    | true =>
        rw [((settled side).sleeps asleep).2]
        exact Covered.zero
    | false =>
        cases woken : side.woken old with
        | false => exact (wakeful.covered side).set found woken asleep
        | true =>
            rcases (settled side).leaves woken with closing | none
            · rintro ⟨call, member, sleeps⟩
              rcases List.mem_or_eq_of_mem_set member with other | rfl
              · rw [wakeful.closing closing side call other] at sleeps
                cases sleeps
              · rw [asleep] at sleeps
                cases sleeps
            · rw [none]
              exact Covered.zero

theorem Wakeful.transfers {system after : QueueSystem} (side : Side)
    {thread : Nat} {old : QueueCall} {chosen : List Nat}
    (wakeful : system.Wakeful)
    (found : system.calls[thread]? = some old)
    (own : side.other.woken old = false)
    (signal : condSignal side.other.asleep chosen
      (system.calls.set thread .idle) = some after.calls)
    (closing : after.queue.shuttingDown = system.queue.shuttingDown)
    (taken : side.supply system.queue = side.supply after.queue + 1)
    (given : side.other.supply after.queue =
      side.other.supply system.queue + 1) :
    after.Wakeful := by
  have idle : ∀ side : Side, side.asleep .idle = false := by
    intro side
    cases side <;> rfl
  have changed := condSignal_mapIdx signal
  constructor
  · intro closed which call member
    rw [closing] at closed
    rw [changed] at member
    obtain ⟨index, bound, rfl⟩ := List.mem_mapIdx.mp member
    by_contra asleep
    rw [Bool.not_eq_false] at asleep
    have before := which.asleep_signalled asleep
    rcases List.mem_or_eq_of_mem_set (List.getElem_mem bound) with
      inside | same
    · rw [wakeful.closing closed which _ inside] at before
      cases before
    · rw [same, idle] at before
      cases before
  · intro which
    rw [changed]
    by_cases same : which = side
    · subst same
      have enough := wakeful.covered which
      rw [taken] at enough
      exact (enough.take found (idle which)).unseen
        (fun thread call => (which.other_signalled chosen thread call).1)
        (fun thread call => (which.other_signalled chosen thread call).2)
    · obtain rfl := Side.eq_other_of_ne same
      rw [given]
      apply ((wakeful.covered side.other).set found own
        (idle side.other)).signal
      · intro thread call asleep
        exact side.other.asleep_signalled asleep
      · intro thread call woken
        exact side.other.woken_signalled woken
      · intro sleeper
        obtain ⟨thread, call, inside, asleep, woke⟩ :=
          condSignal_reaches signal sleeper
        refine ⟨thread, call, inside,
          side.other.not_woken_of_asleep asleep, ?_⟩
        rw [woke]
        exact side.other.woken_wake asleep

theorem Wakeful.step {system after : QueueSystem} (wakeful : system.Wakeful)
    (stepped : CallStep system after) : after.Wakeful := by
  cases stepped with
  | rests same => exact same ▸ wakeful
  | moves found calls queue settled =>
      exact wakeful.moves found calls queue settled
  | transfers side chosen found own signal closing taken given =>
      exact wakeful.transfers side found own signal closing taken given
  | closes calls =>
      have awake : ∀ side : Side, ∀ call ∈ after.calls,
          side.asleep call = false := by
        intro side call member
        rw [calls] at member
        obtain ⟨before, _, rfl⟩ := List.mem_map.mp member
        exact side.asleep_wake before
      refine ⟨fun _ => awake, fun side => ?_⟩
      rintro ⟨call, member, asleep⟩
      rw [awake side call member] at asleep
      cases asleep

theorem start_wakeful (queue : ConnectionQueue) (threads : Nat) :
    (start queue threads).Wakeful := by
  have awake : ∀ side : Side, ∀ call ∈ (start queue threads).calls,
      side.asleep call = false := by
    intro side call member
    rw [List.eq_of_mem_replicate member]
    cases side <;> rfl
  refine ⟨fun _ => awake, fun side => ?_⟩
  rintro ⟨call, member, asleep⟩
  rw [awake side call member] at asleep
  cases asleep

/-- Every thread that sleeps is right to do so, or somebody has been woken in
its place. -/
structure NoLostWakeup (capacity : Nat) (system : QueueSystem) : Prop where
  consumers : .pop .asleep ∈ system.calls →
    system.queue.shuttingDown = false ∧
      system.queue.count ≤ system.calls.countP Side.pop.woken
  producers : ∀ clientFd, .push clientFd .asleep ∈ system.calls →
    system.queue.shuttingDown = false ∧
      capacity - system.queue.count ≤ system.calls.countP Side.push.woken
  /-- The idle workers do not all sleep while a connection is queued. -/
  workers : 0 < system.queue.count → .pop .asleep ∈ system.calls →
    .pop .woken ∈ system.calls

theorem Wakeful.sleeper {system : QueueSystem} (wakeful : system.Wakeful)
    (side : Side) {call : QueueCall} (member : call ∈ system.calls)
    (asleep : side.asleep call = true) :
    system.queue.shuttingDown = false ∧
      side.supply system.queue ≤ system.calls.countP side.woken := by
  refine ⟨?_, wakeful.covered side ⟨call, member, asleep⟩⟩
  by_contra closing
  rw [Bool.not_eq_false] at closing
  rw [wakeful.closing closing side call member] at asleep
  cases asleep

theorem Wakeful.noLostWakeup {capacity : Nat} {system : QueueSystem}
    (wakeful : system.Wakeful) (sized : system.queue.capacity = capacity) :
    system.NoLostWakeup capacity := by
  refine ⟨fun member => wakeful.sleeper .pop member rfl, ?_, ?_⟩
  · intro clientFd member
    rw [← sized]
    exact wakeful.sleeper .push member rfl
  · intro queued member
    have enough : system.queue.count ≤
        system.calls.countP Side.pop.woken :=
      (wakeful.sleeper .pop member rfl).2
    obtain ⟨call, inside, woken⟩ :=
      List.countP_pos_iff.mp (Nat.lt_of_lt_of_le queued enough)
    rcases call with _ | ⟨_, _ | _ | _⟩ | (_ | _ | _)
    all_goals first | exact inside | cases woken

/-- No wakeup is lost in any run of any number of producers and consumers. -/
theorem connectionQueue_noLostWakeup {capacity : Nat} {system : QueueSystem}
    (reachable : (machine capacity).Reachable system) :
    system.NoLostWakeup capacity := by
  have both : system.Invariant capacity ∧ system.Wakeful := by
    apply Machine.Reachable.invariant reachable
    · rintro _ ⟨queue, threads, created, rfl⟩
      exact ⟨start_invariant threads created, start_wakeful queue threads⟩
    · intro before action after held stepped
      obtain ⟨⟨_, answer⟩, moved, rfl⟩ := Option.map_eq_some_iff.mp stepped
      exact ⟨held.1.effect (step_effect moved),
        held.2.step (step_calls held.1.valid.count moved)⟩
  exact both.2.noLostWakeup both.1.capacity

/-- Two consumers sleep, a push wakes one of them, and a third consumer is
about to take the descriptor before it. -/
def stealTrace : List QueueAction :=
  [.callPop 0, .popSection 0 [], .callPop 1, .popSection 1 [],
    .callPush 2 5, .pushSection 2 false true [0], .callPop 3]

def stolenSystem : QueueSystem :=
  { queue :=
      { items := [5, 0], capacity := 2, head := 0, tail := 1, count := 1
        shuttingDown := false }
    calls := [.pop .woken, .pop .asleep, .idle, .pop .entering]
    pushed := [5]
    popped := [] }

theorem stolenSystem_reachable : (machine 2).Reachable stolenSystem := by
  have started : (machine 2).Start
      (start { toRing := Ring.empty 2, shuttingDown := false } 4) :=
    ⟨_, 4, rfl, rfl⟩
  apply Machine.Reachable.execute (.start started)
  change (machine 2).execute _ stealTrace = some stolenSystem
  decide

theorem connectionQueue_noLostWakeup_stolen :
    .pop .asleep ∈ stolenSystem.calls ∧ stolenSystem.NoLostWakeup 2 :=
  ⟨by decide, connectionQueue_noLostWakeup stolenSystem_reachable⟩

end QueueSystem

end CinderHTTP
