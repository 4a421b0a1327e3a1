import CinderHTTP.Base.Liveness
import CinderHTTP.Server.Load

/-!
# How soon a shutdown begins

When the shutdown flag is set and the accepting thread is in its loop, but not
in the call that blocks, it is five of its own steps away from the label
`cleanup`.  It may be asleep in `connection_queue_push` for lack of room; but
the wait is a timed one, and behind it the push reads the flag and waits no
more.  While the workers are being created it has those steps before it too,
unless one cannot be created: then `thread_pool_start` waits for the others,
and how long that takes is up to them.
-/

namespace CinderHTTP

def QueueAction.thread : QueueAction → Option Nat
  | .callPush thread _ => some thread
  | .callPop thread => some thread
  | .lockFails thread => some thread
  | .pushSection thread _ _ _ => some thread
  | .popSection thread _ => some thread
  | .wakeUp thread => some thread
  | .waitFails thread => some thread
  | .shutdown => none

/-- The steps of the accepting thread. -/
def ServerAction.ofMain : ServerAction → Bool
  | .signal => false
  | .create _ => true
  | .accept _ => true
  | .main => true
  | .queue action _ => action.thread == some 0
  | .worker _ => false

/-- Between the start and the shutdown, outside the call that blocks. -/
def MainState.prompt : MainState → Bool
  | .starting _ => true
  | .testing => true
  | .accepted _ => true
  | .counted _ => true
  | .pushing _ => true
  | .refused _ _ => true
  | .closed _ => true
  | .pushed => true
  | _ => false

theorem MainState.interrupt_of_prompt {main : MainState}
    (prompt : main.prompt = true) : main.interrupt = main := by
  cases main with
  | accepting => cases prompt
  | _ => rfl

/-! ## The queue call of the accepting thread -/

namespace QueueSystem

/-- The accepting thread sleeps in `connection_queue_push`. -/
def mainAsleep (system : QueueSystem) : Bool :=
  system.calls[0]?.any QueueCall.sleepsInPush

theorem mainAsleep_set {system : QueueSystem} {calls : List QueueCall}
    {thread : Nat} {new : QueueCall}
    (set : calls = system.calls.set thread new)
    (awake : new.sleepsInPush = false)
    (asleep : calls[0]?.any QueueCall.sleepsInPush = true) :
    system.mainAsleep = true := by
  obtain ⟨call, found, sleeps⟩ := (Option.any_eq_true _ _).mp asleep
  rw [set] at found
  rcases getElem?_set_cases found with ⟨_, rfl⟩ | ⟨_, same⟩
  · rw [awake] at sleeps
    cases sleeps
  · exact (Option.any_eq_true _ _).mpr ⟨call, same, sleeps⟩

theorem mainAsleep_signal {system : QueueSystem} {calls : List QueueCall}
    {sleeps : QueueCall → Bool} {chosen : List Nat} {thread : Nat}
    (signal : condSignal sleeps chosen (system.calls.set thread .idle) =
      some calls)
    (asleep : calls[0]?.any QueueCall.sleepsInPush = true) :
    system.mainAsleep = true := by
  obtain ⟨call, found, sleeping⟩ := (Option.any_eq_true _ _).mp asleep
  rw [condSignal_mapIdx signal, List.getElem?_mapIdx] at found
  obtain ⟨before, located, rfl⟩ := Option.map_eq_some_iff.mp found
  have slept := Side.push.asleep_signalled sleeping
  exact mainAsleep_set rfl rfl
    ((Option.any_eq_true _ _).mpr ⟨before, located, slept⟩)

theorem connectionQueuePush_aborted {queue : ConnectionQueue}
    {clientFd : Int} {clock : Bool} :
    (connectionQueuePush queue clientFd true clock).1 ≠ .waits := by
  unfold connectionQueuePush
  split_ifs <;> simp_all

theorem runPush_aborted {system after : QueueSystem} {thread : Nat}
    {clientFd : Int} {clock : Bool} {chosen : List Nat}
    {answer : Option QueueReturn}
    (stepped : system.runPush thread clientFd true clock chosen =
      some (after, answer)) :
    (∃ status, answer = some (.push thread clientFd status)) ∧
      (after.mainAsleep = true → system.mainAsleep = true) := by
  have returns := @connectionQueuePush_aborted system.queue clientFd clock
  unfold runPush at stepped
  generalize connectionQueuePush system.queue clientFd true clock =
    outcome at stepped returns
  obtain ⟨ending, queue⟩ := outcome
  cases ending with
  | waits => exact absurd rfl returns
  | returns status =>
      cases status with
      | ok =>
          obtain ⟨calls, signal, finished⟩ :=
            Option.map_eq_some_iff.mp stepped
          cases finished
          exact ⟨⟨_, rfl⟩, mainAsleep_signal signal⟩
      | shutdown =>
          cases stepped
          exact ⟨⟨_, rfl⟩, mainAsleep_set rfl rfl⟩
      | error =>
          cases stepped
          exact ⟨⟨_, rfl⟩, mainAsleep_set rfl rfl⟩

/-- Once the flag is set the accepting thread does not fall asleep. -/
theorem mainAsleep_step {system after : QueueSystem} {action : QueueAction}
    {answer : Option QueueReturn} (inside : action.inside = true)
    (flag : action.readsFlag true = true)
    (stepped : system.step action = some (after, answer))
    (asleep : after.mainAsleep = true) : system.mainAsleep = true := by
  cases action with
  | callPush thread clientFd => cases inside
  | callPop thread => cases inside
  | shutdown => cases inside
  | lockFails thread =>
      simp only [step] at stepped
      split at stepped
      · cases stepped
        exact mainAsleep_set rfl rfl asleep
      · cases stepped
        exact mainAsleep_set rfl rfl asleep
      · cases stepped
  | waitFails thread =>
      simp only [step] at stepped
      split at stepped
      · cases stepped
        exact mainAsleep_set rfl rfl asleep
      · cases stepped
        exact mainAsleep_set rfl rfl asleep
      · cases stepped
  | wakeUp thread =>
      simp only [step] at stepped
      split at stepped
      · cases stepped
        exact mainAsleep_set rfl rfl asleep
      · cases stepped
        exact mainAsleep_set rfl rfl asleep
      · cases stepped
  | pushSection thread aborted clock chosen =>
      obtain rfl : aborted = true := by simpa [QueueAction.readsFlag] using flag
      simp only [step] at stepped
      split at stepped
      · exact (runPush_aborted stepped).2 asleep
      · exact (runPush_aborted stepped).2 asleep
      · cases stepped
  | popSection thread chosen =>
      have ran : system.runPop thread chosen = some (after, answer) := by
        simp only [step] at stepped
        split at stepped
        · exact stepped
        · exact stepped
        · cases stepped
      have outcomes := connectionQueuePop_section system.queue
      unfold runPop at ran
      generalize connectionQueuePop system.queue = outcome at ran outcomes
      cases outcomes with
      | waits =>
          cases ran
          exact mainAsleep_set rfl rfl asleep
      | drained empty closing =>
          cases ran
          exact mainAsleep_set rfl rfl asleep
      | taken filled =>
          obtain ⟨calls, signal, finished⟩ := Option.map_eq_some_iff.mp ran
          cases finished
          exact mainAsleep_signal signal asleep

theorem ownStep_of_push {system after : QueueSystem} {action : QueueAction}
    {answer : Option QueueReturn} {clientFd : Int} {waiting : Waiting}
    (found : system.calls[0]? = some (.push clientFd waiting))
    (own : action.thread = some 0) (inside : action.inside = true)
    (flag : action.readsFlag true = true)
    (stepped : system.step action = some (after, answer)) :
    (∃ status, answer = some (.push 0 clientFd status)) ∨
      answer = none ∧ system.mainAsleep = true ∧
        after.mainAsleep = false := by
  cases action with
  | callPush thread clientFd => cases inside
  | callPop thread => cases inside
  | shutdown => cases inside
  | lockFails thread =>
      cases own
      left
      cases waiting with
      | entering =>
          simp only [step, found] at stepped
          cases stepped
          exact ⟨_, rfl⟩
      | asleep =>
          simp only [step, found] at stepped
          cases stepped
      | woken =>
          simp only [step, found] at stepped
          cases stepped
  | waitFails thread =>
      cases own
      left
      cases waiting with
      | entering =>
          simp only [step, found] at stepped
          cases stepped
      | asleep =>
          simp only [step, found] at stepped
          cases stepped
          exact ⟨_, rfl⟩
      | woken =>
          simp only [step, found] at stepped
          cases stepped
  | wakeUp thread =>
      cases own
      right
      cases waiting with
      | entering =>
          simp only [step, found] at stepped
          cases stepped
      | asleep =>
          simp only [step, found] at stepped
          cases stepped
          have bound := (List.getElem?_eq_some_iff.mp found).1
          refine ⟨rfl, ?_, ?_⟩
          · simp [mainAsleep, found, QueueCall.sleepsInPush]
          · simp [mainAsleep, setCall, bound, QueueCall.sleepsInPush]
      | woken =>
          simp only [step, found] at stepped
          cases stepped
  | pushSection thread aborted clock chosen =>
      cases own
      left
      obtain rfl : aborted = true := by simpa [QueueAction.readsFlag] using flag
      cases waiting with
      | entering =>
          simp only [step, found] at stepped
          exact (runPush_aborted stepped).1
      | asleep =>
          simp only [step, found] at stepped
          cases stepped
      | woken =>
          simp only [step, found] at stepped
          exact (runPush_aborted stepped).1
  | popSection thread chosen =>
      cases own
      simp only [step, found] at stepped
      cases stepped

end QueueSystem

/-! ## The way to the shutdown -/

/-- The steps of the accepting thread until the one that leaves the loop. -/
def MainState.distance (workerCount : Nat) (asleep : Bool) : MainState → Nat
  | .starting created => workerCount - created + 1
  | .accepted _ => 4
  | .counted _ => 3
  | .pushing _ => if asleep then 3 else 2
  | .refused _ _ => 1
  | .pushed => 1
  | _ => 0

theorem MainState.distance_le (main : MainState) (workerCount : Nat)
    (asleep : Bool) : main.distance workerCount asleep ≤ workerCount + 4 := by
  cases main with
  | pushing clientFd => cases asleep <;> simp [MainState.distance]
  | _ => simp only [MainState.distance]; omega

theorem MainState.distance_mono (main : MainState) (workerCount : Nat)
    {before after : Bool} (wakes : after = true → before = true) :
    main.distance workerCount after ≤ main.distance workerCount before := by
  cases main with
  | pushing clientFd =>
      cases after with
      | true =>
          rw [wakes rfl]
      | false => cases before <;> simp [MainState.distance]
  | _ => exact Nat.le_refl _

namespace Server

def distance (setup : ServerSetup) (server : Server) : Nat :=
  server.main.distance setup.workerCount server.system.mainAsleep

/-- A shutdown was requested, and the accepting thread is on its way. -/
structure Summoned (setup : ServerSetup) (server : Server) : Prop where
  coordinated : server.Coordinated setup
  requested : server.shutdownRequested = true
  prompt : server.main.prompt = true

/-- The accepting thread has left its loop for the label `cleanup`, or a
worker could not be created before it came there. -/
inductive Leaves (setup : ServerSetup) (server after : Server) : Prop
  | cleanup (now : after.main = .stopping setup.workerCount)
  | unstarted {created : Nat} (before : server.main = .starting created)
      (now : after.main = .abandoning 0 created)

/-- What a step leads to. -/
def Approaches (setup : ServerSetup) (server after : Server)
    (own : Bool) : Prop :=
  server.Leaves setup after ∨
    after.Summoned setup ∧ after.distance setup ≤ server.distance setup ∧
      (own = true → after.distance setup < server.distance setup)

theorem Approaches.own {setup : ServerSetup} {server after : Server}
    (summoned : after.Summoned setup)
    (nearer : after.distance setup < server.distance setup) (own : Bool) :
    server.Approaches setup after own :=
  .inr ⟨summoned, Nat.le_of_lt nearer, fun _ => nearer⟩

theorem Approaches.other {setup : ServerSetup} {server after : Server}
    (summoned : after.Summoned setup)
    (nearer : after.distance setup ≤ server.distance setup) :
    server.Approaches setup after false :=
  .inr ⟨summoned, nearer, nofun⟩

theorem Summoned.mainStep {setup : ServerSetup} {server after : Server}
    (summoned : server.Summoned setup)
    (stepped : server.mainStep setup = some after) :
    server.Approaches setup after true := by
  have coordinated := summoned.coordinated.step (mainStep_transition stepped)
  have requested := summoned.requested
  have prompt := summoned.prompt
  unfold Server.mainStep at stepped
  cases now : server.main with
  | starting created =>
      simp only [now] at stepped
      split_ifs at stepped
      cases stepped
      refine .own ⟨coordinated, requested, rfl⟩ ?_ true
      rw [distance, distance, now]
      exact Nat.succ_pos _
  | testing =>
      simp only [now, requested, if_true] at stepped
      cases stepped
      exact .inl (.cleanup rfl)
  | accepted clientFd =>
      simp only [now] at stepped
      cases stepped
      refine .own ⟨coordinated, requested, rfl⟩ ?_ true
      rw [distance, distance, now]
      exact Nat.lt_succ_self 3
  | counted clientFd =>
      simp only [now] at stepped
      obtain ⟨⟨system, returned⟩, called, finished⟩ :=
        Option.map_eq_some_iff.mp stepped
      have before : server.distance setup = 3 := by
        rw [distance, now]
        rfl
      simp only [QueueSystem.step] at called
      split at called
      · rename_i idle
        split at called
        · cases called
          cases finished
          refine .own ⟨coordinated, requested, rfl⟩ ?_ true
          rw [before]
          exact Nat.lt_of_sub_pos Nat.zero_lt_two
        · cases called
          cases finished
          refine .own ⟨coordinated, requested, rfl⟩ ?_ true
          have bound := (List.getElem?_eq_some_iff.mp idle).1
          have awake : (server.system.setCall 0
              (.push clientFd .entering)).mainAsleep = false := by
            simp [QueueSystem.mainAsleep, QueueSystem.setCall, bound,
              QueueCall.sleepsInPush]
          rw [before, distance]
          simp only [Server.answer, awake]
          exact Nat.lt_succ_self 2
      · cases called
  | refused clientFd status =>
      simp only [now] at stepped
      cases stepped
      refine .own ⟨coordinated, requested, rfl⟩ ?_ true
      rw [distance, distance, now]
      exact Nat.zero_lt_one
  | closed status =>
      simp only [now, requested, or_true, if_true] at stepped
      cases stepped
      exact .inl (.cleanup rfl)
  | pushed =>
      simp only [now] at stepped
      cases stepped
      refine .own ⟨coordinated, requested, rfl⟩ ?_ true
      rw [distance, distance, now]
      exact Nat.zero_lt_one
  | pushing clientFd =>
      simp only [now] at stepped
      cases stepped
  | _ =>
      rw [now] at prompt
      cases prompt

theorem Approaches.stays {setup : ServerSetup} {server after : Server}
    (coordinated : after.Coordinated setup)
    (summoned : server.Summoned setup) (main : after.main = server.main)
    (flag : after.shutdownRequested = server.shutdownRequested)
    (wakes : after.system.mainAsleep = true →
      server.system.mainAsleep = true) :
    server.Approaches setup after false := by
  apply Approaches.other
  · constructor
    · exact coordinated
    · rw [flag]
      exact summoned.requested
    · rw [main]
      exact summoned.prompt
  · rw [distance, distance, main]
    exact server.main.distance_mono _ wakes

theorem Approaches.returns {setup : ServerSetup} {server after : Server}
    {clientFd : Int} (coordinated : after.Coordinated setup)
    (requested : after.shutdownRequested = true)
    (now : server.main = .pushing clientFd)
    (main : after.main.prompt = true ∧
      ∀ asleep, after.main.distance setup.workerCount asleep = 1)
    (own : Bool) : server.Approaches setup after own := by
  apply Approaches.own
  · exact ⟨coordinated, requested, main.1⟩
  · rw [distance, distance, now, main.2]
    cases server.system.mainAsleep <;> simp [MainState.distance]

theorem Coordinated.mainCall {setup : ServerSetup} {server : Server}
    (coordinated : server.Coordinated setup) :
    ∃ call, server.system.calls[0]? = some call ∧
      call.operation = server.main.operation := by
  have linked : server.system.operations[0]? =
      some server.main.operation := by
    rw [coordinated.linked]
    rfl
  rw [QueueSystem.operations, List.getElem?_map] at linked
  exact Option.map_eq_some_iff.mp linked

/-- A thread in no call takes no step inside one. -/
theorem Summoned.pushing {setup : ServerSetup} {server : Server}
    {system : QueueSystem} {action : QueueAction}
    {returned : Option QueueReturn} (summoned : server.Summoned setup)
    (own : action.thread = some 0) (inside : action.inside = true)
    (stepped : server.system.step action = some (system, returned)) :
    ∃ clientFd waiting, server.main = .pushing clientFd ∧
      server.system.calls[0]? = some (.push clientFd waiting) := by
  obtain ⟨call, found, operation⟩ := summoned.coordinated.mainCall
  cases call with
  | push clientFd waiting =>
      exact ⟨clientFd, waiting, MainState.operation_push operation.symm, found⟩
  | pop waiting => exact absurd operation.symm server.main.operation_ne_pop
  | idle =>
      cases action with
      | callPush thread clientFd => cases inside
      | callPop thread => cases inside
      | shutdown => cases inside
      | lockFails thread =>
          cases own
          simp only [QueueSystem.step, found] at stepped
          cases stepped
      | waitFails thread =>
          cases own
          simp only [QueueSystem.step, found] at stepped
          cases stepped
      | wakeUp thread =>
          cases own
          simp only [QueueSystem.step, found] at stepped
          cases stepped
      | pushSection thread aborted clock chosen =>
          cases own
          simp only [QueueSystem.step, found] at stepped
          cases stepped
      | popSection thread chosen =>
          cases own
          simp only [QueueSystem.step, found] at stepped
          cases stepped

theorem Summoned.ownQueueStep {setup : ServerSetup} {server : Server}
    {system : QueueSystem} {action : QueueAction}
    {returned : Option QueueReturn} {pending : List StatsEvent}
    (summoned : server.Summoned setup)
    (coordinated : (answer { server with system := system } pending
      returned).Coordinated setup)
    (own : action.thread = some 0) (inside : action.inside = true)
    (flag : action.readsFlag true = true)
    (stepped : server.system.step action = some (system, returned)) :
    server.Approaches setup
      (answer { server with system := system } pending returned) true := by
  obtain ⟨clientFd, waiting, now, found⟩ :=
    summoned.pushing own inside stepped
  rcases QueueSystem.ownStep_of_push found own inside flag stepped with
    ⟨status, rfl⟩ | ⟨rfl, asleep, awake⟩
  · refine .returns coordinated ?_ now ?_ true
    · cases status <;> exact summoned.requested
    · cases status <;> exact ⟨rfl, fun _ => rfl⟩
  · refine .own ⟨coordinated, summoned.requested, summoned.prompt⟩ ?_ true
    rw [distance, distance, now, asleep]
    change MainState.distance setup.workerCount system.mainAsleep
      (.pushing clientFd) < 3
    rw [awake]
    exact Nat.lt_succ_self 2

theorem Summoned.otherQueueStep {setup : ServerSetup} {server : Server}
    {system : QueueSystem} {action : QueueAction}
    {returned : Option QueueReturn} {pending : List StatsEvent}
    (summoned : server.Summoned setup)
    (coordinated : (answer { server with system := system } pending
      returned).Coordinated setup)
    (inside : action.inside = true) (flag : action.readsFlag true = true)
    (stepped : server.system.step action = some (system, returned)) :
    server.Approaches setup
      (answer { server with system := system } pending returned) false := by
  have wakes := QueueSystem.mainAsleep_step inside flag stepped
  cases QueueSystem.step_effect stepped with
  | enteredPush unchanged nonnegative idle operations => cases inside
  | invalid negative same => cases inside
  | enteredPop unchanged idle operations => cases inside
  | closed queue pushed popped same => cases inside
  | continued inside unchanged same =>
      exact .stays coordinated summoned rfl rfl wakes
  | pushRefused inside unchanged refusal calling operations =>
      obtain ⟨rfl, now⟩ := summoned.coordinated.pushing calling
      rw [answer_pushRefused refusal] at coordinated ⊢
      exact .returns coordinated summoned.requested now
        ⟨rfl, fun _ => rfl⟩ false
  | pushed inside room accepting queue pushed popped calling operations =>
      obtain ⟨rfl, now⟩ := summoned.coordinated.pushing calling
      exact .returns coordinated summoned.requested now
        ⟨rfl, fun _ => rfl⟩ false
  | popRefused inside unchanged refusal drained calling operations =>
      rw [answer_popRefused] at coordinated ⊢
      exact .stays coordinated summoned rfl rfl wakes
  | popped inside filled queue pushed popped calling operations =>
      exact .stays coordinated summoned rfl rfl wakes

/-- Every step brings the accepting thread to the shutdown, or it stays on its
way there and comes nearer by its own steps. -/
theorem Summoned.step {setup : ServerSetup} {server after : Server}
    {action : ServerAction} (summoned : server.Summoned setup)
    (stepped : server.next setup action = some after) :
    server.Approaches setup after action.ofMain := by
  have transition := next_transition stepped
  have coordinated := summoned.coordinated.step transition
  have prompt := summoned.prompt
  cases action with
  | signal =>
      have same := MainState.interrupt_of_prompt prompt
      cases stepped
      apply Approaches.other
      · refine ⟨coordinated, rfl, ?_⟩
        change server.main.interrupt.prompt = true
        rw [same]
        exact prompt
      · rw [distance, distance]
        change server.main.interrupt.distance _ _ ≤ _
        rw [same]
  | create granted =>
      cases transition with
      | created now more =>
          refine .own ⟨coordinated, summoned.requested, rfl⟩ ?_ true
          rename_i created
          rw [distance, distance, now]
          change setup.workerCount - (created + 1) + 1 <
            setup.workerCount - created + 1
          omega
      | uncreated now => exact .inl (.unstarted now rfl)
  | accept answer =>
      cases transition with
      | unaccepted now =>
          rw [now] at prompt
          cases prompt
      | accepts now opened =>
          rw [now] at prompt
          cases prompt
  | main => exact summoned.mainStep stepped
  | queue action conversation =>
      simp only [next] at stepped
      split at stepped
      · rename_i permitted
        obtain ⟨inside, flag⟩ := Bool.and_eq_true_iff.mp permitted
        rw [summoned.requested] at flag
        obtain ⟨⟨system, returned⟩, moved, finished⟩ :=
          Option.map_eq_some_iff.mp stepped
        cases finished
        cases own : (ServerAction.queue action conversation).ofMain with
        | true =>
            exact summoned.ownQueueStep coordinated (eq_of_beq own) inside
              flag moved
        | false =>
            exact summoned.otherQueueStep coordinated inside flag moved
      · cases stepped
  | worker index =>
      cases transition with
      | workerCalls now called =>
          apply Approaches.stays coordinated summoned rfl rfl
          intro asleep
          simp only [QueueSystem.step] at called
          split at called
          · cases called
            exact QueueSystem.mainAsleep_set rfl rfl asleep
          · cases called
      | workerRecords now => exact .stays coordinated summoned rfl rfl id
      | workerCloses now => exact .stays coordinated summoned rfl rfl id
      | workerFinishes now => exact .stays coordinated summoned rfl rfl id

/-! ## The next step of the accepting thread -/

theorem runPush_possible (system : QueueSystem) (thread : Nat)
    (clientFd : Int) (aborted clock : Bool) :
    ∃ chosen stepped, system.runPush thread clientFd aborted clock chosen =
      some stepped := by
  obtain ⟨chosen, woken, signalled⟩ := condSignal_possible
    QueueCall.sleepsInPop (system.calls.set thread .idle)
  refine ⟨chosen, ?_⟩
  unfold QueueSystem.runPush
  generalize connectionQueuePush system.queue clientFd aborted clock = outcome
  obtain ⟨ending, queue⟩ := outcome
  cases ending with
  | waits => exact ⟨_, rfl⟩
  | returns status =>
      cases status with
      | ok =>
          simp only [signalled]
          exact ⟨_, rfl⟩
      | shutdown => exact ⟨_, rfl⟩
      | error => exact ⟨_, rfl⟩

/-- Inside its push the accepting thread can run a section, or the timed wait
ends. -/
theorem Summoned.push_goesOn {setup : ServerSetup} {server : Server}
    {clientFd : Int} (summoned : server.Summoned setup)
    (now : server.main = .pushing clientFd) :
    ∃ action, action.ofMain = true ∧
      (server.next setup action).isSome = true := by
  obtain ⟨call, found, operation⟩ := summoned.coordinated.mainCall
  rw [now] at operation
  cases call with
  | idle => cases operation
  | pop waiting => cases operation
  | push pushed waiting =>
      obtain ⟨chosen, stepped, ran⟩ :=
        runPush_possible server.system 0 pushed true true
      cases waiting with
      | asleep =>
          refine ⟨.queue (.wakeUp 0) .silent, rfl, ?_⟩
          simp only [next, QueueAction.inside, QueueAction.readsFlag,
            QueueSystem.step, found]
          rfl
      | entering =>
          refine ⟨.queue (.pushSection 0 true true chosen) .silent, rfl, ?_⟩
          simp only [next, QueueAction.inside, QueueAction.readsFlag,
            QueueSystem.step, found, summoned.requested, ran]
          rfl
      | woken =>
          refine ⟨.queue (.pushSection 0 true true chosen) .silent, rfl, ?_⟩
          simp only [next, QueueAction.inside, QueueAction.readsFlag,
            QueueSystem.step, found, summoned.requested, ran]
          rfl

theorem Summoned.goesOn {setup : ServerSetup} {server : Server}
    (summoned : server.Summoned setup) (staffed : server.Staffed setup) :
    ∃ action, action.ofMain = true ∧
      (server.next setup action).isSome = true := by
  have requested := summoned.requested
  have prompt := summoned.prompt
  cases now : server.main with
  | pushing clientFd => exact summoned.push_goesOn now
  | starting created =>
      have hired := staffed.hired
      rw [now] at hired
      rcases Nat.lt_or_eq_of_le hired with more | all
      · refine ⟨.create true, rfl, ?_⟩
        have fewer : created < setup.workerCount := more
        simp only [next, now, if_pos fewer, if_true]
        rfl
      · refine ⟨.main, rfl, ?_⟩
        have complete : created = setup.workerCount := all
        simp only [next, Server.mainStep, now, if_pos complete]
        rfl
  | counted clientFd =>
      obtain ⟨call, found, operation⟩ := summoned.coordinated.mainCall
      rw [now] at operation
      have idle : call = .idle := by
        cases call with
        | idle => rfl
        | push pushed waiting => cases operation
        | pop waiting => cases operation
      refine ⟨.main, rfl, ?_⟩
      simp only [next, Server.mainStep, now, QueueSystem.step, found, idle]
      split <;> rfl
  | testing =>
      refine ⟨.main, rfl, ?_⟩
      simp only [next, Server.mainStep, now, requested]
      rfl
  | closed status =>
      refine ⟨.main, rfl, ?_⟩
      simp only [next, Server.mainStep, now, requested, or_true, if_true]
      rfl
  | accepted clientFd =>
      refine ⟨.main, rfl, ?_⟩
      simp only [next, Server.mainStep, now]
      rfl
  | refused clientFd status =>
      refine ⟨.main, rfl, ?_⟩
      simp only [next, Server.mainStep, now]
      rfl
  | pushed =>
      refine ⟨.main, rfl, ?_⟩
      simp only [next, Server.mainStep, now]
      rfl
  | _ =>
      rw [now] at prompt
      cases prompt

theorem answer_starting {server : Server} {pending : List StatsEvent}
    {returned : Option QueueReturn} {created : Nat}
    (now : (server.answer pending returned).main = .starting created) :
    server.main = .starting created := by
  unfold answer at now
  split at now
  · exact now
  · cases now
  · cases now
  · exact now
  · exact now

/-- The workers are created before the loop begins. -/
theorem Transition.starting {setup : ServerSetup} {server after : Server}
    {action : ServerAction} {created : Nat}
    (transition : Transition setup server action after)
    (now : after.main = .starting created) :
    ∃ earlier, server.main = .starting earlier := by
  cases transition with
  | signalled =>
      have same : server.main = .starting created := by
        cases before : server.main with
        | starting count =>
            simp only [before, MainState.interrupt] at now
            exact now
        | _ =>
            simp only [before, MainState.interrupt] at now
            cases now
      exact ⟨created, same⟩
  | created before more => exact ⟨_, before⟩
  | turned turn => cases turn <;> cases now
  | calls before stepped => cases answer_starting now
  | inside inside stepped =>
      have same := answer_starting now
      exact ⟨created, same⟩
  | workerCalls before stepped => exact ⟨created, now⟩
  | workerRecords before => exact ⟨created, now⟩
  | workerCloses before => exact ⟨created, now⟩
  | workerFinishes before => exact ⟨created, now⟩
  | _ => cases now

/-- In its loop with a shutdown to notice. -/
structure Looping (setup : ServerSetup) (server : Server) : Prop where
  summoned : server.Summoned setup
  started : ∀ created, server.main ≠ .starting created

theorem Looping.step {setup : ServerSetup} {server after : Server}
    {action : ServerAction} (looping : server.Looping setup)
    (stepped : server.next setup action = some after) :
    after.main = .stopping setup.workerCount ∨
      after.Looping setup ∧ after.distance setup ≤ server.distance setup ∧
        (action.ofMain = true →
          after.distance setup < server.distance setup) := by
  rcases looping.summoned.step stepped with leaves | ⟨summoned, nearer⟩
  · cases leaves with
    | cleanup now => exact .inl now
    | unstarted before now => exact absurd before (looping.started _)
  · right
    refine ⟨⟨summoned, ?_⟩, nearer⟩
    intro created now
    obtain ⟨earlier, before⟩ := (next_transition stepped).starting now
    exact looping.started earlier before

theorem MainState.distance_loop {main : MainState} (workerCount : Nat)
    (asleep : Bool) (started : ∀ created, main ≠ .starting created) :
    main.distance workerCount asleep ≤ 4 := by
  cases main with
  | starting created => exact absurd rfl (started created)
  | pushing clientFd => cases asleep <;> simp [MainState.distance]
  | _ => simp only [MainState.distance]; omega

/-- When a shutdown was requested and the accepting thread is neither about to
call `accept` nor in it, it can take a step of its own.  From its loop it comes
to the label `cleanup` in any run by the fifth of them.  Before the loop, while
it creates the workers, it comes there when it has taken five more of them than
there are workers, or one of the workers could not be created. -/
theorem acceptLoop_stops_promptly {setup : ServerSetup} {server : Server}
    (reachable : (machine setup).Reachable server)
    (requested : server.shutdownRequested = true)
    (outside : server.main.prompt = true) :
    (∃ action, action.ofMain = true ∧
        (server.next setup action).isSome = true) ∧
      ((∀ created, server.main ≠ .starting created) →
        ∀ actions after,
          (machine setup).execute server actions = some after →
          4 < actions.countP ServerAction.ofMain →
          ∃ done rest middle, actions = done ++ rest ∧
            (machine setup).execute server done = some middle ∧
            middle.main = .stopping setup.workerCount) ∧
      ∀ actions after, (machine setup).execute server actions = some after →
        setup.workerCount + 4 < actions.countP ServerAction.ofMain →
        ∃ done rest middle, actions = done ++ rest ∧
          (machine setup).execute server done = some middle ∧
          (middle.main = .stopping setup.workerCount ∨
            ∃ created, middle.main = .abandoning 0 created) := by
  obtain ⟨coordinated, staffed⟩ := staffed_of_reachable reachable
  have summoned : server.Summoned setup :=
    ⟨coordinated, requested, outside⟩
  refine ⟨summoned.goesOn staffed, ?_, ?_⟩
  · intro started actions after executed enough
    have looping : server.Looping setup := ⟨summoned, started⟩
    apply Machine.reaches_of_measure (distance setup) _ looping executed
    · have near : server.distance setup ≤ 4 :=
        MainState.distance_loop _ _ started
      exact Nat.lt_of_le_of_lt near enough
    · intro before action next held stepped
      exact held.step stepped
  · intro actions after executed enough
    apply Machine.reaches_of_measure (distance setup) _ summoned executed
    · exact Nat.lt_of_le_of_lt (server.main.distance_le _ _) enough
    · intro before action next held stepped
      rcases held.step stepped with leaves | goesOn
      · left
        cases leaves with
        | cleanup now => exact .inl now
        | unstarted _ now => exact .inr ⟨_, now⟩
      · exact .inr goesOn

/-- The signal comes while the accepting thread sleeps for lack of room. -/
def summonedTrace : List ServerAction :=
  fullTrace ++
    [.main, .main, .queue (.pushSection 0 false true []) .silent, .signal]

def summonedServer : Server :=
  { fullServer with
    system := { fullServer.system with calls := [.push 6 .asleep, .idle] }
    main := .pushing 6
    stats :=
      { serverStatsInit with connectionsAccepted := 3, activeConnections := 2 }
    history := fullServer.history ++ [.connectionAccepted]
    shutdownRequested := true }

theorem summonedServer_reachable :
    (machine singleSetup).Reachable summonedServer := by
  have started : (machine singleSetup).Start (start singleSetup true) :=
    ⟨true, false, rfl⟩
  apply Machine.Reachable.execute (.start started)
  change (machine singleSetup).execute _ summonedTrace = some summonedServer
  decide +kernel

theorem acceptLoop_stops_promptly_asleep :
    summonedServer.system.mainAsleep = true ∧
      (∃ action, action.ofMain = true ∧
        (summonedServer.next singleSetup action).isSome = true) ∧
      ∀ actions after,
        (machine singleSetup).execute summonedServer actions = some after →
        4 < actions.countP ServerAction.ofMain →
        ∃ done rest middle, actions = done ++ rest ∧
          (machine singleSetup).execute summonedServer done = some middle ∧
          middle.main = .stopping 1 := by
  have prompt := acceptLoop_stops_promptly summonedServer_reachable rfl rfl
  refine ⟨rfl, prompt.1, prompt.2.1 ?_⟩
  intro created now
  cases now

end Server

end CinderHTTP
