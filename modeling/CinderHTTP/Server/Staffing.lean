import CinderHTTP.Queue.Wakeups
import CinderHTTP.Server.Coordination

/-!
# The workers that can be relied on

In every run the workers below the number that `server_run` counts as started
were created, no wakeup of the queue is lost, and a closing queue is one that
the accepting thread has closed on its way out.  A worker that is neither
asleep nor gone can always take its next step.
-/

namespace CinderHTTP

/-- The number of workers that `server_run` takes to be created. -/
def MainState.staff (workerCount : Nat) : MainState → Nat
  | .starting created => created
  | .abandoning _ created => created
  | .stopping started => started
  | .joining _ started => started
  | .destroying => 0
  | .returned => 0
  | _ => workerCount

/-- Whether the accepting thread is on its way to the end of `server_run`. -/
def MainState.leaving : MainState → Bool
  | .abandoning _ _ => true
  | .stopping _ => true
  | .joining _ _ => true
  | .destroying => true
  | _ => false

theorem MainState.interrupt_staff (main : MainState) (workerCount : Nat) :
    main.interrupt.staff workerCount = main.staff workerCount := by
  cases main <;> rfl

theorem MainState.interrupt_leaving (main : MainState) :
    main.interrupt.leaving = main.leaving := by
  cases main <;> rfl

namespace Server

/-! ## The queue system of the server -/

/-- What a step of the server does to its queue system. -/
inductive SystemStep (server after : Server) : Prop
  | rests (same : after.system = server.system)
  | steps {action : QueueAction} {answer : Option QueueReturn}
      (stepped : server.system.step action = some (after.system, answer))
  | destroyed (main : after.main = .returned)
      (calls : after.system.calls = server.system.calls)
      (queue : after.system.queue =
        (connectionQueueDestroy server.system.queue).2)

theorem answer_system (server : Server) (pending : List StatsEvent)
    (returned : Option QueueReturn) :
    (server.answer pending returned).system = server.system := by
  unfold answer
  split <;> rfl

theorem Transition.system {setup : ServerSetup} {server after : Server}
    {action : ServerAction}
    (transition : Transition setup server action after) :
    SystemStep server after := by
  have closes : server.system.step .shutdown =
      some (server.system.shutdown, none) := rfl
  cases transition with
  | uncreated now => exact .steps closes
  | calls now stepped =>
      apply SystemStep.steps
      rw [answer_system]
      exact stepped
  | stops now => exact .steps closes
  | destroys now => exact .destroyed rfl rfl rfl
  | inside inside stepped =>
      apply SystemStep.steps
      rw [answer_system]
      exact stepped
  | workerCalls now stepped => exact .steps stepped
  | _ => exact .rests rfl

theorem Coordinated.bounded {setup : ServerSetup} {server : Server}
    (coordinated : server.Coordinated setup) :
    server.system.queue.count ≤ server.system.queue.capacity := by
  by_cases returned : server.main = .returned
  · have empty := coordinated.queue
    simp only [QueueReady, returned] at empty
    omega
  · exact (coordinated.sound returned).invariant.valid.count

/-- No step of the server loses a wakeup. -/
theorem SystemStep.wakeful {server after : Server}
    (step : SystemStep server after) (wakeful : server.system.Wakeful)
    (bounded : server.system.queue.count ≤ server.system.queue.capacity) :
    after.system.Wakeful := by
  cases step with
  | rests same =>
      rw [same]
      exact wakeful
  | steps stepped =>
      exact wakeful.step (QueueSystem.step_calls bounded stepped)
  | destroyed main calls queue =>
      constructor
      · intro closing
        rw [queue] at closing
        cases closing
      · intro side
        have none : side.supply after.system.queue = 0 := by
          rw [queue]
          cases side <;> rfl
        rw [none]
        exact Covered.zero

/-! ## Staffing -/

structure Staffed (setup : ServerSetup) (server : Server) : Prop where
  wakeful : server.system.Wakeful
  hired : server.main.staff setup.workerCount ≤ setup.workerCount
  born : ∀ index worker, server.workers[index]? = some worker →
    index < server.main.staff setup.workerCount → worker ≠ .unborn
  closing : server.system.queue.shuttingDown = true →
    server.main.leaving = true

theorem Staffed.stepMain {setup : ServerSetup} {server after : Server}
    (staffed : server.Staffed setup) (wakeful : after.system.Wakeful)
    (workers : after.workers = server.workers)
    (staff : after.main.staff setup.workerCount ≤
      server.main.staff setup.workerCount)
    (closing : after.system.queue.shuttingDown = true →
      after.main.leaving = true) : after.Staffed setup := by
  constructor
  · exact wakeful
  · exact Nat.le_trans staff staffed.hired
  · intro index worker found early
    rw [workers] at found
    exact staffed.born index worker found (Nat.lt_of_lt_of_le early staff)
  · exact closing

theorem Staffed.stepWorker {setup : ServerSetup} {server after : Server}
    {index : Nat} {new : WorkerState} (staffed : server.Staffed setup)
    (wakeful : after.system.Wakeful) (main : after.main = server.main)
    (workers : after.workers = server.workers.set index new)
    (born : new ≠ .unborn)
    (closing : after.system.queue.shuttingDown =
      server.system.queue.shuttingDown) : after.Staffed setup := by
  constructor
  · exact wakeful
  · rw [main]
    exact staffed.hired
  · intro other worker found early
    rw [main] at early
    rw [workers] at found
    rcases getElem?_set_cases found with ⟨_, rfl⟩ | ⟨_, same⟩
    · exact born
    · exact staffed.born other worker same early
  · rw [closing, main]
    exact staffed.closing

/-- Only `connection_queue_shutdown` closes the queue. -/
theorem shuttingDown_of_inside {system after : QueueSystem}
    {action : QueueAction} {returned : Option QueueReturn}
    (inside : action.inside = true)
    (effect : system.Effect after action returned) :
    after.queue.shuttingDown = system.queue.shuttingDown := by
  cases effect with
  | enteredPush unchanged nonnegative idle operations => cases inside
  | invalid negative same => cases inside
  | enteredPop unchanged idle operations => cases inside
  | closed queue pushed popped same => cases inside
  | continued inside unchanged same => rw [unchanged.queue]
  | pushRefused inside unchanged refusal calling operations =>
      rw [unchanged.queue]
  | popRefused inside unchanged refusal drained calling operations =>
      rw [unchanged.queue]
  | pushed inside room accepting queue pushed popped calling operations =>
      rw [queue]
  | popped inside filled queue pushed popped calling operations =>
      rw [queue]

/-- A queue that is used outside the shutdown is open. -/
theorem Staffed.not_closing {setup : ServerSetup} {server : Server}
    (staffed : server.Staffed setup) (stays : server.main.leaving = false) :
    server.system.queue.shuttingDown = false := by
  cases closing : server.system.queue.shuttingDown with
  | false => rfl
  | true =>
      rw [staffed.closing closing] at stays
      cases stays

theorem Staffed.stepOpen {setup : ServerSetup} {server after : Server}
    (staffed : server.Staffed setup) (wakeful : after.system.Wakeful)
    (workers : after.workers = server.workers)
    (moves : after.main.staff setup.workerCount =
      server.main.staff setup.workerCount ∧ server.main.leaving = false)
    (closing : after.system.queue.shuttingDown =
      server.system.queue.shuttingDown) : after.Staffed setup := by
  apply staffed.stepMain wakeful workers (Nat.le_of_eq moves.1)
  intro closed
  rw [closing, staffed.not_closing moves.2] at closed
  cases closed

theorem Staffed.stepInside {setup : ServerSetup} {server : Server}
    {system : QueueSystem} {action : QueueAction}
    {returned : Option QueueReturn} (pending : List StatsEvent)
    (staffed : server.Staffed setup)
    (coordinated : server.Coordinated setup)
    (wakeful : system.Wakeful) (inside : action.inside = true)
    (effect : server.system.Effect system action returned) :
    (answer { server with system := system } pending returned).Staffed
      setup := by
  have flag := shuttingDown_of_inside inside effect
  cases effect with
  | enteredPush unchanged nonnegative idle operations => cases inside
  | invalid negative same => cases inside
  | enteredPop unchanged idle operations => cases inside
  | closed queue pushed popped same => cases inside
  | continued inside unchanged same =>
      refine staffed.stepMain wakeful rfl (Nat.le_refl _) ?_
      intro closing
      exact staffed.closing (flag.symm.trans closing)
  | pushRefused inside unchanged refusal calling operations =>
      obtain ⟨rfl, now⟩ := coordinated.pushing calling
      rw [answer_pushRefused refusal]
      refine staffed.stepOpen wakeful rfl ?_ flag
      rw [now]
      exact ⟨rfl, rfl⟩
  | pushed inside room accepting queue pushed popped calling operations =>
      obtain ⟨rfl, now⟩ := coordinated.pushing calling
      refine staffed.stepOpen wakeful rfl ?_ flag
      rw [now]
      exact ⟨rfl, rfl⟩
  | popRefused inside unchanged refusal drained calling operations =>
      rw [answer_popRefused]
      exact staffed.stepWorker wakeful rfl rfl (by decide) flag
  | popped inside filled queue pushed popped calling operations =>
      exact staffed.stepWorker wakeful rfl rfl (by simp) flag

theorem Staffed.stepCall {setup : ServerSetup} {server : Server}
    {system : QueueSystem} {clientFd : Int} {returned : Option QueueReturn}
    (staffed : server.Staffed setup) (wakeful : system.Wakeful)
    (now : server.main = .counted clientFd)
    (effect : server.system.Effect system (.callPush 0 clientFd) returned) :
    (answer { server with system := system, main := .pushing clientFd } []
      returned).Staffed setup := by
  have flag := fun unchanged : server.system.Unchanged system =>
    congrArg ConnectionQueue.shuttingDown unchanged.queue
  obtain ⟨unchanged, entered | refused⟩ := effect.of_callPush
  · obtain ⟨rfl, _⟩ := entered
    refine staffed.stepOpen wakeful rfl ?_ (flag unchanged)
    rw [now]
    exact ⟨rfl, rfl⟩
  · obtain ⟨rfl, _⟩ := refused
    refine staffed.stepOpen wakeful rfl ?_ (flag unchanged)
    rw [now]
    exact ⟨rfl, rfl⟩

theorem Staffed.stepCreate {setup : ServerSetup} {server : Server}
    {created : Nat} (staffed : server.Staffed setup)
    (now : server.main = .starting created)
    (more : created < setup.workerCount) :
    ((server.setWorker created .calling).setMain
      (.starting (created + 1))).Staffed setup := by
  constructor
  · exact staffed.wakeful
  · exact more
  · intro index worker found early
    rcases getElem?_set_cases found with ⟨_, rfl⟩ | ⟨other, same⟩
    · exact WorkerState.noConfusion
    · apply staffed.born index worker same
      rw [now]
      have reached : index < created + 1 := early
      change index < created
      omega
  · intro closing
    have leaves := staffed.closing closing
    rw [now] at leaves
    cases leaves

theorem Turn.staff {setup : ServerSetup} {server : Server}
    {main : MainState} (turn : Turn setup server main) :
    main.staff setup.workerCount ≤ server.main.staff setup.workerCount ∧
      (server.main.leaving = true → main.leaving = true) := by
  cases turn with
  | leaves now =>
      rcases now with now | ⟨status, now⟩
      · rw [now]
        exact ⟨Nat.le_refl _, fun _ => rfl⟩
      · rw [now]
        exact ⟨Nat.le_refl _, fun _ => rfl⟩
  | runs now => rw [now]; exact ⟨Nat.le_refl _, id⟩
  | abandons now exited => rw [now]; exact ⟨Nat.le_refl _, id⟩
  | abandoned now all => rw [now]; exact ⟨Nat.zero_le _, id⟩
  | goesOn now => rw [now]; exact ⟨Nat.le_refl _, id⟩
  | blocks now => rw [now]; exact ⟨Nat.le_refl _, id⟩
  | retries now => rw [now]; exact ⟨Nat.le_refl _, id⟩
  | joins now exited => rw [now]; exact ⟨Nat.le_refl _, id⟩
  | joined now all => rw [now]; exact ⟨Nat.zero_le _, id⟩

/-- Every step of the server keeps it staffed. -/
theorem Staffed.step {setup : ServerSetup} {server after : Server}
    {action : ServerAction} (staffed : server.Staffed setup)
    (coordinated : server.Coordinated setup)
    (transition : Transition setup server action after) :
    after.Staffed setup := by
  have wakeful := transition.system.wakeful staffed.wakeful
    coordinated.bounded
  cases transition with
  | signalled =>
      refine staffed.stepMain wakeful rfl ?_ ?_
      · exact Nat.le_of_eq (server.main.interrupt_staff _)
      · intro closing
        exact server.main.interrupt_leaving.trans (staffed.closing closing)
  | created now more => exact staffed.stepCreate now more
  | uncreated now =>
      refine staffed.stepMain wakeful rfl ?_ ?_
      · rw [now]
        exact Nat.le_refl _
      · exact fun _ => rfl
  | turned turn =>
      refine staffed.stepMain wakeful rfl turn.staff.1 ?_
      exact fun closing => turn.staff.2 (staffed.closing closing)
  | unaccepted now =>
      refine staffed.stepOpen wakeful rfl ?_ rfl
      rw [now]
      exact ⟨rfl, rfl⟩
  | accepts now opened =>
      refine staffed.stepOpen wakeful rfl ?_ rfl
      rw [now]
      exact ⟨rfl, rfl⟩
  | counts now =>
      refine staffed.stepOpen wakeful rfl ?_ rfl
      rw [now]
      exact ⟨rfl, rfl⟩
  | calls now stepped =>
      rw [answer_system] at wakeful
      exact staffed.stepCall wakeful now (QueueSystem.step_effect stepped)
  | closes now =>
      refine staffed.stepOpen wakeful rfl ?_ rfl
      rw [now]
      exact ⟨rfl, rfl⟩
  | starts now =>
      refine staffed.stepOpen wakeful rfl ?_ rfl
      rw [now]
      exact ⟨rfl, rfl⟩
  | stops now =>
      refine staffed.stepMain wakeful rfl ?_ ?_
      · rw [now]
        exact Nat.le_refl _
      · exact fun _ => rfl
  | destroys now =>
      refine staffed.stepMain wakeful rfl (Nat.zero_le _) ?_
      intro closing
      cases closing
  | inside inside stepped =>
      rw [answer_system] at wakeful
      exact staffed.stepInside _ coordinated wakeful inside
        (QueueSystem.step_effect stepped)
  | workerCalls now stepped =>
      refine staffed.stepWorker wakeful rfl rfl (by decide) ?_
      exact congrArg ConnectionQueue.shuttingDown
        (QueueSystem.step_effect stepped).of_callPop.1.queue
  | workerRecords now =>
      exact staffed.stepWorker wakeful rfl rfl (by simp) rfl
  | workerCloses now =>
      exact staffed.stepWorker wakeful rfl rfl (by decide) rfl
  | workerFinishes now =>
      exact staffed.stepWorker wakeful rfl rfl (by decide) rfl

theorem not_closing_of_start {setup : ServerSetup} {server : Server}
    (started : (machine setup).Start server) :
    server.system.queue.shuttingDown = false := by
  obtain ⟨ready, requested, rfl⟩ := started
  unfold start
  dsimp only
  split
  · rfl
  · split
    · rfl
    · rename_i queue created
      unfold connectionQueueInit at created
      split at created
      · cases created
      · cases created
        rfl

theorem staffed_of_start {setup : ServerSetup} {server : Server}
    (started : (machine setup).Start server) : server.Staffed setup := by
  have fresh := fresh_of_start started
  have none : server.main.staff setup.workerCount = 0 := by
    rcases fresh.main with now | ⟨now, _⟩
    · rw [now]
      rfl
    · rw [now]
      rfl
  have initial : QueueSystem.start server.system.queue
      (setup.workerCount + 1) = server.system := by
    rw [QueueSystem.start, ← fresh.calls]
    congr
    · exact fresh.pushed.symm
    · exact fresh.popped.symm
  constructor
  · rw [← initial]
    exact QueueSystem.start_wakeful _ _
  · rw [none]
    exact Nat.zero_le _
  · intro index worker _ early
    rw [none] at early
    exact absurd early (Nat.not_lt_zero _)
  · intro closing
    rw [not_closing_of_start started] at closing
    cases closing

/-- The server is staffed in every state of a run. -/
theorem staffed_of_reachable {setup : ServerSetup} {server : Server}
    (reachable : (machine setup).Reachable server) :
    server.Coordinated setup ∧ server.Staffed setup := by
  apply reachable.invariant
  · intro start started
    exact ⟨(fresh_of_start started).coordinated, staffed_of_start started⟩
  · intro before action after held stepped
    have transition := next_transition stepped
    exact ⟨held.1.step transition, held.2.step held.1 transition⟩

/-! ## Steps that are possible -/

/-- Some choice of sleepers is always right for a signal. -/
theorem condSignal_possible (sleeps : QueueCall → Bool)
    (calls : List QueueCall) :
    ∃ chosen woken, condSignal sleeps chosen calls = some woken := by
  refine ⟨List.range calls.length, ?_⟩
  unfold condSignal
  rw [if_neg]
  · exact ⟨_, rfl⟩
  · intro missed
    rw [Bool.and_eq_true, List.any_eq_true, Bool.not_eq_true',
      List.any_eq_false] at missed
    obtain ⟨⟨call, member, asleep⟩, none⟩ := missed
    obtain ⟨thread, bound, rfl⟩ := List.getElem_of_mem member
    apply none thread (List.mem_range.mpr bound)
    rw [List.getElem?_eq_getElem bound]
    exact asleep

theorem popSection_possible {system : QueueSystem} {thread : Nat}
    {waiting : Waiting}
    (found : system.calls[thread]? = some (.pop waiting))
    (awake : waiting ≠ .asleep) :
    ∃ chosen stepped, system.step (.popSection thread chosen) =
      some stepped := by
  obtain ⟨chosen, woken, signalled⟩ := condSignal_possible
    QueueCall.sleepsInPush (system.calls.set thread .idle)
  have possible : ∃ stepped, system.runPop thread chosen = some stepped := by
    have outcomes := connectionQueuePop_section system.queue
    unfold QueueSystem.runPop
    generalize connectionQueuePop system.queue = outcome at outcomes
    cases outcomes with
    | waits => exact ⟨_, rfl⟩
    | drained empty closing => exact ⟨_, rfl⟩
    | taken filled =>
        simp only [signalled]
        exact ⟨_, rfl⟩
  obtain ⟨stepped, ran⟩ := possible
  refine ⟨chosen, stepped, ?_⟩
  cases waiting with
  | entering => simpa only [QueueSystem.step, found] using ran
  | asleep => exact absurd rfl awake
  | woken => simpa only [QueueSystem.step, found] using ran

theorem Coordinated.call {setup : ServerSetup} {server : Server}
    {index : Nat} {worker : WorkerState}
    (coordinated : server.Coordinated setup)
    (found : server.workers[index]? = some worker) :
    ∃ call, server.system.calls[index + 1]? = some call ∧
      call.operation = worker.operation := by
  have linked : server.system.operations[index + 1]? =
      some worker.operation := by
    rw [coordinated.linked, List.getElem?_cons_succ, List.getElem?_map,
      found]
    rfl
  rw [QueueSystem.operations, List.getElem?_map] at linked
  exact Option.map_eq_some_iff.mp linked

/-- The next step of a worker, outside or inside its queue call. -/
def OwnStep (setup : ServerSetup) (server : Server) (index : Nat) : Prop :=
  (server.next setup (.worker index)).isSome ∨
    ∃ chosen, ∀ conversation, (server.next setup
      (.queue (.popSection (index + 1) chosen) conversation)).isSome

/-- A worker that is neither gone nor asleep can go on. -/
theorem Coordinated.worker_goesOn {setup : ServerSetup} {server : Server}
    {index : Nat} {worker : WorkerState}
    (coordinated : server.Coordinated setup)
    (found : server.workers[index]? = some worker)
    (active : worker.gone = false)
    (awake : server.system.calls[index + 1]? ≠ some (.pop .asleep)) :
    server.OwnStep setup index := by
  obtain ⟨call, located, operation⟩ := coordinated.call found
  cases worker with
  | unborn => cases active
  | exited => cases active
  | calling =>
      have idle : call = .idle := by
        cases call with
        | idle => rfl
        | push clientFd waiting => cases operation
        | pop waiting => cases operation
      left
      simp only [next, workerStep, found, QueueSystem.step, located, idle]
      rfl
  | popping =>
      right
      cases call with
      | idle => cases operation
      | push clientFd waiting => cases operation
      | pop waiting =>
          have awakened : waiting ≠ .asleep := by
            intro asleep
            rw [asleep] at located
            exact awake located
          obtain ⟨chosen, stepped, ran⟩ :=
            popSection_possible located awakened
          refine ⟨chosen, fun conversation => ?_⟩
          simp only [next, QueueAction.inside, QueueAction.readsFlag, ran]
          rfl
  | handling clientFd pending =>
      left
      cases pending with
      | nil =>
          simp only [next, workerStep, found]
          rfl
      | cons event pending =>
          simp only [next, workerStep, found]
          rfl
  | closed =>
      left
      simp only [next, workerStep, found]
      rfl

end Server

end CinderHTTP
