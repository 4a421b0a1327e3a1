import CinderHTTP.Server.Ownership
import CinderHTTP.Server.Staffing

/-!
# The load of the server

How many connections the server can have open, and what becomes of those in
the queue: as long as the pthread calls of the workers succeed, no worker
leaves before the queue is closed and empty, so that a queued connection
always finds a worker that can go on, and none is left when `server_run`
returns.
-/

namespace CinderHTTP

theorem MainState.length_held (main : MainState) : main.held.length ≤ 1 := by
  cases main with
  | accepted clientFd => exact Nat.le_refl 1
  | counted clientFd => exact Nat.le_refl 1
  | pushing clientFd => exact Nat.le_refl 1
  | refused clientFd status => exact Nat.le_refl 1
  | _ => exact Nat.zero_le 1

theorem length_flatMap_held (workers : List WorkerState) :
    (workers.flatMap WorkerState.held).length ≤ workers.length := by
  induction workers with
  | nil => exact Nat.le_refl 0
  | cons worker workers induction =>
      have single : worker.held.length ≤ 1 := by
        cases worker with
        | handling clientFd pending => exact Nat.le_refl 1
        | _ => exact Nat.zero_le 1
      rw [List.flatMap_cons, List.length_append, List.length_cons]
      omega

namespace Server

/-! ## Open connections -/

theorem Coordinated.count_le {setup : ServerSetup} {server : Server}
    (coordinated : server.Coordinated setup) :
    server.system.queue.count ≤ setup.queueCapacity := by
  by_cases returned : server.main = .returned
  · have empty := coordinated.queue
    simp only [QueueReady, returned] at empty
    omega
  · have invariant := (coordinated.sound returned).invariant
    rw [← invariant.capacity]
    exact invariant.valid.count

/-- The open connections are those in the hands of the accepting thread, of
the queue and of the workers. -/
theorem serverRun_backpressure {setup : ServerSetup} {server : Server}
    (reachable : (machine setup).Reachable server) :
    server.sockets.opened.length ≤
        setup.workerCount + setup.queueCapacity + 1 ∧
      (server.main = .accepting → server.sockets.opened.length ≤
        setup.workerCount + setup.queueCapacity) := by
  obtain ⟨coordinated, owned⟩ := owned_of_reachable reachable
  have split : server.sockets.opened.length =
      server.main.held.length + server.system.queue.count +
        (server.workers.flatMap WorkerState.held).length := by
    have lengths := owned.held.length_eq
    rw [Sockets.numbers, List.length_map, held, List.length_append,
      List.length_append, Ring.contents_length] at lengths
    exact lengths
  have queued := coordinated.count_le
  have handled := length_flatMap_held server.workers
  rw [coordinated.size] at handled
  constructor
  · have one := server.main.length_held
    omega
  · intro now
    have none : server.main.held.length = 0 := by
      rw [now]
      rfl
    omega

/-- The worker handles one connection, one is queued, and a third was just
accepted. -/
def fullTrace : List ServerAction :=
  [.create true, .main] ++ acceptTrace 4 ++
    [.main, .worker 0, .queue (.popSection 1 []) .silent] ++
    acceptTrace 5 ++ [.main, .main, .main, .accept (some 6)]

def fullServer : Server :=
  { system :=
      { queue :=
          { items := [5], capacity := 1, head := 0, tail := 0, count := 1
            shuttingDown := false }
        calls := [.idle, .idle]
        pushed := [4, 5]
        popped := [4] }
    main := .accepted 6
    workers := [.handling 4 []]
    stats :=
      { serverStatsInit with connectionsAccepted := 2, activeConnections := 2 }
    history :=
      [.connectionAccepted, .connectionStarted, .connectionAccepted,
        .connectionStarted]
    sockets :=
      { opened := [(6, 2), (5, 1), (4, 0)], accepted := 3, closed := []
        strayCloses := [], distinct := by decide }
    shutdownRequested := false
    result := -1 }

theorem fullServer_reachable : (machine singleSetup).Reachable fullServer := by
  have started : (machine singleSetup).Start (start singleSetup true) :=
    ⟨true, false, rfl⟩
  apply Machine.Reachable.execute (.start started)
  change (machine singleSetup).execute _ fullTrace = some fullServer
  decide +kernel

theorem serverRun_backpressure_full :
    fullServer.sockets.opened.length = 3 ∧
      fullServer.sockets.opened.length ≤ 1 + 1 + 1 :=
  ⟨rfl, (serverRun_backpressure fullServer_reachable).1⟩

/-! ## Draining -/

/-- No pthread call of a worker fails. -/
def Reliable (_ : Server) : ServerAction → Prop
  | .queue (.lockFails thread) _ => thread = 0
  | .queue (.waitFails thread) _ => thread = 0
  | _ => True

theorem runPush_not_pop {system after : QueueSystem} {thread popper : Nat}
    {clientFd : Int} {aborted clock : Bool} {chosen : List Nat}
    {status : QueueStatus} {stored : Option Int} :
    system.runPush thread clientFd aborted clock chosen ≠
      some (after, some (.pop popper status stored)) := by
  intro stepped
  unfold QueueSystem.runPush at stepped
  split at stepped
  · cases stepped
  · obtain ⟨calls, _, finished⟩ := Option.map_eq_some_iff.mp stepped
    cases finished
  · cases stepped

theorem runPop_status {system after : QueueSystem} {thread popper : Nat}
    {chosen : List Nat} {status : QueueStatus} {stored : Option Int}
    (stepped : system.runPop thread chosen =
      some (after, some (.pop popper status stored))) : status ≠ .error := by
  have outcomes := connectionQueuePop_section system.queue
  unfold QueueSystem.runPop at stepped
  generalize connectionQueuePop system.queue = outcome at stepped outcomes
  cases outcomes with
  | waits => cases stepped
  | drained empty closing =>
      cases stepped
      decide
  | taken filled =>
      obtain ⟨calls, _, finished⟩ := Option.map_eq_some_iff.mp stepped
      cases finished
      decide

theorem pop_status_of_reliable {server : Server} {system : QueueSystem}
    {action : QueueAction} {conversation : Conversation} {index : Nat}
    {status : QueueStatus} {stored : Option Int}
    (reliable : server.Reliable (.queue action conversation))
    (stepped : server.system.step action =
      some (system, some (.pop (index + 1) status stored))) :
    status ≠ .error := by
  cases action with
  | callPush thread clientFd =>
      simp only [QueueSystem.step] at stepped
      split at stepped
      · split at stepped
        · cases stepped
        · cases stepped
      · cases stepped
  | callPop thread =>
      simp only [QueueSystem.step] at stepped
      split at stepped
      · cases stepped
      · cases stepped
  | shutdown => cases stepped
  | lockFails thread =>
      obtain rfl : thread = 0 := reliable
      simp only [QueueSystem.step] at stepped
      split at stepped
      · cases stepped
      · cases stepped
      · cases stepped
  | waitFails thread =>
      obtain rfl : thread = 0 := reliable
      simp only [QueueSystem.step] at stepped
      split at stepped
      · cases stepped
      · cases stepped
      · cases stepped
  | wakeUp thread =>
      simp only [QueueSystem.step] at stepped
      split at stepped
      · cases stepped
      · cases stepped
      · cases stepped
  | pushSection thread aborted clock chosen =>
      simp only [QueueSystem.step] at stepped
      split at stepped
      · exact absurd stepped runPush_not_pop
      · exact absurd stepped runPush_not_pop
      · cases stepped
  | popSection thread chosen =>
      simp only [QueueSystem.step] at stepped
      split at stepped
      · exact runPop_status stepped
      · exact runPop_status stepped
      · cases stepped

end Server

/-- What the state of the accepting thread says about the connections that
were queued and those that were popped. -/
def MainState.Drains (workerCount : Nat) (pushed popped : List Int) :
    MainState → Prop
  | .starting _ => pushed = []
  | .abandoning _ _ => pushed = []
  | .stopping started => started = workerCount ∨ pushed = []
  | .joining _ started => started = workerCount ∨ pushed = []
  | .destroying => popped = pushed
  | .returned => popped = pushed
  | _ => True

theorem MainState.Drains.interrupt {main : MainState} {workerCount : Nat}
    {pushed popped : List Int} (drains : main.Drains workerCount pushed popped) :
    main.interrupt.Drains workerCount pushed popped := by
  cases main with
  | accepting => trivial
  | _ => exact drains

/-- Until all workers are gone it does not matter what was popped. -/
theorem MainState.Drains.pop {main : MainState} {workerCount : Nat}
    {pushed popped : List Int} (drains : main.Drains workerCount pushed popped)
    (undestroyed : main ≠ .destroying) (running : main ≠ .returned)
    (more : List Int) : main.Drains workerCount pushed more := by
  cases main with
  | destroying => exact absurd rfl undestroyed
  | returned => exact absurd rfl running
  | _ => exact drains

namespace Server

structure Drained (setup : ServerSetup) (server : Server) : Prop where
  /-- There are no workers only where `server_run` returns at once. -/
  manned : server.main = .returned ∨ 0 < setup.workerCount
  exits : ∀ index : Nat, server.workers[index]? = some .exited →
    server.main = .returned ∨
      server.system.queue.shuttingDown = true ∧
        server.system.queue.count = 0
  drains : server.main.Drains setup.workerCount server.system.pushed
    server.system.popped

theorem Coordinated.not_destroying {setup : ServerSetup} {server : Server}
    {index : Nat} {worker : WorkerState}
    (coordinated : server.Coordinated setup)
    (found : server.workers[index]? = some worker)
    (active : worker.gone = false) : server.main ≠ .destroying := by
  intro destroying
  have expected := coordinated.phase index worker found
  rw [destroying] at expected
  have gone : worker.gone = true := expected
  rw [active] at gone
  cases gone

theorem Transition.returned {setup : ServerSetup} {server after : Server}
    {action : ServerAction}
    (transition : Transition setup server action after)
    (coordinated : server.Coordinated setup)
    (returned : server.main = .returned) : after.main = .returned := by
  cases transition with
  | signalled =>
      change server.main.interrupt = .returned
      rw [returned]
      rfl
  | turned turn => exact absurd returned turn.idle.2.2.1
  | inside inside stepped =>
      cases QueueSystem.step_effect stepped with
      | enteredPush unchanged nonnegative idle operations => cases inside
      | invalid negative same => cases inside
      | enteredPop unchanged idle operations => cases inside
      | closed queue pushed popped same => cases inside
      | continued inside unchanged same => exact returned
      | pushRefused inside unchanged refusal calling operations =>
          obtain ⟨_, now⟩ := coordinated.pushing calling
          rw [returned] at now
          cases now
      | pushed inside room accepting queue pushed popped calling
          operations =>
          obtain ⟨_, now⟩ := coordinated.pushing calling
          rw [returned] at now
          cases now
      | popRefused inside unchanged refusal drained calling operations =>
          rw [answer_popRefused]
          exact returned
      | popped inside filled queue pushed popped calling operations =>
          exact returned
  | workerCalls now stepped => exact returned
  | workerRecords now => exact returned
  | workerCloses now => exact returned
  | workerFinishes now => exact returned
  | destroys now => rfl
  | created now more => rw [returned] at now; cases now
  | uncreated now => rw [returned] at now; cases now
  | unaccepted now => rw [returned] at now; cases now
  | accepts now opened => rw [returned] at now; cases now
  | counts now => rw [returned] at now; cases now
  | calls now stepped => rw [returned] at now; cases now
  | closes now => rw [returned] at now; cases now
  | starts now => rw [returned] at now; cases now
  | stops now => rw [returned] at now; cases now

/-- A closed and empty queue stays so until it is destroyed. -/
theorem SystemStep.drained {server after : Server}
    (step : SystemStep server after)
    (closing : server.system.queue.shuttingDown = true)
    (empty : server.system.queue.count = 0) :
    after.main = .returned ∨
      after.system.queue.shuttingDown = true ∧
        after.system.queue.count = 0 := by
  cases step with
  | rests same =>
      rw [same]
      exact .inr ⟨closing, empty⟩
  | destroyed main calls queue => exact .inl main
  | steps stepped =>
      right
      have effect := QueueSystem.step_effect stepped
      obtain ⟨closed, noPush⟩ := effect.closed_stays closing
      refine ⟨closed, ?_⟩
      have unmoved := effect.unmoved noPush ?_
      · rw [unmoved]
        exact empty
      · rintro thread stored rfl
        cases effect with
        | popRefused inside unchanged refusal => exact refusal rfl
        | popped inside filled => omega

theorem Drained.keeps {setup : ServerSetup} {server after : Server}
    {action : ServerAction} (drained : server.Drained setup)
    (coordinated : server.Coordinated setup)
    (transition : Transition setup server action after)
    (exited : ∀ index : Nat, after.workers[index]? = some .exited →
      server.workers[index]? = some .exited)
    (drains : after.main.Drains setup.workerCount after.system.pushed
      after.system.popped) : after.Drained setup := by
  constructor
  · rcases drained.manned with returned | positive
    · exact .inl (transition.returned coordinated returned)
    · exact .inr positive
  · intro index found
    rcases drained.exits index (exited index found) with
      returned | ⟨closing, empty⟩
    · exact .inl (transition.returned coordinated returned)
    · exact transition.system.drained closing empty
  · exact drains

theorem exited_of_set {workers : List WorkerState} {index other : Nat}
    {new : WorkerState} (works : new ≠ .exited)
    (found : (workers.set index new)[other]? = some .exited) :
    workers[other]? = some .exited := by
  rcases getElem?_set_cases found with ⟨_, same⟩ | ⟨_, same⟩
  · exact absurd same.symm works
  · exact same

/-- When all workers are joined, everything that was queued was popped. -/
theorem Drained.joined {setup : ServerSetup} {server : Server}
    {joined started : Nat} (drained : server.Drained setup)
    (coordinated : server.Coordinated setup)
    (staffed : server.Staffed setup)
    (now : server.main = .joining joined started) (all : started ≤ joined) :
    server.system.popped = server.system.pushed := by
  have running : server.main ≠ .returned := by simp [now]
  have order := (coordinated.sound running).order
  have drains := drained.drains
  rw [now] at drains
  rcases drains with whole | none
  · have positive := drained.manned.resolve_left running
    have bound : 0 < server.workers.length := by
      rw [coordinated.size]
      exact positive
    have found := List.getElem?_eq_getElem bound
    have expected := coordinated.phase 0 _ found
    have born := staffed.born 0 _ found
    rw [now] at expected born
    have gone := expected (.inl (by omega))
    have alive := born (Nat.lt_of_lt_of_eq positive whole.symm)
    generalize server.workers[0] = worker at found gone alive
    cases worker with
    | exited =>
        obtain ⟨_, empty⟩ := (drained.exits 0 found).resolve_left running
        have contents : server.system.queue.contents = [] := by
          apply List.length_eq_zero_iff.mp
          rw [Ring.contents_length]
          exact empty
        rwa [contents, List.append_nil] at order
    | unborn => exact absurd rfl alive
    | _ => cases gone
  · rw [none] at order ⊢
    exact (List.append_eq_nil_iff.mp order).1

theorem Turn.drains {setup : ServerSetup} {server : Server}
    {main : MainState} (drained : server.Drained setup)
    (coordinated : server.Coordinated setup)
    (staffed : server.Staffed setup) (turn : Turn setup server main) :
    main.Drains setup.workerCount server.system.pushed
      server.system.popped := by
  have drains := drained.drains
  cases turn with
  | runs now => trivial
  | abandons now exited =>
      rw [now] at drains
      exact drains
  | abandoned now all =>
      rw [now] at drains
      exact .inr drains
  | leaves now => exact .inl rfl
  | goesOn now => trivial
  | blocks now => trivial
  | retries now => trivial
  | joins now exited =>
      rw [now] at drains
      exact drains
  | joined now all => exact drained.joined coordinated staffed now all

theorem Drained.stepInside {setup : ServerSetup} {server : Server}
    {system : QueueSystem} {action : QueueAction}
    {conversation : Conversation} {returned : Option QueueReturn}
    (drained : server.Drained setup)
    (coordinated : server.Coordinated setup)
    (reliable : server.Reliable (.queue action conversation))
    (inside : action.inside = true)
    (stepped : server.system.step action = some (system, returned)) :
    (answer { server with system := system }
      (conversation.events setup.config) returned).Drained setup := by
  have transition : Transition setup server (.queue action conversation) _ :=
    .inside inside stepped
  have keeps := drained.keeps coordinated transition
  cases QueueSystem.step_effect stepped with
  | enteredPush unchanged nonnegative idle operations => cases inside
  | invalid negative same => cases inside
  | enteredPop unchanged idle operations => cases inside
  | closed queue pushed popped same => cases inside
  | continued inside unchanged same =>
      apply keeps (fun _ found => found)
      change server.main.Drains _ system.pushed system.popped
      rw [unchanged.pushed, unchanged.popped]
      exact drained.drains
  | pushRefused inside unchanged refusal calling operations =>
      rw [answer_pushRefused refusal] at keeps ⊢
      exact keeps (fun _ found => found) trivial
  | pushed inside room accepting queue pushed popped calling operations =>
      exact keeps (fun _ found => found) trivial
  | popped inside filled queue pushed popped calling operations =>
      obtain ⟨index, rfl, found⟩ := coordinated.popping calling
      apply keeps (fun _ => exited_of_set (by simp))
      change server.main.Drains _ system.pushed system.popped
      rw [pushed]
      exact drained.drains.pop (coordinated.not_destroying found rfl)
        (coordinated.running found rfl) _
  | popRefused inside unchanged refusal emptied calling operations =>
      obtain ⟨index, rfl, found⟩ := coordinated.popping calling
      have running := coordinated.running found rfl
      rename_i status
      rw [answer_popRefused]
      constructor
      · exact .inr (drained.manned.resolve_left running)
      · intro other located
        right
        change system.queue.shuttingDown = true ∧ system.queue.count = 0
        rw [unchanged.queue]
        -- the worker has left because the queue is closed and empty
        cases status with
        | ok => exact absurd rfl refusal
        | shutdown => exact (emptied rfl).symm
        | error =>
            exact absurd rfl (pop_status_of_reliable reliable stepped)
      · change server.main.Drains _ system.pushed system.popped
        rw [unchanged.pushed, unchanged.popped]
        exact drained.drains

/-- Every step of a run in which no pthread call of a worker fails. -/
theorem Drained.step {setup : ServerSetup} {server after : Server}
    {action : ServerAction} (drained : server.Drained setup)
    (coordinated : server.Coordinated setup)
    (staffed : server.Staffed setup) (reliable : server.Reliable action)
    (transition : Transition setup server action after) :
    after.Drained setup := by
  have keeps := drained.keeps coordinated transition
  have drains := drained.drains
  cases transition with
  | signalled => exact keeps (fun _ found => found) drains.interrupt
  | created now more =>
      rw [now] at drains
      exact keeps (fun _ => exited_of_set (by decide)) drains
  | uncreated now =>
      rw [now] at drains
      exact keeps (fun _ found => found) drains
  | turned turn =>
      have moved := turn.drains drained coordinated staffed
      exact keeps (fun _ found => found) moved
  | unaccepted now => exact keeps (fun _ found => found) trivial
  | accepts now opened => exact keeps (fun _ found => found) trivial
  | counts now => exact keeps (fun _ found => found) trivial
  | closes now => exact keeps (fun _ found => found) trivial
  | starts now => exact keeps (fun _ found => found) trivial
  | calls now stepped =>
      obtain ⟨_, entered | refused⟩ :=
        (QueueSystem.step_effect stepped).of_callPush
      · obtain ⟨rfl, _⟩ := entered
        exact keeps (fun _ found => found) trivial
      · obtain ⟨rfl, _⟩ := refused
        exact keeps (fun _ found => found) trivial
  | stops now =>
      rw [now] at drains
      exact keeps (fun _ found => found) drains
  | destroys now =>
      rw [now] at drains
      exact keeps (fun _ found => found) drains
  | inside inside stepped =>
      exact drained.stepInside coordinated reliable inside stepped
  | workerCalls now stepped =>
      have unchanged := (QueueSystem.step_effect stepped).of_callPop.1
      apply keeps (fun _ => exited_of_set (by decide))
      rename_i system _
      change server.main.Drains _ system.pushed system.popped
      rw [unchanged.pushed, unchanged.popped]
      exact drains
  | workerRecords now =>
      exact keeps (fun _ => exited_of_set (by simp)) drains
  | workerCloses now =>
      exact keeps (fun _ => exited_of_set (by decide)) drains
  | workerFinishes now =>
      exact keeps (fun _ => exited_of_set (by decide)) drains

theorem drained_of_start {setup : ServerSetup} {server : Server}
    (started : (machine setup).Start server) : server.Drained setup := by
  have fresh := fresh_of_start started
  constructor
  · obtain ⟨ready, requested, rfl⟩ := started
    by_cases none : setup.workerCount = 0
    · left
      simp [start, none]
    · exact .inr (Nat.pos_of_ne_zero none)
  · intro index found
    cases fresh.unborn found
  · rcases fresh.main with now | ⟨now, _⟩
    · rw [now, fresh.pushed, fresh.popped]
      rfl
    · rw [now]
      exact fresh.pushed

theorem drained_of_reachable {setup : ServerSetup} {server : Server}
    (reachable : (machine setup).ReachableBy Reliable server) :
    server.Coordinated setup ∧ server.Staffed setup ∧
      server.Drained setup := by
  apply reachable.invariant
  · intro start started
    exact ⟨(fresh_of_start started).coordinated, staffed_of_start started,
      drained_of_start started⟩
  · rintro before action after ⟨coordinated, staffed, drained⟩ reliable
      stepped
    have transition := next_transition stepped
    exact ⟨coordinated.step transition, staffed.step coordinated transition,
      drained.step coordinated staffed reliable transition⟩

/-- When `server_run` returns, every connection that was queued was handed to
a worker, in the order of their arrival, and destroying the queue has closed
none. -/
theorem serverRun_drains {setup : ServerSetup} {server : Server}
    (reachable : (machine setup).ReachableBy Reliable server) :
    (server.main = .destroying →
        (connectionQueueDestroy server.system.queue).1 = []) ∧
      (server.main = .returned →
        server.system.popped = server.system.pushed ∧
          server.sockets.opened = []) := by
  obtain ⟨coordinated, _, drained⟩ := drained_of_reachable reachable
  have drains := drained.drains
  constructor
  · intro now
    have sound := coordinated.sound (by simp [now])
    have order := sound.order
    rw [now] at drains
    have popped : server.system.popped = server.system.pushed := drains
    rw [sound.destroy]
    rw [popped] at order
    exact List.append_right_eq_self.mp order
  · intro now
    rw [now] at drains
    refine ⟨drains, ?_⟩
    have owned := (owned_of_reachable reachable.reachable).2
    have none := owned.held
    rw [coordinated.held_returned now] at none
    exact List.map_eq_nil_iff.mp none.eq_nil

instance (server : Server) : (action : ServerAction) →
    Decidable (server.Reliable action)
  | .queue (.lockFails thread) _ => inferInstanceAs (Decidable (thread = 0))
  | .queue (.waitFails thread) _ => inferInstanceAs (Decidable (thread = 0))
  | .queue (.callPush _ _) _ => .isTrue trivial
  | .queue (.callPop _) _ => .isTrue trivial
  | .queue (.pushSection _ _ _ _) _ => .isTrue trivial
  | .queue (.popSection _ _) _ => .isTrue trivial
  | .queue (.wakeUp _) _ => .isTrue trivial
  | .queue .shutdown _ => .isTrue trivial
  | .signal => .isTrue trivial
  | .create _ => .isTrue trivial
  | .accept _ => .isTrue trivial
  | .main => .isTrue trivial
  | .worker _ => .isTrue trivial

/-- The shutdown begins while a connection is queued, and the worker takes it
before it leaves. -/
def drainTrace : List ServerAction :=
  [.create true, .main] ++ acceptTrace 4 ++
    [.main, .signal, .main, .main, .worker 0,
      .queue (.popSection 1 []) .silent, .worker 0, .worker 0, .worker 0,
      .queue (.popSection 1 []) .silent, .main, .main, .main]

def drainedServer : Server :=
  { reusedServer with
    system := { reusedServer.system with pushed := [4], popped := [4] }
    stats := { serverStatsInit with connectionsAccepted := 1 }
    history := [.connectionAccepted, .connectionStarted, .connectionFinished]
    sockets :=
      { opened := [], accepted := 1, closed := [0], strayCloses := []
        distinct := List.nodup_nil } }

theorem drainedServer_reachable :
    (machine singleSetup).ReachableBy Reliable drainedServer := by
  have started : (machine singleSetup).Start (start singleSetup true) :=
    ⟨true, false, rfl⟩
  apply Machine.ReachableBy.execute (.start started)
  change (machine singleSetup).executeBy Reliable _ drainTrace =
    some drainedServer
  decide +kernel

theorem serverRun_drains_queued :
    drainedServer.main = .returned ∧
      drainedServer.system.popped = drainedServer.system.pushed :=
  ⟨rfl, ((serverRun_drains drainedServer_reachable).2 rfl).1⟩

/-! ## Work -/

/-- A connection is queued only while all workers are there. -/
theorem Drained.fullyStaffed {setup : ServerSetup} {server : Server}
    (drained : server.Drained setup)
    (coordinated : server.Coordinated setup)
    (queued : 0 < server.system.queue.count) :
    server.main ≠ .returned ∧
      server.main.staff setup.workerCount = setup.workerCount := by
  have running : server.main ≠ .returned := by
    intro returned
    have empty := coordinated.queue
    simp only [QueueReady, returned] at empty
    omega
  have order := (coordinated.sound running).order
  have waiting : server.system.queue.contents ≠ [] := by
    intro none
    rw [← Ring.contents_length, none] at queued
    cases queued
  have used : server.system.pushed ≠ [] := by
    rw [← order]
    exact List.append_ne_nil_of_right_ne_nil _ waiting
  have drains := drained.drains
  refine ⟨running, ?_⟩
  cases now : server.main with
  | starting created =>
      rw [now] at drains
      exact absurd drains used
  | abandoning joined created =>
      rw [now] at drains
      exact absurd drains used
  | stopping started =>
      rw [now] at drains
      exact drains.resolve_right used
  | joining joined started =>
      rw [now] at drains
      exact drains.resolve_right used
  | destroying =>
      rw [now] at drains
      have popped : server.system.popped = server.system.pushed := drains
      rw [popped] at order
      exact absurd (List.append_right_eq_self.mp order) waiting
  | returned => exact absurd now running
  | _ => rfl

theorem Drained.active {setup : ServerSetup} {server : Server}
    {index : Nat} {worker : WorkerState} (drained : server.Drained setup)
    (coordinated : server.Coordinated setup)
    (staffed : server.Staffed setup)
    (queued : 0 < server.system.queue.count)
    (found : server.workers[index]? = some worker) :
    worker.gone = false := by
  obtain ⟨running, full⟩ := drained.fullyStaffed coordinated queued
  have bound := (List.getElem?_eq_some_iff.mp found).1
  rw [coordinated.size, ← full] at bound
  cases worker with
  | unborn => exact absurd rfl (staffed.born index _ found bound)
  | exited =>
      have empty := (drained.exits index found).resolve_left running
      omega
  | _ => rfl

/-- While a connection is queued some worker can take its next step: it is
outside `connection_queue_pop`, or awake in it. -/
theorem serverRun_workConserving {setup : ServerSetup} {server : Server}
    (reachable : (machine setup).ReachableBy Reliable server)
    (queued : 0 < server.system.queue.count) :
    ∃ index < setup.workerCount, server.OwnStep setup index := by
  obtain ⟨coordinated, staffed, drained⟩ := drained_of_reachable reachable
  obtain ⟨running, full⟩ := drained.fullyStaffed coordinated queued
  have positive := drained.manned.resolve_left running
  rw [← coordinated.size] at positive ⊢
  by_cases asleep : .pop .asleep ∈ server.system.calls
  · -- somebody sleeps, so somebody was woken for the connection
    have wakeups := staffed.wakeful.noLostWakeup rfl
    have woken := wakeups.workers queued asleep
    obtain ⟨thread, found⟩ := List.getElem?_of_mem woken
    obtain ⟨index, rfl, popping⟩ := coordinated.popping
      (QueueSystem.operations_of_call found)
    refine ⟨index, (List.getElem?_eq_some_iff.mp popping).1, ?_⟩
    apply coordinated.worker_goesOn popping rfl
    rw [found]
    decide
  · refine ⟨0, positive, ?_⟩
    have found := List.getElem?_eq_getElem positive
    apply coordinated.worker_goesOn found
    · exact drained.active coordinated staffed queued found
    · intro sleeping
      exact asleep (List.mem_of_getElem? sleeping)

/-- The only worker sleeps when a connection arrives, and is woken. -/
def wokenTrace : List ServerAction :=
  [.create true, .worker 0, .queue (.popSection 1 []) .silent, .main, .main,
    .main, .accept (some 4), .main, .main,
    .queue (.pushSection 0 false true [1]) .silent]

def wokenServer : Server :=
  { system :=
      { queue :=
          { items := [4], capacity := 1, head := 0, tail := 0, count := 1
            shuttingDown := false }
        calls := [.idle, .pop .woken]
        pushed := [4]
        popped := [] }
    main := .pushed
    workers := [.popping]
    stats := { serverStatsInit with connectionsAccepted := 1 }
    history := [.connectionAccepted]
    sockets :=
      { opened := [(4, 0)], accepted := 1, closed := [], strayCloses := []
        distinct := by decide }
    shutdownRequested := false
    result := -1 }

theorem wokenServer_reachable :
    (machine singleSetup).ReachableBy Reliable wokenServer := by
  have started : (machine singleSetup).Start (start singleSetup true) :=
    ⟨true, false, rfl⟩
  apply Machine.ReachableBy.execute (.start started)
  change (machine singleSetup).executeBy Reliable _ wokenTrace =
    some wokenServer
  decide +kernel

theorem serverRun_workConserving_woken :
    ∃ index < singleSetup.workerCount,
      wokenServer.OwnStep singleSetup index :=
  serverRun_workConserving wokenServer_reachable (by decide)

end Server

end CinderHTTP
