import CinderHTTP.Server.Transitions

/-!
# The threads of the server

In every run each thread is in the queue call that its own state says, the
workers that were joined or never created stay out of the way, and the queue
is sound until it is destroyed.
-/

namespace CinderHTTP

/-! ## Operations of the threads -/

def MainState.operation : MainState → Operation
  | .pushing clientFd => .push clientFd
  | _ => .idle

def WorkerState.operation : WorkerState → Operation
  | .popping => .pop
  | _ => .idle

theorem MainState.operation_push {main : MainState} {clientFd : Int}
    (pushes : main.operation = .push clientFd) :
    main = .pushing clientFd := by
  cases main with
  | pushing pushed =>
      cases pushes
      rfl
  | _ => cases pushes

theorem MainState.operation_ne_pop (main : MainState) :
    main.operation ≠ .pop := by
  cases main <;> simp [MainState.operation]

theorem WorkerState.operation_pop {worker : WorkerState}
    (pops : worker.operation = .pop) : worker = .popping := by
  cases worker with
  | popping => rfl
  | _ => cases pops

theorem WorkerState.operation_ne_push (worker : WorkerState)
    (clientFd : Int) : worker.operation ≠ .push clientFd := by
  cases worker <;> simp [WorkerState.operation]

theorem MainState.interrupt_operation (main : MainState) :
    main.interrupt.operation = main.operation := by
  cases main <;> rfl

/-! ## Workers out of the way -/

def WorkerState.gone : WorkerState → Bool
  | .unborn => true
  | .exited => true
  | _ => false

/-- What the state of the accepting thread says about a worker. -/
def MainState.Expects (main : MainState) (index : Nat)
    (worker : WorkerState) : Prop :=
  match main with
  | .starting created => created ≤ index → worker = .unborn
  | .abandoning joined created =>
      index < joined ∨ created ≤ index → worker.gone = true
  | .stopping started => started ≤ index → worker.gone = true
  | .joining joined started =>
      index < joined ∨ started ≤ index → worker.gone = true
  | .destroying => worker.gone = true
  | .returned => worker.gone = true
  | _ => True

theorem MainState.Expects.active {main : MainState} {index : Nat}
    {worker : WorkerState} (expected : main.Expects index worker)
    (active : worker.gone = false) (other : WorkerState) :
    main.Expects index other := by
  have absent : worker.gone ≠ true := by
    rw [active]
    decide
  cases main with
  | starting created =>
      intro later
      have unborn := expected later
      rw [unborn] at absent
      exact absurd rfl absent
  | abandoning joined created => exact fun out => absurd (expected out) absent
  | stopping started => exact fun out => absurd (expected out) absent
  | joining joined started => exact fun out => absurd (expected out) absent
  | destroying => exact absurd expected absent
  | returned => exact absurd expected absent
  | _ => trivial

theorem MainState.Expects.interrupt {main : MainState} {index : Nat}
    {worker : WorkerState} (expected : main.Expects index worker) :
    main.interrupt.Expects index worker := by
  cases main with
  | accepting => trivial
  | _ => exact expected

namespace Server

/-! ## Coordination -/

/-- The queue is sound until it is destroyed, and empty from then on. -/
def QueueReady (setup : ServerSetup) (server : Server) : Prop :=
  match server.main with
  | .returned => server.system.queue.count = 0
  | _ => server.system.Sound setup.queueCapacity

theorem QueueReady.sound {setup : ServerSetup} {server : Server}
    (ready : server.QueueReady setup) (running : server.main ≠ .returned) :
    server.system.Sound setup.queueCapacity := by
  unfold QueueReady at ready
  split at ready
  · rename_i returned
    exact absurd returned running
  · exact ready

theorem queueReady_of_sound {setup : ServerSetup} {server : Server}
    (running : server.main ≠ .returned)
    (sound : server.system.Sound setup.queueCapacity) :
    server.QueueReady setup := by
  unfold QueueReady
  split
  · rename_i returned
    exact absurd returned running
  · exact sound

structure Coordinated (setup : ServerSetup) (server : Server) : Prop where
  size : server.workers.length = setup.workerCount
  linked : server.system.operations =
    server.main.operation :: server.workers.map WorkerState.operation
  phase : ∀ index worker, server.workers[index]? = some worker →
    server.main.Expects index worker
  queue : server.QueueReady setup

theorem Coordinated.sound {setup : ServerSetup} {server : Server}
    (coordinated : server.Coordinated setup)
    (running : server.main ≠ .returned) :
    server.system.Sound setup.queueCapacity :=
  coordinated.queue.sound running

theorem Coordinated.pushing {setup : ServerSetup} {server : Server}
    {thread : Nat} {clientFd : Int}
    (coordinated : server.Coordinated setup)
    (calling : server.system.operations[thread]? = some (.push clientFd)) :
    thread = 0 ∧ server.main = .pushing clientFd := by
  rw [coordinated.linked] at calling
  cases thread with
  | zero =>
      rw [List.getElem?_cons_zero, Option.some_inj] at calling
      exact ⟨rfl, MainState.operation_push calling⟩
  | succ index =>
      rw [List.getElem?_cons_succ, List.getElem?_map] at calling
      obtain ⟨worker, _, pushes⟩ := Option.map_eq_some_iff.mp calling
      exact absurd pushes (worker.operation_ne_push clientFd)

theorem Coordinated.popping {setup : ServerSetup} {server : Server}
    {thread : Nat} (coordinated : server.Coordinated setup)
    (calling : server.system.operations[thread]? = some .pop) :
    ∃ index, thread = index + 1 ∧
      server.workers[index]? = some .popping := by
  rw [coordinated.linked] at calling
  cases thread with
  | zero =>
      rw [List.getElem?_cons_zero, Option.some_inj] at calling
      exact absurd calling server.main.operation_ne_pop
  | succ index =>
      rw [List.getElem?_cons_succ, List.getElem?_map] at calling
      obtain ⟨worker, found, pops⟩ := Option.map_eq_some_iff.mp calling
      rw [WorkerState.operation_pop pops] at found
      exact ⟨index, rfl, found⟩

/-- While a worker is at work `server_run` has not returned. -/
theorem Coordinated.running {setup : ServerSetup} {server : Server}
    {index : Nat} {worker : WorkerState}
    (coordinated : server.Coordinated setup)
    (found : server.workers[index]? = some worker)
    (active : worker.gone = false) : server.main ≠ .returned := by
  intro returned
  have expected := coordinated.phase index worker found
  rw [returned] at expected
  have gone : worker.gone = true := expected
  rw [active] at gone
  cases gone

theorem Coordinated.stepMain {setup : ServerSetup} {server after : Server}
    (coordinated : server.Coordinated setup)
    (workers : after.workers = server.workers)
    (operations : after.system.operations =
      server.system.operations.set 0 after.main.operation)
    (expects : ∀ index worker, server.workers[index]? = some worker →
      server.main.Expects index worker → after.main.Expects index worker)
    (queue : after.QueueReady setup) : after.Coordinated setup := by
  constructor
  · rw [workers]
    exact coordinated.size
  · rw [operations, coordinated.linked, workers]
    rfl
  · intro index worker found
    rw [workers] at found
    exact expects index worker found (coordinated.phase index worker found)
  · exact queue

theorem Coordinated.stepWorker {setup : ServerSetup}
    {server after : Server} {index : Nat} {old new : WorkerState}
    (coordinated : server.Coordinated setup)
    (found : server.workers[index]? = some old) (active : old.gone = false)
    (main : after.main = server.main)
    (workers : after.workers = server.workers.set index new)
    (operations : after.system.operations =
      server.system.operations.set (index + 1) new.operation)
    (sound : after.system.Sound setup.queueCapacity) :
    after.Coordinated setup := by
  constructor
  · rw [workers, List.length_set]
    exact coordinated.size
  · rw [operations, coordinated.linked, workers, main, List.map_set]
    rfl
  · intro other worker located
    rw [main]
    rw [workers] at located
    by_cases same : index = other
    · subst same
      exact (coordinated.phase index old found).active active worker
    · rw [List.getElem?_set_ne same] at located
      exact coordinated.phase other worker located
  · refine queueReady_of_sound ?_ sound
    rw [main]
    exact coordinated.running found active

theorem Coordinated.operations_main {setup : ServerSetup} {server : Server}
    {operation : Operation} (coordinated : server.Coordinated setup)
    (same : server.main.operation = operation) :
    server.system.operations =
      server.system.operations.set 0 operation := by
  rw [coordinated.linked, same]
  rfl

theorem Coordinated.operations_worker {setup : ServerSetup}
    {server : Server} {index : Nat} {old : WorkerState}
    {operation : Operation} (coordinated : server.Coordinated setup)
    (found : server.workers[index]? = some old)
    (same : old.operation = operation) :
    server.system.operations =
      server.system.operations.set (index + 1) operation := by
  have located : server.system.operations[index + 1]? = some operation := by
    rw [coordinated.linked, List.getElem?_cons_succ, List.getElem?_map,
      found, ← same]
    rfl
  obtain ⟨bound, value⟩ := List.getElem?_eq_some_iff.mp located
  rw [← value, List.set_getElem_self]

/-! ## Steps -/

theorem Turn.idle {setup : ServerSetup} {server : Server}
    {main : MainState} (turn : Turn setup server main) :
    server.main.operation = .idle ∧ main.operation = .idle ∧
      server.main ≠ .returned ∧ main ≠ .returned := by
  have idle : ∀ state : MainState, state.emptyHanded = true →
      state.operation = .idle ∧ state ≠ .returned := by
    intro state free
    cases state with
    | pushing clientFd => cases free
    | returned => cases free
    | _ => exact ⟨rfl, nofun⟩
  obtain ⟨before, after⟩ := turn.emptyHanded
  exact ⟨(idle _ before).1, (idle _ after).1, (idle _ before).2,
    (idle _ after).2⟩

/-- A worker that was joined is gone, and so are those joined before. -/
theorem gone_of_joined {server : Server} {joined bound index : Nat}
    {worker : WorkerState} (found : server.workers[index]? = some worker)
    (exited : server.workers[joined]? = some .exited)
    (expected : index < joined ∨ bound ≤ index → worker.gone = true)
    (out : index < joined + 1 ∨ bound ≤ index) : worker.gone = true := by
  cases out with
  | inr beyond => exact expected (.inr beyond)
  | inl earlier =>
      cases Nat.lt_succ_iff_lt_or_eq.mp earlier with
      | inl before => exact expected (.inl before)
      | inr same =>
          subst same
          rw [exited] at found
          cases found
          rfl

theorem Turn.expects {setup : ServerSetup} {server : Server}
    {main : MainState} (coordinated : server.Coordinated setup)
    (turn : Turn setup server main) :
    ∀ index worker, server.workers[index]? = some worker →
      server.main.Expects index worker → main.Expects index worker := by
  intro index worker found expected
  cases turn with
  | runs now => trivial
  | abandons now exited =>
      rw [now] at expected
      exact gone_of_joined found exited expected
  | abandoned now all =>
      rw [now] at expected
      intro _
      exact expected (by omega)
  | leaves now =>
      intro beyond
      obtain ⟨bound, _⟩ := List.getElem?_eq_some_iff.mp found
      rw [coordinated.size] at bound
      omega
  | goesOn now => trivial
  | blocks now => trivial
  | retries now => trivial
  | joins now exited =>
      rw [now] at expected
      exact gone_of_joined found exited expected
  | joined now all =>
      rw [now] at expected
      exact expected (by omega)

theorem answer_pushRefused {server : Server} {pending : List StatsEvent}
    {thread : Nat} {clientFd : Int} {status : QueueStatus}
    (refusal : status ≠ .ok) :
    server.answer pending (some (.push thread clientFd status)) =
      server.setMain (.refused clientFd status) := by
  cases status with
  | ok => exact absurd rfl refusal
  | shutdown => rfl
  | error => rfl

theorem answer_popRefused (server : Server) (pending : List StatsEvent)
    (thread : Nat) (status : QueueStatus) :
    server.answer pending (some (.pop thread status none)) =
      server.setWorker (thread - 1) .exited := by
  cases status <;> rfl

theorem QueueReady.interrupt {setup : ServerSetup} {server : Server}
    (ready : server.QueueReady setup) :
    QueueReady setup
      { server with
        main := server.main.interrupt
        shutdownRequested := true } := by
  by_cases returned : server.main = .returned
  · unfold QueueReady at ready ⊢
    simp only [returned, MainState.interrupt] at ready ⊢
    exact ready
  · refine queueReady_of_sound ?_ (ready.sound returned)
    intro interrupted
    change server.main.interrupt = .returned at interrupted
    cases same : server.main with
    | returned => exact returned same
    | _ => simp [same, MainState.interrupt] at interrupted

theorem Coordinated.queue_unchanged {setup : ServerSetup} {server : Server}
    {system : QueueSystem} (coordinated : server.Coordinated setup)
    (unchanged : server.system.Unchanged system)
    (sound : server.main ≠ .returned →
      system.Sound setup.queueCapacity) :
    QueueReady setup { server with system := system } := by
  by_cases returned : server.main = .returned
  · have empty := coordinated.queue
    unfold QueueReady at empty ⊢
    simp only [returned, unchanged.queue] at empty ⊢
    exact empty
  · exact queueReady_of_sound returned (sound returned)

theorem Coordinated.stepInside {setup : ServerSetup} {server : Server}
    {system : QueueSystem} {action : QueueAction}
    {returned : Option QueueReturn} (pending : List StatsEvent)
    (coordinated : server.Coordinated setup) (inside : action.inside = true)
    (effect : server.system.Effect system action returned) :
    (answer { server with system := system } pending returned).Coordinated
      setup := by
  have sound : server.main ≠ .returned →
      system.Sound setup.queueCapacity :=
    fun running => (coordinated.sound running).effect effect
  cases effect with
  | enteredPush unchanged nonnegative idle operations => cases inside
  | invalid negative same => cases inside
  | enteredPop unchanged idle operations => cases inside
  | closed queue pushed popped same => cases inside
  | continued inside unchanged same =>
      apply coordinated.stepMain
      · rfl
      · exact same.trans (coordinated.operations_main rfl)
      · exact fun _ _ _ expected => expected
      · exact coordinated.queue_unchanged unchanged sound
  | pushRefused inside unchanged refusal calling operations =>
      obtain ⟨rfl, now⟩ := coordinated.pushing calling
      rw [answer_pushRefused refusal]
      apply coordinated.stepMain
      · rfl
      · exact operations
      · exact fun _ _ _ _ => trivial
      · exact sound (by simp [now])
  | pushed inside room accepting queue pushed popped calling operations =>
      obtain ⟨rfl, now⟩ := coordinated.pushing calling
      apply coordinated.stepMain
      · rfl
      · exact operations
      · exact fun _ _ _ _ => trivial
      · exact sound (by simp [now])
  | popRefused inside unchanged refusal drained calling operations =>
      obtain ⟨index, rfl, found⟩ := coordinated.popping calling
      rw [answer_popRefused]
      exact coordinated.stepWorker found rfl rfl rfl operations
        (sound (coordinated.running found rfl))
  | popped inside filled queue pushed popped calling operations =>
      obtain ⟨index, rfl, found⟩ := coordinated.popping calling
      exact coordinated.stepWorker found rfl rfl rfl operations
        (sound (coordinated.running found rfl))

theorem Coordinated.stepCall {setup : ServerSetup} {server : Server}
    {system : QueueSystem} {clientFd : Int} {returned : Option QueueReturn}
    (coordinated : server.Coordinated setup)
    (now : server.main = .counted clientFd)
    (effect : server.system.Effect system (.callPush 0 clientFd) returned) :
    (answer { server with system := system, main := .pushing clientFd } []
      returned).Coordinated setup := by
  have sound := (coordinated.sound (by simp [now])).effect effect
  obtain ⟨_, entered | refused⟩ := effect.of_callPush
  · obtain ⟨rfl, operations⟩ := entered
    apply coordinated.stepMain
    · rfl
    · exact operations
    · exact fun _ _ _ _ => trivial
    · exact sound
  · obtain ⟨rfl, same⟩ := refused
    apply coordinated.stepMain
    · rfl
    · exact same.trans (coordinated.operations_main (by rw [now]; rfl))
    · exact fun _ _ _ _ => trivial
    · exact sound

theorem Coordinated.stepPop {setup : ServerSetup} {server : Server}
    {system : QueueSystem} {index : Nat} {returned : Option QueueReturn}
    (coordinated : server.Coordinated setup)
    (now : server.workers[index]? = some .calling)
    (effect : server.system.Effect system (.callPop (index + 1)) returned) :
    Coordinated setup
      { server.setWorker index .popping with system := system } := by
  have running := coordinated.running now rfl
  have sound := (coordinated.sound running).effect effect
  exact coordinated.stepWorker now rfl rfl rfl effect.of_callPop.2 sound

theorem shutdown_operations (system : QueueSystem) :
    system.shutdown.operations = system.operations :=
  condBroadcast_operations system.calls

theorem Coordinated.sound_shutdown {setup : ServerSetup} {server : Server}
    (coordinated : server.Coordinated setup)
    (running : server.main ≠ .returned) :
    server.system.shutdown.Sound setup.queueCapacity := by
  have effect : server.system.Effect server.system.shutdown .shutdown none :=
    QueueSystem.step_effect rfl
  exact (coordinated.sound running).effect effect

theorem Coordinated.unborn {setup : ServerSetup} {server : Server}
    {created : Nat} (coordinated : server.Coordinated setup)
    (now : server.main = .starting created)
    (more : created < setup.workerCount) :
    server.workers[created]? = some .unborn := by
  rw [← coordinated.size] at more
  have found := List.getElem?_eq_getElem more
  have expected := coordinated.phase created _ found
  rw [now] at expected
  rw [found, expected (Nat.le_refl _)]

theorem Coordinated.stepCreate {setup : ServerSetup} {server : Server}
    {created : Nat} (coordinated : server.Coordinated setup)
    (now : server.main = .starting created)
    (more : created < setup.workerCount) :
    ((server.setWorker created .calling).setMain
      (.starting (created + 1))).Coordinated setup := by
  have found := coordinated.unborn now more
  constructor
  · exact List.length_set.trans coordinated.size
  · change server.system.operations = _ :: List.map _ (List.set ..)
    rw [coordinated.operations_worker found rfl, coordinated.linked, now,
      List.map_set]
    rfl
  · intro index worker located later
    have different : created ≠ index := Nat.ne_of_lt later
    change (server.workers.set created .calling)[index]? = some worker
      at located
    rw [List.getElem?_set_ne different] at located
    have expected := coordinated.phase index worker located
    rw [now] at expected
    exact expected (Nat.le_of_succ_le later)
  · exact coordinated.sound (by simp [now])

/-- Every step of the server keeps the threads coordinated. -/
theorem Coordinated.step {setup : ServerSetup} {server after : Server}
    {action : ServerAction} (coordinated : server.Coordinated setup)
    (transition : Transition setup server action after) :
    after.Coordinated setup := by
  cases transition with
  | signalled =>
      apply coordinated.stepMain
      · rfl
      · exact coordinated.operations_main
          server.main.interrupt_operation.symm
      · exact fun _ _ _ expected => expected.interrupt
      · exact coordinated.queue.interrupt
  | created now more => exact coordinated.stepCreate now more
  | uncreated now =>
      apply coordinated.stepMain
      · rfl
      · change server.system.shutdown.operations = _
        rw [shutdown_operations]
        exact coordinated.operations_main (by rw [now]; rfl)
      · intro index worker _ expected
        rw [now] at expected
        intro out
        have later := out.resolve_left (Nat.not_lt_zero index)
        rw [expected later]
        rfl
      · exact coordinated.sound_shutdown (by simp [now])
  | turned turn =>
      apply coordinated.stepMain
      · rfl
      · exact coordinated.operations_main
          (turn.idle.1.trans turn.idle.2.1.symm)
      · exact turn.expects coordinated
      · exact queueReady_of_sound turn.idle.2.2.2
          (coordinated.sound turn.idle.2.2.1)
  | unaccepted now =>
      apply coordinated.stepMain
      · rfl
      · exact coordinated.operations_main (by rw [now]; rfl)
      · exact fun _ _ _ _ => trivial
      · exact coordinated.sound (by simp [now])
  | accepts now opened =>
      apply coordinated.stepMain
      · rfl
      · exact coordinated.operations_main (by rw [now]; rfl)
      · exact fun _ _ _ _ => trivial
      · exact coordinated.sound (by simp [now])
  | counts now =>
      apply coordinated.stepMain
      · rfl
      · exact coordinated.operations_main (by rw [now]; rfl)
      · exact fun _ _ _ _ => trivial
      · exact coordinated.sound (by simp [now])
  | calls now stepped =>
      exact coordinated.stepCall now (QueueSystem.step_effect stepped)
  | closes now =>
      apply coordinated.stepMain
      · rfl
      · exact coordinated.operations_main (by rw [now]; rfl)
      · exact fun _ _ _ _ => trivial
      · exact coordinated.sound (by simp [now])
  | starts now =>
      apply coordinated.stepMain
      · rfl
      · exact coordinated.operations_main (by rw [now]; rfl)
      · exact fun _ _ _ _ => trivial
      · exact coordinated.sound (by simp [now])
  | stops now =>
      apply coordinated.stepMain
      · rfl
      · change server.system.shutdown.operations = _
        rw [shutdown_operations]
        exact coordinated.operations_main (by rw [now]; rfl)
      · intro index worker _ expected
        rw [now] at expected
        intro out
        exact expected (by omega)
      · exact coordinated.sound_shutdown (by simp [now])
  | destroys now =>
      apply coordinated.stepMain
      · rfl
      · exact coordinated.operations_main (by rw [now]; rfl)
      · intro index worker _ expected
        rw [now] at expected
        exact expected
      · rfl
  | inside inside stepped =>
      exact coordinated.stepInside _ inside (QueueSystem.step_effect stepped)
  | workerCalls now stepped =>
      exact coordinated.stepPop now (QueueSystem.step_effect stepped)
  | workerRecords now =>
      exact coordinated.stepWorker now rfl rfl rfl
        (coordinated.operations_worker now rfl)
        (coordinated.sound (coordinated.running now rfl))
  | workerCloses now =>
      exact coordinated.stepWorker now rfl rfl rfl
        (coordinated.operations_worker now rfl)
        (coordinated.sound (coordinated.running now rfl))
  | workerFinishes now =>
      exact coordinated.stepWorker now rfl rfl rfl
        (coordinated.operations_worker now rfl)
        (coordinated.sound (coordinated.running now rfl))

theorem Fresh.coordinated {setup : ServerSetup} {server : Server}
    (fresh : server.Fresh setup) : server.Coordinated setup := by
  have linked : (List.replicate (setup.workerCount + 1)
      QueueCall.idle).map QueueCall.operation =
        .idle :: (List.replicate setup.workerCount WorkerState.unborn).map
          WorkerState.operation := by
    simp [List.replicate_succ, QueueCall.operation, WorkerState.operation]
  constructor
  · rw [fresh.workers]
    exact List.length_replicate
  · rw [QueueSystem.operations, fresh.calls, fresh.workers, linked]
    rcases fresh.main with now | ⟨now, _⟩
    · rw [now]
      rfl
    · rw [now]
      rfl
  · intro index worker found
    rw [fresh.unborn found]
    rcases fresh.main with now | ⟨now, _⟩
    · rw [now]
      rfl
    · rw [now]
      exact fun _ => rfl
  · rcases fresh.main with now | ⟨now, sound⟩
    · rw [QueueReady, now]
      exact fresh.empty
    · have present : server.main ≠ .returned := by
        rw [now]
        intro gone
        cases gone
      exact queueReady_of_sound present sound

end Server

end CinderHTTP
