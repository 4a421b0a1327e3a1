import CinderHTTP.Server.Coordination

/-!
# Ownership of client sockets

A descriptor from `accept` belongs to the accepting thread, to the queue or to
one worker, and moves between them until one of them closes it.  The
descriptors held by all three together are at any time exactly the open ones,
so that every accepted connection is closed once.
-/

namespace CinderHTTP

/-- The descriptor that the accepting thread must close or hand over. -/
def MainState.held : MainState → List Int
  | .accepted clientFd => [clientFd]
  | .counted clientFd => [clientFd]
  | .pushing clientFd => [clientFd]
  | .refused clientFd _ => [clientFd]
  | _ => []

/-- The descriptor that a worker must close. -/
def WorkerState.held : WorkerState → List Int
  | .handling clientFd _ => [clientFd]
  | _ => []

theorem MainState.interrupt_held (main : MainState) :
    main.interrupt.held = main.held := by
  cases main <;> rfl

theorem WorkerState.gone_held {worker : WorkerState}
    (gone : worker.gone = true) : worker.held = [] := by
  cases worker with
  | handling clientFd pending => cases gone
  | _ => rfl

theorem count_flatMap_set {α β : Type*} [BEq β] {values : List α}
    {index : Nat} {old : α} (new : α) (f : α → List β) (result : β)
    (found : values[index]? = some old) :
    (f old).count result + ((values.set index new).flatMap f).count result =
      (f new).count result + (values.flatMap f).count result := by
  induction values generalizing index with
  | nil => cases found
  | cons value values induction =>
      cases index with
      | zero =>
          cases found
          simp only [List.set_cons_zero, List.flatMap_cons,
            List.count_append]
          omega
      | succ index =>
          have rest := induction found
          simp only [List.set_cons_succ, List.flatMap_cons,
            List.count_append]
          omega

namespace Server

/-- All descriptors that somebody must close. -/
def held (server : Server) : List Int :=
  server.main.held ++ server.system.queue.contents ++
    server.workers.flatMap WorkerState.held

/-! ## Custody -/

/-- What a step does to the descriptors: they stay with their owners or
change hands, one is accepted, or some are closed by their owner. -/
inductive Custody (server after : Server) : Prop
  | keeps (sockets : after.sockets = server.sockets)
      (held : server.held.Perm after.held)
  | acquires {clientFd : Int}
      (sockets : server.sockets.accept clientFd = some after.sockets)
      (held : (clientFd :: server.held).Perm after.held)
  | releases (fds : List Int)
      (sockets : after.sockets = fds.foldl Sockets.close server.sockets)
      (held : server.held.Perm (fds ++ after.held))

theorem Custody.same {server after : Server}
    (sockets : after.sockets = server.sockets)
    (main : after.main.held = server.main.held)
    (contents : after.system.queue.contents = server.system.queue.contents)
    (workers : after.workers = server.workers) : Custody server after := by
  apply Custody.keeps sockets
  unfold held
  rw [main, contents, workers]

theorem held_worker {server after : Server} {index : Nat}
    {old new : WorkerState} (found : server.workers[index]? = some old)
    (main : after.main.held = server.main.held)
    (contents : after.system.queue.contents = server.system.queue.contents)
    (workers : after.workers = server.workers.set index new) :
    (new.held ++ server.held).Perm (old.held ++ after.held) := by
  rw [List.perm_iff_count]
  intro clientFd
  have exchanged := count_flatMap_set new WorkerState.held clientFd found
  simp only [held, List.count_append, main, contents, workers]
  omega

theorem Custody.worker {server after : Server} {index : Nat}
    {old new : WorkerState} (found : server.workers[index]? = some old)
    (main : after.main.held = server.main.held)
    (contents : after.system.queue.contents = server.system.queue.contents)
    (workers : after.workers = server.workers.set index new)
    (same : new.held = old.held)
    (sockets : after.sockets = server.sockets) : Custody server after := by
  apply Custody.keeps sockets
  have exchanged := held_worker found main contents workers
  rw [same] at exchanged
  exact (List.perm_append_left_iff _).mp exchanged

theorem Turn.held {setup : ServerSetup} {server : Server}
    {main : MainState} (turn : Turn setup server main) :
    main.held = server.main.held := by
  have none : ∀ state : MainState, state.emptyHanded = true →
      state.held = [] := by
    intro state free
    cases state with
    | accepted clientFd => cases free
    | counted clientFd => cases free
    | pushing clientFd => cases free
    | refused clientFd status => cases free
    | _ => rfl
  obtain ⟨before, after⟩ := turn.emptyHanded
  rw [none _ before, none _ after]

theorem custody_inside {setup : ServerSetup} {server : Server}
    {system : QueueSystem} {action : QueueAction}
    {returned : Option QueueReturn} (pending : List StatsEvent)
    (coordinated : server.Coordinated setup) (inside : action.inside = true)
    (effect : server.system.Effect system action returned) :
    Custody server
      (answer { server with system := system } pending returned) := by
  cases effect with
  | enteredPush unchanged nonnegative idle operations => cases inside
  | invalid negative same => cases inside
  | enteredPop unchanged idle operations => cases inside
  | closed queue pushed popped same => cases inside
  | continued inside unchanged same =>
      exact Custody.same rfl rfl unchanged.contents rfl
  | pushRefused inside unchanged refusal calling operations =>
      obtain ⟨rfl, now⟩ := coordinated.pushing calling
      rw [answer_pushRefused refusal]
      exact Custody.same rfl (by rw [now]; rfl) unchanged.contents rfl
  | pushed inside room accepting queue pushed popped calling operations =>
      obtain ⟨rfl, now⟩ := coordinated.pushing calling
      have sound := coordinated.sound (by simp [now])
      apply Custody.keeps
      · rfl
      -- The descriptor leaves the thread and enters the queue.
      · rename_i clientFd
        have moved : ([clientFd] ++ server.system.queue.contents).Perm
            (server.system.queue.contents ++ [clientFd]) :=
          List.perm_append_comm
        change server.held.Perm ([] ++ system.queue.contents ++ _)
        rw [queue, sound.invariant.valid.push_contents room, held, now]
        exact moved.append_right _
  | popRefused inside unchanged refusal drained calling operations =>
      obtain ⟨index, rfl, found⟩ := coordinated.popping calling
      rw [answer_popRefused]
      exact Custody.worker found rfl unchanged.contents rfl rfl rfl
  | popped inside filled queue pushed popped calling operations =>
      obtain ⟨index, rfl, found⟩ := coordinated.popping calling
      apply Custody.keeps
      · rfl
      -- The descriptor leaves the queue and is held by the worker.
      · have running := coordinated.running found rfl
        have valid := (coordinated.sound running).invariant.valid
        rw [List.perm_iff_count]
        intro clientFd
        have exchanged := count_flatMap_set
          (.handling (server.system.queue.cell server.system.queue.head)
            pending) WorkerState.held clientFd found
        change _ = List.count clientFd (server.main.held ++
          system.queue.contents ++ (server.workers.set index _).flatMap _)
        simp only [held, List.count_append, queue,
          valid.pop_contents filled, WorkerState.held, List.count_cons,
          List.count_nil] at exchanged ⊢
        omega

/-- Workers that are gone hold nothing. -/
theorem Coordinated.held_gone {setup : ServerSetup} {server : Server}
    (coordinated : server.Coordinated setup)
    (gone : ∀ index worker, server.main.Expects index worker →
      worker.gone = true) :
    server.workers.flatMap WorkerState.held = [] := by
  rw [List.flatMap_eq_nil_iff]
  intro worker member
  obtain ⟨index, found⟩ := List.getElem?_of_mem member
  have expected := coordinated.phase index worker found
  exact WorkerState.gone_held (gone index worker expected)

theorem custody_of_transition {setup : ServerSetup}
    {server after : Server} {action : ServerAction}
    (coordinated : server.Coordinated setup)
    (transition : Transition setup server action after) :
    Custody server after := by
  cases transition with
  | signalled =>
      exact Custody.same rfl server.main.interrupt_held rfl rfl
  | created now more =>
      have found := coordinated.unborn now more
      exact Custody.worker found (by rw [now]; rfl) rfl rfl rfl rfl
  | uncreated now => exact Custody.same rfl (by rw [now]; rfl) rfl rfl
  | turned turn => exact Custody.same rfl turn.held rfl rfl
  | unaccepted now => exact Custody.same rfl (by rw [now]; rfl) rfl rfl
  | accepts now opened =>
      apply Custody.acquires opened
      unfold held
      rw [now]
      rfl
  | counts now => exact Custody.same rfl (by rw [now]; rfl) rfl rfl
  | calls now stepped =>
      obtain ⟨unchanged, entered | refused⟩ :=
        (QueueSystem.step_effect stepped).of_callPush
      · obtain ⟨rfl, _⟩ := entered
        exact Custody.same rfl (by rw [now]; rfl) unchanged.contents rfl
      · obtain ⟨rfl, _⟩ := refused
        exact Custody.same rfl (by rw [now]; rfl) unchanged.contents rfl
  | closes now =>
      rename_i clientFd status
      apply Custody.releases [clientFd] rfl
      unfold held
      rw [now]
      rfl
  | starts now => exact Custody.same rfl (by rw [now]; rfl) rfl rfl
  | stops now => exact Custody.same rfl (by rw [now]; rfl) rfl rfl
  | destroys now =>
      have sound := coordinated.sound (by simp [now])
      have workers : server.workers.flatMap WorkerState.held = [] :=
        coordinated.held_gone fun _ _ expected => by rwa [now] at expected
      apply Custody.releases _ rfl
      unfold held
      rw [sound.destroy, workers, now]
      simp [MainState.held, connectionQueueDestroy, Ring.contents]
  | inside inside stepped =>
      exact custody_inside _ coordinated inside
        (QueueSystem.step_effect stepped)
  | workerCalls now stepped =>
      have unchanged := (QueueSystem.step_effect stepped).of_callPop.1
      exact Custody.worker now rfl unchanged.contents rfl rfl rfl
  | workerRecords now => exact Custody.worker now rfl rfl rfl rfl rfl
  | workerCloses now =>
      rename_i index clientFd
      apply Custody.releases [clientFd] rfl
      have released : (WorkerState.closed.held ++ server.held).Perm
          ([clientFd] ++ (server.setWorker index .closed).held) :=
        held_worker now rfl rfl rfl
      exact released
  | workerFinishes now => exact Custody.worker now rfl rfl rfl rfl rfl

/-! ## Runs -/

/-- The open descriptors are the held ones, and every connection is open or
was closed once. -/
structure Owned (server : Server) : Prop where
  accounted : server.sockets.Accounted
  held : server.sockets.numbers.Perm server.held

theorem Owned.step {server after : Server} (owned : server.Owned)
    (custody : Custody server after) : after.Owned := by
  cases custody with
  | keeps sockets kept =>
      constructor
      · rw [sockets]
        exact owned.accounted
      · rw [sockets]
        exact owned.held.trans kept
  | acquires accepted taken =>
      constructor
      · exact owned.accounted.accept accepted
      · rw [(Sockets.accept_opens accepted).2]
        exact (owned.held.cons _).trans taken
  | releases fds sockets released =>
      have closed := Sockets.closeAll owned.accounted
        (owned.held.trans released)
      rw [← sockets] at closed
      exact ⟨closed.1, closed.2⟩

theorem Fresh.owned {setup : ServerSetup} {server : Server}
    (fresh : server.Fresh setup) : server.Owned := by
  have unborn : (List.replicate setup.workerCount
      WorkerState.unborn).flatMap WorkerState.held = [] := by
    simp [WorkerState.held]
  have queued : server.system.queue.contents = [] := by
    apply List.length_eq_zero_iff.mp
    rw [Ring.contents_length]
    exact fresh.empty
  have main : server.main.held = [] := by
    rcases fresh.main with now | ⟨now, _⟩
    · rw [now]
      rfl
    · rw [now]
      rfl
  constructor
  · rw [fresh.sockets]
    exact Sockets.accounted_empty
  · rw [held, main, queued, fresh.workers, unborn, fresh.sockets]
    rfl

theorem owned_of_reachable {setup : ServerSetup} {server : Server}
    (reachable : (machine setup).Reachable server) :
    server.Coordinated setup ∧ server.Owned := by
  apply reachable.invariant
  · intro first started
    have fresh := fresh_of_start started
    exact ⟨fresh.coordinated, fresh.owned⟩
  · intro before action after both stepped
    have transition := next_transition stepped
    exact ⟨both.1.step transition,
      both.2.step (custody_of_transition both.1 transition)⟩

/-! ## Owners -/

inductive Owner where
  | acceptThread
  | queue
  | worker (index : Nat)
  deriving DecidableEq, Repr

/-- Everybody who holds a descriptor, once for every time it is held. -/
def owners (server : Server) (fd : Int) : List Owner :=
  (server.main.held.filter (· == fd)).map (fun _ => .acceptThread) ++
    (server.system.queue.contents.filter (· == fd)).map (fun _ => .queue) ++
    server.workers.zipIdx.flatMap fun entry =>
      (entry.1.held.filter (· == fd)).map fun _ => .worker entry.2

theorem length_workerOwners (workers : List WorkerState) (first : Nat)
    (fd : Int) :
    ((workers.zipIdx first).flatMap fun entry =>
      (entry.1.held.filter (· == fd)).map fun _ =>
        Owner.worker entry.2).length =
      (workers.flatMap WorkerState.held).count fd := by
  induction workers generalizing first with
  | nil => rfl
  | cons worker workers induction =>
      simp only [List.zipIdx_cons, List.flatMap_cons, List.length_append,
        List.length_map, List.count_append, induction]
      simp only [List.count, List.countP_eq_length_filter]

theorem length_owners (server : Server) (fd : Int) :
    (server.owners fd).length = server.held.count fd := by
  simp only [owners, held, List.length_append, List.length_map,
    List.count_append, length_workerOwners]
  simp only [List.count, List.countP_eq_length_filter]

/-- What holds of the client sockets in every state of a run. -/
structure Accountable (server : Server) : Prop where
  /-- An open descriptor has exactly one owner. -/
  owned : ∀ fd ∈ server.sockets.numbers, ∃ owner, server.owners fd = [owner]
  /-- Nobody holds a descriptor that is not open. -/
  unowned : ∀ fd, fd ∉ server.sockets.numbers → server.owners fd = []
  /-- Every accepted connection is open or was closed once, not both. -/
  connections : (server.sockets.closed ++
      server.sockets.opened.map Prod.snd).Perm
    (List.range server.sockets.accepted)
  /-- Nothing else was closed. -/
  strays : server.sockets.strayCloses = []
  /-- At the end every accepted connection was closed exactly once. -/
  returned : server.main = .returned →
    server.sockets.closed.Perm (List.range server.sockets.accepted)

theorem Owned.owned {server : Server} (owned : server.Owned) {fd : Int}
    (opened : fd ∈ server.sockets.numbers) :
    ∃ owner, server.owners fd = [owner] := by
  have once := List.count_eq_one_of_mem server.sockets.distinct opened
  rw [← List.length_eq_one_iff, length_owners, ← owned.held.count_eq]
  exact once

theorem Owned.unowned {server : Server} (owned : server.Owned) {fd : Int}
    (closed : fd ∉ server.sockets.numbers) : server.owners fd = [] := by
  rw [← List.length_eq_zero_iff, length_owners, ← owned.held.count_eq]
  exact List.count_eq_zero_of_not_mem closed

/-- When `server_run` has returned nobody holds a descriptor. -/
theorem Coordinated.held_returned {setup : ServerSetup} {server : Server}
    (coordinated : server.Coordinated setup)
    (now : server.main = .returned) : server.held = [] := by
  have empty := coordinated.queue
  unfold QueueReady at empty
  simp only [now] at empty
  have workers : server.workers.flatMap WorkerState.held = [] :=
    coordinated.held_gone (fun _ _ expected => by rwa [now] at expected)
  rw [held, workers, now, Ring.contents, empty]
  rfl

/-- Every accepted client socket is closed exactly once, and until then it has
exactly one owner. -/
theorem serverRun_closes_once {setup : ServerSetup} {server : Server}
    (reachable : (machine setup).Reachable server) :
    server.Accountable := by
  obtain ⟨coordinated, owned⟩ := owned_of_reachable reachable
  constructor
  · exact fun fd opened => owned.owned opened
  · exact fun fd closed => owned.unowned closed
  · exact owned.accounted.connections
  · exact owned.accounted.strays
  · intro now
    have none : server.sockets.opened = [] := by
      have numbers := owned.held
      rw [coordinated.held_returned now] at numbers
      exact List.map_eq_nil_iff.mp numbers.eq_nil
    have connections := owned.accounted.connections
    rwa [none, List.map_nil, List.append_nil] at connections

/-- One worker and a queue of one place. -/
def singleSetup : ServerSetup :=
  { config :=
      { documentRoot := [], keepAliveTimeoutSec := 5, requestTimeoutSec := 10 }
    queueCapacity := 1
    workerCount := 1
    capacityInt := by decide
    workersInt := by decide }

/-- From the test of the loop to a successful push. -/
def acceptTrace (clientFd : Int) : List ServerAction :=
  [.main, .main, .accept (some clientFd), .main, .main,
    .queue (.pushSection 0 false true []) .silent]

/-- The first connection is handled, the second gets the same number and is
still queued when the only worker leaves on an error. -/
def reuseTrace : List ServerAction :=
  [.create true, .main] ++ acceptTrace 4 ++
    [.main, .worker 0, .queue (.popSection 1 []) .silent, .worker 0,
      .worker 0] ++
    acceptTrace 4 ++
    [.main, .worker 0, .queue (.lockFails 1) .silent, .signal, .main, .main,
      .main, .main, .main]

def reusedServer : Server :=
  { system :=
      { queue :=
          { items := [], capacity := 0, head := 0, tail := 0, count := 0
            shuttingDown := false }
        calls := [.idle, .idle]
        pushed := [4, 4]
        popped := [4] }
    main := .returned
    workers := [.exited]
    stats :=
      { serverStatsInit with connectionsAccepted := 2, activeConnections := 1 }
    history :=
      [.connectionAccepted, .connectionStarted, .connectionFinished,
        .connectionAccepted, .connectionStarted]
    sockets :=
      { opened := [], accepted := 2, closed := [0, 1], strayCloses := []
        distinct := List.nodup_nil }
    shutdownRequested := true
    result := 0 }

theorem reusedServer_reachable :
    (machine singleSetup).Reachable reusedServer := by
  have started : (machine singleSetup).Start (start singleSetup true) :=
    ⟨true, false, rfl⟩
  apply Machine.Reachable.execute (.start started)
  change (machine singleSetup).execute _ reuseTrace = some reusedServer
  decide +kernel

theorem serverRun_closes_once_reused :
    reusedServer.main = .returned ∧ reusedServer.Accountable :=
  ⟨rfl, serverRun_closes_once reusedServer_reachable⟩

end Server

end CinderHTTP
