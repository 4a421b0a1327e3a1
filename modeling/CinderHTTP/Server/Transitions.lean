import CinderHTTP.Queue.Refinement
import CinderHTTP.Server.Run

/-!
# What a step of the server does

The steps are listed once, with the state behind each of them.  Two facts
about all runs follow: every thread is in the queue call that its state says,
and the workers that were joined or never created stay out of the way.
-/

namespace CinderHTTP

/-- Whether the accepting thread runs without a connection in its hands. -/
def MainState.emptyHanded : MainState → Bool
  | .accepted _ => false
  | .counted _ => false
  | .pushing _ => false
  | .refused _ _ => false
  | .pushed => false
  | .returned => false
  | _ => true

namespace Server

/-! ## The steps -/

/-- The steps of the accepting thread that only move on. -/
inductive Turn (setup : ServerSetup) (server : Server) : MainState → Prop
  | runs (now : server.main = .starting setup.workerCount) :
      Turn setup server .testing
  | abandons {joined created : Nat}
      (now : server.main = .abandoning joined created)
      (exited : server.workers[joined]? = some .exited) :
      Turn setup server (.abandoning (joined + 1) created)
  | abandoned {joined created : Nat}
      (now : server.main = .abandoning joined created)
      (all : created ≤ joined) : Turn setup server (.stopping 0)
  | leaves (now : server.main = .testing ∨
        ∃ status, server.main = .closed status) :
      Turn setup server (.stopping setup.workerCount)
  | goesOn (now : server.main = .testing) : Turn setup server .calling
  | blocks (now : server.main = .calling) : Turn setup server .accepting
  | retries {status : QueueStatus} (now : server.main = .closed status) :
      Turn setup server .testing
  | joins {joined started : Nat} (now : server.main = .joining joined started)
      (exited : server.workers[joined]? = some .exited) :
      Turn setup server (.joining (joined + 1) started)
  | joined {joined started : Nat}
      (now : server.main = .joining joined started)
      (all : started ≤ joined) : Turn setup server .destroying

theorem Turn.emptyHanded {setup : ServerSetup} {server : Server}
    {main : MainState} (turn : Turn setup server main) :
    server.main.emptyHanded = true ∧ main.emptyHanded = true := by
  cases turn with
  | leaves now =>
      rcases now with now | ⟨status, now⟩
      · rw [now]
        exact ⟨rfl, rfl⟩
      · rw [now]
        exact ⟨rfl, rfl⟩
  | runs now => rw [now]; exact ⟨rfl, rfl⟩
  | abandons now exited => rw [now]; exact ⟨rfl, rfl⟩
  | abandoned now all => rw [now]; exact ⟨rfl, rfl⟩
  | goesOn now => rw [now]; exact ⟨rfl, rfl⟩
  | blocks now => rw [now]; exact ⟨rfl, rfl⟩
  | retries now => rw [now]; exact ⟨rfl, rfl⟩
  | joins now exited => rw [now]; exact ⟨rfl, rfl⟩
  | joined now all => rw [now]; exact ⟨rfl, rfl⟩

inductive Transition (setup : ServerSetup) (server : Server) :
    ServerAction → Server → Prop
  | signalled :
      Transition setup server .signal
        { server with
          main := server.main.interrupt
          shutdownRequested := true }
  | created {created : Nat} (now : server.main = .starting created)
      (more : created < setup.workerCount) :
      Transition setup server (.create true)
        ((server.setWorker created .calling).setMain
          (.starting (created + 1)))
  | uncreated {created : Nat} (now : server.main = .starting created) :
      Transition setup server (.create false)
        { server with
          main := .abandoning 0 created
          system := server.system.shutdown }
  | turned {main : MainState} {result : Int}
      (turn : Turn setup server main) :
      Transition setup server .main
        { server with main := main, result := result }
  | unaccepted (now : server.main = .accepting) :
      Transition setup server (.accept none) (server.setMain .testing)
  | accepts {clientFd : Int} {sockets : Sockets}
      (now : server.main = .accepting)
      (opened : server.sockets.accept clientFd = some sockets) :
      Transition setup server (.accept (some clientFd))
        { server with main := .accepted clientFd, sockets := sockets }
  | counts {clientFd : Int} (now : server.main = .accepted clientFd) :
      Transition setup server .main
        ((server.record .connectionAccepted).setMain (.counted clientFd))
  | calls {clientFd : Int} {system : QueueSystem}
      {returned : Option QueueReturn}
      (now : server.main = .counted clientFd)
      (stepped : server.system.step (.callPush 0 clientFd) =
        some (system, returned)) :
      Transition setup server .main
        (answer { server with system := system, main := .pushing clientFd }
          [] returned)
  | closes {clientFd : Int} {status : QueueStatus}
      (now : server.main = .refused clientFd status) :
      Transition setup server .main
        { server with
          main := .closed status
          sockets := server.sockets.close clientFd }
  | starts (now : server.main = .pushed) :
      Transition setup server .main
        ((server.record .connectionStarted).setMain .testing)
  | stops {started : Nat} (now : server.main = .stopping started) :
      Transition setup server .main
        { server with
          main := .joining 0 started
          system := server.system.shutdown }
  | destroys (now : server.main = .destroying) :
      Transition setup server .main
        { server with
          main := .returned
          sockets := (connectionQueueDestroy server.system.queue).1.foldl
            Sockets.close server.sockets
          system := { server.system with
            queue := (connectionQueueDestroy server.system.queue).2 } }
  | inside {action : QueueAction} {conversation : Conversation}
      {system : QueueSystem} {returned : Option QueueReturn}
      (inside : action.inside = true)
      (stepped : server.system.step action = some (system, returned)) :
      Transition setup server (.queue action conversation)
        (answer { server with system := system }
          (conversation.events setup.config) returned)
  | workerCalls {index : Nat} {system : QueueSystem}
      {returned : Option QueueReturn}
      (now : server.workers[index]? = some .calling)
      (stepped : server.system.step (.callPop (index + 1)) =
        some (system, returned)) :
      Transition setup server (.worker index)
        { server.setWorker index .popping with system := system }
  | workerRecords {index : Nat} {clientFd : Int} {event : StatsEvent}
      {pending : List StatsEvent}
      (now : server.workers[index]? =
        some (.handling clientFd (event :: pending))) :
      Transition setup server (.worker index)
        ((server.record event).setWorker index (.handling clientFd pending))
  | workerCloses {index : Nat} {clientFd : Int}
      (now : server.workers[index]? = some (.handling clientFd [])) :
      Transition setup server (.worker index)
        { server.setWorker index .closed with
          sockets := server.sockets.close clientFd }
  | workerFinishes {index : Nat}
      (now : server.workers[index]? = some .closed) :
      Transition setup server (.worker index)
        ((server.record .connectionFinished).setWorker index .calling)

theorem mainStep_transition {setup : ServerSetup} {server after : Server}
    (stepped : server.mainStep setup = some after) :
    Transition setup server .main after := by
  unfold mainStep at stepped
  split at stepped
  · rename_i created now
    split at stepped
    · rename_i all
      cases stepped
      exact .turned (.runs (all ▸ now))
    · cases stepped
  · rename_i joined created now
    split at stepped
    · split at stepped
      · rename_i exited
        cases stepped
        exact .turned (.abandons now (by simpa [hasExited] using exited))
      · cases stepped
    · rename_i all
      cases stepped
      exact .turned (.abandoned now (Nat.le_of_not_lt all))
  · rename_i now
    split at stepped
    · cases stepped
      exact .turned (.leaves (.inl now))
    · cases stepped
      exact .turned (.goesOn now)
  · rename_i now
    cases stepped
    exact .turned (.blocks now)
  · cases stepped
  · rename_i clientFd now
    cases stepped
    exact .counts now
  · rename_i clientFd now
    obtain ⟨⟨system, returned⟩, called, finished⟩ :=
      Option.map_eq_some_iff.mp stepped
    cases finished
    exact .calls now called
  · cases stepped
  · rename_i clientFd status now
    cases stepped
    exact .closes now
  · rename_i status now
    split at stepped
    · cases stepped
      exact .turned (.leaves (.inr ⟨status, now⟩))
    · cases stepped
      exact .turned (.retries now)
  · rename_i now
    cases stepped
    exact .starts now
  · rename_i started now
    cases stepped
    exact .stops now
  · rename_i joined started now
    split at stepped
    · split at stepped
      · rename_i exited
        cases stepped
        exact .turned (.joins now (by simpa [hasExited] using exited))
      · cases stepped
    · rename_i all
      cases stepped
      exact .turned (.joined now (Nat.le_of_not_lt all))
  · rename_i now
    cases stepped
    exact .destroys now
  · cases stepped

theorem workerStep_transition {setup : ServerSetup}
    {server after : Server} {index : Nat}
    (stepped : server.workerStep index = some after) :
    Transition setup server (.worker index) after := by
  unfold workerStep at stepped
  split at stepped
  · rename_i now
    obtain ⟨⟨system, returned⟩, called, finished⟩ :=
      Option.map_eq_some_iff.mp stepped
    cases finished
    exact .workerCalls now called
  · rename_i now
    cases stepped
    exact .workerRecords now
  · rename_i now
    cases stepped
    exact .workerCloses now
  · rename_i now
    cases stepped
    exact .workerFinishes now
  · cases stepped

/-- Every step is one of the transitions. -/
theorem next_transition {setup : ServerSetup} {server after : Server}
    {action : ServerAction}
    (stepped : server.next setup action = some after) :
    Transition setup server action after := by
  cases action with
  | signal =>
      cases stepped
      exact .signalled
  | create granted =>
      simp only [next] at stepped
      split at stepped
      · rename_i created now
        split at stepped
        · rename_i more
          split at stepped
          · rename_i isGranted
            cases isGranted
            cases stepped
            exact .created now more
          · rename_i isRefused
            cases granted with
            | true => exact absurd rfl isRefused
            | false =>
                cases stepped
                exact .uncreated now
        · cases stepped
      · cases stepped
  | accept answer =>
      simp only [next] at stepped
      split at stepped
      · rename_i now
        cases stepped
        exact .unaccepted now
      · rename_i clientFd now
        obtain ⟨sockets, opened, finished⟩ :=
          Option.map_eq_some_iff.mp stepped
        cases finished
        exact .accepts now opened
      · cases stepped
  | main => exact mainStep_transition stepped
  | queue action conversation =>
      simp only [next] at stepped
      split at stepped
      · rename_i permitted
        obtain ⟨⟨system, returned⟩, moved, finished⟩ :=
          Option.map_eq_some_iff.mp stepped
        cases finished
        exact .inside (Bool.and_eq_true_iff.mp permitted).1 moved
      · cases stepped
  | worker index => exact workerStep_transition stepped

/-! ## The start -/

/-- What all starts have in common. -/
structure Fresh (setup : ServerSetup) (server : Server) : Prop where
  workers : server.workers = List.replicate setup.workerCount .unborn
  calls : server.system.calls =
    List.replicate (setup.workerCount + 1) .idle
  empty : server.system.queue.count = 0
  pushed : server.system.pushed = []
  popped : server.system.popped = []
  stats : server.stats = serverStatsInit
  history : server.history = []
  sockets : server.sockets = Sockets.empty
  /-- The server returns at once, or the queue was created. -/
  main : server.main = .returned ∨ server.main = .starting 0 ∧
    server.system.Sound setup.queueCapacity

theorem fresh_of_start {setup : ServerSetup} {server : Server}
    (started : (machine setup).Start server) : server.Fresh setup := by
  obtain ⟨ready, requested, rfl⟩ := started
  unfold start
  dsimp only
  split
  · exact ⟨rfl, rfl, rfl, rfl, rfl, rfl, rfl, rfl, .inl rfl⟩
  · split
    · exact ⟨rfl, rfl, rfl, rfl, rfl, rfl, rfl, rfl, .inl rfl⟩
    · rename_i queue created
      have sound : (QueueSystem.start queue (setup.workerCount + 1)).Sound
          setup.queueCapacity := by
        cases ready with
        | false => simp [connectionQueueInit] at created
        | true => exact QueueSystem.start_sound _ created
      have empty : queue.count = 0 := by
        unfold connectionQueueInit at created
        split at created
        · cases created
        · cases created
          rfl
      exact ⟨rfl, rfl, empty, rfl, rfl, rfl, rfl, rfl, .inr ⟨rfl, sound⟩⟩

theorem Fresh.unborn {setup : ServerSetup} {server : Server}
    (fresh : server.Fresh setup) {index : Nat} {worker : WorkerState}
    (found : server.workers[index]? = some worker) : worker = .unborn := by
  rw [fresh.workers] at found
  exact List.eq_of_mem_replicate (List.mem_of_getElem? found)

end Server

end CinderHTTP
