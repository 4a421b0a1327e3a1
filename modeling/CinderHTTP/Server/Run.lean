import CinderHTTP.Queue.System
import CinderHTTP.Server.Statistics
import CinderHTTP.System.Sockets

/-!
# The server

`server_run` of `server.c` with the workers of `thread_pool.c`: the thread
that starts the workers, accepts connections and shuts down, any number of
workers that pop connections and handle them, and the signal handler.  The
threads share the queue system, in which the accepting thread is thread 0 and
worker `index` is thread `index + 1`, the counters, and the descriptors of the
process.  Every step is one that a thread makes alone: a mutex-held section, a
system call, or a test of the shutdown flag.
-/

namespace CinderHTTP

/-- The command line gives the two sizes as C integers. -/
structure ServerSetup where
  config : ServerConfig
  queueCapacity : Nat
  workerCount : Nat
  capacityInt : queueCapacity < 2 ^ 31
  workersInt : workerCount < 2 ^ 31

/-! ## Threads -/

/-- Where the accepting thread stands. -/
inductive MainState where
  /-- `thread_pool_start` has created some workers. -/
  | starting (created : Nat)
  /-- A worker could not be created, and those created are joined. -/
  | abandoning (joined created : Nat)
  /-- Before the test of the loop. -/
  | testing
  /-- The test has let the loop go on. -/
  | calling
  /-- In `accept`, which blocks until a connection is pending. -/
  | accepting
  | accepted (clientFd : Int)
  /-- The connection was counted as accepted. -/
  | counted (clientFd : Int)
  /-- In `connection_queue_push`. -/
  | pushing (clientFd : Int)
  /-- The push has failed, and the descriptor is closed next. -/
  | refused (clientFd : Int) (status : QueueStatus)
  | closed (status : QueueStatus)
  /-- The push has succeeded, and the connection is counted next. -/
  | pushed
  /-- At the label `cleanup`, with the number of workers to join. -/
  | stopping (started : Nat)
  | joining (joined started : Nat)
  | destroying
  | returned
  deriving DecidableEq, Repr

/-- Where a worker stands. -/
inductive WorkerState where
  | unborn
  /-- At the head of the loop of `worker_main`. -/
  | calling
  /-- In `connection_queue_pop`. -/
  | popping
  /-- In `client_handle`, with the statistics calls it has yet to make. -/
  | handling (clientFd : Int) (pending : List StatsEvent)
  /-- The connection was closed, and is counted as finished next. -/
  | closed
  | exited
  deriving DecidableEq, Repr

/-- A blocked `accept` fails with `EINTR` when a signal is handled. -/
def MainState.interrupt : MainState → MainState
  | .accepting => .testing
  | state => state

structure Server where
  system : QueueSystem
  main : MainState
  workers : List WorkerState
  stats : ServerStats
  /-- The statistics calls made so far. -/
  history : List StatsEvent
  sockets : Sockets
  shutdownRequested : Bool
  result : Int
  deriving DecidableEq

inductive ServerAction where
  /-- SIGINT or SIGTERM is handled. -/
  | signal
  /-- A worker is created, or memory or a thread for it is refused. -/
  | create (granted : Bool)
  /-- `accept` returns a descriptor or an error. -/
  | accept (answer : Option Int)
  /-- Any other step of the accepting thread outside the queue. -/
  | main
  /-- A step of a thread inside a queue call; the conversation is that of the
  connection that is popped, if one is. -/
  | queue (action : QueueAction) (conversation : Conversation)
  /-- A step of a worker outside the queue. -/
  | worker (index : Nat)

namespace Server

def record (server : Server) (event : StatsEvent) : Server :=
  { server with
    stats := event.apply server.stats
    history := server.history ++ [event] }

def setWorker (server : Server) (index : Nat) (state : WorkerState) :
    Server :=
  { server with workers := server.workers.set index state }

def setMain (server : Server) (main : MainState) : Server :=
  { server with main := main }

/-- What a thread does with the result of its queue call; `pending` are the
statistics calls of the connection that was popped. -/
def answer (server : Server) (pending : List StatsEvent) :
    Option QueueReturn → Server
  | none => server
  | some (.push _ _ .ok) => server.setMain .pushed
  | some (.push _ clientFd status) => server.setMain (.refused clientFd status)
  | some (.pop thread .ok (some clientFd)) =>
      server.setWorker (thread - 1) (.handling clientFd pending)
  | some (.pop thread _ _) => server.setWorker (thread - 1) .exited

/-- `pthread_join` returns when the worker has left its loop. -/
def hasExited (server : Server) (index : Nat) : Bool :=
  server.workers[index]? == some .exited

def mainStep (setup : ServerSetup) (server : Server) : Option Server :=
  match server.main with
  | .starting created =>
      if created = setup.workerCount then some (server.setMain .testing)
      else none
  | .abandoning joined created =>
      if joined < created then
        if server.hasExited joined then
          some (server.setMain (.abandoning (joined + 1) created))
        else none
      else some (server.setMain (.stopping 0))
  | .testing =>
      if server.shutdownRequested then
        some { server with main := .stopping setup.workerCount, result := 0 }
      else some (server.setMain .calling)
  | .calling => some (server.setMain .accepting)
  | .accepting => none
  | .accepted clientFd =>
      some ((server.record .connectionAccepted).setMain (.counted clientFd))
  | .counted clientFd =>
      (server.system.step (.callPush 0 clientFd)).map fun stepped =>
        answer
          { server with system := stepped.1, main := .pushing clientFd } []
          stepped.2
  | .pushing _ => none
  | .refused clientFd status =>
      some
        { server with
          main := .closed status
          sockets := server.sockets.close clientFd }
  | .closed status =>
      if status = .shutdown ∨ server.shutdownRequested = true then
        some { server with main := .stopping setup.workerCount, result := 0 }
      else some (server.setMain .testing)
  | .pushed => some ((server.record .connectionStarted).setMain .testing)
  | .stopping started =>
      some
        { server with
          main := .joining 0 started
          system := server.system.shutdown }
  | .joining joined started =>
      if joined < started then
        if server.hasExited joined then
          some (server.setMain (.joining (joined + 1) started))
        else none
      else some (server.setMain .destroying)
  | .destroying =>
      let destroyed := connectionQueueDestroy server.system.queue
      some
        { server with
          main := .returned
          sockets := destroyed.1.foldl Sockets.close server.sockets
          system := { server.system with queue := destroyed.2 } }
  | .returned => none

def workerStep (server : Server) (index : Nat) : Option Server :=
  match server.workers[index]? with
  | some .calling =>
      (server.system.step (.callPop (index + 1))).map fun stepped =>
        { server.setWorker index .popping with system := stepped.1 }
  | some (.handling clientFd (event :: pending)) =>
      some ((server.record event).setWorker index
        (.handling clientFd pending))
  | some (.handling clientFd []) =>
      some
        { server.setWorker index .closed with
          sockets := server.sockets.close clientFd }
  | some .closed =>
      some ((server.record .connectionFinished).setWorker index .calling)
  | _ => none

end Server

/-- The abort flag of a push is the shutdown flag. -/
def QueueAction.readsFlag (shutdownRequested : Bool) : QueueAction → Bool
  | .pushSection _ aborted _ _ => aborted == shutdownRequested
  | _ => true

namespace Server

def next (setup : ServerSetup) (server : Server) :
    ServerAction → Option Server
  | .signal =>
      some
        { server with
          main := server.main.interrupt
          shutdownRequested := true }
  | .create granted =>
      match server.main with
      | .starting created =>
          if created < setup.workerCount then
            if granted then
              some ((server.setWorker created .calling).setMain
                (.starting (created + 1)))
            else
              some
                { server with
                  main := .abandoning 0 created
                  system := server.system.shutdown }
          else none
      | _ => none
  | .accept answer =>
      match server.main, answer with
      | .accepting, none => some (server.setMain .testing)
      | .accepting, some clientFd =>
          (server.sockets.accept clientFd).map fun sockets =>
            { server with main := .accepted clientFd, sockets := sockets }
      | _, _ => none
  | .main => server.mainStep setup
  | .queue action conversation =>
      if action.inside && action.readsFlag server.shutdownRequested then
        (server.system.step action).map fun stepped =>
          answer { server with system := stepped.1 }
            (conversation.events setup.config) stepped.2
      else none
  | .worker index => server.workerStep index

/-- A server at the start of `server_run`, up to `thread_pool_start`; the flag
is whether logger, counters, queue and pool could be created.  Otherwise
`server_run` returns at once. -/
def start (setup : ServerSetup) (ready : Bool) : Server :=
  let blank : Server :=
    { system :=
        { queue :=
            { items := [], capacity := 0, head := 0, tail := 0, count := 0
              shuttingDown := false }
          calls := List.replicate (setup.workerCount + 1) .idle
          pushed := []
          popped := [] }
      main := .returned
      workers := List.replicate setup.workerCount .unborn
      stats := serverStatsInit
      history := []
      sockets := Sockets.empty
      shutdownRequested := false
      result := -1 }
  if setup.workerCount = 0 then blank
  else
    match connectionQueueInit setup.queueCapacity ready with
    | none => blank
    | some queue =>
        { blank with
          system := QueueSystem.start queue (setup.workerCount + 1)
          main := .starting 0 }

/-- All runs of `server_run`. -/
def machine (setup : ServerSetup) : Machine Server ServerAction :=
  { Start := fun server => ∃ ready requested,
      server =
        { start setup ready with shutdownRequested := requested }
    next := next setup }

end Server

end CinderHTTP
