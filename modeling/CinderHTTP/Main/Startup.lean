import CinderHTTP.Base.Lifetimes
import CinderHTTP.Config.Arguments

/-!
# From `main` to the accept loop and back

`main` and what it calls to build the server up and to take it down: the
listening socket, the mutexes and condition variables, the arrays, the threads
and their arguments.  Every call that can fail is answered from a script, and
every resource that is obtained or given back is written to a log.  The accept
loop itself, which starts with all of them and leaves them alone, is the
machine of the server.
-/

namespace CinderHTTP

inductive Resource where
  | listenSocket
  | statsMutex
  | queueItems
  | queueMutex
  | notEmpty
  | notFull
  | threadHandles
  | workerArg (index : Nat)
  /-- A thread that was created and not joined. -/
  | thread (index : Nat)
  deriving DecidableEq, Repr

/-- What rests on what: the threads use the queue and the counters. -/
def Resource.layer : Resource → Nat
  | .listenSocket => 0
  | .statsMutex => 1
  | .queueItems => 2
  | .queueMutex => 3
  | .notEmpty => 4
  | .notFull => 5
  | .threadHandles => 6
  | .workerArg _ => 7
  | .thread _ => 7

/-- Answers to the calls that can fail, in order; when they are used up every
further call succeeds. -/
structure Startup where
  answers : List Bool
  log : List (Use Resource)
  deriving DecidableEq, Repr

namespace Startup

def attempt (state : Startup) : Bool × Startup :=
  (decide (state.answers.head? ≠ some false),
    { state with answers := state.answers.tail })

def acquire (resource : Resource) (state : Startup) : Bool × Startup :=
  match state.attempt with
  | (false, state) => (false, state)
  | (true, state) =>
      (true, { state with log := state.log ++ [.acquire resource] })

def release (resource : Resource) (state : Startup) : Startup :=
  { state with log := state.log ++ [.release resource] }

end Startup

/-! ## The listening socket -/

def serverCreateListeningSocket (state : Startup) : Bool × Startup :=
  match state.acquire .listenSocket with
  | (false, state) => (false, state)
  | (true, state) =>
      -- `setsockopt`, `bind` and `listen`
      match state.attempt with
      | (false, state) => (false, state.release .listenSocket)
      | (true, state) =>
          match state.attempt with
          | (false, state) => (false, state.release .listenSocket)
          | (true, state) =>
              match state.attempt with
              | (false, state) => (false, state.release .listenSocket)
              | (true, state) => (true, state)

/-! ## The queue -/

/-- The fields of a queue that say what was initialised. -/
structure QueueObjects where
  items : Bool
  mutexInitialized : Bool
  notEmptyInitialized : Bool
  notFullInitialized : Bool
  deriving DecidableEq, Repr

def QueueObjects.zeroed : QueueObjects :=
  { items := false, mutexInitialized := false, notEmptyInitialized := false
    notFullInitialized := false }

/-- `connection_queue_destroy`, apart from the queued descriptors. -/
def QueueObjects.destroy (objects : QueueObjects) (state : Startup) :
    Startup :=
  let state :=
    if objects.notFullInitialized then state.release .notFull else state
  let state :=
    if objects.notEmptyInitialized then state.release .notEmpty else state
  let state :=
    if objects.mutexInitialized then state.release .queueMutex else state
  if objects.items then state.release .queueItems else state

/-- `connection_queue_init`. -/
def QueueObjects.init (capacity : Nat) (state : Startup) :
    (Bool × QueueObjects) × Startup :=
  if capacity = 0 then ((false, .zeroed), state)
  else
    match state.acquire .queueItems with
    | (false, state) => ((false, .zeroed), state)
    | (true, state) =>
        let objects := { QueueObjects.zeroed with items := true }
        match state.acquire .queueMutex with
        | (false, state) => ((false, .zeroed), state.release .queueItems)
        | (true, state) =>
            let objects := { objects with mutexInitialized := true }
            match state.acquire .notEmpty with
            | (false, state) => ((false, .zeroed), objects.destroy state)
            | (true, state) =>
                let objects := { objects with notEmptyInitialized := true }
                match state.acquire .notFull with
                | (false, state) => ((false, .zeroed), objects.destroy state)
                | (true, state) =>
                    ((true, { objects with notFullInitialized := true }),
                      state)

/-! ## The threads -/

/-- The fields of a pool that change. -/
structure ThreadPool where
  threads : Bool
  workerCount : Nat
  startedCount : Nat
  deriving DecidableEq, Repr

def ThreadPool.zeroed : ThreadPool :=
  { threads := false, workerCount := 0, startedCount := 0 }

def threadPoolInit (workerCount : Nat) (state : Startup) :
    (Bool × ThreadPool) × Startup :=
  if workerCount = 0 then ((false, .zeroed), state)
  else
    match state.acquire .threadHandles with
    | (false, state) => ((false, .zeroed), state)
    | (true, state) =>
        ((true,
          { threads := true, workerCount := workerCount, startedCount := 0 }),
          state)

/-- `pthread_join` on the first threads, in order. -/
def joinThreads (count : Nat) (state : Startup) : Startup :=
  { state with
    log := state.log ++ (List.range count).map fun index =>
      .release (.thread index) }

/-- The loop of `thread_pool_start` with the number of threads created.  The
argument of a thread belongs to it from its creation on, and `worker_main`
frees it first. -/
def startThreads (started : Nat) : Nat → Startup → (Bool × Nat) × Startup
  | 0, state => ((true, started), state)
  | remaining + 1, state =>
      match state.acquire (.workerArg started) with
      | (false, state) => ((false, 0), joinThreads started state)
      | (true, state) =>
          match state.acquire (.thread started) with
          | (false, state) =>
              ((false, 0),
                joinThreads started (state.release (.workerArg started)))
          | (true, state) =>
              startThreads (started + 1) remaining
                (state.release (.workerArg started))

def threadPoolStart (pool : ThreadPool) (state : Startup) :
    (Bool × ThreadPool) × Startup :=
  if pool.threads then
    match startThreads 0 pool.workerCount state with
    | ((success, started), state) =>
        ((success, { pool with startedCount := started }), state)
  else ((false, pool), state)

def threadPoolJoin (pool : ThreadPool) (state : Startup) :
    ThreadPool × Startup :=
  if pool.threads then
    ({ pool with startedCount := 0 }, joinThreads pool.startedCount state)
  else (pool, state)

def threadPoolDestroy (pool : ThreadPool) (state : Startup) : Startup :=
  if pool.threads then state.release .threadHandles else state

/-! ## `server_run` -/

/-- The flags of `server_run` at the label `cleanup`, with the records they
are about.  The logger needs no resource and is always there. -/
structure Subsystems where
  statsReady : Bool
  queueReady : Bool
  poolReady : Bool
  workersRunning : Bool
  queue : QueueObjects
  pool : ThreadPool
  deriving DecidableEq, Repr

def Subsystems.none : Subsystems :=
  { statsReady := false, queueReady := false, poolReady := false
    workersRunning := false, queue := .zeroed, pool := .zeroed }

/-- Up to the accept loop, or to the first failure. -/
def startSubsystems (workerCount queueCapacity : Nat) (state : Startup) :
    Subsystems × Startup :=
  match state.acquire .statsMutex with
  | (false, state) => (.none, state)
  | (true, state) =>
      let ready := { Subsystems.none with statsReady := true }
      match QueueObjects.init queueCapacity state with
      | ((false, queue), state) => ({ ready with queue := queue }, state)
      | ((true, queue), state) =>
          let ready := { ready with queueReady := true, queue := queue }
          match threadPoolInit workerCount state with
          | ((false, pool), state) => ({ ready with pool := pool }, state)
          | ((true, pool), state) =>
              let ready := { ready with poolReady := true }
              match threadPoolStart pool state with
              | ((success, pool), state) =>
                  ({ ready with workersRunning := success, pool := pool },
                    state)

/-- Behind the label `cleanup`. -/
def cleanup (ready : Subsystems) (state : Startup) : Startup :=
  let joined :=
    if ready.workersRunning || (ready.poolReady && ready.queueReady) then
      if ready.poolReady then threadPoolJoin ready.pool state
      else (ready.pool, state)
    else (ready.pool, state)
  let state :=
    if ready.poolReady then threadPoolDestroy joined.1 joined.2 else joined.2
  let state :=
    if ready.queueReady then ready.queue.destroy state else state
  if ready.statsReady then state.release .statsMutex else state

/-- `server_run` with its result; the accept loop is left with 0. -/
def serverRun (workerCount queueCapacity : Nat) (state : Startup) :
    Int × Startup :=
  match startSubsystems workerCount queueCapacity state with
  | (ready, state) =>
      (if ready.workersRunning then 0 else -1, cleanup ready state)

/-! ## `main` -/

/-- The arguments behind the program name, and the exit code. -/
def mainProcess (arguments : List Bytes) (state : Startup) : Int × Startup :=
  let parsed := configParseArgs configSetDefaults arguments
  match parsed.result with
  | .help => (0, state)
  | .error => (1, state)
  | .ok =>
      match serverCreateListeningSocket state with
      | (false, state) => (1, state)
      | (true, state) =>
          match serverRun parsed.config.workerCount.toNat
              parsed.config.queueCapacity.toNat state with
          | (result, state) =>
              (if result = 0 then 0 else 1, state.release .listenSocket)

end CinderHTTP
