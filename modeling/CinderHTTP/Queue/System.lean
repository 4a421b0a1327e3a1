import CinderHTTP.Base.RingBuffer
import CinderHTTP.Base.Transition
import Mathlib.Data.Int.Notation

/-!
# The connection queue and its callers

The functions of `connection_queue.c` on the queue record, and the system of
any number of threads that call them.  A call consists of sections during
which its thread holds the mutex: one for every pass through the predicate
loop.  Between two sections the thread is asleep on a condition variable, or
was woken and has yet to take the mutex again.  The action of a step says
which thread moves and how the pthread and clock calls of its section end.
-/

namespace CinderHTTP

inductive QueueStatus where
  | ok
  | shutdown
  | error
  deriving DecidableEq, Repr

structure ConnectionQueue extends Ring Int where
  shuttingDown : Bool
  deriving DecidableEq, Repr

/-! ## The functions -/

/-- The flag is whether memory, mutex and condition variables were
obtained. -/
def connectionQueueInit (capacity : Nat) (obtained : Bool) :
    Option ConnectionQueue :=
  if capacity = 0 ∨ obtained = false then none
  else some { toRing := Ring.empty capacity, shuttingDown := false }

/-- How a section ends: in a wait, which gives up the mutex, or with the
result of the call. -/
inductive SectionEnd (α : Type) where
  | waits
  | returns (result : α)
  deriving DecidableEq, Repr

/-- A section of `connection_queue_push`; `aborted` is the value of the abort
flag and `clock` whether the time could be read. -/
def connectionQueuePush (queue : ConnectionQueue) (clientFd : Int)
    (aborted clock : Bool) : SectionEnd QueueStatus × ConnectionQueue :=
  if queue.count ≥ queue.capacity ∧ queue.shuttingDown = false then
    if aborted then (.returns .shutdown, queue)
    else if !clock then (.returns .error, queue)
    else (.waits, queue)
  else if queue.shuttingDown then (.returns .shutdown, queue)
  else (.returns .ok, { queue with toRing := queue.toRing.push clientFd })

/-- A section of `connection_queue_pop`, with the descriptor it stores. -/
def connectionQueuePop (queue : ConnectionQueue) :
    SectionEnd (QueueStatus × Option Int) × ConnectionQueue :=
  if queue.count = 0 ∧ queue.shuttingDown = false then (.waits, queue)
  else if queue.count = 0 ∧ queue.shuttingDown = true then
    (.returns (.shutdown, none), queue)
  else
    (.returns (.ok, some (queue.cell queue.head)),
      { queue with toRing := queue.toRing.pop })

def connectionQueueShutdown (queue : ConnectionQueue) : ConnectionQueue :=
  { queue with shuttingDown := true }

/-- The loop of `connection_queue_destroy`, with the descriptors it closes. -/
def closeQueued (ring : Ring Int) (index : Nat) : Nat → List Int
  | 0 => []
  | remaining + 1 =>
      let place := (ring.head + index) % ring.capacity
      let fd := ring.cell place
      if fd ≥ 0 then
        fd :: closeQueued { ring with items := ring.items.set place (-1) }
          (index + 1) remaining
      else closeQueued ring (index + 1) remaining

def connectionQueueDestroy (queue : ConnectionQueue) :
    List Int × ConnectionQueue :=
  (if queue.count > 0 then closeQueued queue.toRing 0 queue.count else [],
    { items := [], capacity := 0, head := 0, tail := 0, count := 0
      shuttingDown := false })

/-! ## Threads -/

/-- Where a call stands when its thread does not hold the mutex. -/
inductive Waiting where
  | entering
  | asleep
  | woken
  deriving DecidableEq, Repr

inductive QueueCall where
  | idle
  | push (clientFd : Int) (waiting : Waiting)
  | pop (waiting : Waiting)
  deriving DecidableEq, Repr

/-- The sleepers on `not_full`. -/
def QueueCall.sleepsInPush : QueueCall → Bool
  | .push _ .asleep => true
  | _ => false

/-- The sleepers on `not_empty`. -/
def QueueCall.sleepsInPop : QueueCall → Bool
  | .pop .asleep => true
  | _ => false

def QueueCall.wake : QueueCall → QueueCall
  | .push clientFd .asleep => .push clientFd .woken
  | .pop .asleep => .pop .woken
  | call => call

/-- `pthread_cond_signal` wakes some of the sleepers, and at least one if
there is one. -/
def condSignal (sleeps : QueueCall → Bool) (chosen : List Nat)
    (calls : List QueueCall) : Option (List QueueCall) :=
  if calls.any sleeps &&
      !chosen.any (fun thread => (calls[thread]?).any sleeps) then none
  else
    some (calls.mapIdx fun thread call =>
      if sleeps call && chosen.contains thread then call.wake else call)

/-- `pthread_cond_broadcast` on both condition variables. -/
def condBroadcast (calls : List QueueCall) : List QueueCall :=
  calls.map QueueCall.wake

/-- The queue with the calls in progress, and the descriptors that were
pushed and popped with `CONNECTION_QUEUE_OK`, in this order. -/
structure QueueSystem where
  queue : ConnectionQueue
  calls : List QueueCall
  pushed : List Int
  popped : List Int
  deriving DecidableEq, Repr

inductive QueueAction where
  | callPush (thread : Nat) (clientFd : Int)
  | callPop (thread : Nat)
  /-- The mutex cannot be taken at the start of a call. -/
  | lockFails (thread : Nat)
  | pushSection (thread : Nat) (aborted clock : Bool) (chosen : List Nat)
  | popSection (thread : Nat) (chosen : List Nat)
  /-- A spurious wakeup, or the end of a timed wait. -/
  | wakeUp (thread : Nat)
  /-- The wait ends with an error that is not `ETIMEDOUT`. -/
  | waitFails (thread : Nat)
  | shutdown
  deriving DecidableEq, Repr

/-- The steps of a thread that is in a call. -/
def QueueAction.inside : QueueAction → Bool
  | .callPush _ _ => false
  | .callPop _ => false
  | .shutdown => false
  | _ => true

/-- The end of a call. -/
inductive QueueReturn where
  | push (thread : Nat) (clientFd : Int) (status : QueueStatus)
  | pop (thread : Nat) (status : QueueStatus) (stored : Option Int)
  deriving DecidableEq, Repr

namespace QueueSystem

def setCall (system : QueueSystem) (thread : Nat) (call : QueueCall) :
    QueueSystem :=
  { system with calls := system.calls.set thread call }

/-- A call that ends without having changed the queue. -/
def fail (system : QueueSystem) (thread : Nat) :
    QueueCall → Option (QueueSystem × Option QueueReturn)
  | .idle => none
  | .push clientFd _ =>
      some (system.setCall thread .idle,
        some (.push thread clientFd .error))
  | .pop _ =>
      some (system.setCall thread .idle, some (.pop thread .error none))

def runPush (system : QueueSystem) (thread : Nat) (clientFd : Int)
    (aborted clock : Bool) (chosen : List Nat) :
    Option (QueueSystem × Option QueueReturn) :=
  match connectionQueuePush system.queue clientFd aborted clock with
  | (.waits, _) => some (system.setCall thread (.push clientFd .asleep), none)
  | (.returns .ok, queue) =>
      (condSignal QueueCall.sleepsInPop chosen
        (system.calls.set thread .idle)).map fun calls =>
          ({ queue := queue
             calls := calls
             pushed := system.pushed ++ [clientFd]
             popped := system.popped },
            some (.push thread clientFd .ok))
  | (.returns status, queue) =>
      some ({ system.setCall thread .idle with queue := queue },
        some (.push thread clientFd status))

def runPop (system : QueueSystem) (thread : Nat) (chosen : List Nat) :
    Option (QueueSystem × Option QueueReturn) :=
  match connectionQueuePop system.queue with
  | (.waits, _) => some (system.setCall thread (.pop .asleep), none)
  | (.returns (.ok, stored), queue) =>
      (condSignal QueueCall.sleepsInPush chosen
        (system.calls.set thread .idle)).map fun calls =>
          ({ queue := queue
             calls := calls
             pushed := system.pushed
             popped := system.popped ++ stored.toList },
            some (.pop thread .ok stored))
  | (.returns (status, stored), queue) =>
      some ({ system.setCall thread .idle with queue := queue },
        some (.pop thread status stored))

def shutdown (system : QueueSystem) : QueueSystem :=
  { system with
    queue := connectionQueueShutdown system.queue
    calls := condBroadcast system.calls }

/-- One step, with the end of the call if it is the last of one. -/
def step (system : QueueSystem) :
    QueueAction → Option (QueueSystem × Option QueueReturn)
  | .callPush thread clientFd =>
      match system.calls[thread]? with
      | some .idle =>
          if clientFd < 0 then
            some (system, some (.push thread clientFd .error))
          else some (system.setCall thread (.push clientFd .entering), none)
      | _ => none
  | .callPop thread =>
      match system.calls[thread]? with
      | some .idle => some (system.setCall thread (.pop .entering), none)
      | _ => none
  | .lockFails thread =>
      match system.calls[thread]? with
      | some (.push clientFd .entering) =>
          system.fail thread (.push clientFd .entering)
      | some (.pop .entering) => system.fail thread (.pop .entering)
      | _ => none
  | .pushSection thread aborted clock chosen =>
      match system.calls[thread]? with
      | some (.push clientFd .entering) | some (.push clientFd .woken) =>
          system.runPush thread clientFd aborted clock chosen
      | _ => none
  | .popSection thread chosen =>
      match system.calls[thread]? with
      | some (.pop .entering) | some (.pop .woken) =>
          system.runPop thread chosen
      | _ => none
  | .wakeUp thread =>
      match system.calls[thread]? with
      | some (.push clientFd .asleep) =>
          some (system.setCall thread (.push clientFd .woken), none)
      | some (.pop .asleep) =>
          some (system.setCall thread (.pop .woken), none)
      | _ => none
  | .waitFails thread =>
      match system.calls[thread]? with
      | some (.push clientFd .asleep) =>
          system.fail thread (.push clientFd .asleep)
      | some (.pop .asleep) => system.fail thread (.pop .asleep)
      | _ => none
  | .shutdown => some (system.shutdown, none)

/-- The system of some number of threads, none of which is in a call. -/
def start (queue : ConnectionQueue) (threads : Nat) : QueueSystem :=
  { queue := queue
    calls := List.replicate threads .idle
    pushed := []
    popped := [] }

/-- The runs of any number of threads on a queue of the given capacity. -/
def machine (capacity : Nat) : Machine QueueSystem QueueAction :=
  { Start := fun system => ∃ queue threads,
      connectionQueueInit capacity true = some queue ∧
        system = start queue threads
    next := fun system action => (system.step action).map Prod.fst }

end QueueSystem

end CinderHTTP
