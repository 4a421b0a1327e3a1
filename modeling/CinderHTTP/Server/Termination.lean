import CinderHTTP.Base.Credit
import CinderHTTP.Base.Liveness
import CinderHTTP.Server.Ownership
import CinderHTTP.Server.Staffing

/-!
# The end of `server_run`

Once the queue is closed nobody waits in it any more: every step of a thread
takes a connection from the queue, or brings a worker nearer to its end or to
the end of its connection, or brings the accepting thread nearer to the end of
`server_run`.  What a worker does wait for is its client: `send` has no
timeout, and a client that reads nothing more stops `client_handle` for good.
Without such clients `server_run` returns whatever the scheduler does, and with
one in the hands of a worker it never does.
-/

namespace CinderHTTP

/-! ## What is left to do -/

/-- The steps of a worker until it pops again and finds nothing. -/
def WorkerState.remaining : WorkerState → Nat
  | .unborn => 0
  | .exited => 0
  | .popping => 1
  | .calling => 2
  | .closed => 3
  | .handling _ pending => pending.length + 4

/-- The steps of the accepting thread until it returns. -/
def MainState.remaining : MainState → Nat
  | .abandoning joined created => created - joined + 4
  | .stopping started => started + 3
  | .joining joined started => started - joined + 2
  | .destroying => 1
  | _ => 0

namespace QueueSystem

/-- In a closing queue every step inside a call is its last. -/
theorem returns_of_closing {system after : QueueSystem}
    {action : QueueAction} {answer : Option QueueReturn}
    (wakeful : system.Wakeful)
    (closing : system.queue.shuttingDown = true)
    (inside : action.inside = true)
    (stepped : system.step action = some (after, answer)) :
    answer ≠ none := by
  have awake := wakeful.closing closing
  cases action with
  | callPush thread clientFd => cases inside
  | callPop thread => cases inside
  | shutdown => cases inside
  | lockFails thread =>
      simp only [step] at stepped
      split at stepped
      · cases stepped
        exact Option.some_ne_none _
      · cases stepped
        exact Option.some_ne_none _
      · cases stepped
  | waitFails thread =>
      simp only [step] at stepped
      split at stepped
      · cases stepped
        exact Option.some_ne_none _
      · cases stepped
        exact Option.some_ne_none _
      · cases stepped
  | wakeUp thread =>
      simp only [step] at stepped
      split at stepped
      · rename_i found
        have asleep := awake .push _ (List.mem_of_getElem? found)
        cases asleep
      · rename_i found
        have asleep := awake .pop _ (List.mem_of_getElem? found)
        cases asleep
      · cases stepped
  | pushSection thread aborted clock chosen =>
      have refuses : ∀ clientFd, connectionQueuePush system.queue clientFd
          aborted clock = (.returns .shutdown, system.queue) := by
        simp [connectionQueuePush, closing]
      simp only [step, runPush, refuses] at stepped
      split at stepped
      · cases stepped
        exact Option.some_ne_none _
      · cases stepped
        exact Option.some_ne_none _
      · cases stepped
  | popSection thread chosen =>
      have ran : system.runPop thread chosen = some (after, answer) := by
        simp only [step] at stepped
        split at stepped
        · exact stepped
        · exact stepped
        · cases stepped
      unfold runPop connectionQueuePop at ran
      split_ifs at ran with idle drained
      · rw [closing] at idle
        cases idle.2
      · cases ran
        exact Option.some_ne_none _
      · obtain ⟨calls, _, finished⟩ := Option.map_eq_some_iff.mp ran
        cases finished
        exact Option.some_ne_none _

end QueueSystem

namespace Server

def remaining (server : Server) : Nat :=
  server.main.remaining + (server.workers.map WorkerState.remaining).sum

/-- The queued connections count more than any number of steps, since the
conversation of each has any length. -/
def rank (server : Server) : Nat × Nat :=
  (server.system.queue.count, server.remaining)

def Below : Nat × Nat → Nat × Nat → Prop :=
  Prod.Lex (· < ·) (· < ·)

theorem below_wellFounded : WellFounded Below :=
  Nat.lt_wfRel.wf.prod_lex Nat.lt_wfRel.wf

theorem rank_main {server after : Server}
    (count : after.system.queue.count = server.system.queue.count)
    (workers : after.workers = server.workers)
    (nearer : after.main.remaining < server.main.remaining) :
    Below after.rank server.rank := by
  apply Prod.lex_iff.mpr
  right
  refine ⟨count, ?_⟩
  simp only [rank, remaining, workers]
  omega

theorem rank_worker {server after : Server} {index : Nat}
    {old new : WorkerState}
    (count : after.system.queue.count = server.system.queue.count)
    (main : after.main = server.main)
    (found : server.workers[index]? = some old)
    (workers : after.workers = server.workers.set index new)
    (nearer : new.remaining < old.remaining) :
    Below after.rank server.rank := by
  have changed := sum_map_set new WorkerState.remaining found
  apply Prod.lex_iff.mpr
  right
  refine ⟨count, ?_⟩
  simp only [rank, remaining, workers, main]
  omega

theorem rank_interrupt (server : Server) :
    rank
      { server with
        main := server.main.interrupt
        shutdownRequested := true } = server.rank := by
  have same : server.main.interrupt.remaining = server.main.remaining := by
    cases server.main <;> rfl
  simp only [rank, remaining, same]

/-! ## A closing server -/

structure Closing (setup : ServerSetup) (server : Server) : Prop where
  coordinated : server.Coordinated setup
  staffed : server.Staffed setup
  closing : server.system.queue.shuttingDown = true

/-- A closed queue stays closed until it is destroyed. -/
theorem Closing.step {setup : ServerSetup} {server after : Server}
    {action : ServerAction} (closing : server.Closing setup)
    (transition : Transition setup server action after) :
    after.main = .returned ∨ after.Closing setup := by
  have coordinated := closing.coordinated.step transition
  have staffed := closing.staffed.step closing.coordinated transition
  cases transition.system with
  | rests same =>
      right
      exact ⟨coordinated, staffed, same ▸ closing.closing⟩
  | steps stepped =>
      right
      have effect := QueueSystem.step_effect stepped
      exact ⟨coordinated, staffed, (effect.closed_stays closing.closing).1⟩
  | destroyed main calls queue => exact .inl main

theorem Closing.interrupt {setup : ServerSetup} {server : Server}
    (closing : server.Closing setup) :
    Closing setup
      { server with
        main := server.main.interrupt
        shutdownRequested := true } := by
  constructor
  · exact closing.coordinated.step .signalled
  · exact closing.staffed.step closing.coordinated .signalled
  · exact closing.closing

theorem Closing.mainStep {setup : ServerSetup} {server after : Server}
    (closing : server.Closing setup)
    (stepped : server.mainStep setup = some after) :
    after.main = .returned ∨ Below after.rank server.rank := by
  have leaving := closing.staffed.closing closing.closing
  unfold Server.mainStep at stepped
  cases now : server.main with
  | abandoning joined created =>
      simp only [now] at stepped
      split_ifs at stepped with more exited
      · cases stepped
        right
        refine rank_main rfl rfl ?_
        rw [now]
        change created - (joined + 1) + 4 < created - joined + 4
        omega
      · cases stepped
        right
        refine rank_main rfl rfl ?_
        rw [now]
        change 0 + 3 < created - joined + 4
        omega
  | stopping started =>
      simp only [now] at stepped
      cases stepped
      right
      refine rank_main rfl rfl ?_
      rw [now]
      change started - 0 + 2 < started + 3
      omega
  | joining joined started =>
      simp only [now] at stepped
      split_ifs at stepped with more exited
      · cases stepped
        right
        refine rank_main rfl rfl ?_
        rw [now]
        change started - (joined + 1) + 2 < started - joined + 2
        omega
      · cases stepped
        right
        refine rank_main rfl rfl ?_
        rw [now]
        change 1 < started - joined + 2
        omega
  | destroying =>
      simp only [now] at stepped
      cases stepped
      exact .inl rfl
  | _ =>
      rw [now] at leaving
      cases leaving

theorem Closing.stepInside {setup : ServerSetup} {server : Server}
    {system : QueueSystem} {action : QueueAction}
    {returned : Option QueueReturn} (pending : List StatsEvent)
    (closing : server.Closing setup) (inside : action.inside = true)
    (stepped : server.system.step action = some (system, returned)) :
    Below (answer { server with system := system } pending returned).rank
      server.rank := by
  have leaving := closing.staffed.closing closing.closing
  have ends := QueueSystem.returns_of_closing closing.staffed.wakeful
    closing.closing inside stepped
  cases QueueSystem.step_effect stepped with
  | enteredPush unchanged nonnegative idle operations => cases inside
  | invalid negative same => cases inside
  | enteredPop unchanged idle operations => cases inside
  | closed queue pushed popped same => cases inside
  | continued inside unchanged same => exact absurd rfl ends
  | pushRefused inside unchanged refusal calling operations =>
      obtain ⟨_, now⟩ := closing.coordinated.pushing calling
      rw [now] at leaving
      cases leaving
  | pushed inside room accepting queue pushed popped calling operations =>
      obtain ⟨_, now⟩ := closing.coordinated.pushing calling
      rw [now] at leaving
      cases leaving
  | popRefused inside unchanged refusal drained calling operations =>
      obtain ⟨index, rfl, found⟩ := closing.coordinated.popping calling
      rw [answer_popRefused]
      exact rank_worker (congrArg (·.count) unchanged.queue) rfl found rfl
        Nat.zero_lt_one
  | popped inside filled queue pushed popped calling operations =>
      apply Prod.lex_iff.mpr
      left
      change system.queue.count < server.system.queue.count
      rw [queue]
      change server.system.queue.count - 1 < server.system.queue.count
      omega

/-- Every step of a thread leaves less to do. -/
theorem Closing.rank_lt {setup : ServerSetup} {server after : Server}
    {action : ServerAction} (closing : server.Closing setup)
    (thread : action ≠ .signal)
    (stepped : server.next setup action = some after) :
    after.main = .returned ∨ Below after.rank server.rank := by
  have leaving := closing.staffed.closing closing.closing
  have transition := next_transition stepped
  cases action with
  | main => exact closing.mainStep stepped
  | signal => exact absurd rfl thread
  | create granted =>
      cases transition with
      | created now more =>
          rw [now] at leaving
          cases leaving
      | uncreated now =>
          rw [now] at leaving
          cases leaving
  | accept answer =>
      cases transition with
      | unaccepted now =>
          rw [now] at leaving
          cases leaving
      | accepts now opened =>
          rw [now] at leaving
          cases leaving
  | queue action conversation =>
      cases transition with
      | inside inside moved =>
          right
          exact closing.stepInside _ inside moved
  | worker index =>
      right
      cases transition with
      | workerCalls now moved =>
          have unchanged := (QueueSystem.step_effect moved).of_callPop.1
          exact rank_worker (congrArg (·.count) unchanged.queue) rfl now rfl
            (by decide)
      | workerRecords now =>
          refine rank_worker rfl rfl now rfl ?_
          simp [WorkerState.remaining]
      | workerCloses now =>
          refine rank_worker rfl rfl now rfl ?_
          simp [WorkerState.remaining]
      | workerFinishes now =>
          exact rank_worker rfl rfl now rfl (by decide)

/-! ## Clients that stall -/

end Server

/-- The `client_handle` calls that never go on, told by the descriptor and the
statistics calls that are yet to be made. -/
def Stalls := Int → List StatsEvent → Bool

def WorkerState.stalled (stalls : Stalls) : WorkerState → Bool
  | .handling clientFd pending => stalls clientFd pending
  | _ => false

namespace Server

/-- The steps that a stalled client keeps from happening. -/
def withheld (stalls : Stalls) (server : Server) : ServerAction → Bool
  | .worker index => server.workers[index]?.any (WorkerState.stalled stalls)
  | _ => false

/-- The runs of `server_run` in which the given calls never go on. -/
def stalling (setup : ServerSetup) (stalls : Stalls) :
    Machine Server ServerAction :=
  { machine setup with
    next := fun server action =>
      if server.withheld stalls action then none
      else server.next setup action }

section

variable {setup : ServerSetup} {stalls : Stalls} {server after : Server}
  {action : ServerAction}

theorem stalling_next
    (stepped : (stalling setup stalls).next server action = some after) :
    server.withheld stalls action = false ∧
      server.next setup action = some after := by
  simp only [stalling] at stepped
  split at stepped
  · cases stepped
  · rename_i free
    exact ⟨Bool.eq_false_iff.mpr free, stepped⟩

theorem stalling_of_next (free : server.withheld stalls action = false)
    (stepped : server.next setup action = some after) :
    (stalling setup stalls).next server action = some after := by
  simp only [stalling, free]
  exact stepped

/-- The connections that wait for a worker, or that one handles, have clients
that let `client_handle` return. -/
def Patient (stalls : Stalls) (server : Server) : Prop :=
  ∀ clientFd ∈ server.held, ∀ pending, stalls clientFd pending = false

theorem Patient.free (patient : server.Patient stalls) (index : Nat) :
    server.withheld stalls (.worker index) = false := by
  unfold withheld
  rw [Option.any_eq_false_iff_get]
  intro present
  generalize read : server.workers[index]?.get present = worker
  have found : server.workers[index]? = some worker := by
    rw [← read, Option.some_get]
  cases worker with
  | handling clientFd pending =>
      apply patient clientFd
      have handled : clientFd ∈ server.workers.flatMap WorkerState.held :=
        List.mem_flatMap.mpr
          ⟨_, List.mem_of_getElem? found, List.mem_singleton_self _⟩
      exact List.mem_append_right _ handled
  | _ => rfl

theorem answer_sockets (server : Server) (pending : List StatsEvent)
    (returned : Option QueueReturn) :
    (server.answer pending returned).sockets = server.sockets := by
  unfold answer
  split <;> rfl

theorem close_accepted (sockets : Sockets) (clientFd : Int) :
    (sockets.close clientFd).accepted = sockets.accepted := by
  unfold Sockets.close
  split <;> rfl

theorem closeAll_accepted (fds : List Int) (sockets : Sockets) :
    (fds.foldl Sockets.close sockets).accepted = sockets.accepted := by
  induction fds generalizing sockets with
  | nil => rfl
  | cons clientFd fds induction =>
      rw [List.foldl_cons, induction, close_accepted]

/-- Connections are accepted in `accept` only. -/
theorem Transition.accepted (transition : Transition setup server action after)
    (elsewhere : server.main ≠ .accepting) :
    after.sockets.accepted = server.sockets.accepted := by
  cases transition with
  | accepts now opened => exact absurd now elsewhere
  | calls now stepped => rw [answer_sockets]
  | inside inside stepped => rw [answer_sockets]
  | closes now => exact close_accepted _ _
  | destroys now => exact closeAll_accepted _ _
  | workerCloses now => exact close_accepted _ _
  | _ => rfl

/-- No connection is taken on during the shutdown. -/
theorem Closing.held_subset (closing : server.Closing setup)
    (transition : Transition setup server action after) :
    after.held ⊆ server.held := by
  have leaving := closing.staffed.closing closing.closing
  have elsewhere : server.main ≠ .accepting := by
    intro now
    rw [now] at leaving
    cases leaving
  have same := transition.accepted elsewhere
  cases custody_of_transition closing.coordinated transition with
  | keeps sockets held => exact held.symm.subset
  | acquires opened held =>
      have more : after.sockets.accepted = server.sockets.accepted + 1 := by
        unfold Sockets.accept at opened
        split at opened
        · rw [← Option.some.inj opened]
        · cases opened
      omega
  | releases fds sockets held =>
      exact fun clientFd member =>
        held.symm.subset (List.mem_append_right _ member)

theorem Closing.patient (closing : server.Closing setup)
    (patient : server.Patient stalls)
    (transition : Transition setup server action after) :
    after.Patient stalls := by
  intro clientFd member
  exact patient clientFd (closing.held_subset transition member)

/-! ## Some thread can go on -/

/-- A step of a thread that no client keeps from happening. -/
def GoesOn (setup : ServerSetup) (stalls : Stalls) (server : Server) : Prop :=
  ∃ action after, action ≠ .signal ∧
    (stalling setup stalls).next server action = some after

theorem goesOn_main (stepped : server.mainStep setup = some after) :
    server.GoesOn setup stalls :=
  ⟨.main, after, by simp, stalling_of_next rfl stepped⟩

theorem Closing.worker_goesOn {index : Nat} {worker : WorkerState}
    (closing : server.Closing setup) (patient : server.Patient stalls)
    (found : server.workers[index]? = some worker)
    (active : worker.gone = false) : server.GoesOn setup stalls := by
  have awake : server.system.calls[index + 1]? ≠ some (.pop .asleep) := by
    intro asleep
    have unrest := closing.staffed.wakeful.closing closing.closing .pop _
      (List.mem_of_getElem? asleep)
    cases unrest
  rcases closing.coordinated.worker_goesOn found active awake with
    outside | ⟨chosen, inside⟩
  · obtain ⟨after, stepped⟩ := Option.isSome_iff_exists.mp outside
    exact ⟨.worker index, after, by simp,
      stalling_of_next (patient.free index) stepped⟩
  · obtain ⟨after, stepped⟩ := Option.isSome_iff_exists.mp
      (inside .silent)
    exact ⟨.queue _ .silent, after, by simp, stalling_of_next rfl stepped⟩

/-- `pthread_join` returns, or the worker that it waits for goes on. -/
theorem Closing.joins {joined : Nat} (closing : server.Closing setup)
    (patient : server.Patient stalls)
    (started : joined < server.main.staff setup.workerCount)
    (returns : server.hasExited joined = true →
      ∃ after, server.mainStep setup = some after) :
    server.GoesOn setup stalls := by
  have bound : joined < server.workers.length := by
    rw [closing.coordinated.size]
    exact Nat.lt_of_lt_of_le started closing.staffed.hired
  have found := List.getElem?_eq_getElem bound
  have born := closing.staffed.born joined _ found started
  generalize server.workers[joined] = worker at found born
  cases worker with
  | unborn => exact absurd rfl born
  | exited =>
      obtain ⟨after, stepped⟩ := returns (by rw [hasExited, found]; rfl)
      exact goesOn_main stepped
  | _ => exact closing.worker_goesOn patient found rfl

theorem Closing.goesOn (closing : server.Closing setup)
    (patient : server.Patient stalls) : server.GoesOn setup stalls := by
  have leaving := closing.staffed.closing closing.closing
  cases now : server.main with
  | abandoning joined created =>
      by_cases more : joined < created
      · apply closing.joins patient
        · rw [now]
          exact more
        · intro exited
          simp only [Server.mainStep, now, if_pos more, if_pos exited]
          exact ⟨_, rfl⟩
      · apply @goesOn_main _ _ _ (server.setMain (.stopping 0))
        simp only [Server.mainStep, now, if_neg more]
  | stopping started =>
      apply goesOn_main
      simp only [Server.mainStep, now]
      rfl
  | joining joined started =>
      by_cases more : joined < started
      · apply closing.joins patient
        · rw [now]
          exact more
        · intro exited
          simp only [Server.mainStep, now, if_pos more, if_pos exited]
          exact ⟨_, rfl⟩
      · apply @goesOn_main _ _ _ (server.setMain .destroying)
        simp only [Server.mainStep, now, if_neg more]
  | destroying =>
      apply goesOn_main
      simp only [Server.mainStep, now]
      rfl
  | _ =>
      rw [now] at leaving
      cases leaving

/-! ## A worker that stands still -/

/-- The steps of the others leave a worker in its `client_handle` call. -/
theorem Transition.keeps_handling {index : Nat} {clientFd : Int}
    {pending : List StatsEvent} (coordinated : server.Coordinated setup)
    (transition : Transition setup server action after)
    (others : action ≠ .worker index)
    (found : server.workers[index]? = some (.handling clientFd pending)) :
    after.workers[index]? = some (.handling clientFd pending) := by
  have unmoved : ∀ {other : Nat} (state : WorkerState), other ≠ index →
      (server.workers.set other state)[index]? =
        some (.handling clientFd pending) := by
    intro other state differs
    rw [List.getElem?_set_ne differs]
    exact found
  have differs : ∀ {other : Nat} {state : WorkerState},
      server.workers[other]? = some state →
        state ≠ .handling clientFd pending → other ≠ index := by
    rintro other state located different rfl
    rw [found] at located
    exact different (Option.some.inj located).symm
  have moved : ∀ {other : Nat}, ServerAction.worker other ≠ .worker index →
      other ≠ index := by
    rintro other distinct rfl
    exact distinct rfl
  cases transition with
  | created now more =>
      exact unmoved _ (differs (coordinated.unborn now more) (by simp))
  | calls now stepped =>
      obtain ⟨unchanged, ⟨rfl, _⟩ | ⟨rfl, _⟩⟩ :=
        (QueueSystem.step_effect stepped).of_callPush
      · exact found
      · exact found
  | inside inside stepped =>
      cases QueueSystem.step_effect stepped with
      | enteredPush unchanged nonnegative idle operations => cases inside
      | invalid negative same => cases inside
      | enteredPop unchanged idle operations => cases inside
      | closed queue pushed popped same => cases inside
      | continued inside unchanged same => exact found
      | pushRefused inside unchanged refusal calling operations =>
          rw [answer_pushRefused refusal]
          exact found
      | pushed inside room accepting queue pushed popped calling operations =>
          exact found
      | popRefused inside unchanged refusal drained calling operations =>
          obtain ⟨other, rfl, located⟩ := coordinated.popping calling
          rw [answer_popRefused]
          exact unmoved _ (differs located (by simp))
      | popped inside filled queue pushed popped calling operations =>
          obtain ⟨other, rfl, located⟩ := coordinated.popping calling
          exact unmoved _ (differs located (by simp))
  | workerCalls now stepped => exact unmoved _ (moved others)
  | workerRecords now => exact unmoved _ (moved others)
  | workerCloses now => exact unmoved _ (moved others)
  | workerFinishes now => exact unmoved _ (moved others)
  | _ => exact found

/-- A worker whose client has stalled, in a server that goes on. -/
structure Stuck (setup : ServerSetup) (server : Server) (index : Nat)
    (clientFd : Int) (pending : List StatsEvent) : Prop where
  coordinated : server.Coordinated setup
  found : server.workers[index]? = some (.handling clientFd pending)

theorem Stuck.step {index : Nat} {clientFd : Int}
    {pending : List StatsEvent}
    (stuck : server.Stuck setup index clientFd pending)
    (stalled : stalls clientFd pending = true)
    (stepped : (stalling setup stalls).next server action = some after) :
    after.Stuck setup index clientFd pending := by
  obtain ⟨free, moved⟩ := stalling_next stepped
  have transition := next_transition moved
  refine ⟨stuck.coordinated.step transition, ?_⟩
  apply transition.keeps_handling stuck.coordinated _ stuck.found
  rintro rfl
  simp only [withheld, stuck.found, Option.any_some, WorkerState.stalled,
    stalled] at free
  cases free

/-- `server_run` has joined every worker when it returns. -/
theorem Stuck.not_returned {index : Nat} {clientFd : Int}
    {pending : List StatsEvent}
    (stuck : server.Stuck setup index clientFd pending) :
    server.main ≠ .returned := by
  intro now
  have gone := stuck.coordinated.phase index _ stuck.found
  rw [now] at gone
  cases gone

end

/-- Once the queue is closed, `server_run` returns in every run in which the
threads go on, in whatever order and whatever signals arrive, provided that
every `client_handle` call that is under way or due returns.  It never returns
when a worker is in a call that does not. -/
theorem serverRun_returns {setup : ServerSetup} {stalls : Stalls}
    {server : Server} (reachable : (machine setup).Reachable server)
    (closed : server.system.queue.shuttingDown = true) :
    ((∀ clientFd ∈ server.held, ∀ pending,
        stalls clientFd pending = false) →
      (stalling setup stalls).Inevitable (fun action => action ≠ .signal)
        (fun later => later.main = .returned) server) ∧
    ∀ (index : Nat) (clientFd : Int) (pending : List StatsEvent),
      server.workers[index]? = some (.handling clientFd pending) →
      stalls clientFd pending = true →
      ∀ later, (stalling setup stalls).Leads server later →
        later.main ≠ .returned := by
  obtain ⟨coordinated, staffed⟩ := staffed_of_reachable reachable
  constructor
  · intro patient
    apply @Machine.inevitable_of_measure _ _ (stalling setup stalls) _ _ _ _
      below_wellFounded rank
      fun state => state.Closing setup ∧ state.Patient stalls
    · intro state held
      exact held.1.goesOn held.2
    · intro before action after held signal stepped
      obtain rfl := not_not.mp signal
      obtain ⟨-, moved⟩ := stalling_next stepped
      have patient := held.1.patient held.2 (next_transition moved)
      cases moved
      exact ⟨⟨held.1.interrupt, patient⟩, rank_interrupt before⟩
    · intro before action after held thread stepped
      obtain ⟨-, moved⟩ := stalling_next stepped
      have transition := next_transition moved
      have patient := held.1.patient held.2 transition
      rcases held.1.rank_lt thread moved with returned | smaller
      · exact .inl returned
      · rcases held.1.step transition with returned | goesOn
        · exact .inl returned
        · exact .inr ⟨⟨goesOn, patient⟩, smaller⟩
    · exact ⟨⟨coordinated, staffed, closed⟩, patient⟩
  · intro index clientFd pending found stalled later leads
    have stuck : later.Stuck setup index clientFd pending := by
      apply leads.invariant ⟨coordinated, found⟩
      intro before action after held stepped
      exact held.step stalled stepped
    exact stuck.not_returned

/-- The shutdown begins while a connection is queued. -/
def closingTrace : List ServerAction :=
  [.create true, .main] ++ acceptTrace 4 ++ [.main, .signal, .main, .main]

def closingServer : Server :=
  { system :=
      { queue :=
          { items := [4], capacity := 1, head := 0, tail := 0, count := 1
            shuttingDown := true }
        calls := [.idle, .idle]
        pushed := [4]
        popped := [] }
    main := .joining 0 1
    workers := [.calling]
    stats :=
      { serverStatsInit with connectionsAccepted := 1, activeConnections := 1 }
    history := [.connectionAccepted, .connectionStarted]
    sockets :=
      { opened := [(4, 0)], accepted := 1, closed := [], strayCloses := []
        distinct := List.nodup_singleton 4 }
    shutdownRequested := true
    result := 0 }

theorem closingServer_reachable :
    (machine singleSetup).Reachable closingServer := by
  have started : (machine singleSetup).Start (start singleSetup true) :=
    ⟨true, false, rfl⟩
  apply Machine.Reachable.execute (.start started)
  change (machine singleSetup).execute _ closingTrace = some closingServer
  decide +kernel

/-- The worker has taken the connection, and its client reads nothing. -/
def stalledServer : Server :=
  { closingServer with
    system :=
      { queue :=
          { items := [4], capacity := 1, head := 0, tail := 0, count := 0
            shuttingDown := true }
        calls := [.idle, .idle]
        pushed := [4]
        popped := [4] }
    workers := [.handling 4 []] }

theorem stalledServer_reachable :
    (machine singleSetup).Reachable stalledServer := by
  apply Machine.Reachable.execute closingServer_reachable
  change (machine singleSetup).execute _
    [.worker 0, .queue (.popSection 1 []) .silent] = some stalledServer
  decide +kernel

/-- The queued connection 4 is waited for, whatever another client does; and
it is waited for without end when its own client stalls. -/
theorem serverRun_returns_queued :
    (stalling singleSetup fun clientFd _ => clientFd == 5).Inevitable
        (fun action => action ≠ .signal)
        (fun later => later.main = .returned) closingServer ∧
      ∀ later, (stalling singleSetup fun clientFd _ =>
        clientFd == 4).Leads stalledServer later → later.main ≠ .returned := by
  have other : ∀ clientFd ∈ closingServer.held, (clientFd == 5) = false := by
    decide
  exact ⟨(serverRun_returns closingServer_reachable rfl).1
      fun clientFd member _ => other clientFd member,
    (serverRun_returns stalledServer_reachable rfl).2 0 4 [] rfl rfl⟩

end Server

end CinderHTTP
