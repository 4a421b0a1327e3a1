import CinderHTTP.Server.Accounting
import CinderHTTP.Server.Steps

/-!
# Counters and events

The server with a history variable: the statistics calls that its workers have
yet to make and those they have made, with the messages and the responses that
they stand for.  In every state of every run the counters agree with the calls
made, and a response is counted in the class that its recipient reads.
-/

namespace CinderHTTP

/-! ## Counting calls -/

/-- A counter that one kind of event increases, with too few events to wrap
around. -/
theorem foldl_counter {counter : ServerStats → UInt64}
    {counts : StatsEvent → Bool}
    (initial : counter serverStatsInit = 0)
    (applied : ∀ stats event, counter (event.apply stats) =
      if counts event then counter stats + 1 else counter stats)
    {history : List StatsEvent} (few : history.length < 2 ^ 64) :
    (counter (history.foldl StatsEvent.apply serverStatsInit)).toNat =
      history.countP counts := by
  induction history using List.reverseRecOn with
  | nil => rw [List.foldl_nil, initial, List.countP_nil]; rfl
  | append_singleton history event induction =>
      rw [List.length_append, List.length_singleton] at few
      have before := induction (by omega)
      have bound : history.countP counts ≤ history.length :=
        List.countP_le_length
      rw [List.foldl_append, List.foldl_cons, List.foldl_nil, applied,
        List.countP_append, List.countP_singleton]
      split_ifs
      · rw [Ledger.toNat_succ (by omega), before]
      · rw [before, Nat.add_zero]

/-- The counter of a class of responses. -/
def StatsSnapshot.ofClass (stats : StatsSnapshot) : Nat → UInt64
  | 2 => stats.responses2xx
  | 4 => stats.responses4xx
  | 5 => stats.responses5xx
  | _ => 0

theorem serverStatsResponseSent_counters (stats : ServerStats)
    (status : Int) :
    (serverStatsResponseSent stats status).connectionsAccepted =
        stats.connectionsAccepted ∧
      (serverStatsResponseSent stats status).requestsTotal =
        stats.requestsTotal := by
  unfold serverStatsResponseSent
  split_ifs <;> exact ⟨rfl, rfl⟩

theorem serverStatsResponseSent_ofClass (stats : ServerStats)
    (status : Int) {digit : Nat} (counted : digit ∈ countedClasses) :
    (serverStatsResponseSent stats status).ofClass digit =
      if (StatsEvent.responseSent status).ofClass digit then
        stats.ofClass digit + 1
      else stats.ofClass digit := by
  unfold serverStatsResponseSent
  simp only [StatsEvent.ofClass, Bool.and_eq_true, decide_eq_true_eq]
  simp only [countedClasses, List.mem_cons, List.not_mem_nil,
    or_false] at counted
  rcases counted with rfl | rfl | rfl
  all_goals
    split_ifs
    all_goals first | rfl | omega

/-- Finishing a connection changes the number of active ones only. -/
theorem serverStatsConnectionFinished_counters (stats : ServerStats) :
    (serverStatsConnectionFinished stats).connectionsAccepted =
        stats.connectionsAccepted ∧
      (serverStatsConnectionFinished stats).requestsTotal =
        stats.requestsTotal ∧
      ∀ digit, (serverStatsConnectionFinished stats).ofClass digit =
        stats.ofClass digit := by
  unfold serverStatsConnectionFinished
  split_ifs
  · exact ⟨rfl, rfl, fun digit => rfl⟩
  · exact ⟨rfl, rfl, fun digit => rfl⟩

/-- The calls that `client_handle` makes before it closes the connection. -/
def StatsEvent.ofHandler : StatsEvent → Bool
  | .requestReceived => true
  | .responseSent _ => true
  | _ => false

/-- The counters of a history of calls. -/
structure CountsHistory (stats : ServerStats) (history : List StatsEvent) :
    Prop where
  accepted : stats.connectionsAccepted.toNat =
    history.count .connectionAccepted
  requests : stats.requestsTotal.toNat = history.count .requestReceived
  responses : ∀ digit ∈ countedClasses,
    (stats.ofClass digit).toNat = history.countP (StatsEvent.ofClass digit)

theorem foldl_countsHistory {history : List StatsEvent}
    (few : history.length < 2 ^ 64) :
    CountsHistory (history.foldl StatsEvent.apply serverStatsInit)
      history := by
  have finished := serverStatsConnectionFinished_counters
  have sent := serverStatsResponseSent_counters
  constructor
  · apply foldl_counter rfl _ few
    intro stats event
    cases event with
    | connectionFinished => exact (finished stats).1
    | responseSent status => exact (sent stats status).1
    | _ => rfl
  · apply foldl_counter rfl _ few
    intro stats event
    cases event with
    | connectionFinished => exact (finished stats).2.1
    | responseSent status => exact (sent stats status).2
    | _ => rfl
  · intro digit counted
    apply @foldl_counter (fun stats => stats.ofClass digit) _ _ _ _ few
    · revert digit
      decide
    · intro stats event
      cases event with
      | connectionFinished => exact (finished stats).2.2 digit
      | responseSent status =>
          exact serverStatsResponseSent_ofClass stats status counted
      | _ => rfl

namespace Server

/-- The counters are those of the calls made. -/
def Counted (server : Server) : Prop :=
  server.stats = server.history.foldl StatsEvent.apply serverStatsInit

theorem Counted.record {server : Server} (counted : server.Counted)
    (event : StatsEvent) : (server.record event).Counted := by
  unfold Counted Server.record at *
  rw [counted, List.foldl_append]
  rfl

theorem answer_history (server : Server) (pending : List StatsEvent)
    (returned : Option QueueReturn) :
    (server.answer pending returned).stats = server.stats ∧
      (server.answer pending returned).history = server.history := by
  unfold Server.answer
  split <;> exact ⟨rfl, rfl⟩

theorem Counted.step {setup : ServerSetup} {server after : Server}
    {action : ServerAction} (counted : server.Counted)
    (transition : Transition setup server action after) :
    after.Counted := by
  cases transition with
  | counts now => exact counted.record .connectionAccepted
  | starts now => exact counted.record .connectionStarted
  | workerRecords now => exact counted.record _
  | workerFinishes now => exact counted.record .connectionFinished
  | calls now stepped =>
      rename_i returned
      unfold Counted
      rw [(answer_history _ _ returned).1, (answer_history _ _ returned).2]
      exact counted
  | inside inside stepped =>
      rename_i returned
      unfold Counted
      rw [(answer_history _ _ returned).1, (answer_history _ _ returned).2]
      exact counted
  | _ => exact counted

/-! ## Connections that were counted -/

end Server

/-- Whether a connection was counted as accepted and is yet to be pushed. -/
def MainState.offering : MainState → Nat
  | .counted _ => 1
  | .pushing _ => 1
  | _ => 0

theorem MainState.interrupt_offering (main : MainState) :
    main.interrupt.offering = main.offering := by
  cases main <;> rfl

namespace Server

/-- Every connection was counted before it was pushed. -/
def Offered (server : Server) : Prop :=
  server.system.pushed.length + server.main.offering ≤
    server.history.count .connectionAccepted

theorem Turn.offering {setup : ServerSetup} {server : Server}
    {main : MainState} (turn : Turn setup server main) :
    main.offering = 0 := by
  cases turn <;> rfl

theorem Offered.keep {server after : Server} (offered : server.Offered)
    (pushed : after.system.pushed = server.system.pushed)
    (main : after.main.offering ≤ server.main.offering)
    (history : server.history <+: after.history) : after.Offered := by
  unfold Offered at offered ⊢
  have more := history.sublist.count_le .connectionAccepted
  rw [pushed]
  omega

theorem Offered.inside {setup : ServerSetup} {server : Server}
    {system : QueueSystem} {action : QueueAction}
    {returned : Option QueueReturn} (offered : server.Offered)
    (pending : List StatsEvent) (coordinated : server.Coordinated setup)
    (inside : action.inside = true)
    (effect : server.system.Effect system action returned) :
    (answer { server with system := system } pending returned).Offered := by
  have same := List.prefix_refl server.history
  cases effect with
  | enteredPush unchanged nonnegative idle operations => cases inside
  | invalid negative same => cases inside
  | enteredPop unchanged idle operations => cases inside
  | closed queue pushed popped same => cases inside
  | continued inside unchanged operations =>
      exact offered.keep unchanged.pushed (Nat.le_refl _) same
  | pushRefused inside unchanged refusal calling operations =>
      rw [answer_pushRefused refusal]
      exact offered.keep unchanged.pushed (Nat.zero_le _) same
  | pushed inside room accepting queue pushed popped calling operations =>
      obtain ⟨rfl, now⟩ := coordinated.pushing calling
      unfold Offered at offered ⊢
      rw [now] at offered
      change system.pushed.length + 0 ≤ _
      rw [pushed, List.length_append]
      exact offered
  | popRefused inside unchanged refusal drained calling operations =>
      rw [answer_popRefused]
      exact offered.keep unchanged.pushed (Nat.le_refl _) same
  | popped inside filled queue pushed popped calling operations =>
      exact offered.keep pushed (Nat.le_refl _) same

theorem Offered.step {setup : ServerSetup} {server after : Server}
    {action : ServerAction} (offered : server.Offered)
    (coordinated : server.Coordinated setup)
    (transition : Transition setup server action after) :
    after.Offered := by
  have same := List.prefix_refl server.history
  cases transition with
  | signalled =>
      exact offered.keep rfl (Nat.le_of_eq server.main.interrupt_offering)
        same
  | turned turn =>
      exact offered.keep rfl (turn.offering ▸ Nat.zero_le _) same
  | counts now =>
      unfold Offered at offered ⊢
      rw [now] at offered
      change _ + 1 ≤ List.count _ (server.history ++ [_])
      rw [List.count_append]
      exact Nat.succ_le_succ offered
  | calls now stepped =>
      obtain ⟨unchanged, entered | refused⟩ :=
        (QueueSystem.step_effect stepped).of_callPush
      · obtain ⟨rfl, _⟩ := entered
        exact offered.keep unchanged.pushed (by rw [now]; exact Nat.le_refl 1)
          same
      · obtain ⟨rfl, _⟩ := refused
        exact offered.keep unchanged.pushed (Nat.zero_le _) same
  | starts now =>
      exact offered.keep rfl (Nat.zero_le _) (List.prefix_append _ _)
  | inside inside stepped =>
      exact offered.inside _ coordinated inside
        (QueueSystem.step_effect stepped)
  | workerCalls now stepped =>
      have unchanged := (QueueSystem.step_effect stepped).of_callPop.1
      exact offered.keep unchanged.pushed (Nat.le_refl _) same
  | workerRecords now =>
      exact offered.keep rfl (Nat.le_refl _) (List.prefix_append _ _)
  | workerCloses now => exact offered.keep rfl (Nat.le_refl _) same
  | workerFinishes now =>
      exact offered.keep rfl (Nat.le_refl _) (List.prefix_append _ _)
  | _ => exact offered.keep rfl (Nat.zero_le _) same

end Server

/-! ## The log -/

/-- The statistics calls of the workers: those that each of them has yet to
make for its connection, and all that were made. -/
structure HandlerLog where
  remaining : List (List HandlerStep)
  made : List HandlerStep
  deriving DecidableEq

namespace HandlerLog

/-- A worker that has popped a connection. -/
def answer (log : HandlerLog) (steps : List HandlerStep) :
    Option QueueReturn → HandlerLog
  | some (.pop thread .ok (some _)) =>
      { log with remaining := log.remaining.set (thread - 1) steps }
  | _ => log

/-- A worker makes its next call. -/
def make (log : HandlerLog) (index : Nat) : HandlerLog :=
  match log.remaining[index]? with
  | some (step :: steps) =>
      { remaining := log.remaining.set index steps
        made := log.made ++ [step] }
  | _ => log

end HandlerLog

namespace Server

def observe (setup : ServerSetup) (server : Server) (action : ServerAction)
    (log : HandlerLog) : HandlerLog :=
  match action with
  | .queue action conversation =>
      match server.system.step action with
      | some (_, returned) =>
          log.answer (conversation.steps setup.config) returned
      | none => log
  | .worker index =>
      match server.workers[index]? with
      | some (.handling _ (_ :: _)) => log.make index
      | _ => log
  | _ => log

/-- All runs of `server_run` with their logs. -/
def observed (setup : ServerSetup) :
    Machine (Server × HandlerLog) ServerAction :=
  (machine setup).recording
    { remaining := List.replicate setup.workerCount [], made := [] }
    (observe setup)

/-- What a step means for the log: nothing, a connection that was popped, or
a call that was made. -/
inductive Observation (setup : ServerSetup) (server : Server)
    (log : HandlerLog) (after : Server) : HandlerLog → Prop
  | quiet
      (history : after.history.filter StatsEvent.ofHandler =
        server.history.filter StatsEvent.ofHandler)
      (workers : ∀ (index : Nat) (clientFd : Int)
          (pending : List StatsEvent),
        after.workers[index]? = some (.handling clientFd pending) →
        server.workers[index]? = some (.handling clientFd pending))
      (popped : after.system.popped = server.system.popped) :
      Observation setup server log after log
  | assigned {index : Nat} {clientFd : Int} (conversation : Conversation)
      (history : after.history = server.history)
      (found : server.workers[index]? = some .popping)
      (workers : after.workers = server.workers.set index
        (.handling clientFd (conversation.events setup.config)))
      (popped : after.system.popped.length =
        server.system.popped.length + 1) :
      Observation setup server log after
        { log with remaining :=
            log.remaining.set index (conversation.steps setup.config) }
  | made {index : Nat} {clientFd : Int} {event : StatsEvent}
      {pending : List StatsEvent}
      (now : server.workers[index]? =
        some (.handling clientFd (event :: pending)))
      (history : after.history = server.history ++ [event])
      (workers : after.workers = server.workers.set index
        (.handling clientFd pending))
      (popped : after.system.popped = server.system.popped) :
      Observation setup server log after (log.make index)

section

variable {setup : ServerSetup} {server after : Server} {log : HandlerLog}

theorem Observation.other
    (history : after.history.filter StatsEvent.ofHandler =
      server.history.filter StatsEvent.ofHandler)
    (workers : after.workers = server.workers)
    (popped : after.system.popped = server.system.popped) :
    Observation setup server log after log := by
  refine .quiet history ?_ popped
  intro index clientFd pending found
  rwa [workers] at found

theorem Observation.moved {index : Nat} {new : WorkerState}
    (history : after.history.filter StatsEvent.ofHandler =
      server.history.filter StatsEvent.ofHandler)
    (workers : after.workers = server.workers.set index new)
    (free : ∀ clientFd pending, new ≠ .handling clientFd pending)
    (popped : after.system.popped = server.system.popped) :
    Observation setup server log after log := by
  refine .quiet history ?_ popped
  intro other clientFd pending found
  rw [workers] at found
  rcases getElem?_set_cases found with ⟨_, same⟩ | ⟨_, kept⟩
  · exact absurd same.symm (free clientFd pending)
  · exact kept

theorem observation_inside {system : QueueSystem} {action : QueueAction}
    {returned : Option QueueReturn} {conversation : Conversation}
    (coordinated : server.Coordinated setup)
    (inside : action.inside = true)
    (effect : server.system.Effect system action returned) :
    Observation setup server log
      (answer { server with system := system }
        (conversation.events setup.config) returned)
      (log.answer (conversation.steps setup.config) returned) := by
  cases effect with
  | enteredPush unchanged nonnegative idle operations => cases inside
  | invalid negative same => cases inside
  | enteredPop unchanged idle operations => cases inside
  | closed queue pushed popped same => cases inside
  | continued inside unchanged operations =>
      exact .other rfl rfl unchanged.popped
  | pushRefused inside unchanged refusal calling operations =>
      rw [answer_pushRefused refusal]
      exact .other rfl rfl unchanged.popped
  | pushed inside room accepting queue pushed popped calling operations =>
      exact .other rfl rfl popped
  | popRefused inside unchanged refusal drained calling operations =>
      rename_i thread status
      have same : log.answer (conversation.steps setup.config)
          (some (.pop thread status none)) = log := by
        cases status <;> rfl
      rw [answer_popRefused, same]
      exact .moved rfl rfl nofun unchanged.popped
  | popped inside filled queue pushed popped calling operations =>
      obtain ⟨index, rfl, found⟩ := coordinated.popping calling
      refine .assigned conversation rfl found rfl ?_
      change system.popped.length = _
      rw [popped, List.length_append, List.length_singleton]

/-- Every step of the server is seen by the log in one of the three ways. -/
theorem observation_of_transition {action : ServerAction}
    (coordinated : server.Coordinated setup)
    (transition : Transition setup server action after) :
    Observation setup server log after
      (observe setup server action log) := by
  have unrecorded : ∀ event : StatsEvent, event.ofHandler = false →
      (server.history ++ [event]).filter StatsEvent.ofHandler =
        server.history.filter StatsEvent.ofHandler := by
    intro event other
    simp [other]
  cases transition with
  | created now more => exact .moved rfl rfl nofun rfl
  | counts now => exact .other (unrecorded _ rfl) rfl rfl
  | calls now stepped =>
      obtain ⟨unchanged, entered | refused⟩ :=
        (QueueSystem.step_effect stepped).of_callPush
      · obtain ⟨rfl, _⟩ := entered
        exact .other rfl rfl unchanged.popped
      · obtain ⟨rfl, _⟩ := refused
        exact .other rfl rfl unchanged.popped
  | starts now => exact .other (unrecorded _ rfl) rfl rfl
  | inside inside stepped =>
      simp only [observe, stepped]
      exact observation_inside coordinated inside
        (QueueSystem.step_effect stepped)
  | workerCalls now stepped =>
      simp only [observe, now]
      exact .moved rfl rfl nofun
        (QueueSystem.step_effect stepped).of_callPop.1.popped
  | workerRecords now =>
      simp only [observe, now]
      exact .made now rfl rfl rfl
  | workerCloses now =>
      simp only [observe, now]
      exact .moved rfl rfl nofun rfl
  | workerFinishes now =>
      simp only [observe, now]
      exact .moved (unrecorded _ rfl) rfl nofun rfl
  | _ => exact .other rfl rfl rfl

end

/-! ## Runs -/

/-- What holds of a server and its log in every run. -/
structure Observed (setup : ServerSetup) (server : Server)
    (log : HandlerLog) : Prop where
  history : server.history.filter StatsEvent.ofHandler =
    log.made.map HandlerStep.event
  /-- A worker is about to make the calls of the log. -/
  pending : ∀ (index : Nat) (clientFd : Int) (pending : List StatsEvent),
    server.workers[index]? = some (.handling clientFd pending) →
    ∃ steps, log.remaining[index]? = some steps ∧
      pending = steps.map HandlerStep.event
  size : log.remaining.length = setup.workerCount
  genuine : ∀ steps ∈ log.made :: log.remaining, ∀ step ∈ steps,
    step.Genuine
  successes : Solvent (HandlerStep.showsClass 2) HandlerStep.isReceived 0
    log.made log.remaining
  responses : Solvent HandlerStep.isSent HandlerStep.isReceived
    server.system.popped.length log.made log.remaining

theorem Fresh.counted {setup : ServerSetup} {server : Server}
    (fresh : server.Fresh setup) : server.Counted := by
  rw [Counted, fresh.stats, fresh.history]
  rfl

theorem Fresh.offered {setup : ServerSetup} {server : Server}
    (fresh : server.Fresh setup) : server.Offered := by
  rw [Offered, fresh.pushed, fresh.history]
  rcases fresh.main with now | ⟨now, _⟩
  · rw [now]
    exact Nat.le_refl 0
  · rw [now]
    exact Nat.le_refl 0

theorem Fresh.observed {setup : ServerSetup} {server : Server}
    (fresh : server.Fresh setup) :
    server.Observed setup
      { remaining := List.replicate setup.workerCount [], made := [] } := by
  constructor
  · rw [fresh.history]
    rfl
  · intro index clientFd pending found
    cases fresh.unborn found
  · exact List.length_replicate
  · intro steps member step inSteps
    rcases List.mem_cons.mp member with rfl | idle
    · cases inSteps
    · rw [List.eq_of_mem_replicate idle] at inSteps
      cases inSteps
  · exact Solvent.idle _
  · rw [fresh.popped]
    exact Solvent.idle _

theorem Observed.pending_set {setup : ServerSetup} {server after : Server}
    {log : HandlerLog} {index : Nat} {clientFd : Int}
    {steps : List HandlerStep} (observed : server.Observed setup log)
    (within : index < log.remaining.length)
    (workers : after.workers = server.workers.set index
      (.handling clientFd (steps.map HandlerStep.event))) :
    ∀ (other : Nat) (handled : Int) (pending : List StatsEvent),
      after.workers[other]? = some (.handling handled pending) →
      ∃ rest, (log.remaining.set index steps)[other]? = some rest ∧
        pending = rest.map HandlerStep.event := by
  intro other handled pending now
  rw [workers] at now
  rcases getElem?_set_cases now with ⟨rfl, same⟩ | ⟨different, kept⟩
  · cases same
    exact ⟨steps, List.getElem?_set_self within, rfl⟩
  · rw [List.getElem?_set_ne (Ne.symm different)]
    exact observed.pending other handled pending kept

theorem Observed.genuine_set {setup : ServerSetup} {server : Server}
    {log : HandlerLog} {index : Nat} {made steps : List HandlerStep}
    (observed : server.Observed setup log)
    (genuineMade : ∀ step ∈ made, step.Genuine)
    (genuineSteps : ∀ step ∈ steps, step.Genuine) :
    ∀ others ∈ made :: log.remaining.set index steps, ∀ step ∈ others,
      step.Genuine := by
  intro others member
  rcases List.mem_cons.mp member with rfl | inRemaining
  · exact genuineMade
  · rcases List.mem_or_eq_of_mem_set inRemaining with old | rfl
    · exact observed.genuine _ (List.mem_cons_of_mem _ old)
    · exact genuineSteps

theorem Observed.assign {setup : ServerSetup} {server after : Server}
    {log : HandlerLog} {index : Nat} {clientFd : Int}
    (observed : server.Observed setup log) (conversation : Conversation)
    (size : server.workers.length = setup.workerCount)
    (history : after.history = server.history)
    (found : server.workers[index]? = some .popping)
    (workers : after.workers = server.workers.set index
      (.handling clientFd (conversation.events setup.config)))
    (popped : after.system.popped.length =
      server.system.popped.length + 1) :
    after.Observed setup
      { log with remaining :=
          log.remaining.set index (conversation.steps setup.config) } := by
  have within : index < log.remaining.length := by
    rw [observed.size, ← size]
    exact (List.getElem?_eq_some_iff.mp found).1
  rw [← conversation.steps_event] at workers
  constructor
  · rw [history]
    exact observed.history
  · exact observed.pending_set within workers
  · rw [List.length_set]
    exact observed.size
  · exact observed.genuine_set (observed.genuine _ List.mem_cons_self)
      (conversation.steps_genuine _)
  · exact observed.successes.assign
      (Nat.le_of_eq (conversation.demand_successes _))
  · rw [popped]
    exact observed.responses.assign (conversation.demand_responses _)

theorem Observed.make {setup : ServerSetup} {server after : Server}
    {log : HandlerLog} {index : Nat} {clientFd : Int} {event : StatsEvent}
    {pending : List StatsEvent} (observed : server.Observed setup log)
    (now : server.workers[index]? =
      some (.handling clientFd (event :: pending)))
    (history : after.history = server.history ++ [event])
    (workers : after.workers = server.workers.set index
      (.handling clientFd pending))
    (popped : after.system.popped = server.system.popped) :
    after.Observed setup (log.make index) := by
  obtain ⟨steps, found, same⟩ := observed.pending _ _ _ now
  cases steps with
  | nil => cases same
  | cons step steps =>
      obtain ⟨rfl, rfl⟩ := List.cons.inj same
      simp only [HandlerLog.make, found]
      have handled : step.event.ofHandler = true := by cases step <;> rfl
      have whole := observed.genuine _
        (List.mem_cons_of_mem _ (List.mem_of_getElem? found))
      constructor
      · rw [history, List.filter_append, observed.history, List.map_append,
          List.filter_singleton, handled]
        rfl
      · exact observed.pending_set (List.getElem?_eq_some_iff.mp found).1
          workers
      · rw [List.length_set]
        exact observed.size
      · refine observed.genuine_set ?_ fun later inRest =>
          whole later (List.mem_cons_of_mem _ inRest)
        intro earlier inMade
        rcases List.mem_append.mp inMade with old | new
        · exact observed.genuine _ List.mem_cons_self earlier old
        · rw [List.mem_singleton.mp new]
          exact whole step List.mem_cons_self
      · exact observed.successes.make found
      · rw [popped]
        exact observed.responses.make found

theorem Observed.step {setup : ServerSetup} {server after : Server}
    {log later : HandlerLog} (observed : server.Observed setup log)
    (size : server.workers.length = setup.workerCount)
    (observation : Observation setup server log after later) :
    after.Observed setup later := by
  cases observation with
  | quiet history workers popped =>
      exact
        { history := history.trans observed.history
          pending := fun index clientFd pending found =>
            observed.pending index clientFd pending
              (workers index clientFd pending found)
          size := observed.size
          genuine := observed.genuine
          successes := observed.successes
          responses := popped ▸ observed.responses }
  | assigned conversation history found workers popped =>
      exact observed.assign conversation size history found workers popped
  | made now history workers popped =>
      exact observed.make now history workers popped

/-! ## Agreement -/

/-- A snapshot agrees with the calls that were made. -/
structure StatsAgree (log : HandlerLog) (snapshot : StatsSnapshot) :
    Prop where
  requests : snapshot.requestsTotal.toNat =
    log.made.countP HandlerStep.isReceived
  successes : snapshot.responses2xx.toNat =
    log.made.countP (HandlerStep.showsClass 2)
  clientErrors : snapshot.responses4xx.toNat =
    log.made.countP (HandlerStep.showsClass 4)
  serverErrors : snapshot.responses5xx.toNat =
    log.made.countP (HandlerStep.showsClass 5)
  /-- Every response that was sent is of one of the three classes. -/
  classified : ∀ steps ∈ log.made :: log.remaining, ∀ step ∈ steps,
    step.isSent = true →
    ∃! digit, digit ∈ countedClasses ∧ step.showsClass digit = true
  answers : snapshot.responses2xx.toNat ≤ snapshot.requestsTotal.toNat
  bound : snapshot.responses2xx.toNat + snapshot.responses4xx.toNat +
      snapshot.responses5xx.toNat ≤
    snapshot.requestsTotal.toNat + snapshot.connectionsAccepted.toNat

theorem Observed.countP {setup : ServerSetup} {server : Server}
    {log : HandlerLog} (observed : server.Observed setup log)
    {counts : StatsEvent → Bool} {shows : HandlerStep → Bool}
    (handled : ∀ event, counts event = true → event.ofHandler = true)
    (same : ∀ step, step.Genuine → shows step = counts step.event) :
    server.history.countP counts = log.made.countP shows := by
  have kept : server.history.countP counts =
      (server.history.filter StatsEvent.ofHandler).countP counts := by
    rw [List.countP_filter]
    apply List.countP_congr
    intro event _
    simp only [Bool.and_eq_true]
    exact ⟨fun counted => ⟨counted, handled event counted⟩, And.left⟩
  rw [kept, observed.history, List.countP_map]
  apply List.countP_congr
  intro step member
  rw [same step (observed.genuine _ List.mem_cons_self step member)]
  rfl

/-- The classes partition the responses. -/
theorem countP_isSent {made : List HandlerStep}
    (genuine : ∀ step ∈ made, step.Genuine) :
    made.countP (HandlerStep.showsClass 2) +
        made.countP (HandlerStep.showsClass 4) +
        made.countP (HandlerStep.showsClass 5) =
      made.countP HandlerStep.isSent := by
  induction made with
  | nil => rfl
  | cons step made induction =>
      have rest := induction fun later member =>
        genuine later (List.mem_cons_of_mem _ member)
      have one : (step.showsClass 2).toNat + (step.showsClass 4).toNat +
          (step.showsClass 5).toNat = step.isSent.toNat := by
        have shown := genuine step List.mem_cons_self
        simp only [shown.showsClass]
        cases step with
        | received raw => rfl
        | sent delivery =>
            have table : ∀ status ∈ 200 :: errorStatuses,
                ((StatsEvent.responseSent status).ofClass 2).toNat +
                  ((StatsEvent.responseSent status).ofClass 4).toNat +
                  ((StatsEvent.responseSent status).ofClass 5).toNat =
                1 := by
              decide
            exact table _ shown.1
      have unit : ∀ counts : HandlerStep → Bool,
          (step :: made).countP counts =
            made.countP counts + (counts step).toNat := by
        intro counts
        rw [List.countP_cons]
        cases counts step <;> rfl
      rw [unit, unit, unit, unit]
      omega

theorem Observed.statsAgree {setup : ServerSetup} {server : Server}
    {log : HandlerLog} (observed : server.Observed setup log)
    (counted : server.Counted) (offered : server.Offered)
    (tracked : server.Tracked setup)
    (few : server.history.length < 2 ^ 64) :
    StatsAgree log (serverStatsSnapshot server.stats) := by
  have counts : CountsHistory server.stats server.history := by
    rw [counted]
    exact foldl_countsHistory few
  have requests : server.stats.requestsTotal.toNat =
      log.made.countP HandlerStep.isReceived := by
    rw [counts.requests]
    apply observed.countP
    · intro event same
      rw [beq_iff_eq.mp same]
      rfl
    · intro step _
      cases step <;> rfl
  have classes : ∀ digit ∈ countedClasses,
      (server.stats.ofClass digit).toNat =
        log.made.countP (HandlerStep.showsClass digit) := by
    intro digit member
    rw [counts.responses digit member]
    apply observed.countP
    · intro event shown
      cases event with
      | responseSent status => rfl
      | _ => cases shown
    · exact fun step genuine => genuine.showsClass digit
  have successes := classes 2 (by decide)
  have clientErrors := classes 4 (by decide)
  have serverErrors := classes 5 (by decide)
  have whole := countP_isSent (observed.genuine _ List.mem_cons_self)
  have accepted : server.system.popped.length ≤
      server.stats.connectionsAccepted.toNat := by
    rw [counts.accepted]
    have order : server.system.popped.length ≤
        server.system.pushed.length := tracked.balanced.order
    unfold Offered at offered
    omega
  have answers := observed.successes.bound
  have bound := observed.responses.bound
  simp only [StatsSnapshot.ofClass] at successes clientErrors serverErrors
  exact
    { requests := requests
      successes := successes
      clientErrors := clientErrors
      serverErrors := serverErrors
      classified := fun steps member step inSteps =>
        (observed.genuine steps member step inSteps).classified
      answers := by
        simp only [serverStatsSnapshot]
        omega
      bound := by
        simp only [serverStatsSnapshot]
        omega }

theorem observed_of_reachable {setup : ServerSetup} {server : Server}
    {log : HandlerLog}
    (reachable : (observed setup).Reachable (server, log)) :
    server.Tracked setup ∧ server.Counted ∧ server.Offered ∧
      server.Observed setup log := by
  apply Machine.Reachable.recorded reachable fun server log =>
    server.Tracked setup ∧ server.Counted ∧ server.Offered ∧
      server.Observed setup log
  · intro first started
    have fresh := fresh_of_start started
    exact ⟨fresh.tracked, fresh.counted, fresh.offered, fresh.observed⟩
  · rintro before action after log ⟨tracked, counted, offered, seen⟩ stepped
    have transition := next_transition stepped
    exact ⟨tracked.step transition, counted.step transition,
      offered.step tracked.coordinated transition,
      seen.step tracked.coordinated.size
        (observation_of_transition tracked.coordinated transition)⟩

theorem statsAgree_of_reachable {setup : ServerSetup} {server : Server}
    {log : HandlerLog}
    (reachable : (observed setup).Reachable (server, log))
    (few : server.history.length < 2 ^ 64) :
    StatsAgree log (serverStatsSnapshot server.stats) := by
  obtain ⟨tracked, counted, offered, seen⟩ := observed_of_reachable reachable
  exact seen.statsAgree counted offered tracked few

/-- In every state of every run the counters agree with the calls that were
made: one for each message that a connection has delivered, and one for each
response that was sent, in the class that is seen on the wire. -/
theorem serverStats_agree (setup : ServerSetup) :
    (∀ server, (machine setup).Reachable server →
      ∃ log, (observed setup).Reachable (server, log)) ∧
    (∀ conversation : Conversation,
      (conversation.steps setup.config).filterMap HandlerStep.message =
        (clientHandle setup.config conversation.env
          conversation.stream).filterMap fun iteration =>
            iteration.read.exit.result.toOption) ∧
    (∀ server log, (observed setup).Reachable (server, log) →
      server.history.length < 2 ^ 64 →
      StatsAgree log (serverStatsSnapshot server.stats)) := by
  refine ⟨?_, fun conversation => conversation.steps_message setup.config,
    fun server log reachable few => statsAgree_of_reachable reachable few⟩
  intro server reachable
  exact Machine.recording_reachable_iff.mpr reachable

/-- A connection with one request, which is answered. -/
def healthConversation : Conversation :=
  { env := fun _ => sampleExchange
    stream := ascii "GET /api/health HTTP/1.0\r\n\r\n" }

def healthTrace : List ServerAction :=
  [.create true, .main] ++ acceptTrace 4 ++
    [.main, .worker 0, .queue (.popSection 1 []) healthConversation,
      .worker 0, .worker 0]

def healthRun : Option (Server × HandlerLog) :=
  (observed singleSetup).execute
    (start singleSetup true, { remaining := [[]], made := [] }) healthTrace

theorem healthRun_isSome : healthRun.isSome = true := by
  decide +kernel

theorem healthRun_reachable :
    (observed singleSetup).Reachable (healthRun.get healthRun_isSome) := by
  have started : (observed singleSetup).Start
      (start singleSetup true, { remaining := [[]], made := [] }) :=
    ⟨⟨true, false, rfl⟩, rfl⟩
  exact Machine.Reachable.execute (.start started)
    (Option.some_get healthRun_isSome).symm

theorem serverStats_agree_health :
    (healthRun.get healthRun_isSome).1.history =
        [.connectionAccepted, .connectionStarted, .requestReceived,
          .responseSent 200] ∧
      StatsAgree (healthRun.get healthRun_isSome).2
        (serverStatsSnapshot (healthRun.get healthRun_isSome).1.stats) :=
  ⟨by decide +kernel, (serverStats_agree singleSetup).2.2 _ _
    healthRun_reachable (by decide +kernel)⟩

end Server

end CinderHTTP
