import CinderHTTP.Base.Wakeups
import CinderHTTP.Server.Ownership

/-!
# Active connections

The accepting thread counts a connection as active after it was pushed, and a
worker counts it as finished when it was closed.  The worker may be first, and
then its decrement finds the counter at zero and is lost.  The numbers that
matter form a ledger; the counter is exact along a run if and only if no
worker finishes a connection while the counter is zero.
-/

namespace CinderHTTP

/-! ## The ledger -/

/-- The numbers of connections at each stage, and the counter. -/
structure Ledger where
  pushed : Nat
  popped : Nat
  started : Nat
  finished : Nat
  /-- Whether a pushed connection has yet to be counted as active. -/
  awaiting : Nat
  /-- The workers with a connection. -/
  busy : Nat
  active : UInt64

/-- The changes of a ledger; a decrement is lost only if `lost` holds. -/
inductive LedgerStep (lost : Prop) (ledger : Ledger) : Ledger → Prop
  | stays : LedgerStep lost ledger ledger
  | pushes (settled : ledger.awaiting = 0) :
      LedgerStep lost ledger
        { ledger with pushed := ledger.pushed + 1, awaiting := 1 }
  | pops (queued : ledger.popped < ledger.pushed) :
      LedgerStep lost ledger
        { ledger with popped := ledger.popped + 1, busy := ledger.busy + 1 }
  | starts (awaited : ledger.awaiting = 1) :
      LedgerStep lost ledger
        { ledger with
          started := ledger.started + 1
          awaiting := 0
          active := ledger.active + 1 }
  | finishes {rest : Nat} (busy : ledger.busy = rest + 1)
      (positive : ledger.active > 0) :
      LedgerStep lost ledger
        { ledger with
          finished := ledger.finished + 1
          busy := rest
          active := ledger.active - 1 }
  | loses {rest : Nat} (busy : ledger.busy = rest + 1)
      (zero : ledger.active = 0) (admitted : lost) :
      LedgerStep lost ledger
        { ledger with finished := ledger.finished + 1, busy := rest }

namespace Ledger

/-- Connections move from stage to stage. -/
structure Balanced (ledger : Ledger) : Prop where
  pushed : ledger.pushed = ledger.started + ledger.awaiting
  popped : ledger.popped = ledger.finished + ledger.busy
  order : ledger.popped ≤ ledger.pushed

theorem Balanced.step {lost : Prop} {ledger after : Ledger}
    (balanced : ledger.Balanced) (step : LedgerStep lost ledger after) :
    after.Balanced := by
  have pushed := balanced.pushed
  have popped := balanced.popped
  have order := balanced.order
  cases step with
  | stays => exact balanced
  | pushes settled =>
      exact ⟨by simp only; omega, popped, Nat.le_succ_of_le order⟩
  | pops queued => exact ⟨pushed, by simp only; omega, queued⟩
  | starts awaited => exact ⟨by simp only; omega, popped, order⟩
  | finishes busy positive => exact ⟨pushed, by simp only; omega, order⟩
  | loses busy zero admitted => exact ⟨pushed, by simp only; omega, order⟩

/-- The counter is the number of connections started and not finished. -/
def Exact (ledger : Ledger) : Prop :=
  ledger.active.toNat + ledger.finished = ledger.started

theorem toNat_pred {active : UInt64} (positive : active > 0) :
    (active - 1).toNat + 1 = active.toNat := by
  have bound : 1 ≤ active.toNat := UInt64.lt_iff_toNat_lt.mp positive
  have reduced : (active - 1).toNat = active.toNat - 1 :=
    UInt64.toNat_sub_of_le active 1 bound
  omega

theorem toNat_succ {active : UInt64} (small : active.toNat + 1 < 2 ^ 64) :
    (active + 1).toNat = active.toNat + 1 := by
  rw [UInt64.toNat_add]
  exact Nat.mod_eq_of_lt small

/-- Without lost decrements and overflow the counter stays exact. -/
theorem Exact.step {lost : Prop} {ledger after : Ledger}
    (exactly : ledger.Exact) (step : LedgerStep lost ledger after)
    (small : ledger.awaiting = 1 → ledger.active.toNat + 1 < 2 ^ 64)
    (none : ¬lost) :
    after.Exact := by
  unfold Exact at exactly ⊢
  cases step with
  | stays => exact exactly
  | pushes settled => exact exactly
  | pops queued => exact exactly
  | starts awaited =>
      have increased := toNat_succ (small awaited)
      simp only
      omega
  | finishes busy positive =>
      have decreased := toNat_pred positive
      simp only
      omega
  | loses busy zero admitted => exact absurd admitted none

/-- As long as there are fewer connections than the counter can hold, it is
too large by the number of lost decrements at least. -/
def Drifts (excess : Nat) (ledger : Ledger) : Prop :=
  ledger.pushed < 2 ^ 64 →
    ledger.active.toNat ≤ ledger.started ∧
      ledger.started + excess ≤ ledger.active.toNat + ledger.finished

theorem Drifts.step {lost : Prop} {excess : Nat} {ledger after : Ledger}
    (drifts : ledger.Drifts excess) (balanced : ledger.Balanced)
    (step : LedgerStep lost ledger after) : after.Drifts excess := by
  have counted := balanced.pushed
  unfold Drifts at drifts ⊢
  cases step with
  | stays => exact drifts
  | pushes settled =>
      intro few
      exact drifts (Nat.lt_of_succ_lt few)
  | pops queued => exact drifts
  | starts awaited =>
      intro few
      change ledger.pushed < 2 ^ 64 at few
      have bounds := drifts few
      have increased : (ledger.active + 1).toNat = ledger.active.toNat + 1 :=
        toNat_succ (by omega)
      simp only
      omega
  | finishes busy positive =>
      intro few
      have bounds := drifts few
      have decreased := toNat_pred positive
      simp only
      omega
  | loses busy zero admitted =>
      intro few
      have bounds := drifts few
      simp only
      omega

end Ledger

/-! ## The ledger of a server -/

def MainState.awaiting : MainState → Nat
  | .pushed => 1
  | _ => 0

theorem MainState.interrupt_awaiting (main : MainState) :
    main.interrupt.awaiting = main.awaiting := by
  cases main <;> rfl

def WorkerState.busy : WorkerState → Bool
  | .handling _ _ => true
  | .closed => true
  | _ => false

theorem StatsEvent.apply_active {event : StatsEvent} (stats : ServerStats)
    (notStarted : event ≠ .connectionStarted)
    (notFinished : event ≠ .connectionFinished) :
    (event.apply stats).activeConnections = stats.activeConnections := by
  cases event with
  | connectionAccepted => rfl
  | connectionStarted => exact absurd rfl notStarted
  | connectionFinished => exact absurd rfl notFinished
  | requestReceived => rfl
  | responseSent status =>
      simp only [StatsEvent.apply, serverStatsResponseSent]
      split_ifs <;> rfl

namespace Server

def ledger (server : Server) : Ledger :=
  { pushed := server.system.pushed.length
    popped := server.system.popped.length
    started := server.history.count .connectionStarted
    finished := server.history.count .connectionFinished
    awaiting := server.main.awaiting
    busy := server.workers.countP WorkerState.busy
    active := server.stats.activeConnections }

/-- A worker counts a connection as finished only when the counter is not
zero. -/
def FinishesCounted (server : Server) : ServerAction → Prop
  | .worker index => server.workers[index]? = some .closed →
      server.stats.activeConnections ≠ 0
  | _ => True

/-- The same condition on the schedule.  No worker counts a connection as
finished while the accepting thread is between a push and its count, and all
the connections that it has counted are finished. -/
def FinishesBehindCount (server : Server) : ServerAction → Prop
  | .worker index => server.workers[index]? = some .closed →
      server.main = .pushed →
      server.history.count .connectionFinished ≠
        server.history.count .connectionStarted
  | _ => True

/-- No worker is about to make a call that changes the counter while it
handles a connection. -/
def Restrained (server : Server) : Prop :=
  ∀ (index : Nat) (clientFd : Int) (pending : List StatsEvent),
    server.workers[index]? = some (.handling clientFd pending) →
    .connectionFinished ∉ pending ∧ .connectionStarted ∉ pending

theorem ledger_same {server after : Server} {lost : Prop}
    (pushed : after.system.pushed = server.system.pushed)
    (popped : after.system.popped = server.system.popped)
    (main : after.main.awaiting = server.main.awaiting)
    (workers : after.workers.countP WorkerState.busy =
      server.workers.countP WorkerState.busy)
    (history : after.history = server.history)
    (stats : after.stats = server.stats) :
    LedgerStep lost server.ledger after.ledger := by
  have same : after.ledger = server.ledger := by
    simp only [ledger, pushed, popped, main, workers, history, stats]
  rw [same]
  exact .stays

theorem ledger_record (server : Server) {event : StatsEvent}
    (notStarted : event ≠ .connectionStarted)
    (notFinished : event ≠ .connectionFinished) :
    (server.record event).ledger = server.ledger := by
  simp only [ledger, record, List.count_append,
    StatsEvent.apply_active server.stats notStarted notFinished,
    List.count_singleton, beq_iff_eq, notStarted, notFinished, if_false,
    Nat.add_zero]

theorem busy_set {server : Server} {index : Nat} {old : WorkerState}
    (new : WorkerState) (found : server.workers[index]? = some old)
    (same : new.busy = old.busy) :
    (server.workers.set index new).countP WorkerState.busy =
      server.workers.countP WorkerState.busy := by
  have changed := countP_set_of_getElem? new WorkerState.busy found
  rw [same] at changed
  omega

theorem Turn.awaiting {setup : ServerSetup} {server : Server}
    {main : MainState} (turn : Turn setup server main) :
    main.awaiting = server.main.awaiting := by
  have settled : ∀ state : MainState, state.emptyHanded = true →
      state.awaiting = 0 := by
    intro state free
    cases state with
    | pushed => cases free
    | _ => rfl
  obtain ⟨before, after⟩ := turn.emptyHanded
  rw [settled _ before, settled _ after]

theorem ledger_inside {setup : ServerSetup} {server : Server}
    {system : QueueSystem} {action : QueueAction}
    {returned : Option QueueReturn} {lost : Prop}
    (pending : List StatsEvent) (coordinated : server.Coordinated setup)
    (inside : action.inside = true)
    (effect : server.system.Effect system action returned) :
    LedgerStep lost server.ledger
      (answer { server with system := system } pending returned).ledger := by
  cases effect with
  | enteredPush unchanged nonnegative idle operations => cases inside
  | invalid negative same => cases inside
  | enteredPop unchanged idle operations => cases inside
  | closed queue pushed popped same => cases inside
  | continued inside unchanged same =>
      exact ledger_same unchanged.pushed unchanged.popped rfl rfl rfl rfl
  | pushRefused inside unchanged refusal calling operations =>
      obtain ⟨rfl, now⟩ := coordinated.pushing calling
      rw [answer_pushRefused refusal]
      exact ledger_same unchanged.pushed unchanged.popped
        (by rw [now]; rfl) rfl rfl rfl
  | pushed inside room accepting queue pushed popped calling operations =>
      obtain ⟨rfl, now⟩ := coordinated.pushing calling
      have settled : server.ledger.awaiting = 0 := by
        simp only [ledger, now]
        rfl
      have moved : (setMain { server with system := system } .pushed).ledger =
          { server.ledger with
            pushed := server.ledger.pushed + 1, awaiting := 1 } := by
        simp only [ledger, setMain, pushed, popped, List.length_append]
        rfl
      change LedgerStep lost _ (setMain _ .pushed).ledger
      rw [moved]
      exact .pushes settled
  | popRefused inside unchanged refusal drained calling operations =>
      obtain ⟨index, rfl, found⟩ := coordinated.popping calling
      rw [answer_popRefused]
      exact ledger_same unchanged.pushed unchanged.popped rfl
        (busy_set .exited found rfl) rfl rfl
  | popped inside filled queue pushed popped calling operations =>
      obtain ⟨index, rfl, found⟩ := coordinated.popping calling
      have taken := countP_set_of_getElem?
        (.handling (server.system.queue.cell server.system.queue.head)
          pending) WorkerState.busy found
      have moved : (setWorker { server with system := system } index
          (.handling (server.system.queue.cell server.system.queue.head)
            pending)).ledger =
          { server.ledger with
            popped := server.ledger.popped + 1
            busy := server.ledger.busy + 1 } := by
        simp only [ledger, setWorker, pushed, popped, List.length_append]
        congr 1
      have queued : server.system.popped.length <
          server.system.pushed.length := by
        have sound := coordinated.sound (coordinated.running found rfl)
        rw [← sound.order, List.length_append, Ring.contents_length]
        omega
      change LedgerStep lost _ (setWorker _ index _).ledger
      rw [moved]
      exact .pops queued

theorem ledger_starts {server : Server} {lost : Prop}
    (now : server.main = .pushed) :
    LedgerStep lost server.ledger
      ((server.record .connectionStarted).setMain .testing).ledger := by
  have awaited : server.ledger.awaiting = 1 := by
    simp only [ledger, now]
    rfl
  have moved : ((server.record .connectionStarted).setMain .testing).ledger =
      { server.ledger with
        started := server.ledger.started + 1
        awaiting := 0
        active := server.ledger.active + 1 } := by
    simp only [ledger, record, setMain, List.count_append]
    rfl
  rw [moved]
  exact .starts awaited

theorem ledger_finishes {server : Server} {index : Nat}
    (now : server.workers[index]? = some .closed) :
    LedgerStep (¬server.FinishesCounted (.worker index)) server.ledger
      ((server.record .connectionFinished).setWorker index
        .calling).ledger := by
  obtain ⟨rest, busy⟩ : ∃ rest, server.ledger.busy = rest + 1 := by
    have positive : 0 < server.workers.countP WorkerState.busy :=
      List.countP_pos_iff.mpr ⟨.closed, List.mem_of_getElem? now, rfl⟩
    exact ⟨_, (Nat.succ_pred_eq_of_pos positive).symm⟩
  have freed : (server.workers.set index .calling).countP
      WorkerState.busy = rest := by
    have changed := countP_set_of_getElem? .calling WorkerState.busy now
    simp only [ledger] at busy
    simp only [WorkerState.busy, if_true, Bool.false_eq_true, if_false]
      at changed
    omega
  have moved : ((server.record .connectionFinished).setWorker index
        .calling).ledger =
      { server.ledger with
        finished := server.ledger.finished + 1
        busy := rest
        active := (serverStatsConnectionFinished
          server.stats).activeConnections } := by
    simp only [ledger, record, setWorker, List.count_append, freed]
    rfl
  rw [moved]
  unfold serverStatsConnectionFinished
  split
  · rename_i positive
    exact .finishes busy positive
  · rename_i none
    have zero : server.stats.activeConnections = 0 := by
      rw [gt_iff_lt, UInt64.not_lt] at none
      exact UInt64.le_zero_iff.mp none
    apply LedgerStep.loses busy zero
    intro counted
    exact counted now zero

/-- Every step of the server is a step of its ledger. -/
theorem ledger_of_transition {setup : ServerSetup} {server after : Server}
    {action : ServerAction} (coordinated : server.Coordinated setup)
    (restrained : server.Restrained)
    (transition : Transition setup server action after) :
    LedgerStep (¬server.FinishesCounted action) server.ledger
      after.ledger := by
  cases transition with
  | signalled =>
      exact ledger_same rfl rfl server.main.interrupt_awaiting rfl rfl rfl
  | created now more =>
      exact ledger_same rfl rfl (by rw [now]; rfl)
        (busy_set .calling (coordinated.unborn now more) rfl) rfl rfl
  | uncreated now =>
      exact ledger_same rfl rfl (by rw [now]; rfl) rfl rfl rfl
  | turned turn => exact ledger_same rfl rfl turn.awaiting rfl rfl rfl
  | unaccepted now =>
      exact ledger_same rfl rfl (by rw [now]; rfl) rfl rfl rfl
  | accepts now opened =>
      exact ledger_same rfl rfl (by rw [now]; rfl) rfl rfl rfl
  | counts now =>
      rename_i clientFd
      have recorded : (server.record .connectionAccepted).ledger =
          server.ledger :=
        server.ledger_record (by decide) (by decide)
      have awaiting : MainState.awaiting (.counted clientFd) =
          (server.record .connectionAccepted).main.awaiting :=
        (congrArg MainState.awaiting now).symm
      rw [← recorded]
      exact ledger_same rfl rfl awaiting rfl rfl rfl
  | calls now stepped =>
      obtain ⟨unchanged, entered | refused⟩ :=
        (QueueSystem.step_effect stepped).of_callPush
      · obtain ⟨rfl, _⟩ := entered
        exact ledger_same unchanged.pushed unchanged.popped
          (by rw [now]; rfl) rfl rfl rfl
      · obtain ⟨rfl, _⟩ := refused
        exact ledger_same unchanged.pushed unchanged.popped
          (by rw [now]; rfl) rfl rfl rfl
  | closes now => exact ledger_same rfl rfl (by rw [now]; rfl) rfl rfl rfl
  | starts now => exact ledger_starts now
  | stops now => exact ledger_same rfl rfl (by rw [now]; rfl) rfl rfl rfl
  | destroys now =>
      exact ledger_same rfl rfl (by rw [now]; rfl) rfl rfl rfl
  | inside inside stepped =>
      exact ledger_inside _ coordinated inside
        (QueueSystem.step_effect stepped)
  | workerCalls now stepped =>
      have unchanged := (QueueSystem.step_effect stepped).of_callPop.1
      exact ledger_same unchanged.pushed unchanged.popped rfl
        (busy_set .popping now rfl) rfl rfl
  | workerRecords now =>
      rename_i index clientFd event pending
      obtain ⟨notFinished, notStarted⟩ := restrained index clientFd _ now
      have recorded : (server.record event).ledger = server.ledger :=
        server.ledger_record
          (fun same => notStarted (same ▸ List.mem_cons_self))
          (fun same => notFinished (same ▸ List.mem_cons_self))
      rw [← recorded]
      exact ledger_same rfl rfl rfl
        (busy_set (.handling clientFd pending) now rfl) rfl rfl
  | workerCloses now =>
      exact ledger_same rfl rfl rfl (busy_set .closed now rfl) rfl rfl
  | workerFinishes now => exact ledger_finishes now

/-! ## Runs -/

theorem Restrained.set {server after : Server} {index : Nat}
    {new : WorkerState} (restrained : server.Restrained)
    (workers : after.workers = server.workers.set index new)
    (quiet : ∀ clientFd pending, new = .handling clientFd pending →
      .connectionFinished ∉ pending ∧ .connectionStarted ∉ pending) :
    after.Restrained := by
  intro other clientFd pending found
  rw [workers] at found
  rcases getElem?_set_cases found with ⟨_, same⟩ | ⟨_, kept⟩
  · exact quiet clientFd pending same.symm
  · exact restrained other clientFd pending kept

theorem Restrained.same {server after : Server}
    (restrained : server.Restrained)
    (workers : after.workers = server.workers) : after.Restrained := by
  intro index clientFd pending found
  rw [workers] at found
  exact restrained index clientFd pending found

theorem Restrained.answer {server : Server} {pending : List StatsEvent}
    (restrained : server.Restrained)
    (quiet : .connectionFinished ∉ pending ∧ .connectionStarted ∉ pending)
    (returned : Option QueueReturn) :
    (server.answer pending returned).Restrained := by
  unfold Server.answer
  split
  · exact restrained
  · exact restrained.same rfl
  · exact restrained.same rfl
  · apply restrained.set rfl
    intro clientFd handed same
    cases same
    exact quiet
  · exact restrained.set rfl nofun

theorem Restrained.step {setup : ServerSetup} {server after : Server}
    {action : ServerAction} (restrained : server.Restrained)
    (transition : Transition setup server action after) :
    after.Restrained := by
  cases transition with
  | signalled => exact restrained.same rfl
  | created now more => exact restrained.set rfl nofun
  | uncreated now => exact restrained.same rfl
  | turned turn => exact restrained.same rfl
  | unaccepted now => exact restrained.same rfl
  | accepts now opened => exact restrained.same rfl
  | counts now => exact restrained.same rfl
  | calls now stepped =>
      apply Restrained.answer
      · exact restrained.same rfl
      · exact ⟨List.not_mem_nil, List.not_mem_nil⟩
  | closes now => exact restrained.same rfl
  | starts now => exact restrained.same rfl
  | stops now => exact restrained.same rfl
  | destroys now => exact restrained.same rfl
  | inside inside stepped =>
      apply Restrained.answer
      · exact restrained.same rfl
      · exact Conversation.finished_not_event _ setup.config
  | workerCalls now stepped => exact restrained.set rfl nofun
  | workerRecords now =>
      rename_i index clientFd event pending
      have quiet := restrained index clientFd _ now
      apply restrained.set rfl
      intro handled rest same
      cases same
      exact ⟨fun later => quiet.1 (List.mem_cons_of_mem _ later),
        fun later => quiet.2 (List.mem_cons_of_mem _ later)⟩
  | workerCloses now => exact restrained.set rfl nofun
  | workerFinishes now => exact restrained.set rfl nofun

/-- What the ledger of a run rests on. -/
structure Tracked (setup : ServerSetup) (server : Server) : Prop where
  coordinated : server.Coordinated setup
  restrained : server.Restrained
  balanced : server.ledger.Balanced

theorem Tracked.step {setup : ServerSetup} {server after : Server}
    {action : ServerAction} (tracked : server.Tracked setup)
    (transition : Transition setup server action after) :
    after.Tracked setup :=
  { coordinated := tracked.coordinated.step transition
    restrained := tracked.restrained.step transition
    balanced := tracked.balanced.step (ledger_of_transition
      tracked.coordinated tracked.restrained transition) }

theorem Fresh.ledger {setup : ServerSetup} {server : Server}
    (fresh : server.Fresh setup) :
    server.ledger =
      { pushed := 0, popped := 0, started := 0, finished := 0
        awaiting := 0, busy := 0, active := 0 } := by
  have idle : (List.replicate setup.workerCount
      WorkerState.unborn).countP WorkerState.busy = 0 := by
    simp [List.countP_replicate, WorkerState.busy]
  have settled : server.main.awaiting = 0 := by
    rcases fresh.main with now | ⟨now, _⟩
    · rw [now]
      rfl
    · rw [now]
      rfl
  rw [Server.ledger, fresh.workers, fresh.pushed, fresh.popped,
    fresh.history, fresh.stats, idle, settled]
  rfl

theorem Fresh.tracked {setup : ServerSetup} {server : Server}
    (fresh : server.Fresh setup) : server.Tracked setup := by
  constructor
  · exact fresh.coordinated
  · intro index clientFd pending found
    cases fresh.unborn found
  · rw [fresh.ledger]
    exact ⟨rfl, rfl, Nat.le_refl _⟩

/-- The counter has room for a connection that was pushed. -/
theorem Tracked.small {setup : ServerSetup} {server : Server}
    (tracked : server.Tracked setup) (exactly : server.ledger.Exact)
    (awaited : server.ledger.awaiting = 1) :
    server.ledger.active.toNat + 1 < 2 ^ 64 := by
  have running : server.main ≠ .returned := by
    intro returned
    simp only [ledger, returned, MainState.awaiting] at awaited
    cases awaited
  have sound := tracked.coordinated.sound running
  have order := congrArg List.length sound.order
  have queued : server.system.queue.contents.length ≤ setup.queueCapacity :=
    sound.ordered.bound
  have busy : server.ledger.busy ≤ setup.workerCount := by
    rw [← tracked.coordinated.size]
    exact List.countP_le_length
  have pushed : server.system.pushed.length = _ := tracked.balanced.pushed
  have popped : server.system.popped.length = _ := tracked.balanced.popped
  have capacity := setup.capacityInt
  have workers := setup.workersInt
  rw [List.length_append] at order
  unfold Ledger.Exact at exactly
  omega

/-! ## The counter -/

/-- The pushed connections whose `client_handle` has not finished. -/
def unfinished (server : Server) : Nat :=
  server.system.pushed.length - server.history.count .connectionFinished

/-- The counter says how many connections are active. -/
structure ActiveExact (server : Server) : Prop where
  /-- It is zero when every pushed connection was started and finished. -/
  settled : server.history.count .connectionStarted =
      server.system.pushed.length →
    server.history.count .connectionFinished = server.system.pushed.length →
    server.stats.activeConnections = 0
  /-- It is right when every pushed connection was started. -/
  current : server.main ≠ .pushed →
    server.stats.activeConnections.toNat = server.unfinished

/-- Outside the window between push and count all pushed connections were
started. -/
theorem Tracked.started {setup : ServerSetup} {server : Server}
    (tracked : server.Tracked setup) (outside : server.main ≠ .pushed) :
    server.system.pushed.length =
      server.history.count .connectionStarted := by
  have pushed : server.system.pushed.length =
      server.history.count .connectionStarted + server.main.awaiting :=
    tracked.balanced.pushed
  have settled : server.main.awaiting = 0 := by
    cases now : server.main with
    | pushed => exact absurd now outside
    | _ => rfl
  rwa [settled] at pushed

theorem Tracked.activeExact {setup : ServerSetup} {server : Server}
    (tracked : server.Tracked setup) (exactly : server.ledger.Exact) :
    server.ActiveExact := by
  have counter : server.stats.activeConnections.toNat +
      server.history.count .connectionFinished =
      server.history.count .connectionStarted := exactly
  constructor
  · intro started finished
    have zero : server.stats.activeConnections.toNat = 0 := by omega
    exact UInt64.toNat_inj.mp zero
  · intro outside
    have started := tracked.started outside
    unfold unfinished
    omega

theorem tracked_of_reachable {setup : ServerSetup} {server : Server}
    (reachable : (machine setup).Reachable server) :
    server.Tracked setup ∧ server.ledger.Drifts 0 := by
  apply reachable.invariant
  · intro first started
    have fresh := fresh_of_start started
    refine ⟨fresh.tracked, ?_⟩
    rw [fresh.ledger]
    exact fun _ => ⟨Nat.le_refl _, Nat.le_refl _⟩
  · intro before action after both stepped
    have transition := next_transition stepped
    have moved := ledger_of_transition both.1.coordinated both.1.restrained
      transition
    exact ⟨both.1.step transition, both.2.step both.1.balanced moved⟩

theorem Tracked.step_exact {setup : ServerSetup} {server after : Server}
    {action : ServerAction}
    (both : server.Tracked setup ∧ server.ledger.Exact)
    (counted : server.FinishesCounted action)
    (transition : Transition setup server action after) :
    after.Tracked setup ∧ after.ledger.Exact := by
  have moved := ledger_of_transition both.1.coordinated both.1.restrained
    transition
  exact ⟨both.1.step transition,
    both.2.step moved (both.1.small both.2) (not_not.mpr counted)⟩

theorem Fresh.exact {setup : ServerSetup} {server : Server}
    (fresh : server.Fresh setup) :
    server.Tracked setup ∧ server.ledger.Exact := by
  refine ⟨fresh.tracked, ?_⟩
  rw [fresh.ledger]
  rfl

theorem exact_of_counted {setup : ServerSetup} {server : Server}
    (reachable : (machine setup).ReachableBy FinishesCounted server) :
    server.Tracked setup ∧ server.ledger.Exact := by
  apply reachable.invariant
  · exact fun first started => (fresh_of_start started).exact
  · intro before action after both counted stepped
    exact Tracked.step_exact both counted (next_transition stepped)

/-- With an exact counter the two conditions are one: a worker that is about
to finish a connection has popped it, so only an uncounted push leaves as many
connections counted as finished. -/
theorem Tracked.finishesCounted_iff {setup : ServerSetup} {server : Server}
    (tracked : server.Tracked setup) (exactly : server.ledger.Exact)
    (action : ServerAction) :
    server.FinishesCounted action ↔ server.FinishesBehindCount action := by
  have counter : server.stats.activeConnections.toNat +
      server.history.count .connectionFinished =
      server.history.count .connectionStarted := exactly
  have zero : server.stats.activeConnections = 0 ↔
      server.stats.activeConnections.toNat = 0 :=
    UInt64.toNat_inj.symm
  cases action with
  | worker index =>
      constructor
      · intro counted now _ same
        exact counted now (zero.mpr (by omega))
      · intro behind now empty
        have settled := zero.mp empty
        by_cases window : server.main = .pushed
        · exact behind now window (by omega)
        · have started := tracked.started window
          have busy : 0 < server.workers.countP WorkerState.busy :=
            List.countP_pos_iff.mpr ⟨.closed, List.mem_of_getElem? now, rfl⟩
          have popped : server.system.popped.length =
              server.history.count .connectionFinished +
                server.workers.countP WorkerState.busy :=
            tracked.balanced.popped
          have order : server.system.popped.length ≤
              server.system.pushed.length := tracked.balanced.order
          omega
  | _ => exact Iff.rfl

/-- The condition on the counter and the condition on the schedule allow the
same runs, and agree in all of their states. -/
theorem finishesCounted_iff_behindCount (setup : ServerSetup)
    (server : Server) :
    ((machine setup).ReachableBy FinishesCounted server ↔
      (machine setup).ReachableBy FinishesBehindCount server) ∧
    ((machine setup).ReachableBy FinishesCounted server → ∀ action,
      (server.FinishesCounted action ↔
        server.FinishesBehindCount action)) := by
  constructor
  · apply Machine.reachableBy_iff
    · exact fun first started => (fresh_of_start started).exact
    · intro before action after both counted stepped
      exact Tracked.step_exact both counted (next_transition stepped)
    · exact fun before action both => both.1.finishesCounted_iff both.2 action
  · intro reachable action
    have both := exact_of_counted reachable
    exact both.1.finishesCounted_iff both.2 action

/-- A decrement that finds the counter at zero leaves it too large. -/
theorem drifts_of_lost {setup : ServerSetup} {before after : Server}
    {action : ServerAction} (drifts : before.ledger.Drifts 0)
    (lost : ¬before.FinishesCounted action)
    (transition : Transition setup before action after) :
    after.ledger.Drifts 1 := by
  cases action with
  | worker index =>
      obtain ⟨now, zero⟩ := Classical.not_imp.mp lost
      have zero : before.stats.activeConnections = 0 :=
        Classical.not_not.mp zero
      cases transition with
      | workerCalls found stepped => simp [now] at found
      | workerRecords found => simp [now] at found
      | workerCloses found => simp [now] at found
      | workerFinishes found =>
          intro few
          have bounds := drifts few
          have kept : serverStatsConnectionFinished before.stats =
              before.stats := by
            simp [serverStatsConnectionFinished, zero]
          simp only [ledger, record, setWorker, StatsEvent.apply, kept,
            List.count_append, List.count_singleton] at bounds ⊢
          simp only [beq_self_eq_true, if_true, reduceCtorEq, beq_iff_eq,
            if_false]
          omega
  | _ => exact absurd trivial lost

instance (server : Server) :
    (action : ServerAction) → Decidable (server.FinishesCounted action)
  | .worker index => inferInstanceAs (Decidable
      (server.workers[index]? = some .closed →
        server.stats.activeConnections ≠ 0))
  | .signal => .isTrue trivial
  | .create _ => .isTrue trivial
  | .accept _ => .isTrue trivial
  | .main => .isTrue trivial
  | .queue _ _ => .isTrue trivial

/-- The counter of active connections is exact along every run in which no
worker finishes a connection while the counter is zero, and it stays too large
behind a step that breaks this condition. -/
theorem activeConnections_exact (setup : ServerSetup) :
    (∀ server, (machine setup).ReachableBy FinishesCounted server →
      server.ActiveExact) ∧
    (∀ before action after server, (machine setup).Reachable before →
      ¬before.FinishesCounted action →
      before.next setup action = some after →
      (machine setup).Leads after server →
      server.system.pushed.length < 2 ^ 64 → server.main ≠ .pushed →
      server.unfinished < server.stats.activeConnections.toNat) := by
  constructor
  · intro server reachable
    have both := exact_of_counted reachable
    exact both.1.activeExact both.2
  · intro before action after server reachable lost stepped leads few outside
    obtain ⟨tracked, drifts⟩ := tracked_of_reachable reachable
    have transition := next_transition stepped
    have both : server.Tracked setup ∧ server.ledger.Drifts 1 := by
      apply leads.invariant
      · exact ⟨tracked.step transition, drifts_of_lost drifts lost transition⟩
      · intro earlier other later held moved
        have taken := next_transition moved
        have changed := ledger_of_transition held.1.coordinated
          held.1.restrained taken
        exact ⟨held.1.step taken, held.2.step held.1.balanced changed⟩
    have started := both.1.started outside
    have excess : server.history.count .connectionStarted + 1 ≤
        server.stats.activeConnections.toNat +
          server.history.count .connectionFinished := (both.2 few).2
    have popped : server.system.popped.length =
        server.history.count .connectionFinished + _ :=
      both.1.balanced.popped
    have order : server.system.popped.length ≤
        server.system.pushed.length := both.1.balanced.order
    unfold unfinished
    omega

/-- The connection is counted before the worker takes it. -/
def countedTrace : List ServerAction :=
  [.create true, .main] ++ acceptTrace 4 ++
    [.main, .worker 0, .queue (.popSection 1 []) .silent, .worker 0,
      .worker 0]

def countedServer : Server :=
  { system :=
      { queue :=
          { items := [4], capacity := 1, head := 0, tail := 0, count := 0
            shuttingDown := false }
        calls := [.idle, .idle]
        pushed := [4]
        popped := [4] }
    main := .testing
    workers := [.calling]
    stats := { serverStatsInit with connectionsAccepted := 1 }
    history :=
      [.connectionAccepted, .connectionStarted, .connectionFinished]
    sockets :=
      { opened := [], accepted := 1, closed := [0], strayCloses := []
        distinct := List.nodup_nil }
    shutdownRequested := false
    result := -1 }

theorem countedServer_reachable :
    (machine singleSetup).ReachableBy FinishesCounted countedServer := by
  have started : (machine singleSetup).Start (start singleSetup true) :=
    ⟨true, false, rfl⟩
  apply Machine.ReachableBy.execute (.start started)
  change (machine singleSetup).executeBy FinishesCounted _ countedTrace =
    some countedServer
  decide +kernel

theorem activeConnections_exact_counted : countedServer.ActiveExact :=
  (activeConnections_exact singleSetup).1 countedServer
    countedServer_reachable

/-- The worker takes and finishes the connection before it is counted. -/
def overtakingTrace : List ServerAction :=
  [.create true, .main] ++ acceptTrace 4 ++
    [.worker 0, .queue (.popSection 1 []) .silent, .worker 0, .worker 0,
      .main]

/-- One connection, started and finished, that is still counted as active. -/
def overtakenServer : Server :=
  { countedServer with
    stats :=
      { serverStatsInit with connectionsAccepted := 1, activeConnections := 1 }
    history :=
      [.connectionAccepted, .connectionFinished, .connectionStarted] }

theorem overtakenServer_reachable :
    (machine singleSetup).Reachable overtakenServer := by
  have started : (machine singleSetup).Start (start singleSetup true) :=
    ⟨true, false, rfl⟩
  apply Machine.Reachable.execute (.start started)
  change (machine singleSetup).execute _ overtakingTrace =
    some overtakenServer
  decide +kernel

theorem overtakenServer_not_exact :
    (machine singleSetup).Reachable overtakenServer ∧
      overtakenServer.history.count .connectionStarted =
        overtakenServer.system.pushed.length ∧
      overtakenServer.history.count .connectionFinished =
        overtakenServer.system.pushed.length ∧
      overtakenServer.stats.activeConnections = 1 ∧
      ¬overtakenServer.ActiveExact := by
  refine ⟨overtakenServer_reachable, rfl, rfl, rfl, ?_⟩
  intro exactly
  have zero := exactly.settled rfl rfl
  cases zero

end Server

end CinderHTTP
