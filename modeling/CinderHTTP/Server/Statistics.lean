import CinderHTTP.Client.Handler

/-!
# Counters

The functions of `server_stats.c`.  Each of them is one mutex-held section,
so a history of calls determines the counters.
-/

namespace CinderHTTP

/-- The counters of `server_stats_t`; a snapshot is a copy of them. -/
abbrev ServerStats := StatsSnapshot

def serverStatsInit : ServerStats :=
  { connectionsAccepted := 0
    requestsTotal := 0
    responses2xx := 0
    responses4xx := 0
    responses5xx := 0
    activeConnections := 0 }

def serverStatsConnectionAccepted (stats : ServerStats) : ServerStats :=
  { stats with connectionsAccepted := stats.connectionsAccepted + 1 }

def serverStatsConnectionStarted (stats : ServerStats) : ServerStats :=
  { stats with activeConnections := stats.activeConnections + 1 }

def serverStatsConnectionFinished (stats : ServerStats) : ServerStats :=
  if stats.activeConnections > 0 then
    { stats with activeConnections := stats.activeConnections - 1 }
  else stats

def serverStatsRequestReceived (stats : ServerStats) : ServerStats :=
  { stats with requestsTotal := stats.requestsTotal + 1 }

def serverStatsResponseSent (stats : ServerStats) (status : Int) :
    ServerStats :=
  if status ≥ 200 ∧ status ≤ 299 then
    { stats with responses2xx := stats.responses2xx + 1 }
  else if status ≥ 400 ∧ status ≤ 499 then
    { stats with responses4xx := stats.responses4xx + 1 }
  else if status ≥ 500 ∧ status ≤ 599 then
    { stats with responses5xx := stats.responses5xx + 1 }
  else stats

/-- The counters at one moment, as `/api/stats` shows them. -/
def serverStatsSnapshot (stats : ServerStats) : StatsSnapshot :=
  { connectionsAccepted := stats.connectionsAccepted
    requestsTotal := stats.requestsTotal
    responses2xx := stats.responses2xx
    responses4xx := stats.responses4xx
    responses5xx := stats.responses5xx
    activeConnections := stats.activeConnections }

/-- A call of one of the functions. -/
inductive StatsEvent where
  | connectionAccepted
  | connectionStarted
  | connectionFinished
  | requestReceived
  | responseSent (status : Int)
  deriving DecidableEq, Repr

def StatsEvent.apply (stats : ServerStats) : StatsEvent → ServerStats
  | .connectionAccepted => serverStatsConnectionAccepted stats
  | .connectionStarted => serverStatsConnectionStarted stats
  | .connectionFinished => serverStatsConnectionFinished stats
  | .requestReceived => serverStatsRequestReceived stats
  | .responseSent status => serverStatsResponseSent stats status

/-! ## The calls of a worker -/

/-- The calls during one pass of `client_handle`. -/
def Iteration.events (iteration : Iteration) : List StatsEvent :=
  let received :=
    match iteration.read.exit.result with
    | .ok _ => [StatsEvent.requestReceived]
    | .error _ => []
  let sent :=
    match iteration.delivery with
    | none => []
    | some delivery =>
        if delivery.sending.success then
          [StatsEvent.responseSent delivery.status]
        else []
  received ++ sent

/-- What the peer of a connection sends and what the environment answers. -/
structure Conversation where
  env : Nat → Exchange
  stream : Bytes

/-- A peer that closes the connection without having sent anything. -/
def Conversation.silent : Conversation :=
  { env := fun _ =>
      { fs :=
          { realpath := fun _ => .error .enoent
            stat := fun _ => .error .enoent
            openRead := fun _ => .error .enoent }
        snapshot := serverStatsInit }
    stream := [] }

/-- The calls of `client_handle` before it closes the connection. -/
def Conversation.events (conversation : Conversation)
    (config : ServerConfig) : List StatsEvent :=
  (clientHandle config conversation.env conversation.stream).flatMap
    Iteration.events

theorem Iteration.finished_not_event (iteration : Iteration) :
    .connectionFinished ∉ iteration.events ∧
      .connectionStarted ∉ iteration.events := by
  unfold Iteration.events
  cases iteration.read.exit.result with
  | error failure =>
      cases iteration.delivery with
      | none => simp
      | some delivery => cases delivery.sending.success <;> simp
  | ok raw =>
      cases iteration.delivery with
      | none => simp
      | some delivery => cases delivery.sending.success <;> simp

/-- A pass never touches the count of active connections. -/
theorem Conversation.finished_not_event (conversation : Conversation)
    (config : ServerConfig) :
    .connectionFinished ∉ conversation.events config ∧
      .connectionStarted ∉ conversation.events config := by
  constructor
  · intro member
    obtain ⟨iteration, _, called⟩ := List.mem_flatMap.mp member
    exact iteration.finished_not_event.1 called
  · intro member
    obtain ⟨iteration, _, called⟩ := List.mem_flatMap.mp member
    exact iteration.finished_not_event.2 called

end CinderHTTP
