import CinderHTTP.Base.Members
import CinderHTTP.Client.Alike
import CinderHTTP.Client.Echo

/-!
# The statistics, as a client reads them

The answer to `/api/stats` is a JSON object that `snprintf` puts together.  A
client that reads the object gets back the snapshot that the server took, with
all of its counters and for all their values.
-/

namespace CinderHTTP

/-! ## The client -/

/-- The counter of a name, when it is there and fits. -/
def figure (members : List Member) (name : Bytes) : Option UInt64 :=
  match members.find? fun member => member.1 == name with
  | none => none
  | some member =>
      if member.2 < 2 ^ 64 then some (UInt64.ofNat member.2) else none

/-- The snapshot in the body of an answer. -/
def decodeStats (body : Bytes) : Option StatsSnapshot :=
  match readObject body with
  | none => none
  | some members =>
      match figure members (ascii "connections_accepted"),
          figure members (ascii "requests_total"),
          figure members (ascii "responses_2xx"),
          figure members (ascii "responses_4xx"),
          figure members (ascii "responses_5xx"),
          figure members (ascii "active_connections") with
      | some accepted, some requests, some responses2, some responses4,
        some responses5, some active =>
          some ⟨accepted, requests, responses2, responses4, responses5,
            active⟩
      | _, _, _, _, _, _ => none

/-! ## The text -/

def statsMembers (snapshot : StatsSnapshot) : List Member :=
  [(ascii "connections_accepted", snapshot.connectionsAccepted.toNat),
    (ascii "requests_total", snapshot.requestsTotal.toNat),
    (ascii "responses_2xx", snapshot.responses2xx.toNat),
    (ascii "responses_4xx", snapshot.responses4xx.toNat),
    (ascii "responses_5xx", snapshot.responses5xx.toNat),
    (ascii "active_connections", snapshot.activeConnections.toNat)]

theorem statsJson_writeObject (snapshot : StatsSnapshot) :
    statsJson snapshot = writeObject (statsMembers snapshot) := by
  have accepted : ascii "\x7b\"connections_accepted\":" =
      openBrace :: quote :: (ascii "connections_accepted" ++
        [quote, colon]) := by decide
  have requests : ascii ",\"requests_total\":" =
      comma :: quote :: (ascii "requests_total" ++ [quote, colon]) := by
    decide
  have responses2 : ascii ",\"responses_2xx\":" =
      comma :: quote :: (ascii "responses_2xx" ++ [quote, colon]) := by
    decide
  have responses4 : ascii ",\"responses_4xx\":" =
      comma :: quote :: (ascii "responses_4xx" ++ [quote, colon]) := by
    decide
  have responses5 : ascii ",\"responses_5xx\":" =
      comma :: quote :: (ascii "responses_5xx" ++ [quote, colon]) := by
    decide
  have active : ascii ",\"active_connections\":" =
      comma :: quote :: (ascii "active_connections" ++ [quote, colon]) := by
    decide
  have last : ascii "\x7d" = [closeBrace] := by decide
  unfold statsJson statsMembers
  rw [accepted, requests, responses2, responses4, responses5, active, last]
  simp only [writeObject, writeOthers, writeMember, List.append_assoc,
    List.cons_append, List.nil_append]

theorem figure_found (name : Bytes) (value : UInt64)
    (others : List Member) :
    figure ((name, value.toNat) :: others) name = some value := by
  have small := value.toNat_lt
  unfold figure
  rw [List.find?_cons_of_pos (by simp)]
  simp only [small, if_true, UInt64.ofNat_toNat]

theorem figure_other {name other : Bytes} (different : other ≠ name)
    (value : Nat) (others : List Member) :
    figure ((other, value) :: others) name = figure others name := by
  unfold figure
  rw [List.find?_cons_of_neg (by simpa using different)]

theorem figure_of_mem {members : List Member} {name : Bytes}
    {value : UInt64} (distinct : (members.map Prod.fst).Nodup)
    (member : (name, value.toNat) ∈ members) :
    figure members name = some value := by
  induction members with
  | nil => cases member
  | cons first others induction =>
      rw [List.map_cons, List.nodup_cons] at distinct
      rcases List.mem_cons.mp member with rfl | later
      · exact figure_found name value others
      · have different : first.1 ≠ name := by
          intro same
          apply distinct.1
          rw [same]
          exact List.mem_map_of_mem later
        rw [← induction distinct.2 later]
        exact figure_other different first.2 others

theorem statsMembers_plain (snapshot : StatsSnapshot) :
    ∀ member ∈ statsMembers snapshot, quote ∉ member.1 := by
  simp only [statsMembers, List.forall_mem_cons]
  exact ⟨by decide, by decide, by decide, by decide, by decide, by decide,
    by simp⟩

theorem statsMembers_distinct (snapshot : StatsSnapshot) :
    ((statsMembers snapshot).map Prod.fst).Nodup := by
  simp only [statsMembers, List.map_cons, List.map_nil]
  decide

/-- The body of an answer holds the whole snapshot. -/
theorem decodeStats_statsJson (snapshot : StatsSnapshot) :
    decodeStats (statsJson snapshot) = some snapshot := by
  have found : ∀ {name value},
      (name, UInt64.toNat value) ∈ statsMembers snapshot →
        figure (statsMembers snapshot) name = some value :=
    figure_of_mem (statsMembers_distinct snapshot)
  have accepted := @found (ascii "connections_accepted")
    snapshot.connectionsAccepted (by simp [statsMembers])
  have requests := @found (ascii "requests_total") snapshot.requestsTotal
    (by simp [statsMembers])
  have responses2 := @found (ascii "responses_2xx") snapshot.responses2xx
    (by simp [statsMembers])
  have responses4 := @found (ascii "responses_4xx") snapshot.responses4xx
    (by simp [statsMembers])
  have responses5 := @found (ascii "responses_5xx") snapshot.responses5xx
    (by simp [statsMembers])
  have active := @found (ascii "active_connections")
    snapshot.activeConnections (by simp [statsMembers])
  unfold decodeStats
  rw [statsJson_writeObject,
    readObject_writeObject (statsMembers_plain snapshot)]
  simp only [accepted, requests, responses2, responses4, responses5, active]

/-! ## The response -/

theorem routerIsApiRequest_stats {request : Request} {tail : Bytes}
    (target : request.target = some (ascii "/api/stats" ++ tail)) :
    routerIsApiRequest request = true := by
  rw [routerIsApiRequest, target, pathHasApiPrefix_iff]
  exact ⟨ascii "/stats" ++ tail, rfl, .inl (.cons _ _)⟩

theorem selectRoute_stats {tail : Bytes}
    (boundary : AtBoundary question tail) :
    selectRoute (ascii "/api/stats" ++ tail) .get none routes =
      .ok { method := .get, path := ascii "/api/stats"
            handler := .stats } := by
  have health : pathEquals (ascii "/api/stats" ++ tail)
      (ascii "/api/health") = false := rfl
  have echo : pathEquals (ascii "/api/stats" ++ tail)
      (ascii "/api/echo") = false := rfl
  have same : pathEquals (ascii "/api/stats" ++ tail)
      (ascii "/api/stats") = true :=
    (pathEquals_iff (by decide) _).mpr ⟨tail, rfl, boundary⟩
  simp [routes, selectRoute, health, echo, same, methodCompatible]

/-- What the dispatch decides on a request for the statistics. -/
structure StatsDecision (snapshot : StatsSnapshot) (decision : Decision) :
    Prop where
  ready : decision.responseReady = true
  status : decision.status = 200
  response : decision.response =
    typedText (ascii "application/json") 200 (statsJson snapshot)

theorem chooseResponse_stats {request : Request} {tail : Bytes}
    (method : request.method = .get)
    (target : request.target = some (ascii "/api/stats" ++ tail))
    (boundary : AtBoundary question tail) (config : ServerConfig)
    (fs : FileSystem) (snapshot : StatsSnapshot) {process : Process}
    (granted : process.allocs = []) :
    StatsDecision snapshot (chooseResponse config fs snapshot request
      process).1.closeOnStatus := by
  have built : (routerDispatch snapshot request httpResponseInit
      process).1 = (true, typedText (ascii "application/json") 200
        (statsJson snapshot)) := by
    unfold routerDispatch
    rw [target]
    simp only [method, selectRoute_stats boundary]
    change (handleStats snapshot httpResponseInit process).1 = _
    rw [handleStats, if_neg (Nat.not_le.mpr (statsJson_length snapshot))]
    exact buildWithType_granted _ _ _ _ granted
  have open_ : statusRequiresClose 200 = false := by decide
  unfold chooseResponse
  rw [if_pos (routerIsApiRequest_stats target)]
  generalize routerDispatch snapshot request httpResponseInit process =
    outcome at built ⊢
  obtain ⟨routed, later⟩ := outcome
  subst built
  simp only [Decision.closeOnStatus, typedText, open_, Bool.false_eq_true,
    and_false, if_false]
  exact ⟨rfl, rfl, rfl⟩

namespace StatsDecision

variable {snapshot : StatsSnapshot} {decision : Decision}

theorem presents (decided : StatsDecision snapshot decision) :
    Presents 200 decision.response := by
  have built : (buildWithType (ascii "application/json") httpResponseInit
      200 (some (statsJson snapshot)) {}).1 =
        (true, typedText (ascii "application/json") 200
          (statsJson snapshot)) := buildWithType_granted _ _ _ _ rfl
  have presented := @httpResponseBuildJson_presents (statsJson snapshot)
    httpResponseInit 200 {} (congrArg Prod.fst built)
  rw [httpResponseBuildJson, built] at presented
  rw [decided.response]
  exact presented

theorem fits (decided : StatsDecision snapshot decision) :
    decision.response.Fits := by
  apply decided.presents.fits
  have short := statsJson_length snapshot
  have small : statsJsonSize ≤ httpMaxBodySize := by decide
  rw [decided.response]
  change (statsJson snapshot).length ≤ httpMaxBodySize
  omega

theorem bodyBytes (decided : StatsDecision snapshot decision) :
    CinderHTTP.bodyBytes decision.response = statsJson snapshot := by
  rw [decided.response]
  exact List.take_length

end StatsDecision

/-! ## The connection -/

theorem clientIteration_statsOutput {config : ServerConfig}
    {exchange : Exchange} {state : ClientState} {request : Request}
    {tail : Bytes} (faultless : exchange.Faultless)
    (accepts : (clientIteration config exchange state).Accepts request)
    (method : request.method = .get)
    (target : request.target = some (ascii "/api/stats" ++ tail))
    (boundary : AtBoundary question tail) :
    ∃ response : Response, response.Presentable ∧
      response.statusCode = 200 ∧
      (clientIteration config exchange state).output =
        serializedBytes response ++ statsJson exchange.snapshot := by
  have delivered := accepts.delivery
  have granted : { state.process with
      allocs := exchange.buildAllocs }.allocs = [] := faultless.buildAllocs
  have decided := chooseResponse_stats method target boundary config
    exchange.fs exchange.snapshot granted
  obtain ⟨response, restyled, handed, success⟩ := sendOne_sound faultless
    decided.ready (by rw [decided.status]; decide)
    (by rw [decided.status]; exact decided.presents) decided.fits
    (by rw [decided.response]; simp [typedText]) (state.requests + 1)
    (chooseResponse config exchange.fs exchange.snapshot request
      { state.process with allocs := exchange.buildAllocs }).2
  have given : (clientIteration config exchange state).handed =
      some response := by
    rw [Iteration.handed, delivered]
    exact handed
  have sent : (clientIteration config exchange state).sendsSucceed =
      true := by
    rw [Iteration.sendsSucceed, delivered]
    exact Bool.or_eq_true_iff.mpr (.inr success)
  obtain ⟨presentable, output, _⟩ := clientIteration_output given sent
  have answered : parsedAsHead
      (clientIteration config exchange state).parsed = false := by
    obtain ⟨outcome, parsed, accepted, rfl⟩ := accepts
    simp [parsed, parsedAsHead, accepted, method]
  refine ⟨response, presentable,
    restyled.statusCode.trans decided.presents.2, ?_⟩
  rw [output, answered, if_neg Bool.false_ne_true, restyled.bodyBytes,
    decided.bodyBytes]

/-- Whatever the counters are, a client that asks for the statistics reads
the snapshot from the bytes that it gets. -/
theorem clientIteration_reports {config : ServerConfig}
    {exchange : Exchange} {state : ClientState} {request : Request}
    {tail : Bytes} (faultless : exchange.Faultless)
    (accepts : (clientIteration config exchange state).Accepts request)
    (method : request.method = .get)
    (target : request.target = some (ascii "/api/stats" ++ tail))
    (boundary : AtBoundary question tail) :
    wireStatus (clientIteration config exchange state).output = some 200 ∧
      (messageBody (clientIteration config exchange state).output).bind
        decodeStats = some exchange.snapshot := by
  obtain ⟨response, presentable, status, output⟩ :=
    clientIteration_statsOutput faultless accepts method target boundary
  rw [output]
  constructor
  · rw [wireStatus_serialized (by rw [status]; decide), status]
    rfl
  · rw [messageBody_serialized presentable, Option.bind_some]
    exact decodeStats_statsJson exchange.snapshot

/-- A server that has seen some traffic. -/
def busyExchange : Exchange :=
  { fs := bareFileSystem
    snapshot := ⟨18446744073709551615, 120, 100, 15, 5, 3⟩ }

def statsState : ClientState :=
  { reader := httpReaderInit
    pending := ascii "GET /api/stats?now HTTP/1.1\r\n\r\n"
    process := {}
    requests := 0 }

def statsRequest : Request :=
  { method := .get
    target := some (ascii "/api/stats" ++ ascii "?now")
    version := some (ascii "HTTP/1.1")
    headers := []
    body := [] }

theorem busyExchange_faultless : busyExchange.Faultless :=
  { read := ⟨by simp [busyExchange], by simp [busyExchange]⟩
    parseAllocs := rfl
    buildAllocs := rfl
    policyAllocs := rfl
    sendAllocs := rfl
    sends := by simp [busyExchange] }

theorem statsState_accepts :
    (clientIteration sampleConfig busyExchange statsState).Accepts
      statsRequest :=
  clientIteration_accepts (ascii "GET /api/stats?now HTTP/1.1\r\n\r\n")
    (by decide +kernel) (by decide +kernel)

theorem clientIteration_reports_busy :
    wireStatus (clientIteration sampleConfig busyExchange
        statsState).output = some 200 ∧
      (messageBody (clientIteration sampleConfig busyExchange
        statsState).output).bind decodeStats =
          some busyExchange.snapshot :=
  clientIteration_reports busyExchange_faultless statsState_accepts rfl rfl
    (.cons _ _)

end CinderHTTP
