import CinderHTTP.Connection.Policy
import CinderHTTP.Reader.Loop
import CinderHTTP.Router.Dispatch
import CinderHTTP.Static.Serve

/-!
# Handling one connection

`client_handle`: the loop that reads a request, chooses a response, announces
whether the connection persists, and sends.  Everything the environment
answers during one pass is an `Exchange`; the file system does not change
during a pass and the statistics are seen as a snapshot.  A run is the list of
the passes made, each with what it read, what it handed to
`http_response_send` and whether the loop went on.
-/

namespace CinderHTTP

structure ServerConfig where
  documentRoot : Bytes
  keepAliveTimeoutSec : Int
  requestTimeoutSec : Int
  deriving DecidableEq, Repr

def httpMaxRequestsPerConnection : Nat := 100

/-! ## Status codes -/

def statusForReadResult : ReadError → Int
  | .tooLarge => 413
  | .unsupportedTransferEncoding => 501
  | .timeout => 408
  | .invalidContentLength => 400
  | .badRequest => 400
  | .outOfMemory => 500
  | .clientClosed => 400
  | .ioError => 400

def statusForParseResult : ParseError → Int
  | .unsupportedMethod => 405
  | .unsupportedVersion => 505
  | .tooLarge => 413
  | .tooManyHeaders => 400
  | .invalidContentLength => 400
  | .unsupportedTransferEncoding => 501
  | .outOfMemory => 500
  | .badRequest => 400

def statusForStaticResult : StaticFileError → Int
  | .notFound => 404
  | .forbidden => 403
  | .badTarget => 400
  | .tooLarge => 413
  | .outOfMemory => 500
  | .ioError => 500

def errorHeadingForStatus : Int → Bytes
  | 400 => ascii "Bad Request"
  | 403 => ascii "Forbidden"
  | 404 => ascii "Not Found"
  | 405 => ascii "Method Not Allowed"
  | 408 => ascii "Request Timeout"
  | 413 => ascii "Payload Too Large"
  | 501 => ascii "Not Implemented"
  | 505 => ascii "HTTP Version Not Supported"
  | _ => ascii "Internal Server Error"

def statusRequiresClose (status : Int) : Bool :=
  [400, 408, 413, 501, 505, 500].contains status

/-! ## Choosing a response -/

/-- The error page for a status, or plain text when the page cannot be
built.  The result is the status, or -1. -/
def buildStaticErrorResponse (config : ServerConfig) (fs : FileSystem)
    (response : Response) (status : Int) (process : Process) :
    (Int × Response) × Process :=
  let destroyed := httpResponseDestroy response process
  let page :=
    if status = 404 then
      staticFilesBuildNotFound fs config.documentRoot destroyed.1 destroyed.2
    else
      staticFilesBuildError destroyed.1 status (errorHeadingForStatus status)
        destroyed.2
  if page.1.1 then ((status, page.1.2), page.2)
  else
    let cleared := httpResponseDestroy page.1.2 page.2
    let plain := httpResponseBuildText cleared.1 status
      (some (errorHeadingForStatus status)) cleared.2
    if plain.1.1 then ((status, plain.1.2), plain.2)
    else ((-1, plain.1.2), plain.2)

def handleStaticGetHead (config : ServerConfig) (fs : FileSystem)
    (request : Request) (response : Response) (process : Process) :
    (Int × Response) × Process :=
  match staticFilesServe fs config.documentRoot request response process with
  | ((.ok _, filled), process) => ((200, filled), process)
  | ((.error failure, unfilled), process) =>
      buildStaticErrorResponse config fs unfilled
        (statusForStaticResult failure) process

/-- The variables of one pass when it reaches `send_one`. -/
structure Decision where
  response : Response
  status : Int
  responseReady : Bool
  keepAlive : Bool
  forceClose : Bool
  omitBody : Bool
  version : Option Bytes
  deriving DecidableEq

/-- The branches that answer with an error page and close. -/
def decideError (config : ServerConfig) (fs : FileSystem) (status : Int)
    (process : Process) : Decision × Process :=
  let built := buildStaticErrorResponse config fs httpResponseInit status
    process
  ({ response := built.1.2
     status := built.1.1
     responseReady := built.1.1 ≥ 0
     keepAlive := false
     forceClose := built.1.1 ≥ 0
     omitBody := false
     version := none }, built.2)

/-- The branch taken when the parser refuses a message. -/
def decideParseError (config : ServerConfig) (fs : FileSystem)
    (failure : ParseError) (process : Process) : Decision × Process :=
  let status := statusForParseResult failure
  let built := buildStaticErrorResponse config fs httpResponseInit status
    process
  ({ response := built.1.2
     status := if built.1.1 ≥ 0 then status else -1
     responseReady := built.1.1 ≥ 0
     keepAlive := false
     forceClose := true
     omitBody := false
     version := none }, built.2)

/-- The dispatch of a parsed request. -/
def chooseResponse (config : ServerConfig) (fs : FileSystem)
    (snapshot : StatsSnapshot) (request : Request) (process : Process) :
    Decision × Process :=
  let decision := fun (built : Int × Response) (ready force : Bool) =>
    { response := built.2
      status := built.1
      responseReady := ready
      keepAlive := httpRequestWantsKeepAlive request
      forceClose := force
      omitBody := request.method = .head
      version := request.version : Decision }
  if routerIsApiRequest request then
    match routerDispatch snapshot request httpResponseInit process with
    | ((false, response), process) =>
        let built := buildStaticErrorResponse config fs response 500 process
        (decision built.1 (built.1.1 ≥ 0) true, built.2)
    | ((true, response), process) =>
        (decision (response.statusCode, response) true false, process)
  else if request.method = .get ∨ request.method = .head then
    let built := handleStaticGetHead config fs request httpResponseInit
      process
    (decision built.1 (built.1.1 ≥ 0) false, built.2)
  else
    let built := buildStaticErrorResponse config fs httpResponseInit 405
      process
    (decision built.1 (built.1.1 ≥ 0) false, built.2)

/-- The check behind the dispatch. -/
def Decision.closeOnStatus (decision : Decision) : Decision :=
  if decision.status ≥ 0 ∧ statusRequiresClose decision.status = true then
    { decision with forceClose := true, keepAlive := false }
  else decision

/-- Everything the environment answers during one pass. -/
structure Exchange where
  read : ReadEnv := {}
  parseAllocs : Allocs := []
  fs : FileSystem
  /-- The counters at the moment at which the pass asks for them. -/
  snapshot : StatsSnapshot
  buildAllocs : Allocs := []
  policyAllocs : Allocs := []
  sendAllocs : Allocs := []
  transfer : Transfer := {}

/-- The part of a pass between a read and `send_one`, with what the parser
said.  Without a decision the loop is left at once. -/
def decideResponse (config : ServerConfig) (exchange : Exchange)
    (bufferedBefore : Nat) (read : ReadOutcome) (process : Process) :
    (Option Decision × Option ParseOutcome) × Process :=
  let process := { process with allocs := exchange.buildAllocs }
  match read.exit.result with
  | .error .clientClosed => ((none, none), process)
  | .error .timeout =>
      if bufferedBefore = 0 ∧ read.reader.data.length = 0 then
        ((none, none), process)
      else
        let decided := decideError config exchange.fs 408 process
        ((some decided.1, none), decided.2)
  | .error .ioError => ((none, none), process)
  | .error failure =>
      let decided := decideError config exchange.fs
        (statusForReadResult failure) process
      ((some decided.1, none), decided.2)
  | .ok raw =>
      let parsed := httpParseRequest raw exchange.parseAllocs
      match parsed.result with
      | .error failure =>
          let decided := decideParseError config exchange.fs failure process
          ((some decided.1, some parsed), decided.2)
      | .ok _ =>
          let decided := chooseResponse config exchange.fs exchange.snapshot
            parsed.request process
          ((some decided.1.closeOnStatus, some parsed), decided.2)

/-! ## Sending -/

/-- The response after the policy was applied, with the flag for the first
attempt: when that fails the response is made to announce the end. -/
def announcePolicy (decision : Decision) (process : Process) :
    (Bool × Response) × Process :=
  let persist := decision.keepAlive && !decision.forceClose
  let applied := httpResponseApplyConnectionPolicy decision.response persist
    decision.version process
  if applied.1.1 then applied
  else
    let retried := httpResponseApplyConnectionPolicy applied.1.2 false
      decision.version applied.2
    ((false, retried.1.2), retried.2)

/-- What `send_one` does: the response handed to `http_response_send`, if
any, what became of it, and whether the loop goes on. -/
structure Delivery where
  handed : Option Response
  omitBody : Bool
  status : Int
  sending : Sending
  continues : Bool
  deriving DecidableEq

/-- The limit on the requests of one connection. -/
def Decision.limit (decision : Decision) (requests : Nat) : Decision :=
  if requests ≥ httpMaxRequestsPerConnection then
    { decision with forceClose := true, keepAlive := false }
  else decision

/-- The part of `send_one` behind the limit; `requests` counts this one. -/
def deliver (exchange : Exchange) (decision : Decision)
    (process : Process) : Delivery × Process :=
  if decision.responseReady && decision.status ≥ 0 then
    let announced := announcePolicy decision
      { process with allocs := exchange.policyAllocs }
    let sent := httpResponseSend announced.1.2 decision.omitBody
      { announced.2 with allocs := exchange.sendAllocs } exchange.transfer
    let forceClose :=
      decision.forceClose || !announced.1.1 || !sent.1.success
    ({ handed := some announced.1.2
       omitBody := decision.omitBody
       status := decision.status
       sending := sent.1
       continues := !(forceClose || !decision.keepAlive) },
      (httpResponseDestroy announced.1.2 sent.2).2)
  else
    ({ handed := none
       omitBody := decision.omitBody
       status := decision.status
       sending := { success := false, sent := [] }
       continues := false },
      (httpResponseDestroy decision.response process).2)

def sendOne (exchange : Exchange) (requests : Nat) (decision : Decision)
    (process : Process) : Delivery × Process :=
  deliver exchange (decision.limit requests) process

/-! ## The loop -/

structure ClientState where
  reader : Reader
  pending : Bytes
  process : Process
  requests : Nat

/-- One pass of the loop. -/
structure Iteration where
  read : ReadOutcome
  parsed : Option ParseOutcome
  delivery : Option Delivery
  after : ClientState

/-- Whether the loop goes on behind a pass. -/
def Iteration.continues (iteration : Iteration) : Bool :=
  match iteration.delivery with
  | none => false
  | some delivery => delivery.continues

def clientIteration (config : ServerConfig) (exchange : Exchange)
    (state : ClientState) : Iteration :=
  let read := httpReaderNextRequest
    { keepAliveTimeoutSec := config.keepAliveTimeoutSec
      requestTimeoutSec := config.requestTimeoutSec }
    state.reader state.pending exchange.read
  let decided := decideResponse config exchange state.reader.data.length read
    state.process
  match decided.1.1 with
  | none =>
      { read := read
        parsed := decided.1.2
        delivery := none
        after :=
          { reader := read.reader, pending := read.pending
            process := decided.2, requests := state.requests } }
  | some decision =>
      let sent := sendOne exchange (state.requests + 1) decision decided.2
      { read := read
        parsed := decided.1.2
        delivery := some sent.1
        after :=
          { reader := read.reader, pending := read.pending
            process := sent.2, requests := state.requests + 1 } }

theorem deliver_continues {exchange : Exchange} {decision : Decision}
    {process : Process}
    (continued : (deliver exchange decision process).1.continues = true) :
    decision.keepAlive = true ∧ decision.forceClose = false := by
  unfold deliver at continued
  split at continued
  · simp only [Bool.not_or, Bool.and_eq_true, Bool.not_eq_true',
      Bool.not_not] at continued
    exact ⟨continued.2, continued.1.1.1⟩
  · simp at continued

/-- The loop only goes on below the limit. -/
theorem clientIteration_requests {config : ServerConfig}
    {exchange : Exchange} {state : ClientState}
    (continued : (clientIteration config exchange state).continues = true) :
    (clientIteration config exchange state).after.requests =
        state.requests + 1 ∧
      state.requests + 1 < httpMaxRequestsPerConnection := by
  unfold clientIteration at continued ⊢
  simp only at continued ⊢
  split at continued
  · simp [Iteration.continues] at continued
  · rename_i decision decided
    refine ⟨rfl, ?_⟩
    by_contra reached
    have closed := deliver_continues continued
    simp [Decision.limit, Nat.le_of_not_lt reached] at closed

def clientLoop (config : ServerConfig) (env : Nat → Exchange)
    (state : ClientState) : List Iteration :=
  let iteration := clientIteration config (env 0) state
  if _continued : iteration.continues = true then
    iteration :: clientLoop config (fun pass => env (pass + 1))
      iteration.after
  else [iteration]
termination_by httpMaxRequestsPerConnection - state.requests
decreasing_by
  have counted := clientIteration_requests _continued
  rw [counted.1]
  omega

/-- A connection whose peer sends the given bytes; `env` gives the answers
of the environment during each pass. -/
def clientHandle (config : ServerConfig) (env : Nat → Exchange)
    (stream : Bytes) : List Iteration :=
  clientLoop config env
    { reader := httpReaderInit, pending := stream, process := {}
      requests := 0 }

end CinderHTTP
