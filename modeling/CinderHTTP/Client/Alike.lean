import CinderHTTP.Client.Answer
import CinderHTTP.Client.Granted

/-!
# Requests that are answered alike

Two properties of pairs of passes.  A HEAD request is answered like the GET
request with the same target and fields, down to the last byte of the header
section, and without a body.  A query changes nothing at all.  In both cases
the dispatch makes the same decision, because no stage of it looks at what the
requests differ in.
-/

namespace CinderHTTP

/-- The pass read a message that was parsed to this request. -/
def Iteration.Accepts (iteration : Iteration) (request : Request) : Prop :=
  ∃ outcome, iteration.parsed = some outcome ∧ outcome.result = .ok () ∧
    outcome.request = request

theorem clientIteration_accepts {config : ServerConfig}
    {exchange : Exchange} {state : ClientState} (raw : Bytes)
    {request : Request}
    (read : (clientIteration config exchange state).read.exit.result =
      .ok raw)
    (parsed : httpParseRequest raw exchange.parseAllocs =
      { exit := .parsed, request := request }) :
    (clientIteration config exchange state).Accepts request := by
  have accepted : (httpParseRequest raw exchange.parseAllocs).result =
      .ok () := by
    rw [parsed]
    rfl
  exact ⟨_, (clientIteration_accepted read accepted).1, accepted,
    congrArg ParseOutcome.request parsed⟩

theorem Iteration.Accepts.delivery {config : ServerConfig}
    {exchange : Exchange} {state : ClientState} {request : Request}
    (accepts : (clientIteration config exchange state).Accepts request) :
    (clientIteration config exchange state).delivery =
      some (answerRequest config exchange (state.requests + 1) request
        state.process).1 := by
  obtain ⟨outcome, parsed, accepted, rfl⟩ := accepts
  exact clientIteration_answer parsed accepted

theorem Iteration.Accepts.wellFormed {config : ServerConfig}
    {exchange : Exchange} {state : ClientState} {request : Request}
    (accepts : (clientIteration config exchange state).Accepts request) :
    (∃ target, request.target = some target) ∧
      CleanValue (echoContentType request) := by
  obtain ⟨outcome, parsed, accepted, rfl⟩ := accepts
  obtain ⟨raw, _, rfl⟩ := clientIteration_parsed parsed
  obtain ⟨parts, valid, _, request⟩ := httpParseRequest_parsed
    ((ParseOutcome.result_eq_ok_iff _).mp accepted)
  rw [request]
  exact ⟨⟨parts.target, rfl⟩, valid.echoContentType_clean⟩

/-! ## HEAD and GET -/

theorem methodCompatible_head {method : HttpMethod}
    (other : method ≠ .head) :
    methodCompatible method .head = methodCompatible method .get := by
  cases method with
  | head => exact absurd rfl other
  | get | post | unknown => rfl

/-- No route is for HEAD alone, so both methods select the same one. -/
theorem selectRoute_head (target : Bytes) {table : List Route}
    (others : ∀ route ∈ table, route.method ≠ .head)
    (matched : Option Bytes) :
    selectRoute target .head matched table =
      selectRoute target .get matched table := by
  induction table generalizing matched with
  | nil => rfl
  | cons route table induction =>
      have rest := induction fun other member =>
        others other (List.mem_cons_of_mem _ member)
      rw [selectRoute, selectRoute,
        methodCompatible_head (others route List.mem_cons_self), rest, rest]

theorem routerDispatch_head (snapshot : StatsSnapshot) (request : Request)
    (response : Response) (process : Process) :
    routerDispatch snapshot { request with method := .head } response
        process =
      routerDispatch snapshot { request with method := .get } response
        process := by
  unfold routerDispatch
  simp only
  cases request.target with
  | none => rfl
  | some target =>
      simp only
      rw [selectRoute_head target (by decide)]
      rcases selectRoute target .get none routes with
        (_ | path) | ⟨method, path, handler⟩
      · rfl
      · rfl
      · cases handler <;> rfl

theorem chooseResponse_head (config : ServerConfig) (fs : FileSystem)
    (snapshot : StatsSnapshot) (request : Request) (process : Process) :
    chooseResponse config fs snapshot { request with method := .head }
        process =
      ({ (chooseResponse config fs snapshot { request with method := .get }
          process).1 with omitBody := true },
        (chooseResponse config fs snapshot { request with method := .get }
          process).2) := by
  have sameRoute : routerIsApiRequest { request with method := .head } =
      routerIsApiRequest { request with method := .get } := rfl
  have sameFile : handleStaticGetHead config fs
      { request with method := .head } httpResponseInit process =
        handleStaticGetHead config fs { request with method := .get }
          httpResponseInit process := rfl
  have sameKeep : httpRequestWantsKeepAlive
      { request with method := .head } =
        httpRequestWantsKeepAlive { request with method := .get } := rfl
  unfold chooseResponse
  simp only [routerDispatch_head, sameRoute, sameFile, sameKeep,
    reduceCtorEq, or_true, or_false, if_true, decide_true]
  split_ifs
  · generalize routerDispatch snapshot { request with method := .get }
      httpResponseInit process = routed
    obtain ⟨⟨_ | _, response⟩, later⟩ := routed
    · dsimp only
    · dsimp only
  · dsimp only

theorem Decision.closeOnStatus_omitBody (decision : Decision)
    (omitBody : Bool) :
    { decision with omitBody := omitBody }.closeOnStatus =
      { decision.closeOnStatus with omitBody := omitBody } := by
  unfold Decision.closeOnStatus
  split_ifs <;> rfl

theorem Decision.limit_omitBody (decision : Decision) (omitBody : Bool)
    (requests : Nat) :
    { decision with omitBody := omitBody }.limit requests =
      { decision.limit requests with omitBody := omitBody } := by
  unfold Decision.limit
  split_ifs <;> rfl

/-- Leaving out the body changes at most whether the sending succeeds. -/
theorem deliver_omitBody {exchange other : Exchange} (decision : Decision)
    (process : Process) (omitBody : Bool)
    (samePolicy : other.policyAllocs = exchange.policyAllocs) :
    (deliver other { decision with omitBody := omitBody }
        process).1.handed = (deliver exchange decision process).1.handed ∧
      (deliver other { decision with omitBody := omitBody }
        process).1.status = (deliver exchange decision process).1.status ∧
      ((deliver other { decision with omitBody := omitBody }
          process).1.sending.success =
          (deliver exchange decision process).1.sending.success →
        (deliver other { decision with omitBody := omitBody }
          process).1.continues =
          (deliver exchange decision process).1.continues) := by
  have samePolicies : announcePolicy { decision with omitBody := omitBody }
      { process with allocs := other.policyAllocs } =
        announcePolicy decision
          { process with allocs := exchange.policyAllocs } := by
    rw [samePolicy]
    rfl
  unfold deliver
  simp only [samePolicies]
  split_ifs
  · refine ⟨rfl, rfl, ?_⟩
    intro same
    simp only at same ⊢
    rw [same]
  · exact ⟨rfl, rfl, fun _ => rfl⟩

theorem answerRequest_head {getExchange headExchange : Exchange}
    (sameFs : headExchange.fs = getExchange.fs)
    (sameSnapshot : headExchange.snapshot = getExchange.snapshot)
    (sameBuild : headExchange.buildAllocs = getExchange.buildAllocs)
    (samePolicy : headExchange.policyAllocs = getExchange.policyAllocs)
    (config : ServerConfig) (requests : Nat) (request : Request)
    (process : Process) {get head : Delivery}
    (answered : get = (answerRequest config getExchange requests
      { request with method := .get } process).1)
    (mirrored : head = (answerRequest config headExchange requests
      { request with method := .head } process).1) :
    head.handed = get.handed ∧ head.status = get.status ∧
      (head.sending.success = get.sending.success →
        head.continues = get.continues) := by
  rw [answered, mirrored]
  unfold answerRequest sendOne
  simp only [sameFs, sameSnapshot, sameBuild, chooseResponse_head,
    Decision.closeOnStatus_omitBody, Decision.limit_omitBody]
  exact deliver_omitBody _ _ _ samePolicy

/-- No allocation fails behind the parser. -/
structure Exchange.Granted (exchange : Exchange) : Prop where
  buildAllocs : exchange.buildAllocs = []
  policyAllocs : exchange.policyAllocs = []
  sendAllocs : exchange.sendAllocs = []

theorem Iteration.Accepts.handed {config : ServerConfig}
    {exchange : Exchange} {state : ClientState} {request : Request}
    (accepts : (clientIteration config exchange state).Accepts request)
    (granted : exchange.Granted) :
    ∃ response, (clientIteration config exchange state).handed =
      some response := by
  obtain ⟨⟨target, targeted⟩, clean⟩ := accepts.wellFormed
  obtain ⟨ready, known⟩ := chooseResponse_granted targeted clean config
    exchange.fs exchange.snapshot
    (show { state.process with
      allocs := exchange.buildAllocs }.allocs = [] from granted.buildAllocs)
  have same := (chooseResponse config exchange.fs exchange.snapshot request
    { state.process with allocs := exchange.buildAllocs }).1.closeOnStatus_fields
  rw [← same.1] at ready
  rw [← same.2] at known
  obtain ⟨⟨response, handed⟩, _⟩ := sendOne_ready exchange
    (state.requests + 1) _ (chooseResponse config exchange.fs
      exchange.snapshot request
      { state.process with allocs := exchange.buildAllocs }).2 ready known
  refine ⟨response, ?_⟩
  rw [Iteration.handed, accepts.delivery]
  exact handed

/-- The answer to HEAD is the header section of the answer to GET. -/
structure Mirrors (get head : Iteration) : Prop where
  status : ∃ status, get.delivery.map Delivery.status = some status ∧
    head.delivery.map Delivery.status = some status
  persistence : head.continues = get.continues
  bytes : ∃ section_ body, get.output = section_ ++ body ∧
    head.output = section_ ∧ 4 ≤ section_.length ∧
    findInfix blankLine get.output = some (section_.length - 4)

/-- Requests that are equal but for the methods GET and HEAD, in the same
state of the server and without failures, are answered alike. -/
theorem clientIteration_head_mirrors_get (config : ServerConfig)
    (getExchange headExchange : Exchange)
    (getState headState : ClientState) (request : Request)
    (get : (clientIteration config getExchange getState).Accepts
      { request with method := .get })
    (head : (clientIteration config headExchange headState).Accepts
      { request with method := .head })
    (sameFs : headExchange.fs = getExchange.fs)
    (sameSnapshot : headExchange.snapshot = getExchange.snapshot)
    (sameProcess : headState.process = getState.process)
    (sameIndex : headState.requests = getState.requests)
    (getGranted : getExchange.Granted) (headGranted : headExchange.Granted)
    (getSent : (clientIteration config getExchange
      getState).sendsSucceed = true)
    (headSent : (clientIteration config headExchange
      headState).sendsSucceed = true) :
    Mirrors (clientIteration config getExchange getState)
      (clientIteration config headExchange headState) := by
  obtain ⟨response, getHanded⟩ := get.handed getGranted
  have getDelivery := get.delivery
  have headDelivery := head.delivery
  rw [sameProcess, sameIndex] at headDelivery
  obtain ⟨sameHanded, sameStatus, samePersistence⟩ := answerRequest_head
    sameFs sameSnapshot
    (headGranted.buildAllocs.trans getGranted.buildAllocs.symm)
    (headGranted.policyAllocs.trans getGranted.policyAllocs.symm)
    config (getState.requests + 1) request getState.process rfl rfl
  have headHanded : (clientIteration config headExchange headState).handed =
      some response := by
    rw [← getHanded, Iteration.handed, Iteration.handed, getDelivery,
      headDelivery]
    exact sameHanded
  obtain ⟨presentable, getOutput, _⟩ :=
    clientIteration_output getHanded getSent
  obtain ⟨_, headOutput, _⟩ := clientIteration_output headHanded headSent
  obtain ⟨getOutcome, getParsed, getAccepted, getRequest⟩ := get
  obtain ⟨headOutcome, headParsed, headAccepted, headRequest⟩ := head
  rw [getParsed, parsedAsHead, getAccepted, getRequest] at getOutput
  rw [headParsed, parsedAsHead, headAccepted, headRequest] at headOutput
  constructor
  · refine ⟨_, congrArg (Option.map Delivery.status) getDelivery, ?_⟩
    rw [headDelivery, Option.map_some, sameStatus]
  · rw [Iteration.continues, Iteration.continues, getDelivery, headDelivery]
    apply samePersistence
    rw [Iteration.sending_success getDelivery getHanded getSent,
      Iteration.sending_success headDelivery headHanded headSent]
  · refine ⟨serializedBytes response, bodyBytes response, ?_, ?_,
      serializedBytes_long response, ?_⟩
    · simpa using getOutput
    · simpa using headOutput
    · rw [getOutput]
      exact findInfix_serialized presentable.tidy _

/-- A message that asks for a page. -/
def pageMessage (beginning : Bytes) : Bytes :=
  beginning ++ ascii " HTTP/1.1\r\n\r\n"

def pageState (beginning : Bytes) : ClientState :=
  { reader := httpReaderInit, pending := pageMessage beginning
    process := {}, requests := 0 }

def pageExchange : Exchange :=
  { fs := flatFileSystem samplePage, snapshot := ⟨0, 0, 0, 0, 0, 0⟩ }

def pageRequest : Request :=
  { method := .get
    target := some (ascii "/a.txt")
    version := some (ascii "HTTP/1.1")
    headers := []
    body := [] }

theorem pageState_accepts :
    (clientIteration sampleConfig pageExchange
      (pageState (ascii "GET /a.txt"))).Accepts pageRequest :=
  clientIteration_accepts (pageMessage (ascii "GET /a.txt"))
    (by decide +kernel) (by decide +kernel)

theorem clientIteration_head_mirrors_get_page :
    Mirrors
      (clientIteration sampleConfig pageExchange
        (pageState (ascii "GET /a.txt")))
      (clientIteration sampleConfig pageExchange
        (pageState (ascii "HEAD /a.txt"))) :=
  clientIteration_head_mirrors_get sampleConfig pageExchange pageExchange
    (pageState (ascii "GET /a.txt")) (pageState (ascii "HEAD /a.txt"))
    pageRequest pageState_accepts
    (clientIteration_accepts (pageMessage (ascii "HEAD /a.txt"))
      (by decide +kernel) (by decide +kernel))
    rfl rfl rfl rfl ⟨rfl, rfl, rfl⟩ ⟨rfl, rfl, rfl⟩ (by decide +kernel)
    (by decide +kernel)

/-! ## Queries -/

theorem pathEquals_query (target path query : Bytes) :
    pathEquals (target ++ question :: query) path =
      pathEquals target path := by
  rw [pathEquals_eq_decide, pathEquals_eq_decide, requestPath, requestPath,
    takeWhile_append_stop (by decide)]

theorem startsWith_query (target text query : Bytes) :
    startsWith (target ++ question :: query) text =
      startsWith target text := by
  fun_induction startsWith target text with
  | case1 => simp [startsWith]
  | case2 => simp [startsWith]
  | case3 character target expected text stopped =>
      rw [List.cons_append, startsWith, if_pos stopped]
  | case4 character target expected text same induction =>
      rw [List.cons_append, startsWith, if_neg same]
      exact induction

theorem pathPortion_query (target query : Bytes) :
    pathPortion (target ++ question :: query) = pathPortion target := by
  cases target with
  | nil => rfl
  | cons first rest =>
      unfold pathPortion
      rw [takeWhile_append_stop (by decide)]
      rfl

/-- The router and the static files do not see a query. -/
structure QueryIgnored (plain queried : Request) : Prop where
  api : routerIsApiRequest queried = routerIsApiRequest plain
  router : ∀ snapshot response process,
    routerDispatch snapshot queried response process =
      routerDispatch snapshot plain response process
  static : ∀ fs documentRoot response process,
    staticFilesServe fs documentRoot queried response process =
      staticFilesServe fs documentRoot plain response process

theorem selectRoute_query (target query : Bytes) (method : HttpMethod)
    (matched : Option Bytes) (table : List Route) :
    selectRoute (target ++ question :: query) method matched table =
      selectRoute target method matched table := by
  induction table generalizing matched with
  | nil => rfl
  | cons route table induction =>
      rw [selectRoute, selectRoute, pathEquals_query, induction, induction]

theorem queryIgnored (request : Request) (target query : Bytes) :
    QueryIgnored { request with target := some target }
      { request with target := some (target ++ question :: query) } := by
  constructor
  · simp only [routerIsApiRequest, pathHasApiPrefix, pathEquals_query,
      startsWith_query]
  · intro snapshot response process
    unfold routerDispatch
    simp only [selectRoute_query]
    rcases selectRoute target request.method none routes with
      (_ | path) | ⟨method, path, handler⟩
    · rfl
    · rfl
    · cases handler <;> rfl
  · intro fs documentRoot response process
    unfold staticFilesServe findFile relativePath staticFilesExtractPath
    simp only [pathPortion_query]

theorem QueryIgnored.chooseResponse {request : Request}
    {target query : Bytes}
    (ignored : QueryIgnored { request with target := some target }
      { request with target := some (target ++ question :: query) })
    (config : ServerConfig) (fs : FileSystem) (snapshot : StatsSnapshot)
    (process : Process) :
    CinderHTTP.chooseResponse config fs snapshot
        { request with target := some (target ++ question :: query) }
        process =
      CinderHTTP.chooseResponse config fs snapshot
        { request with target := some target } process := by
  have sameKeep : httpRequestWantsKeepAlive
      { request with target := some (target ++ question :: query) } =
        httpRequestWantsKeepAlive
          { request with target := some target } := rfl
  unfold CinderHTTP.chooseResponse handleStaticGetHead
  simp only [ignored.api, ignored.router, ignored.static, sameKeep]

/-- A query has no influence, whatever the environment answers: neither on
the router, nor on the static files, nor on what a pass decides and sends. -/
theorem clientIteration_ignores_query (request : Request)
    (target query : Bytes) :
    QueryIgnored { request with target := some target }
        { request with target := some (target ++ question :: query) } ∧
      ∀ (config : ServerConfig) (exchange : Exchange) (read : ReadEnv)
        (parseAllocs : Allocs) (plainState queriedState : ClientState),
        queriedState.process = plainState.process →
        queriedState.requests = plainState.requests →
        (clientIteration config exchange plainState).Accepts
          { request with target := some target } →
        (clientIteration config
          { exchange with read := read, parseAllocs := parseAllocs }
          queriedState).Accepts
            { request with target := some (target ++ question :: query) } →
        (clientIteration config
          { exchange with read := read, parseAllocs := parseAllocs }
          queriedState).delivery =
            (clientIteration config exchange plainState).delivery := by
  have ignored := queryIgnored request target query
  refine ⟨ignored, ?_⟩
  intro config exchange read parseAllocs plainState queriedState sameProcess
    sameRequests plain queried
  rw [plain.delivery, queried.delivery, sameProcess, sameRequests,
    answerRequest, answerRequest, ignored.chooseResponse]
  rfl

theorem clientIteration_ignores_query_page :
    (clientIteration sampleConfig pageExchange
        (pageState (ascii "GET /a.txt?/../b#c"))).delivery =
      (clientIteration sampleConfig pageExchange
        (pageState (ascii "GET /a.txt"))).delivery :=
  (clientIteration_ignores_query pageRequest (ascii "/a.txt")
    (ascii "/../b#c")).2 sampleConfig pageExchange {} []
    (pageState (ascii "GET /a.txt"))
    (pageState (ascii "GET /a.txt?/../b#c")) rfl rfl pageState_accepts
    (clientIteration_accepts (pageMessage (ascii "GET /a.txt?/../b#c"))
      (by decide +kernel) (by decide +kernel))

end CinderHTTP
