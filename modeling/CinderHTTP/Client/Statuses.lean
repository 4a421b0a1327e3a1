import CinderHTTP.Client.Synchronization

/-!
# Statuses

The status that `client_handle` reports to the counters is the one in the
response it has sent, and a recipient reads it off the status line.  There are
ten of them, and a pass that could not read a request reports an error.
-/

namespace CinderHTTP

/-- The statuses of error pages. -/
def errorStatuses : List Int :=
  [400, 403, 404, 405, 408, 413, 500, 501, 505]

/-- The statuses of a pass, by what was read. -/
def statusesBehind : Except ReadError Bytes → List Int
  | .error _ => errorStatuses
  | .ok _ => 200 :: errorStatuses

/-! ## Decisions -/

theorem statusForReadResult_error (failure : ReadError) :
    statusForReadResult failure ∈ errorStatuses := by
  cases failure <;> decide

theorem statusForParseResult_error (failure : ParseError) :
    statusForParseResult failure ∈ errorStatuses := by
  cases failure <;> decide

theorem statusForStaticResult_error (failure : StaticFileError) :
    statusForStaticResult failure ∈ errorStatuses := by
  cases failure <;> decide

theorem decideError_status {config : ServerConfig} {fs : FileSystem}
    {status : Int} {process : Process} (error : status ∈ errorStatuses)
    (known : (decideError config fs status process).1.status ≥ 0) :
    (decideError config fs status process).1.status ∈ errorStatuses := by
  have same := (buildStaticErrorResponse_presents known).1
  simp only [decideError]
  rw [same]
  exact error

theorem decideParseError_status {config : ServerConfig} {fs : FileSystem}
    {failure : ParseError} {process : Process}
    (known : (decideParseError config fs failure process).1.status ≥ 0) :
    (decideParseError config fs failure process).1.status ∈
      errorStatuses := by
  simp only [decideParseError] at known ⊢
  split_ifs at known ⊢
  · exact statusForParseResult_error failure
  · cases known

theorem handleStaticGetHead_status {config : ServerConfig}
    {fs : FileSystem} {request : Request} {response : Response}
    {process : Process}
    (known : (handleStaticGetHead config fs request response
      process).1.1 ≥ 0) :
    (handleStaticGetHead config fs request response process).1.1 ∈
      200 :: errorStatuses := by
  unfold handleStaticGetHead at known ⊢
  generalize staticFilesServe fs config.documentRoot request response
    process = served at known ⊢
  obtain ⟨⟨failure | ⟨⟩, page⟩, between⟩ := served
  · simp only at known ⊢
    rw [(buildStaticErrorResponse_presents known).1]
    exact List.mem_cons_of_mem _ (statusForStaticResult_error failure)
  · exact List.mem_cons_self

theorem chooseResponse_status {config : ServerConfig} {fs : FileSystem}
    {snapshot : StatsSnapshot} {request : Request} {process : Process}
    (clean : CleanValue (echoContentType request))
    (known : (chooseResponse config fs snapshot request
      process).1.status ≥ 0) :
    (chooseResponse config fs snapshot request process).1.status ∈
      200 :: errorStatuses := by
  unfold chooseResponse at known ⊢
  simp only at known ⊢
  split_ifs at known ⊢
  · rcases routed : routerDispatch snapshot request httpResponseInit
      process with ⟨⟨_ | _, response⟩, between⟩
    · simp only [routed] at known ⊢
      rw [(buildStaticErrorResponse_presents known).1]
      decide
    · obtain ⟨status, member, presents⟩ :=
        routerDispatch_presents clean (congrArg (·.1.1) routed)
      rw [routed] at presents
      have table : ∀ status ∈ routerStatuses,
          status ∈ 200 :: errorStatuses := by decide
      have same : response.statusCode = status := presents.2
      simp only
      rw [same]
      exact table status member
  · exact handleStaticGetHead_status known
  · dsimp only at known ⊢
    rw [(buildStaticErrorResponse_presents known).1]
    decide

theorem Decided.status {config : ServerConfig} {exchange : Exchange}
    {read : ReadOutcome} {process : Process} {decision : Decision}
    {parsed : Option ParseOutcome}
    (decided : Decided config exchange read process (some decision) parsed)
    (known : decision.status ≥ 0) :
    decision.status ∈ statusesBehind read.exit.result := by
  cases decided with
  | unread result =>
      rw [result]
      exact decideError_status (statusForReadResult_error _) known
  | refused result verdict =>
      rw [result]
      exact List.mem_cons_of_mem _ (decideParseError_status known)
  | accepted result verdict =>
      rename_i raw
      obtain ⟨parts, valid, _, request⟩ := httpParseRequest_parsed
        ((ParseOutcome.result_eq_ok_iff _).mp verdict)
      have clean : CleanValue (echoContentType
          (httpParseRequest raw exchange.parseAllocs).request) := by
        rw [request]
        exact valid.echoContentType_clean
      rw [(Decision.closeOnStatus_fields _).2] at known ⊢
      rw [result]
      exact chooseResponse_status clean known

/-! ## Passes -/

theorem deliver_success {exchange : Exchange} {decision : Decision}
    {process : Process}
    (success : (deliver exchange decision process).1.sending.success =
      true) :
    ∃ response, (deliver exchange decision process).1.handed =
      some response := by
  unfold deliver at success ⊢
  split_ifs at success ⊢
  exact ⟨_, rfl⟩

/-- What a pass that has sent a response reports. -/
structure Reported (iteration : Iteration) (delivery : Delivery) : Prop where
  listed : delivery.status ∈ statusesBehind iteration.read.exit.result
  onWire : wireStatus delivery.sending.sent = some delivery.status.toNat

theorem clientIteration_reported {config : ServerConfig}
    {exchange : Exchange} {state : ClientState} {delivery : Delivery}
    (delivered : (clientIteration config exchange state).delivery =
      some delivery)
    (success : delivery.sending.success = true) :
    Reported (clientIteration config exchange state) delivery := by
  have listed : (∃ response, delivery.handed = some response) ∧
      delivery.status ≥ 0 ∧ delivery.status ∈ statusesBehind
        (clientIteration config exchange state).read.exit.result := by
    obtain ⟨decision, later, decided, carried⟩ :=
      clientIteration_decided config exchange state
    rw [delivered] at carried
    cases decision with
    | none => cases carried
    | some decision =>
        rw [Option.map_some, Option.some.injEq] at carried
        subst carried
        obtain ⟨response, handed⟩ := deliver_success success
        have known := (deliver_handed handed).1
        have same : (sendOne exchange (state.requests + 1) decision
            later).1.status = decision.status := by
          rw [sendOne, (deliver_fields _ _ _).2,
            (decision.limit_fields _).2.1]
        rw [(decision.limit_fields _).2.1] at known
        rw [same]
        exact ⟨⟨response, handed⟩, known, decided.status known⟩
  obtain ⟨⟨response, handed⟩, known, member⟩ := listed
  have handover := clientIteration_handover delivered handed
  obtain ⟨process, transfer, sent⟩ := handover.sent
  rw [sent] at success
  refine ⟨member, ?_⟩
  rw [sent, (httpResponseSend_success handover.presentable.body success).1,
    ← handover.status]
  apply wireStatus_serialized
  rw [handover.status]
  exact known

end CinderHTTP
