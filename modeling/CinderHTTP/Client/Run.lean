import CinderHTTP.Client.Responses
import CinderHTTP.Reader.Segmentation

/-!
# Runs of the connection handler

What one pass of `client_handle` can do, said once, and how the passes of a
run follow each other: each pass starts with the bytes its predecessor left,
and another pass follows exactly when the pass went on.
-/

namespace CinderHTTP

/-- The response that a pass handed to `http_response_send`. -/
def Iteration.handed (iteration : Iteration) : Option Response :=
  iteration.delivery.bind Delivery.handed

/-- A header section with a Connection field that says close. -/
def AnnouncesClose (message : Bytes) : Prop :=
  ascii "close" ∈ connectionValues (sectionFields message)

/-! ## Sending -/

theorem announcePolicy_presents {decision : Decision} {statusCode : Int}
    (presents : Presents statusCode decision.response) (process : Process) :
    Presents statusCode (announcePolicy decision process).1.2 := by
  have applied := presents.1.policy
    (decision.keepAlive && !decision.forceClose) decision.version process
  have status := httpResponseApplyConnectionPolicy_statusCode
    decision.response (decision.keepAlive && !decision.forceClose)
    decision.version process
  unfold announcePolicy
  simp only
  split_ifs
  · exact ⟨applied, status.trans presents.2⟩
  · refine ⟨applied.policy _ _ _, ?_⟩
    rw [httpResponseApplyConnectionPolicy_statusCode, status]
    exact presents.2

/-- A response announces the end unless the connection was to persist and
the policy could be applied. -/
theorem announcePolicy_close_iff (decision : Decision) (process : Process) :
    ascii "close" ∈ connectionValues
        (responseFields (announcePolicy decision process).1.2) ↔
      ¬(decision.keepAlive = true ∧ decision.forceClose = false ∧
        (announcePolicy decision process).1.1 = true) := by
  unfold announcePolicy
  simp only
  by_cases applied : (httpResponseApplyConnectionPolicy decision.response
      (decision.keepAlive && !decision.forceClose) decision.version
      process).1.1 = true
  · rw [if_pos applied]
    by_cases persist : decision.keepAlive = true ∧
        decision.forceClose = false
    · simp only [persist.1, persist.2, Bool.not_false,
        Bool.and_self] at applied ⊢
      simp [policy_persist applied, applied]
    · have closing : (decision.keepAlive && !decision.forceClose) =
          false := by
        rw [Bool.and_eq_false_iff, Bool.not_eq_false']
        by_contra open_
        rw [not_or, Bool.not_eq_false, Bool.not_eq_true] at open_
        exact persist open_
      rw [closing, policy_close]
      constructor
      · intro _ both
        exact persist ⟨both.1, both.2.1⟩
      · intro _
        exact List.mem_singleton_self _
  · rw [if_neg applied, policy_close]
    simp

theorem deliver_handed {exchange : Exchange} {decision : Decision}
    {process : Process} {response : Response}
    (handed : (deliver exchange decision process).1.handed =
      some response) :
    decision.status ≥ 0 ∧
      response = (announcePolicy decision
        { process with allocs := exchange.policyAllocs }).1.2 ∧
      (∃ later, (deliver exchange decision process).1.sending =
        (httpResponseSend response decision.omitBody later
          exchange.transfer).1) ∧
      ((deliver exchange decision process).1.continues = true ↔
        (decision.keepAlive = true ∧ decision.forceClose = false ∧
          (announcePolicy decision
            { process with allocs := exchange.policyAllocs }).1.1 = true) ∧
        (deliver exchange decision process).1.sending.success = true) := by
  unfold deliver at handed ⊢
  split at handed
  · rename_i ready
    rw [if_pos ready]
    simp only [Option.some.injEq] at handed
    rw [← handed]
    refine ⟨?_, rfl, ⟨_, rfl⟩, ?_⟩
    · simpa using (Bool.and_eq_true_iff.mp ready).2
    · simp only [Bool.not_or, Bool.and_eq_true, Bool.not_eq_true',
        Bool.not_not]
      constructor
      · rintro ⟨⟨⟨force, flag⟩, success⟩, keep⟩
        exact ⟨⟨keep, force, by simpa using flag⟩, by simpa using success⟩
      · rintro ⟨⟨keep, force, flag⟩, success⟩
        exact ⟨⟨⟨force, by simpa using flag⟩, by simpa using success⟩, keep⟩
  · simp at handed

theorem Decision.Sound.limit {decision : Decision}
    {parsed : Option ParseOutcome} (sound : decision.Sound parsed)
    (requests : Nat) : (decision.limit requests).Sound parsed := by
  unfold Decision.limit
  split_ifs
  · exact
      { presents := sound.presents
        closing := fun _ => rfl
        refused := fun _ => rfl
        head := sound.head }
  · exact sound

/-! ## One pass -/

/-- What is known of a response that a pass handed over. -/
structure Handover (iteration : Iteration) (delivery : Delivery)
    (response : Response) : Prop where
  presentable : response.Presentable
  status : response.statusCode = delivery.status
  closing : statusRequiresClose response.statusCode = true →
    iteration.continues = false
  head : delivery.omitBody = parsedAsHead iteration.parsed
  sent : ∃ process transfer, delivery.sending =
    (httpResponseSend response delivery.omitBody process transfer).1
  persists : iteration.continues = true ↔
    ascii "close" ∉ connectionValues (responseFields response) ∧
      delivery.sending.success = true

theorem deliver_fields (exchange : Exchange) (decision : Decision)
    (process : Process) :
    (deliver exchange decision process).1.omitBody = decision.omitBody ∧
      (deliver exchange decision process).1.status = decision.status := by
  unfold deliver
  split_ifs <;> exact ⟨rfl, rfl⟩

theorem Decision.closeOnStatus_fields (decision : Decision) :
    decision.closeOnStatus.responseReady = decision.responseReady ∧
      decision.closeOnStatus.status = decision.status := by
  unfold Decision.closeOnStatus
  split_ifs <;> exact ⟨rfl, rfl⟩

theorem Decision.limit_fields (decision : Decision) (requests : Nat) :
    (decision.limit requests).responseReady = decision.responseReady ∧
      (decision.limit requests).status = decision.status ∧
      (decision.limit requests).response = decision.response := by
  unfold Decision.limit
  split_ifs <;> exact ⟨rfl, rfl, rfl⟩

theorem sendOne_ready (exchange : Exchange) (requests : Nat)
    (decision : Decision) (process : Process)
    (ready : decision.responseReady = true) (known : decision.status ≥ 0) :
    (∃ response, (sendOne exchange requests decision process).1.handed =
        some response) ∧
      (sendOne exchange requests decision process).1.status =
        decision.status := by
  obtain ⟨sameReady, sameStatus, _⟩ := decision.limit_fields requests
  rw [sendOne, (deliver_fields _ _ _).2, sameStatus]
  refine ⟨?_, rfl⟩
  unfold deliver
  rw [if_pos (by simp [sameReady, sameStatus, ready, known])]
  exact ⟨_, rfl⟩

theorem sendOne_handover {exchange : Exchange} {requests : Nat}
    {decision : Decision} {process : Process}
    {parsed : Option ParseOutcome} (sound : decision.Sound parsed)
    {iteration : Iteration} (sameParsed : iteration.parsed = parsed)
    (delivered : iteration.delivery =
      some (sendOne exchange requests decision process).1)
    {response : Response}
    (handed : (sendOne exchange requests decision process).1.handed =
      some response) :
    Handover iteration (sendOne exchange requests decision process).1
      response := by
  have limited := sound.limit requests
  have continues : iteration.continues =
      (sendOne exchange requests decision process).1.continues := by
    rw [Iteration.continues, delivered]
  unfold sendOne at handed continues ⊢
  obtain ⟨known, same, sending, persists⟩ := deliver_handed handed
  have presents := announcePolicy_presents (limited.presents known)
    { process with allocs := exchange.policyAllocs }
  have announced := announcePolicy_close_iff (decision.limit requests)
    { process with allocs := exchange.policyAllocs }
  rw [← same] at presents announced
  obtain ⟨omitBody, status⟩ := deliver_fields exchange
    (decision.limit requests) process
  constructor
  · exact presents.1
  · rw [status, presents.2]
  · intro closing
    rw [presents.2] at closing
    rw [continues, Bool.eq_false_iff]
    intro persistent
    have keep := (persists.mp persistent).1.1
    rw [limited.closing closing] at keep
    cases keep
  · rw [omitBody, limited.head, sameParsed]
  · obtain ⟨later, sent⟩ := sending
    rw [omitBody]
    exact ⟨later, exchange.transfer, sent⟩
  · rw [continues, persists, announced, not_not]

theorem clientIteration_read (config : ServerConfig) (exchange : Exchange)
    (state : ClientState) :
    (clientIteration config exchange state).read = httpReaderNextRequest
      { keepAliveTimeoutSec := config.keepAliveTimeoutSec
        requestTimeoutSec := config.requestTimeoutSec }
      state.reader state.pending exchange.read := by
  unfold clientIteration
  simp only
  split <;> rfl

theorem clientIteration_decided (config : ServerConfig)
    (exchange : Exchange) (state : ClientState) :
    ∃ decision later,
      Decided config exchange (clientIteration config exchange state).read
        { state.process with allocs := exchange.buildAllocs } decision
        (clientIteration config exchange state).parsed ∧
      (clientIteration config exchange state).delivery =
        decision.map fun decision =>
          (sendOne exchange (state.requests + 1) decision later).1 := by
  rw [clientIteration_read]
  have decided := decideResponse_decided config exchange
    state.reader.data.length
    (httpReaderNextRequest
      { keepAliveTimeoutSec := config.keepAliveTimeoutSec
        requestTimeoutSec := config.requestTimeoutSec }
      state.reader state.pending exchange.read) state.process
  unfold clientIteration
  simp only
  generalize decideResponse config exchange state.reader.data.length _
    state.process = outcome at decided ⊢
  obtain ⟨⟨_ | decision, parsed⟩, later⟩ := outcome
  · exact ⟨none, later, decided, rfl⟩
  · exact ⟨some decision, later, decided, rfl⟩

theorem clientIteration_handover {config : ServerConfig}
    {exchange : Exchange} {state : ClientState} {delivery : Delivery}
    {response : Response}
    (delivered : (clientIteration config exchange state).delivery =
      some delivery)
    (handed : delivery.handed = some response) :
    Handover (clientIteration config exchange state) delivery response := by
  obtain ⟨decision, later, decided, carried⟩ :=
    clientIteration_decided config exchange state
  cases decision with
  | none => rw [delivered] at carried; cases carried
  | some decision =>
      have same := carried
      rw [delivered, Option.map_some, Option.some.injEq] at same
      subst same
      exact sendOne_handover decided.sound rfl carried handed

/-- The loop only goes on behind a message that was read and parsed. -/
theorem clientIteration_continues {config : ServerConfig}
    {exchange : Exchange} {state : ClientState}
    (continued : (clientIteration config exchange state).continues = true) :
    ∃ raw outcome,
      (clientIteration config exchange state).read.exit.result = .ok raw ∧
      (clientIteration config exchange state).parsed = some outcome ∧
      outcome.result = .ok () := by
  obtain ⟨decision, later, decided, carried⟩ :=
    clientIteration_decided config exchange state
  rw [Iteration.continues, carried] at continued
  cases decision with
  | none => cases continued
  | some decision =>
      have keep := (deliver_continues continued).1
      have sound := decided.sound.limit (state.requests + 1)
      by_contra refused
      have closed := sound.refused (by
        intro outcome same accepted
        rw [same] at decided
        obtain ⟨raw, result, _⟩ := decided.parsed
        exact refused ⟨raw, outcome, result, same, accepted⟩)
      rw [closed] at keep
      cases keep

/-! ## Runs -/

theorem clientIteration_after (config : ServerConfig) (exchange : Exchange)
    (state : ClientState) :
    (clientIteration config exchange state).after.reader =
        (clientIteration config exchange state).read.reader ∧
      (clientIteration config exchange state).after.pending =
        (clientIteration config exchange state).read.pending := by
  unfold clientIteration
  simp only
  split <;> exact ⟨rfl, rfl⟩

/-- A message that a pass reads is the first one of the stream it finds. -/
theorem clientIteration_message {config : ServerConfig}
    {exchange : Exchange} {state : ClientState} {raw : Bytes}
    (result : (clientIteration config exchange state).read.exit.result =
      .ok raw) :
    frameStream (state.reader.data ++ state.pending) =
      .ok raw :: frameStream
        ((clientIteration config exchange state).after.reader.data ++
          (clientIteration config exchange state).after.pending) := by
  obtain ⟨sameReader, samePending⟩ :=
    clientIteration_after config exchange state
  rw [sameReader, samePending]
  rw [clientIteration_read] at result ⊢
  obtain ⟨framed, whole⟩ := httpReaderNextRequest_message result
  rw [whole] at framed ⊢
  exact frameStream_message framed

theorem clientLoop_eq (config : ServerConfig) (env : Nat → Exchange)
    (state : ClientState) :
    clientLoop config env state =
      clientIteration config (env 0) state ::
        if (clientIteration config (env 0) state).continues = true then
          clientLoop config (fun pass => env (pass + 1))
            (clientIteration config (env 0) state).after
        else [] := by
  rw [clientLoop]
  split_ifs <;> rfl

theorem clientLoop_ne_nil (config : ServerConfig) (env : Nat → Exchange)
    (state : ClientState) : clientLoop config env state ≠ [] := by
  rw [clientLoop_eq]
  simp

/-- The passes of a run: the state before each one, whether another one
follows, and the messages read so far. -/
theorem clientLoop_split {config : ServerConfig} {env : Nat → Exchange}
    {state : ClientState} {earlier later : List Iteration}
    {iteration : Iteration}
    (run : clientLoop config env state = earlier ++ iteration :: later) :
    ∃ before, iteration =
        clientIteration config (env earlier.length) before ∧
      (later ≠ [] ↔ iteration.continues = true) ∧
      frameStream (state.reader.data ++ state.pending) =
        earlier.map (fun previous => previous.read.exit.result) ++
          frameStream (before.reader.data ++ before.pending) := by
  induction earlier generalizing env state with
  | nil =>
      rw [clientLoop_eq, List.nil_append, List.cons.injEq] at run
      obtain ⟨rfl, rest⟩ := run
      refine ⟨state, rfl, ?_, rfl⟩
      rw [← rest]
      split_ifs with continued
      · simp [clientLoop_ne_nil, continued]
      · simp [continued]
  | cons first earlier induction =>
      rw [clientLoop_eq, List.cons_append, List.cons.injEq] at run
      obtain ⟨rfl, rest⟩ := run
      split_ifs at rest with continued
      · obtain ⟨before, same, follows, framed⟩ := induction rest
        obtain ⟨raw, _, result, _⟩ := clientIteration_continues continued
        refine ⟨before, same, follows, ?_⟩
        rw [clientIteration_message result, framed, List.map_cons, result,
          List.cons_append]
      · simp at rest

/-- A pass of the loop: what the environment answers in it, and the variables
before it. -/
structure ClientPass where
  exchange : Exchange
  before : ClientState

def ClientPass.iteration (config : ServerConfig) (pass : ClientPass) :
    Iteration :=
  clientIteration config pass.exchange pass.before

def clientPasses (config : ServerConfig) (env : Nat → Exchange)
    (state : ClientState) : List ClientPass :=
  let iteration := clientIteration config (env 0) state
  if _continued : iteration.continues = true then
    { exchange := env 0, before := state } ::
      clientPasses config (fun pass => env (pass + 1)) iteration.after
  else [{ exchange := env 0, before := state }]
termination_by httpMaxRequestsPerConnection - state.requests
decreasing_by
  have counted := clientIteration_requests _continued
  rw [counted.1]
  omega

/-- The passes of a connection. -/
def handlePasses (config : ServerConfig) (env : Nat → Exchange)
    (stream : Bytes) : List ClientPass :=
  clientPasses config env
    { reader := httpReaderInit, pending := stream, process := {}
      requests := 0 }

theorem clientLoop_passes (config : ServerConfig) (env : Nat → Exchange)
    (state : ClientState) :
    clientLoop config env state =
      (clientPasses config env state).map (ClientPass.iteration config) := by
  fun_induction clientPasses config env state with
  | case1 env state iteration continued induction =>
      rw [clientLoop_eq, List.map_cons, ← induction]
      exact congrArg _ (if_pos continued)
  | case2 env state iteration stopped =>
      rw [clientLoop_eq]
      exact congrArg _ (if_neg stopped)

theorem clientHandle_passes (config : ServerConfig) (env : Nat → Exchange)
    (stream : Bytes) :
    clientHandle config env stream =
      (handlePasses config env stream).map (ClientPass.iteration config) :=
  clientLoop_passes config env _

/-- The counter bounds the number of passes. -/
theorem clientLoop_length (config : ServerConfig) (env : Nat → Exchange)
    (state : ClientState)
    (below : state.requests < httpMaxRequestsPerConnection) :
    state.requests + (clientLoop config env state).length ≤
      httpMaxRequestsPerConnection := by
  fun_induction clientLoop config env state with
  | case1 env state iteration continued induction =>
      obtain ⟨counted, bounded⟩ := clientIteration_requests continued
      change iteration.after.requests = _ at counted
      rw [counted] at induction
      have rest := induction bounded
      rw [List.length_cons]
      omega
  | case2 env state iteration _ =>
      rw [List.length_singleton]
      exact below

end CinderHTTP
