import CinderHTTP.Client.Synchronization

/-!
# Answering one request

The part of a pass of `client_handle` behind an accepted message is a function
of the parsed request alone, `answerRequest`.  A response that fits the
buffers of the serializer is sent as a whole when the environment causes no
failure.
-/

namespace CinderHTTP

/-- The dispatch of an accepted request and everything behind it. -/
def answerRequest (config : ServerConfig) (exchange : Exchange)
    (requests : Nat) (request : Request) (process : Process) :
    Delivery × Process :=
  let decided := chooseResponse config exchange.fs exchange.snapshot request
    { process with allocs := exchange.buildAllocs }
  sendOne exchange requests decided.1.closeOnStatus decided.2

theorem decideResponse_accepted {config : ServerConfig}
    {exchange : Exchange} {buffered : Nat} {read : ReadOutcome}
    {process : Process} {raw : Bytes}
    (result : read.exit.result = .ok raw)
    (accepted : (httpParseRequest raw exchange.parseAllocs).result = .ok ()) :
    decideResponse config exchange buffered read process =
      ((some (chooseResponse config exchange.fs exchange.snapshot
          (httpParseRequest raw exchange.parseAllocs).request
          { process with allocs := exchange.buildAllocs }).1.closeOnStatus,
        some (httpParseRequest raw exchange.parseAllocs)),
        (chooseResponse config exchange.fs exchange.snapshot
          (httpParseRequest raw exchange.parseAllocs).request
          { process with allocs := exchange.buildAllocs }).2) := by
  unfold decideResponse
  simp only [result, accepted]

theorem clientIteration_accepted {config : ServerConfig}
    {exchange : Exchange} {state : ClientState} {raw : Bytes}
    (result : (clientIteration config exchange state).read.exit.result =
      .ok raw)
    (accepted : (httpParseRequest raw exchange.parseAllocs).result = .ok ()) :
    (clientIteration config exchange state).parsed =
        some (httpParseRequest raw exchange.parseAllocs) ∧
      (clientIteration config exchange state).delivery =
        some (answerRequest config exchange (state.requests + 1)
          (httpParseRequest raw exchange.parseAllocs).request
          state.process).1 := by
  rw [clientIteration_read] at result
  unfold clientIteration
  simp only [decideResponse_accepted result accepted, true_and]
  rfl

theorem clientIteration_parsed {config : ServerConfig}
    {exchange : Exchange} {state : ClientState} {outcome : ParseOutcome}
    (parsed : (clientIteration config exchange state).parsed =
      some outcome) :
    ∃ raw, (clientIteration config exchange state).read.exit.result =
        .ok raw ∧
      outcome = httpParseRequest raw exchange.parseAllocs := by
  obtain ⟨decision, later, decided, _⟩ :=
    clientIteration_decided config exchange state
  rw [parsed] at decided
  exact decided.parsed

theorem clientIteration_answer {config : ServerConfig}
    {exchange : Exchange} {state : ClientState} {outcome : ParseOutcome}
    (parsed : (clientIteration config exchange state).parsed = some outcome)
    (accepted : outcome.result = .ok ()) :
    (clientIteration config exchange state).delivery =
      some (answerRequest config exchange (state.requests + 1)
        outcome.request state.process).1 := by
  obtain ⟨raw, result, rfl⟩ := clientIteration_parsed parsed
  exact (clientIteration_accepted result accepted).2

/-! ## What the policy changes -/

theorem announcePolicy_restyled (decision : Decision) (process : Process) :
    Restyled decision.response (announcePolicy decision process).1.2 := by
  unfold announcePolicy
  simp only
  split_ifs
  · exact httpResponseApplyConnectionPolicy_restyled _ _ _ _
  · exact (httpResponseApplyConnectionPolicy_restyled _ _ _ _).trans
      (httpResponseApplyConnectionPolicy_restyled _ _ _ _)

/-! ## Sending without failures -/

/-- Answers on which `send_all` goes on. -/
def SendAnswer.Sound : SendAnswer → Prop
  | .accepted _ => True
  | .interrupted => True
  | .zero => False
  | .failed => False

/-- Partial sends and interruptions do not stop `send_all`. -/
theorem sendAll_sound {buffer : Bytes} {script : List SendAnswer}
    (sound : ∀ answer ∈ script, answer.Sound) :
    (sendAll buffer script).success = true ∧
      ∀ answer ∈ (sendAll buffer script).script, answer.Sound := by
  fun_induction sendAll buffer script with
  | case1 => exact ⟨rfl, sound⟩
  | case2 => exact ⟨rfl, sound⟩
  | case3 buffer script nonempty induction =>
      exact induction fun answer member =>
        sound answer (List.mem_cons_of_mem _ member)
  | case4 => exact (sound .failed List.mem_cons_self).elim
  | case5 => exact (sound .zero List.mem_cons_self).elim
  | case6 buffer script nonempty size count rest induction =>
      exact induction fun answer member =>
        sound answer (List.mem_cons_of_mem _ member)

theorem httpResponseSend_sound {response : Response} {omitBody : Bool}
    {process : Process} {transfer : Transfer} (fits : response.Fits)
    (matched : response.BodyMatches) (inMemory : response.bodyKind ≠ .file)
    (granted : process.allocs = [])
    (sound : ∀ answer ∈ transfer.sends, answer.Sound) :
    (httpResponseSend response omitBody process transfer).1.success =
      true := by
  obtain ⟨headSent, later⟩ :=
    @sendAll_sound (serializedBytes response) _ sound
  unfold httpResponseSend
  simp only [httpResponseSerializeHeaders_granted fits granted, headSent,
    Bool.not_true, Bool.false_eq_true, if_false]
  split_ifs
  · rfl
  unfold sendBody
  cases kind : response.bodyKind with
  | none => rfl
  | file => exact absurd kind inMemory
  | memory =>
      simp only [Response.BodyMatches, kind] at matched
      obtain ⟨body, held, _⟩ := matched
      simp only [held]
      split_ifs
      · rfl
      · exact (sendAll_sound later).1

theorem Restyled.fits {before after : Response}
    (restyled : Restyled before after) (fits : before.Fits) :
    after.Fits := by
  unfold Response.Fits statusLine lengthHeader at fits ⊢
  rw [restyled.statusCode, restyled.reasonPhrase, restyled.bodyLength]
  exact fits

/-- No allocation and no system call fails in a pass.  Interruptions and any
sizes of deliveries and sends are allowed. -/
structure Exchange.Faultless (exchange : Exchange) : Prop where
  read : exchange.read.Undisturbed
  parseAllocs : exchange.parseAllocs = []
  buildAllocs : exchange.buildAllocs = []
  policyAllocs : exchange.policyAllocs = []
  sendAllocs : exchange.sendAllocs = []
  sends : ∀ answer ∈ exchange.transfer.sends, answer.Sound

/-- A response in memory is handed over, restyled by the policy, and sent. -/
theorem sendOne_sound {exchange : Exchange} {decision : Decision}
    (faultless : exchange.Faultless) (ready : decision.responseReady = true)
    (known : decision.status ≥ 0)
    (presents : Presents decision.status decision.response)
    (fits : decision.response.Fits)
    (inMemory : decision.response.bodyKind ≠ .file) (requests : Nat)
    (process : Process) :
    ∃ response, Restyled decision.response response ∧
      (sendOne exchange requests decision process).1.handed =
        some response ∧
      (sendOne exchange requests decision process).1.sending.success =
        true := by
  obtain ⟨sameReady, sameStatus, sameResponse⟩ :=
    decision.limit_fields requests
  have restyled := announcePolicy_restyled (decision.limit requests)
    { process with allocs := exchange.policyAllocs }
  rw [← sameStatus, ← sameResponse] at presents
  have presented := announcePolicy_presents presents
    { process with allocs := exchange.policyAllocs }
  rw [sameResponse] at restyled
  refine ⟨_, restyled, ?_⟩
  unfold sendOne deliver
  rw [if_pos (by simp [sameReady, sameStatus, ready, known])]
  refine ⟨rfl, ?_⟩
  apply httpResponseSend_sound (restyled.fits fits) presented.1.body
  · rw [restyled.bodyKind]
    exact inMemory
  · exact faultless.sendAllocs
  · exact faultless.sends

end CinderHTTP
