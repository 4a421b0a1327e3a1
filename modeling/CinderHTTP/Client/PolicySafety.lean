import CinderHTTP.Client.Granted
import CinderHTTP.Client.Run
import CinderHTTP.Client.Synchronization

/-!
# Connection-policy safety

For every stream, every chunking of it, all timeouts, failed sends and failed
allocations: how many responses a connection gets and in which order, that
the loop goes on exactly behind a response that did not announce the end, and
what ends the loop.
-/

namespace CinderHTTP

/-! ## Timeouts -/

theorem decideError_timeout (config : ServerConfig) (fs : FileSystem)
    (process : Process) (granted : process.allocs = []) :
    (decideError config fs 408 process).1.status = 408 ∧
      (decideError config fs 408 process).1.responseReady = true := by
  have built := buildStaticErrorResponse_granted config fs httpResponseInit
    408 granted
  simp [decideError, built]

/-- A timeout between two requests is silent, one inside a request is
answered. -/
theorem clientIteration_timeout {config : ServerConfig}
    {exchange : Exchange} {state : ClientState}
    (expired : (clientIteration config exchange state).read.exit.result =
      .error .timeout) :
    ((clientIteration config exchange state).read.reader.data = [] →
      (clientIteration config exchange state).delivery = none) ∧
    ((clientIteration config exchange state).read.reader.data ≠ [] →
      exchange.buildAllocs = [] →
      ∃ response,
        (clientIteration config exchange state).handed = some response ∧
          response.statusCode = 408) := by
  have read := clientIteration_read config exchange state
  constructor
  · intro empty
    rw [read] at expired empty
    have before := httpReaderNextRequest_timeout expired
    rw [empty, List.length_nil] at before
    unfold clientIteration decideResponse
    simp [expired, empty, Nat.le_zero.mp before]
  · intro buffered granted
    rw [read] at expired buffered
    obtain ⟨known, ready⟩ := decideError_timeout config exchange.fs
      { state.process with allocs := exchange.buildAllocs } granted
    have decided : decideResponse config exchange state.reader.data.length
        (clientIteration config exchange state).read state.process =
          ((some (decideError config exchange.fs 408
            { state.process with allocs := exchange.buildAllocs }).1, none),
          (decideError config exchange.fs 408
            { state.process with allocs := exchange.buildAllocs }).2) := by
      rw [read]
      unfold decideResponse
      simp [expired, buffered]
    generalize decideError config exchange.fs 408
      { state.process with allocs := exchange.buildAllocs } = built
      at known ready decided
    obtain ⟨⟨response, handed⟩, status⟩ := sendOne_ready exchange
      (state.requests + 1) built.1 built.2 ready (by rw [known]; decide)
    have delivered : (clientIteration config exchange state).delivery =
        some (sendOne exchange (state.requests + 1) built.1
          built.2).1 := by
      rw [read] at decided
      unfold clientIteration
      simp [decided]
    refine ⟨response, ?_, ?_⟩
    · rw [Iteration.handed, delivered]
      exact handed
    · rw [(clientIteration_handover delivered handed).status, status, known]

/-! ## Runs -/

/-- Connection-policy safety of one run on a stream. -/
structure PolicySafe (env : Nat → Exchange) (stream : Bytes)
    (run : List Iteration) : Prop where
  /-- Every pass hands over at most one response. -/
  bounded : run.length ≤ 100 ∧ (run.filterMap Iteration.handed).length ≤ 100
  /-- The response of a pass answers the message with the same position in
  the stream; a response without a message answers what follows the last
  message. -/
  ordered : ∀ earlier iteration later, run = earlier ++ iteration :: later →
    (∀ previous ∈ earlier, ∃ message,
      previous.read.exit.result = .ok message) ∧
    (∀ message, iteration.read.exit.result = .ok message →
      (frameStream stream)[earlier.length]? = some (.ok message)) ∧
    (∀ failure, iteration.read.exit.result = .error failure →
      iteration.handed.isSome = true →
      (frameStream stream)[earlier.length]? = some (.error failure) ∨
        failure = .timeout ∨ failure = .outOfMemory)
  /-- The announcement on the wire tells whether the loop goes on. -/
  announced : ∀ earlier iteration later delivery,
    run = earlier ++ iteration :: later →
    iteration.delivery = some delivery → delivery.handed.isSome = true →
    (delivery.sending.success = true →
      (later ≠ [] ↔ ¬AnnouncesClose delivery.sending.sent)) ∧
    (delivery.sending.success = false → later = [])
  /-- Errors end the loop. -/
  final : ∀ earlier iteration later, run = earlier ++ iteration :: later →
    (∃ failure, iteration.read.exit.result = .error failure) ∨
      (∃ outcome failure, iteration.parsed = some outcome ∧
        outcome.result = .error failure) ∨
      (∃ response, iteration.handed = some response ∧
        response.statusCode ∈ [400, 408, 413, 500, 501, 505]) →
    later = []
  /-- Timeouts are silent between requests and answered inside one. -/
  expired : ∀ earlier iteration later, run = earlier ++ iteration :: later →
    iteration.read.exit.result = .error .timeout →
    (iteration.read.reader.data = [] → iteration.delivery = none) ∧
    (iteration.read.reader.data ≠ [] →
      (env earlier.length).buildAllocs = [] →
      ∃ response, iteration.handed = some response ∧
        response.statusCode = 408)

theorem announcesClose_sent {response : Response} {omitBody : Bool}
    {process : Process} {transfer : Transfer}
    (presentable : response.Presentable)
    (success : (httpResponseSend response omitBody process
      transfer).1.success = true) :
    AnnouncesClose (httpResponseSend response omitBody process
        transfer).1.sent ↔
      ascii "close" ∈ connectionValues (responseFields response) := by
  rw [(httpResponseSend_success presentable.body success).1,
    AnnouncesClose, sectionFields_serialized presentable.tidy]

theorem clientLoop_earlier {config : ServerConfig} {env : Nat → Exchange}
    {state : ClientState} {earlier later : List Iteration}
    {iteration : Iteration}
    (run : clientLoop config env state = earlier ++ iteration :: later) :
    ∀ previous ∈ earlier, ∃ message,
      previous.read.exit.result = .ok message := by
  intro previous member
  obtain ⟨front, back, rfl⟩ := List.append_of_mem member
  rw [List.append_assoc, List.cons_append] at run
  obtain ⟨before, rfl, follows, _⟩ := clientLoop_split run
  obtain ⟨raw, _, result, _⟩ :=
    clientIteration_continues (follows.mp (by simp))
  exact ⟨raw, result⟩

/-- What a pass reads, or is refused, is what the stream has at its
position. -/
theorem clientLoop_position {config : ServerConfig} {env : Nat → Exchange}
    {state : ClientState} {earlier later : List Iteration}
    {iteration : Iteration}
    (run : clientLoop config env state = earlier ++ iteration :: later) :
    (∀ message, iteration.read.exit.result = .ok message →
      (frameStream (state.reader.data ++ state.pending))[earlier.length]? =
        some (.ok message)) ∧
    (∀ failure, iteration.read.exit.result = .error failure →
      (frameStream (state.reader.data ++ state.pending))[earlier.length]? =
          some (.error failure) ∨
        failure = .timeout ∨ failure = .ioError ∨
        failure = .outOfMemory) := by
  obtain ⟨before, rfl, _, framed⟩ := clientLoop_split run
  rw [framed, List.getElem?_append_right (by simp), List.length_map,
    Nat.sub_self]
  constructor
  · intro message result
    rw [clientIteration_message result]
    rfl
  · intro failure result
    rw [clientIteration_read] at result
    rcases httpReaderNextRequest_failure result with
      refused | expired | ⟨external, _⟩
    · left
      rw [frameStream_error refused]
      rfl
    · exact .inr (.inl expired)
    · exact .inr (.inr external)

theorem clientIteration_ioError {config : ServerConfig}
    {exchange : Exchange} {state : ClientState}
    (failed : (clientIteration config exchange state).read.exit.result =
      .error .ioError) :
    (clientIteration config exchange state).handed = none := by
  rw [clientIteration_read] at failed
  unfold clientIteration decideResponse Iteration.handed
  simp [failed]

theorem clientLoop_announced {config : ServerConfig} {env : Nat → Exchange}
    {state : ClientState} {earlier later : List Iteration}
    {iteration : Iteration} {delivery : Delivery}
    (run : clientLoop config env state = earlier ++ iteration :: later)
    (delivered : iteration.delivery = some delivery)
    (handed : delivery.handed.isSome = true) :
    (delivery.sending.success = true →
      (later ≠ [] ↔ ¬AnnouncesClose delivery.sending.sent)) ∧
    (delivery.sending.success = false → later = []) := by
  obtain ⟨before, rfl, follows, _⟩ := clientLoop_split run
  obtain ⟨response, handed⟩ := Option.isSome_iff_exists.mp handed
  have handover := clientIteration_handover delivered handed
  obtain ⟨process, transfer, sent⟩ := handover.sent
  constructor
  · intro success
    rw [follows, handover.persists]
    rw [sent] at success ⊢
    rw [announcesClose_sent handover.presentable success]
    simp [success]
  · intro failed
    by_contra more
    have persists := (handover.persists.mp (follows.mp more)).2
    rw [failed] at persists
    cases persists

theorem clientLoop_final {config : ServerConfig} {env : Nat → Exchange}
    {state : ClientState} {earlier later : List Iteration}
    {iteration : Iteration}
    (run : clientLoop config env state = earlier ++ iteration :: later)
    (failed : (∃ failure, iteration.read.exit.result = .error failure) ∨
      (∃ outcome failure, iteration.parsed = some outcome ∧
        outcome.result = .error failure) ∨
      (∃ response, iteration.handed = some response ∧
        response.statusCode ∈ [400, 408, 413, 500, 501, 505])) :
    later = [] := by
  obtain ⟨before, rfl, follows, _⟩ := clientLoop_split run
  by_contra more
  have continued := follows.mp more
  obtain ⟨raw, parsed, result, same, accepted⟩ :=
    clientIteration_continues continued
  rcases failed with ⟨failure, refused⟩ | ⟨outcome, failure, read, refused⟩ |
    ⟨response, handed, listed⟩
  · rw [result] at refused
    cases refused
  · rw [same, Option.some.injEq] at read
    rw [← read, accepted] at refused
    cases refused
  · obtain ⟨delivery, delivered, handed⟩ := Option.bind_eq_some_iff.mp handed
    have table : ∀ status ∈ [400, 408, 413, 500, 501, (505 : Int)],
        statusRequiresClose status = true := by decide
    rw [(clientIteration_handover delivered handed).closing
      (table _ listed)] at continued
    cases continued

/-- Every run of the handler is safe, whatever the peer sends and the
environment answers. -/
theorem clientHandle_policySafe (config : ServerConfig)
    (env : Nat → Exchange) (stream : Bytes) :
    PolicySafe env stream (clientHandle config env stream) := by
  have bounded : (clientHandle config env stream).length ≤ 100 := by
    have counted := clientLoop_length config env
      { reader := httpReaderInit, pending := stream, process := {}
        requests := 0 } (Nat.zero_lt_succ 99)
    rwa [Nat.zero_add] at counted
  constructor
  · exact ⟨bounded, Nat.le_trans (List.length_filterMap_le _ _) bounded⟩
  · intro earlier iteration later run
    obtain ⟨read, refused⟩ := clientLoop_position run
    refine ⟨clientLoop_earlier run, read, ?_⟩
    intro failure result handed
    rcases refused failure result with
      framing | expired | broken | exhausted
    · exact .inl framing
    · exact .inr (.inl expired)
    · subst broken
      obtain ⟨before, rfl, _⟩ := clientLoop_split run
      rw [clientIteration_ioError result] at handed
      cases handed
    · exact .inr (.inr exhausted)
  · intro earlier iteration later delivery run delivered handed
    exact clientLoop_announced run delivered handed
  · intro earlier iteration later run failed
    exact clientLoop_final run failed
  · intro earlier iteration later run expired
    obtain ⟨before, rfl, _⟩ := clientLoop_split run
    exact clientIteration_timeout expired

/-- A peer that sends the start of a request, and then nothing more. -/
def silentExchange : Exchange :=
  { sampleExchange with
    read := { turns := [{ recv := .delivered 3 }, { polls := [.expired] }] } }

/-- The status that a pass hands over, and whether the loop goes on. -/
def Iteration.verdict (iteration : Iteration) : Option Int × Bool :=
  (iteration.handed.map Response.statusCode, iteration.continues)

-- the second request of the pair is of version 1.0, which ends the loop
example :
    (clientHandle sampleConfig (fun _ => sampleExchange)
      pipelinedStream).map Iteration.verdict =
        [(some 200, true), (some 200, false)] := by
  decide +kernel

example :
    (clientHandle sampleConfig (fun _ => silentExchange)
      (ascii "GET")).map Iteration.verdict = [(some 408, false)] := by
  decide +kernel

end CinderHTTP
