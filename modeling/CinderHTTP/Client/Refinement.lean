import CinderHTTP.Client.Synchronization

/-!
# A server of messages

`serveFrames` is the connection handler without a socket: it takes the
messages of a stream, as `frameStream` cuts it, and answers them one after the
other.  When nothing fails, `client_handle` refines it: however the bytes
arrive and however the responses are taken, the client gets the answers of
`serveFrames` to the stream that it sent, and nothing else.
-/

namespace CinderHTTP

/-! ## The server of messages -/

/-- What a message is answered from. -/
structure World where
  fs : FileSystem
  snapshot : StatsSnapshot

/-- The answer to a message, as a header section and a body, and whether the
connection goes on. -/
structure Reply where
  message : Option (Bytes × Bytes)
  persists : Bool
  deriving DecidableEq

def Reply.bytes (reply : Reply) : Bytes :=
  match reply.message with
  | none => []
  | some message => message.1 ++ message.2

/-- From here on every allocation is granted. -/
def Process.granted (process : Process) : Process :=
  { process with allocs := [] }

/-- What is decided on a message, or on the end of the stream. -/
def decideFrame (config : ServerConfig) (world : World)
    (frame : Except ReadError Bytes) (process : Process) :
    Option Decision × Process :=
  match frame with
  | .error .clientClosed => (none, process)
  | .error .timeout => (none, process)
  | .error .ioError => (none, process)
  | .error failure =>
      let decided := decideError config world.fs (statusForReadResult failure)
        process
      (some decided.1, decided.2)
  | .ok raw =>
      match (httpParseRequest raw []).result with
      | .error failure =>
          let decided := decideParseError config world.fs failure process
          (some decided.1, decided.2)
      | .ok _ =>
          let decided := chooseResponse config world.fs world.snapshot
            (httpParseRequest raw []).request process
          (some decided.1.closeOnStatus, decided.2)

/-- A decision carried out in full. -/
def replyWith (decision : Decision) (process : Process) : Reply × Process :=
  if decision.responseReady && decision.status ≥ 0 then
    let announced := announcePolicy decision process.granted
    ({ message := some (serializedBytes announced.1.2,
         if decision.omitBody then [] else bodyBytes announced.1.2)
       persists :=
         decision.keepAlive && !decision.forceClose && announced.1.1 },
      (httpResponseDestroy announced.1.2 announced.2.granted).2)
  else
    ({ message := none, persists := false },
      (httpResponseDestroy decision.response process).2)

def replyTo (config : ServerConfig) (world : World) (requests : Nat)
    (frame : Except ReadError Bytes) (process : Process) :
    Reply × Process :=
  match decideFrame config world frame process.granted with
  | (none, process) => ({ message := none, persists := false }, process)
  | (some decision, process) => replyWith (decision.limit requests) process

/-- The answers to the messages of a stream, until the connection ends. -/
def serveFrames (config : ServerConfig) (worlds : Nat → World)
    (requests : Nat) (process : Process) :
    List (Except ReadError Bytes) → List Reply
  | [] => []
  | frame :: frames =>
      let answer := replyTo config (worlds 0) (requests + 1) frame process
      if answer.1.persists then
        answer.1 :: serveFrames config (fun pass => worlds (pass + 1))
          (requests + 1) answer.2 frames
      else [answer.1]

theorem serveFrames_cons {config : ServerConfig} {worlds : Nat → World}
    {requests : Nat} {process later : Process} {reply : Reply}
    {frame : Except ReadError Bytes}
    (answer : replyTo config (worlds 0) (requests + 1) frame process =
      (reply, later)) (frames : List (Except ReadError Bytes)) :
    serveFrames config worlds requests process (frame :: frames) =
      reply :: if reply.persists = true then
        serveFrames config (fun pass => worlds (pass + 1)) (requests + 1)
          later frames
      else [] := by
  rw [serveFrames, answer]
  simp only
  split_ifs <;> rfl

/-! ## A pass without failures -/

/-- A pass in this world in which no allocation and no read fails.
Interruptions and deliveries of any size are allowed. -/
structure Exchange.Calm (exchange : Exchange) (world : World) : Prop where
  fs : exchange.fs = world.fs
  snapshot : exchange.snapshot = world.snapshot
  read : exchange.read.Undisturbed
  parseAllocs : exchange.parseAllocs = []
  buildAllocs : exchange.buildAllocs = []
  policyAllocs : exchange.policyAllocs = []
  sendAllocs : exchange.sendAllocs = []

/-- The answer of a pass. -/
def Iteration.reply (iteration : Iteration) : Reply :=
  { message := iteration.message, persists := iteration.continues }

/-- A read that does not time out takes the first message of the stream. -/
theorem clientIteration_frame {config : ServerConfig} {exchange : Exchange}
    {world : World} {state : ClientState} (calm : exchange.Calm world)
    (patient : (clientIteration config exchange state).read.exit.result ≠
      .error .timeout) :
    ∃ frames, frameStream (state.reader.data ++ state.pending) =
        (clientIteration config exchange state).read.exit.result :: frames ∧
      ∀ raw, (clientIteration config exchange state).read.exit.result =
          .ok raw →
        frames = frameStream
          ((clientIteration config exchange state).after.reader.data ++
            (clientIteration config exchange state).after.pending) := by
  cases result :
      (clientIteration config exchange state).read.exit.result with
  | ok raw => exact ⟨_, clientIteration_message result, fun _ _ => rfl⟩
  | error failure =>
      rw [result] at patient
      rw [clientIteration_read] at result
      have framed : frameHead (state.reader.data ++ state.pending) =
          .error failure := by
        rcases httpReaderNextRequest_failure result with
          framed | rfl | ⟨_, disturbed⟩
        · exact framed
        · exact absurd rfl patient
        · exact absurd calm.read disturbed
      exact ⟨[], frameStream_error framed, fun raw impossible => by
        cases impossible⟩

theorem decideResponse_frame {config : ServerConfig} {exchange : Exchange}
    {world : World} {buffered : Nat} {read : ReadOutcome}
    {process : Process} (calm : exchange.Calm world)
    (patient : read.exit.result ≠ .error .timeout) :
    (decideResponse config exchange buffered read process).1.1 =
        (decideFrame config world read.exit.result process.granted).1 ∧
      (decideResponse config exchange buffered read process).2 =
        (decideFrame config world read.exit.result process.granted).2 := by
  have ready : { process with allocs := exchange.buildAllocs } =
      process.granted := by
    rw [calm.buildAllocs, Process.granted]
  unfold decideResponse decideFrame
  simp only [ready, calm.fs, calm.snapshot, calm.parseAllocs]
  cases result : read.exit.result with
  | error failure =>
      cases failure with
      | timeout => exact absurd result patient
      | _ => exact ⟨rfl, rfl⟩
  | ok raw =>
      simp only
      cases (httpParseRequest raw []).result with
      | error failure => exact ⟨rfl, rfl⟩
      | ok accepted => exact ⟨rfl, rfl⟩

theorem httpResponseSend_granted (response : Response) (omitBody : Bool)
    {process : Process} (transfer : Transfer)
    (granted : process.allocs = []) :
    (httpResponseSend response omitBody process transfer).2 = process := by
  have serialized :
      (httpResponseSerializeHeaders response process).2 = process := by
    unfold httpResponseSerializeHeaders
    simp only [Process.malloc_granted granted]
    split_ifs <;> rfl
  unfold httpResponseSend
  generalize httpResponseSerializeHeaders response process = outcome
    at serialized ⊢
  obtain ⟨_ | headers, later⟩ := outcome
  · exact serialized
  simp only
  split_ifs
  · exact serialized
  · exact serialized
  · exact serialized

theorem deliver_reply {exchange : Exchange} {world : World}
    {decision : Decision} {process : Process} (calm : exchange.Calm world)
    (sent : (deliver exchange decision process).1.handed.isNone ||
      (deliver exchange decision process).1.sending.success) :
    ((deliver exchange decision process).1.handed.map fun response =>
        (serializedBytes response,
          if decision.omitBody then [] else bodyBytes response)) =
        (replyWith decision process).1.message ∧
      (deliver exchange decision process).1.continues =
        (replyWith decision process).1.persists ∧
      (deliver exchange decision process).2 =
        (replyWith decision process).2 := by
  unfold deliver replyWith at *
  by_cases ready :
      (decision.responseReady && decide (decision.status ≥ 0)) = true
  · have policy : { process with allocs := exchange.policyAllocs } =
        process.granted := by
      rw [calm.policyAllocs, Process.granted]
    have sending : ∀ later : Process,
        { later with allocs := exchange.sendAllocs } = later.granted := by
      intro later
      rw [calm.sendAllocs, Process.granted]
    simp only [if_pos ready, policy, sending] at sent ⊢
    generalize announcePolicy decision process.granted = outcome at sent ⊢
    obtain ⟨⟨flag, response⟩, later⟩ := outcome
    have success : (httpResponseSend response decision.omitBody
        later.granted exchange.transfer).1.success = true := by
      simpa using sent
    have kept := httpResponseSend_granted response decision.omitBody
      exchange.transfer (rfl : later.granted.allocs = [])
    refine ⟨rfl, ?_, ?_⟩
    · rw [success]
      cases decision.keepAlive <;> cases decision.forceClose <;>
        cases flag <;> rfl
    · rw [kept]
  · simp only [if_neg ready, Option.map_none]
    exact ⟨trivial, trivial, trivial⟩

/-- How a pass carries out what it decides, with the process behind it. -/
theorem clientIteration_carries (config : ServerConfig)
    (exchange : Exchange) (state : ClientState) :
    ∃ decision later,
      (decideResponse config exchange state.reader.data.length
        (clientIteration config exchange state).read state.process).1.1 =
          decision ∧
      (decideResponse config exchange state.reader.data.length
        (clientIteration config exchange state).read state.process).2 =
          later ∧
      (clientIteration config exchange state).delivery =
        decision.map (fun decision =>
          (sendOne exchange (state.requests + 1) decision later).1) ∧
      (clientIteration config exchange state).after.process =
        decision.elim later (fun decision =>
          (sendOne exchange (state.requests + 1) decision later).2) := by
  rw [clientIteration_read]
  unfold clientIteration
  simp only
  generalize decideResponse config exchange state.reader.data.length _
    state.process = outcome
  obtain ⟨⟨_ | decision, parsed⟩, later⟩ := outcome
  · exact ⟨none, later, rfl, rfl, rfl, rfl⟩
  · exact ⟨some decision, later, rfl, rfl, rfl, rfl⟩

theorem clientIteration_message_of_delivery {config : ServerConfig}
    {exchange : Exchange} {state : ClientState} {delivery : Delivery}
    (delivered : (clientIteration config exchange state).delivery =
      some delivery) :
    (clientIteration config exchange state).message =
      delivery.handed.map fun response =>
        (serializedBytes response,
          if delivery.omitBody then [] else bodyBytes response) := by
  rw [Iteration.message, Iteration.handed, delivered, Option.bind_some]
  cases handed : delivery.handed with
  | none => rfl
  | some response =>
      rw [(clientIteration_handover delivered handed).head]

/-- A pass that is not disturbed gives the answer to its message. -/
theorem clientIteration_reply {config : ServerConfig} {exchange : Exchange}
    {world : World} {state : ClientState} (calm : exchange.Calm world)
    (patient : (clientIteration config exchange state).read.exit.result ≠
      .error .timeout)
    (sent : (clientIteration config exchange state).sendsSucceed = true) :
    replyTo config world (state.requests + 1)
        (clientIteration config exchange state).read.exit.result
        state.process =
      ((clientIteration config exchange state).reply,
        (clientIteration config exchange state).after.process) := by
  obtain ⟨decision, later, chosen, left, carried, process⟩ :=
    clientIteration_carries config exchange state
  obtain ⟨sameDecision, sameProcess⟩ := @decideResponse_frame config exchange
    world state.reader.data.length
    (clientIteration config exchange state).read state.process calm patient
  have framed : decideFrame config world
      (clientIteration config exchange state).read.exit.result
      state.process.granted = (decision, later) := by
    rw [← chosen, ← left, sameDecision, sameProcess]
  unfold replyTo
  rw [framed, process]
  cases decision with
  | none =>
      rw [Iteration.reply, Iteration.message, Iteration.handed,
        Iteration.continues, carried]
      rfl
  | some decision =>
      rw [Option.map_some] at carried
      rw [Iteration.sendsSucceed, carried] at sent
      obtain ⟨message, persists, last⟩ := deliver_reply calm sent
      have answer := clientIteration_message_of_delivery carried
      rw [sendOne, (deliver_fields _ _ _).1, message] at answer
      have continues :
          (clientIteration config exchange state).continues =
            (replyWith (decision.limit (state.requests + 1))
              later).1.persists := by
        rw [Iteration.continues, carried]
        exact persists
      rw [Iteration.reply, answer, continues]
      exact Prod.ext rfl last.symm

/-! ## Runs -/

/-- A run in which no read times out and no send fails. -/
structure Unbroken (run : List Iteration) : Prop where
  patient : ∀ iteration ∈ run,
    iteration.read.exit.result ≠ .error .timeout
  sent : ∀ iteration ∈ run, iteration.sendsSucceed = true

theorem clientLoop_replies {config : ServerConfig} {env : Nat → Exchange}
    {worlds : Nat → World} {state : ClientState}
    (calm : ∀ pass, (env pass).Calm (worlds pass))
    (unbroken : Unbroken (clientLoop config env state)) :
    (clientLoop config env state).map Iteration.reply =
      serveFrames config worlds state.requests state.process
        (frameStream (state.reader.data ++ state.pending)) := by
  fun_induction clientLoop config env state generalizing worlds with
  | case1 env state iteration continued =>
      rename_i induction
      have patient := unbroken.patient iteration List.mem_cons_self
      have sent := unbroken.sent iteration List.mem_cons_self
      obtain ⟨raw, _, result, _⟩ := clientIteration_continues continued
      obtain ⟨frames, framed, behind⟩ :=
        clientIteration_frame (calm 0) patient
      have answer := clientIteration_reply (calm 0) patient sent
      have counted := (clientIteration_requests continued).1
      have rest := induction (fun pass => calm (pass + 1))
        ⟨fun other member =>
            unbroken.patient other (List.mem_cons_of_mem _ member),
          fun other member =>
            unbroken.sent other (List.mem_cons_of_mem _ member)⟩
      change iteration.after.requests = _ at counted
      rw [counted] at rest
      have persists : iteration.reply.persists = true := continued
      rw [framed, serveFrames_cons answer, behind raw result,
        if_pos persists, List.map_cons, rest]
  | case2 env state iteration =>
      rename_i stopped
      have patient := unbroken.patient iteration List.mem_cons_self
      have sent := unbroken.sent iteration List.mem_cons_self
      obtain ⟨frames, framed, _⟩ := clientIteration_frame (calm 0) patient
      have answer := clientIteration_reply (calm 0) patient sent
      have ends : ¬iteration.reply.persists = true := stopped
      rw [framed, serveFrames_cons answer, if_neg ends]
      rfl

theorem Iteration.output_of_reply {config : ServerConfig}
    {exchange : Exchange} {state : ClientState}
    (sent : (clientIteration config exchange state).sendsSucceed = true) :
    (clientIteration config exchange state).output =
      (clientIteration config exchange state).reply.bytes := by
  cases handed : (clientIteration config exchange state).handed with
  | none =>
      rw [clientIteration_silent handed, Reply.bytes, Iteration.reply,
        Iteration.message, handed]
      rfl
  | some response =>
      rw [(clientIteration_output handed sent).2.1, Reply.bytes,
        Iteration.reply, Iteration.message, handed]
      rfl

/-- When nothing fails, the handler gives the answers of the server of
messages to the stream, however its bytes arrive. -/
theorem clientHandle_refines (config : ServerConfig) (env : Nat → Exchange)
    (worlds : Nat → World) (stream : Bytes)
    (calm : ∀ pass, (env pass).Calm (worlds pass))
    (unbroken : Unbroken (clientHandle config env stream)) :
    (clientHandle config env stream).map Iteration.reply =
        serveFrames config worlds 0 {} (frameStream stream) ∧
      (clientHandle config env stream).flatMap Iteration.output =
        (serveFrames config worlds 0 {} (frameStream stream)).flatMap
          Reply.bytes := by
  have replies := clientLoop_replies calm unbroken
  have bytes : (clientHandle config env stream).flatMap Iteration.output =
      ((clientHandle config env stream).map Iteration.reply).flatMap
        Reply.bytes := by
    rw [List.flatMap_map]
    apply List.flatMap_congr
    intro iteration member
    have sent := unbroken.sent iteration member
    obtain ⟨exchange, state, rfl⟩ := mem_clientHandle member
    exact Iteration.output_of_reply sent
  change (clientHandle config env stream).map Iteration.reply =
    serveFrames config worlds 0 {} (frameStream stream) at replies
  rw [bytes, replies]
  exact ⟨rfl, rfl⟩

/-- Bytes that arrive and leave in pieces, with interruptions. -/
def pieces : Exchange :=
  { sampleExchange with
    read :=
      { turns :=
          [{ recv := .delivered 3 }, { recv := .interrupted },
            { recv := .delivered 30 }] }
    transfer := { sends := [.accepted 5, .interrupted, .accepted 1] } }

theorem pieces_calm :
    pieces.Calm ⟨sampleExchange.fs, sampleExchange.snapshot⟩ := by
  refine ⟨rfl, rfl, ⟨by simp [pieces], ?_⟩, rfl, rfl, rfl, rfl⟩
  intro turn member
  simp only [pieces, List.mem_cons, List.not_mem_nil, or_false] at member
  rcases member with rfl | rfl | rfl
  · exact ⟨rfl, by simp, by simp, by simp⟩
  · exact ⟨rfl, by simp, by simp, by simp⟩
  · exact ⟨rfl, by simp, by simp, by simp⟩

theorem pieces_unbroken :
    Unbroken (clientHandle sampleConfig (fun _ => pieces)
      pipelinedStream) := by
  constructor
  · decide +kernel
  · decide +kernel

theorem clientHandle_refines_pieces :
    (clientHandle sampleConfig (fun _ => pieces) pipelinedStream).map
          Iteration.reply =
        serveFrames sampleConfig
          (fun _ => ⟨sampleExchange.fs, sampleExchange.snapshot⟩) 0 {}
          (frameStream pipelinedStream) ∧
      (clientHandle sampleConfig (fun _ => pieces) pipelinedStream).flatMap
          Iteration.output =
        (serveFrames sampleConfig
          (fun _ => ⟨sampleExchange.fs, sampleExchange.snapshot⟩) 0 {}
          (frameStream pipelinedStream)).flatMap Reply.bytes :=
  clientHandle_refines sampleConfig (fun _ => pieces) _ pipelinedStream
    (fun _ => pieces_calm) pieces_unbroken

end CinderHTTP
