import CinderHTTP.Client.Run

/-!
# Synchronization with the client

A client that cuts the bytes of a persistent connection at blank lines and
announced lengths gets back exactly the responses that were sent, one for
each answered pass and in the same order, with nothing left over.
-/

namespace CinderHTTP

/-! ## The client -/

/-- The length in the single Content-Length field of a header section. -/
def announcedBodyLength (block : Bytes) : Option Nat :=
  match (sectionFields block).filter fun field =>
      headerNameEqual field.name (ascii "Content-Length") with
  | [field] =>
      if field.value ≠ [] ∧ field.value.all isDigit = true then
        some (decimalValue field.value)
      else none
  | _ => none

/-- One response off the front: the bytes through the first blank line, then
as many as announced, or none when the request was HEAD. -/
def decodeResponse (head : Bool) (bytes : Bytes) :
    Option ((Bytes × Bytes) × Bytes) :=
  match findInfix blankLine bytes with
  | none => none
  | some index =>
      let block := bytes.take (index + 4)
      let rest := bytes.drop (index + 4)
      match announcedBodyLength block with
      | none => none
      | some length =>
          if head then some ((block, []), rest)
          else if rest.length < length then none
          else some ((block, rest.take length), rest.drop length)

/-- The responses to a sequence of requests, of which it is known whether
they were HEAD; nothing may be left over. -/
def decodeResponses : List Bool → Bytes → Option (List (Bytes × Bytes))
  | [], bytes => if bytes = [] then some [] else none
  | head :: heads, bytes =>
      (decodeResponse head bytes).bind fun decoded =>
        (decodeResponses heads decoded.2).map (decoded.1 :: ·)

/-! ## One response -/

theorem announcedBodyLength_serialized {response : Response}
    (presentable : response.Presentable) :
    announcedBodyLength (serializedBytes response) =
      some response.bodyLength := by
  have fields := sectionFields_serialized presentable.tidy []
  rw [List.append_nil] at fields
  have only := responseFields_contentLength fun field member =>
    (responseNames_clean (presentable.names field member)).2
  rw [fieldsNamed] at only
  have digits : (decimal response.bodyLength).all isDigit = true := by
    rw [List.all_eq_true]
    intro digit member
    exact isDigit_of_mem_decimal member
  rw [announcedBodyLength, fields, only]
  simp only
  rw [if_pos ⟨decimal_ne_nil _, digits⟩, decimalValue_decimal]

theorem serializedBytes_long (response : Response) :
    4 ≤ (serializedBytes response).length := by
  rw [serializedBytes_joinLines, responseLines, joinLines_cons]
  simp [crlf]
  omega

theorem decodeResponse_append {response : Response}
    (presentable : response.Presentable) {head : Bool}
    (complete : head = false →
      (bodyBytes response).length = response.bodyLength) (rest : Bytes) :
    decodeResponse head (serializedBytes response ++
        (if head then [] else bodyBytes response) ++ rest) =
      some ((serializedBytes response,
        if head then [] else bodyBytes response), rest) := by
  have long := serializedBytes_long response
  have cut : (serializedBytes response).length - 4 + 4 =
      (serializedBytes response).length := Nat.sub_add_cancel long
  rw [List.append_assoc]
  unfold decodeResponse
  rw [findInfix_serialized presentable.tidy]
  simp only [cut, List.take_left, List.drop_left,
    announcedBodyLength_serialized presentable]
  cases head with
  | true => rfl
  | false =>
      have full := complete rfl
      simp only [Bool.false_eq_true, if_false]
      rw [if_neg (by rw [List.length_append]; omega), ← full,
        List.take_left, List.drop_left]

/-! ## Runs -/

/-- The bytes that a pass put on the socket. -/
def Iteration.output (iteration : Iteration) : Bytes :=
  match iteration.delivery with
  | none => []
  | some delivery => delivery.sending.sent

/-- The pass sent the response that it handed over, if it did. -/
def Iteration.sendsSucceed (iteration : Iteration) : Bool :=
  match iteration.delivery with
  | none => true
  | some delivery => delivery.handed.isNone || delivery.sending.success

/-- The response of a pass as a client should see it. -/
def Iteration.message (iteration : Iteration) : Option (Bytes × Bytes) :=
  iteration.handed.map fun response =>
    (serializedBytes response,
      if parsedAsHead iteration.parsed then [] else bodyBytes response)

/-- What a client knows of an answered pass. -/
def Iteration.answersHead (iteration : Iteration) : Option Bool :=
  iteration.handed.map fun _ => parsedAsHead iteration.parsed

theorem clientIteration_silent {config : ServerConfig}
    {exchange : Exchange} {state : ClientState}
    (silent : (clientIteration config exchange state).handed = none) :
    (clientIteration config exchange state).output = [] := by
  obtain ⟨decision, later, _, carried⟩ :=
    clientIteration_decided config exchange state
  rw [Iteration.handed, carried] at silent
  rw [Iteration.output, carried]
  cases decision with
  | none => rfl
  | some decision =>
      simp only [Option.map_some, Option.bind_some, sendOne,
        deliver] at silent ⊢
      split_ifs at silent ⊢
      rfl

theorem Iteration.sending_success {iteration : Iteration}
    {delivery : Delivery} {response : Response}
    (delivered : iteration.delivery = some delivery)
    (handed : iteration.handed = some response)
    (success : iteration.sendsSucceed = true) :
    delivery.sending.success = true := by
  rw [Iteration.handed, delivered, Option.bind_some] at handed
  rw [Iteration.sendsSucceed, delivered] at success
  simpa [handed] using success

/-- A pass whose send succeeded put the whole response on the socket. -/
theorem clientIteration_output {config : ServerConfig}
    {exchange : Exchange} {state : ClientState} {response : Response}
    (handed : (clientIteration config exchange state).handed =
      some response)
    (success : (clientIteration config exchange state).sendsSucceed =
      true) :
    response.Presentable ∧
      (clientIteration config exchange state).output =
        serializedBytes response ++
          (if parsedAsHead (clientIteration config exchange state).parsed
            then [] else bodyBytes response) ∧
      (parsedAsHead (clientIteration config exchange state).parsed = false →
        (bodyBytes response).length = response.bodyLength) := by
  obtain ⟨delivery, delivered, given⟩ := Option.bind_eq_some_iff.mp handed
  have handover := clientIteration_handover delivered given
  obtain ⟨process, transfer, sent⟩ := handover.sent
  have flag := Iteration.sending_success delivered handed success
  rw [sent] at flag
  rw [Iteration.output, delivered]
  simp only
  rw [sent, ← handover.head]
  exact ⟨handover.presentable,
    httpResponseSend_success handover.presentable.body flag⟩

theorem mem_clientHandle {config : ServerConfig} {env : Nat → Exchange}
    {stream : Bytes} {iteration : Iteration}
    (member : iteration ∈ clientHandle config env stream) :
    ∃ exchange state, iteration = clientIteration config exchange state := by
  obtain ⟨earlier, later, run⟩ := List.append_of_mem member
  obtain ⟨before, same, _⟩ := clientLoop_split run
  exact ⟨_, before, same⟩

/-- The bytes of a sequence of answered passes decode to their responses. -/
theorem decodeResponses_output {run : List Iteration}
    (passes : ∀ iteration ∈ run, ∃ config exchange state,
      iteration = clientIteration config exchange state)
    (success : run.all Iteration.sendsSucceed = true) :
    decodeResponses (run.filterMap Iteration.answersHead)
        (run.flatMap Iteration.output) =
      some (run.filterMap Iteration.message) := by
  induction run with
  | nil => rfl
  | cons iteration run induction =>
      rw [List.all_cons, Bool.and_eq_true] at success
      have rest := induction (fun other member =>
        passes other (List.mem_cons_of_mem _ member)) success.2
      obtain ⟨config, exchange, state, same⟩ :=
        passes iteration List.mem_cons_self
      rw [List.flatMap_cons, List.filterMap_cons, List.filterMap_cons]
      cases handed : iteration.handed with
      | none =>
          have silent : iteration.output = [] := by
            rw [same] at handed ⊢
            exact clientIteration_silent handed
          simpa [Iteration.answersHead, Iteration.message, handed, silent]
            using rest
      | some response =>
          obtain ⟨presentable, output, complete⟩ : response.Presentable ∧
              iteration.output = serializedBytes response ++
                (if parsedAsHead iteration.parsed then []
                  else bodyBytes response) ∧
              (parsedAsHead iteration.parsed = false →
                (bodyBytes response).length = response.bodyLength) := by
            rw [same] at handed success ⊢
            exact clientIteration_output handed success.1
          simp only [Iteration.answersHead, Iteration.message, handed,
            Option.map_some]
          rw [decodeResponses, output,
            decodeResponse_append presentable complete, Option.bind_some,
            rest, Option.map_some]

/-- On every connection on which all sends succeed, the client's rule
recovers the responses from the bytes. -/
theorem clientHandle_synchronized (config : ServerConfig)
    (env : Nat → Exchange) (stream : Bytes)
    (success : (clientHandle config env stream).all Iteration.sendsSucceed =
      true) :
    decodeResponses
        ((clientHandle config env stream).filterMap Iteration.answersHead)
        ((clientHandle config env stream).flatMap Iteration.output) =
      some ((clientHandle config env stream).filterMap
        Iteration.message) := by
  apply decodeResponses_output _ success
  intro iteration member
  obtain ⟨exchange, state, same⟩ := mem_clientHandle member
  exact ⟨config, exchange, state, same⟩

/-- A file system in which nothing can be found. -/
def bareFileSystem : FileSystem :=
  { realpath := fun _ => .error .enoent
    stat := fun _ => .error .enoent
    openRead := fun _ => .error .enoent }

def sampleConfig : ServerConfig :=
  { documentRoot := ascii "/srv"
    keepAliveTimeoutSec := 5
    requestTimeoutSec := 10 }

def sampleExchange : Exchange :=
  { fs := bareFileSystem, snapshot := ⟨0, 0, 0, 0, 0, 0⟩ }

/-- Two pipelined requests, the first one without a body in its answer. -/
def pipelinedStream : Bytes :=
  ascii "HEAD /api/health HTTP/1.1\r\n\r\n" ++
    ascii "GET /api/health HTTP/1.0\r\n\r\n"

theorem pipelinedStream_sent :
    (clientHandle sampleConfig (fun _ => sampleExchange)
      pipelinedStream).all Iteration.sendsSucceed = true := by
  decide +kernel

theorem clientHandle_synchronized_pipelined :
    (clientHandle sampleConfig (fun _ => sampleExchange)
        pipelinedStream).all Iteration.sendsSucceed = true ∧
      ((clientHandle sampleConfig (fun _ => sampleExchange)
        pipelinedStream).filterMap Iteration.message).length = 2 ∧
      decodeResponses
          ((clientHandle sampleConfig (fun _ => sampleExchange)
            pipelinedStream).filterMap Iteration.answersHead)
          ((clientHandle sampleConfig (fun _ => sampleExchange)
            pipelinedStream).flatMap Iteration.output) =
        some ((clientHandle sampleConfig (fun _ => sampleExchange)
          pipelinedStream).filterMap Iteration.message) :=
  ⟨pipelinedStream_sent, by decide +kernel,
    clientHandle_synchronized sampleConfig (fun _ => sampleExchange)
      pipelinedStream pipelinedStream_sent⟩

end CinderHTTP
