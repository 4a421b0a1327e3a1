import CinderHTTP.Client.Answer
import CinderHTTP.Client.Granted
import CinderHTTP.Client.Namespace
import CinderHTTP.Reader.Agreement

/-!
# The echo, end to end

A client that posts a message to `/api/echo` gets its body back.  The body
crosses the reader, both framing walks, the parser, the router and the send
loop; the statement is about nothing but the bytes received and the bytes
sent, and the body may contain anything, blank lines and whole requests
included.
-/

namespace CinderHTTP

/-- The bytes behind the first blank line. -/
def messageBody (message : Bytes) : Option Bytes :=
  (findInfix blankLine message).map fun index => message.drop (index + 4)

/-- The media type that an echo should carry: the first one of the request,
unless there is none or it is empty. -/
def echoedType (message : Bytes) : Bytes :=
  match fieldsNamed (ascii "Content-Type") (sectionFields message) with
  | [] => ascii "application/octet-stream"
  | field :: _ =>
      if field.value = [] then ascii "application/octet-stream"
      else field.value

/-- The answer to a posted message with a given body. -/
structure EchoReply (message body reply : Bytes) : Prop where
  status : ascii "HTTP/1.1 200 OK\r\n" <+: reply
  contentLength :
    fieldsNamed (ascii "Content-Length") (sectionFields reply) =
      [{ name := ascii "Content-Length", value := decimal body.length }]
  contentType :
    fieldsNamed (ascii "Content-Type") (sectionFields reply) =
      [{ name := ascii "Content-Type", value := echoedType message }]
  body : messageBody reply = some body

/-! ## The request on the wire -/

theorem MessageParts.Valid.messageBody {parts : MessageParts}
    (valid : parts.Valid) :
    CinderHTTP.messageBody parts.bytes = some parts.body := by
  have blank : 4 ≤ parts.header.length := by
    simp [MessageParts.header, crlf]
    omega
  have found : findInfix blankLine parts.bytes =
      some (parts.header.length - 4) := valid.terminator
  rw [CinderHTTP.messageBody, found, Option.map_some,
    Nat.sub_add_cancel blank, MessageParts.bytes, List.drop_left]

theorem MessageParts.Valid.sectionFields {parts : MessageParts}
    (valid : parts.Valid) :
    CinderHTTP.sectionFields parts.bytes = parts.request.headers := by
  have unbroken : ∀ line ∈ parts.requestLine :: parts.fields.map rawLine,
      lf ∉ line := by
    intro line member
    rcases List.mem_cons.mp member with rfl | inFields
    · exact valid.requestLine_unbroken
    · obtain ⟨field, inField, rfl⟩ := List.mem_map.mp inFields
      exact (valid.fieldSyntax field inField).lineLf
  have nonempty : ∀ line ∈ parts.requestLine :: parts.fields.map rawLine,
      line ≠ [] := by
    intro line member
    rcases List.mem_cons.mp member with rfl | inFields
    · simp [MessageParts.requestLine]
    · obtain ⟨field, _, rfl⟩ := List.mem_map.mp inFields
      exact rawLine_ne_nil field
  have lines : sectionLines parts.bytes =
      parts.requestLine :: parts.fields.map rawLine :=
    sectionLines_joinLines parts.body unbroken nonempty
  rw [CinderHTTP.sectionFields, lines, List.drop_one, List.tail_cons,
    List.filterMap_map]
  apply List.filterMap_eq_map_iff_forall_eq_some.mpr
  intro field member
  rw [Function.comp_apply, fieldOf,
    cutFirst_rawLine (valid.fieldSyntax field member).nameColon]
  rfl

theorem echoContentType_eq {request : Request} {message : Bytes}
    (headers : sectionFields message = request.headers) :
    echoContentType request = echoedType message := by
  unfold echoContentType echoedType httpRequestGetHeader fieldsNamed
  rw [headers, ← List.head?_filter]
  cases request.headers.filter fun field =>
      headerNameEqual field.name (ascii "Content-Type") with
  | nil => rfl
  | cons field others => rfl

theorem target_of_append {target text rest behind : Bytes}
    (clean : space ∉ text)
    (same : target ++ space :: rest = text ++ behind) :
    ∃ tail, target = text ++ tail := by
  rcases List.append_eq_append_iff.mp same with
    ⟨more, long, front⟩ | ⟨tail, long, _⟩
  · cases more with
    | nil => exact ⟨[], by rw [long, List.append_nil, List.append_nil]⟩
    | cons first more =>
        obtain ⟨rfl, _⟩ := List.cons.inj front
        rw [long] at clean
        simp at clean
  · exact ⟨tail, long⟩

/-- A message that starts with the method and the path of the echo, up to a
blank or a question mark, is a request for it. -/
theorem MessageParts.Valid.echoRequest {parts : MessageParts}
    (valid : parts.Valid)
    (line : ascii "POST /api/echo " <+: parts.bytes ∨
      ascii "POST /api/echo?" <+: parts.bytes) :
    parts.method = ascii "POST" ∧
      ∃ tail, parts.target = ascii "/api/echo" ++ tail ∧
        AtBoundary question tail := by
  obtain ⟨_, methodSpace, _⟩ :=
    methodTokenIsWellFormed_of_supported valid.method
  have postSpace : space ∉ ascii "POST" := by decide
  have pathSpace : space ∉ ascii "/api/echo" := by decide
  obtain ⟨rest, shape⟩ : ∃ rest, parts.bytes =
      parts.method ++ space :: (parts.target ++ space :: rest) := by
    refine ⟨parts.version ++ crlf ++ fieldLines parts.fields ++ crlf ++
      parts.body, ?_⟩
    simp [MessageParts.bytes, MessageParts.header, MessageParts.requestLine]
  -- everything up to the first blank is the method
  have behindMethod : ∀ behind, ascii "POST" ++ space :: behind =
      parts.bytes → parts.method = ascii "POST" ∧
        parts.target ++ space :: rest = behind := by
    intro behind same
    rw [shape] at same
    obtain ⟨method, others⟩ := append_inj_of_boundary postSpace methodSpace
      (.cons _ _) (.cons _ _) same
    exact ⟨method.symm, (List.cons.inj others).2.symm⟩
  rcases line with ⟨behind, same⟩ | ⟨behind, same⟩
  · obtain ⟨method, targeted⟩ := behindMethod
      (ascii "/api/echo" ++ space :: behind) same
    obtain ⟨target, _⟩ := append_inj_of_boundary valid.targetSpace
      pathSpace (.cons _ _) (.cons _ _) targeted
    exact ⟨method, [], by rw [target, List.append_nil], .nil _⟩
  · obtain ⟨method, targeted⟩ := behindMethod
      (ascii "/api/echo?" ++ behind) same
    obtain ⟨query, target⟩ := target_of_append (by decide) targeted
    refine ⟨method, question :: query, ?_, .cons _ _⟩
    rw [target]
    rfl

/-! ## The response -/

theorem routerIsApiRequest_echo {request : Request} {tail : Bytes}
    (target : request.target = some (ascii "/api/echo" ++ tail)) :
    routerIsApiRequest request = true := by
  rw [routerIsApiRequest, target, pathHasApiPrefix_iff]
  exact ⟨ascii "/echo" ++ tail, rfl, .inl (.cons _ _)⟩

theorem selectRoute_echo {tail : Bytes}
    (boundary : AtBoundary question tail) :
    selectRoute (ascii "/api/echo" ++ tail) .post none routes =
      .ok { method := .post, path := ascii "/api/echo", handler := .echo } := by
  have other : pathEquals (ascii "/api/echo" ++ tail)
      (ascii "/api/health") = false := rfl
  have same : pathEquals (ascii "/api/echo" ++ tail)
      (ascii "/api/echo") = true :=
    (pathEquals_iff (by decide) _).mpr ⟨tail, rfl, boundary⟩
  simp [routes, selectRoute, other, same, methodCompatible]

/-- What the dispatch decides on an echo request. -/
structure EchoDecision (request : Request) (decision : Decision) : Prop where
  ready : decision.responseReady = true
  status : decision.status = 200
  presents : Presents 200 decision.response
  headers : decision.response.headers =
    [{ name := ascii "Content-Type", value := echoContentType request }]
  inMemory : decision.response.bodyKind ≠ .file
  bodyBytes : bodyBytes decision.response = request.body
  bodyLength : decision.response.bodyLength = request.body.length

theorem routerDispatch_echo {request : Request} {tail : Bytes}
    (method : request.method = .post)
    (target : request.target = some (ascii "/api/echo" ++ tail))
    (boundary : AtBoundary question tail) (snapshot : StatsSnapshot)
    (response : Response) (process : Process) :
    routerDispatch snapshot request response process =
      handleEcho request response process := by
  unfold routerDispatch
  rw [target]
  simp only [method, selectRoute_echo boundary]
  rfl

theorem chooseResponse_echo {request : Request} {tail : Bytes}
    (method : request.method = .post)
    (target : request.target = some (ascii "/api/echo" ++ tail))
    (boundary : AtBoundary question tail)
    (clean : CleanValue (echoContentType request)) (config : ServerConfig)
    (fs : FileSystem) (snapshot : StatsSnapshot) {process : Process}
    (granted : process.allocs = []) :
    EchoDecision request (chooseResponse config fs snapshot request
      process).1.closeOnStatus := by
  have dispatched := routerDispatch_echo method target boundary snapshot
    httpResponseInit process
  obtain ⟨handled, _, headers, inMemory, bytes, length⟩ :=
    handleEcho_granted request httpResponseInit granted
  have presents := handleEcho_presents clean httpResponseInit process
  unfold chooseResponse
  rw [if_pos (routerIsApiRequest_echo target), dispatched]
  generalize handleEcho request httpResponseInit process = echoed
    at handled headers inMemory bytes length presents ⊢
  obtain ⟨⟨flag, response⟩, later⟩ := echoed
  subst handled
  have open_ : statusRequiresClose response.statusCode = false := by
    rw [presents.2]
    decide
  simp only [Decision.closeOnStatus, open_, Bool.false_eq_true, and_false,
    if_false]
  exact ⟨rfl, presents.2, presents, headers, inMemory, bytes, length⟩

theorem messageBody_serialized {response : Response}
    (presentable : response.Presentable) (body : Bytes) :
    messageBody (serializedBytes response ++ body) = some body := by
  have long := serializedBytes_long response
  rw [messageBody, findInfix_serialized presentable.tidy, Option.map_some,
    Nat.sub_add_cancel long, List.drop_left]

/-- The bytes of a response that carries the body and the media type of a
message are the reply to it. -/
theorem echoReply_serialized {message body : Bytes} {response : Response}
    (presents : Presents 200 response)
    (typed : fieldsNamed (ascii "Content-Type") response.headers =
      [{ name := ascii "Content-Type", value := echoedType message }])
    (length : response.bodyLength = body.length) :
    EchoReply message body (serializedBytes response ++ body) := by
  have fields := sectionFields_serialized presents.1.tidy body
  constructor
  · have line : statusLine response = ascii "HTTP/1.1 200 OK\r\n" := by
      rw [statusLine, presents.1.reason, presents.2]
      decide +kernel
    rw [← line, serializedBytes]
    simp only [List.append_assoc]
    exact List.prefix_append _ _
  · rw [fields, responseFields_contentLength fun field member =>
      (responseNames_clean (presents.1.names field member)).2, length]
  · have server : headerNameEqual (ascii "Server")
        (ascii "Content-Type") = false := by decide
    have connection : headerNameEqual (ascii "Connection")
        (ascii "Content-Type") = false := by decide
    have counted : headerNameEqual (ascii "Content-Length")
        (ascii "Content-Type") = false := by decide
    rw [fields, ← typed]
    unfold responseFields fieldsNamed
    cases needServer response <;> cases needConnection response <;>
      cases needContentLength response <;>
      simp [server, connection, counted]
  · exact messageBody_serialized presents.1 body

/-! ## The connection -/

theorem Presents.fits {response : Response}
    (presents : Presents 200 response)
    (short : response.bodyLength ≤ httpMaxBodySize) : response.Fits := by
  constructor
  · rw [statusLine, presents.1.reason, presents.2]
    decide +kernel
  · apply lengthHeader_length_lt
    exact Nat.lt_of_le_of_lt short (by decide)

theorem EchoDecision.fits {parts : MessageParts} {decision : Decision}
    (decided : EchoDecision parts.request decision) (valid : parts.Valid) :
    decision.response.Fits := by
  apply decided.presents.fits
  rw [decided.bodyLength]
  exact valid.framed.length_le

theorem EchoDecision.reply {parts : MessageParts} {decision : Decision}
    (decided : EchoDecision parts.request decision) (valid : parts.Valid)
    {response : Response} (restyled : Restyled decision.response response)
    (presentable : response.Presentable) :
    EchoReply parts.bytes parts.body
      (serializedBytes response ++ parts.body) := by
  have other : headerNameEqual (ascii "Connection")
      (ascii "Content-Type") = false := by decide
  have own : headerNameEqual (ascii "Content-Type")
      (ascii "Content-Type") = true := headerNameEqual_self _
  have fields := restyled.named other
  apply echoReply_serialized
    ⟨presentable, restyled.statusCode.trans decided.presents.2⟩
  · rw [decided.headers, List.filter_singleton, own,
      echoContentType_eq valid.sectionFields] at fields
    exact List.perm_singleton.mp fields
  · exact restyled.bodyLength.trans decided.bodyLength

/-- A pass that finds an echo request at the front of its stream sends the
reply and leaves the rest of the stream. -/
theorem clientIteration_echoes {config : ServerConfig} {exchange : Exchange}
    {state : ClientState} {parts : MessageParts} {rest : Bytes}
    (valid : parts.Valid)
    (line : ascii "POST /api/echo " <+: parts.bytes ∨
      ascii "POST /api/echo?" <+: parts.bytes)
    (stream : state.reader.data ++ state.pending = parts.bytes ++ rest)
    (faultless : exchange.Faultless)
    (prompt : (clientIteration config exchange state).read.exit.result ≠
      .error .timeout) :
    EchoReply parts.bytes parts.body
        (clientIteration config exchange state).output ∧
      (clientIteration config exchange state).after.reader.data ++
        (clientIteration config exchange state).after.pending = rest := by
  obtain ⟨method, tail, target, boundary⟩ := valid.echoRequest line
  have parsed := httpParseRequest_bytes valid
  have posted : parts.request.method = .post := by
    change httpMethodFromString parts.method = .post
    rw [method]
    decide
  rw [clientIteration_read] at prompt
  obtain ⟨result, left⟩ := httpReaderNextRequest_returns valid.frameHead
    stream faultless.read prompt
  rw [← clientIteration_read] at result left
  obtain ⟨sameReader, samePending⟩ :=
    clientIteration_after config exchange state
  rw [← sameReader, ← samePending] at left
  refine ⟨?_, left⟩
  have accepted : (httpParseRequest parts.bytes
      exchange.parseAllocs).result = .ok () := by
    rw [faultless.parseAllocs, parsed]
    rfl
  obtain ⟨seen, delivered⟩ := clientIteration_accepted result accepted
  rw [faultless.parseAllocs, parsed] at seen delivered
  have decided : EchoDecision parts.request (chooseResponse config
      exchange.fs exchange.snapshot parts.request
      { state.process with
        allocs := exchange.buildAllocs }).1.closeOnStatus :=
    chooseResponse_echo posted (congrArg some target) boundary
      valid.echoContentType_clean _ _ _ faultless.buildAllocs
  obtain ⟨response, restyled, handed, success⟩ := sendOne_sound faultless
    decided.ready (by rw [decided.status]; decide)
    (by rw [decided.status]; exact decided.presents) (decided.fits valid)
    decided.inMemory (state.requests + 1) (chooseResponse config
      exchange.fs exchange.snapshot parts.request
      { state.process with allocs := exchange.buildAllocs }).2
  have given : (clientIteration config exchange state).handed =
      some response := by
    rw [Iteration.handed, delivered]
    exact handed
  have sent : (clientIteration config exchange state).sendsSucceed =
      true := by
    rw [Iteration.sendsSucceed, delivered]
    exact Bool.or_eq_true_iff.mpr (.inr success)
  obtain ⟨presentable, output, _⟩ := clientIteration_output given sent
  have answered : parsedAsHead
      (clientIteration config exchange state).parsed = false := by
    simp [seen, parsedAsHead, posted]
  rw [output, answered, if_neg Bool.false_ne_true, restyled.bodyBytes,
    decided.bodyBytes]
  exact decided.reply valid restyled presentable

theorem clientIteration_drained {config : ServerConfig}
    {exchange : Exchange} {state : ClientState}
    (drained : state.reader.data ++ state.pending = [])
    (calm : exchange.read.Undisturbed) :
    (clientIteration config exchange state).delivery = none := by
  have read := clientIteration_read config exchange state
  have closed : frameHead (state.reader.data ++ state.pending) =
      .error .clientClosed := by
    rw [drained]
    decide +kernel
  unfold clientIteration decideResponse
  cases result : (clientIteration config exchange
      state).read.exit.result with
  | ok message =>
      rw [read] at result
      rw [(httpReaderNextRequest_message result).1] at closed
      cases closed
  | error failure =>
      rw [read] at result
      rcases httpReaderNextRequest_failure result with
        refused | rfl | ⟨_, disturbed⟩
      · rw [closed] at refused
        cases refused
        simp only [result]
      · have empty := httpReaderNextRequest_timeout_drained result drained
        have before := (List.append_eq_nil_iff.mp drained).1
        simp only [result, empty, before, List.length_nil, and_self,
          if_true]
      · exact absurd calm disturbed

/-- Whatever an accepted message to the echo contains, however it arrives and
however the reply is taken, the bytes sent on the connection are the reply. -/
theorem clientHandle_echoes (config : ServerConfig) (env : Nat → Exchange)
    (message body : Bytes)
    (accepted : (httpParseRequest message []).result = .ok ())
    (line : ascii "POST /api/echo " <+: message ∨
      ascii "POST /api/echo?" <+: message)
    (carried : messageBody message = some body)
    (faultless : ∀ pass, (env pass).Faultless)
    (prompt : ∀ first ∈ (clientHandle config env message).head?,
      first.read.exit.result ≠ .error .timeout) :
    EchoReply message body
      ((clientHandle config env message).flatMap Iteration.output) := by
  obtain ⟨parts, valid, rfl⟩ :=
    (httpParseRequest_iff_grammar message).1.mp accepted
  rw [valid.messageBody, Option.some.injEq] at carried
  subst carried
  unfold clientHandle at prompt ⊢
  rw [clientLoop_eq] at prompt ⊢
  obtain ⟨reply, left⟩ := clientIteration_echoes valid line
    (List.append_nil _).symm (faultless 0) (prompt _ rfl)
  split_ifs
  · have silent : (clientIteration config (env 1) (clientIteration config
        (env 0) _).after).delivery = none :=
      clientIteration_drained left (faultless 1).read
    rw [clientLoop_eq, List.flatMap_cons, List.flatMap_cons]
    simp only [Iteration.continues, Iteration.output, Nat.zero_add, silent,
      Bool.false_eq_true, if_false, List.flatMap_nil, List.append_nil]
    exact reply
  · rw [List.flatMap_singleton]
    exact reply

/-- A post whose body contains a blank line. -/
def postedMessage : Bytes :=
  ascii "POST /api/echo?again HTTP/1.1\r\nContent-Type: a/b\r\n" ++
    ascii "Content-Length: 7\r\n\r\n" ++ ascii "x\r\n\r\nGE"

/-- It arrives in pieces, and the reply is taken in pieces. -/
def piecewiseExchange : Exchange :=
  { read := trickledArrival
    fs := bareFileSystem
    snapshot := ⟨0, 0, 0, 0, 0, 0⟩
    transfer := { sends := [.accepted 5, .interrupted, .accepted 1] } }

theorem piecewiseExchange_faultless : piecewiseExchange.Faultless := by
  constructor
  case read => exact trickledArrival_undisturbed
  case sends =>
    intro answer member
    simp only [piecewiseExchange, List.mem_cons, List.not_mem_nil,
      or_false] at member
    rcases member with rfl | rfl | rfl
    all_goals trivial
  all_goals rfl

theorem postedMessage_prompt :
    ∀ first ∈ (clientHandle sampleConfig (fun _ => piecewiseExchange)
      postedMessage).head?, first.read.exit.result ≠ .error .timeout := by
  have evaluated : ((clientHandle sampleConfig (fun _ => piecewiseExchange)
      postedMessage).head?.all fun first =>
        decide (first.read.exit.result ≠ .error .timeout)) = true := by
    decide +kernel
  intro first member
  rw [Option.mem_def.mp member] at evaluated
  simpa using evaluated

theorem clientHandle_echoes_posted :
    EchoReply postedMessage (ascii "x\r\n\r\nGE")
      ((clientHandle sampleConfig (fun _ => piecewiseExchange)
        postedMessage).flatMap Iteration.output) :=
  clientHandle_echoes sampleConfig (fun _ => piecewiseExchange)
    postedMessage (ascii "x\r\n\r\nGE") (by decide +kernel)
    (.inr (by decide)) (by decide +kernel)
    (fun _ => piecewiseExchange_faultless) postedMessage_prompt

end CinderHTTP
