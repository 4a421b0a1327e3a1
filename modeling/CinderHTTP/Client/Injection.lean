import CinderHTTP.Client.Echo

/-!
# Values reflected into a response

The echo route copies a header value of the request into its response.  The
parser ends lines at LF only, so such a value may contain a CR, and a
recipient that ends lines at a bare CR finds fields in it.  This module
determines the accepted messages for which that cannot happen.
-/

namespace CinderHTTP

/-! ## Header values of the router -/

/-- The header values that do not come from the request. -/
def routerTexts : List Bytes :=
  [ascii "application/json", ascii "GET, HEAD", ascii "POST",
    ascii "GET, HEAD, POST"]

theorem cr_not_mem_routerTexts : ∀ text ∈ routerTexts, cr ∉ text := by
  decide

theorem buildAllowHeader_mem {path allow : Bytes}
    (built : buildAllowHeader path = some allow) : allow ∈ routerTexts := by
  rw [routerTexts, List.mem_cons, List.mem_cons, List.mem_cons,
    List.mem_singleton]
  exact .inr (buildAllowHeader_cases built)

theorem httpResponseBuildJson_values {text : Bytes} {response : Response}
    {statusCode : Int} {process : Process}
    (built : (httpResponseBuildJson response statusCode (some text)
      process).1.1 = true) :
    ∀ field ∈ (httpResponseBuildJson response statusCode (some text)
      process).1.2.headers, field.value ∈ routerTexts := by
  rcases buildWithType_cases (ascii "application/json") response statusCode
    text process with same | ⟨failed, _⟩
  · intro field member
    rw [httpResponseBuildJson, same] at member
    rw [List.mem_singleton.mp member]
    decide
  · rw [httpResponseBuildJson, failed] at built
    cases built

theorem buildApiError_values {response : Response} {statusCode : Int}
    {json : Bytes} {allow : Option Bytes} {process : Process}
    (known : ∀ value, allow = some value → value ∈ routerTexts)
    (built : (buildApiError response statusCode json allow process).1.1 =
      true) :
    ∀ field ∈ (buildApiError response statusCode json allow
      process).1.2.headers, field.value ∈ routerTexts := by
  have values := @httpResponseBuildJson_values json response statusCode
    process
  unfold buildApiError at built ⊢
  generalize httpResponseBuildJson response statusCode (some json) process =
    result at values built ⊢
  obtain ⟨⟨_ | _, filled⟩, later⟩ := result
  · cases built
  cases allow with
  | none => exact values rfl
  | some value =>
      simp only at built ⊢
      split_ifs
      · exact values rfl
      rcases httpResponseAddHeader_cases filled (ascii "Allow") value
        later with same | same
      · rw [same]
        intro field member
        rcases List.mem_append.mp member with own | added
        · exact values rfl field own
        · rw [List.mem_singleton.mp added]
          exact known value rfl
      · rw [same]
        exact values rfl

theorem httpResponseSetBodyCopy_headers (response : Response)
    (body : Option Bytes) (length : Nat) (process : Process) :
    (httpResponseSetBodyCopy response body length process).1.2.headers =
      response.headers := by
  unfold httpResponseSetBodyCopy httpResponseSetBodyOwned
  cases body <;> simp only <;> split_ifs <;> rfl

theorem handleEcho_headers {request : Request} {response : Response}
    {process : Process}
    (handled : (handleEcho request response process).1.1 = true) :
    (handleEcho request response process).1.2.headers =
      [{ name := ascii "Content-Type", value := echoContentType request }] := by
  have kept := httpResponseSetBodyCopy_headers
    (httpResponseSetStatus (httpResponseDestroy response process).1 200)
    (some request.body) request.body.length
    (httpResponseDestroy response process).2
  unfold handleEcho at handled ⊢
  simp only at handled ⊢
  generalize httpResponseSetBodyCopy _ (some request.body) _ _ = stored
    at kept handled ⊢
  obtain ⟨⟨_ | _, filled⟩, later⟩ := stored
  · cases handled
  simp only at kept handled ⊢
  rcases httpResponseAddHeader_cases filled (ascii "Content-Type")
    (echoContentType request) later with same | same
  · rw [same]
    simp only [kept]
    rfl
  · rw [same] at handled
    cases handled

/-! ## The dispatch -/

/-- A request that the echo handler answers. -/
def EchoRouted (request : Request) : Prop :=
  request.method = .post ∧
    ∃ tail, request.target = some (ascii "/api/echo" ++ tail) ∧
      AtBoundary question tail

theorem echoRouted_of_selected {request : Request} {target : Bytes}
    {route : Route} (targeted : request.target = some target)
    (selected : selectRoute target request.method none routes = .ok route)
    (echo : route.handler = .echo) : EchoRouted request := by
  have selection := selectRoute_selection target request.method routes
  rw [selected] at selection
  cases selection with
  | chosen member path compatible =>
      have only : ∀ route ∈ routes, route.handler = .echo →
          route.path = ascii "/api/echo" ∧ route.method = .post := by decide
      obtain ⟨named, posted⟩ := only route member echo
      rw [named] at path
      rw [posted] at compatible
      obtain ⟨tail, rfl, boundary⟩ :=
        (takeWhile_eq_iff_boundary (by decide)).mp path.symm
      refine ⟨?_, tail, targeted, boundary⟩
      cases method : request.method with
      | post => rfl
      | get | head | unknown =>
          rw [method] at compatible
          cases compatible

/-- Only the echo handler takes a header value from the request. -/
theorem routerDispatch_values {snapshot : StatsSnapshot} {request : Request}
    {response : Response} {process : Process}
    (handled : (routerDispatch snapshot request response process).1.1 =
      true) :
    ∀ field ∈ (routerDispatch snapshot request response
        process).1.2.headers,
      field.value ∈ routerTexts ∨
        EchoRouted request ∧ field.value = echoContentType request := by
  unfold routerDispatch at handled ⊢
  cases targeted : request.target with
  | none =>
      rw [targeted] at handled
      cases handled
  | some target =>
      simp only [targeted] at handled ⊢
      rcases selected : selectRoute target request.method none routes with
        (_ | path) | route
      · simp only [selected] at handled ⊢
        exact fun field member =>
          .inl (buildApiError_values (by simp) handled field member)
      · simp only [selected] at handled ⊢
        exact fun field member => .inl (buildApiError_values
          (fun value found => buildAllowHeader_mem found) handled field
            member)
      · simp only [selected, Handler.run] at handled ⊢
        intro field member
        cases named : route.handler with
        | health =>
            simp only [named] at handled member
            exact .inl (httpResponseBuildJson_values handled field member)
        | echo =>
            simp only [named] at handled member
            rw [handleEcho_headers handled] at member
            rw [List.mem_singleton.mp member]
            exact .inr ⟨echoRouted_of_selected targeted selected named, rfl⟩
        | stats =>
            simp only [named, handleStats] at handled member
            split_ifs at handled member
            exact .inl (httpResponseBuildJson_values handled field member)

/-! ## What is serialized -/

/-- The responses of a routed request: the one of the router, and those that
the connection policy makes of it. -/
inductive Routed (request : Request) : Response → Prop
  | handled {snapshot : StatsSnapshot} {initial response : Response}
      {process later : Process}
      (dispatched : routerDispatch snapshot request initial process =
        ((true, response), later)) :
      Routed request response
  | announced {response : Response} (keepAlive : Bool)
      (version : Option Bytes) (process : Process)
      (routed : Routed request response) :
      Routed request (httpResponseApplyConnectionPolicy response keepAlive
        version process).1.2

/-- However a recipient ends lines, it finds the status line, the fields and
the blank line in the header section of every response to the request. -/
def InjectionFree (request : Request) : Prop :=
  ∀ response, Routed request response →
    ∀ process bytes later,
      httpResponseSerializeHeaders response process = (some bytes, later) →
      LineEnds ((responseFields response).length + 2) bytes

theorem setConnection_mem {response : Response} {value : Bytes}
    {process : Process} {field : Header}
    (member : field ∈ (httpResponseSetHeader
      { response with suppressAutoConnectionClose := false }
      (ascii "Connection") value process).1.2.headers) :
    field ∈ response.headers ∨ field.value = value := by
  rcases httpResponseSetHeader_cases
    { response with suppressAutoConnectionClose := false }
    (ascii "Connection") value process with same | same
  · rw [same] at member
    rcases List.mem_append.mp member with own | added
    · exact .inl (mem_httpResponseRemoveHeader.mp own).1
    · rw [List.mem_singleton.mp added]
      exact .inr rfl
  · rw [same] at member
    exact .inl (mem_httpResponseRemoveHeader.mp member).1

theorem httpResponseApplyConnectionPolicy_mem {response : Response}
    {keepAlive : Bool} {version : Option Bytes} {process : Process}
    {field : Header}
    (member : field ∈ (httpResponseApplyConnectionPolicy response keepAlive
      version process).1.2.headers) :
    field ∈ response.headers ∨
      field.value ∈ [ascii "close", ascii "keep-alive"] := by
  unfold httpResponseApplyConnectionPolicy at member
  split_ifs at member
  · exact (setConnection_mem member).imp_right (by simp [·])
  · exact (setConnection_mem member).imp_right (by simp [·])
  · exact .inl (mem_httpResponseRemoveHeader.mp member).1

theorem Routed.values {request : Request} {response : Response}
    (routed : Routed request response)
    (clean : CleanValue (echoContentType request))
    (plain : EchoRouted request → cr ∉ echoContentType request) :
    response.Presentable ∧
      ∀ field ∈ response.headers, cr ∉ field.value := by
  induction routed with
  | @handled snapshot initial response process later dispatched =>
      have handled : (routerDispatch snapshot request initial
          process).1.1 = true := by rw [dispatched]
      obtain ⟨statusCode, _, presents⟩ :=
        routerDispatch_presents clean handled
      have values := routerDispatch_values handled
      rw [dispatched] at presents values
      refine ⟨presents.1, ?_⟩
      intro field member
      rcases values field member with own | ⟨echo, reflected⟩
      · exact cr_not_mem_routerTexts _ own
      · rw [reflected]
        exact plain echo
  | announced keepAlive version process routed induction =>
      refine ⟨induction.1.policy _ _ _, ?_⟩
      intro field member
      rcases httpResponseApplyConnectionPolicy_mem member with own | added
      · exact induction.2 field own
      · have texts : ∀ text ∈ [ascii "close", ascii "keep-alive"],
            cr ∉ text := by decide
        exact texts _ added

theorem injectionFree_of_plain {request : Request}
    (clean : CleanValue (echoContentType request))
    (plain : EchoRouted request → cr ∉ echoContentType request) :
    InjectionFree request := by
  intro response routed process bytes later serialized
  obtain ⟨presentable, values⟩ := routed.values clean plain
  have names : ∀ name ∈ responseNames, cr ∉ name := by decide
  have noCr : ∀ line ∈ responseLines response, cr ∉ line := by
    apply responseLines_avoid (by decide)
    · rw [presentable.reason]
      exact (httpReasonPhrase_plain _).1
    · intro field member
      exact ⟨names _ (presentable.names field member), values field member⟩
  have ends := LineEnds.nil.crlf.joinLines noCr
    presentable.tidy.lines_unbroken
  have length : (responseLines response).length =
      (responseFields response).length + 1 := by
    simp [responseLines]
  rw [httpResponseSerializeHeaders_some serialized,
    serializedBytes_joinLines]
  rw [length, List.append_nil] at ends
  exact ends

theorem EchoRouted.plain {request : Request} (echo : EchoRouted request)
    (clean : CleanValue (echoContentType request))
    (short : request.body.length ≤ httpMaxBodySize)
    (free : InjectionFree request) : cr ∉ echoContentType request := by
  obtain ⟨method, tail, target, boundary⟩ := echo
  obtain ⟨handled, _, headers, _, _, length⟩ :=
    handleEcho_granted request httpResponseInit
      (rfl : ({} : Process).allocs = [])
  have presents := handleEcho_presents clean httpResponseInit {}
  have dispatched := routerDispatch_echo method target boundary
    ⟨0, 0, 0, 0, 0, 0⟩ httpResponseInit {}
  generalize handleEcho request httpResponseInit {} = echoed
    at handled headers length presents dispatched
  obtain ⟨⟨flag, response⟩, later⟩ := echoed
  subst handled
  have fits := presents.fits (Nat.le_trans (Nat.le_of_eq length) short)
  have ends := free response (.handled dispatched) {} _ _
    (httpResponseSerializeHeaders_granted fits rfl)
  have shape : ∃ rest, serializedBytes response =
      statusText response ++ crlf ++ ascii "Content-Type" ++
        [colon, space] ++ echoContentType request ++ crlf ++ rest := by
    rw [serializedBytes_fields, responseFields, headers]
    simp only [List.cons_append, List.nil_append, List.map_cons,
      List.flatten_cons, headerLine, List.append_assoc]
    exact ⟨_, rfl⟩
  obtain ⟨rest, shape⟩ := shape
  rw [shape] at ends
  exact ends.not_mem_line clean.1

/-! ## Accepted messages -/

/-- A message posted to the path of the echo route. -/
def PostsEcho (message : Bytes) : Prop :=
  ascii "POST /api/echo " <+: message ∨ ascii "POST /api/echo?" <+: message

instance (message : Bytes) : Decidable (PostsEcho message) :=
  inferInstanceAs (Decidable (_ ∨ _))

theorem MessageParts.Valid.echoRouted_iff {parts : MessageParts}
    (valid : parts.Valid) :
    EchoRouted parts.request ↔ PostsEcho parts.bytes := by
  constructor
  · rintro ⟨method, tail, target, boundary⟩
    have posted : parts.method = ascii "POST" := by
      change httpMethodFromString parts.method = .post at method
      unfold httpMethodFromString at method
      split_ifs at method with get head post
      exact post
    have path : parts.target = ascii "/api/echo" ++ tail :=
      Option.some.inj target
    have shape : ∃ rest, parts.bytes =
        ascii "POST /api/echo" ++ (tail ++ space :: rest) := by
      have text : ascii "POST /api/echo" =
          ascii "POST" ++ space :: ascii "/api/echo" := by decide
      rw [MessageParts.bytes, MessageParts.header,
        MessageParts.requestLine, posted, path, text]
      simp only [List.append_assoc, List.cons_append]
      exact ⟨_, rfl⟩
    obtain ⟨rest, shape⟩ := shape
    have blank : ascii "POST /api/echo " =
        ascii "POST /api/echo" ++ [space] := by decide
    have mark : ascii "POST /api/echo?" =
        ascii "POST /api/echo" ++ [question] := by decide
    rw [PostsEcho, shape, blank, mark, List.prefix_append_right_inj,
      List.prefix_append_right_inj]
    rcases tail with _ | ⟨first, query⟩
    · exact .inl ⟨rest, rfl⟩
    · rw [boundary.eq_of_cons]
      exact .inr ⟨query ++ space :: rest, rfl⟩
  · intro posts
    obtain ⟨method, tail, target, boundary⟩ := valid.echoRequest posts
    refine ⟨?_, tail, congrArg some target, boundary⟩
    change httpMethodFromString parts.method = .post
    rw [method]
    decide

/-- The responses to an accepted message show their own lines only, exactly
when the message does not make the echo route reflect a CR. -/
theorem injectionFree_iff (data : Bytes) (allocs : Allocs)
    (accepted : (httpParseRequest data allocs).result = .ok ()) :
    InjectionFree (httpParseRequest data allocs).request ↔
      (PostsEcho data → cr ∉ echoedType data) := by
  obtain ⟨parts, valid, rfl, request⟩ := httpParseRequest_parsed
    ((ParseOutcome.result_eq_ok_iff _).mp accepted)
  rw [request, ← valid.echoRouted_iff,
    ← echoContentType_eq valid.sectionFields]
  constructor
  · intro free echo
    exact echo.plain valid.echoContentType_clean valid.framed.length_le free
  · exact injectionFree_of_plain valid.echoContentType_clean

theorem injectionFree_iff_posted :
    (httpParseRequest postedMessage []).result = .ok () ∧
      (InjectionFree (httpParseRequest postedMessage []).request ↔
        (PostsEcho postedMessage → cr ∉ echoedType postedMessage)) :=
  ⟨by decide +kernel, injectionFree_iff _ _ (by decide +kernel)⟩

/-- A media type with a bare CR in it. -/
def injectedMessage : Bytes :=
  ascii "POST /api/echo HTTP/1.1\r\n" ++
    ascii "Content-Type: a\rSet-Cookie: b\r\n\r\n"

def injectedRequest : Request :=
  { method := .post
    target := some (ascii "/api/echo")
    version := some (ascii "HTTP/1.1")
    headers := [{ name := ascii "Content-Type"
                  value := ascii "a\rSet-Cookie: b" }]
    body := [] }

def injectedResponse : Response :=
  (routerDispatch ⟨0, 0, 0, 0, 0, 0⟩ injectedRequest httpResponseInit
    {}).1.2

/-- The header section of the response. -/
def injectedSection : Bytes :=
  ascii "HTTP/1.1 200 OK\r\nContent-Type: a\rSet-Cookie: b\r\n" ++
    ascii "Server: CinderHTTP/1.0\r\nConnection: close\r\n" ++
    ascii "Content-Length: 0\r\n\r\n"

/-- The parser accepts it and the router handles it.  A recipient that ends
lines at CR reads one more field in the header section of the response. -/
theorem injectedMessage_reflected :
    httpParseRequest injectedMessage [] =
        { exit := .parsed, request := injectedRequest } ∧
      (httpResponseSerializeHeaders injectedResponse {}).1 =
        some injectedSection ∧
      (responseFields injectedResponse).length = 4 ∧
      ¬InjectionFree injectedRequest := by
  have handled : (routerDispatch ⟨0, 0, 0, 0, 0, 0⟩ injectedRequest
      httpResponseInit {}).1.1 = true := by decide +kernel
  have serialized : (httpResponseSerializeHeaders injectedResponse {}).1 =
      some injectedSection := by decide +kernel
  have fields : (responseFields injectedResponse).length = 4 := by
    decide +kernel
  refine ⟨by decide +kernel, serialized, fields, ?_⟩
  intro free
  have routed : Routed injectedRequest injectedResponse := by
    apply Routed.handled
    exact Prod.ext (Prod.ext handled (Eq.refl injectedResponse)) rfl
  rcases outcome : httpResponseSerializeHeaders injectedResponse {} with
    ⟨bytes, later⟩
  rw [outcome] at serialized
  subst serialized
  have ends := free injectedResponse routed {} injectedSection later outcome
  have returns := ends.returns
  rw [fields] at returns
  revert returns
  decide

end CinderHTTP
