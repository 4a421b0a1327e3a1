import CinderHTTP.Client.Handler
import CinderHTTP.Connection.Announcement
import CinderHTTP.Http.Grammar

/-!
# The responses of a connection

Every response that `client_handle` hands over is presentable: its status
line is the standard one, its headers are few and cannot break a line, and its
length is the length of its body.  That holds whatever the request contained,
because the only text taken over from a request is a header value that the
parser has accepted.
-/

namespace CinderHTTP

/-! ## Presentable responses -/

/-- The header names that responses are built with. -/
def responseNames : List Bytes :=
  [ascii "Content-Type", ascii "Allow", ascii "Connection"]

/-- A value that stays on its line and has no blanks around it. -/
def CleanValue (value : Bytes) : Prop :=
  lf ∉ value ∧ trimOws value = value

instance (value : Bytes) : Decidable (CleanValue value) :=
  inferInstanceAs (Decidable (_ ∧ _))

structure Response.Presentable (response : Response) : Prop where
  reason : response.reasonPhrase = httpReasonPhrase response.statusCode
  names : ∀ field ∈ response.headers, field.name ∈ responseNames
  values : ∀ field ∈ response.headers, CleanValue field.value
  body : response.BodyMatches

theorem responseNames_clean {name : Bytes} (member : name ∈ responseNames) :
    (lf ∉ name ∧ colon ∉ name) ∧
      headerNameEqual name (ascii "Content-Length") = false := by
  simp only [responseNames, List.mem_cons, List.not_mem_nil,
    or_false] at member
  rcases member with rfl | rfl | rfl <;> decide

namespace Response.Presentable

theorem tidy {response : Response} (presentable : response.Presentable) :
    response.Tidy := by
  constructor
  · rw [presentable.reason]
    exact (httpReasonPhrase_plain _).2.1
  · intro field member
    exact (responseNames_clean (presentable.names field member)).1
  · exact presentable.values

/-- The serializer adds the only Content-Length. -/
theorem needContentLength {response : Response}
    (presentable : response.Presentable) :
    CinderHTTP.needContentLength response = true := by
  rw [CinderHTTP.needContentLength, Bool.not_eq_true',
    responseHasHeader_eq_false_iff]
  intro field member
  exact (responseNames_clean (presentable.names field member)).2

theorem addHeader {response : Response} (presentable : response.Presentable)
    {name value : Bytes} (known : name ∈ responseNames)
    (clean : CleanValue value) (process : Process) :
    (httpResponseAddHeader response name value process).1.2.Presentable := by
  rcases httpResponseAddHeader_cases response name value process with
    added | refused
  · rw [added]
    constructor
    · exact presentable.reason
    · intro field member
      rcases List.mem_append.mp member with old | new
      · exact presentable.names field old
      · rw [List.mem_singleton.mp new]
        exact known
    · intro field member
      rcases List.mem_append.mp member with old | new
      · exact presentable.values field old
      · rw [List.mem_singleton.mp new]
        exact clean
    · exact presentable.body
  · rw [refused]
    exact presentable

theorem removeHeader {response : Response}
    (presentable : response.Presentable) (name : Bytes) :
    (httpResponseRemoveHeader response name).2.Presentable := by
  constructor
  · exact presentable.reason
  · intro field member
    exact presentable.names field (mem_httpResponseRemoveHeader.mp member).1
  · intro field member
    exact presentable.values field (mem_httpResponseRemoveHeader.mp member).1
  · exact presentable.body

theorem suppress {response : Response} (presentable : response.Presentable)
    (flag : Bool) :
    ({ response with
      suppressAutoConnectionClose := flag } : Response).Presentable :=
  { reason := presentable.reason
    names := presentable.names
    values := presentable.values
    body := presentable.body }

/-- The policy changes headers only, successful or not. -/
theorem policy {response : Response} (presentable : response.Presentable)
    (keepAlive : Bool) (version : Option Bytes) (process : Process) :
    (httpResponseApplyConnectionPolicy response keepAlive version
      process).1.2.Presentable := by
  have known : ascii "Connection" ∈ responseNames := by decide
  unfold httpResponseApplyConnectionPolicy
  split_ifs
  · exact ((presentable.suppress false).removeHeader _).addHeader known
      (by decide +kernel) process
  · exact ((presentable.suppress false).removeHeader _).addHeader known
      (by decide +kernel) process
  · exact (presentable.removeHeader _).suppress true

end Response.Presentable

theorem httpResponseApplyConnectionPolicy_statusCode (response : Response)
    (keepAlive : Bool) (version : Option Bytes) (process : Process) :
    (httpResponseApplyConnectionPolicy response keepAlive version
      process).1.2.statusCode = response.statusCode := by
  unfold httpResponseApplyConnectionPolicy
  split_ifs
  · rcases httpResponseSetHeader_cases
      { response with suppressAutoConnectionClose := false }
      (ascii "Connection") (ascii "close") process with same | same
    · rw [same]
    · rw [same]
      rfl
  · rcases httpResponseSetHeader_cases
      { response with suppressAutoConnectionClose := false }
      (ascii "Connection") (ascii "keep-alive") process with same | same
    · rw [same]
    · rw [same]
      rfl
  · rfl

/-! ## Builders -/

/-- A presentable response with the given status. -/
def Presents (statusCode : Int) (response : Response) : Prop :=
  response.Presentable ∧ response.statusCode = statusCode

theorem presents_fresh (statusCode : Int) :
    Presents statusCode
      (httpResponseSetStatus httpResponseInit statusCode) := by
  refine ⟨⟨rfl, ?_, ?_, rfl⟩, rfl⟩
  · intro field member
    cases member
  · intro field member
    cases member

theorem Presents.addHeader {statusCode : Int} {response : Response}
    (presents : Presents statusCode response) {name value : Bytes}
    (known : name ∈ responseNames) (clean : CleanValue value)
    (process : Process) :
    Presents statusCode
      (httpResponseAddHeader response name value process).1.2 := by
  refine ⟨presents.1.addHeader known clean process, ?_⟩
  rcases httpResponseAddHeader_cases response name value process with
    same | same
  · rw [same]
    exact presents.2
  · rw [same]
    exact presents.2

theorem buildWithType_presents {contentType text : Bytes}
    {response : Response} {statusCode : Int} {process : Process}
    (clean : CleanValue contentType)
    (built : (buildWithType contentType response statusCode (some text)
      process).1.1 = true) :
    Presents statusCode (buildWithType contentType response statusCode
      (some text) process).1.2 := by
  rcases buildWithType_cases contentType response statusCode text
    process with same | ⟨failed, _⟩
  · have known : ascii "Content-Type" ∈ responseNames := by decide
    rw [same]
    refine ⟨⟨rfl, ?_, ?_, text, rfl, rfl⟩, rfl⟩
    · intro field member
      rw [List.mem_singleton.mp member]
      exact known
    · intro field member
      rw [List.mem_singleton.mp member]
      exact clean
  · rw [failed] at built
    cases built

theorem httpResponseSetBodyCopy_presents {statusCode : Int}
    {response : Response} (presents : Presents statusCode response)
    (bytes : Bytes) (process : Process) :
    Presents statusCode (httpResponseSetBodyCopy response (some bytes)
      bytes.length process).1.2 := by
  obtain ⟨⟨reason, names, values, body⟩, status⟩ := presents
  unfold httpResponseSetBodyCopy httpResponseSetBodyOwned
  simp only [reduceCtorEq, and_false, and_self, if_false, if_true]
  split_ifs
  · exact ⟨⟨reason, names, values, rfl⟩, status⟩
  · exact ⟨⟨reason, names, values, body⟩, status⟩
  · exact ⟨⟨reason, names, values, bytes.take bytes.length, rfl,
      by rw [List.take_length]⟩, status⟩

/-! ## The router -/

theorem trimOws_trimOws (text : Bytes) :
    trimOws (trimOws text) = trimOws text := by
  have front : skipOws (trimOws text) = trimOws text := by
    apply List.dropWhile_eq_self_iff.mpr
    intro nonempty blank
    have beginning : trimOws text <+: skipOws text :=
      List.rdropWhile_prefix _ _
    rw [beginning.getElem nonempty] at blank
    have first := List.dropWhile_get_zero_not isOws text
      (Nat.lt_of_lt_of_le nonempty beginning.length_le)
    exact first blank
  rw [trimOws, front, trimOwsEnd]
  exact List.rdropWhile_idempotent _ _

theorem MessageParts.Valid.headerValue_clean {parts : MessageParts}
    (valid : parts.Valid) {field : Header}
    (member : field ∈ parts.request.headers) : CleanValue field.value := by
  obtain ⟨raw, inFields, rfl⟩ := List.mem_map.mp member
  refine ⟨?_, trimOws_trimOws raw.value⟩
  intro broken
  apply (valid.fieldSyntax raw inFields).lineLf
  rw [rawLine, List.mem_append, List.mem_cons]
  exact .inr (.inr (mem_trimOws broken))

theorem MessageParts.Valid.echoContentType_clean {parts : MessageParts}
    (valid : parts.Valid) : CleanValue (echoContentType parts.request) := by
  unfold echoContentType
  cases found : httpRequestGetHeader parts.request (ascii "Content-Type") with
  | none =>
      simp only
      decide +kernel
  | some value =>
      simp only
      split_ifs
      · decide +kernel
      · obtain ⟨field, member, _, rfl⟩ := httpRequestGetHeader_mem found
        exact valid.headerValue_clean member

theorem handleEcho_presents {request : Request}
    (clean : CleanValue (echoContentType request)) (response : Response)
    (process : Process) :
    Presents 200 (handleEcho request response process).1.2 := by
  unfold handleEcho
  simp only
  have copied := httpResponseSetBodyCopy_presents (presents_fresh 200)
    request.body (httpResponseDestroy response process).2
  change Presents 200 (httpResponseSetBodyCopy (httpResponseSetStatus
    (httpResponseDestroy response process).1 200) _ _ _).1.2 at copied
  rcases stored : httpResponseSetBodyCopy (httpResponseSetStatus
    (httpResponseDestroy response process).1 200) (some request.body)
    request.body.length (httpResponseDestroy response process).2 with
      ⟨⟨_ | _, filled⟩, later⟩
  · simp only [stored] at copied ⊢
    exact copied
  · simp only [stored] at copied ⊢
    exact copied.addHeader (by decide) clean later

theorem httpResponseBuildJson_presents {text : Bytes} {response : Response}
    {statusCode : Int} {process : Process}
    (built : (httpResponseBuildJson response statusCode (some text)
      process).1.1 = true) :
    Presents statusCode (httpResponseBuildJson response statusCode
      (some text) process).1.2 :=
  buildWithType_presents (by decide +kernel) built

theorem httpResponseBuildText_presents {text : Bytes} {response : Response}
    {statusCode : Int} {process : Process}
    (built : (httpResponseBuildText response statusCode (some text)
      process).1.1 = true) :
    Presents statusCode (httpResponseBuildText response statusCode
      (some text) process).1.2 :=
  buildWithType_presents (by decide +kernel) built

theorem buildAllowHeader_clean {path allow : Bytes}
    (built : buildAllowHeader path = some allow) : CleanValue allow := by
  rcases buildAllowHeader_cases built with get | post | both
  · rw [get]
    decide
  · rw [post]
    decide
  · rw [both]
    decide

theorem buildApiError_presents {response : Response} {statusCode : Int}
    {json : Bytes} {allow : Option Bytes} {process : Process}
    (clean : ∀ value, allow = some value → CleanValue value)
    (built : (buildApiError response statusCode json allow process).1.1 =
      true) :
    Presents statusCode
      (buildApiError response statusCode json allow process).1.2 := by
  unfold buildApiError at built ⊢
  rcases stored : httpResponseBuildJson response statusCode (some json)
    process with ⟨⟨_ | _, filled⟩, later⟩
  · simp [stored] at built
  have presents : Presents statusCode filled := by
    have whole : Presents statusCode (httpResponseBuildJson response
        statusCode (some json) process).1.2 :=
      httpResponseBuildJson_presents (by rw [stored])
    rwa [stored] at whole
  simp only [stored] at built ⊢
  cases allow with
  | none => exact presents
  | some value =>
      simp only at built ⊢
      split_ifs
      · exact presents
      · exact presents.addHeader (by decide) (clean value rfl) later

/-- The statuses of the router. -/
def routerStatuses : List Int := [200, 404, 405]

theorem routerDispatch_presents {snapshot : StatsSnapshot}
    {request : Request} {response : Response} {process : Process}
    (clean : CleanValue (echoContentType request))
    (handled : (routerDispatch snapshot request response process).1.1 =
      true) :
    ∃ statusCode ∈ routerStatuses, Presents statusCode
      (routerDispatch snapshot request response process).1.2 := by
  unfold routerDispatch at handled ⊢
  cases targeted : request.target with
  | none => simp [targeted] at handled
  | some target =>
      rcases selected : selectRoute target request.method none routes with
        (_ | path) | route
      · simp only [targeted, selected] at handled ⊢
        exact ⟨404, by decide, buildApiError_presents (by simp) handled⟩
      · simp only [targeted, selected] at handled ⊢
        exact ⟨405, by decide, buildApiError_presents
          (fun value found => buildAllowHeader_clean found) handled⟩
      · refine ⟨200, by decide, ?_⟩
        simp only [targeted, selected, Handler.run] at handled ⊢
        cases named : route.handler with
        | health =>
            simp only [named] at handled ⊢
            exact httpResponseBuildJson_presents handled
        | echo =>
            simp only
            exact handleEcho_presents clean response process
        | stats =>
            simp only [named, handleStats] at handled ⊢
            split_ifs at handled ⊢
            exact httpResponseBuildJson_presents handled

/-! ## Static files -/

theorem mimeTypeFromPath_clean (path : Bytes) :
    CleanValue (mimeTypeFromPath path) := by
  have table : ∀ entry ∈ mimeTable, CleanValue entry.2 := by decide +kernel
  have default : CleanValue octetStream := by decide +kernel
  unfold mimeTypeFromPath
  cases pathExtension path with
  | none => exact default
  | some extension =>
      simp only
      split
      · rename_i entry found
        exact table entry (List.mem_of_find?_eq_some found)
      · exact default

theorem attachDescriptor_presents {statusCode : Int}
    {descriptor : Descriptor} {response filled : Response}
    {process later : Process} (presents : Presents statusCode response)
    (success : attachDescriptor descriptor response process =
      ((.ok (), filled), later)) : Presents statusCode filled := by
  obtain ⟨⟨reason, names, values, _⟩, status⟩ := presents
  unfold attachDescriptor at success
  cases looked : descriptor.file.fstat with
  | error errno => simp [looked] at success
  | ok stat =>
      simp only [looked] at success
      split_ifs at success with irregular negative large huge
      all_goals try simp only [Prod.mk.injEq, reduceCtorEq, false_and] at success
      unfold httpResponseSetFileBody at success
      rw [if_neg negative, if_neg huge] at success
      simp only [Prod.mk.injEq, true_and] at success
      rw [← success.1]
      exact ⟨⟨reason, names, values, rfl⟩, status⟩

theorem fillFileResponse_presents {fs : FileSystem}
    {response filled : Response} {path : Bytes} {process later : Process}
    (success : fillFileResponse fs response path process =
      ((.ok (), filled), later)) : Presents 200 filled := by
  unfold fillFileResponse at success
  simp only at success
  have known : ascii "Content-Type" ∈ responseNames := by decide
  have typed := (presents_fresh 200).addHeader known
    (mimeTypeFromPath_clean path) (httpResponseDestroy response process).2
  change Presents 200 (httpResponseAddHeader (httpResponseSetStatus
    (httpResponseDestroy response process).1 200) _ _ _).1.2 at typed
  split at success
  · simp at success
  rename_i headed between added
  rw [added] at typed
  cases opening : fs.openRead path with
  | error errno => simp [Process.openRead, opening] at success
  | ok file =>
      simp only [Process.openRead, opening] at success
      exact attachDescriptor_presents typed success

theorem staticFilesServe_presents {fs : FileSystem} {documentRoot : Bytes}
    {request : Request} {response filled : Response}
    {process later : Process}
    (success : staticFilesServe fs documentRoot request response process =
      ((.ok (), filled), later)) : Presents 200 filled := by
  obtain ⟨_, _, _, _, _, filling⟩ := staticFilesServe_ok success
  exact fillFileResponse_presents filling

theorem staticFilesBuildError_presents {response : Response}
    {statusCode : Int} {heading : Bytes} {process : Process}
    (built : (staticFilesBuildError response statusCode heading
      process).1.1 = true) :
    Presents statusCode (staticFilesBuildError response statusCode heading
      process).1.2 := by
  unfold staticFilesBuildError at built ⊢
  split_ifs at built ⊢
  exact buildWithType_presents (by decide +kernel) built

theorem staticFilesBuildNotFound_presents {fs : FileSystem}
    {documentRoot : Bytes} {response : Response} {process : Process}
    (built : (staticFilesBuildNotFound fs documentRoot response
      process).1.1 = true) :
    Presents 404 (staticFilesBuildNotFound fs documentRoot response
      process).1.2 := by
  unfold staticFilesBuildNotFound at built ⊢
  rcases served : staticFilesServe fs documentRoot notFoundRequest
    httpResponseInit process with ⟨⟨failure | ⟨⟩, page⟩, between⟩
  · simp only [served] at built ⊢
    exact staticFilesBuildError_presents built
  · obtain ⟨⟨_, names, values, body⟩, _⟩ := staticFilesServe_presents served
    exact ⟨⟨rfl, names, values, body⟩, rfl⟩

/-! ## Decisions -/

/-- An error response that was built has the status it was asked for. -/
theorem buildStaticErrorResponse_presents {config : ServerConfig}
    {fs : FileSystem} {response : Response} {status : Int}
    {process : Process}
    (built : (buildStaticErrorResponse config fs response status
      process).1.1 ≥ 0) :
    (buildStaticErrorResponse config fs response status process).1.1 =
        status ∧
      Presents status (buildStaticErrorResponse config fs response status
        process).1.2 := by
  have page : ∀ cleared between, ∀ result,
      (if status = 404 then
        staticFilesBuildNotFound fs config.documentRoot cleared between
      else
        staticFilesBuildError cleared status (errorHeadingForStatus status)
          between) = result →
      result.1.1 = true → Presents status result.1.2 := by
    intro cleared between result same flag
    split_ifs at same with missing
    · rw [missing, ← same]
      rw [← same] at flag
      exact staticFilesBuildNotFound_presents flag
    · rw [← same] at flag ⊢
      exact staticFilesBuildError_presents flag
  unfold buildStaticErrorResponse at built ⊢
  simp only at built ⊢
  specialize page (httpResponseDestroy response process).1
    (httpResponseDestroy response process).2 _ rfl
  generalize (if status = 404 then _ else _) = result at page built ⊢
  split_ifs at built ⊢ with ready plain
  · exact ⟨rfl, page ready⟩
  · exact ⟨rfl, httpResponseBuildText_presents plain⟩
  · simp at built

theorem handleStaticGetHead_presents {config : ServerConfig}
    {fs : FileSystem} {request : Request} {response : Response}
    {process : Process}
    (built : (handleStaticGetHead config fs request response
      process).1.1 ≥ 0) :
    Presents (handleStaticGetHead config fs request response process).1.1
      (handleStaticGetHead config fs request response process).1.2 := by
  unfold handleStaticGetHead at built ⊢
  rcases served : staticFilesServe fs config.documentRoot request response
    process with ⟨⟨failure | ⟨⟩, page⟩, between⟩
  · simp only [served] at built ⊢
    obtain ⟨same, presents⟩ := buildStaticErrorResponse_presents built
    rw [same]
    exact presents
  · exact staticFilesServe_presents served

/-- Whether a pass parsed a HEAD request. -/
def parsedAsHead : Option ParseOutcome → Bool
  | none => false
  | some outcome =>
      decide (outcome.result = .ok ()) && outcome.request.method = .head

/-- What holds of every decision: a response with a status is presentable and
has that status, statuses that make the stream unsafe end the
connection, and so does everything that is not a parsed request. -/
structure Decision.Sound (decision : Decision)
    (parsed : Option ParseOutcome) : Prop where
  presents : decision.status ≥ 0 →
    Presents decision.status decision.response
  closing : statusRequiresClose decision.status = true →
    decision.keepAlive = false
  refused : (∀ outcome, parsed = some outcome → outcome.result ≠ .ok ()) →
    decision.keepAlive = false
  head : decision.omitBody = parsedAsHead parsed

theorem decideError_sound (config : ServerConfig) (fs : FileSystem)
    (status : Int) (process : Process) :
    (decideError config fs status process).1.Sound none := by
  constructor
  · intro built
    obtain ⟨same, presents⟩ := buildStaticErrorResponse_presents built
    simp only [decideError]
    rw [same]
    exact presents
  · intro _
    rfl
  · intro _
    rfl
  · rfl

theorem decideParseError_sound (config : ServerConfig) (fs : FileSystem)
    {outcome : ParseOutcome} {failure : ParseError}
    (refused : outcome.result = .error failure) (process : Process) :
    (decideParseError config fs failure process).1.Sound (some outcome) := by
  constructor
  · intro known
    have built : (buildStaticErrorResponse config fs httpResponseInit
        (statusForParseResult failure) process).1.1 ≥ 0 := by
      by_contra failed
      simp [decideParseError, failed] at known
    simp only [decideParseError, if_pos built]
    exact (buildStaticErrorResponse_presents built).2
  · intro _
    rfl
  · intro _
    rfl
  · simp [decideParseError, parsedAsHead, refused]

theorem statusRequiresClose_nonneg {status : Int}
    (closing : statusRequiresClose status = true) : status ≥ 0 := by
  have member : status ∈ [400, 408, 413, 501, 505, (500 : Int)] := by
    simpa [statusRequiresClose] using closing
  have table : ∀ known ∈ [400, 408, 413, 501, 505, (500 : Int)],
      known ≥ 0 := by decide
  exact table status member

theorem chooseResponse_presents {config : ServerConfig} {fs : FileSystem}
    {snapshot : StatsSnapshot} {request : Request} {process : Process}
    (clean : CleanValue (echoContentType request))
    (known : (chooseResponse config fs snapshot request
      process).1.status ≥ 0) :
    Presents (chooseResponse config fs snapshot request process).1.status
      (chooseResponse config fs snapshot request process).1.response := by
  unfold chooseResponse at known ⊢
  simp only at known ⊢
  split_ifs at known ⊢
  · rcases routed : routerDispatch snapshot request httpResponseInit
      process with ⟨⟨_ | _, response⟩, between⟩
    · simp only [routed] at known ⊢
      obtain ⟨same, presents⟩ := buildStaticErrorResponse_presents known
      rw [same]
      exact presents
    · obtain ⟨_, _, presents⟩ :=
        routerDispatch_presents clean (congrArg (·.1.1) routed)
      rw [routed] at presents
      exact ⟨presents.1, rfl⟩
  · exact handleStaticGetHead_presents known
  · dsimp only at known ⊢
    obtain ⟨same, presents⟩ := buildStaticErrorResponse_presents known
    rw [same]
    exact presents

theorem chooseResponse_omitBody (config : ServerConfig) (fs : FileSystem)
    (snapshot : StatsSnapshot) (request : Request) (process : Process) :
    (chooseResponse config fs snapshot request process).1.omitBody =
      decide (request.method = .head) := by
  unfold chooseResponse
  simp only
  split_ifs
  · rcases routerDispatch snapshot request httpResponseInit process with
      ⟨⟨_ | _, response⟩, between⟩ <;> rfl
  · rfl
  · rfl

theorem chooseResponse_sound {config : ServerConfig} {fs : FileSystem}
    {snapshot : StatsSnapshot} {raw : Bytes} {allocs : Allocs}
    (accepted : (httpParseRequest raw allocs).result = .ok ())
    (process : Process) :
    (chooseResponse config fs snapshot (httpParseRequest raw allocs).request
      process).1.closeOnStatus.Sound (some (httpParseRequest raw allocs)) := by
  obtain ⟨parts, valid, _, request⟩ := httpParseRequest_parsed
    ((ParseOutcome.result_eq_ok_iff _).mp accepted)
  have clean : CleanValue
      (echoContentType (httpParseRequest raw allocs).request) := by
    rw [request]
    exact valid.echoContentType_clean
  have body := chooseResponse_omitBody config fs snapshot
    (httpParseRequest raw allocs).request process
  have chosen := @chooseResponse_presents config fs snapshot _ process clean
  generalize chooseResponse config fs snapshot
    (httpParseRequest raw allocs).request process = decided at body chosen ⊢
  unfold Decision.closeOnStatus
  split_ifs with unsafeStatus
  · constructor
    · exact chosen
    · intro _
      rfl
    · intro _
      rfl
    · simp [parsedAsHead, accepted, body]
  · constructor
    · exact chosen
    · intro closing
      exact absurd ⟨statusRequiresClose_nonneg closing, closing⟩ unsafeStatus
    · intro refused
      exact absurd accepted (refused _ rfl)
    · simp [parsedAsHead, accepted, body]

/-- What a pass decides, by what it has read and what the parser said. -/
inductive Decided (config : ServerConfig) (exchange : Exchange)
    (read : ReadOutcome) (process : Process) :
    Option Decision → Option ParseOutcome → Prop
  | silent : Decided config exchange read process none none
  | unread {failure : ReadError}
      (result : read.exit.result = .error failure) :
      Decided config exchange read process
        (some (decideError config exchange.fs (statusForReadResult failure)
          process).1) none
  | refused {raw : Bytes} {failure : ParseError}
      (result : read.exit.result = .ok raw)
      (verdict : (httpParseRequest raw exchange.parseAllocs).result =
        .error failure) :
      Decided config exchange read process
        (some (decideParseError config exchange.fs failure process).1)
        (some (httpParseRequest raw exchange.parseAllocs))
  | accepted {raw : Bytes} (result : read.exit.result = .ok raw)
      (verdict : (httpParseRequest raw exchange.parseAllocs).result =
        .ok ()) :
      Decided config exchange read process
        (some (chooseResponse config exchange.fs exchange.snapshot
          (httpParseRequest raw exchange.parseAllocs).request
          process).1.closeOnStatus)
        (some (httpParseRequest raw exchange.parseAllocs))

theorem decideResponse_decided (config : ServerConfig)
    (exchange : Exchange) (buffered : Nat) (read : ReadOutcome)
    (process : Process) :
    Decided config exchange read
      { process with allocs := exchange.buildAllocs }
      (decideResponse config exchange buffered read process).1.1
      (decideResponse config exchange buffered read process).1.2 := by
  unfold decideResponse
  simp only
  cases result : read.exit.result with
  | error failure =>
      -- a timeout inside a request is answered like the other failures
      cases failure with
      | clientClosed => exact .silent
      | ioError => exact .silent
      | timeout =>
          simp only
          split_ifs
          · exact .silent
          · have status : statusForReadResult .timeout = 408 := rfl
            rw [← status]
            exact .unread result
      | _ => exact .unread result
  | ok raw =>
      simp only
      cases verdict : (httpParseRequest raw exchange.parseAllocs).result with
      | error failure => exact .refused result verdict
      | ok accepted => exact .accepted result verdict

/-- Every decision of a pass is sound for what the parser said. -/
theorem Decided.sound {config : ServerConfig} {exchange : Exchange}
    {read : ReadOutcome} {process : Process} {decision : Decision}
    {parsed : Option ParseOutcome}
    (decided : Decided config exchange read process (some decision)
      parsed) : decision.Sound parsed := by
  cases decided with
  | unread result => exact decideError_sound _ _ _ _
  | refused result verdict => exact decideParseError_sound _ _ verdict _
  | accepted result verdict => exact chooseResponse_sound verdict _

theorem Decided.parsed {config : ServerConfig} {exchange : Exchange}
    {read : ReadOutcome} {process : Process} {decision : Option Decision}
    {outcome : ParseOutcome}
    (decided : Decided config exchange read process decision
      (some outcome)) :
    ∃ raw, read.exit.result = .ok raw ∧
      outcome = httpParseRequest raw exchange.parseAllocs := by
  cases decided with
  | refused result verdict => exact ⟨_, result, rfl⟩
  | accepted result verdict => exact ⟨_, result, rfl⟩

end CinderHTTP
