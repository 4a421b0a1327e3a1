import CinderHTTP.Client.Run
import CinderHTTP.Static.Cleanup

/-!
# The files of a connection

`client_handle` opens files to serve them and error pages.  Whatever fails on
the way, each descriptor is closed exactly once: between two passes no file is
open, and while a response is sent none is open but the one that it sends.
-/

namespace CinderHTTP

/-! ## Orderly processes -/

/-- Descriptors are numbered in the order in which they were opened. -/
def Process.Numbered (process : Process) : Prop :=
  process.opened.map Descriptor.serial =
    List.range process.opened.length

theorem Process.Numbered.distinct {process : Process}
    (numbered : process.Numbered) : process.opened.Nodup := by
  apply List.Nodup.of_map Descriptor.serial
  rw [numbered]
  exact List.nodup_range

theorem Process.Numbered.same {process later : Process}
    (numbered : process.Numbered) (opened : later.opened = process.opened) :
    later.Numbered := by
  rw [Numbered, opened]
  exact numbered

theorem Process.Numbered.opens {process later : Process}
    (numbered : process.Numbered) (file : OpenFile)
    (opened : later.opened =
      process.opened ++ [⟨process.opened.length, file⟩]) :
    later.Numbered := by
  rw [Numbered, opened, List.map_append, numbered, List.length_append,
    List.length_singleton, List.range_succ]
  rfl

/-- Every descriptor is closed, but for those that are held. -/
structure Process.Orderly (process : Process) (held : List Descriptor) :
    Prop where
  numbered : process.Numbered
  conserved : (process.closed ++ held).Perm process.opened

namespace Process.Orderly

variable {process later : Process} {held : List Descriptor}

theorem custody (orderly : process.Orderly held) :
    Custody process.closed held process.opened :=
  ⟨orderly.conserved, orderly.numbered.distinct⟩

theorem sameFiles (orderly : process.Orderly held)
    (same : process.SameFiles later) : later.Orderly held := by
  obtain ⟨numbered, conserved⟩ := orderly
  constructor
  · exact numbered.same same.opened
  · rw [same.closed, same.opened]
    exact conserved

theorem change {before after : Response}
    (orderly : process.Orderly before.held)
    (change : BodyChange before process after later [])
    (opened : later.opened = process.opened) :
    later.Orderly after.held := by
  obtain ⟨numbered, conserved⟩ := orderly
  constructor
  · exact numbered.same opened
  · have moved := change.conserved
    rw [List.append_nil] at moved
    rw [opened]
    exact moved.trans conserved

theorem destroy {response : Response}
    (orderly : process.Orderly response.held) :
    (httpResponseDestroy response process).2.Orderly [] :=
  orderly.change (httpResponseDestroy_change response process)
    (clearBody_opened response process)

end Process.Orderly

/-! ## Responses without new files -/

/-- A function that works on a response and opens no file. -/
structure Rebuilds (response : Response) (process : Process)
    (result : (Bool × Response) × Process) : Prop where
  change : BodyChange response process result.1.2 result.2 []
  opened : result.2.opened = process.opened

namespace Rebuilds

variable {response middle : Response} {process between : Process}
  {result : (Bool × Response) × Process} {success : Bool}

theorem orderly (rebuilds : Rebuilds response process result)
    (orderly : process.Orderly response.held) :
    result.2.Orderly result.1.2.held :=
  orderly.change rebuilds.change rebuilds.opened

theorem refl (success : Bool) (response : Response) (process : Process) :
    Rebuilds response process ((success, response), process) :=
  ⟨.kept rfl rfl rfl rfl rfl, rfl⟩

theorem trans
    (first : Rebuilds response process ((success, middle), between))
    (second : Rebuilds middle between result) :
    Rebuilds response process result :=
  ⟨first.change.trans second.change, second.opened.trans first.opened⟩

end Rebuilds

theorem httpResponseDestroy_rebuilds (response : Response)
    (process : Process) (success : Bool) :
    Rebuilds response process
      ((success, (httpResponseDestroy response process).1),
        (httpResponseDestroy response process).2) :=
  ⟨httpResponseDestroy_change response process,
    clearBody_opened response process⟩

theorem httpResponseAddHeader_rebuilds (response : Response)
    (name value : Bytes) (process : Process) :
    Rebuilds response process
      (httpResponseAddHeader response name value process) :=
  ⟨httpResponseAddHeader_change response name value process,
    (httpResponseAddHeader_sameFiles response name value process).opened⟩

theorem httpResponseSetHeader_rebuilds (response : Response)
    (name value : Bytes) (process : Process) :
    Rebuilds response process
      (httpResponseSetHeader response name value process) := by
  have removed : Rebuilds response process
      ((true, (httpResponseRemoveHeader response name).2), process) :=
    ⟨.kept rfl rfl rfl rfl rfl, rfl⟩
  exact removed.trans (httpResponseAddHeader_rebuilds _ name value process)

theorem httpResponseSetBodyOwned_opened (response : Response)
    (body : Option Bytes) (length : Nat) (process : Process) :
    (httpResponseSetBodyOwned response body length process).2.opened =
      process.opened := by
  have cleared := clearBody_opened response process
  unfold httpResponseSetBodyOwned
  simp only
  split_ifs
  · exact cleared
  · exact cleared

theorem httpResponseSetBodyText_rebuilds (response : Response)
    (text : Option Bytes) (process : Process) :
    Rebuilds response process
      (httpResponseSetBodyText response text process) := by
  refine ⟨httpResponseSetBodyText_change response text process, ?_⟩
  cases text with
  | none => exact httpResponseSetBodyOwned_opened response none 0 process
  | some text =>
      unfold httpResponseSetBodyText
      simp only
      split_ifs
      · rfl
      · exact httpResponseSetBodyOwned_opened response _ _ process.malloc.2

theorem httpResponseSetBodyCopy_rebuilds (response : Response)
    (body : Option Bytes) (length : Nat) (process : Process) :
    Rebuilds response process
      (httpResponseSetBodyCopy response body length process) := by
  refine ⟨httpResponseSetBodyCopy_change response body length process, ?_⟩
  unfold httpResponseSetBodyCopy
  split_ifs
  · exact httpResponseSetBodyOwned_opened response none 0 process
  · cases body with
    | none => rfl
    | some bytes =>
        simp only
        split_ifs
        · rfl
        · exact httpResponseSetBodyOwned_opened response _ _
            process.malloc.2

theorem buildWithType_rebuilds (contentType : Bytes) (response : Response)
    (statusCode : Int) (text : Option Bytes) (process : Process) :
    Rebuilds response process
      (buildWithType contentType response statusCode text process) := by
  have destroyed := httpResponseDestroy_rebuilds response process true
  have fresh : Rebuilds (httpResponseDestroy response process).1
      (httpResponseDestroy response process).2
      ((true, httpResponseSetStatus (httpResponseDestroy response process).1
        statusCode), (httpResponseDestroy response process).2) :=
    ⟨.kept rfl rfl rfl rfl rfl, rfl⟩
  apply (destroyed.trans fresh).trans
  unfold buildWithType
  cases text with
  | none => exact httpResponseAddHeader_rebuilds _ _ _ _
  | some text =>
      have stored := httpResponseSetBodyText_rebuilds
        (httpResponseSetStatus (httpResponseDestroy response process).1
          statusCode) (some text) (httpResponseDestroy response process).2
      apply Rebuilds.trans stored
      simp only
      split_ifs
      · exact .refl _ _ _
      · exact httpResponseAddHeader_rebuilds _ _ _ _

theorem staticFilesBuildError_rebuilds (response : Response)
    (statusCode : Int) (heading : Bytes) (process : Process) :
    Rebuilds response process
      (staticFilesBuildError response statusCode heading process) := by
  unfold staticFilesBuildError
  split_ifs
  · exact .refl false response process
  · exact buildWithType_rebuilds _ response statusCode _ process

theorem handleEcho_rebuilds (request : Request) (response : Response)
    (process : Process) :
    Rebuilds response process (handleEcho request response process) := by
  have destroyed := httpResponseDestroy_rebuilds response process true
  have fresh : Rebuilds (httpResponseDestroy response process).1
      (httpResponseDestroy response process).2
      ((true, httpResponseSetStatus (httpResponseDestroy response process).1
        200), (httpResponseDestroy response process).2) :=
    ⟨.kept rfl rfl rfl rfl rfl, rfl⟩
  have copied := httpResponseSetBodyCopy_rebuilds
    (httpResponseSetStatus (httpResponseDestroy response process).1 200)
    (some request.body) request.body.length
    (httpResponseDestroy response process).2
  have stored := (destroyed.trans fresh).trans copied
  unfold handleEcho
  simp only
  generalize httpResponseSetBodyCopy _ (some request.body)
    request.body.length _ = outcome at stored ⊢
  obtain ⟨⟨_ | _, filled⟩, later⟩ := outcome
  · exact stored
  · exact stored.trans (httpResponseAddHeader_rebuilds _ _ _ _)

theorem Handler.run_rebuilds (handler : Handler) (snapshot : StatsSnapshot)
    (request : Request) (response : Response) (process : Process) :
    Rebuilds response process
      (handler.run snapshot request response process) := by
  cases handler with
  | health =>
      exact buildWithType_rebuilds (ascii "application/json") response 200
        (some (ascii "\x7b\"status\":\"ok\"\x7d")) process
  | echo => exact handleEcho_rebuilds request response process
  | stats =>
      change Rebuilds response process (handleStats snapshot response process)
      unfold handleStats
      split_ifs
      · exact .refl false response process
      · exact buildWithType_rebuilds _ response 200 _ process

theorem buildApiError_rebuilds (response : Response) (statusCode : Int)
    (json : Bytes) (allow : Option Bytes) (process : Process) :
    Rebuilds response process
      (buildApiError response statusCode json allow process) := by
  have built := buildWithType_rebuilds (ascii "application/json") response
    statusCode (some json) process
  unfold buildApiError httpResponseBuildJson
  generalize buildWithType (ascii "application/json") response statusCode
    (some json) process = outcome at built ⊢
  obtain ⟨⟨_ | _, filled⟩, later⟩ := outcome
  · exact built
  cases allow with
  | none => exact built
  | some allow =>
      simp only
      split_ifs
      · exact built
      · exact built.trans (httpResponseAddHeader_rebuilds _ _ _ _)

theorem routerDispatch_rebuilds (snapshot : StatsSnapshot)
    (request : Request) (response : Response) (process : Process) :
    Rebuilds response process
      (routerDispatch snapshot request response process) := by
  unfold routerDispatch
  cases request.target with
  | none => exact .refl false response process
  | some target =>
      simp only
      rcases selectRoute target request.method none routes with
        (_ | path) | route
      · exact buildApiError_rebuilds _ _ _ _ _
      · exact buildApiError_rebuilds _ _ _ _ _
      · exact route.handler.run_rebuilds snapshot request response process

theorem httpResponseApplyConnectionPolicy_rebuilds (response : Response)
    (keepAlive : Bool) (httpVersion : Option Bytes) (process : Process) :
    Rebuilds response process (httpResponseApplyConnectionPolicy response
      keepAlive httpVersion process) := by
  have shown : Rebuilds response process
      ((true, { response with suppressAutoConnectionClose := false }),
        process) := ⟨.kept rfl rfl rfl rfl rfl, rfl⟩
  unfold httpResponseApplyConnectionPolicy
  split_ifs
  · exact shown.trans (httpResponseSetHeader_rebuilds _ _ _ _)
  · exact shown.trans (httpResponseSetHeader_rebuilds _ _ _ _)
  · exact ⟨.kept rfl rfl rfl rfl rfl, rfl⟩

theorem announcePolicy_rebuilds (decision : Decision) (process : Process) :
    Rebuilds decision.response process
      (announcePolicy decision process) := by
  have applied := httpResponseApplyConnectionPolicy_rebuilds
    decision.response (decision.keepAlive && !decision.forceClose)
    decision.version process
  unfold announcePolicy
  simp only
  generalize httpResponseApplyConnectionPolicy decision.response
    (decision.keepAlive && !decision.forceClose) decision.version process =
      outcome at applied ⊢
  obtain ⟨⟨_ | _, response⟩, between⟩ := outcome
  · have retried := applied.trans
      (httpResponseApplyConnectionPolicy_rebuilds response false
        decision.version between)
    exact ⟨retried.change, retried.opened⟩
  · exact applied

/-! ## Responses with files -/

theorem attachDescriptor_opened (descriptor : Descriptor)
    (response : Response) (process : Process) :
    (attachDescriptor descriptor response process).2.opened =
      process.opened := by
  have rejected := clearBody_opened response (process.close descriptor)
  unfold attachDescriptor
  cases descriptor.file.fstat with
  | error errno => exact rejected
  | ok stat =>
      simp only
      split_ifs with irregular negative large huge
      · exact rejected
      · exact rejected
      · exact rejected
      · exact rejected
      · rw [httpResponseSetFileBody, if_neg negative, if_neg huge]
        exact clearBody_opened response process

theorem fillFileResponse_numbered (fs : FileSystem) (response : Response)
    (path : Bytes) {process : Process} (numbered : process.Numbered) :
    (fillFileResponse fs response path process).2.Numbered := by
  have cleared := clearBody_opened response process
  have adding := httpResponseAddHeader_sameFiles
    (httpResponseSetStatus httpResponseInit 200) (ascii "Content-Type")
    (mimeTypeFromPath path) (clearBody response process).2
  have typed := numbered.same (adding.opened.trans cleared)
  unfold fillFileResponse httpResponseDestroy
  simp only
  generalize httpResponseAddHeader
    (httpResponseSetStatus httpResponseInit 200) (ascii "Content-Type")
    (mimeTypeFromPath path) (clearBody response process).2 =
      added at typed ⊢
  obtain ⟨⟨_ | _, filled⟩, between⟩ := added
  · exact typed
  simp only [Process.openRead]
  cases fs.openRead path with
  | error errno => exact typed.same (clearBody_opened filled between)
  | ok file => exact typed.opens file (attachDescriptor_opened _ _ _)

theorem staticFilesServe_numbered (fs : FileSystem) (documentRoot : Bytes)
    (request : Request) (response : Response) {process : Process}
    (numbered : process.Numbered) :
    (staticFilesServe fs documentRoot request response
      process).2.Numbered := by
  unfold staticFilesServe
  cases request.target with
  | none => exact numbered
  | some target =>
      have destroyed := numbered.same (clearBody_opened response process)
      have finding := fs.always.findFile_sameFiles documentRoot target
        (httpResponseDestroy response process).2
      have found := destroyed.same finding.opened
      change (findFile fs documentRoot target
        (httpResponseDestroy response process).2).2.Numbered at found
      simp only
      generalize findFile fs documentRoot target
        (httpResponseDestroy response process).2 = outcome at found ⊢
      obtain ⟨_ | resolved, between⟩ := outcome
      · exact found
      have filled := fillFileResponse_numbered fs
        (httpResponseDestroy response process).1 resolved.path found
      simp only
      generalize fillFileResponse fs
        (httpResponseDestroy response process).1 resolved.path between =
          outcome at filled ⊢
      obtain ⟨⟨_ | _, last⟩, later⟩ := outcome
      · exact filled.same (clearBody_opened last later)
      · exact filled

/-- What a serve opens is closed again or held by its response. -/
theorem Settled.conserved {process later : Process}
    {outcome : Except StaticFileError Unit × Response}
    (settled : Settled process outcome later)
    (total : process.closed.Perm process.opened) :
    (later.closed ++ outcome.2.held).Perm later.opened := by
  cases settled with
  | failed opened held fresh released =>
      rw [held, fresh, released, List.append_nil]
      exact total.append_right _
  | @served response _ descriptor serves fresh released =>
      have held : response.held = [descriptor] := by
        rw [Response.held, serves.kind, serves.fd]
        rfl
      rw [held, fresh, released]
      exact total.append_right _

theorem staticFilesServe_orderly (fs : FileSystem) (documentRoot : Bytes)
    (request : Request) {response : Response} {process : Process}
    (orderly : process.Orderly response.held) :
    (staticFilesServe fs documentRoot request response process).2.Orderly
      (staticFilesServe fs documentRoot request response
        process).1.2.held := by
  refine ⟨staticFilesServe_numbered fs documentRoot request response
    orderly.numbered, ?_⟩
  cases targeted : request.target with
  | none =>
      unfold staticFilesServe
      rw [targeted]
      exact orderly.conserved
  | some target =>
      have total := orderly.destroy.conserved
      rw [List.append_nil] at total
      exact (fs.always.staticFilesServe_settled documentRoot targeted
        response process).1.conserved total

theorem staticFilesBuildNotFound_orderly (fs : FileSystem)
    (documentRoot : Bytes) {response : Response} {process : Process}
    (empty : response.held = []) (orderly : process.Orderly []) :
    (staticFilesBuildNotFound fs documentRoot response process).2.Orderly
      (staticFilesBuildNotFound fs documentRoot response
        process).1.2.held := by
  have served := staticFilesServe_orderly fs documentRoot notFoundRequest
    (show process.Orderly httpResponseInit.held from orderly)
  unfold staticFilesBuildNotFound
  generalize staticFilesServe fs documentRoot notFoundRequest
    httpResponseInit process = outcome at served ⊢
  obtain ⟨⟨_ | _, page⟩, later⟩ := outcome
  · have destroyed := served.destroy
    rw [← empty] at destroyed
    exact (staticFilesBuildError_rebuilds _ _ _ _).orderly destroyed
  · exact served.sameFiles (clearBody_sameFiles empty later)

/-! ## Choosing a response -/

theorem buildStaticErrorResponse_orderly (config : ServerConfig)
    (fs : FileSystem) {response : Response} (status : Int)
    {process : Process} (orderly : process.Orderly response.held) :
    (buildStaticErrorResponse config fs response status process).2.Orderly
      (buildStaticErrorResponse config fs response status
        process).1.2.held := by
  have page : ∀ outcome, outcome =
      (if status = 404 then
        staticFilesBuildNotFound fs config.documentRoot
          (httpResponseDestroy response process).1
          (httpResponseDestroy response process).2
      else
        staticFilesBuildError (httpResponseDestroy response process).1 status
          (errorHeadingForStatus status)
          (httpResponseDestroy response process).2) →
      outcome.2.Orderly outcome.1.2.held := by
    rintro outcome rfl
    split_ifs
    · exact staticFilesBuildNotFound_orderly fs config.documentRoot rfl
        orderly.destroy
    · exact (staticFilesBuildError_rebuilds _ _ _ _).orderly orderly.destroy
  unfold buildStaticErrorResponse
  simp only
  generalize (if status = 404 then _ else _) = outcome at page ⊢
  have built := page outcome rfl
  have plain := (buildWithType_rebuilds (ascii "text/plain; charset=utf-8")
    (httpResponseDestroy outcome.1.2 outcome.2).1 status
    (some (errorHeadingForStatus status))
    (httpResponseDestroy outcome.1.2 outcome.2).2).orderly built.destroy
  split_ifs
  · exact built
  · exact plain
  · exact plain

theorem handleStaticGetHead_orderly (config : ServerConfig)
    (fs : FileSystem) (request : Request) {response : Response}
    {process : Process} (orderly : process.Orderly response.held) :
    (handleStaticGetHead config fs request response process).2.Orderly
      (handleStaticGetHead config fs request response
        process).1.2.held := by
  have served := staticFilesServe_orderly fs config.documentRoot request
    orderly
  unfold handleStaticGetHead
  generalize staticFilesServe fs config.documentRoot request response
    process = outcome at served ⊢
  obtain ⟨⟨failure | _, filled⟩, later⟩ := outcome
  · exact buildStaticErrorResponse_orderly config fs _ served
  · exact served

theorem chooseResponse_orderly (config : ServerConfig) (fs : FileSystem)
    (snapshot : StatsSnapshot) (request : Request) {process : Process}
    (orderly : process.Orderly []) :
    (chooseResponse config fs snapshot request process).2.Orderly
      (chooseResponse config fs snapshot request
        process).1.response.held := by
  have fresh : process.Orderly httpResponseInit.held := orderly
  unfold chooseResponse
  simp only
  split_ifs
  · have routed := (routerDispatch_rebuilds snapshot request
      httpResponseInit process).orderly fresh
    generalize routerDispatch snapshot request httpResponseInit process =
      outcome at routed ⊢
    obtain ⟨⟨_ | _, response⟩, later⟩ := outcome
    · have built := buildStaticErrorResponse_orderly config fs 500 routed
      simp only
      generalize buildStaticErrorResponse config fs response 500 later =
        outcome at built ⊢
      exact built
    · exact routed
  · exact handleStaticGetHead_orderly config fs request fresh
  · have built := buildStaticErrorResponse_orderly config fs 405 fresh
    generalize buildStaticErrorResponse config fs httpResponseInit 405
      process = outcome at built ⊢
    exact built

theorem decideError_orderly (config : ServerConfig) (fs : FileSystem)
    (status : Int) {process : Process} (orderly : process.Orderly []) :
    (decideError config fs status process).2.Orderly
      (decideError config fs status process).1.response.held := by
  have fresh : process.Orderly httpResponseInit.held := orderly
  have built := buildStaticErrorResponse_orderly config fs status fresh
  unfold decideError
  generalize buildStaticErrorResponse config fs httpResponseInit status
    process = outcome at built ⊢
  exact built

theorem decideParseError_orderly (config : ServerConfig) (fs : FileSystem)
    (failure : ParseError) {process : Process}
    (orderly : process.Orderly []) :
    (decideParseError config fs failure process).2.Orderly
      (decideParseError config fs failure process).1.response.held := by
  have fresh : process.Orderly httpResponseInit.held := orderly
  have built := buildStaticErrorResponse_orderly config fs
    (statusForParseResult failure) fresh
  unfold decideParseError
  simp only
  generalize buildStaticErrorResponse config fs httpResponseInit
    (statusForParseResult failure) process = outcome at built ⊢
  exact built

/-- The file of a decision, if there is one. -/
def heldBy (decision : Option Decision) : List Descriptor :=
  match decision with
  | none => []
  | some decision => decision.response.held

theorem decided_orderly {decided : Decision × Process}
    (orderly : decided.2.Orderly decided.1.response.held)
    (parsed : Option ParseOutcome) :
    ((some decided.1, parsed), decided.2).2.Orderly
      (heldBy ((some decided.1, parsed), decided.2).1.1) :=
  orderly

theorem Decision.closeOnStatus_response (decision : Decision) :
    decision.closeOnStatus.response = decision.response := by
  unfold Decision.closeOnStatus
  split_ifs <;> rfl

theorem decideResponse_orderly (config : ServerConfig)
    (exchange : Exchange) (buffered : Nat) (read : ReadOutcome)
    {process : Process} (orderly : process.Orderly []) :
    (decideResponse config exchange buffered read process).2.Orderly
      (heldBy (decideResponse config exchange buffered read
        process).1.1) := by
  have ready : { process with allocs := exchange.buildAllocs }.Orderly [] :=
    orderly.sameFiles ⟨rfl, rfl⟩
  unfold decideResponse
  simp only
  cases read.exit.result with
  | error failure =>
      cases failure with
      | clientClosed => exact ready
      | ioError => exact ready
      | timeout =>
          simp only
          split_ifs
          · exact ready
          · exact decided_orderly (decideError_orderly config _ _ ready) none
      | _ => exact decided_orderly (decideError_orderly config _ _ ready) none
  | ok raw =>
      simp only
      cases (httpParseRequest raw exchange.parseAllocs).result with
      | error failure =>
          exact decided_orderly
            (decideParseError_orderly config _ failure ready) _
      | ok accepted =>
          have chosen := chooseResponse_orderly config exchange.fs
            exchange.snapshot
            (httpParseRequest raw exchange.parseAllocs).request ready
          simp only [heldBy, Decision.closeOnStatus_response]
          exact chosen

/-! ## Sending -/

/-- The process in which `deliver` calls `http_response_send`. -/
def callProcess (exchange : Exchange) (decision : Decision)
    (process : Process) : Process :=
  { (announcePolicy decision
      { process with allocs := exchange.policyAllocs }).2 with
    allocs := exchange.sendAllocs }

/-- A response is sent from a process in which nothing is open but its file,
which is closed right behind. -/
structure SendsOrderly (exchange : Exchange) (delivery : Delivery)
    (response : Response) (process after : Process) : Prop where
  sends : delivery.sending =
    (httpResponseSend response delivery.omitBody process
      exchange.transfer).1
  destroys : after =
    (httpResponseDestroy response
      (httpResponseSend response delivery.omitBody process
        exchange.transfer).2).2
  custody : Custody process.closed response.held process.opened
  opened : after.opened = process.opened
  closed : after.closed = process.closed ++ response.held

theorem httpResponseSerializeHeaders_sameFiles (response : Response)
    (process : Process) :
    process.SameFiles (httpResponseSerializeHeaders response process).2 := by
  unfold httpResponseSerializeHeaders
  simp only
  split_ifs
  · exact .refl process
  · exact .refl process
  · exact .malloc process
  · exact .malloc process
  · exact .malloc process

theorem httpResponseSend_sameFiles (response : Response) (omitBody : Bool)
    (process : Process) (transfer : Transfer) :
    process.SameFiles
      (httpResponseSend response omitBody process transfer).2 := by
  have serialized := httpResponseSerializeHeaders_sameFiles response process
  unfold httpResponseSend
  generalize httpResponseSerializeHeaders response process = outcome
    at serialized ⊢
  obtain ⟨_ | headers, later⟩ := outcome
  · exact serialized
  simp only
  split_ifs
  · exact serialized
  · exact serialized
  · exact serialized

theorem deliver_orderly (exchange : Exchange) {decision : Decision}
    {process : Process} (orderly : process.Orderly decision.response.held) :
    (deliver exchange decision process).2.Orderly [] ∧
      ∀ response,
        (deliver exchange decision process).1.handed = some response →
          SendsOrderly exchange (deliver exchange decision process).1
            response (callProcess exchange decision process)
            (deliver exchange decision process).2 := by
  unfold deliver callProcess
  split_ifs
  · have ready : { process with
        allocs := exchange.policyAllocs }.Orderly decision.response.held :=
      orderly.sameFiles ⟨rfl, rfl⟩
    have announced := (announcePolicy_rebuilds decision
      { process with allocs := exchange.policyAllocs }).orderly ready
    simp only
    generalize announcePolicy decision
      { process with allocs := exchange.policyAllocs } = outcome
        at announced ⊢
    obtain ⟨⟨flag, response⟩, between⟩ := outcome
    have sending : { between with
        allocs := exchange.sendAllocs }.Orderly response.held :=
      announced.sameFiles ⟨rfl, rfl⟩
    have same := httpResponseSend_sameFiles response decision.omitBody
      { between with allocs := exchange.sendAllocs } exchange.transfer
    refine ⟨(sending.sameFiles same).destroy, ?_⟩
    intro handed given
    cases given
    exact
      { sends := rfl
        destroys := rfl
        custody := sending.custody
        opened := (clearBody_opened _ _).trans same.opened
        closed := (clearBody_closed _ _).trans
          (congrArg (· ++ response.held) same.closed) }
  · refine ⟨orderly.destroy, ?_⟩
    intro response handed
    cases handed

/-! ## Runs -/

theorem Decision.limit_response (decision : Decision) (requests : Nat) :
    (decision.limit requests).response = decision.response :=
  (decision.limit_fields requests).2.2

/-- The process in which a pass calls `http_response_send`, if it has decided
on a response. -/
def ClientPass.sendingProcess (config : ServerConfig) (pass : ClientPass) :
    Process :=
  let decided := decideResponse config pass.exchange
    pass.before.reader.data.length
    (httpReaderNextRequest
      { keepAliveTimeoutSec := config.keepAliveTimeoutSec
        requestTimeoutSec := config.requestTimeoutSec }
      pass.before.reader pass.before.pending pass.exchange.read)
    pass.before.process
  match decided.1.1 with
  | none => decided.2
  | some decision =>
      callProcess pass.exchange
        (decision.limit (pass.before.requests + 1)) decided.2

/-- A pass closes each descriptor that it opens once. -/
structure ClientPass.Releases (config : ServerConfig) (pass : ClientPass) :
    Prop where
  between : Custody (pass.iteration config).after.process.closed []
    (pass.iteration config).after.process.opened
  sending : ∀ delivery response,
    (pass.iteration config).delivery = some delivery →
    delivery.handed = some response →
      SendsOrderly pass.exchange delivery response
        (pass.sendingProcess config) (pass.iteration config).after.process

theorem ClientPass.releases {config : ServerConfig} {pass : ClientPass}
    (orderly : pass.before.process.Orderly []) :
    (pass.iteration config).after.process.Orderly [] ∧
      pass.Releases config := by
  have decided := decideResponse_orderly config pass.exchange
    pass.before.reader.data.length
    (httpReaderNextRequest
      { keepAliveTimeoutSec := config.keepAliveTimeoutSec
        requestTimeoutSec := config.requestTimeoutSec }
      pass.before.reader pass.before.pending pass.exchange.read) orderly
  have ends : (pass.iteration config).after.process.Orderly [] ∧
      ∀ delivery response,
        (pass.iteration config).delivery = some delivery →
        delivery.handed = some response →
          SendsOrderly pass.exchange delivery response
            (pass.sendingProcess config)
            (pass.iteration config).after.process := by
    unfold ClientPass.iteration clientIteration ClientPass.sendingProcess
    simp only
    generalize decideResponse config pass.exchange
      pass.before.reader.data.length _ pass.before.process = outcome
        at decided ⊢
    obtain ⟨⟨_ | decision, parsed⟩, later⟩ := outcome
    · refine ⟨decided, ?_⟩
      intro delivery response delivered
      cases delivered
    · have limited : later.Orderly
          (decision.limit (pass.before.requests + 1)).response.held := by
        rw [decision.limit_response]
        exact decided
      obtain ⟨closed, sends⟩ := deliver_orderly pass.exchange limited
      refine ⟨closed, ?_⟩
      intro delivery response delivered handed
      cases delivered
      exact sends response handed
  exact ⟨ends.1, ⟨ends.1.custody, ends.2⟩⟩

theorem clientPasses_release (config : ServerConfig) (env : Nat → Exchange)
    {state : ClientState} (orderly : state.process.Orderly []) :
    ∀ pass ∈ clientPasses config env state, pass.Releases config := by
  fun_induction clientPasses config env state with
  | case1 env state iteration continued induction =>
      obtain ⟨later, releases⟩ := @ClientPass.releases config
        { exchange := env 0, before := state } orderly
      intro other member
      rcases List.mem_cons.mp member with rfl | member
      · exact releases
      · exact induction later other member
  | case2 env state iteration stopped =>
      intro other member
      rw [List.mem_singleton.mp member]
      exact (ClientPass.releases orderly).2

/-- On every connection, whatever fails, no file is open between two passes,
and only the file of the response where one is sent. -/
theorem clientHandle_releases (config : ServerConfig) (env : Nat → Exchange)
    (stream : Bytes) :
    clientHandle config env stream =
        (handlePasses config env stream).map (ClientPass.iteration config) ∧
      ∀ pass ∈ handlePasses config env stream, pass.Releases config := by
  refine ⟨clientHandle_passes config env stream, ?_⟩
  apply clientPasses_release
  constructor
  · rfl
  · exact List.Perm.refl []

end CinderHTTP
