import CinderHTTP.Client.Responses
import CinderHTTP.Router.Answers
import CinderHTTP.Static.Completeness

/-!
# Decisions without allocation failures

When every allocation is granted, each branch of `client_handle` ends with a
response: the router handles every request with a target, and an error
response is built for every status.
-/

namespace CinderHTTP

/-! ## Error responses -/

/-- The built-in page is only refused for its length, before anything is
allocated. -/
theorem staticFilesBuildError_granted (response : Response)
    (statusCode : Int) (heading : Bytes) {process : Process}
    (granted : process.allocs = []) :
    (staticFilesBuildError response statusCode heading process).1.1 = true ∨
      (staticFilesBuildError response statusCode heading
        process).2.allocs = [] := by
  unfold staticFilesBuildError
  split_ifs
  · exact .inr granted
  · left
    rw [buildWithType_granted _ _ _ _ granted]

theorem staticFilesBuildNotFound_granted (fs : FileSystem)
    (documentRoot : Bytes) (response : Response) {process : Process}
    (granted : process.allocs = []) :
    (staticFilesBuildNotFound fs documentRoot response process).1.1 =
      true := by
  have served := staticFilesServe_allocs fs documentRoot notFoundRequest
    httpResponseInit granted
  unfold staticFilesBuildNotFound
  generalize staticFilesServe fs documentRoot notFoundRequest
    httpResponseInit process = outcome at served ⊢
  obtain ⟨⟨failure | ⟨⟩, page⟩, later⟩ := outcome
  · have kept : (httpResponseDestroy page later).2.allocs = [] :=
      (httpResponseDestroy_allocs _ _).trans served
    simp only
    rw [staticFilesBuildError, if_neg (by decide +kernel),
      buildWithType_granted _ _ _ _ kept]
  · rfl

theorem buildStaticErrorResponse_granted (config : ServerConfig)
    (fs : FileSystem) (response : Response) (status : Int)
    {process : Process} (granted : process.allocs = []) :
    (buildStaticErrorResponse config fs response status process).1.1 =
      status := by
  have destroyed : (httpResponseDestroy response process).2.allocs = [] :=
    (httpResponseDestroy_allocs _ _).trans granted
  have page : ∀ result,
      (if status = 404 then
        staticFilesBuildNotFound fs config.documentRoot
          (httpResponseDestroy response process).1
          (httpResponseDestroy response process).2
      else
        staticFilesBuildError (httpResponseDestroy response process).1 status
          (errorHeadingForStatus status)
          (httpResponseDestroy response process).2) = result →
      result.1.1 = true ∨ result.2.allocs = [] := by
    intro result same
    rw [← same]
    split_ifs
    · exact .inl (staticFilesBuildNotFound_granted _ _ _ destroyed)
    · exact staticFilesBuildError_granted _ _ _ destroyed
  unfold buildStaticErrorResponse
  simp only
  specialize page _ rfl
  generalize (if status = 404 then _ else _) = result at page ⊢
  split_ifs with ready plain
  · rfl
  · rfl
  · -- the plain text is built whenever the page was not
    have kept : (httpResponseDestroy result.1.2 result.2).2.allocs = [] :=
      (httpResponseDestroy_allocs _ _).trans (page.resolve_left ready)
    rw [httpResponseBuildText, buildWithType_granted _ _ _ _ kept] at plain
    exact absurd rfl plain

/-! ## The dispatch -/

theorem statusForStaticResult_nonneg (failure : StaticFileError) :
    statusForStaticResult failure ≥ 0 := by
  cases failure <;> decide

theorem handleStaticGetHead_granted (config : ServerConfig)
    (fs : FileSystem) (request : Request) (response : Response)
    {process : Process} (granted : process.allocs = []) :
    (handleStaticGetHead config fs request response process).1.1 ≥ 0 := by
  have served := staticFilesServe_allocs fs config.documentRoot request
    response granted
  unfold handleStaticGetHead
  generalize staticFilesServe fs config.documentRoot request response
    process = outcome at served ⊢
  obtain ⟨⟨failure | ⟨⟩, page⟩, later⟩ := outcome
  · simp only
    rw [buildStaticErrorResponse_granted _ _ _ _ served]
    exact statusForStaticResult_nonneg failure
  · exact Int.natCast_nonneg 200

/-- Every accepted request gets a response with a status. -/
theorem chooseResponse_granted {request : Request} {target : Bytes}
    (targeted : request.target = some target)
    (clean : CleanValue (echoContentType request)) (config : ServerConfig)
    (fs : FileSystem) (snapshot : StatsSnapshot) {process : Process}
    (granted : process.allocs = []) :
    (chooseResponse config fs snapshot request process).1.responseReady =
        true ∧
      (chooseResponse config fs snapshot request process).1.status ≥ 0 := by
  have routed := (routerDispatch_answered targeted snapshot
    httpResponseInit granted).handled
  have found := handleStaticGetHead_granted config fs request
    httpResponseInit granted
  have refused := buildStaticErrorResponse_granted config fs
    httpResponseInit 405 granted
  unfold chooseResponse
  simp only
  split_ifs
  · obtain ⟨status, known, presents⟩ :=
      routerDispatch_presents clean routed
    have nonneg : ∀ status ∈ routerStatuses, status ≥ 0 := by decide
    generalize routerDispatch snapshot request httpResponseInit process =
      dispatched at routed presents ⊢
    obtain ⟨⟨flag, response⟩, later⟩ := dispatched
    subst routed
    refine ⟨rfl, ?_⟩
    simp only at presents ⊢
    rw [presents.2]
    exact nonneg status known
  · exact ⟨decide_eq_true found, found⟩
  · simp only [refused]
    decide

end CinderHTTP
