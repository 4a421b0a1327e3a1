import CinderHTTP.Connection.Tokens
import CinderHTTP.Router.Dispatch

/-!
# What the router answers

Matching a path, comparing methods and composing the Allow header are three
computations over the route table.  Without allocation failures they agree:
the status says exactly whether the path is a route and the method fits one of
its routes, and an Allow header lists exactly the methods that would not be
refused.
-/

namespace CinderHTTP

/-! ## Handlers without allocation failures -/

theorem statsJson_length (snapshot : StatsSnapshot) :
    (statsJson snapshot).length < statsJsonSize := by
  have number : ∀ value : UInt64,
      (decimal value.toNat).length ≤ 20 := by
    intro value
    apply decimal_length_le (by decide)
    have bounded := value.toNat_lt
    omega
  have accepted := number snapshot.connectionsAccepted
  have requests := number snapshot.requestsTotal
  have responses2 := number snapshot.responses2xx
  have responses4 := number snapshot.responses4xx
  have responses5 := number snapshot.responses5xx
  have active := number snapshot.activeConnections
  have text : (ascii "\x7b\"connections_accepted\":").length +
      (ascii ",\"requests_total\":").length +
      (ascii ",\"responses_2xx\":").length +
      (ascii ",\"responses_4xx\":").length +
      (ascii ",\"responses_5xx\":").length +
      (ascii ",\"active_connections\":").length +
      (ascii "\x7d").length ≤ 200 := by decide
  unfold statsJson statsJsonSize
  simp only [List.length_append]
  omega

/-- The values of the Allow headers. -/
def allowValues (fields : List Header) : List Bytes :=
  (fields.filter fun field =>
    headerNameEqual field.name (ascii "Allow")).map Header.value

/-- A request was handled with a status and with these Allow headers. -/
structure Answered (outcome : Bool × Response) (statusCode : Int)
    (allow : List Bytes) : Prop where
  handled : outcome.1 = true
  status : outcome.2.statusCode = statusCode
  allow : allowValues outcome.2.headers = allow

theorem allowValues_contentType (value : Bytes) :
    allowValues [{ name := ascii "Content-Type", value := value }] = [] := by
  have different : headerNameEqual (ascii "Content-Type")
      (ascii "Allow") = false := by decide
  simp [allowValues, different]

theorem httpResponseBuildJson_answered (response : Response)
    (statusCode : Int) (text : Bytes) {process : Process}
    (granted : process.allocs = []) :
    Answered (httpResponseBuildJson response statusCode (some text)
      process).1 statusCode [] := by
  rw [httpResponseBuildJson, buildWithType_granted _ _ _ _ granted]
  exact ⟨rfl, rfl, allowValues_contentType _⟩

theorem handleStats_answered (snapshot : StatsSnapshot)
    (response : Response) {process : Process}
    (granted : process.allocs = []) :
    Answered (handleStats snapshot response process).1 200 [] := by
  rw [handleStats, if_neg (Nat.not_le.mpr (statsJson_length snapshot))]
  exact httpResponseBuildJson_answered _ _ _ granted

theorem handleEcho_granted (request : Request) (response : Response)
    {process : Process} (granted : process.allocs = []) :
    (handleEcho request response process).1.1 = true ∧
      (handleEcho request response process).1.2.statusCode = 200 ∧
      (handleEcho request response process).1.2.headers =
        [{ name := ascii "Content-Type"
           value := echoContentType request }] ∧
      (handleEcho request response process).1.2.bodyKind ≠ .file ∧
      bodyBytes (handleEcho request response process).1.2 = request.body ∧
      (handleEcho request response process).1.2.bodyLength =
        request.body.length := by
  have kept : (httpResponseDestroy response process).2.allocs = [] := by
    simp [httpResponseDestroy, granted]
  unfold handleEcho httpResponseSetBodyCopy httpResponseSetBodyOwned
  simp only [Process.malloc_granted kept, Bool.not_true, Bool.false_eq_true,
    if_false, reduceCtorEq, and_false, and_self, if_true, List.take_length]
  split_ifs with empty
  · simp only [httpResponseAddHeader_granted _ _ _
      ((clearBody_allocs _ _).trans kept)]
    refine ⟨trivial, rfl, rfl, ?_, ?_, empty.symm⟩
    · intro file
      cases file
    · exact (List.length_eq_zero_iff.mp empty).symm
  · simp only [httpResponseAddHeader_granted _ _ _
      ((clearBody_allocs _ _).trans kept)]
    refine ⟨trivial, rfl, rfl, ?_, List.take_length, trivial⟩
    intro file
    cases file

theorem handleEcho_answered (request : Request) (response : Response)
    {process : Process} (granted : process.allocs = []) :
    Answered (handleEcho request response process).1 200 [] := by
  obtain ⟨handled, status, headers, _⟩ :=
    handleEcho_granted request response granted
  refine ⟨handled, status, ?_⟩
  rw [headers]
  exact allowValues_contentType _

theorem buildApiError_answered (response : Response) (statusCode : Int)
    (json : Bytes) {allow : Option Bytes}
    (nonempty : ∀ value ∈ allow, value ≠ []) {process : Process}
    (granted : process.allocs = []) :
    Answered (buildApiError response statusCode json allow process).1
      statusCode allow.toList := by
  have built := httpResponseBuildJson_answered response statusCode json
    granted
  have kept : (httpResponseBuildJson response statusCode (some json)
      process).2.allocs = [] := buildWithType_allocs _ _ _ _ granted
  unfold buildApiError
  generalize httpResponseBuildJson response statusCode (some json) process =
    result at built kept ⊢
  obtain ⟨⟨flag, filled⟩, later⟩ := result
  obtain ⟨rfl, status, none⟩ := built
  cases allow with
  | none => exact ⟨rfl, status, none⟩
  | some value =>
      have own : allowValues [{ name := ascii "Allow", value := value }] =
          [value] := by
        simp [allowValues, headerNameEqual_self]
      simp only [if_neg (nonempty value rfl),
        httpResponseAddHeader_granted _ _ _ kept]
      refine ⟨rfl, status, ?_⟩
      rw [allowValues] at none own ⊢
      rw [List.filter_append, List.map_append, none, own]
      rfl

/-! ## The route loop -/

/-- The part of a target before its query. -/
def requestPath (target : Bytes) : Bytes :=
  target.takeWhile (· ≠ question)

theorem pathEquals_eq_decide (target path : Bytes) :
    pathEquals target path = decide (requestPath target = path) := by
  fun_induction pathEquals target path with
  | case1 => rfl
  | case2 expected path => rfl
  | case3 character target =>
      by_cases query : character = question
      · simp [requestPath, query]
      · simp [requestPath, query]
  | case4 target expected path => simp [requestPath]
  | case5 character target expected path other different =>
      simp [requestPath, other, different]
  | case6 character target expected path other same induction =>
      rw [not_not] at same
      subst same
      rw [induction]
      simp [requestPath, other]

/-- What the loop over a table comes to: a route of the path that fits, the
path when it has routes and none of them fits, or nothing. -/
inductive Selection (path : Bytes) (method : HttpMethod)
    (table : List Route) : Except (Option Bytes) Route → Prop
  | chosen {route : Route} : route ∈ table → route.path = path →
      methodCompatible route.method method = true →
      Selection path method table (.ok route)
  | refused : (∃ route ∈ table, route.path = path) →
      (∀ route ∈ table, route.path = path →
        methodCompatible route.method method = false) →
      Selection path method table (.error (some path))
  | missing : (∀ route ∈ table, route.path ≠ path) →
      Selection path method table (.error none)

section

variable {path : Bytes} {method : HttpMethod} {table : List Route}

theorem Selection.skip {seen : List Route} {matched : Option Bytes}
    {route : Route} (before : Selection path method seen (.error matched))
    (other : route.path ≠ path) :
    Selection path method (seen ++ [route]) (.error matched) := by
  cases before with
  | refused routed unfit =>
      obtain ⟨earlier, member, same⟩ := routed
      refine .refused ⟨earlier, List.mem_append_left _ member, same⟩ ?_
      intro candidate among same
      rcases List.mem_append.mp among with old | new
      · exact unfit candidate old same
      · rw [List.mem_singleton.mp new] at same
        exact absurd same other
  | missing none =>
      refine .missing ?_
      intro candidate among
      rcases List.mem_append.mp among with old | new
      · exact none candidate old
      · rw [List.mem_singleton.mp new]
        exact other

/-- A route of the path that does not fit makes the path the matched one. -/
theorem Selection.refuse {seen : List Route} {matched : Option Bytes}
    {route : Route} (before : Selection path method seen (.error matched))
    (same : route.path = path)
    (unfit : methodCompatible route.method method = false) :
    Selection path method (seen ++ [route]) (.error (some route.path)) := by
  subst same
  refine .refused ⟨route, List.mem_append_right _
    (List.mem_singleton_self _), rfl⟩ ?_
  intro candidate among same
  rcases List.mem_append.mp among with old | new
  · cases before with
    | refused _ earlier => exact earlier candidate old same
    | missing none => exact absurd same (none candidate old)
  · rw [List.mem_singleton.mp new]
    exact unfit

theorem selectRoute_behind {target : Bytes} {seen : List Route}
    {matched : Option Bytes}
    (before : Selection (requestPath target) method seen (.error matched)) :
    Selection (requestPath target) method (seen ++ table)
      (selectRoute target method matched table) := by
  induction table generalizing seen matched with
  | nil =>
      rw [List.append_nil]
      exact before
  | cons route others induction =>
      rw [selectRoute, List.append_cons, pathEquals_eq_decide]
      by_cases same : requestPath target = route.path
      · cases fits : methodCompatible route.method method with
        | false =>
            rw [decide_eq_true same]
            exact induction (before.refuse same.symm fits)
        | true =>
            rw [decide_eq_true same]
            refine .chosen ?_ same.symm fits
            exact List.mem_append_left _ (List.mem_append_right _
              (List.mem_singleton_self _))
      · rw [decide_eq_false same]
        exact induction (before.skip (Ne.symm same))

theorem selectRoute_selection (target : Bytes) (method : HttpMethod)
    (table : List Route) :
    Selection (requestPath target) method table
      (selectRoute target method none table) := by
  have start : Selection (requestPath target) method [] (.error none) :=
    .missing (by simp)
  exact selectRoute_behind start

end

/-! ## Dispatch -/

theorem buildAllowHeader_ne_nil {path : Bytes} :
    ∀ allow ∈ buildAllowHeader path, allow ≠ [] := by
  intro allow built
  rcases buildAllowHeader_cases built with rfl | rfl | rfl
  · decide
  · decide
  · decide

/-- The status for what the loop came to. -/
def selectionStatus : Except (Option Bytes) Route → Int
  | .ok _ => 200
  | .error (some _) => 405
  | .error none => 404

/-- The Allow headers for what the loop came to. -/
def selectionAllow : Except (Option Bytes) Route → List Bytes
  | .error (some path) => (buildAllowHeader path).toList
  | _ => []

theorem routerDispatch_answered {request : Request} {target : Bytes}
    (targeted : request.target = some target) (snapshot : StatsSnapshot)
    (response : Response) {process : Process}
    (granted : process.allocs = []) :
    Answered (routerDispatch snapshot request response process).1
      (selectionStatus (selectRoute target request.method none routes))
      (selectionAllow (selectRoute target request.method none routes)) := by
  unfold routerDispatch
  simp only [targeted]
  rcases selectRoute target request.method none routes with
    (_ | path) | ⟨method, path, handler⟩
  · exact buildApiError_answered _ _ _ (by simp) granted
  · exact buildApiError_answered _ _ _ buildAllowHeader_ne_nil granted
  · cases handler with
    | health => exact httpResponseBuildJson_answered _ _ _ granted
    | echo => exact handleEcho_answered _ _ granted
    | stats => exact handleStats_answered snapshot response granted

/-! ## The methods of a path -/

/-- Some route has this path and this method. -/
def hasRoute (path : Bytes) (method : HttpMethod) : Bool :=
  routes.any fun route => route.path == path && route.method == method

theorem hasRoute_iff (path : Bytes) (method : HttpMethod) :
    hasRoute path method = true ↔
      ∃ route ∈ routes, route.path = path ∧ route.method = method := by
  simp only [hasRoute, List.any_eq_true, Bool.and_eq_true, beq_iff_eq]

/-- The methods that the routes of a path fit, in the order of the header. -/
def allowedMethods (path : Bytes) : List HttpMethod :=
  (if hasRoute path .get then [.get, .head] else []) ++
    if hasRoute path .post then [.post] else []

/-- Every route is for GET, which stands for HEAD as well, or for POST. -/
theorem methodCompatible_routes :
    ∀ route ∈ routes, ∀ method, methodCompatible route.method method = true ↔
      (route.method = .get ∧ (method = .get ∨ method = .head)) ∨
        (route.method = .post ∧ method = .post) := by
  intro route member method
  revert route
  cases method with
  | get => decide
  | head => decide
  | post => decide
  | unknown => decide

theorem mem_allowedMethods_iff (path : Bytes) (method : HttpMethod) :
    method ∈ allowedMethods path ↔ ∃ route ∈ routes, route.path = path ∧
      methodCompatible route.method method = true := by
  have listed : method ∈ allowedMethods path ↔
      (hasRoute path .get = true ∧ (method = .get ∨ method = .head)) ∨
        (hasRoute path .post = true ∧ method = .post) := by
    unfold allowedMethods
    cases hasRoute path .get <;> cases hasRoute path .post <;>
      simp [or_assoc]
  rw [listed, hasRoute_iff, hasRoute_iff]
  constructor
  · rintro (⟨⟨route, member, named, reads⟩, fits⟩ |
      ⟨⟨route, member, named, posts⟩, fits⟩)
    · exact ⟨route, member, named,
        (methodCompatible_routes route member method).mpr
          (.inl ⟨reads, fits⟩)⟩
    · exact ⟨route, member, named,
        (methodCompatible_routes route member method).mpr
          (.inr ⟨posts, fits⟩)⟩
  · rintro ⟨route, member, named, compatible⟩
    rcases (methodCompatible_routes route member method).mp compatible with
      ⟨reads, fits⟩ | ⟨posts, fits⟩
    · exact .inl ⟨⟨route, member, named, reads⟩, fits⟩
    · exact .inr ⟨⟨route, member, named, posts⟩, fits⟩

/-- The header of a path with a route lists the methods by their names. -/
theorem buildAllowHeader_lists {path : Bytes}
    (routed : allowedMethods path ≠ []) :
    ∃ allow, buildAllowHeader path = some allow ∧
      listElements allow =
        (allowedMethods path).map httpMethodToString := by
  have reads : (routes.any fun route =>
      route.path == path && route.method == .get) =
        hasRoute path .get := rfl
  have posts : (routes.any fun route =>
      route.path == path && route.method == .post) =
        hasRoute path .post := rfl
  unfold buildAllowHeader
  rw [reads, posts]
  unfold allowedMethods at routed ⊢
  generalize hasRoute path .get = get at routed ⊢
  generalize hasRoute path .post = post at routed ⊢
  cases get with
  | false =>
      cases post with
      | false => exact absurd rfl routed
      | true => exact ⟨ascii "POST", by decide, by decide +kernel⟩
  | true =>
      cases post with
      | false => exact ⟨ascii "GET, HEAD", by decide, by decide +kernel⟩
      | true =>
          exact ⟨ascii "GET, HEAD, POST", by decide, by decide +kernel⟩

/-! ## The answers of the router -/

section

variable {path : Bytes} {method : HttpMethod}
  {selection : Except (Option Bytes) Route}

theorem Selection.status_ok_iff
    (selected : Selection path method routes selection) :
    selectionStatus selection = 200 ↔ method ∈ allowedMethods path := by
  rw [mem_allowedMethods_iff]
  cases selected with
  | @chosen route member same fits =>
      exact iff_of_true rfl ⟨route, member, same, fits⟩
  | refused routed unfit =>
      refine iff_of_false (by simp [selectionStatus]) ?_
      rintro ⟨route, member, same, fits⟩
      rw [unfit route member same] at fits
      cases fits
  | missing none =>
      refine iff_of_false (by simp [selectionStatus]) ?_
      rintro ⟨route, member, same, fits⟩
      exact none route member same

theorem Selection.status_missing_iff
    (selected : Selection path method routes selection) :
    selectionStatus selection = 404 ↔
      ∀ route ∈ routes, route.path ≠ path := by
  cases selected with
  | @chosen route member same fits =>
      refine iff_of_false (by simp [selectionStatus]) ?_
      intro none
      exact none route member same
  | refused routed unfit =>
      refine iff_of_false (by simp [selectionStatus]) ?_
      intro none
      obtain ⟨route, member, same⟩ := routed
      exact none route member same
  | missing none => exact iff_of_true rfl none

theorem Selection.status_refused_iff
    (selected : Selection path method routes selection) :
    selectionStatus selection = 405 ↔
      (∃ route ∈ routes, route.path = path) ∧
        ∀ route ∈ routes, route.path = path →
          methodCompatible route.method method = false := by
  cases selected with
  | @chosen route member same fits =>
      refine iff_of_false (by simp [selectionStatus]) ?_
      rintro ⟨routed, unfit⟩
      rw [unfit route member same] at fits
      cases fits
  | refused routed unfit => exact iff_of_true rfl ⟨routed, unfit⟩
  | missing none =>
      refine iff_of_false (by simp [selectionStatus]) ?_
      rintro ⟨⟨route, member, same⟩, unfit⟩
      exact none route member same

/-- Where the path has a route, the methods of its routes are those that are
not refused. -/
theorem Selection.status_ne_refused_iff
    (selected : Selection path method routes selection)
    (routed : ∃ route ∈ routes, route.path = path) :
    selectionStatus selection ≠ 405 ↔ method ∈ allowedMethods path := by
  rw [mem_allowedMethods_iff, ne_eq, selected.status_refused_iff]
  constructor
  · intro accepted
    by_contra unfit
    refine accepted ⟨routed, ?_⟩
    intro route member same
    rw [Bool.eq_false_iff]
    exact fun fits => unfit ⟨route, member, same, fits⟩
  · rintro ⟨route, member, same, fits⟩ ⟨_, unfit⟩
    rw [unfit route member same] at fits
    cases fits

/-- Where the path has a route, its Allow header can be composed and names
the methods of its routes. -/
theorem buildAllowHeader_routed
    (routed : ∃ route ∈ routes, route.path = path) :
    ∃ allow, buildAllowHeader path = some allow ∧
      listElements allow =
        (allowedMethods path).map httpMethodToString := by
  apply buildAllowHeader_lists
  obtain ⟨route, member, same⟩ := routed
  have own : route.method ∈ allowedMethods path :=
    (mem_allowedMethods_iff path route.method).mpr
      ⟨route, member, same, if_pos rfl⟩
  exact List.ne_nil_of_mem own

theorem selectionAllow_eq_nil (other : selectionStatus selection ≠ 405) :
    selectionAllow selection = [] := by
  cases selection with
  | ok route => rfl
  | error matched =>
      cases matched with
      | none => rfl
      | some path => exact absurd rfl other

theorem Selection.allow_refused
    (selected : Selection path method routes selection)
    (refused : selectionStatus selection = 405) :
    selectionAllow selection = (buildAllowHeader path).toList := by
  cases selected with
  | chosen member same fits => exact absurd refused (by simp [selectionStatus])
  | refused routed unfit => rfl
  | missing none => exact absurd refused (by simp [selectionStatus])

end

/-- Where the path has a route, the methods of its routes are those that the
dispatch of a request does not refuse. -/
theorem routerDispatch_ne_refused_iff (snapshot : StatsSnapshot)
    {request : Request} {target : Bytes}
    (targeted : request.target = some target) (response : Response)
    {process : Process} (granted : process.allocs = [])
    (routed : ∃ route ∈ routes, route.path = requestPath target) :
    (routerDispatch snapshot request response
        process).1.2.statusCode ≠ 405 ↔
      request.method ∈ allowedMethods (requestPath target) := by
  rw [(routerDispatch_answered targeted snapshot response granted).status]
  exact (selectRoute_selection target request.method
    routes).status_ne_refused_iff routed

/-- The status and the Allow header of every dispatch, of a target in the
namespace of the router or of any other. -/
theorem routerDispatch_exact (snapshot : StatsSnapshot) {request : Request}
    {target : Bytes} (targeted : request.target = some target)
    (response : Response) {process : Process}
    (granted : process.allocs = []) :
    let path := requestPath target
    let outcome := (routerDispatch snapshot request response process).1
    (outcome.1 = true ∧ outcome.2.statusCode = 200 ↔
      ∃ route ∈ routes, route.path = path ∧
        methodCompatible route.method request.method = true) ∧
    (outcome.1 = true ∧ outcome.2.statusCode = 405 ↔
      (∃ route ∈ routes, route.path = path) ∧
        ∀ route ∈ routes, route.path = path →
          methodCompatible route.method request.method = false) ∧
    (outcome.1 = true ∧ outcome.2.statusCode = 404 ↔
      ∀ route ∈ routes, route.path ≠ path) ∧
    (outcome.2.statusCode = 405 →
      ∃ value, allowValues outcome.2.headers = [value] ∧
        ∀ text, text ∈ listElements value ↔
          ∃ method, text = httpMethodToString method ∧
            (routerDispatch snapshot { request with method := method }
              response process).1.2.statusCode ≠ 405) ∧
    (outcome.2.statusCode ≠ 405 →
      allowValues outcome.2.headers = []) := by
  intro path outcome
  have selected := selectRoute_selection target request.method routes
  obtain ⟨handled, status, allow⟩ :=
    routerDispatch_answered targeted snapshot response granted
  change outcome.1 = true at handled
  change outcome.2.statusCode = _ at status
  change allowValues outcome.2.headers = _ at allow
  rw [status, and_iff_right handled, and_iff_right handled,
    and_iff_right handled]
  refine ⟨?_, selected.status_refused_iff, selected.status_missing_iff, ?_,
    ?_⟩
  · rw [selected.status_ok_iff]
    exact mem_allowedMethods_iff path request.method
  · intro refused
    obtain ⟨routed, unfit⟩ := selected.status_refused_iff.mp refused
    obtain ⟨value, built, listed⟩ := buildAllowHeader_routed routed
    refine ⟨value, ?_, ?_⟩
    · rw [allow, selected.allow_refused refused, built]
      rfl
    · intro text
      -- the same target with another method is a request like this one
      have accepted : ∀ method, (routerDispatch snapshot
          { request with method := method } response
            process).1.2.statusCode ≠ 405 ↔
          method ∈ allowedMethods path := by
        intro method
        have same : { request with method := method }.target =
            some target := targeted
        exact routerDispatch_ne_refused_iff snapshot same response granted
          routed
      simp only [listed, List.mem_map, accepted]
      constructor
      · rintro ⟨method, member, rfl⟩
        exact ⟨method, rfl, member⟩
      · rintro ⟨method, rfl, member⟩
        exact ⟨method, member, rfl⟩
  · intro other
    rw [allow]
    exact selectionAllow_eq_nil other

/-- A POST to the health check is refused; the Allow header has GET and HEAD,
since neither of them would be. -/
theorem routerDispatch_exact_posted :
    let snapshot : StatsSnapshot := ⟨0, 0, 0, 0, 0, 0⟩
    let request := { httpRequestInit with
      method := .post
      target := some (ascii "/api/health?full") }
    let process : Process := {}
    let outcome :=
      (routerDispatch snapshot request httpResponseInit process).1
    outcome.2.statusCode = 405 ∧
      ∃ value, allowValues outcome.2.headers = [value] ∧
        ∀ text, text ∈ listElements value ↔
          ∃ method, text = httpMethodToString method ∧
            (routerDispatch snapshot { request with method := method }
              httpResponseInit process).1.2.statusCode ≠ 405 := by
  intro snapshot request process outcome
  have exact := @routerDispatch_exact snapshot request
    (ascii "/api/health?full") rfl httpResponseInit process rfl
  obtain ⟨_, refused, _, listed, _⟩ := exact
  have status : outcome.2.statusCode = 405 :=
    (refused.mpr (by decide)).2
  exact ⟨status, listed status⟩

end CinderHTTP
