import CinderHTTP.Base.Decimal
import CinderHTTP.Response.Build

/-!
# The router

The functions of `router.c`: the test for the reserved namespace, the route
table with its handlers, and the dispatch.  A handler may read the statistics
of the server, which arrive as a snapshot.
-/

namespace CinderHTTP

structure StatsSnapshot where
  connectionsAccepted : UInt64
  requestsTotal : UInt64
  responses2xx : UInt64
  responses4xx : UInt64
  responses5xx : UInt64
  activeConnections : UInt64
  deriving DecidableEq, Repr

/-! ## Paths -/

/-- The part of a target before its query is the route path. -/
def pathEquals : Bytes → Bytes → Bool
  | [], [] => true
  | [], _ :: _ => false
  | character :: _, [] => character == question
  | character :: target, expected :: routePath =>
      if character = question then false
      else if character ≠ expected then false
      else pathEquals target routePath

/-- The loop of `path_has_api_prefix`. -/
def startsWith : Bytes → Bytes → Bool
  | _, [] => true
  | [], _ :: _ => false
  | character :: target, expected :: text =>
      if character = question ∨ character ≠ expected then false
      else startsWith target text

def pathHasApiPrefix (target : Option Bytes) : Bool :=
  match target with
  | none => false
  | some target =>
      if pathEquals target (ascii "/api") then true
      else startsWith target (ascii "/api/")

def routerIsApiRequest (request : Request) : Bool :=
  pathHasApiPrefix request.target

/-! ## Handlers -/

def methodCompatible (routeMethod requestMethod : HttpMethod) : Bool :=
  if routeMethod = requestMethod then true
  else routeMethod = .get && requestMethod = .head

def handleHealth (response : Response) (process : Process) :
    (Bool × Response) × Process :=
  httpResponseBuildJson response 200
    (some (ascii "\x7b\"status\":\"ok\"\x7d")) process

/-- The media type of an echo: the first Content-Type of the request when it
is not empty. -/
def echoContentType (request : Request) : Bytes :=
  match httpRequestGetHeader request (ascii "Content-Type") with
  | none => ascii "application/octet-stream"
  | some value =>
      if value = [] then ascii "application/octet-stream" else value

def handleEcho (request : Request) (response : Response)
    (process : Process) : (Bool × Response) × Process :=
  let destroyed := httpResponseDestroy response process
  let fresh := httpResponseSetStatus destroyed.1 200
  match httpResponseSetBodyCopy fresh (some request.body)
      request.body.length destroyed.2 with
  | ((false, response), process) => ((false, response), process)
  | ((true, response), process) =>
      httpResponseAddHeader response (ascii "Content-Type")
        (echoContentType request) process

def statsJson (snapshot : StatsSnapshot) : Bytes :=
  ascii "\x7b\"connections_accepted\":" ++
    decimal snapshot.connectionsAccepted.toNat ++
    ascii ",\"requests_total\":" ++ decimal snapshot.requestsTotal.toNat ++
    ascii ",\"responses_2xx\":" ++ decimal snapshot.responses2xx.toNat ++
    ascii ",\"responses_4xx\":" ++ decimal snapshot.responses4xx.toNat ++
    ascii ",\"responses_5xx\":" ++ decimal snapshot.responses5xx.toNat ++
    ascii ",\"active_connections\":" ++
    decimal snapshot.activeConnections.toNat ++ ascii "\x7d"

def statsJsonSize : Nat := 512

def handleStats (snapshot : StatsSnapshot) (response : Response)
    (process : Process) : (Bool × Response) × Process :=
  if (statsJson snapshot).length ≥ statsJsonSize then
    ((false, response), process)
  else httpResponseBuildJson response 200 (some (statsJson snapshot)) process

inductive Handler where
  | health
  | echo
  | stats
  deriving DecidableEq, Repr

def Handler.run (handler : Handler) (snapshot : StatsSnapshot)
    (request : Request) (response : Response) (process : Process) :
    (Bool × Response) × Process :=
  match handler with
  | .health => handleHealth response process
  | .echo => handleEcho request response process
  | .stats => handleStats snapshot response process

structure Route where
  method : HttpMethod
  path : Bytes
  handler : Handler
  deriving DecidableEq, Repr

def routes : List Route :=
  [{ method := .get, path := ascii "/api/health", handler := .health },
    { method := .post, path := ascii "/api/echo", handler := .echo },
    { method := .get, path := ascii "/api/stats", handler := .stats }]

/-! ## Errors -/

def allowSize : Nat := 64

/-- The methods of a path; nothing when the text is empty or too long. -/
def buildAllowHeader (path : Bytes) : Option Bytes :=
  let hasGet := routes.any fun route =>
    route.path == path && route.method == .get
  let hasPost := routes.any fun route =>
    route.path == path && route.method == .post
  let getText := if hasGet then ascii "GET, HEAD" else []
  let postText :=
    if hasPost then (if getText ≠ [] then ascii ", " else []) ++ ascii "POST"
    else []
  if getText.length ≥ allowSize then none
  else if postText.length ≥ allowSize - getText.length then none
  else if getText ++ postText = [] then none
  else some (getText ++ postText)

theorem buildAllowHeader_cases {path allow : Bytes}
    (built : buildAllowHeader path = some allow) :
    allow = ascii "GET, HEAD" ∨ allow = ascii "POST" ∨
      allow = ascii "GET, HEAD, POST" := by
  unfold buildAllowHeader at built
  generalize (routes.any fun route =>
    route.path == path && route.method == .get) = hasGet at built
  generalize (routes.any fun route =>
    route.path == path && route.method == .post) = hasPost at built
  revert allow
  revert hasGet hasPost
  -- an option has at most one member, so the quantifier is bounded
  change ∀ hasGet hasPost : Bool, ∀ allow : Bytes,
    allow ∈ (_ : Option Bytes) → _ ∨ _
  decide +kernel

def buildApiError (response : Response) (statusCode : Int)
    (json : Bytes) (allow : Option Bytes) (process : Process) :
    (Bool × Response) × Process :=
  match httpResponseBuildJson response statusCode (some json) process with
  | ((false, response), process) => ((false, response), process)
  | ((true, response), process) =>
      match allow with
      | none => ((true, response), process)
      | some allow =>
          if allow = [] then ((true, response), process)
          else httpResponseAddHeader response (ascii "Allow") allow process

/-! ## Dispatch -/

/-- The route loop: the first compatible route of the path, or the path that
was matched last. -/
def selectRoute (target : Bytes) (method : HttpMethod) (matched : Option Bytes) :
    List Route → Except (Option Bytes) Route
  | [] => .error matched
  | route :: others =>
      if !pathEquals target route.path then
        selectRoute target method matched others
      else if methodCompatible route.method method then .ok route
      else selectRoute target method (some route.path) others

/-- The flag is whether the result is `ROUTER_HANDLED`. -/
def routerDispatch (snapshot : StatsSnapshot) (request : Request)
    (response : Response) (process : Process) :
    (Bool × Response) × Process :=
  match request.target with
  | none => ((false, response), process)
  | some target =>
      match selectRoute target request.method none routes with
      | .ok route => route.handler.run snapshot request response process
      | .error (some path) =>
          buildApiError response 405
            (ascii "\x7b\"error\":\"method not allowed\"\x7d")
            (buildAllowHeader path) process
      | .error none =>
          buildApiError response 404
            (ascii "\x7b\"error\":\"not found\"\x7d") none process

end CinderHTTP
