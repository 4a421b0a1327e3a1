import CinderHTTP.Connection.Policy
import CinderHTTP.Response.Removal
import CinderHTTP.Response.Wire

/-!
# What a response announces

Removing a header by moving the last one into its place loses nothing, so the
policy of `http_connection.c` determines the Connection fields of the header
section, also when it fails for lack of memory: a response that was told to
close announces that, in a header of its own or in the one that the serializer
adds.  All other fields are kept.
-/

namespace CinderHTTP

/-! ## Connection fields -/

/-- The values of the Connection fields in the header section. -/
def connectionValues (fields : List Header) : List Bytes :=
  (fields.filter fun field =>
    headerNameEqual field.name (ascii "Connection")).map Header.value

theorem connectionValues_append (left right : List Header) :
    connectionValues (left ++ right) =
      connectionValues left ++ connectionValues right := by
  simp [connectionValues]

/-- Of the added headers only one is a Connection field. -/
theorem connectionValues_responseFields (response : Response) :
    connectionValues (responseFields response) =
      connectionValues response.headers ++
        if needConnection response then [ascii "close"] else [] := by
  have server : connectionValues
      [{ name := ascii "Server", value := ascii "CinderHTTP/1.0" }] = [] := by
    decide
  have connection : connectionValues
      [{ name := ascii "Connection", value := ascii "close" }] =
        [ascii "close"] := by decide
  have length : ∀ value : Bytes, connectionValues
      [{ name := ascii "Content-Length", value := value }] = [] := by
    intro value
    have different : headerNameEqual (ascii "Content-Length")
        (ascii "Connection") = false := by decide
    simp [connectionValues, different]
  have empty : connectionValues [] = [] := rfl
  unfold responseFields
  simp only [connectionValues_append, apply_ite connectionValues, server,
    connection, length, empty, ite_self, List.append_nil]

theorem connectionValues_removed (response : Response) :
    connectionValues (httpResponseRemoveHeader response
      (ascii "Connection")).2.headers = [] := by
  rw [connectionValues, httpResponseRemoveHeader_filter, List.map_nil]

theorem responseHasHeader_eq_false_iff (response : Response) (name : Bytes) :
    responseHasHeader response name = false ↔
      ∀ field ∈ response.headers, headerNameEqual field.name name = false := by
  simp [responseHasHeader]

/-! ## The policy -/

/-- Setting the Connection header determines the Connection fields. -/
theorem setConnection_values (response : Response) (value : Bytes)
    (process : Process)
    (auto : response.suppressAutoConnectionClose = false) :
    connectionValues (responseFields (httpResponseSetHeader response
        (ascii "Connection") value process).1.2) =
      [if (httpResponseSetHeader response (ascii "Connection") value
        process).1.1 then value else ascii "close"] := by
  have removed := connectionValues_removed response
  rcases httpResponseSetHeader_cases response (ascii "Connection") value
    process with added | refused
  · have present : needConnection { response with
        headers := (httpResponseRemoveHeader response
          (ascii "Connection")).2.headers ++
            [{ name := ascii "Connection", value := value }] } = false := by
      have same : headerNameEqual (ascii "Connection")
          (ascii "Connection") = true := headerNameEqual_self _
      simp [needConnection, responseHasHeader, same]
    have own : connectionValues
        [{ name := ascii "Connection", value := value }] = [value] := by
      have same : headerNameEqual (ascii "Connection")
          (ascii "Connection") = true := headerNameEqual_self _
      simp [connectionValues, same]
    rw [added, connectionValues_responseFields, present,
      connectionValues_append, removed, own]
    rfl
  · have needed : needConnection (httpResponseRemoveHeader response
        (ascii "Connection")).2 = true := by
      have absent : responseHasHeader (httpResponseRemoveHeader response
          (ascii "Connection")).2 (ascii "Connection") = false := by
        rw [responseHasHeader_eq_false_iff]
        intro field member
        exact (mem_httpResponseRemoveHeader.mp member).2
      have kept : (httpResponseRemoveHeader response
          (ascii "Connection")).2.suppressAutoConnectionClose = false := auto
      simp [needConnection, absent, kept]
    rw [refused, connectionValues_responseFields, needed, removed]
    rfl

/-- Told to close, a response announces it whether or not memory was
found. -/
theorem policy_close (response : Response) (version : Option Bytes)
    (process : Process) :
    connectionValues (responseFields (httpResponseApplyConnectionPolicy
      response false version process).1.2) = [ascii "close"] := by
  unfold httpResponseApplyConnectionPolicy
  rw [if_pos (by decide), setConnection_values _ _ _ rfl]
  simp

/-- The values that the policy is to announce. -/
def policyValues (keepAlive : Bool) (version : Option Bytes) : List Bytes :=
  match keepAlive with
  | false => [ascii "close"]
  | true =>
      if version = some (ascii "HTTP/1.0") then [ascii "keep-alive"] else []

/-- A policy that was applied is announced. -/
theorem policy_values {response : Response} {keepAlive : Bool}
    {version : Option Bytes} {process : Process}
    (success : (httpResponseApplyConnectionPolicy response keepAlive version
      process).1.1 = true) :
    connectionValues (responseFields (httpResponseApplyConnectionPolicy
      response keepAlive version process).1.2) =
        policyValues keepAlive version := by
  cases keepAlive with
  | false => exact policy_close response version process
  | true =>
      unfold httpResponseApplyConnectionPolicy at success ⊢
      unfold policyValues
      rw [if_neg (by decide)] at success ⊢
      by_cases old : version = some (ascii "HTTP/1.0")
      · simp only [if_pos old] at success ⊢
        rw [setConnection_values _ _ _ rfl, success]
        rfl
      · have removed := connectionValues_removed response
        simp only [if_neg old]
        rw [connectionValues_responseFields]
        simp [needConnection, removed]

/-- Told to persist, a response does not announce the end. -/
theorem policy_persist {response : Response} {version : Option Bytes}
    {process : Process}
    (success : (httpResponseApplyConnectionPolicy response true version
      process).1.1 = true) :
    ascii "close" ∉ connectionValues (responseFields
      (httpResponseApplyConnectionPolicy response true version
        process).1.2) := by
  have different : ascii "close" ≠ ascii "keep-alive" := by decide
  rw [policy_values success, policyValues]
  split_ifs
  · simpa using different
  · exact List.not_mem_nil

/-! ## What the policy keeps -/

/-- Two responses that differ at most in Connection fields. -/
structure Restyled (before after : Response) : Prop where
  statusCode : after.statusCode = before.statusCode
  reasonPhrase : after.reasonPhrase = before.reasonPhrase
  bodyKind : after.bodyKind = before.bodyKind
  body : after.body = before.body
  bodyLength : after.bodyLength = before.bodyLength
  fileFd : after.fileFd = before.fileFd
  others : (after.headers.filter fun field =>
      !headerNameEqual field.name (ascii "Connection")).Perm
    (before.headers.filter fun field =>
      !headerNameEqual field.name (ascii "Connection"))

namespace Restyled

theorem trans {first second third : Response}
    (early : Restyled first second) (late : Restyled second third) :
    Restyled first third :=
  { statusCode := late.statusCode.trans early.statusCode
    reasonPhrase := late.reasonPhrase.trans early.reasonPhrase
    bodyKind := late.bodyKind.trans early.bodyKind
    body := late.body.trans early.body
    bodyLength := late.bodyLength.trans early.bodyLength
    fileFd := late.fileFd.trans early.fileFd
    others := late.others.trans early.others }

theorem bodyBytes {before after : Response}
    (restyled : Restyled before after) :
    CinderHTTP.bodyBytes after = CinderHTTP.bodyBytes before := by
  unfold CinderHTTP.bodyBytes
  rw [restyled.bodyKind, restyled.body, restyled.bodyLength,
    restyled.fileFd]

/-- Fields of another name are those of the response before. -/
theorem named {before after : Response} (restyled : Restyled before after)
    {name : Bytes}
    (other : headerNameEqual (ascii "Connection") name = false) :
    (after.headers.filter fun field =>
        headerNameEqual field.name name).Perm
      (before.headers.filter fun field =>
        headerNameEqual field.name name) := by
  have inside : ∀ headers : List Header,
      (headers.filter fun field => headerNameEqual field.name name) =
        (headers.filter fun field =>
          !headerNameEqual field.name (ascii "Connection")).filter
            fun field => headerNameEqual field.name name := by
    intro headers
    rw [List.filter_filter]
    apply List.filter_congr
    intro field _
    cases named : headerNameEqual field.name name with
    | false => rfl
    | true =>
        rw [headerNameEqual_iff] at named
        cases connection :
            headerNameEqual field.name (ascii "Connection") with
        | false => rfl
        | true =>
            rw [headerNameEqual_iff] at connection
            have same := (headerNameEqual_iff (ascii "Connection") name).mpr
              (connection.symm.trans named)
            rw [other] at same
            cases same
  rw [inside after.headers, inside before.headers]
  exact restyled.others.filter _

end Restyled

/-- Removing the Connection fields and appending some others. -/
theorem restyled_connection (response : Response) (flag : Bool)
    {added : List Header}
    (named : ∀ field ∈ added,
      headerNameEqual field.name (ascii "Connection") = true) :
    Restyled response
      { response with
        headers := (httpResponseRemoveHeader response
          (ascii "Connection")).2.headers ++ added
        suppressAutoConnectionClose := flag } := by
  refine ⟨rfl, rfl, rfl, rfl, rfl, rfl, ?_⟩
  have dropped : (added.filter fun field =>
      !headerNameEqual field.name (ascii "Connection")) = [] := by
    rw [List.filter_eq_nil_iff]
    intro field member
    simp [named field member]
  have kept := (httpResponseRemoveHeader_perm response
    (ascii "Connection")).filter fun field =>
      !headerNameEqual field.name (ascii "Connection")
  rw [List.filter_filter] at kept
  rw [List.filter_append, dropped, List.append_nil]
  simpa only [Bool.and_self] using kept

theorem setConnection_restyled (response : Response) (value : Bytes)
    (process : Process) :
    Restyled response (httpResponseSetHeader
      { response with suppressAutoConnectionClose := false }
      (ascii "Connection") value process).1.2 := by
  have named : ∀ field ∈
      [({ name := ascii "Connection", value := value } : Header)],
      headerNameEqual field.name (ascii "Connection") = true := by
    intro field member
    rw [List.mem_singleton.mp member]
    exact headerNameEqual_self _
  rcases httpResponseSetHeader_cases
    { response with suppressAutoConnectionClose := false }
    (ascii "Connection") value process with added | refused
  · rw [added]
    exact restyled_connection response false named
  · have bare := restyled_connection response false (List.forall_mem_nil _)
    rw [List.append_nil] at bare
    rw [refused]
    exact bare

theorem httpResponseApplyConnectionPolicy_restyled (response : Response)
    (keepAlive : Bool) (version : Option Bytes) (process : Process) :
    Restyled response (httpResponseApplyConnectionPolicy response keepAlive
      version process).1.2 := by
  unfold httpResponseApplyConnectionPolicy
  split_ifs
  · exact setConnection_restyled response (ascii "close") process
  · exact setConnection_restyled response (ascii "keep-alive") process
  · have bare := restyled_connection response true (List.forall_mem_nil _)
    rw [List.append_nil] at bare
    exact bare

/-! ## The header section -/

/-- The section written for the response has Connection fields with exactly
these values.  A recipient of a tidy response reads them. -/
structure Announces (response : Response) (values : List Bytes) : Prop where
  fields : connectionValues (responseFields response) = values
  written : ∀ {process later : Process} {bytes : Bytes},
    httpResponseSerializeHeaders response process = (some bytes, later) →
      bytes = statusText response ++ crlf ++
        ((responseFields response).map headerLine).flatten ++ crlf
  read : ∀ {process later : Process} {bytes : Bytes},
    httpResponseSerializeHeaders response process = (some bytes, later) →
      response.Tidy → connectionValues (sectionFields bytes) = values

theorem announces_of_fields {response : Response} {values : List Bytes}
    (fields : connectionValues (responseFields response) = values) :
    Announces response values := by
  refine ⟨fields, ?_, ?_⟩
  · intro process later bytes serialized
    rw [httpResponseSerializeHeaders_some serialized,
      serializedBytes_fields]
  · intro process later bytes serialized tidy
    have received := sectionFields_serialized tidy []
    rw [List.append_nil] at received
    rw [httpResponseSerializeHeaders_some serialized, received, fields]

/-- The fields with other names. -/
def otherFields (fields : List Header) : List Header :=
  fields.filter fun field => !headerNameEqual field.name (ascii "Connection")

/-- Whether a header of another name is there does not depend on Connection
fields. -/
theorem Restyled.responseHasHeader_eq {before after : Response}
    (restyled : Restyled before after) {name : Bytes}
    (other : headerNameEqual (ascii "Connection") name = false) :
    responseHasHeader after name = responseHasHeader before name := by
  have counted := (restyled.named other).length_eq
  rw [← List.countP_eq_length_filter, ← List.countP_eq_length_filter]
    at counted
  unfold responseHasHeader
  rw [Bool.eq_iff_iff, List.any_eq_true, List.any_eq_true,
    ← List.countP_pos_iff, ← List.countP_pos_iff, counted]

/-- The section keeps its other fields, those that are added included. -/
theorem Restyled.otherFields_perm {before after : Response}
    (restyled : Restyled before after) :
    (otherFields (responseFields after)).Perm
      (otherFields (responseFields before)) := by
  have server : needServer after = needServer before := by
    rw [needServer, needServer, restyled.responseHasHeader_eq (by decide)]
  have length : needContentLength after = needContentLength before := by
    rw [needContentLength, needContentLength,
      restyled.responseHasHeader_eq (by decide)]
  have close : ∀ response : Response, otherFields
      (if needConnection response then
        [{ name := ascii "Connection", value := ascii "close" }]
      else []) = [] := by
    intro response
    cases needConnection response with
    | true => decide
    | false => rfl
  unfold responseFields
  rw [server, length, restyled.bodyLength]
  unfold otherFields at close ⊢
  simp only [List.filter_append, close]
  exact ((restyled.others.append_right _).append_right _).append_right _

/-- One call of the policy, with the memory it finds. -/
structure PolicyCall where
  keepAlive : Bool
  version : Option Bytes
  process : Process

/-- What a sequence of calls makes of a response, whichever of them fail. -/
def policyCalls (response : Response) (calls : List PolicyCall) : Response :=
  calls.foldl (fun response call =>
    (httpResponseApplyConnectionPolicy response call.keepAlive call.version
      call.process).1.2) response

/-- The policy determines the Connection fields of the header section and
keeps the others.  When it fails, a response that was last told to close
still announces that. -/
theorem httpResponseApplyConnectionPolicy_determines (response : Response)
    (keepAlive : Bool) (version : Option Bytes) (process : Process) :
    let applied :=
      httpResponseApplyConnectionPolicy response keepAlive version process
    (applied.1.1 = true →
      Announces applied.1.2 (policyValues keepAlive version)) ∧
    (statusText applied.1.2 = statusText response ∧
      (otherFields (responseFields applied.1.2)).Perm
        (otherFields (responseFields response)) ∧
      (otherFields applied.1.2.headers).Perm
        (otherFields response.headers)) ∧
    ∀ calls, Announces (policyCalls response
      (calls ++ [⟨false, version, process⟩])) [ascii "close"] := by
  intro applied
  have restyled := httpResponseApplyConnectionPolicy_restyled response
    keepAlive version process
  refine ⟨?_, ⟨?_, restyled.otherFields_perm, restyled.others⟩, ?_⟩
  · intro success
    exact announces_of_fields (policy_values success)
  · rw [statusText, statusText, restyled.statusCode, restyled.reasonPhrase]
  · intro calls
    rw [policyCalls, List.foldl_append]
    exact announces_of_fields (policy_close _ _ _)

/-- Two Connection fields are replaced by one. -/
theorem httpResponseApplyConnectionPolicy_determines_twice :
    let response : Response :=
      { httpResponseInit with
        headers :=
          [{ name := ascii "CONNECTION", value := ascii "upgrade" },
            { name := ascii "X-Test", value := ascii "1" },
            { name := ascii "connection", value := ascii "close" }] }
    Announces (httpResponseApplyConnectionPolicy response true
      (some (ascii "HTTP/1.0")) {}).1.2 [ascii "keep-alive"] := by
  intro response
  have applied : (httpResponseApplyConnectionPolicy response true
      (some (ascii "HTTP/1.0")) {}).1.1 = true := by decide +kernel
  exact (httpResponseApplyConnectionPolicy_determines response true
    (some (ascii "HTTP/1.0")) {}).1 applied

end CinderHTTP
