import CinderHTTP.Http.Request
import CinderHTTP.System.Files
import Mathlib.Algebra.Ring.Nat

/-!
# Building responses

`http_response_t` with the functions of `http_response.c` that fill it.  The
body is kept in the raw fields of the source: a kind, a heap buffer that may
be missing, a length and a descriptor that may be missing.  A function that
returns an error code returns the flag for success with the response, which
it may have changed before it failed.
-/

namespace CinderHTTP

inductive BodyKind where
  | none
  | memory
  | file
  deriving DecidableEq, Repr

structure Response where
  statusCode : Int
  reasonPhrase : Bytes
  headers : List Header
  bodyKind : BodyKind
  body : Option Bytes
  bodyLength : Nat
  bodyOwned : Bool
  fileFd : Option Descriptor
  suppressAutoConnectionClose : Bool
  deriving DecidableEq

def httpReasonPhrase : Int → Bytes
  | 200 => ascii "OK"
  | 201 => ascii "Created"
  | 204 => ascii "No Content"
  | 400 => ascii "Bad Request"
  | 403 => ascii "Forbidden"
  | 404 => ascii "Not Found"
  | 405 => ascii "Method Not Allowed"
  | 408 => ascii "Request Timeout"
  | 413 => ascii "Payload Too Large"
  | 500 => ascii "Internal Server Error"
  | 501 => ascii "Not Implemented"
  | 505 => ascii "HTTP Version Not Supported"
  | _ => ascii "Unknown"

def httpResponseInit : Response :=
  { statusCode := 500
    reasonPhrase := httpReasonPhrase 500
    headers := []
    bodyKind := .none
    body := none
    bodyLength := 0
    bodyOwned := false
    fileFd := none
    suppressAutoConnectionClose := false }

/-- Dropping the body; a file body closes its descriptor. -/
def clearBody (response : Response) (process : Process) :
    Response × Process :=
  let process :=
    match response.bodyKind, response.fileFd with
    | .file, some descriptor => process.close descriptor
    | _, _ => process
  ({ response with
      bodyKind := .none
      body := none
      bodyLength := 0
      bodyOwned := false
      fileFd := none }, process)

def httpResponseDestroy (response : Response) (process : Process) :
    Response × Process :=
  (httpResponseInit, (clearBody response process).2)

def httpResponseSetStatus (response : Response) (statusCode : Int) :
    Response :=
  { response with
    statusCode := statusCode
    reasonPhrase := httpReasonPhrase statusCode }

/-! ## Headers -/

/-- Both strings are copied before either copy is checked. -/
def httpResponseAddHeader (response : Response) (name value : Bytes)
    (process : Process) : (Bool × Response) × Process :=
  let nameCopy := process.malloc
  let valueCopy := nameCopy.2.malloc
  if !nameCopy.1 || !valueCopy.1 then ((false, response), valueCopy.2)
  else
    let grown := valueCopy.2.malloc
    if !grown.1 then ((false, response), grown.2)
    else
      ((true, { response with
        headers := response.headers ++ [{ name := name, value := value }] }),
        grown.2)

/-- The removal loop: a removed entry is replaced by the last one, and the
same position is looked at again. -/
def removeHeaderLoop (name : Bytes) (index : Nat) (headers : List Header)
    (removed : Nat) : Nat × List Header :=
  if within : index < headers.length then
    if headerNameEqual (headers.get ⟨index, within⟩).name name then
      let last := headers.get ⟨headers.length - 1, by omega⟩
      removeHeaderLoop name index (headers.set index last).dropLast
        (removed + 1)
    else removeHeaderLoop name (index + 1) headers removed
  else (removed, headers)
termination_by headers.length - index
decreasing_by
  · rw [List.length_dropLast, List.length_set]
    omega
  · omega

def httpResponseRemoveHeader (response : Response) (name : Bytes) :
    Nat × Response :=
  let result := removeHeaderLoop name 0 response.headers 0
  (result.1, { response with headers := result.2 })

def httpResponseSetHeader (response : Response) (name value : Bytes)
    (process : Process) : (Bool × Response) × Process :=
  httpResponseAddHeader (httpResponseRemoveHeader response name).2 name value
    process

def responseHasHeader (response : Response) (name : Bytes) : Bool :=
  response.headers.any fun header => headerNameEqual header.name name

/-! ## Bodies -/

def httpResponseSetBodyOwned (response : Response) (body : Option Bytes)
    (length : Nat) (process : Process) : (Bool × Response) × Process :=
  let cleared := clearBody response process
  if length = 0 ∧ body = none then ((true, cleared.1), cleared.2)
  else
    ((true, { cleared.1 with
      bodyKind := .memory
      body := body
      bodyLength := length
      bodyOwned := body.isSome }), cleared.2)

def httpResponseSetBodyText (response : Response) (text : Option Bytes)
    (process : Process) : (Bool × Response) × Process :=
  match text with
  | none => httpResponseSetBodyOwned response none 0 process
  | some text =>
      let copy := process.malloc
      if !copy.1 then ((false, response), copy.2)
      else
        httpResponseSetBodyOwned response (some text) text.length copy.2

def httpResponseSetBodyCopy (response : Response) (body : Option Bytes)
    (length : Nat) (process : Process) : (Bool × Response) × Process :=
  if length = 0 then httpResponseSetBodyOwned response none 0 process
  else
    match body with
    | none => ((false, response), process)
    | some bytes =>
        let copy := process.malloc
        if !copy.1 then ((false, response), copy.2)
        else
          httpResponseSetBodyOwned response (some (bytes.take length)) length
            copy.2

def sizeMax : Nat := 2 ^ 64 - 1

def httpResponseSetFileBody (response : Response) (descriptor : Descriptor)
    (size : Int) (process : Process) : (Bool × Response) × Process :=
  if size < 0 then ((false, response), process)
  else if size > sizeMax then ((false, response), process)
  else
    let cleared := clearBody response process
    ((true, { cleared.1 with
      bodyKind := .file
      fileFd := some descriptor
      body := none
      bodyLength := size.toNat
      bodyOwned := false }), cleared.2)

/-! ## Whole responses -/

/-- A fresh response with a text body and its media type, as the text, JSON
and HTML builders make it. -/
def buildWithType (contentType : Bytes) (response : Response)
    (statusCode : Int) (text : Option Bytes) (process : Process) :
    (Bool × Response) × Process :=
  let destroyed := httpResponseDestroy response process
  let fresh := httpResponseSetStatus destroyed.1 statusCode
  let filled :=
    match text with
    | none => ((true, fresh), destroyed.2)
    | some text => httpResponseSetBodyText fresh (some text) destroyed.2
  if !filled.1.1 then ((false, filled.1.2), filled.2)
  else
    httpResponseAddHeader filled.1.2 (ascii "Content-Type") contentType
      filled.2

def httpResponseBuildText : Response → Int → Option Bytes → Process →
    (Bool × Response) × Process :=
  buildWithType (ascii "text/plain; charset=utf-8")

def httpResponseBuildJson : Response → Int → Option Bytes → Process →
    (Bool × Response) × Process :=
  buildWithType (ascii "application/json")

/-! ## What the builders return -/

theorem httpResponseAddHeader_cases (response : Response)
    (name value : Bytes) (process : Process) :
    (httpResponseAddHeader response name value process).1 =
        (true, { response with
          headers := response.headers ++ [{ name := name, value := value }] })
      ∨ (httpResponseAddHeader response name value process).1 =
        (false, response) := by
  unfold httpResponseAddHeader
  simp only
  split_ifs
  · exact .inr rfl
  · exact .inr rfl
  · exact .inl rfl

theorem httpResponseAddHeader_granted (response : Response)
    (name value : Bytes) {process : Process}
    (granted : process.allocs = []) :
    httpResponseAddHeader response name value process =
      ((true, { response with
        headers := response.headers ++ [{ name := name, value := value }] }),
        process) := by
  simp [httpResponseAddHeader, granted]

@[simp] theorem clearBody_allocs (response : Response) (process : Process) :
    (clearBody response process).2.allocs = process.allocs := by
  unfold clearBody Process.close
  simp only
  split <;> rfl

/-- A response with a heap body in place of its body. -/
def withMemory (response : Response) (bytes : Bytes) : Response :=
  { response with
    bodyKind := .memory
    body := some bytes
    bodyLength := bytes.length
    bodyOwned := true
    fileFd := none }

theorem httpResponseSetBodyText_cases (response : Response) (text : Bytes)
    (process : Process) :
    (httpResponseSetBodyText response (some text) process).1 =
        (true, withMemory response text) ∨
      (httpResponseSetBodyText response (some text) process).1 =
        (false, response) := by
  unfold httpResponseSetBodyText httpResponseSetBodyOwned
  simp only [reduceCtorEq, and_false, if_false]
  split_ifs
  · exact .inr rfl
  · exact .inl rfl

theorem httpResponseSetBodyText_granted (response : Response) (text : Bytes)
    {process : Process} (granted : process.allocs = []) :
    (httpResponseSetBodyText response (some text) process).1 =
        (true, withMemory response text) ∧
      (httpResponseSetBodyText response (some text)
        process).2.allocs = [] := by
  simp only [httpResponseSetBodyText, Process.malloc_granted granted,
    Bool.not_true, Bool.false_eq_true, if_false, httpResponseSetBodyOwned,
    reduceCtorEq, and_false, clearBody_allocs, granted, and_true]
  rfl

/-- A response with a text body and its media type as only header. -/
def typedText (contentType : Bytes) (statusCode : Int) (text : Bytes) :
    Response :=
  { statusCode := statusCode
    reasonPhrase := httpReasonPhrase statusCode
    headers := [{ name := ascii "Content-Type", value := contentType }]
    bodyKind := .memory
    body := some text
    bodyLength := text.length
    bodyOwned := true
    fileFd := none
    suppressAutoConnectionClose := false }

/-- A builder returns the response it is asked for, or fails without a file
body. -/
theorem buildWithType_cases (contentType : Bytes) (response : Response)
    (statusCode : Int) (text : Bytes) (process : Process) :
    (buildWithType contentType response statusCode (some text) process).1 =
        (true, typedText contentType statusCode text) ∨
      ((buildWithType contentType response statusCode (some text)
          process).1.1 = false ∧
        (buildWithType contentType response statusCode (some text)
          process).1.2.bodyKind ≠ .file) := by
  have stored := httpResponseSetBodyText_cases
    (httpResponseSetStatus (httpResponseDestroy response process).1 statusCode)
    text (httpResponseDestroy response process).2
  unfold buildWithType
  simp only
  generalize httpResponseSetBodyText _ (some text) _ = filled at stored ⊢
  obtain ⟨⟨flag, body⟩, later⟩ := filled
  rcases stored with same | same
  · simp only [Prod.mk.injEq] at same
    obtain ⟨rfl, rfl⟩ := same
    rcases httpResponseAddHeader_cases
      (withMemory (httpResponseSetStatus (httpResponseDestroy response
        process).1 statusCode) text) (ascii "Content-Type") contentType
      later with added | refused
    · left
      simp only [Bool.not_true, Bool.false_eq_true, if_false, added]
      rfl
    · right
      simp only [Bool.not_true, Bool.false_eq_true, if_false, refused]
      simp [withMemory]
  · simp only [Prod.mk.injEq] at same
    obtain ⟨rfl, rfl⟩ := same
    exact .inr ⟨rfl, by simp [httpResponseSetStatus, httpResponseDestroy,
      httpResponseInit]⟩

theorem buildWithType_granted (contentType : Bytes) (response : Response)
    (statusCode : Int) (text : Bytes) {process : Process}
    (granted : process.allocs = []) :
    (buildWithType contentType response statusCode (some text) process).1 =
      (true, typedText contentType statusCode text) := by
  have kept : (httpResponseDestroy response process).2.allocs = [] := by
    simp [httpResponseDestroy, granted]
  obtain ⟨stored, later⟩ := httpResponseSetBodyText_granted
    (httpResponseSetStatus (httpResponseDestroy response process).1 statusCode)
    text kept
  unfold buildWithType
  simp only [stored, Bool.not_true, Bool.false_eq_true, if_false,
    httpResponseAddHeader_granted _ _ _ later]
  rfl

theorem buildWithType_allocs (contentType : Bytes) (response : Response)
    (statusCode : Int) (text : Bytes) {process : Process}
    (granted : process.allocs = []) :
    (buildWithType contentType response statusCode (some text)
      process).2.allocs = [] := by
  have kept : (httpResponseDestroy response process).2.allocs = [] := by
    simp [httpResponseDestroy, granted]
  obtain ⟨stored, later⟩ := httpResponseSetBodyText_granted
    (httpResponseSetStatus (httpResponseDestroy response process).1 statusCode)
    text kept
  unfold buildWithType
  simp only [stored, Bool.not_true, Bool.false_eq_true, if_false,
    httpResponseAddHeader_granted _ _ _ later]
  exact later

end CinderHTTP
