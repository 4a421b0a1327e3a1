import CinderHTTP.Base.Memory

/-!
# Parsed requests

The request record of `http_request.c` and its case-insensitive header
lookup.  `target` and `version` are `none` where the C pointers are `NULL`;
the header array with its counter is a list, and the body with its length is
a byte string.
-/

namespace CinderHTTP

inductive HttpMethod where
  | get
  | head
  | post
  | unknown
  deriving DecidableEq, Repr

structure Header where
  name : Bytes
  value : Bytes
  deriving DecidableEq, Repr

structure Request where
  method : HttpMethod
  target : Option Bytes
  version : Option Bytes
  headers : List Header
  body : Bytes
  deriving DecidableEq, Repr

def httpRequestInit : Request :=
  { method := .unknown
    target := none
    version := none
    headers := []
    body := [] }

/-- Releasing a request leaves the initial record, whatever it held. -/
def httpRequestDestroy (_request : Request) : Request :=
  httpRequestInit

def httpMethodToString : HttpMethod → Bytes
  | .get => ascii "GET"
  | .head => ascii "HEAD"
  | .post => ascii "POST"
  | .unknown => ascii "UNKNOWN"

def httpMethodFromString (method : Bytes) : HttpMethod :=
  if method = ascii "GET" then .get
  else if method = ascii "HEAD" then .head
  else if method = ascii "POST" then .post
  else .unknown

def asciiTolower (character : Byte) : Byte :=
  if byte 'A' ≤ character ∧ character ≤ byte 'Z' then
    character - byte 'A' + byte 'a'
  else character

/-- Case-insensitive comparison of two C strings. -/
def headerNameEqual : Bytes → Bytes → Bool
  | [], [] => true
  | left :: lefts, right :: rights =>
      if asciiTolower left ≠ asciiTolower right then false
      else headerNameEqual lefts rights
  | _, _ => false

/-- The value of the first header with a given name. -/
def httpRequestGetHeader (request : Request) (name : Bytes) :
    Option Bytes :=
  (request.headers.find? fun header =>
    headerNameEqual header.name name).map Header.value

theorem headerNameEqual_iff (left right : Bytes) :
    headerNameEqual left right = true ↔
      left.map asciiTolower = right.map asciiTolower := by
  induction left generalizing right with
  | nil => cases right <;> simp [headerNameEqual]
  | cons head tail induction =>
      cases right with
      | nil => simp [headerNameEqual]
      | cons other others =>
          by_cases same : asciiTolower head = asciiTolower other
          · simp [headerNameEqual, same, induction]
          · simp [headerNameEqual, same]

theorem headerNameEqual_self (name : Bytes) :
    headerNameEqual name name = true :=
  (headerNameEqual_iff name name).mpr rfl

theorem httpRequestGetHeader_mem {request : Request} {name value : Bytes}
    (found : httpRequestGetHeader request name = some value) :
    ∃ header ∈ request.headers,
      headerNameEqual header.name name = true ∧ header.value = value := by
  obtain ⟨header, located, rfl⟩ := Option.map_eq_some_iff.mp found
  exact ⟨header, List.mem_of_find?_eq_some located,
    by simpa using List.find?_some located, rfl⟩

theorem httpRequestGetHeader_eq_none_iff {request : Request} {name : Bytes} :
    httpRequestGetHeader request name = none ↔
      ∀ header ∈ request.headers, headerNameEqual header.name name = false := by
  simp [httpRequestGetHeader]

end CinderHTTP
