import CinderHTTP.Base.CStrings
import CinderHTTP.Http.Parser

/-!
# The request parser in memory

The functions of `http_parser.c` and `http_request.c` with their pointers.  A
pointer into the message is a position in it, and each read there is checked,
as is each difference of two pointers.  Copies, the array of headers and the
body are blocks of a heap.  A call to `free` is where the source has it.

A loop over characters goes on while some of them remain.  A loop over lines
is given as many turns as the message has characters.
-/

namespace CinderHTTP

namespace Pointers

/-! ## Scanning the message -/

/-- Comparing characters from a position on, up to the first difference. -/
def matchesAt (data : Bytes) (position : Nat) : Bytes → Option Bool
  | [] => some true
  | expected :: others => do
      let character ← data[position]?
      if character ≠ expected then some false
      else matchesAt data (position + 1) others

/-- Whether a character of a range passes a test. -/
def anyIn (test : Byte → Bool) (data : Bytes) (position : Nat) :
    Nat → Option Bool
  | 0 => some false
  | remaining + 1 => do
      let character ← data[position]?
      if test character then some true
      else anyIn test data (position + 1) remaining

/-- `skip_ows` with the number of characters up to its end pointer. -/
def skipOws (data : Bytes) (start : Nat) : Nat → Option Nat
  | 0 => some start
  | remaining + 1 => do
      let character ← data[start]?
      if isOws character then skipOws data (start + 1) remaining
      else some start

def trimOwsEnd (data : Bytes) (start : Nat) : Nat → Option Nat
  | 0 => some 0
  | stop + 1 =>
      if stop + 1 > start then do
        let character ← data[stop]?
        if isOws character then trimOwsEnd data start stop
        else some (stop + 1)
      else some (stop + 1)

/-- The start and the length of a field value without its blanks. -/
def valueRange (data : Bytes) (start stop : Nat) : Option (Nat × Nat) := do
  let valueStart ← skipOws data start (stop - start)
  let valueEnd ← trimOwsEnd data valueStart stop
  let valueLen ← subtractAll valueEnd [valueStart]
  some (valueStart, valueLen)

/-- The turns of the terminator search from a position on. -/
def terminatorFrom (data : Bytes) (position : Nat) :
    Nat → Option (Option Nat)
  | 0 => some none
  | remaining + 1 => do
      let found ← matchesAt data position blankLine
      if found then some (some position)
      else terminatorFrom data (position + 1) remaining

def httpFindHeaderTerminator (data : Bytes) : Option (Option Nat) :=
  if data.length < 4 then some none
  else terminatorFrom data 0 (data.length - 3)

/-- The LF of the line at a cursor, if there is one with a CR before it. -/
def lineEnd (data : Bytes) (cursor stop : Nat) : Option (Option Nat) := do
  let remaining ← subtractAll stop [cursor]
  let found ← memchr lf data cursor remaining
  match found with
  | none => some none
  | some position =>
      if position = cursor then some none
      else do
        let before ← subtractAll position [1]
        let character ← data[before]?
        if character ≠ cr then some none else some (some position)

def dupRange (data : Bytes) (start length : Nat) :
    Program Cell (Option Nat) :=
  newText (readRange data start length) length

/-! ## Framing -/

/-- A turn of the framing walk behind the search for the end of the line. -/
def inspectHeaderLine (data : Bytes) (line lineLen : Nat)
    (scan : FramingScan) : Program Cell (Except ParseError FramingScan) := do
  match ← checked (memchr colon data line lineLen) with
  | none => pure (.error .badRequest)
  | some position =>
      if position = line then pure (.error .badRequest)
      else do
        let nameLen ← checked (subtractAll position [line])
        match ← dupRange data line nameLen with
        | none => pure (.error .outOfMemory)
        | some name => do
            let range ← checked
              (valueRange data (position + 1) (line + lineLen))
            match ← dupRange data range.1 range.2 with
            | none => do
                release (some name)
                pure (.error .outOfMemory)
            | some value => do
                let nameText ← readString name
                let valueText ← readString value
                release (some name)
                release (some value)
                pure (inspectField nameText valueText scan)

/-- A turn of the framing walk, with its cursor and what it has seen. -/
def inspectTurn (data : Bytes) (stop : Nat) (state : Nat × FramingScan) :
    Program Cell (LoopStep (Nat × FramingScan)
      (Except ParseError FramingScan)) := do
  let cursor := state.1
  if cursor < stop then
    let blank ← checked
      (if cursor + 1 < stop then matchesAt data cursor crlf else some false)
    if blank then pure (.done (.ok state.2))
    else
      match ← checked (lineEnd data cursor stop) with
      | none => pure (.done (.error .badRequest))
      | some position => do
          let lineLen ← checked (subtractAll position [1, cursor])
          match ← inspectHeaderLine data cursor lineLen state.2 with
          | .error failure => pure (.done (.error failure))
          | .ok next => pure (.next (position + 1, next))
  else pure (.done (.ok state.2))

def httpInspectMessageFraming (data : Bytes) (headerLength : Nat) :
    Program Cell (Except ParseError Nat) := do
  if headerLength < 4 then pure (.error .badRequest)
  else
    let closed ← checked (matchesAt data (headerLength - 4) blankLine)
    if !closed then pure (.error .badRequest)
    else
      match ← checked (lineEnd data 0 headerLength) with
      | none => pure (.error .badRequest)
      | some position => do
          let walked ← iterate (inspectTurn data headerLength)
            (headerLength + 1) (position + 1, .start)
          match walked with
          | .error failure => pure (.error failure)
          | .ok scan =>
              if scan.sawChunked then
                pure (.error .unsupportedTransferEncoding)
              else if scan.sawContentLength then
                pure (.ok scan.contentLength)
              else pure (.ok 0)

/-! ## The request record -/

/-- `http_request_t`, with addresses for its pointers. -/
structure RequestRecord where
  method : HttpMethod
  target : Option Nat
  version : Option Nat
  headers : Option Nat
  headerCount : Nat
  body : Option Nat
  bodyLength : Nat
  deriving DecidableEq, Repr

def httpRequestInit : RequestRecord :=
  { method := .unknown
    target := none
    version := none
    headers := none
    headerCount := 0
    body := none
    bodyLength := 0 }

/-- The name and the value pointer of an array entry. -/
def loadHeader (array index : Nat) : Program Cell (Nat × Nat) := do
  match ← load array index with
  | .pointers [name, value] => pure (name, value)
  | _ => checked none

/-- The loop over the entries in `http_request_destroy`. -/
def destroyHeaders (array index : Nat) : Nat → Program Cell Unit
  | 0 => pure ()
  | remaining + 1 => do
      let entry ← loadHeader array index
      release (some entry.1)
      release (some entry.2)
      destroyHeaders array (index + 1) remaining

/-- The strings of the entries are freed before the array. -/
def destroyTable (headers : Option Nat) (count : Nat) : Program Cell Unit :=
  match headers with
  | none => pure ()
  | some array => do
      destroyHeaders array 0 count
      release (some array)

def httpRequestDestroy (request : RequestRecord) :
    Program Cell RequestRecord := do
  release request.target
  release request.version
  destroyTable request.headers request.headerCount
  release request.body
  pure httpRequestInit

/-- The loop of `http_request_get_header`. -/
def getHeaderFrom (name : Bytes) (array index : Nat) :
    Nat → Program Cell (Option Nat)
  | 0 => pure none
  | remaining + 1 => do
      let entry ← loadHeader array index
      let stored ← readString entry.1
      if headerNameEqual stored name then pure (some entry.2)
      else getHeaderFrom name array (index + 1) remaining

/-- A request without an array has no entries to look at. -/
def httpRequestGetHeader (request : RequestRecord) (name : Bytes) :
    Program Cell (Option Nat) :=
  match request.headers with
  | none => if request.headerCount = 0 then pure none else checked none
  | some array => getHeaderFrom name array 0 request.headerCount

/-- The loop of `http_parse_request` that counts the entries with a name. -/
def countHeadersFrom (name : Bytes) (array index : Nat) :
    Nat → Program Cell Nat
  | 0 => pure 0
  | remaining + 1 => do
      let entry ← loadHeader array index
      let stored ← readString entry.1
      let others ← countHeadersFrom name array (index + 1) remaining
      pure (if headerNameEqual stored name then others + 1 else others)

def countHeaders (request : RequestRecord) (name : Bytes) :
    Program Cell Nat :=
  match request.headers with
  | none => if request.headerCount = 0 then pure 0 else checked none
  | some array => countHeadersFrom name array 0 request.headerCount

/-! ## Request line -/

/-- The result for a version that was stored. -/
def versionResult (version : Bytes) : Except ParseError Unit :=
  if version = ascii "HTTP/1.0" ∨ version = ascii "HTTP/1.1" then .ok ()
  else if isHttpLikeVersion version then .error .unsupportedVersion
  else .error .badRequest

/-- The start and the length of a range of the message. -/
structure Range where
  start : Nat
  length : Nat
  deriving DecidableEq, Repr

/-- The end of `parse_request_line`: the method is looked up and its copy is
freed, the fields are stored, and the version is checked last. -/
def storeRequestLine (data : Bytes) (method : Nat) (target version : Range)
    (request : RequestRecord) :
    Program Cell (Except ParseError Unit × RequestRecord) := do
  let methodText ← readString method
  if !isSupportedMethodToken methodText then
    let failure : ParseError :=
      if isKnownUnsupportedMethod methodText then .unsupportedMethod
      else .badRequest
    release (some method)
    pure (.error failure, request)
  else
    release (some method)
    let targetCopy ← dupRange data target.start target.length
    let versionCopy ← dupRange data version.start version.length
    let stored : RequestRecord :=
      { request with
        method := httpMethodFromString methodText
        target := targetCopy
        version := versionCopy }
    match targetCopy, versionCopy with
    | some _, some address => do
        let text ← readString address
        pure (versionResult text, stored)
    | _, _ => pure (.error .outOfMemory, stored)

/-- Leaving `parse_request_line` with the copy of the method freed. -/
def refuseMethod (method : Nat) (request : RequestRecord) :
    Program Cell (Except ParseError Unit × RequestRecord) := do
  release (some method)
  pure (.error .badRequest, request)

/-- `parse_request_line` from the second space on. -/
def splitVersion (data : Bytes) (line lineLen methodLen method : Nat)
    (secondSp : Nat) (request : RequestRecord) :
    Program Cell (Except ParseError Unit × RequestRecord) := do
  let afterMethod := line + methodLen + 1
  if secondSp = afterMethod then refuseMethod method request
  else
    let targetLen ← checked (subtractAll secondSp [afterMethod])
    let versionLen ← checked
      (subtractAll lineLen [methodLen, 1, targetLen, 1])
    let spaced ← checked (occursIn space data (secondSp + 1) versionLen)
    if versionLen = 0 ∨ spaced then refuseMethod method request
    else
      let targetNul ← checked (occursIn nul data afterMethod targetLen)
      let versionNul ← checked (occursIn nul data (secondSp + 1) versionLen)
      if targetNul ∨ versionNul then refuseMethod method request
      else
        storeRequestLine data method ⟨afterMethod, targetLen⟩
          ⟨secondSp + 1, versionLen⟩ request

/-- `parse_request_line` behind the method. -/
def splitAfterMethod (data : Bytes) (line lineLen methodLen method : Nat)
    (request : RequestRecord) :
    Program Cell (Except ParseError Unit × RequestRecord) := do
  let methodText ← readString method
  if !methodTokenIsWellFormed methodText then refuseMethod method request
  else
    let afterMethod := line + methodLen + 1
    let remaining ← checked (subtractAll lineLen [methodLen, 1])
    if remaining = 0 then refuseMethod method request
    else
      let first ← checked data[afterMethod]?
      if first = space then refuseMethod method request
      else
        match ← checked (memchr space data afterMethod remaining) with
        | none => refuseMethod method request
        | some secondSp =>
            splitVersion data line lineLen methodLen method secondSp request

def parseRequestLine (data : Bytes) (line lineLen : Nat)
    (request : RequestRecord) :
    Program Cell (Except ParseError Unit × RequestRecord) := do
  if lineLen = 0 ∨ lineLen > httpMaxRequestLine then
    if lineLen > httpMaxRequestLine then pure (.error .tooLarge, request)
    else pure (.error .badRequest, request)
  else
    match ← checked (memchr space data line lineLen) with
    | none => pure (.error .badRequest, request)
    | some firstSp =>
        if firstSp = line then pure (.error .badRequest, request)
        else do
          let methodLen ← checked (subtractAll firstSp [line])
          let methodNul ← checked (occursIn nul data line methodLen)
          if methodNul then pure (.error .badRequest, request)
          else
            match ← dupRange data line methodLen with
            | none => pure (.error .outOfMemory, request)
            | some method =>
                splitAfterMethod data line lineLen methodLen method request

/-! ## Header lines -/

/-- `append_header` owns the two copies: it stores them or frees them. -/
def appendHeader (request : RequestRecord) (name value : Nat) :
    Program Cell (Except ParseError Unit × RequestRecord) := do
  if request.headerCount ≥ httpMaxHeaders then
    release (some name)
    release (some value)
    pure (.error .tooManyHeaders, request)
  else
    match ← reallocate request.headers (request.headerCount + 1) with
    | none => do
        release (some name)
        release (some value)
        pure (.error .outOfMemory, request)
    | some grown => do
        overwrite grown request.headerCount [.pointers [name, value]]
        pure (.ok (), { request with
          headers := some grown
          headerCount := request.headerCount + 1 })

def parseHeaderLine (data : Bytes) (line lineLen : Nat)
    (request : RequestRecord) :
    Program Cell (Except ParseError Unit × RequestRecord) := do
  if lineLen = 0 then pure (.error .badRequest, request)
  else
    match ← checked (memchr colon data line lineLen) with
    | none => pure (.error .badRequest, request)
    | some position =>
        if position = line then pure (.error .badRequest, request)
        else do
          let nameLen ← checked (subtractAll position [line])
          let blank ← checked (anyIn (fun character =>
            character == space || character == tab || character == nul)
              data line nameLen)
          if blank then pure (.error .badRequest, request)
          else
            match ← dupRange data line nameLen with
            | none => pure (.error .outOfMemory, request)
            | some name => do
                let range ← checked
                  (valueRange data (position + 1) (line + lineLen))
                let valueNul ← checked
                  (occursIn nul data range.1 range.2)
                if valueNul then
                  release (some name)
                  pure (.error .badRequest, request)
                else
                  match ← dupRange data range.1 range.2 with
                  | none => do
                      release (some name)
                      pure (.error .outOfMemory, request)
                  | some value => appendHeader request name value

/-- A turn of the header loop of `http_parse_request`. -/
def headerTurn (data : Bytes) (stop : Nat) (state : Nat × RequestRecord) :
    Program Cell (LoopStep (Nat × RequestRecord)
      (HeaderLoopExit × RequestRecord)) := do
  let cursor := state.1
  if cursor < stop then
    match ← checked (lineEnd data cursor stop) with
    | none => pure (.done (.unterminated, state.2))
    | some position => do
        let lineLen ← checked (subtractAll position [1, cursor])
        let parsed ← parseHeaderLine data cursor lineLen state.2
        match parsed.1 with
        | .error failure => pure (.done (.refused failure, parsed.2))
        | .ok _ => pure (.next (position + 1, parsed.2))
  else pure (.done (.finished, state.2))

/-! ## Whole messages -/

/-- The exit of the parser and the record behind it. -/
structure Outcome where
  exit : ParseExit
  request : RequestRecord
  deriving DecidableEq, Repr

def abort (exit : ParseExit) (request : RequestRecord) :
    Program Cell Outcome := do
  let destroyed ← httpRequestDestroy request
  pure { exit := exit, request := destroyed }

/-- The body length read back from the stored headers, or the exit taken.
Both lookups come first. -/
def storedBodyLength (request : RequestRecord) :
    Program Cell (Except ParseExit Nat) := do
  let contentLength ← httpRequestGetHeader request (ascii "Content-Length")
  let transferEncoding ← httpRequestGetHeader request
    (ascii "Transfer-Encoding")
  match transferEncoding with
  | some _ => pure (.error .transferEncoding)
  | none =>
      match contentLength with
      | none => pure (.ok 0)
      | some address => do
          let count ← countHeaders request (ascii "Content-Length")
          if count > 1 then pure (.error .duplicateContentLength)
          else
            let value ← readString address
            match httpParseContentLengthValue value with
            | .error failure => pure (.error (.contentLength failure))
            | .ok bodyLength => pure (.ok bodyLength)

/-- The part of the parser behind the header loop. -/
def parseBody (data : Bytes) (headerBytes expectedBody : Nat)
    (request : RequestRecord) : Program Cell Outcome := do
  match ← storedBodyLength request with
  | .error exit => abort exit request
  | .ok bodyLength =>
      if bodyLength ≠ expectedBody then abort .bodyMismatch request
      else if bodyLength > 0 then
        if bodyLength = 2 ^ 64 - 1 then abort .bodyUnrepresentable request
        else
          match ← newText (readRange data headerBytes bodyLength)
            bodyLength with
          | none => abort .bodyAllocation request
          | some body =>
              pure { exit := .parsed
                     request := { request with
                       body := some body
                       bodyLength := bodyLength } }
      else pure { exit := .parsed, request := request }

/-- The part of the parser behind the framing checks. -/
def parseSection (data : Bytes) (terminator expectedBody : Nat) :
    Program Cell Outcome := do
  let headersEnd := terminator + 2
  match ← checked (lineEnd data 0 headersEnd) with
  | none => abort .requestLineUnterminated httpRequestInit
  | some position => do
      let lineLen ← checked (subtractAll position [1, 0])
      let parsed ← parseRequestLine data 0 lineLen httpRequestInit
      match parsed.1 with
      | .error failure => abort (.requestLine failure) parsed.2
      | .ok _ => do
          let walked ← iterate (headerTurn data headersEnd)
            (headersEnd + 1) (position + 1, parsed.2)
          match walked.1 with
          | .unterminated => abort .headerUnterminated walked.2
          | .refused failure => abort (.headerLine failure) walked.2
          | .finished =>
              parseBody data (terminator + 4) expectedBody walked.2

def httpParseRequest (data : Bytes) : Program Cell Outcome := do
  if data.length = 0 then
    pure { exit := .emptyInput, request := httpRequestInit }
  else
    match ← checked (httpFindHeaderTerminator data) with
    | none => pure { exit := .noTerminator, request := httpRequestInit }
    | some terminator => do
        let headerBytes := terminator + 4
        if headerBytes > httpMaxHeaderBytes then
          pure { exit := .headerTooLarge, request := httpRequestInit }
        else
          match ← httpInspectMessageFraming data headerBytes with
          | .error failure =>
              pure { exit := .framing failure, request := httpRequestInit }
          | .ok expectedBody =>
              if data.length < headerBytes + expectedBody then
                pure { exit := .incomplete, request := httpRequestInit }
              else if data.length > headerBytes + expectedBody then
                pure { exit := .leftover, request := httpRequestInit }
              else parseSection data terminator expectedBody

end Pointers

end CinderHTTP
