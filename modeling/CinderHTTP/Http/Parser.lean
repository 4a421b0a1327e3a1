import CinderHTTP.Base.Decimal
import CinderHTTP.Http.Request
import Mathlib.Data.List.DropRight

/-!
# The request parser

The functions of `http_parser.c`.  A cursor with its end pointer is the list
of the bytes between them, so `memchr` from a cursor is `cutFirst`: it gives
the bytes up to the match and the bytes behind it.  A copy made by
`dup_range` is only ever read as a C string and is modelled by that string.

Allocation requests are answered from a script.  A function that stores into
the request returns the request with its result, also when it fails.
-/

namespace CinderHTTP

def httpMaxRequestLine : Nat := 8192
def httpMaxHeaderBytes : Nat := 32768
def httpMaxHeaders : Nat := 100
def httpMaxBodySize : Nat := 1048576
def httpMaxMessageBytes : Nat := httpMaxHeaderBytes + httpMaxBodySize

/-- The results other than `HTTP_PARSE_OK`. -/
inductive ParseError where
  | badRequest
  | unsupportedMethod
  | unsupportedVersion
  | tooLarge
  | tooManyHeaders
  | invalidContentLength
  | unsupportedTransferEncoding
  | outOfMemory
  deriving DecidableEq, Repr

/-! ## Tokens and blanks -/

def isTokenChar (character : Byte) : Bool :=
  (byte 'A' ≤ character && character ≤ byte 'Z') ||
  (byte 'a' ≤ character && character ≤ byte 'z') ||
  (byte '0' ≤ character && character ≤ byte '9') ||
  (ascii "!#$%&'*+-.^_`|~").contains character

def isSupportedMethodToken (method : Bytes) : Bool :=
  method = ascii "GET" || method = ascii "HEAD" || method = ascii "POST"

def knownUnsupportedMethods : List Bytes :=
  [ascii "PUT", ascii "DELETE", ascii "PATCH", ascii "OPTIONS",
    ascii "TRACE", ascii "CONNECT", ascii "PRI"]

/-- The table is searched, and a method that is not in it is unsupported
all the same. -/
def isKnownUnsupportedMethod (method : Bytes) : Bool :=
  if knownUnsupportedMethods.contains method then true else true

def methodTokenIsWellFormed (method : Bytes) : Bool :=
  if method = [] then false else method.all isTokenChar

def isOws (character : Byte) : Bool :=
  character == space || character == tab

def skipOws (text : Bytes) : Bytes :=
  text.dropWhile isOws

def trimOwsEnd (text : Bytes) : Bytes :=
  text.rdropWhile isOws

/-- A raw field value without its leading and trailing blanks. -/
def trimOws (text : Bytes) : Bytes :=
  trimOwsEnd (skipOws text)

/-- Copying a range and reading the copy as a C string. -/
def dupRange (range : Bytes) : Bytes :=
  cstr range

/-- The index of the first CRLF CRLF. -/
def httpFindHeaderTerminator (data : Bytes) : Option Nat :=
  findInfix blankLine data

/-! ## Content-Length -/

/-- Result of the libc function: the value, the unread rest of the string and
whether the value was out of range. -/
structure Strtoull where
  value : Nat
  rest : Bytes
  erange : Bool

def ullongMax : Nat := 2 ^ 64 - 1

/-- `isspace` in the C locale. -/
def isSpaceChar (character : Byte) : Bool :=
  character == space || (tab ≤ character && character ≤ cr)

/-- `strtoull(text, &rest, 10)`.  A numeral that is too large gives
`ULLONG_MAX` and a negative one wraps around. -/
def strtoull (text : Bytes) : Strtoull :=
  let stripped := text.dropWhile isSpaceChar
  let negative := stripped.head? = some (byte '-')
  let unsigned :=
    if negative ∨ stripped.head? = some (byte '+') then stripped.tail
    else stripped
  let digits := unsigned.takeWhile isDigit
  let value := decimalValue digits
  if digits = [] then { value := 0, rest := text, erange := false }
  else if ullongMax < value then
    { value := ullongMax, rest := unsigned.dropWhile isDigit, erange := true }
  else
    { value := if negative then (2 ^ 64 - value) % 2 ^ 64 else value
      rest := unsigned.dropWhile isDigit
      erange := false }

def httpParseContentLengthValue (value : Bytes) : Except ParseError Nat :=
  if value = [] then .error .invalidContentLength
  else if !value.all isDigit then .error .invalidContentLength
  else
    let parsed := strtoull value
    if parsed.rest = value ∨ parsed.rest ≠ [] ∨ parsed.erange then
      .error .invalidContentLength
    else if parsed.value > httpMaxBodySize then .error .tooLarge
    else .ok parsed.value

/-! ## Framing -/

/-- What the framing walk has seen so far. -/
structure FramingScan where
  sawContentLength : Bool
  contentLength : Nat
  sawChunked : Bool
  deriving DecidableEq, Repr

def FramingScan.start : FramingScan :=
  { sawContentLength := false, contentLength := 0, sawChunked := false }

/-- The branches of the framing walk on one header name and value. -/
def inspectField (name value : Bytes) (scan : FramingScan) :
    Except ParseError FramingScan :=
  if headerNameEqual name (ascii "Transfer-Encoding") then
    if headerNameEqual value (ascii "chunked") ||
        (findInfix (ascii "chunked") value).isSome then
      .ok { scan with sawChunked := true }
    else .error .unsupportedTransferEncoding
  else if headerNameEqual name (ascii "Content-Length") then
    match httpParseContentLengthValue value with
    | .error failure => .error failure
    | .ok parsedLength =>
        if scan.sawContentLength then .error .invalidContentLength
        else
          .ok { scan with sawContentLength := true
                          contentLength := parsedLength }
  else .ok scan

/-- The framing walk on one header line. -/
def inspectHeaderLine (line : Bytes) (scan : FramingScan)
    (allocs : Allocs) : Except ParseError FramingScan × Allocs :=
  match cutFirst colon line with
  | none => (.error .badRequest, allocs)
  | some (rawName, rawValue) =>
      if rawName = [] then (.error .badRequest, allocs)
      else
        let nameCopy := malloc allocs
        if !nameCopy.1 then (.error .outOfMemory, nameCopy.2)
        else
          let valueCopy := malloc nameCopy.2
          if !valueCopy.1 then (.error .outOfMemory, valueCopy.2)
          else
            (inspectField (dupRange rawName) (dupRange (trimOws rawValue))
              scan, valueCopy.2)

/-- The framing walk over the lines behind the request line. -/
def inspectHeaderLines (cursor : Bytes) (scan : FramingScan)
    (allocs : Allocs) : Except ParseError FramingScan × Allocs :=
  if cursor = [] then (.ok scan, allocs)
  else if crlf <+: cursor then (.ok scan, allocs)
  else
    match _taken : takeLine cursor with
    | none => (.error .badRequest, allocs)
    | some (line, rest) =>
        match inspectHeaderLine line scan allocs with
        | (.error failure, later) => (.error failure, later)
        | (.ok next, later) => inspectHeaderLines rest next later
termination_by cursor.length
decreasing_by exact takeLine_length _taken

/-- The body length that a complete header section announces. -/
def httpInspectMessageFraming (header : Bytes) (allocs : Allocs) :
    Except ParseError Nat × Allocs :=
  if header.length < 4 then (.error .badRequest, allocs)
  else if ¬blankLine <:+ header then (.error .badRequest, allocs)
  else
    match takeLine header with
    | none => (.error .badRequest, allocs)
    | some (_requestLine, cursor) =>
        match inspectHeaderLines cursor .start allocs with
        | (.error failure, later) => (.error failure, later)
        | (.ok scan, later) =>
            if scan.sawChunked then
              (.error .unsupportedTransferEncoding, later)
            else if scan.sawContentLength then
              (.ok scan.contentLength, later)
            else (.ok 0, later)

/-! ## Request line -/

/-- The version text is `HTTP/` followed by digits and dots. -/
def isHttpLikeVersion (version : Bytes) : Bool :=
  (ascii "HTTP/").isPrefixOf version && version.drop 5 ≠ [] &&
    (version.drop 5).all fun character =>
      isDigit character || character == byte '.'

/-- The end of `parse_request_line`: the method is looked up, the fields are
stored, and the version is checked last. -/
def storeRequestLine (method targetRange versionRange : Bytes)
    (request : Request) (allocs : Allocs) :
    (Except ParseError Unit × Request) × Allocs :=
  if !isSupportedMethodToken method then
    if isKnownUnsupportedMethod method then
      ((.error .unsupportedMethod, request), allocs)
    else ((.error .badRequest, request), allocs)
  else
    let targetCopy := malloc allocs
    let versionCopy := malloc targetCopy.2
    let version := dupRange versionRange
    let stored : Request :=
      { request with
        method := httpMethodFromString method
        target := if targetCopy.1 then some (dupRange targetRange) else none
        version := if versionCopy.1 then some version else none }
    if !targetCopy.1 || !versionCopy.1 then
      ((.error .outOfMemory, stored), versionCopy.2)
    else if version = ascii "HTTP/1.0" ∨ version = ascii "HTTP/1.1" then
      ((.ok (), stored), versionCopy.2)
    else if isHttpLikeVersion version then
      ((.error .unsupportedVersion, stored), versionCopy.2)
    else ((.error .badRequest, stored), versionCopy.2)

/-- The middle of `parse_request_line`: the target and the version are found
behind the method. -/
def splitAfterMethod (method afterMethod : Bytes) (request : Request)
    (allocs : Allocs) : (Except ParseError Unit × Request) × Allocs :=
  if !methodTokenIsWellFormed method then
    ((.error .badRequest, request), allocs)
  else if afterMethod = [] ∨ afterMethod.head? = some space then
    ((.error .badRequest, request), allocs)
  else
    match cutFirst space afterMethod with
    | none => ((.error .badRequest, request), allocs)
    | some (targetRange, versionRange) =>
        if targetRange = [] then ((.error .badRequest, request), allocs)
        else if versionRange = [] ∨ space ∈ versionRange then
          ((.error .badRequest, request), allocs)
        else if nul ∈ targetRange ∨ nul ∈ versionRange then
          ((.error .badRequest, request), allocs)
        else storeRequestLine method targetRange versionRange request allocs

def parseRequestLine (line : Bytes) (request : Request) (allocs : Allocs) :
    (Except ParseError Unit × Request) × Allocs :=
  if line = [] ∨ line.length > httpMaxRequestLine then
    if line.length > httpMaxRequestLine then
      ((.error .tooLarge, request), allocs)
    else ((.error .badRequest, request), allocs)
  else
    match cutFirst space line with
    | none => ((.error .badRequest, request), allocs)
    | some (methodRange, afterMethod) =>
        if methodRange = [] then ((.error .badRequest, request), allocs)
        else if nul ∈ methodRange then
          ((.error .badRequest, request), allocs)
        else
          let methodCopy := malloc allocs
          if !methodCopy.1 then
            ((.error .outOfMemory, request), methodCopy.2)
          else
            splitAfterMethod (dupRange methodRange) afterMethod request
              methodCopy.2

/-! ## Header lines -/

def appendHeader (request : Request) (name value : Bytes)
    (allocs : Allocs) : (Except ParseError Unit × Request) × Allocs :=
  if request.headers.length ≥ httpMaxHeaders then
    ((.error .tooManyHeaders, request), allocs)
  else
    let grown := malloc allocs
    if !grown.1 then ((.error .outOfMemory, request), grown.2)
    else
      ((.ok (), { request with
        headers := request.headers ++ [{ name := name, value := value }] }),
        grown.2)

def parseHeaderLine (line : Bytes) (request : Request) (allocs : Allocs) :
    (Except ParseError Unit × Request) × Allocs :=
  if line = [] then ((.error .badRequest, request), allocs)
  else
    match cutFirst colon line with
    | none => ((.error .badRequest, request), allocs)
    | some (rawName, rawValue) =>
        if rawName = [] then ((.error .badRequest, request), allocs)
        else if rawName.any (fun character => character == space ||
            character == tab || character == nul) then
          ((.error .badRequest, request), allocs)
        else
          let nameCopy := malloc allocs
          if !nameCopy.1 then ((.error .outOfMemory, request), nameCopy.2)
          else if nul ∈ trimOws rawValue then
            ((.error .badRequest, request), nameCopy.2)
          else
            let valueCopy := malloc nameCopy.2
            if !valueCopy.1 then
              ((.error .outOfMemory, request), valueCopy.2)
            else
              appendHeader request (dupRange rawName)
                (dupRange (trimOws rawValue)) valueCopy.2

/-- How the header loop of the parser ends: at the end of the section, at a
line without a proper line end, or at a line that was refused. -/
inductive HeaderLoopExit where
  | finished
  | unterminated
  | refused (failure : ParseError)
  deriving DecidableEq, Repr

def parseHeaderLines (cursor : Bytes) (request : Request)
    (allocs : Allocs) : (HeaderLoopExit × Request) × Allocs :=
  if cursor = [] then ((.finished, request), allocs)
  else
    match _taken : takeLine cursor with
    | none => ((.unterminated, request), allocs)
    | some (line, rest) =>
        match parseHeaderLine line request allocs with
        | ((.error failure, stored), later) =>
            ((.refused failure, stored), later)
        | ((.ok _, stored), later) => parseHeaderLines rest stored later
termination_by cursor.length
decreasing_by exact takeLine_length _taken

/-! ## Whole messages -/

/-- The `return` statements of `http_parse_request`, in source order. -/
inductive ParseExit where
  | emptyInput
  | noTerminator
  | headerTooLarge
  | framing (failure : ParseError)
  | incomplete
  | leftover
  | requestLineUnterminated
  | requestLine (failure : ParseError)
  | headerUnterminated
  | headerLine (failure : ParseError)
  | transferEncoding
  | duplicateContentLength
  | contentLength (failure : ParseError)
  | bodyMismatch
  | bodyUnrepresentable
  | bodyAllocation
  | parsed
  deriving DecidableEq, Repr

/-- The result code returned at each exit. -/
def ParseExit.result : ParseExit → Except ParseError Unit
  | .emptyInput => .error .badRequest
  | .noTerminator => .error .badRequest
  | .headerTooLarge => .error .tooLarge
  | .framing failure => .error failure
  | .incomplete => .error .badRequest
  | .leftover => .error .badRequest
  | .requestLineUnterminated => .error .badRequest
  | .requestLine failure => .error failure
  | .headerUnterminated => .error .badRequest
  | .headerLine failure => .error failure
  | .transferEncoding => .error .unsupportedTransferEncoding
  | .duplicateContentLength => .error .invalidContentLength
  | .contentLength failure => .error failure
  | .bodyMismatch => .error .badRequest
  | .bodyUnrepresentable => .error .tooLarge
  | .bodyAllocation => .error .outOfMemory
  | .parsed => .ok ()

structure ParseOutcome where
  exit : ParseExit
  request : Request
  deriving DecidableEq, Repr

def ParseOutcome.result (outcome : ParseOutcome) : Except ParseError Unit :=
  outcome.exit.result

/-- Leaving the parser through `http_request_destroy`. -/
def parseAbort (exit : ParseExit) (request : Request) : ParseOutcome :=
  { exit := exit, request := httpRequestDestroy request }

/-- The body length read back from the stored headers, or the exit taken. -/
def storedBodyLength (request : Request) : Except ParseExit Nat :=
  match httpRequestGetHeader request (ascii "Transfer-Encoding") with
  | some _ => .error .transferEncoding
  | none =>
      match httpRequestGetHeader request (ascii "Content-Length") with
      | none => .ok 0
      | some value =>
          if (request.headers.countP fun header =>
              headerNameEqual header.name (ascii "Content-Length")) > 1 then
            .error .duplicateContentLength
          else
            match httpParseContentLengthValue value with
            | .error failure => .error (.contentLength failure)
            | .ok bodyLength => .ok bodyLength

/-- The part of the parser behind the header loop. -/
def parseBody (data : Bytes) (headerBytes expectedBody : Nat)
    (request : Request) (allocs : Allocs) : ParseOutcome :=
  match storedBodyLength request with
  | .error exit => parseAbort exit request
  | .ok bodyLength =>
      if bodyLength ≠ expectedBody then parseAbort .bodyMismatch request
      else if bodyLength > 0 then
        if bodyLength = 2 ^ 64 - 1 then
          parseAbort .bodyUnrepresentable request
        else if !(malloc allocs).1 then parseAbort .bodyAllocation request
        else
          { exit := .parsed
            request := { request with
              body := (data.drop headerBytes).take bodyLength } }
      else { exit := .parsed, request := request }

/-- The part of the parser behind the framing checks. -/
def parseSection (data : Bytes) (terminator expectedBody : Nat)
    (allocs : Allocs) : ParseOutcome :=
  match takeLine (data.take (terminator + 2)) with
  | none => parseAbort .requestLineUnterminated httpRequestInit
  | some (line, cursor) =>
      match parseRequestLine line httpRequestInit allocs with
      | ((.error failure, stored), _) =>
          parseAbort (.requestLine failure) stored
      | ((.ok _, stored), later) =>
          match parseHeaderLines cursor stored later with
          | ((.unterminated, partly), _) =>
              parseAbort .headerUnterminated partly
          | ((.refused failure, partly), _) =>
              parseAbort (.headerLine failure) partly
          | ((.finished, request), rest) =>
              parseBody data (terminator + 4) expectedBody request rest

def httpParseRequest (data : Bytes) (allocs : Allocs) : ParseOutcome :=
  if data = [] then { exit := .emptyInput, request := httpRequestInit }
  else
    match httpFindHeaderTerminator data with
    | none => { exit := .noTerminator, request := httpRequestInit }
    | some terminator =>
        let headerBytes := terminator + 4
        if headerBytes > httpMaxHeaderBytes then
          { exit := .headerTooLarge, request := httpRequestInit }
        else
          match httpInspectMessageFraming (data.take headerBytes) allocs with
          | (.error failure, _) =>
              { exit := .framing failure, request := httpRequestInit }
          | (.ok expectedBody, later) =>
              if data.length < headerBytes + expectedBody then
                { exit := .incomplete, request := httpRequestInit }
              else if data.length > headerBytes + expectedBody then
                { exit := .leftover, request := httpRequestInit }
              else parseSection data terminator expectedBody later

end CinderHTTP
