import CinderHTTP.Http.Grammar

/-!
# How a request is stored

The request record as `http_request.h` declares it: an array of headers that
`realloc` enlarges by one entry at a time with a counter beside it, and a body
that may be missing with its length.  The parser on this record refines the
one on lists.  So whatever it returns and whichever allocations fail, the
counter is the number of entries that were written, and a request that is not
accepted is the fresh one.
-/

namespace CinderHTTP

/-- The array has a slot for every entry that it was enlarged for, with nothing
in it before it is written.  An array without slots is `NULL`. -/
structure RawRequest where
  method : HttpMethod
  target : Option Bytes
  version : Option Bytes
  headers : List (Option Header)
  headerCount : Nat
  body : Option Bytes
  bodyLength : Nat
  deriving DecidableEq, Repr

namespace RawRequest

def init : RawRequest :=
  { method := .unknown
    target := none
    version := none
    headers := []
    headerCount := 0
    body := none
    bodyLength := 0 }

/-- The entries that loops up to the counter see. -/
def stored (raw : RawRequest) : List Header :=
  (raw.headers.take raw.headerCount).filterMap id

/-- The record without its representation. -/
def view (raw : RawRequest) : Request :=
  { method := raw.method
    target := raw.target
    version := raw.version
    headers := raw.stored
    body := raw.body.getD [] }

/-- `http_request_destroy` frees every counted entry of the array, which is an
error when one of them was never written. -/
def destroy (raw : RawRequest) : Option RawRequest :=
  if raw.headers ≠ [] ∧ raw.stored.length ≠ raw.headerCount then none
  else some init

/-- `realloc` of the array to a number of entries. -/
def resize (slots : List (Option Header)) (entries : Nat) :
    List (Option Header) :=
  (slots ++ List.replicate entries none).take entries

def appendHeader (raw : RawRequest) (name value : Bytes) (allocs : Allocs) :
    (Except ParseError Unit × RawRequest) × Allocs :=
  if raw.headerCount ≥ httpMaxHeaders then
    ((.error .tooManyHeaders, raw), allocs)
  else
    let grown := malloc allocs
    if !grown.1 then ((.error .outOfMemory, raw), grown.2)
    else
      let slots := resize raw.headers (raw.headerCount + 1)
      ((.ok (), { raw with
        headers := slots.set raw.headerCount
          (some { name := name, value := value })
        headerCount := raw.headerCount + 1 }), grown.2)

/-- The request line writes the method, the target and the version. -/
def parseRequestLine (line : Bytes) (raw : RawRequest) (allocs : Allocs) :
    (Except ParseError Unit × RawRequest) × Allocs :=
  let outcome := CinderHTTP.parseRequestLine line raw.view allocs
  ((outcome.1.1, { raw with
    method := outcome.1.2.method
    target := outcome.1.2.target
    version := outcome.1.2.version }), outcome.2)

end RawRequest

/-- The part of `parse_header_line` in front of `append_header`. -/
def headerLineField (line : Bytes) (allocs : Allocs) :
    Except ParseError Header × Allocs :=
  if line = [] then (.error .badRequest, allocs)
  else
    match cutFirst colon line with
    | none => (.error .badRequest, allocs)
    | some (rawName, rawValue) =>
        if rawName = [] then (.error .badRequest, allocs)
        else if rawName.any (fun character => character == space ||
            character == tab || character == nul) then
          (.error .badRequest, allocs)
        else
          let nameCopy := malloc allocs
          if !nameCopy.1 then (.error .outOfMemory, nameCopy.2)
          else if nul ∈ trimOws rawValue then
            (.error .badRequest, nameCopy.2)
          else
            let valueCopy := malloc nameCopy.2
            if !valueCopy.1 then (.error .outOfMemory, valueCopy.2)
            else
              (.ok { name := dupRange rawName
                     value := dupRange (trimOws rawValue) }, valueCopy.2)

namespace RawRequest

def parseHeaderLine (line : Bytes) (raw : RawRequest) (allocs : Allocs) :
    (Except ParseError Unit × RawRequest) × Allocs :=
  match headerLineField line allocs with
  | (.error failure, later) => ((.error failure, raw), later)
  | (.ok field, later) => raw.appendHeader field.name field.value later

def parseHeaderLines (cursor : Bytes) (raw : RawRequest) (allocs : Allocs) :
    (HeaderLoopExit × RawRequest) × Allocs :=
  if cursor = [] then ((.finished, raw), allocs)
  else
    match _taken : takeLine cursor with
    | none => ((.unterminated, raw), allocs)
    | some (line, rest) =>
        match raw.parseHeaderLine line allocs with
        | ((.error failure, written), later) =>
            ((.refused failure, written), later)
        | ((.ok _, written), later) =>
            parseHeaderLines rest written later
termination_by cursor.length
decreasing_by exact takeLine_length _taken

end RawRequest

structure RawOutcome where
  exit : ParseExit
  request : RawRequest
  deriving DecidableEq, Repr

namespace RawRequest

def abort (exit : ParseExit) (raw : RawRequest) : Option RawOutcome :=
  raw.destroy.map fun destroyed => { exit := exit, request := destroyed }

def parseBody (data : Bytes) (headerBytes expectedBody : Nat)
    (raw : RawRequest) (allocs : Allocs) : Option RawOutcome :=
  match storedBodyLength raw.view with
  | .error exit => raw.abort exit
  | .ok bodyLength =>
      if bodyLength ≠ expectedBody then raw.abort .bodyMismatch
      else if bodyLength > 0 then
        if bodyLength = 2 ^ 64 - 1 then raw.abort .bodyUnrepresentable
        else if !(malloc allocs).1 then raw.abort .bodyAllocation
        else
          some { exit := .parsed
                 request := { raw with
                   body := some ((data.drop headerBytes).take bodyLength)
                   bodyLength := bodyLength } }
      else some { exit := .parsed, request := raw }

def parseSection (data : Bytes) (terminator expectedBody : Nat)
    (allocs : Allocs) : Option RawOutcome :=
  match takeLine (data.take (terminator + 2)) with
  | none => init.abort .requestLineUnterminated
  | some (line, cursor) =>
      match init.parseRequestLine line allocs with
      | ((.error failure, written), _) =>
          written.abort (.requestLine failure)
      | ((.ok _, written), later) =>
          match parseHeaderLines cursor written later with
          | ((.unterminated, partly), _) => partly.abort .headerUnterminated
          | ((.refused failure, partly), _) =>
              partly.abort (.headerLine failure)
          | ((.finished, raw), rest) =>
              raw.parseBody data (terminator + 4) expectedBody rest

/-- `http_parse_request`.  Nothing is returned if an entry that was never
written would be freed. -/
def parse (data : Bytes) (allocs : Allocs) : Option RawOutcome :=
  if data = [] then some { exit := .emptyInput, request := init }
  else
    match httpFindHeaderTerminator data with
    | none => some { exit := .noTerminator, request := init }
    | some terminator =>
        let headerBytes := terminator + 4
        if headerBytes > httpMaxHeaderBytes then
          some { exit := .headerTooLarge, request := init }
        else
          match httpInspectMessageFraming (data.take headerBytes) allocs with
          | (.error failure, _) =>
              some { exit := .framing failure, request := init }
          | (.ok expectedBody, later) =>
              if data.length < headerBytes + expectedBody then
                some { exit := .incomplete, request := init }
              else if data.length > headerBytes + expectedBody then
                some { exit := .leftover, request := init }
              else parseSection data terminator expectedBody later

/-! ## Representation -/

/-- A request with exactly its headers in the array. -/
def ofRequest (request : Request) : RawRequest :=
  { method := request.method
    target := request.target
    version := request.version
    headers := request.headers.map some
    headerCount := request.headers.length
    body := if request.body = [] then none else some request.body
    bodyLength := request.body.length }

theorem ofRequest_stored (request : Request) :
    (ofRequest request).stored = request.headers := by
  have whole : (request.headers.map some).take request.headers.length =
      request.headers.map some := List.take_of_length_le (by simp)
  change List.filterMap id ((request.headers.map some).take
    request.headers.length) = request.headers
  rw [whole, List.filterMap_map]
  exact List.filterMap_some

theorem ofRequest_view (request : Request) :
    (ofRequest request).view = request := by
  have body : (ofRequest request).body.getD [] = request.body := by
    unfold ofRequest
    split_ifs with empty
    · exact empty.symm
    · rfl
  rw [view, ofRequest_stored, body]
  rfl

theorem ofRequest_abort (exit : ParseExit) (request : Request) :
    (ofRequest request).abort exit =
      some { exit := exit, request := init } := by
  have counted : (ofRequest request).stored.length =
      (ofRequest request).headerCount := by
    rw [ofRequest_stored]
    rfl
  rw [abort, destroy, if_neg (by simp [counted]), Option.map_some]

/-- An outcome of the parser on lists, stored. -/
def storedOutcome {α : Type} (outcome : (α × Request) × Allocs) :
    (α × RawRequest) × Allocs :=
  ((outcome.1.1, ofRequest outcome.1.2), outcome.2)

theorem set_resize (headers : List Header) (header : Header) :
    (resize (headers.map some) (headers.length + 1)).set headers.length
        (some header) = (headers ++ [header]).map some := by
  have enlarged : resize (headers.map some) (headers.length + 1) =
      headers.map some ++ [none] := by
    simp [resize, List.take_append]
  rw [enlarged, List.set_append_right _ _ (by simp), List.map_append]
  simp

theorem ofRequest_appendHeader (request : Request) (name value : Bytes)
    (allocs : Allocs) :
    (ofRequest request).appendHeader name value allocs =
      storedOutcome (CinderHTTP.appendHeader request name value allocs) := by
  have count : (ofRequest request).headerCount = request.headers.length := rfl
  unfold appendHeader CinderHTTP.appendHeader
  rw [count]
  split_ifs with full
  · rfl
  simp only
  split_ifs with refused
  · rfl
  · have written := set_resize request.headers { name := name, value := value }
    simp only [storedOutcome, ofRequest, written, List.length_append,
      List.length_singleton]

/-- What writes at most the method, the target and the version. -/
def KeepsSection (request after : Request) : Prop :=
  after.headers = request.headers ∧ after.body = request.body

theorem storeRequestLine_keeps (method target version : Bytes)
    (request : Request) (allocs : Allocs) :
    KeepsSection request
      (storeRequestLine method target version request allocs).1.2 := by
  unfold storeRequestLine
  simp only
  split_ifs
  all_goals exact ⟨rfl, rfl⟩

theorem parseRequestLine_keeps (line : Bytes) (request : Request)
    (allocs : Allocs) :
    KeepsSection request
      (CinderHTTP.parseRequestLine line request allocs).1.2 := by
  have outcome := parseRequestLine_outcome line request allocs
  generalize CinderHTTP.parseRequestLine line request allocs = result
    at outcome ⊢
  cases outcome with
  | tooLarge long => exact ⟨rfl, rfl⟩
  | malformed later => exact ⟨rfl, rfl⟩
  | unallocated refused => exact ⟨rfl, rfl⟩
  | stored fields token => exact storeRequestLine_keeps _ _ _ _ _

theorem ofRequest_parseRequestLine (line : Bytes) (request : Request)
    (allocs : Allocs) :
    (ofRequest request).parseRequestLine line allocs =
      storedOutcome
        (CinderHTTP.parseRequestLine line request allocs) := by
  obtain ⟨headers, body⟩ := parseRequestLine_keeps line request allocs
  rw [parseRequestLine, ofRequest_view]
  generalize CinderHTTP.parseRequestLine line request allocs = outcome
    at headers body ⊢
  simp only [storedOutcome, ofRequest, headers, body]

/-! ## Refinement -/

theorem parseHeaderLine_eq (line : Bytes) (request : Request)
    (allocs : Allocs) :
    CinderHTTP.parseHeaderLine line request allocs =
      match headerLineField line allocs with
      | (.error failure, later) => ((.error failure, request), later)
      | (.ok field, later) =>
          CinderHTTP.appendHeader request field.name field.value later := by
  unfold CinderHTTP.parseHeaderLine headerLineField
  split_ifs
  · rfl
  cases cutFirst colon line with
  | none => rfl
  | some parts =>
      simp only
      split_ifs
      all_goals rfl

theorem ofRequest_parseHeaderLine (line : Bytes) (request : Request)
    (allocs : Allocs) :
    (ofRequest request).parseHeaderLine line allocs =
      storedOutcome (CinderHTTP.parseHeaderLine line request allocs) := by
  rw [parseHeaderLine_eq, parseHeaderLine]
  generalize headerLineField line allocs = reading
  obtain ⟨failure | field, later⟩ := reading
  · rfl
  · exact ofRequest_appendHeader request field.name field.value later

theorem parseHeaderLines_taken {cursor line rest : Bytes}
    (nonempty : cursor ≠ []) (taken : takeLine cursor = some (line, rest))
    (raw : RawRequest) (allocs : Allocs) :
    parseHeaderLines cursor raw allocs =
      match raw.parseHeaderLine line allocs with
      | ((.error failure, written), later) =>
          ((.refused failure, written), later)
      | ((.ok _, written), later) => parseHeaderLines rest written later := by
  rw [parseHeaderLines, if_neg nonempty]
  split
  · rename_i missing
    rw [taken] at missing
    cases missing
  · rename_i again
    rw [taken] at again
    cases again
    rfl

theorem ofRequest_parseHeaderLines (cursor : Bytes) (request : Request)
    (allocs : Allocs) :
    parseHeaderLines cursor (ofRequest request) allocs =
      storedOutcome (CinderHTTP.parseHeaderLines cursor request allocs) := by
  fun_induction CinderHTTP.parseHeaderLines cursor request allocs with
  | case1 request allocs =>
      rw [parseHeaderLines, if_pos rfl]
      rfl
  | case2 cursor request allocs nonempty missing =>
      rw [parseHeaderLines, if_neg nonempty]
      split
      · rfl
      · rename_i taken
        rw [missing] at taken
        cases taken
  | case3 cursor request allocs nonempty line rest taken failure partly
      later refused =>
      rw [parseHeaderLines_taken nonempty taken, ofRequest_parseHeaderLine,
        refused]
      rfl
  | case4 cursor request allocs nonempty line rest taken _ partly
      afterLine accepted induction =>
      rw [parseHeaderLines_taken nonempty taken, ofRequest_parseHeaderLine,
        accepted]
      exact induction

/-- An outcome of the parser on lists, stored. -/
def ofOutcome (outcome : ParseOutcome) : RawOutcome :=
  { exit := outcome.exit, request := ofRequest outcome.request }

theorem ofRequest_parseBody {data : Bytes} {headerBytes expected : Nat}
    (complete : data.length = headerBytes + expected) (request : Request)
    (allocs : Allocs) :
    (ofRequest request).parseBody data headerBytes expected allocs =
      some (ofOutcome
        (CinderHTTP.parseBody data headerBytes expected request
          allocs)) := by
  have aborted := fun exit => ofRequest_abort exit request
  unfold parseBody CinderHTTP.parseBody
  rw [ofRequest_view]
  cases storedBodyLength request with
  | error exit => exact aborted exit
  | ok bodyLength =>
      simp only
      split_ifs with different positive huge refused
      · exact aborted .bodyMismatch
      · exact aborted .bodyUnrepresentable
      · exact aborted .bodyAllocation
      · have size : ((data.drop headerBytes).take bodyLength).length =
            bodyLength := by
          rw [List.length_take, List.length_drop]
          omega
        have filled : (data.drop headerBytes).take bodyLength ≠ [] := by
          intro empty
          rw [empty, List.length_nil] at size
          omega
        simp only [ofOutcome, ofRequest, if_neg filled, size]
      · rfl

theorem ofRequest_parseSection {data : Bytes} {terminator expected : Nat}
    (complete : data.length = terminator + 4 + expected) (allocs : Allocs) :
    parseSection data terminator expected allocs =
      some (ofOutcome
        (CinderHTTP.parseSection data terminator expected allocs)) := by
  have start : init = ofRequest httpRequestInit := rfl
  unfold parseSection CinderHTTP.parseSection
  cases takeLine (data.take (terminator + 2)) with
  | none => rfl
  | some cut =>
      obtain ⟨line, cursor⟩ := cut
      simp only
      rw [start, ofRequest_parseRequestLine]
      generalize CinderHTTP.parseRequestLine line httpRequestInit allocs =
        reading
      obtain ⟨⟨failure | ⟨⟩, written⟩, later⟩ := reading
      · exact ofRequest_abort _ written
      simp only [storedOutcome]
      rw [ofRequest_parseHeaderLines]
      generalize CinderHTTP.parseHeaderLines cursor written later = walk
      obtain ⟨⟨finished | unterminated | failure, partly⟩, rest⟩ := walk
      · exact ofRequest_parseBody complete partly rest
      · exact ofRequest_abort _ partly
      · exact ofRequest_abort _ partly

/-- The parser on the record computes what the parser on lists computes. -/
theorem parse_eq (data : Bytes) (allocs : Allocs) :
    parse data allocs = some (ofOutcome (httpParseRequest data allocs)) := by
  unfold parse httpParseRequest
  split_ifs
  · rfl
  cases httpFindHeaderTerminator data with
  | none => rfl
  | some terminator =>
      simp only
      split_ifs
      · rfl
      rcases httpInspectMessageFraming (data.take (terminator + 4)) allocs with
        ⟨failure | expected, later⟩
      · rfl
      · simp only
        split_ifs with short long
        · rfl
        · rfl
        · exact ofRequest_parseSection (by omega) later

end RawRequest

/-! ## What is left -/

/-- The request was accepted, or it is the fresh one. -/
def ParseOutcome.Clean (outcome : ParseOutcome) : Prop :=
  outcome.exit = .parsed ∨ outcome.request = httpRequestInit

theorem parseBody_clean (data : Bytes) (headerBytes expected : Nat)
    (request : Request) (allocs : Allocs) :
    (parseBody data headerBytes expected request allocs).Clean := by
  unfold parseBody
  cases storedBodyLength request with
  | error exit => exact .inr rfl
  | ok bodyLength =>
      simp only
      split_ifs
      · exact .inr rfl
      · exact .inr rfl
      · exact .inr rfl
      · exact .inl rfl
      · exact .inl rfl

theorem parseSection_clean (data : Bytes) (terminator expected : Nat)
    (allocs : Allocs) :
    (parseSection data terminator expected allocs).Clean := by
  unfold parseSection
  cases takeLine (data.take (terminator + 2)) with
  | none => exact .inr rfl
  | some cut =>
      simp only
      rcases parseRequestLine cut.1 httpRequestInit allocs with
        ⟨⟨failure | ⟨⟩, written⟩, later⟩
      · exact .inr rfl
      simp only
      rcases parseHeaderLines cut.2 written later with
        ⟨⟨finished | unterminated | failure, partly⟩, rest⟩
      · exact parseBody_clean data _ expected partly rest
      · exact .inr rfl
      · exact .inr rfl

theorem httpParseRequest_clean (data : Bytes) (allocs : Allocs) :
    (httpParseRequest data allocs).Clean := by
  unfold httpParseRequest
  split_ifs
  · exact .inr rfl
  cases httpFindHeaderTerminator data with
  | none => exact .inr rfl
  | some terminator =>
      simp only
      split_ifs
      · exact .inr rfl
      rcases httpInspectMessageFraming (data.take (terminator + 4)) allocs
        with ⟨failure | expected, later⟩
      · exact .inr rfl
      simp only
      split_ifs
      · exact .inr rfl
      · exact .inr rfl
      · exact parseSection_clean data terminator expected later

/-- Whatever arrives and whichever allocations fail, a request that is not
accepted is the fresh one, and in an accepted one the counter is the number of
headers that were stored. -/
theorem httpParseRequest_stores (data : Bytes) (allocs : Allocs) :
    ∃ outcome, RawRequest.parse data allocs = some outcome ∧
      outcome = RawRequest.ofOutcome (httpParseRequest data allocs) ∧
      (outcome.exit.result ≠ .ok () → outcome.request = .init) ∧
      (outcome.exit.result = .ok () →
        outcome.request.headers.length = outcome.request.headerCount ∧
        outcome.request.stored.length = outcome.request.headerCount ∧
        outcome.request.headerCount ≤ 100) := by
  have accepted := (httpParseRequest data allocs).result_eq_ok_iff
  refine ⟨_, RawRequest.parse_eq data allocs, rfl, ?_, ?_⟩
  · intro failed
    have fresh := (httpParseRequest_clean data allocs).resolve_left
      fun parsed => failed (accepted.mpr parsed)
    rw [RawRequest.ofOutcome, fresh]
    rfl
  · intro success
    obtain ⟨parts, valid, -, stored⟩ :=
      httpParseRequest_parsed (accepted.mp success)
    refine ⟨List.length_map some, ?_, ?_⟩
    · exact congrArg List.length (RawRequest.ofRequest_stored _)
    · change (httpParseRequest data allocs).request.headers.length ≤ 100
      rw [stored, MessageParts.request, List.length_map]
      exact valid.fieldCount

end CinderHTTP
