import CinderHTTP.Http.Framing

/-!
# The accepted messages

`MessageParts` is a message taken apart: request line, field lines and body.
`MessageParts.Valid` is the grammar with all of its limits, stated without
reference to the parser, and `MessageParts.request` is the record that a
message denotes.  The parser accepts exactly the valid messages and returns
exactly their records.
-/

namespace CinderHTTP

/-- Names are compared without regard to the case of ASCII letters. -/
def SameName (left right : Bytes) : Prop :=
  left.map asciiTolower = right.map asciiTolower

instance (left right : Bytes) : Decidable (SameName left right) :=
  inferInstanceAs (Decidable (_ = _))

theorem headerNameEqual_eq_decide (left right : Bytes) :
    headerNameEqual left right = decide (SameName left right) := by
  rw [Bool.eq_iff_iff, headerNameEqual_iff, decide_eq_true_iff]
  rfl

structure MessageParts where
  method : Bytes
  target : Bytes
  version : Bytes
  fields : List Header
  body : Bytes

namespace MessageParts

def requestLine (parts : MessageParts) : Bytes :=
  parts.method ++ space :: (parts.target ++ space :: parts.version)

/-- Everything up to and including the blank line. -/
def header (parts : MessageParts) : Bytes :=
  parts.requestLine ++ crlf ++ fieldLines parts.fields ++ crlf

def bytes (parts : MessageParts) : Bytes :=
  parts.header ++ parts.body

/-- The length in the first Content-Length field, zero without one. -/
def announcedLength (parts : MessageParts) : Nat :=
  match parts.fields.find? fun field =>
      SameName field.name (ascii "Content-Length") with
  | none => 0
  | some field => decimalValue (trimOws field.value)

structure Valid (parts : MessageParts) : Prop where
  method : parts.method ∈ [ascii "GET", ascii "HEAD", ascii "POST"]
  targetNonempty : parts.target ≠ []
  targetSpace : space ∉ parts.target
  targetNul : nul ∉ parts.target
  targetLf : lf ∉ parts.target
  version : parts.version ∈ [ascii "HTTP/1.0", ascii "HTTP/1.1"]
  requestLineLength : parts.requestLine.length ≤ 8192
  fieldCount : parts.fields.length ≤ 100
  fieldSyntax : ∀ field ∈ parts.fields, FieldSyntax field
  headerLength : parts.header.length ≤ 32768
  noTransferEncoding : ∀ field ∈ parts.fields,
    ¬SameName field.name (ascii "Transfer-Encoding")
  contentLengthOnce : (parts.fields.filter fun field =>
    SameName field.name (ascii "Content-Length")).length ≤ 1
  contentLengthValue : ∀ field ∈ parts.fields,
    SameName field.name (ascii "Content-Length") →
      trimOws field.value ≠ [] ∧
        (∀ digit ∈ trimOws field.value, isDigit digit = true) ∧
        decimalValue (trimOws field.value) ≤ 1048576
  bodyLength : parts.body.length = parts.announcedLength

/-- The record that a message denotes. -/
def request (parts : MessageParts) : Request :=
  { method := httpMethodFromString parts.method
    target := some parts.target
    version := some parts.version
    headers := parts.fields.map trimmed
    body := parts.body }

end MessageParts

/-! ## Request lines -/

theorem isSupportedMethodToken_iff (method : Bytes) :
    isSupportedMethodToken method = true ↔
      method ∈ [ascii "GET", ascii "HEAD", ascii "POST"] := by
  simp only [isSupportedMethodToken, Bool.or_eq_true, decide_eq_true_eq,
    List.mem_cons, List.not_mem_nil, or_false, or_assoc]

theorem storeRequestLine_ok {method target version : Bytes}
    {request stored : Request} {allocs later : Allocs}
    (targetNul : nul ∉ target) (versionNul : nul ∉ version)
    (success : storeRequestLine method target version request allocs =
      ((.ok (), stored), later)) :
    method ∈ [ascii "GET", ascii "HEAD", ascii "POST"] ∧
      version ∈ [ascii "HTTP/1.0", ascii "HTTP/1.1"] ∧
      stored = { request with
        method := httpMethodFromString method
        target := some target
        version := some version } := by
  unfold storeRequestLine at success
  cases supported : isSupportedMethodToken method with
  | false =>
      simp only [supported, Bool.not_false, if_true] at success
      split_ifs at success <;> simp at success
  | true =>
      simp only [supported, Bool.not_true, Bool.false_eq_true,
        if_false] at success
      cases targetCopied : (malloc allocs).1 with
      | false => simp [targetCopied] at success
      | true =>
          cases versionCopied : (malloc (malloc allocs).2).1 with
          | false => simp [targetCopied, versionCopied] at success
          | true =>
              simp only [targetCopied, versionCopied, Bool.not_true,
                Bool.or_self, Bool.false_eq_true, if_false, if_true,
                dupRange, cstr_eq_self targetNul,
                cstr_eq_self versionNul] at success
              split_ifs at success with known httpLike
              · simp only [Prod.mk.injEq, true_and] at success
                exact ⟨(isSupportedMethodToken_iff method).mp supported,
                  by simpa using known, success.1.symm⟩
              · simp at success
              · simp at success

/-- Three fields separated by single spaces, within the limit. -/
structure ThreeFields (line method target version : Bytes) : Prop where
  shape : line = method ++ space :: (target ++ space :: version)
  short : line.length ≤ 8192
  clean : ∀ field ∈ [method, target, version],
    field ≠ [] ∧ space ∉ field ∧ nul ∉ field

/-- Everything that `parse_request_line` may come to. -/
inductive LineOutcome (line : Bytes) (request : Request) (allocs : Allocs) :
    (Except ParseError Unit × Request) × Allocs → Prop where
  | tooLarge (long : line.length > httpMaxRequestLine) :
      LineOutcome line request allocs ((.error .tooLarge, request), allocs)
  | malformed (later : Allocs) :
      LineOutcome line request allocs ((.error .badRequest, request), later)
  | unallocated (refused : (malloc allocs).1 = false) :
      LineOutcome line request allocs
        ((.error .outOfMemory, request), (malloc allocs).2)
  | stored {method target version : Bytes}
      (fields : ThreeFields line method target version)
      (token : methodTokenIsWellFormed method = true) :
      LineOutcome line request allocs
        (storeRequestLine method target version request (malloc allocs).2)

theorem parseRequestLine_outcome (line : Bytes) (request : Request)
    (allocs : Allocs) :
    LineOutcome line request allocs
      (parseRequestLine line request allocs) := by
  unfold parseRequestLine
  split_ifs with outside long
  · exact .tooLarge long
  · exact .malformed allocs
  rw [not_or, Nat.not_lt] at outside
  cases firstCut : cutFirst space line with
  | none => exact .malformed allocs
  | some parts =>
      obtain ⟨method, afterMethod⟩ := parts
      obtain ⟨rfl, methodSpace⟩ := cutFirst_eq_some_iff.mp firstCut
      simp only
      split_ifs with unnamed methodNul refused
      · exact .malformed allocs
      · exact .malformed allocs
      · exact .unallocated (by simpa using refused)
      rw [dupRange, cstr_eq_self methodNul]
      unfold splitAfterMethod
      split_ifs with illFormed blank
      · exact .malformed _
      · exact .malformed _
      cases secondCut : cutFirst space afterMethod with
      | none => exact .malformed _
      | some parts =>
          obtain ⟨target, version⟩ := parts
          obtain ⟨rfl, targetSpace⟩ := cutFirst_eq_some_iff.mp secondCut
          simp only
          split_ifs with targetEmpty versionBlank uncleanNul
          · exact .malformed _
          · exact .malformed _
          · exact .malformed _
          rw [not_or] at versionBlank uncleanNul
          refine .stored ⟨rfl, outside.2, ?_⟩ (by simpa using illFormed)
          intro field member
          simp only [List.mem_cons, List.not_mem_nil, or_false] at member
          rcases member with rfl | rfl | rfl
          · exact ⟨unnamed, methodSpace, methodNul⟩
          · exact ⟨targetEmpty, targetSpace, uncleanNul.1⟩
          · exact ⟨versionBlank.1, versionBlank.2, uncleanNul.2⟩

theorem parseRequestLine_fields {line method target version : Bytes}
    (fields : ThreeFields line method target version)
    (token : methodTokenIsWellFormed method = true) (request : Request) :
    parseRequestLine line request [] =
      storeRequestLine method target version request [] := by
  obtain ⟨methodNonempty, methodSpace, methodNul⟩ :=
    fields.clean method (by simp)
  obtain ⟨targetNonempty, targetSpace, targetNul⟩ :=
    fields.clean target (by simp)
  obtain ⟨versionNonempty, versionSpace, versionNul⟩ :=
    fields.clean version (by simp)
  have firstTarget :
      (target ++ space :: version).head? ≠ some space := by
    cases target with
    | nil => exact absurd rfl targetNonempty
    | cons first others =>
        simp only [List.cons_append, List.head?_cons, ne_eq,
          Option.some.injEq]
        rintro rfl
        exact targetSpace (by simp)
  have split : splitAfterMethod method (target ++ space :: version)
      request [] = storeRequestLine method target version request [] := by
    rw [splitAfterMethod, if_neg (by simp [token]),
      if_neg (not_or_intro (by simp) firstTarget),
      cutFirst_append_cons targetSpace]
    simp [targetNonempty, versionNonempty, versionSpace, targetNul,
      versionNul]
  have inside : ¬(line = [] ∨ line.length > httpMaxRequestLine) :=
    not_or_intro (by simp [fields.shape]) (Nat.not_lt.mpr fields.short)
  rw [parseRequestLine, if_neg inside, fields.shape,
    cutFirst_append_cons methodSpace]
  simp [methodNonempty, methodNul, dupRange, cstr_eq_self methodNul, split]

/-- A stored request line, under any allocation answers, has three fields
separated by single spaces. -/
theorem parseRequestLine_ok {line : Bytes} {request stored : Request}
    {allocs later : Allocs}
    (success : parseRequestLine line request allocs =
      ((.ok (), stored), later)) :
    ∃ method target version,
      line = method ++ space :: (target ++ space :: version) ∧
      method ∈ [ascii "GET", ascii "HEAD", ascii "POST"] ∧
      target ≠ [] ∧ space ∉ target ∧ nul ∉ target ∧
      version ∈ [ascii "HTTP/1.0", ascii "HTTP/1.1"] ∧
      line.length ≤ httpMaxRequestLine ∧
      stored = { request with
        method := httpMethodFromString method
        target := some target
        version := some version } := by
  have outcome := parseRequestLine_outcome line request allocs
  generalize parseRequestLine line request allocs = result
    at success outcome
  cases outcome with
  | tooLarge long => cases success
  | malformed after => cases success
  | unallocated refused => cases success
  | @stored method target version fields token =>
      obtain ⟨targetNonempty, targetSpace, targetNul⟩ :=
        fields.clean target (by simp)
      obtain ⟨methodKnown, versionKnown, rfl⟩ :=
        storeRequestLine_ok targetNul (fields.clean version (by simp)).2.2
          success
      exact ⟨method, target, version, fields.shape, methodKnown,
        targetNonempty, targetSpace, targetNul, versionKnown, fields.short,
        rfl⟩

theorem methodTokenIsWellFormed_of_supported {method : Bytes}
    (supported : method ∈ [ascii "GET", ascii "HEAD", ascii "POST"]) :
    methodTokenIsWellFormed method = true ∧ space ∉ method ∧
      nul ∉ method ∧ lf ∉ method ∧ method ≠ [] := by
  simp only [List.mem_cons, List.not_mem_nil, or_false] at supported
  rcases supported with rfl | rfl | rfl <;> decide

theorem version_clean {version : Bytes}
    (known : version ∈ [ascii "HTTP/1.0", ascii "HTTP/1.1"]) :
    space ∉ version ∧ nul ∉ version ∧ lf ∉ version ∧ version ≠ [] := by
  simp only [List.mem_cons, List.not_mem_nil, or_false] at known
  rcases known with rfl | rfl <;> decide

theorem parseRequestLine_valid {method target version : Bytes}
    (request : Request)
    (supported : method ∈ [ascii "GET", ascii "HEAD", ascii "POST"])
    (targetNonempty : target ≠ []) (targetSpace : space ∉ target)
    (targetNul : nul ∉ target)
    (known : version ∈ [ascii "HTTP/1.0", ascii "HTTP/1.1"])
    (short : (method ++ space :: (target ++ space :: version)).length ≤
      httpMaxRequestLine) :
    parseRequestLine (method ++ space :: (target ++ space :: version))
        request [] =
      ((.ok (), { request with
        method := httpMethodFromString method
        target := some target
        version := some version }), []) := by
  obtain ⟨wellFormed, methodSpace, methodNul, _, methodNonempty⟩ :=
    methodTokenIsWellFormed_of_supported supported
  obtain ⟨versionSpace, versionNul, _, versionNonempty⟩ :=
    version_clean known
  have token : isSupportedMethodToken method = true :=
    (isSupportedMethodToken_iff method).mpr supported
  have knownVersion : version = ascii "HTTP/1.0" ∨
      version = ascii "HTTP/1.1" := by simpa using known
  have fields : ThreeFields
      (method ++ space :: (target ++ space :: version)) method target
      version := by
    refine ⟨rfl, short, ?_⟩
    simp only [List.forall_mem_cons, List.not_mem_nil, false_implies,
      implies_true, and_true]
    exact ⟨⟨methodNonempty, methodSpace, methodNul⟩,
      ⟨targetNonempty, targetSpace, targetNul⟩,
      versionNonempty, versionSpace, versionNul⟩
  rw [parseRequestLine_fields fields wellFormed]
  simp [storeRequestLine, token, dupRange, cstr_eq_self targetNul,
    cstr_eq_self versionNul, knownVersion]

/-! ## Announced lengths -/

theorem isContentLength_eq_decide (header : Header) :
    isContentLength header =
      decide (SameName header.name (ascii "Content-Length")) :=
  headerNameEqual_eq_decide _ _

theorem isTransferEncoding_eq_decide (header : Header) :
    isTransferEncoding header =
      decide (SameName header.name (ascii "Transfer-Encoding")) :=
  headerNameEqual_eq_decide _ _

theorem filter_isContentLength_trimmed (fields : List Header) :
    (fields.map trimmed).filter isContentLength =
      (fields.filter isContentLength).map trimmed := by
  rw [List.filter_map]
  rfl

theorem contentLengthValue_trimmed_iff (field : Header) (length : Nat) :
    httpParseContentLengthValue (trimmed field).value = .ok length ↔
      (trimOws field.value ≠ [] ∧
        (∀ digit ∈ trimOws field.value, isDigit digit = true) ∧
        decimalValue (trimOws field.value) ≤ 1048576) ∧
      length = decimalValue (trimOws field.value) := by
  rw [httpParseContentLengthValue_eq_ok_iff]
  constructor
  · rintro ⟨nonempty, digits, rfl, small⟩
    exact ⟨⟨nonempty, digits, small⟩, rfl⟩
  · rintro ⟨⟨nonempty, digits, small⟩, rfl⟩
    exact ⟨nonempty, digits, rfl, small⟩

theorem lengthFields_iff (lengths : List Header) (length : Nat) :
    ((lengths.map trimmed = [] ∧ length = 0) ∨
        ∃ header, lengths.map trimmed = [header] ∧
          httpParseContentLengthValue header.value = .ok length) ↔
      lengths.length ≤ 1 ∧
      (∀ field ∈ lengths, trimOws field.value ≠ [] ∧
        (∀ digit ∈ trimOws field.value, isDigit digit = true) ∧
        decimalValue (trimOws field.value) ≤ 1048576) ∧
      length = match lengths.head? with
        | none => 0
        | some field => decimalValue (trimOws field.value) := by
  cases lengths with
  | nil => simp
  | cons field others =>
      cases others with
      | nil =>
          have single := contentLengthValue_trimmed_iff field length
          simpa using single
      | cons second more => simp

/-- The framing conditions of the grammar are the framing of the stored
headers. -/
theorem framed_trimmed_iff {parts : MessageParts} {length : Nat} :
    Framed (parts.fields.map trimmed) length ↔
      (∀ field ∈ parts.fields,
        ¬SameName field.name (ascii "Transfer-Encoding")) ∧
      (parts.fields.filter fun field =>
        SameName field.name (ascii "Content-Length")).length ≤ 1 ∧
      (∀ field ∈ parts.fields,
        SameName field.name (ascii "Content-Length") →
          trimOws field.value ≠ [] ∧
            (∀ digit ∈ trimOws field.value, isDigit digit = true) ∧
            decimalValue (trimOws field.value) ≤ 1048576) ∧
      length = parts.announcedLength := by
  have sameFilter : (fun field : Header =>
      decide (SameName field.name (ascii "Content-Length"))) =
        isContentLength := by
    funext field
    exact (isContentLength_eq_decide field).symm
  have coding : (∀ header ∈ parts.fields.map trimmed,
      isTransferEncoding header = false) ↔
        ∀ field ∈ parts.fields,
          ¬SameName field.name (ascii "Transfer-Encoding") := by
    simp [isTransferEncoding_eq_decide, trimmed]
  have named : ∀ field : Header,
      SameName field.name (ascii "Content-Length") ↔
        isContentLength field = true := by
    intro field
    rw [isContentLength_eq_decide, decide_eq_true_iff]
  rw [Framed, coding, filter_isContentLength_trimmed, lengthFields_iff,
    MessageParts.announcedLength, sameFilter, ← List.head?_filter]
  simp only [named, List.mem_filter, and_imp]

/-! ## Whole messages -/

theorem httpFindHeaderTerminator_split {data : Bytes} {terminator : Nat}
    (found : httpFindHeaderTerminator data = some terminator) :
    data.take (terminator + 4) = data.take (terminator + 2) ++ crlf ∧
      data = data.take (terminator + 2) ++ crlf ++
        data.drop (terminator + 4) := by
  obtain ⟨rest, behind⟩ := findInfix_occurs found
  have second : data.drop (terminator + 2) = crlf ++ rest := by
    rw [← List.drop_drop, ← behind]
    rfl
  have header : data.take (terminator + 4) =
      data.take (terminator + 2) ++ crlf := by
    rw [show terminator + 4 = terminator + 2 + 2 by omega, List.take_add,
      second]
    rfl
  refine ⟨header, ?_⟩
  rw [← header, List.take_append_drop]

theorem storedBodyLength_ne_parsed (request : Request) :
    storedBodyLength request ≠ .error .parsed := by
  unfold storedBodyLength
  repeat' split
  all_goals simp

theorem parseBody_parsed {data : Bytes} {headerBytes expected : Nat}
    {request : Request} {allocs : Allocs}
    (success : (parseBody data headerBytes expected request allocs).exit =
      .parsed) :
    Framed request.headers expected ∧
      (parseBody data headerBytes expected request allocs).request =
        if expected > 0 then
          { request with body := (data.drop headerBytes).take expected }
        else request := by
  unfold parseBody at success ⊢
  cases length : storedBodyLength request with
  | error exit =>
      simp only [length, parseAbort] at success
      exact absurd (success ▸ length) (storedBodyLength_ne_parsed request)
  | ok bodyLength =>
      by_cases same : bodyLength = expected
      · subst same
        refine ⟨storedBodyLength_eq_ok_iff.mp length, ?_⟩
        simp only [length, ne_eq, not_true_eq_false, if_false] at success ⊢
        by_cases positive : bodyLength > 0
        · simp only [if_pos positive] at success ⊢
          split_ifs at success ⊢ with huge refused
          all_goals try simp only [parseAbort, reduceCtorEq] at success
          rfl
        · simp only [if_neg positive]
      · simp [length, same, parseAbort] at success

theorem MessageParts.Valid.requestLine_unbroken {parts : MessageParts}
    (valid : parts.Valid) : lf ∉ parts.requestLine := by
  obtain ⟨_, _, _, methodLf, _⟩ :=
    methodTokenIsWellFormed_of_supported valid.method
  obtain ⟨_, _, versionLf, _⟩ := version_clean valid.version
  have apart : lf ≠ space := by decide
  simp [MessageParts.requestLine, methodLf, valid.targetLf, versionLf, apart]

/-- A section that was parsed, with its body, is a valid message. -/
theorem parseSection_parsed {data : Bytes} {terminator expected : Nat}
    {allocs : Allocs}
    (found : httpFindHeaderTerminator data = some terminator)
    (small : terminator + 4 ≤ httpMaxHeaderBytes)
    (complete : data.length = terminator + 4 + expected)
    (success : (parseSection data terminator expected allocs).exit =
      .parsed) :
    ∃ parts : MessageParts, parts.Valid ∧ data = parts.bytes ∧
      (parseSection data terminator expected allocs).request =
        parts.request := by
  obtain ⟨header, around⟩ := httpFindHeaderTerminator_split found
  have bodyLength : (data.drop (terminator + 4)).length = expected := by
    rw [List.length_drop]
    omega
  unfold parseSection at success ⊢
  cases taken : takeLine (data.take (terminator + 2)) with
  | none => simp [taken, parseAbort] at success
  | some cut =>
      obtain ⟨line, cursor⟩ := cut
      obtain ⟨section_, unbroken⟩ := takeLine_eq_some_iff.mp taken
      simp only [taken] at success ⊢
      rcases lineResult : parseRequestLine line httpRequestInit allocs with
        ⟨⟨failure | ⟨⟩, stored⟩, later⟩
      · simp [lineResult, parseAbort] at success
      simp only [lineResult] at success ⊢
      obtain ⟨method, target, version, rfl, methodKnown, targetNonempty,
        targetSpace, targetNul, versionKnown, lineLength, rfl⟩ :=
          parseRequestLine_ok lineResult
      rcases walk : parseHeaderLines cursor _ later with
        ⟨⟨finished | unterminated | failure, request⟩, rest⟩
      rotate_left
      · simp [walk, parseAbort] at success
      · simp [walk, parseAbort] at success
      simp only [walk] at success ⊢
      obtain ⟨fields, rfl, fieldSyntax, fieldCount, rfl⟩ :=
        parseHeaderLines_finished (by simp [httpRequestInit]) walk
      obtain ⟨framed, request⟩ := parseBody_parsed success
      let parts : MessageParts :=
        { method := method, target := target, version := version
          fields := fields, body := data.drop (terminator + 4) }
      have framedParts : Framed (parts.fields.map trimmed) expected := by
        simpa [httpRequestInit] using framed
      obtain ⟨noCoding, once, values, announced⟩ :=
        framed_trimmed_iff.mp framedParts
      have headerEq : data.take (terminator + 4) = parts.header := by
        rw [header, section_]
        rfl
      refine ⟨parts, ?_, ?_, ?_⟩
      · exact
          { method := methodKnown
            targetNonempty := targetNonempty
            targetSpace := targetSpace
            targetNul := targetNul
            targetLf := by
              intro member
              apply unbroken
              exact List.mem_append_right _ (List.mem_cons_of_mem _
                (List.mem_append_left _ member))
            version := versionKnown
            requestLineLength := lineLength
            fieldCount := by
              simpa [httpRequestInit, httpMaxHeaders] using fieldCount
            fieldSyntax := fieldSyntax
            headerLength := by
              rw [← headerEq, List.length_take]
              exact Nat.le_trans (Nat.min_le_left _ _) small
            noTransferEncoding := noCoding
            contentLengthOnce := once
            contentLengthValue := values
            bodyLength := by rw [← announced]; exact bodyLength }
      · rw [MessageParts.bytes, ← headerEq]
        exact (List.take_append_drop _ _).symm
      · rw [request, ← bodyLength, List.take_length]
        split_ifs with positive
        · simp [MessageParts.request, parts, httpRequestInit]
        · have empty : data.drop (terminator + 4) = [] :=
            List.length_eq_zero_iff.mp (by omega)
          simp [MessageParts.request, parts, httpRequestInit, empty]

/-- What the parser accepts, under any allocation answers, is valid and is
stored as it stands. -/
theorem httpParseRequest_parsed {data : Bytes} {allocs : Allocs}
    (success : (httpParseRequest data allocs).exit = .parsed) :
    ∃ parts : MessageParts, parts.Valid ∧ data = parts.bytes ∧
      (httpParseRequest data allocs).request = parts.request := by
  unfold httpParseRequest at success ⊢
  split at success
  · simp at success
  rename_i nonempty
  rw [if_neg nonempty]
  cases found : httpFindHeaderTerminator data with
  | none => simp [found] at success
  | some terminator =>
      simp only [found] at success ⊢
      split at success
      · simp at success
      rename_i small
      rw [if_neg small]
      rcases framing : httpInspectMessageFraming
        (data.take (terminator + 4)) allocs with ⟨failure | expected, later⟩
      · simp [framing] at success
      simp only [framing] at success ⊢
      split_ifs at success ⊢ with short long
      exact parseSection_parsed found (by omega) (by omega) success

theorem MessageParts.header_length (parts : MessageParts) :
    parts.header.length =
      (parts.requestLine ++ crlf ++ fieldLines parts.fields).length + 2 :=
  List.length_append

theorem MessageParts.Valid.terminator {parts : MessageParts}
    (valid : parts.Valid) :
    httpFindHeaderTerminator parts.bytes =
      some (parts.header.length - 4) := by
  have unbroken : ∀ line ∈ parts.fields.map rawLine, lf ∉ line := by
    intro line member
    obtain ⟨field, inFields, rfl⟩ := List.mem_map.mp member
    exact (valid.fieldSyntax field inFields).lineLf
  have nonempty : ∀ line ∈ parts.fields.map rawLine, line ≠ [] := by
    intro line member
    obtain ⟨field, _, rfl⟩ := List.mem_map.mp member
    exact rawLine_ne_nil field
  rw [parts.header_length]
  exact findInfix_blankLine_joinLines parts.body
    valid.requestLine_unbroken unbroken nonempty

theorem MessageParts.Valid.framed {parts : MessageParts}
    (valid : parts.Valid) :
    Framed (parts.fields.map trimmed) parts.body.length :=
  framed_trimmed_iff.mpr ⟨valid.noTransferEncoding,
    valid.contentLengthOnce, valid.contentLengthValue, valid.bodyLength⟩

theorem MessageParts.Valid.inspected {parts : MessageParts}
    (valid : parts.Valid) :
    httpInspectMessageFraming (parts.bytes.take parts.header.length) [] =
      (.ok parts.body.length, []) := by
  rw [MessageParts.bytes, List.take_left, MessageParts.header,
    httpInspectMessageFraming_section valid.requestLine_unbroken
      valid.fieldSyntax, framingVerdict_scanFields_iff.mpr valid.framed]

theorem parseSection_valid {parts : MessageParts} (valid : parts.Valid) :
    parseSection parts.bytes (parts.header.length - 4) parts.body.length []
      = { exit := .parsed, request := parts.request } := by
  have length := parts.header_length
  have lineEnd : 2 ≤ (parts.requestLine ++ crlf ++
      fieldLines parts.fields).length := by
    simp [crlf]
    omega
  have lines : parts.bytes.take (parts.header.length - 4 + 2) =
      parts.requestLine ++ crlf ++ fieldLines parts.fields := by
    rw [MessageParts.bytes, length, MessageParts.header,
      List.append_assoc _ crlf parts.body]
    exact List.take_left' (by omega)
  have body : parts.bytes.drop (parts.header.length - 4 + 4) =
      parts.body := by
    exact List.drop_left' (by omega)
  have limit := valid.framed.length_le
  rw [parseSection, lines,
    takeLine_append valid.requestLine_unbroken (fieldLines parts.fields)]
  simp only
  rw [MessageParts.requestLine,
    parseRequestLine_valid httpRequestInit valid.method
      valid.targetNonempty valid.targetSpace valid.targetNul valid.version
      valid.requestLineLength]
  simp only
  rw [parseHeaderLines_fieldLines parts.fields _ valid.fieldSyntax
    (by simpa [httpRequestInit, httpMaxHeaders] using valid.fieldCount)]
  simp only [parseBody]
  rw [storedBodyLength_eq_ok_iff.mpr (by
    simpa [httpRequestInit] using valid.framed), body]
  rcases bodyBytes : parts.body with _ | ⟨first, rest⟩
  · simp [MessageParts.request, httpRequestInit, bodyBytes]
  · rw [bodyBytes] at limit
    simp only [httpMaxBodySize, List.length_cons] at limit
    have representable : ¬rest.length = 18446744073709551614 := by omega
    simp [MessageParts.request, httpRequestInit, bodyBytes, representable]

theorem httpParseRequest_bytes {parts : MessageParts}
    (valid : parts.Valid) :
    httpParseRequest parts.bytes [] =
      { exit := .parsed, request := parts.request } := by
  have headerLength : 4 ≤ parts.header.length := by
    simp [MessageParts.header, crlf]
    omega
  have small : ¬parts.header.length > httpMaxHeaderBytes :=
    Nat.not_lt.mpr valid.headerLength
  have whole : parts.header.length - 4 + 4 = parts.header.length := by omega
  have bytesLength : parts.bytes.length =
      parts.header.length + parts.body.length := List.length_append
  have nonempty : parts.bytes ≠ [] := by
    apply List.ne_nil_of_length_pos
    omega
  rw [httpParseRequest, if_neg nonempty, valid.terminator]
  simp only
  rw [whole, if_neg small, valid.inspected]
  simp only
  rw [if_neg (by omega), if_neg (by omega)]
  exact parseSection_valid valid

theorem ParseOutcome.result_eq_ok_iff (outcome : ParseOutcome) :
    outcome.result = .ok () ↔ outcome.exit = .parsed := by
  rw [ParseOutcome.result]
  cases outcome.exit <;> simp [ParseExit.result]

/-- Without allocation failures the parser accepts exactly the byte strings
of the grammar, and returns the record of the message it accepts. -/
theorem httpParseRequest_iff_grammar (data : Bytes) :
    ((httpParseRequest data []).result = .ok () ↔
      ∃ parts : MessageParts, parts.Valid ∧ data = parts.bytes) ∧
    ∀ parts : MessageParts, parts.Valid → data = parts.bytes →
      (httpParseRequest data []).request = parts.request := by
  refine ⟨⟨?_, ?_⟩, ?_⟩
  · intro success
    rw [ParseOutcome.result_eq_ok_iff] at success
    obtain ⟨parts, valid, bytes, _⟩ := httpParseRequest_parsed success
    exact ⟨parts, valid, bytes⟩
  · rintro ⟨parts, valid, rfl⟩
    rw [httpParseRequest_bytes valid]
    rfl
  · rintro parts valid rfl
    rw [httpParseRequest_bytes valid]

end CinderHTTP
