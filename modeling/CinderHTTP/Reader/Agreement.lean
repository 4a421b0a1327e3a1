import CinderHTTP.Http.Grammar
import CinderHTTP.Reader.Segmentation

/-!
# Reader and parser agree on framing

The reader cuts a message off the stream with the framing walk, which
compares names as C strings; the parser checks the same message with the same
walk and again on the headers it has stored.  A message of the reader passes
all framing checks of the parser: if it is refused, its request line or one
of its header lines is.
-/

namespace CinderHTTP

/-- The verdict on a message does not need the bytes behind it. -/
theorem frameHead_of_append {message rest : Bytes}
    (framed : frameHead (message ++ rest) = .ok message.length) :
    frameHead message = .ok message.length := by
  obtain ⟨terminator, bodyLength, found, small, framing, total, _⟩ :=
    frameHead_eq_ok_iff.mp framed
  have inside : httpFindHeaderTerminator message = some terminator := by
    have taken : findInfix blankLine
        ((message ++ rest).take message.length) = some terminator :=
      findInfix_take found (by rw [total]; exact Nat.le_add_right _ _)
    rwa [List.take_left] at taken
  have header : (message ++ rest).take (terminator + 4) =
      message.take (terminator + 4) :=
    List.take_append_of_le_length (by omega)
  rw [header] at framing
  exact frameHead_eq_ok_iff.mpr ⟨terminator, bodyLength, inside, small,
    framing, total, Nat.le_refl _⟩

/-! ## Failures of the line parsers -/

theorem storeRequestLine_failure {method target version : Bytes}
    {request stored : Request} {allocs later : Allocs}
    {failure : ParseError}
    (refused : storeRequestLine method target version request allocs =
      ((.error failure, stored), later)) :
    failure = .badRequest ∨ failure = .unsupportedMethod ∨
      failure = .unsupportedVersion ∨ failure = .outOfMemory := by
  unfold storeRequestLine at refused
  simp only at refused
  split_ifs at refused
  all_goals
    simp only [Prod.mk.injEq, Except.error.injEq, reduceCtorEq,
      false_and] at refused
  all_goals
    obtain ⟨⟨rfl, _⟩, _⟩ := refused
    simp

theorem parseRequestLine_failure {line : Bytes} {request stored : Request}
    {allocs later : Allocs} {failure : ParseError}
    (refused : parseRequestLine line request allocs =
      ((.error failure, stored), later)) :
    (failure = .tooLarge ∧ line.length > httpMaxRequestLine) ∨
      failure = .badRequest ∨ failure = .unsupportedMethod ∨
      failure = .unsupportedVersion ∨ failure = .outOfMemory := by
  have outcome := parseRequestLine_outcome line request allocs
  generalize parseRequestLine line request allocs = result
    at refused outcome
  cases outcome with
  | tooLarge long =>
      cases refused
      exact .inl ⟨rfl, long⟩
  | malformed after =>
      cases refused
      exact .inr (.inl rfl)
  | unallocated missing =>
      cases refused
      exact .inr (.inr (.inr (.inr rfl)))
  | stored fields token => exact .inr (storeRequestLine_failure refused)

theorem parseHeaderLines_failure {cursor : Bytes}
    {request stored : Request} {allocs later : Allocs}
    {failure : ParseError}
    (refused : parseHeaderLines cursor request allocs =
      ((.refused failure, stored), later)) :
    failure = .badRequest ∨ failure = .tooManyHeaders ∨
      failure = .outOfMemory := by
  fun_induction parseHeaderLines cursor request allocs with
  | case1 | case2 => simp at refused
  | case3 cursor request allocs nonempty line rest taken other partly
      afterLine stopped =>
      simp only [Prod.mk.injEq, HeaderLoopExit.refused.injEq] at refused
      rw [← refused.1.1]
      exact parseHeaderLine_failure stopped
  | case4 cursor request allocs nonempty line rest taken _ partly
      afterLine accepted induction => exact induction refused

/-! ## Agreement -/

theorem storedBodyLength_of_framing {header line : Bytes}
    {fields : List Header} {length : Nat} {request : Request}
    (section_ : header = line ++ crlf ++ fieldLines fields ++ crlf)
    (unbroken : lf ∉ line) (valid : ∀ field ∈ fields, FieldSyntax field)
    (framing : (httpInspectMessageFraming header []).1 = .ok length)
    (stored : request.headers = fields.map trimmed) :
    storedBodyLength request = .ok length := by
  rw [section_, httpInspectMessageFraming_section unbroken valid] at framing
  rw [storedBodyLength_eq_ok_iff, stored]
  exact framingVerdict_scanFields_iff.mp framing

/-- The exits of the parser on a message whose framing walk announced a
body length. -/
inductive LineExit (message : Bytes) (bodyLength : Nat)
    (outcome : ParseOutcome) : Prop where
  | requestLineUnterminated :
      outcome.exit = .requestLineUnterminated →
      LineExit message bodyLength outcome
  | requestLine {failure : ParseError} :
      outcome.exit = .requestLine failure →
      failure ≠ .invalidContentLength →
      failure ≠ .unsupportedTransferEncoding →
      (failure = .tooLarge →
        ∃ line rest, message = line ++ crlf ++ rest ∧ lf ∉ line ∧
          line.length > httpMaxRequestLine) →
      LineExit message bodyLength outcome
  | headerUnterminated :
      outcome.exit = .headerUnterminated →
      LineExit message bodyLength outcome
  | headerLine {failure : ParseError} :
      outcome.exit = .headerLine failure →
      failure = .badRequest ∨ failure = .tooManyHeaders ∨
        failure = .outOfMemory →
      LineExit message bodyLength outcome
  | parsed :
      outcome.exit = .parsed →
      storedBodyLength outcome.request = .ok bodyLength →
      outcome.request.body.length = bodyLength →
      LineExit message bodyLength outcome

theorem parseBody_agreed {message : Bytes} {headerBytes length : Nat}
    {request : Request} (stored : storedBodyLength request = .ok length)
    (bounded : length ≤ httpMaxBodySize)
    (total : message.length = headerBytes + length)
    (fresh : request.body = []) :
    LineExit message length
      (parseBody message headerBytes length request []) := by
  have representable : length ≠ 2 ^ 64 - 1 := by
    simp only [httpMaxBodySize] at bounded
    omega
  unfold parseBody
  rw [stored]
  simp only [ne_eq, not_true_eq_false, if_false, representable, malloc_nil,
    Bool.not_true, Bool.false_eq_true]
  split_ifs with positive
  · refine .parsed rfl stored ?_
    simp only [List.length_take, List.length_drop]
    omega
  · refine .parsed rfl stored ?_
    rw [fresh, List.length_nil]
    omega

theorem parseSection_lineExit {message : Bytes}
    {terminator bodyLength : Nat}
    (found : httpFindHeaderTerminator message = some terminator)
    (framing : (httpInspectMessageFraming (message.take (terminator + 4))
      []).1 = .ok bodyLength)
    (total : message.length = terminator + 4 + bodyLength) :
    LineExit message bodyLength
      (parseSection message terminator bodyLength []) := by
  obtain ⟨header, around⟩ := httpFindHeaderTerminator_split found
  have bounded : bodyLength ≤ httpMaxBodySize :=
    httpInspectMessageFraming_bounded (Prod.ext framing rfl)
  unfold parseSection
  cases taken : takeLine (message.take (terminator + 2)) with
  | none => exact .requestLineUnterminated rfl
  | some cut =>
      obtain ⟨line, cursor⟩ := cut
      obtain ⟨section_, unbroken⟩ := takeLine_eq_some_iff.mp taken
      simp only
      rcases lineResult : parseRequestLine line httpRequestInit [] with
        ⟨⟨failure | ⟨⟩, stored⟩, later⟩
      · have reasons := parseRequestLine_failure lineResult
        refine .requestLine rfl ?_ ?_ ?_
        · rintro rfl
          simp at reasons
        · rintro rfl
          simp at reasons
        · rintro rfl
          refine ⟨line, cursor ++ crlf ++ message.drop (terminator + 4), ?_,
            unbroken, by simpa using reasons⟩
          rw [section_] at around
          simpa only [List.append_assoc] using around
      obtain ⟨method, target, version, rfl, methodKnown, targetNonempty,
        targetSpace, targetNul, versionKnown, lineLength, rfl⟩ :=
          parseRequestLine_ok lineResult
      rw [parseRequestLine_valid httpRequestInit methodKnown targetNonempty
        targetSpace targetNul versionKnown lineLength] at lineResult
      cases lineResult
      simp only
      rcases walk : parseHeaderLines cursor _ [] with
        ⟨⟨_ | _ | failure, request⟩, rest⟩
      · obtain ⟨fields, rfl, valid, fits, rfl⟩ :=
          parseHeaderLines_finished (by simp [httpRequestInit]) walk
        rw [parseHeaderLines_fieldLines fields _ valid fits] at walk
        cases walk
        refine parseBody_agreed ?_ bounded total rfl
        refine storedBodyLength_of_framing ?_ unbroken valid framing ?_
        · rw [header, section_]
        · simp [httpRequestInit]
      · exact .headerUnterminated rfl
      · exact .headerLine rfl (parseHeaderLines_failure walk)

/-- A message that the stream frames passes the framing checks of the
parser. -/
theorem httpParseRequest_lineExit {message : Bytes}
    (framed : frameHead message = .ok message.length) :
    ∃ terminator bodyLength,
      httpFindHeaderTerminator message = some terminator ∧
      (httpInspectMessageFraming (message.take (terminator + 4)) []).1 =
        .ok bodyLength ∧
      LineExit message bodyLength (httpParseRequest message []) := by
  obtain ⟨terminator, bodyLength, found, small, framing, total, _⟩ :=
    frameHead_eq_ok_iff.mp framed
  refine ⟨terminator, bodyLength, found, framing, ?_⟩
  have nonempty : message ≠ [] := by
    apply List.ne_nil_of_length_pos
    omega
  have announced : httpInspectMessageFraming
      (message.take (terminator + 4)) [] = (.ok bodyLength, []) :=
    Prod.ext framing (httpInspectMessageFraming_nil _)
  rw [httpParseRequest, if_neg nonempty, found]
  simp only
  rw [if_neg (by omega), announced]
  simp only
  rw [if_neg (by omega), if_neg (by omega)]
  exact parseSection_lineExit found framing total

/-- The parser does not refuse a message for its framing, and both walks
over the header section of a parsed message give the length of its body. -/
structure FramingAgreement (message : Bytes) (outcome : ParseOutcome) :
    Prop where
  framing : ∀ failure, outcome.exit ≠ .framing failure
  incomplete : outcome.exit ≠ .incomplete
  leftover : outcome.exit ≠ .leftover
  transferEncoding : outcome.exit ≠ .transferEncoding
  duplicateContentLength : outcome.exit ≠ .duplicateContentLength
  contentLength : ∀ failure, outcome.exit ≠ .contentLength failure
  bodyMismatch : outcome.exit ≠ .bodyMismatch
  noInvalidContentLength :
    outcome.result ≠ .error .invalidContentLength
  noUnsupportedTransferEncoding :
    outcome.result ≠ .error .unsupportedTransferEncoding
  tooLarge : outcome.result = .error .tooLarge →
    ∃ line rest, message = line ++ crlf ++ rest ∧ lf ∉ line ∧
      line.length > 8192
  sameLength : outcome.result = .ok () →
    ∃ terminator bodyLength,
      httpFindHeaderTerminator message = some terminator ∧
      (httpInspectMessageFraming (message.take (terminator + 4)) []).1 =
        .ok bodyLength ∧
      storedBodyLength outcome.request = .ok bodyLength ∧
      outcome.request.body.length = bodyLength

/-- The exits at which the parser does not disagree with the framing walk. -/
def ParseExit.agreed : ParseExit → Bool
  | .framing _ | .incomplete | .leftover | .transferEncoding
  | .duplicateContentLength | .contentLength _ | .bodyMismatch => false
  | _ => true

theorem FramingAgreement.of_agreed {message : Bytes} {outcome : ParseOutcome}
    (agreed : outcome.exit.agreed = true)
    (noLength : outcome.result ≠ .error .invalidContentLength)
    (noCoding : outcome.result ≠ .error .unsupportedTransferEncoding)
    (tooLarge : outcome.result = .error .tooLarge →
      ∃ line rest, message = line ++ crlf ++ rest ∧ lf ∉ line ∧
        line.length > 8192)
    (sameLength : outcome.result = .ok () →
      ∃ terminator bodyLength,
        httpFindHeaderTerminator message = some terminator ∧
        (httpInspectMessageFraming (message.take (terminator + 4)) []).1 =
          .ok bodyLength ∧
        storedBodyLength outcome.request = .ok bodyLength ∧
        outcome.request.body.length = bodyLength) :
    FramingAgreement message outcome := by
  have apart {exit : ParseExit} (disagreed : exit.agreed = false) :
      outcome.exit ≠ exit := by
    intro same
    rw [same, disagreed] at agreed
    cases agreed
  exact
    { framing := fun _ => apart rfl
      incomplete := apart rfl
      leftover := apart rfl
      transferEncoding := apart rfl
      duplicateContentLength := apart rfl
      contentLength := fun _ => apart rfl
      bodyMismatch := apart rfl
      noInvalidContentLength := noLength
      noUnsupportedTransferEncoding := noCoding
      tooLarge := tooLarge
      sameLength := sameLength }

theorem FramingAgreement.of_refused {message : Bytes}
    {outcome : ParseOutcome} {failure : ParseError}
    (agreed : outcome.exit.agreed = true)
    (result : outcome.result = .error failure)
    (noLength : failure ≠ .invalidContentLength)
    (noCoding : failure ≠ .unsupportedTransferEncoding)
    (tooLarge : failure = .tooLarge →
      ∃ line rest, message = line ++ crlf ++ rest ∧ lf ∉ line ∧
        line.length > 8192) :
    FramingAgreement message outcome := by
  apply FramingAgreement.of_agreed agreed
  · rw [result]
    simpa using noLength
  · rw [result]
    simpa using noCoding
  · rw [result]
    simpa using tooLarge
  · rw [result]
    intro success
    cases success

theorem LineExit.agreement {message : Bytes} {terminator bodyLength : Nat}
    {outcome : ParseOutcome}
    (found : httpFindHeaderTerminator message = some terminator)
    (framing : (httpInspectMessageFraming (message.take (terminator + 4))
      []).1 = .ok bodyLength)
    (lineExit : LineExit message bodyLength outcome) :
    FramingAgreement message outcome := by
  have agreed {exit : ParseExit} (left : outcome.exit = exit)
      (quiet : exit.agreed = true) : outcome.exit.agreed = true := by
    rw [left, quiet]
  have result {exit : ParseExit} (left : outcome.exit = exit) :
      outcome.result = exit.result := by
    rw [ParseOutcome.result, left]
  cases lineExit with
  | requestLineUnterminated exit =>
      exact .of_refused (agreed exit rfl) (result exit) (by decide)
        (by decide) (by simp)
  | requestLine exit noLength noCoding tooLarge =>
      exact .of_refused (agreed exit rfl) (result exit) noLength noCoding
        tooLarge
  | headerUnterminated exit =>
      exact .of_refused (agreed exit rfl) (result exit) (by decide)
        (by decide) (by simp)
  | headerLine exit reason =>
      apply FramingAgreement.of_refused (agreed exit rfl) (result exit)
      · rcases reason with rfl | rfl | rfl <;> decide
      · rcases reason with rfl | rfl | rfl <;> decide
      · rcases reason with rfl | rfl | rfl <;> simp
  | parsed exit stored length =>
      have success : outcome.result = .ok () := result exit
      apply FramingAgreement.of_agreed (agreed exit rfl)
      · simp [success]
      · simp [success]
      · simp [success]
      · intro _
        exact ⟨terminator, bodyLength, found, framing, stored, length⟩

/-- Without allocation failures in the parser, every message that the reader
returns, under any answers of the kernel, is framed alike by both. -/
theorem httpReaderNextRequest_framingAgreement (timeouts : ReadTimeouts)
    (reader : Reader) (pending : Bytes) (env : ReadEnv) (message : Bytes)
    (success : (httpReaderNextRequest timeouts reader pending
      env).exit.result = .ok message) :
    FramingAgreement message (httpParseRequest message []) := by
  obtain ⟨framedStream, whole⟩ := httpReaderNextRequest_message success
  rw [whole] at framedStream
  obtain ⟨terminator, bodyLength, found, framing, lineExit⟩ :=
    httpParseRequest_lineExit (frameHead_of_append framedStream)
  exact lineExit.agreement found framing

/-- A message with a blank before the colon: the framing walk does not take
the field for a length, and the parser refuses the line. -/
theorem httpReaderNextRequest_framingAgreement_blank :
    FramingAgreement
      (ascii "POST / HTTP/1.1\r\nContent-Length : 3\r\n\r\n")
      (httpParseRequest
        (ascii "POST / HTTP/1.1\r\nContent-Length : 3\r\n\r\n") []) :=
  httpReaderNextRequest_framingAgreement ⟨15, 30⟩ httpReaderInit
    (ascii "POST / HTTP/1.1\r\nContent-Length : 3\r\n\r\nabc") {} _
    (by decide +kernel)

/-! ## Messages of the grammar -/

theorem MessageParts.Valid.frameHead {parts : MessageParts}
    (valid : parts.Valid) :
    CinderHTTP.frameHead parts.bytes = .ok parts.bytes.length := by
  have blank : 4 ≤ parts.header.length := by
    simp [MessageParts.header, crlf]
    omega
  have whole : parts.header.length - 4 + 4 = parts.header.length :=
    Nat.sub_add_cancel blank
  refine frameHead_eq_ok_iff.mpr ⟨parts.header.length - 4,
    parts.body.length, valid.terminator, ?_, ?_, ?_, Nat.le_refl _⟩
  · rw [whole]
    exact valid.headerLength
  · rw [whole, valid.inspected]
  · rw [whole]
    exact List.length_append

/-- A framed message at the front of the stream is returned unless the call
times out, when nothing else goes wrong. -/
theorem httpReaderNextRequest_returns {timeouts : ReadTimeouts}
    {reader : Reader} {pending message rest : Bytes} {env : ReadEnv}
    (framed : frameHead message = .ok message.length)
    (stream : reader.data ++ pending = message ++ rest)
    (calm : env.Undisturbed)
    (prompt : (httpReaderNextRequest timeouts reader pending
      env).exit.result ≠ .error .timeout) :
    (httpReaderNextRequest timeouts reader pending env).exit.result =
        .ok message ∧
      (httpReaderNextRequest timeouts reader pending env).reader.data ++
        (httpReaderNextRequest timeouts reader pending env).pending =
          rest := by
  have front : frameHead (reader.data ++ pending) = .ok message.length := by
    rw [stream, frameHead_append (by simp [framed]), framed]
  cases result : (httpReaderNextRequest timeouts reader pending
      env).exit.result with
  | error failure =>
      rcases httpReaderNextRequest_failure result with
        refused | late | ⟨_, disturbed⟩
      · rw [front] at refused
        cases refused
      · rw [result, late] at prompt
        exact absurd rfl prompt
      · exact absurd calm disturbed
  | ok returned =>
      obtain ⟨sameFrame, whole⟩ := httpReaderNextRequest_message result
      rw [front] at sameFrame
      rw [stream] at whole
      have split := List.append_inj whole (Except.ok.inj sameFrame)
      rw [split.1]
      exact ⟨rfl, split.2.symm⟩

end CinderHTTP
