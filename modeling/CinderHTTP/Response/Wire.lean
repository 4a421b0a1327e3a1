import CinderHTTP.Http.HeaderFields
import CinderHTTP.Response.Streaming

/-!
# Responses on the wire

The header section that `http_response_serialize_headers` writes is a
sequence of lines, from which a recipient gets back the fields of the
response.  When a send succeeds, the bytes on the socket are that section and
the whole body.
-/

namespace CinderHTTP

/-! ## Header sections -/

/-- A field line cut at its first colon. -/
def fieldOf (line : Bytes) : Option Header :=
  (cutFirst colon line).map fun parts =>
    { name := parts.1, value := trimOws parts.2 }

/-- The fields behind the start line of a message. -/
def sectionFields (message : Bytes) : List Header :=
  ((sectionLines message).drop 1).filterMap fieldOf

/-- A field as it is written, with a space behind the colon. -/
def spaced (field : Header) : Header :=
  { field with value := space :: field.value }

/-- The headers of the response and those that are added to them. -/
def responseFields (response : Response) : List Header :=
  response.headers ++
    (if needServer response then
      [{ name := ascii "Server", value := ascii "CinderHTTP/1.0" }]
    else []) ++
    (if needConnection response then
      [{ name := ascii "Connection", value := ascii "close" }]
    else []) ++
    (if needContentLength response then
      [{ name := ascii "Content-Length"
         value := decimal response.bodyLength }]
    else [])

/-- The status line without its line end. -/
def statusText (response : Response) : Bytes :=
  ascii "HTTP/1.1 " ++ signedDecimal response.statusCode ++ [space] ++
    response.reasonPhrase

def responseLines (response : Response) : List Bytes :=
  statusText response ::
    (responseFields response).map fun field => rawLine (spaced field)

theorem lengthHeader_eq (response : Response) :
    lengthHeader response =
      headerLine { name := ascii "Content-Length"
                   value := decimal response.bodyLength } := by
  have text : ascii "Content-Length: " =
      ascii "Content-Length" ++ [colon, space] := by decide
  rw [lengthHeader, headerLine, text]

theorem serializedBytes_fields (response : Response) :
    serializedBytes response =
      statusText response ++ crlf ++
        ((responseFields response).map headerLine).flatten ++ crlf := by
  have server : serverHeader =
      headerLine { name := ascii "Server"
                   value := ascii "CinderHTTP/1.0" } := by decide
  have connection : connectionHeader =
      headerLine { name := ascii "Connection"
                   value := ascii "close" } := by decide
  unfold serializedBytes responseFields
  rw [server, connection, lengthHeader_eq]
  cases needServer response <;> cases needConnection response <;>
    cases needContentLength response <;>
    simp [statusLine, statusText]

theorem serializedBytes_joinLines (response : Response) :
    serializedBytes response =
      joinLines (responseLines response) ++ crlf := by
  have written : ∀ fields : List Header,
      (fields.map headerLine).flatten =
        joinLines (fields.map fun field => rawLine (spaced field)) := by
    intro fields
    induction fields with
    | nil => rfl
    | cons field fields induction =>
        rw [List.map_cons, List.flatten_cons, induction, List.map_cons,
          joinLines_cons]
        simp [headerLine, rawLine, spaced]
  rw [serializedBytes_fields, written, responseLines, joinLines_cons]

/-- The size computed in advance is the number of bytes written. -/
theorem serializedBytes_length (response : Response) :
    (serializedBytes response).length = serializedTotal response := by
  have lines : ∀ fields : List Header,
      (fields.map headerLine).flatten.length =
        (fields.map fun field =>
          field.name.length + 2 + (field.value.length + 2)).sum := by
    intro fields
    induction fields with
    | nil => rfl
    | cons field fields induction =>
        rw [List.map_cons, List.flatten_cons, List.length_append, induction]
        simp [headerLine, crlf]
        omega
  unfold serializedBytes serializedTotal
  simp only [List.length_append, lines, apply_ite List.length,
    List.length_nil]
  rfl

theorem httpReasonPhrase_plain (statusCode : Int) :
    cr ∉ httpReasonPhrase statusCode ∧ lf ∉ httpReasonPhrase statusCode ∧
      (httpReasonPhrase statusCode).length ≤ 26 := by
  unfold httpReasonPhrase
  split <;> decide

/-- Nothing in the header section breaks a line, and values carry no blanks
around them. -/
structure Response.Tidy (response : Response) : Prop where
  reason : lf ∉ response.reasonPhrase
  names : ∀ field ∈ response.headers, lf ∉ field.name ∧ colon ∉ field.name
  values : ∀ field ∈ response.headers,
    lf ∉ field.value ∧ trimOws field.value = field.value

theorem not_mem_decimal {mark : Byte} (other : isDigit mark = false)
    (value : Nat) : mark ∉ decimal value := by
  intro member
  rw [isDigit_of_mem_decimal member] at other
  cases other

theorem not_mem_signedDecimal {mark : Byte} (other : isDigit mark = false)
    (sign : mark ≠ byte '-') (value : Int) : mark ∉ signedDecimal value := by
  unfold signedDecimal
  split_ifs
  · rw [List.mem_cons, not_or]
    exact ⟨sign, not_mem_decimal other _⟩
  · exact not_mem_decimal other _

/-- A text that neither starts nor ends with a blank is left as it is. -/
theorem trimOws_of_ends {text : Bytes}
    (first : ∀ character, text.head? = some character →
      isOws character = false)
    (last : ∀ character, text.getLast? = some character →
      isOws character = false) :
    trimOws text = text := by
  have front : skipOws text = text := by
    apply List.dropWhile_eq_self_iff.mpr
    intro nonempty blank
    rw [first _ (List.head?_eq_getElem? ▸ List.getElem?_eq_getElem nonempty)]
      at blank
    cases blank
  rw [trimOws, front, trimOwsEnd]
  apply List.rdropWhile_eq_self_iff.mpr
  intro nonempty blank
  rw [last _ (List.getLast?_eq_some_getLast nonempty)] at blank
  cases blank

theorem trimOws_of_not_isOws {text : Bytes}
    (visible : ∀ character ∈ text, isOws character = false) :
    trimOws text = text := by
  apply trimOws_of_ends
  · intro character first
    exact visible character (List.mem_of_mem_head? first)
  · intro character last
    exact visible character (List.mem_of_mem_getLast? last)

theorem trimOws_decimal (value : Nat) :
    trimOws (decimal value) = decimal value := by
  apply trimOws_of_not_isOws
  intro character member
  have digit := isDigit_of_mem_decimal member
  by_contra blank
  have either : character = space ∨ character = tab := by
    simpa [isOws, or_iff_not_imp_left] using blank
  rcases either with rfl | rfl
  · revert digit
    decide
  · revert digit
    decide

theorem fieldOf_rawLine {field : Header} (noColon : colon ∉ field.name)
    (trimmedValue : trimOws field.value = field.value) :
    fieldOf (rawLine (spaced field)) = some field := by
  have cut : cutFirst colon (rawLine (spaced field)) =
      some (field.name, space :: field.value) :=
    cutFirst_rawLine noColon
  have blank : trimOws (space :: field.value) = field.value := by
    rw [trimOws, skipOws, List.dropWhile_cons_of_pos (by decide)]
    exact trimmedValue
  rw [fieldOf, cut, Option.map_some, blank]

theorem Response.Tidy.fields {response : Response} (tidy : response.Tidy) :
    ∀ field ∈ responseFields response,
      (lf ∉ field.name ∧ colon ∉ field.name) ∧
      (lf ∉ field.value ∧ trimOws field.value = field.value) := by
  intro field member
  simp only [responseFields, List.mem_append] at member
  rcases member with ((own | server) | connection) | length
  · exact ⟨tidy.names field own, tidy.values field own⟩
  · split_ifs at server
    · rw [List.mem_singleton.mp server]
      decide +kernel
    · simp at server
  · split_ifs at connection
    · rw [List.mem_singleton.mp connection]
      decide +kernel
    · simp at connection
  · split_ifs at length
    · have clean : lf ∉ ascii "Content-Length" ∧
          colon ∉ ascii "Content-Length" := by decide
      rw [List.mem_singleton.mp length]
      exact ⟨clean, not_mem_decimal (by decide) _, trimOws_decimal _⟩
    · simp at length

theorem responseLines_avoid {mark : Byte} (breaking : mark ∈ [cr, lf])
    {response : Response} (reason : mark ∉ response.reasonPhrase)
    (headers : ∀ field ∈ response.headers,
      mark ∉ field.name ∧ mark ∉ field.value) :
    ∀ line ∈ responseLines response, mark ∉ line := by
  have texts : ∀ mark ∈ [cr, lf], mark ∉ ascii "HTTP/1.1 " ∧
      mark ∉ ascii "Server" ∧ mark ∉ ascii "CinderHTTP/1.0" ∧
      mark ∉ ascii "Connection" ∧ mark ∉ ascii "close" ∧
      mark ∉ ascii "Content-Length" := by decide +kernel
  have marks : ∀ mark ∈ [cr, lf], isDigit mark = false ∧
      mark ≠ byte '-' ∧ mark ≠ space ∧ mark ≠ colon := by decide +kernel
  obtain ⟨version, server, product, connection, close, length⟩ :=
    texts mark breaking
  obtain ⟨other, sign, blank, separator⟩ := marks mark breaking
  have fields : ∀ field ∈ responseFields response,
      mark ∉ field.name ∧ mark ∉ field.value := by
    intro field member
    simp only [responseFields, List.mem_append] at member
    rcases member with ((own | added) | added) | added
    · exact headers field own
    · split_ifs at added
      · rw [List.mem_singleton.mp added]
        exact ⟨server, product⟩
      · cases added
    · split_ifs at added
      · rw [List.mem_singleton.mp added]
        exact ⟨connection, close⟩
      · cases added
    · split_ifs at added
      · rw [List.mem_singleton.mp added]
        exact ⟨length, not_mem_decimal other _⟩
      · cases added
  intro line member
  rcases List.mem_cons.mp member with rfl | inFields
  · simp [statusText, not_mem_signedDecimal other sign, reason, blank,
      version]
  · obtain ⟨field, inField, rfl⟩ := List.mem_map.mp inFields
    obtain ⟨name, value⟩ := fields field inField
    simp [rawLine, spaced, name, value, blank, separator]

theorem Response.Tidy.lines_unbroken {response : Response}
    (tidy : response.Tidy) :
    ∀ line ∈ responseLines response, lf ∉ line := by
  apply responseLines_avoid (by decide) tidy.reason
  intro field member
  exact ⟨(tidy.names field member).1, (tidy.values field member).1⟩

theorem responseLines_nonempty (response : Response) :
    ∀ line ∈ responseLines response, line ≠ [] := by
  intro line member
  rcases List.mem_cons.mp member with rfl | inFields
  · simp [statusText]
  · obtain ⟨field, _, rfl⟩ := List.mem_map.mp inFields
    exact rawLine_ne_nil _

/-- A recipient reads the fields of the response. -/
theorem sectionFields_serialized {response : Response}
    (tidy : response.Tidy) (rest : Bytes) :
    sectionFields (serializedBytes response ++ rest) =
      responseFields response := by
  have lines : sectionLines (serializedBytes response ++ rest) =
      responseLines response := by
    rw [serializedBytes_joinLines]
    exact sectionLines_joinLines rest tidy.lines_unbroken
      (responseLines_nonempty response)
  have fields := tidy.fields
  rw [sectionFields, lines, responseLines, List.drop_one, List.tail_cons]
  generalize responseFields response = members at fields
  induction members with
  | nil => rfl
  | cons field others induction =>
      obtain ⟨⟨_, noColon⟩, _, trimmedValue⟩ := fields field (by simp)
      rw [List.map_cons, List.filterMap_cons_some
        (fieldOf_rawLine noColon trimmedValue), induction]
      intro other member
      exact fields other (List.mem_cons_of_mem _ member)

/-- The fields of a given name. -/
def fieldsNamed (name : Bytes) (fields : List Header) : List Header :=
  fields.filter fun field => headerNameEqual field.name name

/-- A response without a Content-Length of its own gets exactly one. -/
theorem responseFields_contentLength {response : Response}
    (own : ∀ field ∈ response.headers,
      headerNameEqual field.name (ascii "Content-Length") = false) :
    fieldsNamed (ascii "Content-Length") (responseFields response) =
      [{ name := ascii "Content-Length"
         value := decimal response.bodyLength }] := by
  have none : (response.headers.filter fun field =>
      headerNameEqual field.name (ascii "Content-Length")) = [] := by
    rw [List.filter_eq_nil_iff]
    intro field member
    rw [own field member]
    exact Bool.false_ne_true
  have needed : needContentLength response = true := by
    simpa [needContentLength, responseHasHeader] using own
  have server : headerNameEqual (ascii "Server")
      (ascii "Content-Length") = false := by decide
  have connection : headerNameEqual (ascii "Connection")
      (ascii "Content-Length") = false := by decide
  have length : headerNameEqual (ascii "Content-Length")
      (ascii "Content-Length") = true := headerNameEqual_self _
  unfold fieldsNamed responseFields
  rw [needed]
  cases needServer response <;> cases needConnection response <;>
    simp [none, server, connection, length]

/-- The header section ends at the first blank line. -/
theorem findInfix_serialized {response : Response} (tidy : response.Tidy)
    (rest : Bytes) :
    findInfix blankLine (serializedBytes response ++ rest) =
      some ((serializedBytes response).length - 4) := by
  have unbroken := tidy.lines_unbroken
  have nonempty := responseLines_nonempty response
  rw [responseLines] at unbroken nonempty
  rw [serializedBytes_joinLines, responseLines,
    findInfix_blankLine_joinLines rest (unbroken _ (by simp))
      (fun line member => unbroken line (List.mem_cons_of_mem _ member))
      (fun line member => nonempty line (List.mem_cons_of_mem _ member)),
    List.length_append]
  rfl

/-! ## Status lines -/

/-- The status code that a recipient finds at the front of a message. -/
def wireStatus (message : Bytes) : Option Nat :=
  match cutFirst space message with
  | none => none
  | some (version, rest) =>
      if version ≠ ascii "HTTP/1.1" then none
      else
        match cutFirst space rest with
        | none => none
        | some (code, _) =>
            if code ≠ [] ∧ code.all isDigit = true then
              some (decimalValue code)
            else none

theorem wireStatus_serialized {response : Response}
    (nonnegative : 0 ≤ response.statusCode) (rest : Bytes) :
    wireStatus (serializedBytes response ++ rest) =
      some response.statusCode.toNat := by
  obtain ⟨behind, shape⟩ : ∃ behind, serializedBytes response ++ rest =
      ascii "HTTP/1.1" ++ space ::
        (decimal response.statusCode.toNat ++ space :: behind) := by
    have version : ascii "HTTP/1.1 " = ascii "HTTP/1.1" ++ [space] := by
      decide
    have numeral : signedDecimal response.statusCode =
        decimal response.statusCode.toNat := by
      have same : response.statusCode.natAbs =
          response.statusCode.toNat := by
        omega
      rw [signedDecimal, if_neg (Int.not_lt.mpr nonnegative), same]
    unfold serializedBytes statusLine
    rw [version, numeral]
    simp only [List.append_assoc, List.singleton_append]
    exact ⟨_, rfl⟩
  have digits : (decimal response.statusCode.toNat).all isDigit = true := by
    rw [List.all_eq_true]
    intro digit member
    exact isDigit_of_mem_decimal member
  rw [shape, wireStatus, cutFirst_append_cons (by decide)]
  simp only [ne_eq, not_true_eq_false, if_false]
  rw [cutFirst_append_cons (not_mem_decimal (by decide) _)]
  simp only
  rw [if_pos ⟨decimal_ne_nil _, digits⟩, decimalValue_decimal]

/-! ## Bodies -/

theorem sendAll_success {buffer : Bytes} {script : List SendAnswer}
    (success : (sendAll buffer script).success = true) :
    (sendAll buffer script).sent = buffer := by
  fun_induction sendAll buffer script with
  | case1 => rfl
  | case2 => rfl
  | case3 buffer script _ induction => exact induction success
  | case4 => simp at success
  | case5 => simp at success
  | case6 buffer script _ size count rest induction =>
      rw [induction success, List.take_append_drop]

/-- A file body that was sent is the beginning of the file, in the announced
length. -/
theorem sendFileBody_success {file : OpenFile} {length : Nat}
    {transfer : Transfer}
    (success : (sendFileBody file length transfer).success = true) :
    (sendFileBody file length transfer).sent = file.content.take length ∧
      (file.content.take length).length = length := by
  obtain ⟨later, reachable⟩ :=
    StreamReachable.sendFileBody file length transfer
  obtain ⟨whole, inside⟩ := reachable.streamed.exact.complete
    (by rw [success])
  exact ⟨whole, List.length_take_of_le inside⟩

/-- The bytes that a body stands for. -/
def bodyBytes (response : Response) : Bytes :=
  match response.bodyKind with
  | .none => []
  | .memory => (response.body.getD []).take response.bodyLength
  | .file =>
      match response.fileFd with
      | none => []
      | some descriptor =>
          descriptor.file.content.take response.bodyLength

/-- The length in the response is the length of what it holds. -/
def Response.BodyMatches (response : Response) : Prop :=
  match response.bodyKind with
  | .none => response.bodyLength = 0
  | .memory => ∃ body, response.body = some body ∧
      body.length = response.bodyLength
  | .file => response.fileFd.isSome = true

theorem sendBody_success {response : Response} {transfer : Transfer}
    (matched : response.BodyMatches)
    (success : (sendBody response transfer).success = true) :
    (sendBody response transfer).sent = bodyBytes response ∧
      (bodyBytes response).length = response.bodyLength := by
  unfold sendBody at success ⊢
  unfold bodyBytes
  unfold Response.BodyMatches at matched
  cases kind : response.bodyKind with
  | none =>
      simp only [kind] at matched ⊢
      exact ⟨trivial, matched.symm⟩
  | memory =>
      simp only [kind] at matched success ⊢
      obtain ⟨body, held, length⟩ := matched
      rw [held, Option.getD_some, ← length, List.take_length]
      by_cases empty : body.length = 0
      · rw [if_pos empty, List.length_eq_zero_iff.mp empty]
        exact ⟨rfl, rfl⟩
      · rw [← length, if_neg empty, held] at success
        simp only [List.take_length] at success ⊢
        rw [if_neg empty]
        exact ⟨sendAll_success success, trivial⟩
  | file =>
      simp only [kind] at matched success ⊢
      obtain ⟨descriptor, held⟩ := Option.isSome_iff_exists.mp matched
      simp only [held] at success ⊢
      exact sendFileBody_success success

theorem httpResponseSerializeHeaders_some {response : Response}
    {process later : Process} {bytes : Bytes}
    (success : httpResponseSerializeHeaders response process =
      (some bytes, later)) : bytes = serializedBytes response := by
  unfold httpResponseSerializeHeaders at success
  simp only at success
  split_ifs at success
  all_goals simp only [Prod.mk.injEq, Option.some.injEq, reduceCtorEq,
    false_and] at success
  exact success.1.symm

/-- The status line and the length fit their buffers. -/
def Response.Fits (response : Response) : Prop :=
  (statusLine response).length < statusLineSize ∧
    (lengthHeader response).length < lengthHeaderSize

theorem lengthHeader_length_lt {response : Response}
    (bounded : response.bodyLength < 10 ^ 20) :
    (lengthHeader response).length < lengthHeaderSize := by
  have digits := decimal_length_le (by decide) bounded
  have text : (ascii "Content-Length: ").length = 16 := by decide
  have lineEnd : crlf.length = 2 := by decide
  rw [lengthHeader, List.length_append, List.length_append, text, lineEnd,
    lengthHeaderSize]
  omega

/-- A status that was set by `http_response_set_status` and a length, both in
the range of their types, fit. -/
theorem fits_of_range {response : Response}
    (reason : response.reasonPhrase = httpReasonPhrase response.statusCode)
    (code : -2 ^ 31 ≤ response.statusCode ∧ response.statusCode < 2 ^ 31)
    (size : response.bodyLength < 2 ^ 64) : response.Fits := by
  have short : response.bodyLength < 10 ^ 20 :=
    Nat.lt_trans size (by decide)
  refine ⟨?_, lengthHeader_length_lt short⟩
  have digits : (decimal response.statusCode.natAbs).length ≤ 10 := by
    apply decimal_length_le (by decide)
    omega
  have numeral : (signedDecimal response.statusCode).length ≤ 11 := by
    unfold signedDecimal
    split_ifs
    · rw [List.length_cons]
      omega
    · omega
  have phrase := (httpReasonPhrase_plain response.statusCode).2.2
  have version : (ascii "HTTP/1.1 ").length = 9 := by decide
  have lineEnd : crlf.length = 2 := by decide
  rw [statusLine, reason]
  simp only [List.length_append, List.length_singleton, version, lineEnd,
    statusLineSize]
  omega

theorem httpResponseSerializeHeaders_granted {response : Response}
    {process : Process} (fits : response.Fits)
    (granted : process.allocs = []) :
    httpResponseSerializeHeaders response process =
      (some (serializedBytes response), process) := by
  unfold httpResponseSerializeHeaders
  rw [if_neg (Nat.not_le.mpr fits.1), if_neg (Nat.not_le.mpr fits.2)]
  simp [Process.malloc_granted granted, serializedBytes_length]

/-- A response that was sent is on the socket as a whole. -/
theorem httpResponseSend_success {response : Response} {omitBody : Bool}
    {process : Process} {transfer : Transfer}
    (matched : response.BodyMatches)
    (success : (httpResponseSend response omitBody process
      transfer).1.success = true) :
    (httpResponseSend response omitBody process transfer).1.sent =
        serializedBytes response ++
          (if omitBody then [] else bodyBytes response) ∧
      (omitBody = false →
        (bodyBytes response).length = response.bodyLength) := by
  unfold httpResponseSend at success ⊢
  rcases serialized : httpResponseSerializeHeaders response process with
    ⟨_ | headers, later⟩
  · simp [serialized] at success
  have bytes := httpResponseSerializeHeaders_some serialized
  subst bytes
  simp only [serialized] at success ⊢
  by_cases headSent :
      (sendAll (serializedBytes response) transfer.sends).success = true
  · have head := sendAll_success headSent
    simp only [headSent, Bool.not_true, Bool.false_eq_true,
      if_false] at success ⊢
    cases omitBody with
    | true => simp [head]
    | false =>
        simp only [Bool.false_eq_true, if_false] at success ⊢
        obtain ⟨sent, full⟩ := sendBody_success matched success
        exact ⟨by rw [head, sent], fun _ => full⟩
  · simp [headSent] at success

end CinderHTTP
