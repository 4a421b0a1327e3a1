import CinderHTTP.Base.Buffer
import CinderHTTP.Response.Wire

/-!
# Serialization round-trips

`http_response_serialize_headers` computes the size of the header section,
then writes it piece by piece.  For a response whose headers are well formed
the pieces fill the buffer exactly, and a recipient who splits the section at
CRLF and each line at its first colon gets back the status line and the
headers of the response, with those that the serializer adds.
-/

namespace CinderHTTP

/-! ## Regular responses -/

/-- The status was set by `http_response_set_status`, the numbers are those of
the types of the source, and the headers can be told apart on the wire. -/
structure Response.Regular (response : Response) : Prop where
  reason : response.reasonPhrase = httpReasonPhrase response.statusCode
  code : -2 ^ 31 ≤ response.statusCode ∧ response.statusCode < 2 ^ 31
  size : response.bodyLength < 2 ^ 64
  names : ∀ field ∈ response.headers, field.name ≠ [] ∧
    ∀ mark ∈ [colon, cr, lf, nul], mark ∉ field.name
  values : ∀ field ∈ response.headers,
    (∀ mark ∈ [cr, lf, nul], mark ∉ field.value) ∧
    ∀ blank ∈ [space, tab], field.value.head? ≠ some blank ∧
      field.value.getLast? ≠ some blank

/-- Some header has the name, in whatever case. -/
def Response.Carries (response : Response) (name : Bytes) : Prop :=
  ∃ field ∈ response.headers,
    field.name.map asciiTolower = name.map asciiTolower

instance (response : Response) (name : Bytes) :
    Decidable (response.Carries name) :=
  inferInstanceAs (Decidable (∃ field ∈ response.headers, _))

/-- The headers that a recipient gets to see, in order. -/
def visibleHeaders (response : Response) : List Header :=
  response.headers ++
    (if response.Carries (ascii "Server") then []
    else [{ name := ascii "Server", value := ascii "CinderHTTP/1.0" }]) ++
    (if response.Carries (ascii "Connection") ∨
        response.suppressAutoConnectionClose = true then []
    else [{ name := ascii "Connection", value := ascii "close" }]) ++
    (if response.Carries (ascii "Content-Length") then []
    else [{ name := ascii "Content-Length"
            value := decimal response.bodyLength }])

theorem responseHasHeader_iff (response : Response) (name : Bytes) :
    responseHasHeader response name = true ↔ response.Carries name := by
  simp only [responseHasHeader, List.any_eq_true, headerNameEqual_iff,
    Response.Carries]

theorem responseFields_eq_visibleHeaders (response : Response) :
    responseFields response = visibleHeaders response := by
  have answers : ∀ name, responseHasHeader response name =
      decide (response.Carries name) := by
    intro name
    rw [Bool.eq_iff_iff, responseHasHeader_iff, decide_eq_true_iff]
  unfold responseFields visibleHeaders needServer needConnection
    needContentLength
  simp only [answers]
  by_cases server : response.Carries (ascii "Server") <;>
    by_cases connection : response.Carries (ascii "Connection") <;>
    by_cases length : response.Carries (ascii "Content-Length") <;>
    cases response.suppressAutoConnectionClose <;>
    simp [server, connection, length]

namespace Response.Regular

variable {response : Response}

theorem tidy (regular : response.Regular) : response.Tidy := by
  constructor
  · rw [regular.reason]
    exact (httpReasonPhrase_plain _).2.1
  · intro field member
    have clean := (regular.names field member).2
    exact ⟨clean lf (by decide), clean colon (by decide)⟩
  · intro field member
    obtain ⟨clean, ends⟩ := regular.values field member
    have visible : ∀ {character : Byte}, character ≠ space →
        character ≠ tab → isOws character = false := by
      intro character notSpace notTab
      simp [isOws, notSpace, notTab]
    refine ⟨clean lf (by decide), trimOws_of_ends ?_ ?_⟩
    · rintro character first
      apply visible
      · rintro rfl
        exact (ends space (by decide)).1 first
      · rintro rfl
        exact (ends tab (by decide)).1 first
    · rintro character last
      apply visible
      · rintro rfl
        exact (ends space (by decide)).2 last
      · rintro rfl
        exact (ends tab (by decide)).2 last

theorem fits (regular : response.Regular) : response.Fits :=
  fits_of_range regular.reason regular.code regular.size

theorem lines_plain (regular : response.Regular) :
    ∀ line ∈ responseLines response, cr ∉ line := by
  apply responseLines_avoid (by decide)
  · rw [regular.reason]
    exact (httpReasonPhrase_plain _).1
  · intro field member
    exact ⟨(regular.names field member).2 cr (by decide),
      (regular.values field member).1 cr (by decide)⟩

end Response.Regular

/-! ## Writing -/

/-- The pieces of one header, in the order in which they are written. -/
def headerPieces (header : Header) : List Bytes :=
  [header.name, [colon], [space], header.value, [cr], [lf]]

/-- The pieces of the section. -/
def sectionPieces (response : Response) : List Bytes :=
  statusLine response :: response.headers.flatMap headerPieces ++
    (if needServer response then [serverHeader] else []) ++
    (if needConnection response then [connectionHeader] else []) ++
    (if needContentLength response then [lengthHeader response] else []) ++
    [[cr], [lf]]

/-- Writing the section into the allocated buffer.  A write outside of it
gives nothing; a wrong final offset gives the error return of the source. -/
def writeSection (response : Response) (buffer : Bytes) :
    Option (Option Bytes) :=
  (copyAll buffer 0 (sectionPieces response)).bind fun written =>
    if written.2 ≠ serializedTotal response then some none
    else (copyAt written.1 (serializedTotal response) [nul]).map some

theorem sectionPieces_flatten (response : Response) :
    (sectionPieces response).flatten = serializedBytes response := by
  have headers : ∀ headers : List Header,
      (headers.flatMap headerPieces).flatten =
        (headers.map headerLine).flatten := by
    intro headers
    induction headers with
    | nil => rfl
    | cons header headers induction =>
        rw [List.flatMap_cons, List.flatten_append, induction, List.map_cons,
          List.flatten_cons]
        simp [headerPieces, headerLine, crlf]
  unfold sectionPieces serializedBytes
  simp only [List.cons_append, List.flatten_cons, List.flatten_append,
    headers, apply_ite List.flatten, List.flatten_nil, List.append_nil,
    List.append_assoc]
  rfl

theorem writeSection_exact {response : Response} {buffer : Bytes}
    (sized : buffer.length = serializedTotal response + 1) :
    writeSection response buffer =
      some (some (serializedBytes response ++ [nul])) := by
  rw [← serializedBytes_length, ← sectionPieces_flatten] at sized
  obtain ⟨last, written⟩ := copyAll_exact _ sized
  rw [sectionPieces_flatten, serializedBytes_length] at written
  have terminated : copyAt (serializedBytes response ++ [last])
      (serializedTotal response) [nul] =
        some (serializedBytes response ++ [nul]) := by
    have fits : [nul].length ≤ [last].length := Nat.le_refl 1
    rw [← serializedBytes_length, copyAt_append fits]
    simp
  rw [writeSection, written, Option.bind_some, if_neg (by simp), terminated,
    Option.map_some]

/-! ## Reading -/

theorem splitInfix_serialized {response : Response}
    (regular : response.Regular) :
    splitInfix crlf (serializedBytes response) =
      responseLines response ++ [[], []] := by
  have nothing : splitInfix crlf ([] : Bytes) = [[]] :=
    splitInfix_of_none rfl
  have blank : splitInfix crlf crlf = [[], []] := by
    have first := splitInfix_joinLines
      (show ∀ line ∈ [([] : Bytes)], cr ∉ line by simp) []
    rw [nothing] at first
    exact first
  rw [serializedBytes_joinLines, splitInfix_joinLines regular.lines_plain,
    blank]

theorem fieldOf_lines {response : Response} (tidy : response.Tidy) :
    ((responseFields response).map fun field =>
      fieldOf (rawLine (spaced field))) =
        (responseFields response).map some := by
  apply List.map_congr_left
  intro field member
  obtain ⟨⟨_, noColon⟩, _, trimmedValue⟩ := tidy.fields field member
  exact fieldOf_rawLine noColon trimmedValue

/-- What a recipient who splits the section finds. -/
structure ReadsBack (response : Response) (bytes : Bytes) : Prop where
  written : ∀ buffer, buffer.length = serializedTotal response + 1 →
    writeSection response buffer = some (some (bytes ++ [nul]))
  lines : ∃ lines, splitInfix crlf bytes =
      statusText response :: lines ++ [[], []] ∧
    lines.map fieldOf = (visibleHeaders response).map some
  finished : findInfix blankLine bytes = some (bytes.length - 4)

/-- A regular response is serialized, and the section gives back its status
line and its headers. -/
theorem httpResponseSerializeHeaders_roundTrip {response : Response}
    (regular : response.Regular) {process : Process}
    (granted : process.allocs = []) :
    ∃ bytes, httpResponseSerializeHeaders response process =
        (some bytes, process) ∧
      ReadsBack response bytes := by
  refine ⟨serializedBytes response,
    httpResponseSerializeHeaders_granted regular.fits granted, ?_, ?_, ?_⟩
  · intro buffer sized
    exact writeSection_exact sized
  · refine ⟨(responseFields response).map fun field =>
      rawLine (spaced field), ?_, ?_⟩
    · exact splitInfix_serialized regular
    · rw [List.map_map, ← responseFields_eq_visibleHeaders]
      exact fieldOf_lines regular.tidy
  · have first := findInfix_serialized regular.tidy []
    rwa [List.append_nil] at first

/-- Empty values, values with colons and names in another case come back as
they are. -/
theorem httpResponseSerializeHeaders_roundTrip_headers :
    let response : Response :=
      { httpResponseSetStatus httpResponseInit 404 with
        headers :=
          [{ name := ascii "X-Empty", value := [] },
            { name := ascii "sErVeR", value := ascii "a:b: c" }] }
    response.Regular ∧
      visibleHeaders response = response.headers ++
        [{ name := ascii "Connection", value := ascii "close" },
          { name := ascii "Content-Length", value := ascii "0" }] ∧
      ∃ bytes, ReadsBack response bytes := by
  intro response
  have regular : response.Regular :=
    ⟨rfl, by decide, by decide, by decide +kernel, by decide +kernel⟩
  have granted : ({} : Process).allocs = [] := rfl
  obtain ⟨bytes, _, readsBack⟩ :=
    httpResponseSerializeHeaders_roundTrip regular granted
  exact ⟨regular, by decide +kernel, bytes, readsBack⟩

end CinderHTTP
