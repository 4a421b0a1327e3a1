import CinderHTTP.Http.HeaderFields

/-!
# The announced body length

The framing walk decides on C strings cut at the first NUL, the parser on
complete names.  On sections of field lines both decisions are the same
function of the stored headers: `Framed` states it, and the two `iff`
theorems reduce each walk to it.
-/

namespace CinderHTTP

def isTransferEncoding (header : Header) : Bool :=
  headerNameEqual header.name (ascii "Transfer-Encoding")

def isContentLength (header : Header) : Bool :=
  headerNameEqual header.name (ascii "Content-Length")

/-- The headers announce a body of this length: no transfer coding, and
either no content length and an empty body or exactly one valid one. -/
def Framed (headers : List Header) (length : Nat) : Prop :=
  (∀ header ∈ headers, isTransferEncoding header = false) ∧
    ((headers.filter isContentLength = [] ∧ length = 0) ∨
      ∃ header, headers.filter isContentLength = [header] ∧
        httpParseContentLengthValue header.value = .ok length)

theorem Framed.unique {headers : List Header} {left right : Nat}
    (first : Framed headers left) (second : Framed headers right) :
    left = right := by
  rcases first.2 with ⟨none₁, rfl⟩ | ⟨header₁, one₁, value₁⟩
  · rcases second.2 with ⟨_, rfl⟩ | ⟨header₂, one₂, _⟩
    · rfl
    · simp [none₁] at one₂
  · rcases second.2 with ⟨none₂, _⟩ | ⟨header₂, one₂, value₂⟩
    · simp [none₂] at one₁
    · rw [one₁] at one₂
      simp only [List.cons.injEq, and_true] at one₂
      subst one₂
      rw [value₁] at value₂
      simpa using value₂

theorem Framed.length_le {headers : List Header} {length : Nat}
    (framed : Framed headers length) : length ≤ httpMaxBodySize := by
  rcases framed.2 with ⟨_, rfl⟩ | ⟨_, _, value⟩
  · exact Nat.zero_le _
  · exact (httpParseContentLengthValue_eq_ok_iff.mp value).2.2.2

/-! ## The stored headers -/

theorem httpRequestGetHeader_contentLength (request : Request) :
    httpRequestGetHeader request (ascii "Content-Length") =
      (request.headers.filter isContentLength).head?.map Header.value := by
  rw [httpRequestGetHeader, List.head?_filter]
  rfl

/-- The parser reads back a length exactly when the stored headers announce
it. -/
theorem storedBodyLength_eq_ok_iff {request : Request} {length : Nat} :
    storedBodyLength request = .ok length ↔
      Framed request.headers length := by
  unfold storedBodyLength Framed
  cases coding :
      httpRequestGetHeader request (ascii "Transfer-Encoding") with
  | some value =>
      obtain ⟨header, member, named, _⟩ := httpRequestGetHeader_mem coding
      simp only [reduceCtorEq, false_iff, not_and]
      intro noCoding
      have plain := noCoding header member
      rw [isTransferEncoding, named] at plain
      simp at plain
  | none =>
      have noCoding : ∀ header ∈ request.headers,
          isTransferEncoding header = false :=
        httpRequestGetHeader_eq_none_iff.mp coding
      have counted : (request.headers.countP fun header =>
          headerNameEqual header.name (ascii "Content-Length")) =
            (request.headers.filter isContentLength).length :=
        List.countP_eq_length_filter
      simp only [httpRequestGetHeader_contentLength, counted]
      cases lengths : request.headers.filter isContentLength with
      | nil =>
          constructor
          · intro same
            exact ⟨noCoding, .inl ⟨rfl, by simpa using same.symm⟩⟩
          · rintro ⟨_, ⟨_, rfl⟩ | ⟨_, impossible, _⟩⟩
            · rfl
            · simp at impossible
      | cons header others =>
          cases others with
          | nil =>
              cases parsed : httpParseContentLengthValue header.value with
              | error failure => simp [parsed]
              | ok bodyLength =>
                  constructor
                  · intro same
                    refine ⟨noCoding, .inr ⟨header, rfl, ?_⟩⟩
                    simpa [parsed] using same
                  · rintro ⟨_, ⟨impossible, _⟩ | ⟨_, single, accepted⟩⟩
                    · simp at impossible
                    · simp only [List.cons.injEq, and_true] at single
                      rw [← single, parsed] at accepted
                      simpa [parsed] using accepted
          | cons second more => simp

/-! ## The framing walk -/

/-- The framing walk over stored headers. -/
def scanFields (headers : List Header) (scan : FramingScan) :
    Except ParseError FramingScan :=
  match headers with
  | [] => .ok scan
  | header :: others =>
      match inspectField header.name header.value scan with
      | .error failure => .error failure
      | .ok next => scanFields others next

/-- The decision at the end of the framing walk. -/
def framingVerdict (walk : Except ParseError FramingScan) :
    Except ParseError Nat :=
  match walk with
  | .error failure => .error failure
  | .ok scan =>
      if scan.sawChunked then .error .unsupportedTransferEncoding
      else if scan.sawContentLength then .ok scan.contentLength
      else .ok 0

theorem inspectHeaderLine_rawLine {field : Header}
    (valid : FieldSyntax field) (scan : FramingScan) :
    inspectHeaderLine (rawLine field) scan [] =
      (inspectField field.name (trimOws field.value) scan, []) := by
  simp [inspectHeaderLine, cutFirst_rawLine valid.nameColon,
    valid.nameNonempty, dupRange, cstr_eq_self valid.nameNul,
    cstr_eq_self valid.valueNul]

theorem inspectHeaderLines_line {line rest : Bytes} {scan : FramingScan}
    {allocs : Allocs} (nonempty : line ≠ []) (unbroken : lf ∉ line) :
    inspectHeaderLines (line ++ crlf ++ rest) scan allocs =
      match inspectHeaderLine line scan allocs with
      | (.error failure, later) => (.error failure, later)
      | (.ok next, later) => inspectHeaderLines rest next later := by
  rw [inspectHeaderLines, if_neg (by simp [crlf]),
    if_neg (not_crlf_prefix_line nonempty unbroken)]
  have taken := takeLine_append unbroken rest
  split
  · rename_i failed
    rw [taken] at failed
    simp at failed
  · rename_i line' rest' again
    rw [taken] at again
    simp only [Option.some.injEq, Prod.mk.injEq] at again
    obtain ⟨rfl, rfl⟩ := again
    rfl

theorem inspectHeaderLines_fieldLines (fields : List Header)
    (valid : ∀ field ∈ fields, FieldSyntax field) (scan : FramingScan) :
    inspectHeaderLines (fieldLines fields ++ crlf) scan [] =
      (scanFields (fields.map trimmed) scan, []) := by
  induction fields generalizing scan with
  | nil =>
      rw [inspectHeaderLines, if_neg (by simp [crlf]),
        if_pos (by simp)]
      rfl
  | cons field fields induction =>
      have fieldValid := valid field (by simp)
      rw [fieldLines_cons, List.append_assoc,
        inspectHeaderLines_line (rawLine_ne_nil field) fieldValid.lineLf,
        inspectHeaderLine_rawLine fieldValid, List.map_cons, scanFields]
      simp only [trimmed]
      cases inspected :
          inspectField field.name (trimOws field.value) scan with
      | error failure => rfl
      | ok next =>
          exact induction (fun later member =>
            valid later (List.mem_cons_of_mem _ member)) next

theorem inspectField_ok_other {name value : Bytes} {scan : FramingScan}
    (plain : headerNameEqual name (ascii "Transfer-Encoding") = false)
    (other : headerNameEqual name (ascii "Content-Length") = false) :
    inspectField name value scan = .ok scan := by
  simp [inspectField, plain, other]

theorem inspectField_sawChunked {name value : Bytes}
    {scan next : FramingScan} (seen : scan.sawChunked = true)
    (success : inspectField name value scan = .ok next) :
    next.sawChunked = true := by
  unfold inspectField at success
  split at success
  · split at success
    · simp only [Except.ok.injEq] at success
      rw [← success]
    · simp at success
  · split at success
    · split at success
      · simp at success
      · split at success
        · simp at success
        · simp only [Except.ok.injEq] at success
          rw [← success]
          exact seen
    · simp only [Except.ok.injEq] at success
      rw [← success]
      exact seen

theorem scanFields_sawChunked {headers : List Header}
    {scan final : FramingScan} (seen : scan.sawChunked = true)
    (success : scanFields headers scan = .ok final) :
    final.sawChunked = true := by
  induction headers generalizing scan with
  | nil =>
      simp only [scanFields, Except.ok.injEq] at success
      rw [← success, seen]
  | cons header others induction =>
      simp only [scanFields] at success
      split at success
      · simp at success
      · rename_i next inspected
        exact induction (inspectField_sawChunked seen inspected) success

theorem scanFields_ok {headers : List Header} {scan final : FramingScan}
    (success : scanFields headers scan = .ok final)
    (plain : final.sawChunked = false) :
    (∀ header ∈ headers, isTransferEncoding header = false) ∧
      ((headers.filter isContentLength = [] ∧ final = scan) ∨
        (scan.sawContentLength = false ∧
          ∃ header, headers.filter isContentLength = [header] ∧
            httpParseContentLengthValue header.value =
              .ok final.contentLength ∧ final.sawContentLength = true)) := by
  induction headers generalizing scan with
  | nil =>
      simp only [scanFields, Except.ok.injEq] at success
      exact ⟨by simp, .inl ⟨rfl, success.symm⟩⟩
  | cons header others induction =>
      simp only [scanFields] at success
      split at success
      · simp at success
      rename_i next inspected
      cases coding : isTransferEncoding header with
      | true =>
          rw [isTransferEncoding] at coding
          simp only [inspectField, coding, if_true] at inspected
          split_ifs at inspected
          simp only [Except.ok.injEq] at inspected
          have kept := scanFields_sawChunked
            (by rw [← inspected]) success
          rw [plain] at kept
          simp at kept
      | false =>
          rw [List.forall_mem_cons]
          cases length : isContentLength header with
          | false =>
              have same : next = scan := by
                rw [inspectField_ok_other coding length,
                  Except.ok.injEq] at inspected
                exact inspected.symm
              subst same
              obtain ⟨noCoding, lengths⟩ := induction success
              rw [List.filter_cons_of_neg (by simp [length])]
              exact ⟨⟨coding, noCoding⟩, lengths⟩
          | true =>
              rw [isTransferEncoding] at coding
              have named := length
              rw [isContentLength] at named
              simp only [inspectField, coding, named, if_true,
                Bool.false_eq_true, if_false] at inspected
              split at inspected
              · simp at inspected
              rename_i parsedLength parsed
              split_ifs at inspected with seen
              simp only [Except.ok.injEq] at inspected
              obtain ⟨noCoding, lengths⟩ := induction success
              refine ⟨⟨coding, noCoding⟩, .inr ⟨by simpa using seen, ?_⟩⟩
              rcases lengths with ⟨noLength, rfl⟩ | ⟨unseen, _⟩
              · refine ⟨header, ?_, ?_, ?_⟩
                · rw [List.filter_cons_of_pos length, noLength]
                · rw [parsed, ← inspected]
                · rw [← inspected]
              · rw [← inspected] at unseen
                simp at unseen

theorem scanFields_plain {headers : List Header} (scan : FramingScan)
    (noCoding : ∀ header ∈ headers, isTransferEncoding header = false)
    (noLength : headers.filter isContentLength = []) :
    scanFields headers scan = .ok scan := by
  induction headers with
  | nil => rfl
  | cons header others induction =>
      rw [List.forall_mem_cons] at noCoding
      rw [List.filter_eq_nil_iff, List.forall_mem_cons] at noLength
      rw [scanFields, inspectField_ok_other noCoding.1
        (by simpa [isContentLength] using noLength.1)]
      exact induction noCoding.2 (List.filter_eq_nil_iff.mpr noLength.2)

theorem scanFields_single {headers : List Header} {header : Header}
    {length : Nat}
    (noCoding : ∀ header ∈ headers, isTransferEncoding header = false)
    (single : headers.filter isContentLength = [header])
    (parsed : httpParseContentLengthValue header.value = .ok length)
    (scan : FramingScan) (unseen : scan.sawContentLength = false) :
    scanFields headers scan =
      .ok { scan with sawContentLength := true, contentLength := length } := by
  induction headers with
  | nil => simp at single
  | cons first others induction =>
      rw [List.forall_mem_cons] at noCoding
      cases named : isContentLength first with
      | false =>
          rw [List.filter_cons_of_neg (by simp [named])] at single
          rw [scanFields, inspectField_ok_other noCoding.1 named]
          exact induction noCoding.2 single
      | true =>
          rw [List.filter_cons_of_pos named, List.cons.injEq] at single
          obtain ⟨rfl, noLength⟩ := single
          have step : inspectField first.name first.value scan =
              .ok { scan with sawContentLength := true
                              contentLength := length } := by
            have coding := noCoding.1
            rw [isTransferEncoding] at coding
            rw [isContentLength] at named
            simp [inspectField, coding, named, parsed, unseen]
          rw [scanFields, step]
          exact scanFields_plain _ noCoding.2 noLength

/-- The framing walk announces a length exactly when the headers do. -/
theorem framingVerdict_scanFields_iff {headers : List Header}
    {length : Nat} :
    framingVerdict (scanFields headers .start) = .ok length ↔
      Framed headers length := by
  constructor
  · intro success
    cases walked : scanFields headers .start with
    | error failure => simp [framingVerdict, walked] at success
    | ok final =>
        simp only [framingVerdict, walked] at success
        split_ifs at success with chunked seen
        · obtain ⟨noCoding, lengths⟩ :=
            scanFields_ok walked (by simpa using chunked)
          simp only [Except.ok.injEq] at success
          refine ⟨noCoding, ?_⟩
          rcases lengths with ⟨_, same⟩ | ⟨_, header, single, parsed, _⟩
          · rw [same] at seen
            simp [FramingScan.start] at seen
          · exact .inr ⟨header, single, by rw [parsed, success]⟩
        · obtain ⟨noCoding, lengths⟩ :=
            scanFields_ok walked (by simpa using chunked)
          simp only [Except.ok.injEq] at success
          refine ⟨noCoding, ?_⟩
          rcases lengths with ⟨noLength, _⟩ | ⟨_, _, _, _, marked⟩
          · exact .inl ⟨noLength, success.symm⟩
          · exact absurd marked seen
  · rintro ⟨noCoding, ⟨noLength, rfl⟩ | ⟨header, single, parsed⟩⟩
    · rw [scanFields_plain _ noCoding noLength]
      rfl
    · rw [scanFields_single noCoding single parsed _ rfl]
      rfl

theorem blankLine_suffix_section (first : Bytes) (fields : List Header) :
    blankLine <:+ first ++ crlf ++ fieldLines fields ++ crlf := by
  have closed : ∀ lines : List Bytes, ∀ start : Bytes,
      blankLine <:+ start ++ crlf ++ joinLines lines ++ crlf := by
    intro lines
    induction lines with
    | nil =>
        intro start
        exact ⟨start, by simp [blankLine, crlf]⟩
    | cons line lines induction =>
        intro start
        have later := induction (start ++ crlf ++ line)
        simpa using later
  exact closed _ first

theorem httpInspectMessageFraming_section {first : Bytes}
    {fields : List Header} (unbroken : lf ∉ first)
    (valid : ∀ field ∈ fields, FieldSyntax field) :
    httpInspectMessageFraming
        (first ++ crlf ++ fieldLines fields ++ crlf) [] =
      (framingVerdict (scanFields (fields.map trimmed) .start), []) := by
  have long : ¬(first ++ crlf ++ fieldLines fields ++ crlf).length < 4 := by
    simp [crlf]
    omega
  rw [httpInspectMessageFraming, if_neg long,
    if_neg (not_not_intro (blankLine_suffix_section first fields)),
    List.append_assoc, takeLine_append unbroken]
  simp only [inspectHeaderLines_fieldLines fields valid]
  cases scanFields (fields.map trimmed) .start with
  | error failure => rfl
  | ok scan =>
      simp only [framingVerdict]
      split_ifs <;> rfl

/-! ## Allocation answers -/

theorem inspectHeaderLine_nil (line : Bytes) (scan : FramingScan) :
    (inspectHeaderLine line scan []).2 = [] := by
  unfold inspectHeaderLine
  cases cutFirst colon line with
  | none => rfl
  | some parts =>
      simp only [malloc_nil]
      split_ifs <;> rfl

theorem inspectHeaderLines_nil (cursor : Bytes) (scan : FramingScan)
    {allocs : Allocs} (granted : allocs = []) :
    (inspectHeaderLines cursor scan allocs).2 = [] := by
  fun_induction inspectHeaderLines cursor scan allocs with
  | case1 | case2 | case3 => exact granted
  | case4 cursor scan allocs nonempty opened line rest taken failure later
      refused =>
      subst granted
      exact (congrArg Prod.snd refused).symm.trans
        (inspectHeaderLine_nil line scan)
  | case5 cursor scan allocs nonempty opened line rest taken next afterLine
      accepted induction =>
      subst granted
      apply induction
      exact (congrArg Prod.snd accepted).symm.trans
        (inspectHeaderLine_nil line scan)

theorem httpInspectMessageFraming_nil (header : Bytes) :
    (httpInspectMessageFraming header []).2 = [] := by
  unfold httpInspectMessageFraming
  split_ifs
  · rfl
  · cases takeLine header with
    | none => rfl
    | some parts =>
        have walked := inspectHeaderLines_nil parts.2 .start rfl
        simp only
        generalize inspectHeaderLines parts.2 .start [] = walk at walked ⊢
        obtain ⟨failure | scan, later⟩ := walk
        · exact walked
        · simp only
          split_ifs <;> exact walked
  · rfl

/-- A line is judged the same under any allocation answers, unless an
allocation fails. -/
theorem inspectHeaderLine_allocs (line : Bytes) (scan : FramingScan)
    (allocs : Allocs) :
    (inspectHeaderLine line scan allocs).1 = .error .outOfMemory ∨
      (inspectHeaderLine line scan allocs).1 =
        (inspectHeaderLine line scan []).1 := by
  unfold inspectHeaderLine
  cases cutFirst colon line with
  | none => exact .inr rfl
  | some parts =>
      by_cases unnamed : parts.1 = []
      · exact .inr (by simp [unnamed])
      · simp only [unnamed, if_false, malloc_nil, Bool.not_true,
          Bool.false_eq_true]
        split_ifs
        all_goals simp

theorem inspectHeaderLines_allocs (cursor : Bytes) (scan : FramingScan)
    (allocs : Allocs) :
    (inspectHeaderLines cursor scan allocs).1 = .error .outOfMemory ∨
      (inspectHeaderLines cursor scan allocs).1 =
        (inspectHeaderLines cursor scan []).1 := by
  fun_induction inspectHeaderLines cursor scan allocs with
  | case1 scan allocs =>
      right
      rw [inspectHeaderLines, if_pos rfl]
  | case2 cursor scan allocs nonempty closed =>
      right
      rw [inspectHeaderLines, if_neg nonempty, if_pos closed]
  | case3 cursor scan allocs nonempty opened taken =>
      right
      rw [inspectHeaderLines, if_neg nonempty, if_neg opened]
      split
      · rfl
      · simp_all
  | case4 cursor scan allocs nonempty opened line rest taken failure later
      refused =>
      obtain ⟨rfl, unbroken⟩ := takeLine_eq_some_iff.mp taken
      have named : line ≠ [] := by
        rintro rfl
        exact opened (by simp)
      rw [inspectHeaderLines_line named unbroken]
      have judged := inspectHeaderLine_allocs line scan allocs
      rw [refused] at judged
      rcases judged with exhausted | same
      · exact .inl exhausted
      · right
        rcases plain : inspectHeaderLine line scan [] with ⟨verdict, _⟩
        rw [plain] at same
        simp only at same
        rw [← same]
  | case5 cursor scan allocs nonempty opened line rest taken next afterLine
      accepted induction =>
      obtain ⟨rfl, unbroken⟩ := takeLine_eq_some_iff.mp taken
      have named : line ≠ [] := by
        rintro rfl
        exact opened (by simp)
      have plain : inspectHeaderLine line scan [] = (.ok next, []) := by
        have judged := inspectHeaderLine_allocs line scan allocs
        rw [accepted] at judged
        rcases judged with exhausted | same
        · simp at exhausted
        · exact Prod.ext same.symm (inspectHeaderLine_nil line scan)
      rw [inspectHeaderLines_line named unbroken, plain]
      exact induction

/-- Allocation failure never changes what a header section announces, it
only hides it. -/
theorem httpInspectMessageFraming_allocs (header : Bytes)
    (allocs : Allocs) :
    (allocs ≠ [] ∧
      (httpInspectMessageFraming header allocs).1 = .error .outOfMemory) ∨
      (httpInspectMessageFraming header allocs).1 =
        (httpInspectMessageFraming header []).1 := by
  by_cases answered : allocs = []
  · rw [answered]
    exact .inr rfl
  simp only [ne_eq, answered, not_false_eq_true, true_and]
  unfold httpInspectMessageFraming
  by_cases short : header.length < 4
  · exact .inr (by simp [short])
  by_cases closed : blankLine <:+ header
  swap
  · exact .inr (by simp [short, closed])
  simp only [short, if_false, closed, not_true_eq_false]
  cases takeLine header with
  | none => exact .inr rfl
  | some parts =>
      simp only
      have walked := inspectHeaderLines_allocs parts.2 .start allocs
      generalize inspectHeaderLines parts.2 .start allocs = under at walked ⊢
      generalize inspectHeaderLines parts.2 .start [] = plain at walked ⊢
      obtain ⟨under, _⟩ := under
      obtain ⟨plain, _⟩ := plain
      rcases walked with rfl | rfl
      · exact .inl rfl
      · right
        cases under with
        | error failure => rfl
        | ok scan =>
            simp only
            split_ifs <;> rfl

/-! ## Bounds -/

theorem inspectField_bounded {name value : Bytes} {scan next : FramingScan}
    (bounded : scan.contentLength ≤ httpMaxBodySize)
    (success : inspectField name value scan = .ok next) :
    next.contentLength ≤ httpMaxBodySize := by
  unfold inspectField at success
  cases parsed : httpParseContentLengthValue value with
  | error failure =>
      simp only [parsed] at success
      split_ifs at success <;> cases success <;> exact bounded
  | ok length =>
      simp only [parsed] at success
      have small := (httpParseContentLengthValue_eq_ok_iff.mp parsed).2.2.2
      split_ifs at success <;> cases success <;> assumption

theorem inspectHeaderLine_bounded {line : Bytes} {scan next : FramingScan}
    {allocs later : Allocs}
    (bounded : scan.contentLength ≤ httpMaxBodySize)
    (success : inspectHeaderLine line scan allocs = (.ok next, later)) :
    next.contentLength ≤ httpMaxBodySize := by
  unfold inspectHeaderLine at success
  cases cut : cutFirst colon line with
  | none => simp [cut] at success
  | some parts =>
      simp only [cut] at success
      split_ifs at success
      all_goals try simp only [Prod.mk.injEq, reduceCtorEq, false_and] at success
      exact inspectField_bounded bounded success.1

theorem inspectHeaderLines_bounded {cursor : Bytes}
    {scan final : FramingScan} {allocs later : Allocs}
    (bounded : scan.contentLength ≤ httpMaxBodySize)
    (success : inspectHeaderLines cursor scan allocs = (.ok final, later)) :
    final.contentLength ≤ httpMaxBodySize := by
  fun_induction inspectHeaderLines cursor scan allocs with
  | case1 | case2 => simp_all
  | case3 | case4 => simp at success
  | case5 cursor scan allocs nonempty opened line rest taken next afterLine
      accepted induction =>
      exact induction (inspectHeaderLine_bounded bounded accepted) success

/-- No header section announces more than the largest body. -/
theorem httpInspectMessageFraming_bounded {header : Bytes} {length : Nat}
    {allocs later : Allocs}
    (success : httpInspectMessageFraming header allocs =
      (.ok length, later)) :
    length ≤ httpMaxBodySize := by
  unfold httpInspectMessageFraming at success
  split_ifs at success
  all_goals try simp only [Prod.mk.injEq, reduceCtorEq, false_and] at success
  cases taken : takeLine header with
  | none => simp [taken] at success
  | some parts =>
      simp only [taken] at success
      rcases walked : inspectHeaderLines parts.2 .start allocs with
        ⟨failure | scan, rest⟩
      · simp [walked] at success
      · simp only [walked] at success
        have bounded := inspectHeaderLines_bounded (Nat.zero_le _) walked
        split_ifs at success
        all_goals
          simp only [Prod.mk.injEq, reduceCtorEq, false_and,
            Except.ok.injEq] at success
        · rw [← success.1]
          exact bounded
        · rw [← success.1]
          exact Nat.zero_le _

/-! ## Oversized bodies -/

/-- A field line announces a body over the limit, as the framing walk reads
the line. -/
def OversizeLine (line : Bytes) : Prop :=
  ∃ rawName rawValue, cutFirst colon line = some (rawName, rawValue) ∧
    headerNameEqual (dupRange rawName) (ascii "Content-Length") = true ∧
    (∀ digit ∈ dupRange (trimOws rawValue), isDigit digit = true) ∧
    httpMaxBodySize < decimalValue (dupRange (trimOws rawValue))

theorem inspectField_tooLarge {name value : Bytes} {scan : FramingScan}
    (refused : inspectField name value scan = .error .tooLarge) :
    headerNameEqual name (ascii "Content-Length") = true ∧
      httpParseContentLengthValue value = .error .tooLarge := by
  unfold inspectField at refused
  by_cases transfer : headerNameEqual name (ascii "Transfer-Encoding") = true
  · rw [if_pos transfer] at refused
    split_ifs at refused
    cases refused
  by_cases length : headerNameEqual name (ascii "Content-Length") = true
  · rw [if_neg transfer, if_pos length] at refused
    refine ⟨length, ?_⟩
    cases parsed : httpParseContentLengthValue value with
    | error failure =>
        rw [parsed] at refused
        cases refused
        rfl
    | ok announced =>
        simp only [parsed] at refused
        split_ifs at refused
        cases refused
  · rw [if_neg transfer, if_neg length] at refused
    cases refused

theorem inspectHeaderLine_tooLarge {line : Bytes} {scan : FramingScan}
    {allocs later : Allocs}
    (refused : inspectHeaderLine line scan allocs =
      (.error .tooLarge, later)) : OversizeLine line := by
  unfold inspectHeaderLine at refused
  cases cut : cutFirst colon line with
  | none => simp [cut] at refused
  | some parts =>
      simp only [cut] at refused
      split_ifs at refused
      all_goals
        simp only [Prod.mk.injEq, Except.error.injEq, reduceCtorEq,
          false_and] at refused
      obtain ⟨named, large⟩ := inspectField_tooLarge refused.1
      obtain ⟨digits, beyond⟩ := httpParseContentLengthValue_tooLarge large
      exact ⟨parts.1, parts.2, cut, named, digits, beyond⟩

theorem inspectHeaderLines_tooLarge {cursor : Bytes} {scan : FramingScan}
    {allocs later : Allocs}
    (refused : inspectHeaderLines cursor scan allocs =
      (.error .tooLarge, later)) :
    ∃ earlier line rest, cursor = joinLines earlier ++ line ++ crlf ++ rest ∧
      OversizeLine line := by
  fun_induction inspectHeaderLines cursor scan allocs with
  | case1 | case2 | case3 => simp at refused
  | case4 cursor scan allocs nonempty opened line rest taken failure later
      judged =>
      obtain ⟨rfl, -⟩ := takeLine_eq_some_iff.mp taken
      rw [refused] at judged
      exact ⟨[], line, rest, rfl, inspectHeaderLine_tooLarge judged⟩
  | case5 cursor scan allocs nonempty opened line rest taken next afterLine
      accepted induction =>
      obtain ⟨rfl, -⟩ := takeLine_eq_some_iff.mp taken
      obtain ⟨earlier, found, behind, rfl, oversize⟩ := induction refused
      exact ⟨line :: earlier, found, behind, by simp, oversize⟩

theorem httpInspectMessageFraming_tooLarge {header : Bytes}
    {allocs later : Allocs}
    (refused : httpInspectMessageFraming header allocs =
      (.error .tooLarge, later)) :
    ∃ start earlier line rest,
      header = joinLines (start :: earlier) ++ line ++ crlf ++ rest ∧
        OversizeLine line := by
  unfold httpInspectMessageFraming at refused
  split_ifs at refused
  all_goals
    try simp only [Prod.mk.injEq, Except.error.injEq, reduceCtorEq,
      false_and] at refused
  cases taken : takeLine header with
  | none => simp [taken] at refused
  | some parts =>
      obtain ⟨rfl, -⟩ := takeLine_eq_some_iff.mp taken
      simp only [taken] at refused
      rcases walked : inspectHeaderLines parts.2 .start allocs with
        ⟨failure | scan, rest⟩
      · simp only [walked, Prod.mk.injEq, Except.error.injEq] at refused
        rw [refused.1] at walked
        obtain ⟨earlier, line, behind, whole, oversize⟩ :=
          inspectHeaderLines_tooLarge walked
        exact ⟨parts.1, earlier, line, behind, by simp [whole], oversize⟩
      · simp only [walked] at refused
        split_ifs at refused
        all_goals simp at refused

end CinderHTTP
