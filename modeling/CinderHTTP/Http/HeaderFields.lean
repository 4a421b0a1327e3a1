import CinderHTTP.Http.Parser

/-!
# Header fields as both walks see them

The framing walk and the header loop of the parser read the same lines with
different rules.  This module states what each of them does with one line and
with a whole section.  `Framed` is the common meaning: the body length that a
list of stored headers announces.
-/

namespace CinderHTTP

/-! ## Content-Length values -/

theorem isDigit_toNat {digit : Byte} (valid : isDigit digit = true) :
    48 ≤ digit.toNat ∧ digit.toNat ≤ 57 := by
  simpa [isDigit, byte, UInt8.le_iff_toNat_le] using valid

theorem not_isSpaceChar_of_isDigit {digit : Byte}
    (valid : isDigit digit = true) : isSpaceChar digit = false := by
  obtain ⟨lower, upper⟩ := isDigit_toNat valid
  have notSpace : digit ≠ space := by
    rintro rfl
    exact absurd lower (by decide)
  have notControl : ¬digit ≤ cr := by
    intro below
    have small := UInt8.le_iff_toNat_le.mp below
    simp only [cr] at small
    have : (13 : UInt8).toNat = 13 := rfl
    omega
  simp [isSpaceChar, notSpace, notControl]

theorem strtoull_digits {value : Bytes} (nonempty : value ≠ [])
    (digits : ∀ digit ∈ value, isDigit digit = true) :
    strtoull value =
      if ullongMax < decimalValue value then
        { value := ullongMax, rest := [], erange := true }
      else { value := decimalValue value, rest := [], erange := false } := by
  obtain ⟨first, others, rfl⟩ := List.exists_cons_of_ne_nil nonempty
  have firstDigit := digits first (by simp)
  obtain ⟨lower, _⟩ := isDigit_toNat firstDigit
  have stripped : (first :: others).dropWhile isSpaceChar =
      first :: others := by
    simp [not_isSpaceChar_of_isDigit firstDigit]
  have notMinus : first ≠ byte '-' := by
    rintro rfl
    exact absurd lower (by decide)
  have notPlus : first ≠ byte '+' := by
    rintro rfl
    exact absurd lower (by decide)
  have taken : (first :: others).takeWhile isDigit = first :: others :=
    List.takeWhile_eq_self_iff.mpr digits
  have dropped : (first :: others).dropWhile isDigit = [] :=
    List.dropWhile_eq_nil_iff.mpr digits
  simp [strtoull, stripped, notMinus, notPlus, taken, dropped]

/-- The accepted values are the nonempty strings of digits that denote a
length within the body limit. -/
theorem httpParseContentLengthValue_eq_ok_iff {value : Bytes}
    {length : Nat} :
    httpParseContentLengthValue value = .ok length ↔
      value ≠ [] ∧ (∀ digit ∈ value, isDigit digit = true) ∧
        decimalValue value = length ∧ length ≤ httpMaxBodySize := by
  by_cases nonempty : value = []
  · simp [httpParseContentLengthValue, nonempty]
  by_cases digits : ∀ digit ∈ value, isDigit digit = true
  · have allDigits : value.all isDigit = true := List.all_eq_true.mpr digits
    have other : ¬[] = value := fun same => nonempty same.symm
    by_cases large : ullongMax < decimalValue value
    · have beyond : httpMaxBodySize < decimalValue value :=
        lt_trans (by decide) large
      have refused : ∀ bound, decimalValue value = bound →
          ¬bound ≤ httpMaxBodySize := by
        intro bound same
        omega
      simp [httpParseContentLengthValue, nonempty, allDigits,
        strtoull_digits nonempty digits, large]
      intro _ same
      exact Nat.lt_of_not_le (refused _ same)
    · simp only [httpParseContentLengthValue, nonempty, if_false, allDigits,
        Bool.not_true, Bool.false_eq_true, strtoull_digits nonempty digits,
        large, other, ne_eq, not_true_eq_false, or_self]
      constructor
      · intro accepted
        split at accepted
        · simp at accepted
        · rename_i within
          simp only [Except.ok.injEq] at accepted
          exact ⟨not_false, digits, accepted, by omega⟩
      · rintro ⟨-, -, rfl, within⟩
        simp [Nat.not_lt.mpr within]
  · have someOther : value.all isDigit = false := by
      rw [Bool.eq_false_iff, ne_eq, List.all_eq_true]
      exact digits
    simp only [httpParseContentLengthValue, nonempty, if_false, someOther,
      Bool.not_false, if_true, reduceCtorEq, false_iff]
    rintro ⟨-, allDigits, -⟩
    exact digits allDigits

theorem httpParseContentLengthValue_tooLarge {value : Bytes}
    (refused : httpParseContentLengthValue value = .error .tooLarge) :
    (∀ digit ∈ value, isDigit digit = true) ∧
      httpMaxBodySize < decimalValue value := by
  unfold httpParseContentLengthValue at refused
  split_ifs at refused with empty other
  · cases refused
  · cases refused
  · have digits : ∀ digit ∈ value, isDigit digit = true := by
      simpa using other
    refine ⟨digits, ?_⟩
    rw [strtoull_digits empty digits] at refused
    by_cases beyond : ullongMax < decimalValue value
    · exact Nat.lt_trans (by decide) beyond
    · by_contra small
      simp [beyond, empty, small] at refused

/-! ## Raw field lines -/

/-- A field line: the name, a colon and the raw value. -/
def rawLine (field : Header) : Bytes :=
  field.name ++ colon :: field.value

/-- The header stored for a field line. -/
def trimmed (field : Header) : Header :=
  { field with value := trimOws field.value }

/-- The field lines that the parser stores. -/
structure FieldSyntax (field : Header) : Prop where
  nameNonempty : field.name ≠ []
  nameColon : colon ∉ field.name
  nameSpace : space ∉ field.name
  nameTab : tab ∉ field.name
  lineNul : nul ∉ rawLine field
  lineLf : lf ∉ rawLine field

theorem mem_trimOws {text : Bytes} {character : Byte}
    (member : character ∈ trimOws text) : character ∈ text :=
  (List.dropWhile_suffix _).subset
    ((List.rdropWhile_prefix _ _).subset member)

theorem mem_trimOws_of_not_isOws {text : Bytes} {character : Byte}
    (member : character ∈ text) (visible : isOws character = false) :
    character ∈ trimOws text := by
  have skipped : character ∈ skipOws text := by
    rw [← List.takeWhile_append_dropWhile (p := isOws) (l := text),
      List.mem_append] at member
    rcases member with blank | kept
    · have hidden := List.mem_takeWhile_imp blank
      simp [visible] at hidden
    · exact kept
  rw [← List.rdropWhile_append_rtakeWhile (p := isOws)
    (l := skipOws text), List.mem_append] at skipped
  rcases skipped with kept | blank
  · exact kept
  · have hidden := List.mem_rtakeWhile_imp blank
    simp [visible] at hidden

theorem nul_mem_trimOws_iff (text : Bytes) :
    nul ∈ trimOws text ↔ nul ∈ text :=
  ⟨mem_trimOws, fun member => mem_trimOws_of_not_isOws member (by decide)⟩

theorem cutFirst_rawLine {field : Header} (clean : colon ∉ field.name) :
    cutFirst colon (rawLine field) = some (field.name, field.value) :=
  cutFirst_append_cons clean field.value

theorem rawLine_ne_nil (field : Header) : rawLine field ≠ [] := by
  simp [rawLine]

/-! ## The header loop of the parser -/

theorem appendHeader_ok {request stored : Request} {name value : Bytes}
    {allocs later : Allocs}
    (success : appendHeader request name value allocs =
      ((.ok (), stored), later)) :
    request.headers.length < httpMaxHeaders ∧
      stored = { request with
        headers := request.headers ++ [{ name := name, value := value }] } := by
  unfold appendHeader at success
  by_cases full : request.headers.length ≥ httpMaxHeaders
  · simp [full] at success
  · cases granted : (malloc allocs).1 with
    | false => simp [full, granted] at success
    | true =>
        simp only [full, if_false, granted, Bool.not_true,
          Bool.false_eq_true, Prod.mk.injEq, true_and] at success
        exact ⟨by omega, success.1.symm⟩

theorem appendHeader_failure {request stored : Request} {name value : Bytes}
    {allocs later : Allocs} {failure : ParseError}
    (refused : appendHeader request name value allocs =
      ((.error failure, stored), later)) :
    failure = .tooManyHeaders ∨ failure = .outOfMemory := by
  unfold appendHeader at refused
  by_cases full : request.headers.length ≥ httpMaxHeaders
  · rw [if_pos full] at refused
    cases refused
    exact .inl rfl
  · rw [if_neg full] at refused
    cases granted : (malloc allocs).1 with
    | false =>
        simp only [granted, Bool.not_false, if_true] at refused
        cases refused
        exact .inr rfl
    | true =>
        simp only [granted, Bool.not_true, Bool.false_eq_true,
          if_false] at refused
        cases refused

/-- Everything that `parse_header_line` may come to. -/
inductive FieldOutcome (line : Bytes) (request : Request) :
    (Except ParseError Unit × Request) × Allocs → Prop where
  | malformed (later : Allocs) :
      FieldOutcome line request ((.error .badRequest, request), later)
  | unallocated (later : Allocs) :
      FieldOutcome line request ((.error .outOfMemory, request), later)
  | appended {field : Header} (same : line = rawLine field)
      (valid : lf ∉ line → FieldSyntax field) (later : Allocs) :
      FieldOutcome line request
        (appendHeader request field.name (trimOws field.value) later)

theorem parseHeaderLine_outcome (line : Bytes) (request : Request)
    (allocs : Allocs) :
    FieldOutcome line request (parseHeaderLine line request allocs) := by
  unfold parseHeaderLine
  by_cases empty : line = []
  · rw [if_pos empty]
    exact .malformed allocs
  rw [if_neg empty]
  cases cut : cutFirst colon line with
  | none => exact .malformed allocs
  | some parts =>
      obtain ⟨rawName, rawValue⟩ := parts
      obtain ⟨rfl, cleanColon⟩ := cutFirst_eq_some_iff.mp cut
      simp only
      split_ifs with unnamed blankName nameRefused nulValue valueRefused
      · exact .malformed _
      · exact .malformed _
      · exact .unallocated _
      · exact .malformed _
      · exact .unallocated _
      simp only [List.any_eq_true, Bool.or_eq_true, beq_iff_eq, not_exists,
        not_and, not_or] at blankName
      have nameNul : nul ∉ rawName := fun member =>
        (blankName nul member).2 rfl
      have valueNul : nul ∉ rawValue := fun member =>
        nulValue ((nul_mem_trimOws_iff rawValue).mpr member)
      rw [dupRange, dupRange, cstr_eq_self nameNul, cstr_eq_self nulValue]
      apply @FieldOutcome.appended _ request ⟨rawName, rawValue⟩ rfl
      intro unbroken
      exact
        { nameNonempty := unnamed
          nameColon := cleanColon
          nameSpace := fun member => (blankName space member).1.1 rfl
          nameTab := fun member => (blankName tab member).1.2 rfl
          lineNul := by
            simp only [rawLine, List.mem_append, List.mem_cons, not_or]
            exact ⟨nameNul, by decide, valueNul⟩
          lineLf := unbroken }

/-- An accepted line, under any allocation answers, has the field syntax and
found room in the header table. -/
theorem parseHeaderLine_ok {line : Bytes} {request stored : Request}
    {allocs later : Allocs} (unbroken : lf ∉ line)
    (success : parseHeaderLine line request allocs =
      ((.ok (), stored), later)) :
    ∃ field, line = rawLine field ∧ FieldSyntax field ∧
      request.headers.length < httpMaxHeaders ∧
      stored = { request with
        headers := request.headers ++ [trimmed field] } := by
  have outcome := parseHeaderLine_outcome line request allocs
  generalize parseHeaderLine line request allocs = result
    at success outcome
  cases outcome with
  | malformed after => cases success
  | unallocated after => cases success
  | @appended field same valid after =>
      obtain ⟨room, stored⟩ := appendHeader_ok success
      exact ⟨field, same, valid unbroken, room, stored⟩

theorem parseHeaderLine_failure {line : Bytes} {request stored : Request}
    {allocs later : Allocs} {failure : ParseError}
    (refused : parseHeaderLine line request allocs =
      ((.error failure, stored), later)) :
    failure = .badRequest ∨ failure = .tooManyHeaders ∨
      failure = .outOfMemory := by
  have outcome := parseHeaderLine_outcome line request allocs
  generalize parseHeaderLine line request allocs = result
    at refused outcome
  cases outcome with
  | malformed after =>
      cases refused
      exact .inl rfl
  | unallocated after =>
      cases refused
      exact .inr (.inr rfl)
  | appended same valid after => exact .inr (appendHeader_failure refused)

theorem FieldSyntax.nameNul {field : Header} (valid : FieldSyntax field) :
    nul ∉ field.name := fun member =>
  valid.lineNul (List.mem_append_left _ member)

theorem FieldSyntax.valueNul {field : Header} (valid : FieldSyntax field) :
    nul ∉ trimOws field.value := fun member =>
  valid.lineNul (List.mem_append_right _
    (List.mem_cons_of_mem _ (mem_trimOws member)))

theorem parseHeaderLine_rawLine {field : Header} (valid : FieldSyntax field)
    (request : Request)
    (room : request.headers.length < httpMaxHeaders) :
    parseHeaderLine (rawLine field) request [] =
      ((.ok (), { request with
        headers := request.headers ++ [trimmed field] }), []) := by
  have cleanName : (field.name.any fun character =>
      character == space || character == tab || character == nul) =
        false := by
    simp only [List.any_eq_false, Bool.or_eq_true, beq_iff_eq, not_or]
    intro character member
    exact ⟨⟨fun same => valid.nameSpace (same ▸ member),
      fun same => valid.nameTab (same ▸ member)⟩,
      fun same => valid.nameNul (same ▸ member)⟩
  simp [parseHeaderLine, rawLine_ne_nil, cutFirst_rawLine valid.nameColon,
    valid.nameNonempty, cleanName, valid.valueNul, appendHeader,
    Nat.not_le.mpr room, trimmed, dupRange, cstr_eq_self valid.nameNul,
    cstr_eq_self valid.valueNul]

/-- The lines of a list of fields. -/
def fieldLines (fields : List Header) : Bytes :=
  joinLines (fields.map rawLine)

@[simp] theorem fieldLines_nil : fieldLines [] = [] := rfl

@[simp] theorem fieldLines_cons (field : Header) (fields : List Header) :
    fieldLines (field :: fields) =
      rawLine field ++ crlf ++ fieldLines fields := rfl

theorem parseHeaderLines_line {line rest : Bytes} {request : Request}
    {allocs : Allocs} (unbroken : lf ∉ line) :
    parseHeaderLines (line ++ crlf ++ rest) request allocs =
      match parseHeaderLine line request allocs with
      | ((.error failure, stored), later) =>
          ((.refused failure, stored), later)
      | ((.ok _, stored), later) => parseHeaderLines rest stored later := by
  rw [parseHeaderLines, if_neg (by simp [crlf])]
  have taken := takeLine_append unbroken rest
  split
  · rename_i failed
    rw [taken] at failed
    simp at failed
  · rename_i line' rest' again
    rw [taken] at again
    simp only [Option.some.injEq, Prod.mk.injEq] at again
    obtain ⟨rfl, rfl⟩ := again
    rfl

/-- When the header loop finishes, the section consists of field lines that
fit the header table, and they are stored in order. -/
theorem parseHeaderLines_finished {cursor : Bytes}
    {request stored : Request} {allocs later : Allocs}
    (room : request.headers.length ≤ httpMaxHeaders)
    (success : parseHeaderLines cursor request allocs =
      ((.finished, stored), later)) :
    ∃ fields : List Header, cursor = fieldLines fields ∧
      (∀ field ∈ fields, FieldSyntax field) ∧
      request.headers.length + fields.length ≤ httpMaxHeaders ∧
      stored = { request with
        headers := request.headers ++ fields.map trimmed } := by
  fun_induction parseHeaderLines cursor request allocs with
  | case1 request allocs =>
      simp only [Prod.mk.injEq, true_and] at success
      exact ⟨[], rfl, by simp, by simpa using room, by simp [← success.1]⟩
  | case2 cursor request allocs nonempty taken => simp at success
  | case3 cursor request allocs nonempty line rest taken failure partly
      later refused => simp at success
  | case4 cursor request allocs nonempty line rest taken _ partly
      afterLine accepted induction =>
      obtain ⟨rfl, unbroken⟩ := takeLine_eq_some_iff.mp taken
      obtain ⟨field, rfl, valid, small, rfl⟩ :=
        parseHeaderLine_ok unbroken accepted
      obtain ⟨fields, rfl, allValid, fits, rfl⟩ := induction
        (by simp only [List.length_append, List.length_singleton]; omega)
        success
      refine ⟨field :: fields, rfl, ?_, ?_, ?_⟩
      · simp only [List.mem_cons, forall_eq_or_imp]
        exact ⟨valid, allValid⟩
      · simp only [List.length_append, List.length_singleton] at fits
        simp only [List.length_cons]
        omega
      · simp

theorem parseHeaderLines_fieldLines (fields : List Header)
    (request : Request) (valid : ∀ field ∈ fields, FieldSyntax field)
    (fits : request.headers.length + fields.length ≤ httpMaxHeaders) :
    parseHeaderLines (fieldLines fields) request [] =
      ((.finished, { request with
        headers := request.headers ++ fields.map trimmed }), []) := by
  induction fields generalizing request with
  | nil => simp [parseHeaderLines]
  | cons field fields induction =>
      have fieldValid := valid field (by simp)
      simp only [List.length_cons] at fits
      rw [fieldLines_cons, parseHeaderLines_line fieldValid.lineLf,
        parseHeaderLine_rawLine fieldValid request (by omega)]
      have rest := induction
        { request with headers := request.headers ++ [trimmed field] }
        (fun later member => valid later (List.mem_cons_of_mem _ member))
        (by simp only [List.length_append, List.length_singleton]; omega)
      simpa using rest

end CinderHTTP
