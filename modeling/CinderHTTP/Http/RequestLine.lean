import CinderHTTP.Base.Buffer
import CinderHTTP.Http.Grammar

/-!
# How request lines are classified

The parser finds the fields of a request line by ordered searches with early
exits.  `Classified` says for each result which lines have it, without the
order.  The searches are modelled once more with the positions and the
lengths of the source: each of them stays inside the line, and no length
that is computed by subtraction wraps around.
-/

namespace CinderHTTP

/-! ## Classes -/

def supportedMethods : List Bytes :=
  [ascii "GET", ascii "HEAD", ascii "POST"]

def supportedVersions : List Bytes :=
  [ascii "HTTP/1.0", ascii "HTTP/1.1"]

/-- A method token that the server does not implement. -/
def ForeignMethod (line : Bytes) : Prop :=
  ∃ method target version, ThreeFields line method target version ∧
    (∀ character ∈ method, isTokenChar character = true) ∧
    method ∉ supportedMethods

/-- A version number that the server does not implement. -/
def ForeignVersion (line : Bytes) : Prop :=
  ∃ method target version, ThreeFields line method target version ∧
    method ∈ supportedMethods ∧
    (∃ number, version = ascii "HTTP/" ++ number ∧ number ≠ [] ∧
      ∀ character ∈ number, isDigit character = true ∨
        character = byte '.') ∧
    version ∉ supportedVersions

def Acceptable (line : Bytes) : Prop :=
  ∃ method target version, ThreeFields line method target version ∧
    method ∈ supportedMethods ∧ version ∈ supportedVersions

/-- The lines that have a result. -/
def Classified (line : Bytes) : Except ParseError Unit → Prop
  | .ok () => Acceptable line
  | .error .tooLarge => line.length > 8192
  | .error .unsupportedMethod => ForeignMethod line
  | .error .unsupportedVersion => ForeignVersion line
  | .error .badRequest =>
      line.length ≤ 8192 ∧ ¬ForeignMethod line ∧ ¬ForeignVersion line ∧
        ¬Acceptable line
  | .error _ => False

theorem classified_exists (line : Bytes) :
    ∃ answer, Classified line answer := by
  by_cases long : line.length > 8192
  · exact ⟨.error .tooLarge, long⟩
  by_cases foreignMethod : ForeignMethod line
  · exact ⟨.error .unsupportedMethod, foreignMethod⟩
  by_cases foreignVersion : ForeignVersion line
  · exact ⟨.error .unsupportedVersion, foreignVersion⟩
  by_cases acceptable : Acceptable line
  · exact ⟨.ok (), acceptable⟩
  · exact ⟨.error .badRequest, Nat.not_lt.mp long, foreignMethod,
      foreignVersion, acceptable⟩

theorem methodTokenIsWellFormed_iff (method : Bytes) :
    methodTokenIsWellFormed method = true ↔
      method ≠ [] ∧ ∀ character ∈ method, isTokenChar character = true := by
  unfold methodTokenIsWellFormed
  split_ifs with empty
  · simp [empty]
  · rw [List.all_eq_true]
    exact ⟨fun tokens => ⟨empty, tokens⟩, fun wellFormed => wellFormed.2⟩

theorem isHttpLikeVersion_iff (version : Bytes) :
    isHttpLikeVersion version = true ↔
      ∃ number, version = ascii "HTTP/" ++ number ∧ number ≠ [] ∧
        ∀ character ∈ number, isDigit character = true ∨
          character = byte '.' := by
  simp only [isHttpLikeVersion, Bool.and_eq_true, List.isPrefixOf_iff_prefix,
    decide_eq_true_eq, List.all_eq_true, Bool.or_eq_true, beq_iff_eq]
  have behind (number : Bytes) :
      (ascii "HTTP/" ++ number).drop 5 = number :=
    List.drop_left' (by decide)
  constructor
  · rintro ⟨⟨⟨number, rfl⟩, nonempty⟩, numeric⟩
    rw [behind] at nonempty numeric
    exact ⟨number, rfl, nonempty, numeric⟩
  · rintro ⟨number, rfl, nonempty, numeric⟩
    rw [behind]
    exact ⟨⟨List.prefix_append _ _, nonempty⟩, numeric⟩

/-! ## The end of the parser -/

section Stored

variable {line method target version : Bytes}

theorem storeRequestLine_foreign (request : Request)
    (foreign : method ∉ supportedMethods) :
    (storeRequestLine method target version request []).1.1 =
      .error .unsupportedMethod := by
  have refused : isSupportedMethodToken method = false := by
    rw [← Bool.not_eq_true, isSupportedMethodToken_iff]
    exact foreign
  simp [storeRequestLine, refused, isKnownUnsupportedMethod]

theorem storeRequestLine_supported (request : Request)
    (supported : method ∈ supportedMethods) (clean : nul ∉ version) :
    (storeRequestLine method target version request []).1.1 =
      if version ∈ supportedVersions then .ok ()
      else if isHttpLikeVersion version then .error .unsupportedVersion
      else .error .badRequest := by
  have token : isSupportedMethodToken method = true :=
    (isSupportedMethodToken_iff method).mpr supported
  have listed : version ∈ supportedVersions ↔
      version = ascii "HTTP/1.0" ∨ version = ascii "HTTP/1.1" := by
    simp [supportedVersions]
  simp only [storeRequestLine, token, dupRange, cstr_eq_self clean,
    malloc_nil, listed, Bool.not_true, Bool.or_self, Bool.false_eq_true,
    if_false]
  split_ifs
  · rfl
  · rfl
  · rfl

theorem parseRequestLine_supported
    (fields : ThreeFields line method target version)
    (supported : method ∈ supportedMethods) (request : Request) :
    (parseRequestLine line request []).1.1 =
      if version ∈ supportedVersions then .ok ()
      else if isHttpLikeVersion version then .error .unsupportedVersion
      else .error .badRequest := by
  rw [parseRequestLine_fields fields
    (methodTokenIsWellFormed_of_supported supported).1]
  exact storeRequestLine_supported request supported
    (fields.clean version (by simp)).2.2

end Stored

/-! ## Each class has its result -/

theorem ForeignMethod.answer {line : Bytes} (foreign : ForeignMethod line)
    (request : Request) :
    (parseRequestLine line request []).1.1 = .error .unsupportedMethod := by
  obtain ⟨method, target, version, fields, tokens, unsupported⟩ := foreign
  have token : methodTokenIsWellFormed method = true :=
    (methodTokenIsWellFormed_iff method).mpr
      ⟨(fields.clean method (by simp)).1, tokens⟩
  rw [parseRequestLine_fields fields token]
  exact storeRequestLine_foreign request unsupported

theorem ForeignVersion.answer {line : Bytes} (foreign : ForeignVersion line)
    (request : Request) :
    (parseRequestLine line request []).1.1 =
      .error .unsupportedVersion := by
  obtain ⟨method, target, version, fields, supported, numeric, other⟩ :=
    foreign
  have httpLike := (isHttpLikeVersion_iff version).mpr numeric
  rw [parseRequestLine_supported fields supported, if_neg other,
    if_pos httpLike]

theorem Acceptable.answer {line : Bytes} (acceptable : Acceptable line)
    (request : Request) :
    (parseRequestLine line request []).1.1 = .ok () := by
  obtain ⟨method, target, version, fields, supported, known⟩ := acceptable
  rw [parseRequestLine_supported fields supported, if_pos known]

/-- A line of none of the classes is refused, wherever the parser stops. -/
theorem parseRequestLine_remaining {line : Bytes}
    (short : line.length ≤ 8192) (method : ¬ForeignMethod line)
    (version : ¬ForeignVersion line) (acceptable : ¬Acceptable line)
    (request : Request) :
    (parseRequestLine line request []).1.1 = .error .badRequest := by
  have outcome := parseRequestLine_outcome line request []
  generalize parsed : parseRequestLine line request [] = result
    at outcome ⊢
  cases outcome with
  | tooLarge long => exact absurd long (Nat.not_lt.mpr short)
  | malformed later => rfl
  | unallocated refused => cases refused
  | @stored name target text fields token =>
      have tokens := ((methodTokenIsWellFormed_iff name).mp token).2
      have supported : name ∈ supportedMethods := by
        by_contra foreign
        exact method ⟨name, target, text, fields, tokens, foreign⟩
      have unknown : text ∉ supportedVersions := by
        intro known
        exact acceptable ⟨name, target, text, fields, supported, known⟩
      have unnumbered : ¬isHttpLikeVersion text = true := by
        intro httpLike
        exact version ⟨name, target, text, fields, supported,
          (isHttpLikeVersion_iff text).mp httpLike, unknown⟩
      rw [← parsed, parseRequestLine_supported fields supported,
        if_neg unknown, if_neg unnumbered]

theorem Classified.answer {line : Bytes} {answer : Except ParseError Unit}
    (classified : Classified line answer) (request : Request) :
    (parseRequestLine line request []).1.1 = answer := by
  cases answer with
  | ok success => exact Acceptable.answer classified request
  | error failure =>
      cases failure with
      | tooLarge =>
          have long : line.length > httpMaxRequestLine := classified
          rw [parseRequestLine, if_pos (.inr long), if_pos long]
      | unsupportedMethod => exact ForeignMethod.answer classified request
      | unsupportedVersion => exact ForeignVersion.answer classified request
      | badRequest =>
          obtain ⟨short, method, version, acceptable⟩ := classified
          exact parseRequestLine_remaining short method version acceptable
            request
      | tooManyHeaders => cases classified
      | invalidContentLength => cases classified
      | unsupportedTransferEncoding => cases classified
      | outOfMemory => cases classified

/-! ## Positions and lengths -/

/-- `parse_request_line` from the second space on, with its pointers as
positions in the line. -/
def splitVersionAt (line method : Bytes) (methodLen secondSp : Nat)
    (request : Request) (allocs : Allocs) :
    Option ((Except ParseError Unit × Request) × Allocs) :=
  if secondSp = methodLen + 1 then
    some ((.error .badRequest, request), allocs)
  else do
    let targetLen ← subtractAll secondSp [methodLen + 1]
    let versionLen ← subtractAll line.length [methodLen, 1, targetLen, 1]
    let spaced ← occursIn space line (secondSp + 1) versionLen
    if versionLen = 0 ∨ spaced then
      some ((.error .badRequest, request), allocs)
    else do
      let targetNul ← occursIn nul line (methodLen + 1) targetLen
      let versionNul ← occursIn nul line (secondSp + 1) versionLen
      if targetNul ∨ versionNul then
        some ((.error .badRequest, request), allocs)
      else do
        let target ← readRange line (methodLen + 1) targetLen
        let version ← readRange line (secondSp + 1) versionLen
        some (storeRequestLine method target version request allocs)

/-- `parse_request_line` behind the method. -/
def splitAfterMethodAt (line method : Bytes) (methodLen : Nat)
    (request : Request) (allocs : Allocs) :
    Option ((Except ParseError Unit × Request) × Allocs) :=
  if !methodTokenIsWellFormed method then
    some ((.error .badRequest, request), allocs)
  else do
    let remaining ← subtractAll line.length [methodLen, 1]
    if remaining = 0 then some ((.error .badRequest, request), allocs)
    else do
      let first ← getElem? line (methodLen + 1)
      if first = space then some ((.error .badRequest, request), allocs)
      else do
        let found ← memchr space line (methodLen + 1) remaining
        match found with
        | none => some ((.error .badRequest, request), allocs)
        | some secondSp =>
            splitVersionAt line method methodLen secondSp request allocs

/-- `parse_request_line` with its pointers as positions in the line.  Nothing
is returned if a search would leave the line or a subtraction would wrap
around. -/
def parseRequestLineAt (line : Bytes) (request : Request)
    (allocs : Allocs) :
    Option ((Except ParseError Unit × Request) × Allocs) :=
  if line.length = 0 ∨ line.length > httpMaxRequestLine then
    if line.length > httpMaxRequestLine then
      some ((.error .tooLarge, request), allocs)
    else some ((.error .badRequest, request), allocs)
  else do
    let found ← memchr space line 0 line.length
    match found with
    | none => some ((.error .badRequest, request), allocs)
    | some firstSp =>
        if firstSp = 0 then some ((.error .badRequest, request), allocs)
        else do
          let methodNul ← occursIn nul line 0 firstSp
          if methodNul then some ((.error .badRequest, request), allocs)
          else do
            let method ← readRange line 0 firstSp
            let methodCopy := malloc allocs
            if !methodCopy.1 then
              some ((.error .outOfMemory, request), methodCopy.2)
            else
              splitAfterMethodAt line (dupRange method) firstSp request
                methodCopy.2

section Positions

variable (method target version : Bytes)

theorem readRange_afterMethod (afterMethod : Bytes) :
    readRange (method ++ space :: afterMethod) (method.length + 1)
        afterMethod.length =
      some afterMethod := by
  have read := @readRange_between _ (method ++ space :: afterMethod)
    (method ++ [space]) afterMethod [] (by simp)
  rwa [List.length_append, List.length_singleton] at read

theorem readRange_target :
    readRange (method ++ space :: (target ++ space :: version))
        (method.length + 1) target.length =
      some target := by
  have read := @readRange_between _
    (method ++ space :: (target ++ space :: version)) (method ++ [space])
    target (space :: version) (by simp)
  rwa [List.length_append, List.length_singleton] at read

theorem readRange_version :
    readRange (method ++ space :: (target ++ space :: version))
        (method.length + 1 + target.length + 1) version.length =
      some version := by
  have read := readRange_afterMethod (method ++ space :: target) version
  have start : (method ++ space :: target).length =
      method.length + 1 + target.length := by
    rw [List.length_append, List.length_cons]
    omega
  rwa [start, List.append_assoc, List.cons_append] at read

theorem versionLen_eq :
    subtractAll (method ++ space :: (target ++ space :: version)).length
        [method.length, 1, target.length, 1] =
      some version.length := by
  rw [subtractAll_eq_some_iff]
  simp only [List.sum_cons, List.sum_nil, List.length_append,
    List.length_cons]
  omega

theorem remaining_eq (afterMethod : Bytes) :
    subtractAll (method ++ space :: afterMethod).length
        [method.length, 1] =
      some afterMethod.length := by
  rw [subtractAll_eq_some_iff]
  simp only [List.sum_cons, List.sum_nil, List.length_append,
    List.length_cons]
  omega

end Positions

theorem splitVersionAt_eq (name method target version : Bytes)
    (request : Request) (allocs : Allocs) :
    splitVersionAt (method ++ space :: (target ++ space :: version)) name
        method.length (method.length + 1 + target.length) request allocs =
      some (
        if target = [] then ((.error .badRequest, request), allocs)
        else if version = [] ∨ space ∈ version then
          ((.error .badRequest, request), allocs)
        else if nul ∈ target ∨ nul ∈ version then
          ((.error .badRequest, request), allocs)
        else storeRequestLine name target version request allocs) := by
  have targetLen : subtractAll (method.length + 1 + target.length)
      [method.length + 1] = some target.length := by
    rw [subtractAll_eq_some_iff, List.sum_singleton, Nat.add_comm]
  have nonempty : method.length + 1 + target.length = method.length + 1 ↔
      target = [] := by
    rw [← List.length_eq_zero_iff]
    omega
  unfold splitVersionAt
  rw [targetLen]
  simp only [nonempty, Option.bind_eq_bind, Option.bind_some, versionLen_eq,
    occursIn_eq (readRange_target method target version),
    occursIn_eq (readRange_version method target version),
    readRange_target, readRange_version, List.length_eq_zero_iff,
    decide_eq_true_eq]
  split_ifs
  · rfl
  · rfl
  · rfl
  · rfl

theorem splitAfterMethodAt_eq (name method afterMethod : Bytes)
    (request : Request) (allocs : Allocs) :
    splitAfterMethodAt (method ++ space :: afterMethod) name method.length
        request allocs =
      some (splitAfterMethod name afterMethod request allocs) := by
  unfold splitAfterMethodAt splitAfterMethod
  cases token : methodTokenIsWellFormed name with
  | false => rfl
  | true =>
      rw [remaining_eq]
      cases afterMethod with
      | nil => rfl
      | cons first others =>
          have searched := memchr_eq
            (readRange_afterMethod method (first :: others)) space
          rw [List.length_cons] at searched
          by_cases blank : first = space
          · simp [blank]
          cases cut : cutFirst space (first :: others) with
          | none => simp [blank, searched, cut]
          | some parts =>
              obtain ⟨target, version⟩ := parts
              obtain ⟨same, -⟩ := cutFirst_eq_some_iff.mp cut
              have behind := splitVersionAt_eq name method target version
                request allocs
              rw [← same] at behind
              simp [blank, searched, cut, behind]

theorem parseRequestLineAt_eq (line : Bytes) (request : Request)
    (allocs : Allocs) :
    parseRequestLineAt line request allocs =
      some (parseRequestLine line request allocs) := by
  unfold parseRequestLineAt parseRequestLine
  simp only [List.length_eq_zero_iff]
  by_cases outside : line = [] ∨ line.length > httpMaxRequestLine
  · rw [if_pos outside, if_pos outside]
    split_ifs
    · rfl
    · rfl
  rw [if_neg outside, if_neg outside]
  have whole := @readRange_between _ line [] line [] (by simp)
  rw [List.length_nil] at whole
  rw [memchr_eq whole]
  cases cut : cutFirst space line with
  | none => rfl
  | some parts =>
      obtain ⟨method, afterMethod⟩ := parts
      obtain ⟨rfl, -⟩ := cutFirst_eq_some_iff.mp cut
      have read := @readRange_between _ (method ++ space :: afterMethod) []
        method (space :: afterMethod) rfl
      rw [List.length_nil] at read
      simp only [Option.map_some, Option.bind_eq_bind, Option.bind_some,
        Nat.zero_add, List.length_eq_zero_iff, occursIn_eq read, read,
        splitAfterMethodAt_eq, decide_eq_true_eq]
      split_ifs
      · rfl
      · rfl
      · rfl
      · rfl

/-- For every line, with LF in it or not, each result has exactly its own
lines, and all positions and lengths on the way are in range. -/
theorem parseRequestLine_exact (line : Bytes) (request : Request) :
    (∀ answer, (parseRequestLine line request []).1.1 = answer ↔
      Classified line answer) ∧
    ∀ allocs, parseRequestLineAt line request allocs =
      some (parseRequestLine line request allocs) := by
  refine ⟨?_, parseRequestLineAt_eq line request⟩
  intro answer
  constructor
  · rintro rfl
    obtain ⟨answer, classified⟩ := classified_exists line
    rw [classified.answer request]
    exact classified
  · intro classified
    exact classified.answer request

-- The method is looked at before the version.
example : (parseRequestLine (ascii "PRI * HTTP/2.0") httpRequestInit
    []).1.1 = .error .unsupportedMethod := by
  decide

end CinderHTTP
