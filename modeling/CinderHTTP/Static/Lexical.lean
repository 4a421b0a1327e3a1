import CinderHTTP.Base.Cancellation
import CinderHTTP.Static.Serve

/-!
# What the lexical stages compute

The path of a target ends at its query or fragment.  The decoder inverts
percent-encodings, and the normalizer cancels the dot segments of the decoded
path.  They are compared with definitions that do not mention the loops of
`static_files.c`.
-/

namespace CinderHTTP

/-! ## Path portions -/

theorem pathPortion_slash (target : Bytes) :
    pathPortion (slash :: target) = .ok (slash ::
      target.takeWhile fun character =>
        character ≠ question && character ≠ hash) := by
  have kept : (slash ≠ question && slash ≠ hash) = true := by decide
  rw [pathPortion, if_neg (by simp), if_neg (by simp), List.takeWhile_cons,
    if_pos kept]

/-- The path is what stands before the first query or fragment mark. -/
theorem pathPortion_ok_iff (target path : Bytes) :
    pathPortion (slash :: target) = .ok (slash :: path) ↔
      ∃ suffix, target = path ++ suffix ∧ (question ∉ path ∧ hash ∉ path) ∧
        (AtBoundary question suffix ∨ AtBoundary hash suffix) := by
  rw [pathPortion_slash, Except.ok.injEq, List.cons.injEq]
  constructor
  · rintro ⟨-, rfl⟩
    refine ⟨target.dropWhile fun character =>
      character ≠ question && character ≠ hash,
      List.takeWhile_append_dropWhile.symm, ⟨?_, ?_⟩, ?_⟩
    · intro member
      simpa using List.mem_takeWhile_imp member
    · intro member
      simpa using List.mem_takeWhile_imp member
    · have stopped := List.head?_dropWhile_not (fun character =>
        character ≠ question && character ≠ hash) target
      generalize (target.dropWhile fun character =>
        character ≠ question && character ≠ hash) = suffix at stopped ⊢
      rcases suffix with _ | ⟨mark, rest⟩
      · exact .inl (.nil question)
      · have either : mark = question ∨ mark = hash := by
          by_cases query : mark = question
          · exact .inl query
          · exact .inr (by simpa [query] using stopped)
        rcases either with rfl | rfl
        · exact .inl (.cons question rest)
        · exact .inr (.cons hash rest)
  · rintro ⟨suffix, rfl, ⟨noQuestion, noHash⟩, boundary⟩
    have whole : ∀ character ∈ path,
        (character ≠ question && character ≠ hash) = true := by
      intro character member
      have one : character ≠ question := fun same => noQuestion (same ▸ member)
      have two : character ≠ hash := fun same => noHash (same ▸ member)
      simp [one, two]
    refine ⟨rfl, ?_⟩
    rw [List.takeWhile_append_of_pos whole]
    cases suffix with
    | nil => simp
    | cons mark rest =>
        rcases boundary with query | fragment
        · simp [query.eq_of_cons]
        · simp [fragment.eq_of_cons]

/-! ## Percent-encodings -/

/-- The byte that two hexadecimal digits stand for. -/
def escapedByte (high low : Byte) : Byte :=
  UInt8.ofNat (hexValue high * 16 + hexValue low)

/-- The first text is obtained from the second one by escaping some of its
bytes, among them every percent sign.  No escape stands for NUL. -/
inductive PercentEncoding : Bytes → Bytes → Prop
  | nil : PercentEncoding [] []
  | literal {character : Byte} {encoded decoded : Bytes} :
      character ≠ percent → PercentEncoding encoded decoded →
      PercentEncoding (character :: encoded) (character :: decoded)
  | escape {high low : Byte} {encoded decoded : Bytes} :
      isHex high = true → isHex low = true → escapedByte high low ≠ nul →
      PercentEncoding encoded decoded →
      PercentEncoding (percent :: high :: low :: encoded)
        (escapedByte high low :: decoded)

theorem decodeEscapes_percentEncoding {encoded decoded : Bytes}
    (success : decodeEscapes encoded = some decoded) :
    PercentEncoding encoded decoded := by
  fun_induction decodeEscapes encoded generalizing decoded with
  | case1 =>
      cases success
      exact .nil
  | case2 => simp at success
  | case3 => simp at success
  | case4 high low more hex value notNul =>
      rename_i induction
      obtain ⟨rest, found, rfl⟩ := Option.map_eq_some_iff.mp success
      simp only [Bool.or_eq_true, Bool.not_eq_true', not_or,
        Bool.not_eq_false] at hex
      exact .escape hex.1 hex.2 notNul (induction found)
  | case5 => simp at success
  | case6 character rest literal induction =>
      obtain ⟨rest, found, rfl⟩ := Option.map_eq_some_iff.mp success
      exact .literal literal (induction found)

theorem decodeEscapes_literal {character : Byte} (literal : character ≠ percent)
    (rest : Bytes) :
    decodeEscapes (character :: rest) =
      (decodeEscapes rest).map (character :: ·) := by
  rw [decodeEscapes.eq_def]
  simp only [literal, if_false]

theorem decodeEscapes_escape {high low : Byte} (highHex : isHex high = true)
    (lowHex : isHex low = true) (filled : escapedByte high low ≠ nul)
    (rest : Bytes) :
    decodeEscapes (percent :: high :: low :: rest) =
      (decodeEscapes rest).map (escapedByte high low :: ·) := by
  rw [decodeEscapes, if_pos rfl]
  simp only [highHex, lowHex, Bool.not_true, Bool.or_self, Bool.false_eq_true,
    if_false]
  rw [← escapedByte, if_neg filled]

theorem PercentEncoding.decodeEscapes_append {encoded decoded : Bytes}
    (encoding : PercentEncoding encoded decoded) (rest : Bytes) :
    decodeEscapes (encoded ++ rest) =
      (decodeEscapes rest).map (decoded ++ ·) := by
  induction encoding with
  | nil => simp
  | literal literal _ induction =>
      rw [List.cons_append, decodeEscapes_literal literal, induction,
        Option.map_map]
      rfl
  | escape highHex lowHex filled _ induction =>
      simp only [List.cons_append]
      rw [decodeEscapes_escape highHex lowHex filled, induction,
        Option.map_map]
      rfl

theorem PercentEncoding.decodeEscapes_eq {encoded decoded : Bytes}
    (encoding : PercentEncoding encoded decoded) :
    decodeEscapes encoded = some decoded := by
  have decoding := encoding.decodeEscapes_append []
  simpa [decodeEscapes] using decoding

theorem PercentEncoding.of_literal {character first : Byte}
    {encoded decoded : Bytes} (literal : character ≠ percent)
    (encoding : PercentEncoding (character :: encoded) (first :: decoded)) :
    PercentEncoding encoded decoded := by
  have decoding := encoding.decodeEscapes_eq
  rw [decodeEscapes_literal literal] at decoding
  obtain ⟨rest, found, same⟩ := Option.map_eq_some_iff.mp decoding
  rw [List.cons.injEq] at same
  rw [← same.2]
  exact decodeEscapes_percentEncoding found

/-! ## Segments -/

/-- Empty segments and single dots do nothing, two dots remove the segment
before them. -/
def segmentMove (segment : Bytes) : Move :=
  if segment = [] ∨ segment = ascii "." then .skip
  else if segment = ascii ".." then .pop
  else .push

/-- The segments that are left of a path without its leading slash. -/
def normalSegments (path : Bytes) : Option (List Bytes) :=
  cancel segmentMove [] (path.splitOn slash)

theorem cancelStep_idle {segment : Bytes}
    (idle : segment = [] ∨ segment = ascii ".") (stack : List Bytes) :
    cancelStep segmentMove stack segment = some stack := by
  rw [cancelStep, segmentMove, if_pos idle]

theorem cancelStep_dots (stack : List Bytes) :
    cancelStep segmentMove stack (ascii "..") =
      if stack.isEmpty then none else some stack.dropLast := rfl

theorem cancelStep_ordinary {segment : Bytes} (filled : segment ≠ [])
    (notDot : segment ≠ ascii ".") (notDots : segment ≠ ascii "..")
    (stack : List Bytes) :
    cancelStep segmentMove stack segment = some (stack ++ [segment]) := by
  rw [cancelStep, segmentMove, if_neg (not_or.mpr ⟨filled, notDot⟩),
    if_neg notDots]

/-- One turn of the loop takes one segment. -/
theorem cancel_splitOn (stack : List Bytes) (cursor : Bytes) :
    cancel segmentMove stack (cursor.splitOn slash) =
      (cancelStep segmentMove stack
        (cursor.takeWhile (· ≠ slash))).bind fun next =>
          cancel segmentMove next
            (((cursor.dropWhile (· ≠ slash)).drop 1).splitOn slash) := by
  rw [splitOn_cut]
  rcases cursor.dropWhile (· ≠ slash) with _ | ⟨_, rest⟩
  · simp only [cancel_singleton, cancelStep_idle (.inl rfl), List.drop_nil,
      List.splitOn_nil, Option.bind_fun_some]
  · rw [cancel, List.drop_one, List.tail_cons]

theorem slash_not_mem_splitOn {path segment : Bytes}
    (member : segment ∈ path.splitOn slash) : slash ∉ segment := by
  induction path generalizing segment with
  | nil =>
      rw [List.splitOn_nil, List.mem_singleton] at member
      simp [member]
  | cons character path induction =>
      rw [List.splitOn_cons_eq_if_modifyHead] at member
      split_ifs at member with separator
      · rcases List.mem_cons.mp member with rfl | inRest
        · simp
        · exact induction inRest
      · rcases pieces : path.splitOn slash with _ | ⟨first, others⟩
        · simp [pieces] at member
        · rw [pieces, List.modifyHead_cons, List.mem_cons] at member
          rw [pieces] at induction
          rcases member with rfl | inOthers
          · rw [List.mem_cons, not_or]
            refine ⟨?_, induction List.mem_cons_self⟩
            intro same
            exact separator (beq_iff_eq.mpr same.symm)
          · exact induction (List.mem_cons_of_mem _ inOthers)

theorem normalSegments_clean {path : Bytes} {segments : List Bytes}
    (normal : normalSegments path = some segments) :
    ∀ segment ∈ segments, slash ∉ segment ∧ segment ≠ [] := by
  intro segment member
  rcases mem_of_cancel normal member with inEmpty | ⟨inPath, pushed⟩
  · simp at inEmpty
  · refine ⟨slash_not_mem_splitOn inPath, ?_⟩
    intro empty
    simp [segmentMove, empty] at pushed

theorem joinSegments_eq_intercalate (segments : List Bytes) :
    joinSegments segments = [slash].intercalate segments := by
  fun_induction joinSegments segments with
  | case1 => rfl
  | case2 segment => simp [List.intercalate]
  | case3 segment next segments induction =>
      rw [induction]
      simp [List.intercalate]

theorem splitOn_joinSegments {segments : List Bytes}
    (clean : ∀ segment ∈ segments, slash ∉ segment)
    (nonempty : segments ≠ []) :
    (joinSegments segments).splitOn slash = segments := by
  rw [joinSegments_eq_intercalate]
  exact List.splitOn_intercalate slash clean nonempty

/-! ## The loop -/

theorem pushSegment_some {segment : Bytes} {segments pushed : List Bytes}
    {capacity newCapacity : Nat} {process later : Process}
    (success : pushSegment segment segments capacity process =
      (some (pushed, newCapacity), later)) :
    pushed = segments ++ [segment] := by
  unfold pushSegment at success
  simp only at success
  split_ifs at success
  all_goals simp only [Prod.mk.injEq, Option.some.injEq, reduceCtorEq,
    false_and] at success
  all_goals exact success.1.1.symm

theorem pushSegment_granted (segment : Bytes) (segments : List Bytes)
    (capacity : Nat) {process : Process} (granted : process.allocs = []) :
    ∃ newCapacity, pushSegment segment segments capacity process =
      (some (segments ++ [segment], newCapacity), process) := by
  unfold pushSegment
  by_cases full : segments.length = capacity
  · simp [full, granted]
  · simp [full, granted]

/-- The loop cancels the segments it has passed. -/
theorem normalizeFrom_ok {cursor : Bytes} {segments result : List Bytes}
    {capacity : Nat} {process later : Process}
    (success : normalizeFrom cursor segments capacity process =
      (.ok result, later)) :
    cancel segmentMove segments (cursor.splitOn slash) = some result := by
  fun_induction normalizeFrom cursor segments capacity process with
  | case1 =>
      simp only [Prod.mk.injEq, Except.ok.injEq] at success
      rw [List.splitOn_nil, cancel_singleton, cancelStep_idle (.inl rfl),
        success.1]
  | case2 cursor segments capacity process _ segment next empty induction =>
      rw [cancel_splitOn, cancelStep_idle (.inl empty), Option.bind_some]
      exact induction success
  | case3 cursor segments capacity process _ segment next _ dot induction =>
      rw [cancel_splitOn, cancelStep_idle (.inr dot), Option.bind_some]
      exact induction success
  | case4 => simp at success
  | case5 cursor segments capacity process _ segment next _ _ dots remaining
      induction =>
      change cursor.takeWhile (· ≠ slash) = _ at dots
      rw [cancel_splitOn, dots, cancelStep_dots,
        if_neg (by simpa using remaining), Option.bind_some]
      exact induction success
  | case6 => simp at success
  | case7 cursor segments capacity process _ segment next filled notDot
      notDots pushed newCapacity between pushing induction =>
      rw [cancel_splitOn, cancelStep_ordinary filled notDot notDots,
        Option.bind_some, ← pushSegment_some pushing]
      exact induction success

/-- Without allocation failures the loop stops only at two dots that have no
segment to remove. -/
theorem normalizeFrom_granted (cursor : Bytes) (segments : List Bytes)
    (capacity : Nat) {process : Process} (granted : process.allocs = []) :
    normalizeFrom cursor segments capacity process =
      (match cancel segmentMove segments (cursor.splitOn slash) with
        | some result => .ok result
        | none => .error .forbidden, process) := by
  fun_induction normalizeFrom cursor segments capacity process with
  | case1 =>
      rw [List.splitOn_nil, cancel_singleton, cancelStep_idle (.inl rfl)]
  | case2 cursor segments capacity process _ segment next empty induction =>
      rw [cancel_splitOn, cancelStep_idle (.inl empty), Option.bind_some]
      exact induction granted
  | case3 cursor segments capacity process _ segment next _ dot induction =>
      rw [cancel_splitOn, cancelStep_idle (.inr dot), Option.bind_some]
      exact induction granted
  | case4 cursor capacity process _ segment _ _ dots =>
      change cursor.takeWhile (· ≠ slash) = _ at dots
      rw [cancel_splitOn, dots, cancelStep_dots, if_pos List.isEmpty_nil,
        Option.bind_none]
  | case5 cursor segments capacity process _ segment next _ _ dots remaining
      induction =>
      change cursor.takeWhile (· ≠ slash) = _ at dots
      rw [cancel_splitOn, dots, cancelStep_dots,
        if_neg (by simpa using remaining), Option.bind_some]
      exact induction granted
  | case6 cursor segments capacity process _ segment _ _ _ between refused =>
      obtain ⟨newCapacity, pushing⟩ :=
        pushSegment_granted segment segments capacity granted
      rw [refused] at pushing
      simp at pushing
  | case7 cursor segments capacity process _ segment next filled notDot
      notDots pushed newCapacity between pushing induction =>
      obtain ⟨sameCapacity, answer⟩ :=
        pushSegment_granted segment segments capacity granted
      rw [pushing, Prod.mk.injEq] at answer
      obtain ⟨-, rfl⟩ := answer
      rw [cancel_splitOn, cancelStep_ordinary filled notDot notDots,
        Option.bind_some, ← pushSegment_some pushing]
      exact induction granted

/-! ## The stages -/

theorem staticFilesExtractPath_ok {target path : Bytes}
    {process later : Process}
    (success : staticFilesExtractPath target process = (.ok path, later)) :
    pathPortion target = .ok path := by
  unfold staticFilesExtractPath at success
  cases portion : pathPortion target with
  | error failure => simp [portion] at success
  | ok found =>
      simp only [portion] at success
      split_ifs at success
      · simp at success
      · simp only [Prod.mk.injEq, Except.ok.injEq] at success
        rw [success.1]

theorem staticFilesUrlDecode_ok {input decoded : Bytes}
    {process later : Process}
    (success : staticFilesUrlDecode input process = (.ok decoded, later)) :
    PercentEncoding input decoded := by
  apply decodeEscapes_percentEncoding
  unfold staticFilesUrlDecode at success
  simp only at success
  split_ifs at success
  · simp at success
  · cases escapes : decodeEscapes input with
    | none => simp [escapes] at success
    | some found =>
        simp only [escapes, Prod.mk.injEq, Except.ok.injEq] at success
        rw [success.1]

theorem staticFilesNormalizePath_ok {decoded relative : Bytes}
    {process later : Process}
    (success : staticFilesNormalizePath decoded process =
      (.ok relative, later)) :
    ∃ path segments, decoded = slash :: path ∧
      normalSegments path = some segments ∧
      relative = joinSegments segments := by
  unfold staticFilesNormalizePath at success
  cases decoded with
  | nil => simp at success
  | cons first path =>
      simp only at success
      split_ifs at success with leading
      · simp at success
      rcases loop : normalizeFrom path [] 0 process with
        ⟨failure | segments, between⟩
      · simp [loop] at success
      simp only [loop] at success
      split_ifs at success
      · simp at success
      simp only [Prod.mk.injEq, Except.ok.injEq] at success
      exact ⟨path, segments, by rw [not_not.mp leading],
        normalizeFrom_ok loop, success.1.symm⟩

/-- The path of a target, before its query and fragment, denotes a relative
path with the given segments. -/
def Denotes (target : Bytes) (segments : List Bytes) : Prop :=
  ∃ path decoded, pathPortion target = .ok path ∧
    PercentEncoding path (slash :: decoded) ∧
    normalSegments decoded = some segments

/-- Whatever the allocations, a relative path is the one that the target
denotes. -/
theorem relativePath_ok {target relative : Bytes} {process later : Process}
    (success : relativePath target process = (.ok relative, later)) :
    ∃ segments, Denotes target segments ∧
      relative = joinSegments segments := by
  unfold relativePath at success
  rcases extracted : staticFilesExtractPath target process with
    ⟨failure | path, afterPath⟩
  · simp [extracted] at success
  simp only [extracted] at success
  rcases decoding : staticFilesUrlDecode path afterPath with
    ⟨failure | decoded, afterDecode⟩
  · simp [decoding] at success
  simp only [decoding] at success
  obtain ⟨rest, segments, rfl, normal, same⟩ :=
    staticFilesNormalizePath_ok success
  exact ⟨segments, ⟨path, rest, staticFilesExtractPath_ok extracted,
    staticFilesUrlDecode_ok decoding, normal⟩, same⟩

/-- Without allocation failures every target that denotes a path has it as
its relative path. -/
theorem relativePath_granted {target : Bytes} {segments : List Bytes}
    (denotes : Denotes target segments) {process : Process}
    (granted : process.allocs = []) :
    relativePath target process = (.ok (joinSegments segments), process) := by
  obtain ⟨path, decoded, portion, encoding, normal⟩ := denotes
  rw [normalSegments] at normal
  unfold relativePath staticFilesExtractPath staticFilesUrlDecode
    staticFilesNormalizePath
  simp [portion, granted, encoding.decodeEscapes_eq,
    normalizeFrom_granted decoded [] 0 granted, normal]

end CinderHTTP
