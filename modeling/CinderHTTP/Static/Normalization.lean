import CinderHTTP.Base.Buffer
import CinderHTTP.Static.Lexical

/-!
# Normalization is exact

`static_files_normalize_path` refuses a path exactly when some beginning of
its segments leaves the root, and otherwise returns what is left when every
pair of dots is cancelled against the segment in front of it.  The size that
is computed before the result is written is the number of bytes written.
-/

namespace CinderHTTP

/-! ## Segments -/

/-- The pieces of a path between slashes, without empty ones and single
dots. -/
def pathSegments (path : Bytes) : List Bytes :=
  (path.splitOn slash).filter fun segment =>
    segment ≠ [] ∧ segment ≠ ascii "."

/-- Some beginning of the segments has more pairs of dots than others. -/
def LeavesRoot (segments : List Bytes) : Prop :=
  ∃ front, front <+: segments ∧
    (front.countP fun segment => segment ≠ ascii "..") <
      front.count (ascii "..")

/-- A pair of dots is cancelled against the segment right in front of it. -/
inductive CancelsDots : List Bytes → List Bytes → Prop
  | pair {front back : List Bytes} {segment : Bytes} :
      segment ≠ ascii ".." →
      CancelsDots (front ++ segment :: ascii ".." :: back) (front ++ back)

theorem segmentMove_eq_skip_iff (segment : Bytes) :
    segmentMove segment = .skip ↔ segment = [] ∨ segment = ascii "." := by
  unfold segmentMove
  split_ifs with idle dots
  · simp [idle]
  · simp [idle]
  · simp [idle]

theorem segmentMove_eq_pop_iff (segment : Bytes) :
    segmentMove segment = .pop ↔ segment = ascii ".." := by
  unfold segmentMove
  split_ifs with idle dots
  · have other : segment ≠ ascii ".." := by
      rcases idle with rfl | rfl
      · decide
      · decide
    simp [other]
  · simp [dots]
  · simp [dots]

theorem active_splitOn (path : Bytes) :
    active segmentMove (path.splitOn slash) = pathSegments path := by
  unfold active pathSegments
  congr
  funext segment
  simp only [ne_eq, segmentMove_eq_skip_iff, not_or]

theorem segmentMove_pathSegments {path segment : Bytes}
    (member : segment ∈ pathSegments path) :
    segmentMove segment = .push ↔ segment ≠ ascii ".." := by
  have kept : ¬(segment = [] ∨ segment = ascii ".") := by
    have filtered := (List.mem_filter.mp member).2
    simpa [not_or] using filtered
  rw [← segmentMove_eq_skip_iff] at kept
  rw [ne_eq, ← segmentMove_eq_pop_iff]
  cases kind : segmentMove segment with
  | skip => exact absurd kind kept
  | push => simp
  | pop => simp

/-- On segments of a path the two ways to say what is cancelled agree. -/
theorem cancelsPair_iff_cancelsDots {path : Bytes} {items reduced : List Bytes}
    (segments : ∀ item ∈ items, item ∈ pathSegments path) :
    CancelsPair segmentMove items reduced ↔ CancelsDots items reduced := by
  constructor
  · intro step
    cases step with
    | pair pushed popped =>
        rw [segmentMove_eq_pop_iff] at popped
        subst popped
        apply CancelsDots.pair
        exact (segmentMove_pathSegments (segments _ (by simp))).mp pushed
  · intro step
    cases step with
    | pair ordinary =>
        apply CancelsPair.pair
        · exact (segmentMove_pathSegments (segments _ (by simp))).mpr ordinary
        · exact (segmentMove_eq_pop_iff _).mpr rfl

theorem CancelsDots.subset {items reduced : List Bytes}
    (step : CancelsDots items reduced) : reduced ⊆ items := by
  cases step with
  | pair =>
      intro item member
      rcases List.mem_append.mp member with inFront | inBack
      · exact List.mem_append_left _ inFront
      · simp [inBack]

theorem reduces_iff {path : Bytes} {items result : List Bytes}
    (segments : ∀ item ∈ items, item ∈ pathSegments path) :
    Relation.ReflTransGen (CancelsPair segmentMove) items result ↔
      Relation.ReflTransGen CancelsDots items result := by
  constructor
  · intro reduces
    induction reduces using Relation.ReflTransGen.head_induction_on with
    | refl => exact .refl
    | head step _ induction =>
        have dots := (cancelsPair_iff_cancelsDots segments).mp step
        refine .head dots (induction ?_)
        intro item member
        exact segments item (dots.subset member)
  · intro reduces
    induction reduces using Relation.ReflTransGen.head_induction_on with
    | refl => exact .refl
    | head step _ induction =>
        refine .head ((cancelsPair_iff_cancelsDots segments).mpr step)
          (induction ?_)
        intro item member
        exact segments item (step.subset member)

theorem reduces_subset {items result : List Bytes}
    (reduces : Relation.ReflTransGen CancelsDots items result) :
    result ⊆ items := by
  induction reduces with
  | refl => exact List.Subset.refl _
  | tail _ step induction => exact List.Subset.trans step.subset induction

/-- The segments that are left of a path. -/
structure Normalizes (path : Bytes) (segments : List Bytes) : Prop where
  cancelled : Relation.ReflTransGen CancelsDots (pathSegments path) segments
  finished : ascii ".." ∉ segments

theorem normalSegments_eq_some_iff (path : Bytes) (segments : List Bytes) :
    normalSegments path = some segments ↔ Normalizes path segments := by
  rw [normalSegments, cancel_eq_some_iff, active_splitOn,
    reduces_iff fun _ member => member]
  constructor
  · rintro ⟨reduces, pushed⟩
    refine ⟨reduces, ?_⟩
    intro dots
    have kind := pushed _ dots
    rw [(segmentMove_eq_pop_iff _).mpr rfl] at kind
    cases kind
  · rintro ⟨reduces, finished⟩
    refine ⟨reduces, ?_⟩
    intro segment member
    rw [segmentMove_pathSegments (reduces_subset reduces member)]
    rintro rfl
    exact finished member

theorem normalSegments_eq_none_iff (path : Bytes) :
    normalSegments path = none ↔ LeavesRoot (pathSegments path) := by
  rw [normalSegments, cancel_eq_none_iff, active_splitOn, LeavesRoot]
  refine exists_congr fun front => and_congr_right fun isFront => ?_
  have ordinary : (front.countP fun segment =>
      segmentMove segment = .push) =
        front.countP fun segment => segment ≠ ascii ".." := by
    apply List.countP_congr
    intro segment member
    simpa using segmentMove_pathSegments (isFront.subset member)
  have dots : (front.countP fun segment => segmentMove segment = .pop) =
      front.count (ascii "..") := by
    rw [List.count]
    apply List.countP_congr
    intro segment member
    simpa using segmentMove_eq_pop_iff segment
  rw [ordinary, dots]

/-! ## Results -/

theorem Normalizes.unique {path : Bytes} {segments others : List Bytes}
    (left : Normalizes path segments) (right : Normalizes path others) :
    segments = others := by
  rw [← normalSegments_eq_some_iff] at left right
  rw [left] at right
  exact Option.some.inj right

theorem Normalizes.clean {path : Bytes} {segments : List Bytes}
    (normal : Normalizes path segments) :
    ∀ segment ∈ segments, slash ∉ segment ∧ segment ≠ [] ∧
      segment ≠ ascii "." ∧ segment ≠ ascii ".." := by
  intro segment member
  obtain ⟨inPath, kept⟩ :=
    List.mem_filter.mp (reduces_subset normal.cancelled member)
  have filled : segment ≠ [] ∧ segment ≠ ascii "." := by simpa using kept
  refine ⟨slash_not_mem_splitOn inPath, filled.1, filled.2, ?_⟩
  rintro rfl
  exact normal.finished member

/-- What is left of a path is left of itself. -/
theorem Normalizes.idempotent {path : Bytes} {segments : List Bytes}
    (normal : Normalizes path segments) :
    Normalizes (joinSegments segments) segments := by
  have clean := normal.clean
  refine ⟨?_, normal.finished⟩
  have same : pathSegments (joinSegments segments) = segments := by
    unfold pathSegments
    by_cases empty : segments = []
    · subst empty
      rfl
    · rw [splitOn_joinSegments (fun segment member =>
        (clean segment member).1) empty, List.filter_eq_self]
      intro segment member
      simp [(clean segment member).2.1, (clean segment member).2.2.1]
  rw [same]

theorem joinSegments_no_slash {segments : List Bytes}
    (clean : ∀ segment ∈ segments, slash ∉ segment ∧ segment ≠ []) :
    (joinSegments segments).head? ≠ some slash ∧
      (joinSegments segments).getLast? ≠ some slash := by
  fun_induction joinSegments segments with
  | case1 => simp
  | case2 segment =>
      obtain ⟨noSlash, -⟩ := clean segment List.mem_cons_self
      constructor
      · intro first
        exact noSlash (List.mem_of_mem_head? first)
      · intro last
        exact noSlash (List.mem_of_mem_getLast? last)
  | case3 segment next segments induction =>
      obtain ⟨noSlash, filled⟩ := clean segment List.mem_cons_self
      obtain ⟨-, ending⟩ := induction fun other member =>
        clean other (List.mem_cons_of_mem _ member)
      constructor
      · rw [List.head?_append_of_ne_nil _ filled]
        intro first
        exact noSlash (List.mem_of_mem_head? first)
      · have behind : joinSegments (next :: segments) ≠ [] := by
          have second := (clean next (by simp)).2
          cases segments with
          | nil => exact second
          | cons => simp [joinSegments]
        rw [List.getLast?_append_of_ne_nil _ (by simp),
          List.getLast?_cons, List.getLast?_eq_some_getLast behind]
        rw [List.getLast?_eq_some_getLast behind] at ending
        exact ending

/-! ## The buffer of the result -/

/-- The size computed before the result is written. -/
def relativeTotal : List Bytes → Nat
  | [] => 0
  | [segment] => segment.length
  | segment :: next :: segments =>
      segment.length + 1 + relativeTotal (next :: segments)

/-- The copies into the result, in order. -/
def relativePieces : List Bytes → List Bytes
  | [] => []
  | [segment] => [segment]
  | segment :: next :: segments =>
      segment :: [slash] :: relativePieces (next :: segments)

/-- The result as it is written into its heap buffer, closed by a NUL, and
the offset reached. -/
def writeRelative (segments : List Bytes) (heap : Bytes) :
    Option (Bytes × Nat) :=
  (copyAll heap 0 (relativePieces segments)).bind fun written =>
    (copyAt written.1 written.2 [nul]).map fun closed =>
      (closed, written.2)

theorem relativePieces_flatten (segments : List Bytes) :
    (relativePieces segments).flatten = joinSegments segments := by
  fun_induction joinSegments segments with
  | case1 => rfl
  | case2 segment => simp [relativePieces]
  | case3 segment next segments induction =>
      rw [relativePieces, List.flatten_cons, List.flatten_cons, induction,
        List.singleton_append]

theorem joinSegments_length (segments : List Bytes) :
    (joinSegments segments).length = relativeTotal segments := by
  fun_induction joinSegments segments with
  | case1 => rfl
  | case2 segment => rfl
  | case3 segment next segments induction =>
      rw [relativeTotal, List.length_append, List.length_cons, induction]
      omega

theorem writeRelative_exact {segments : List Bytes} {heap : Bytes}
    (sized : heap.length = relativeTotal segments + 1) :
    writeRelative segments heap =
      some (joinSegments segments ++ [nul], relativeTotal segments) := by
  have room : heap.length =
      (relativePieces segments).flatten.length + 1 := by
    rw [relativePieces_flatten, joinSegments_length, sized]
  obtain ⟨last, copied⟩ := copyAll_exact (relativePieces segments) room
  rw [relativePieces_flatten] at copied
  have closing := @copyAt_append _ (joinSegments segments) [last] [nul]
    (Nat.le_refl _)
  rw [writeRelative, copied, Option.bind_some, closing, Option.map_some,
    joinSegments_length, List.length_singleton, List.drop_one,
    List.tail_cons, List.append_nil]

/-! ## The function -/

theorem staticFilesNormalizePath_granted (path : Bytes) {process : Process}
    (granted : process.allocs = []) :
    staticFilesNormalizePath (slash :: path) process =
      (match normalSegments path with
        | some segments => .ok (joinSegments segments)
        | none => .error .forbidden, process) := by
  unfold staticFilesNormalizePath
  simp only [ne_eq, not_true_eq_false, if_false]
  rw [normalizeFrom_granted path [] 0 granted, normalSegments]
  cases cancel segmentMove [] (path.splitOn slash) with
  | none => simp
  | some segments => simp [granted]

/-- A result of normalization, with the buffer that holds it. -/
structure NormalResult (path relative : Bytes) : Prop where
  segments : ∃ segments, Normalizes path segments ∧
    (∀ others, Normalizes path others → others = segments) ∧
    relative = [slash].intercalate segments ∧
    (∀ segment ∈ segments, slash ∉ segment ∧ segment ≠ [] ∧
      segment ≠ ascii "." ∧ segment ≠ ascii "..") ∧
    relative.length = relativeTotal segments ∧
    ∀ heap : Bytes, heap.length = relativeTotal segments + 1 →
      writeRelative segments heap =
        some (relative ++ [nul], relativeTotal segments)
  first : relative.head? ≠ some slash
  last : relative.getLast? ≠ some slash

theorem Normalizes.result {path : Bytes} {segments : List Bytes}
    (normal : Normalizes path segments) :
    NormalResult path (joinSegments segments) := by
  have clean := normal.clean
  have ends := joinSegments_no_slash fun segment member =>
    ⟨(clean segment member).1, (clean segment member).2.1⟩
  refine ⟨⟨segments, normal, ?_, joinSegments_eq_intercalate segments, clean,
    joinSegments_length segments, ?_⟩, ends.1, ends.2⟩
  · intro others other
    exact other.unique normal
  · intro heap sized
    exact writeRelative_exact sized

/-- Normalization refuses the paths that leave the root, and returns the
segments that are left of every other one. -/
theorem staticFilesNormalizePath_exact (path : Bytes) {process : Process}
    (granted : process.allocs = []) :
    (LeavesRoot (pathSegments path) ∧
      staticFilesNormalizePath (slash :: path) process =
        (.error .forbidden, process)) ∨
    (¬LeavesRoot (pathSegments path) ∧
      ∃ relative, staticFilesNormalizePath (slash :: path) process =
          (.ok relative, process) ∧
        NormalResult path relative ∧
        staticFilesNormalizePath (slash :: relative) process =
          (.ok relative, process)) := by
  rw [staticFilesNormalizePath_granted path granted]
  cases outcome : normalSegments path with
  | none =>
      exact .inl ⟨(normalSegments_eq_none_iff path).mp outcome, rfl⟩
  | some segments =>
      have normal := (normalSegments_eq_some_iff path segments).mp outcome
      refine .inr ⟨?_, joinSegments segments, rfl, normal.result, ?_⟩
      · rw [← normalSegments_eq_none_iff, outcome]
        simp
      · rw [staticFilesNormalizePath_granted _ granted,
          (normalSegments_eq_some_iff _ _).mpr normal.idempotent]

theorem staticFilesNormalizePath_exact_dots :
    (staticFilesNormalizePath (ascii "/a//./b/../...//") {}).1 =
        .ok (ascii "a/...") ∧
      NormalResult (ascii "a//./b/../...//") (ascii "a/...") := by
  have computed : (staticFilesNormalizePath
      (slash :: ascii "a//./b/../...//") {}).1 = .ok (ascii "a/...") := by
    decide +kernel
  have granted : ({} : Process).allocs = [] := rfl
  refine ⟨computed, ?_⟩
  rcases staticFilesNormalizePath_exact (ascii "a//./b/../...//") granted with
    ⟨-, refused⟩ | ⟨-, relative, success, normal, -⟩
  · rw [refused] at computed
    cases computed
  · rw [success, Except.ok.injEq] at computed
    rwa [computed] at normal

end CinderHTTP
