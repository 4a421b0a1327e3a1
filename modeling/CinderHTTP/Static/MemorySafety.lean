import CinderHTTP.Http.MemorySafety
import CinderHTTP.Static.SegmentMemory

/-!
# The lookup of a file is safe in memory

Normalization walks over the decoded path, joins the segments into a block
that has room for them, and frees them.  The whole lookup frees every path it
has made, and finds what the functions on lists say.
-/

namespace CinderHTTP

namespace Pointers

section

variable {heap : Heap Cell} {owned blocks : Multiset (Block Cell)}
  {process : Process} {array : Block Cell} {stale : List (Option Cell)}
  {segments : SegmentArray} {stored : List StoredText}

/-! ## The loop over the segments -/

/-- The loop in memory has the same path ahead of it as the one on lists, and
holds the same segments. -/
inductive Normalizing (chars : Bytes) (owned : Multiset (Block Cell))
    (expected : Except StaticFileError (List Bytes) × Process) :
    Nat × SegmentArray → Heap Cell → Prop
  | mk {cursor : Bytes} {position : Nat} {segments : SegmentArray}
      {stored : List StoredText} {blocks : Multiset (Block Cell)}
      {process : Process} {heap : Heap Cell}
      (here : StringAt chars position cursor) (clean : nul ∉ cursor)
      (collects : Collects segments stored blocks)
      (holds : heap.Holds (blocks + owned))
      (same : process.allocs = heap.allocs)
      (ahead : normalizeFrom cursor (stored.map StoredText.text)
        segments.capacity process = expected) :
      Normalizing chars owned expected (position, segments) heap

/-- How the loop is left. -/
inductive Normalized (owned : Multiset (Block Cell)) :
    Except StaticFileError (List Bytes) × Process →
      Except StaticFileError SegmentArray → Heap Cell → Prop
  | failed {failure : StaticFileError} {process : Process}
      {heap : Heap Cell} (holds : heap.Holds owned)
      (same : process.allocs = heap.allocs) :
      Normalized owned (.error failure, process) (.error failure) heap
  | collected {segments : SegmentArray} {stored : List StoredText}
      {blocks : Multiset (Block Cell)} {process : Process}
      {heap : Heap Cell} (collects : Collects segments stored blocks)
      (holds : heap.Holds (blocks + owned))
      (same : process.allocs = heap.allocs) :
      Normalized owned (.ok (stored.map StoredText.text), process)
        (.ok segments) heap

/-- The first segment of a path, and what is behind it. -/
structure FirstSegment (chars cursor : Bytes) (position : Nat)
    (segment next : Bytes) (stop after : Nat) (behind : Byte) : Prop where
  span : spanAt (fun character => character == nul || character == slash)
    chars position chars.length = some stop
  length : subtractAll stop [position] = some segment.length
  range : readRange chars position segment.length = some segment
  clean : nul ∉ segment
  stopped : chars[stop]? = some behind
  skipped : (if behind = slash then stop + 1 else stop) = after
  rest : StringAt chars after next
  restClean : nul ∉ next
  moved : position < after
  segment_eq : cursor.takeWhile (· ≠ slash) = segment
  next_eq : (cursor.dropWhile (· ≠ slash)).drop 1 = next

theorem skipSlash {chars behind : Bytes} {stop : Nat}
    (here : StringAt chars stop behind)
    (first : ∀ character ∈ behind.head?, character = slash) :
    ∃ character, chars[stop]? = some character ∧
      StringAt chars (if character = slash then stop + 1 else stop)
        (behind.drop 1) ∧
      (behind ≠ [] → character = slash) := by
  cases behind with
  | nil =>
      refine ⟨nul, here.first_nul, ?_, by simp⟩
      rw [if_neg (by decide)]
      exact here
  | cons character more =>
      obtain rfl := first character rfl
      refine ⟨slash, here.first, ?_, fun _ => rfl⟩
      rw [if_pos rfl]
      exact here.next

theorem firstSegment {chars cursor : Bytes} {position : Nat}
    (here : StringAt chars position cursor) (clean : nul ∉ cursor)
    (nonempty : cursor ≠ []) :
    ∃ segment next stop after behind,
      FirstSegment chars cursor position segment next stop after
        behind := by
  have stop := @spanAt_eq (fun character => character == nul ||
    character == slash) rfl _ _ _ _ here here.shorter
  have alike := @takeWhile_clean _ clean (fun character =>
    !(character == nul || character == slash))
    (fun character => character ≠ slash)
    (by
      intro character other
      simp [beq_eq_decide, other])
  rw [alike] at stop
  have parts := @List.takeWhile_append_dropWhile _
    (fun character : Byte => decide (character ≠ slash)) cursor
  have first : ∀ character ∈ (cursor.dropWhile (· ≠ slash)).head?,
      character = slash := by
    intro character member
    have failed := List.head?_dropWhile_not
      (fun character : Byte => decide (character ≠ slash)) cursor
    rw [Option.mem_def.mp member] at failed
    simpa using failed
  generalize segment_eq : cursor.takeWhile (· ≠ slash) = segment
    at parts stop
  generalize behind_eq : cursor.dropWhile (· ≠ slash) = behind
    at parts first
  rw [← parts, List.mem_append, not_or] at clean
  rw [← parts] at here
  obtain ⟨character, stopped, rest, slashed⟩ := skipSlash here.skip first
  refine ⟨segment, behind.drop 1, position + segment.length, _, character,
    stop, ?_, here.range, clean.1, stopped, rfl, rest, ?_, ?_, segment_eq,
    by rw [behind_eq]⟩
  · rw [subtractAll_eq_some_iff, List.sum_singleton, Nat.add_comm]
  · intro member
    exact clean.2 (List.mem_of_mem_drop member)
  · by_cases empty : behind = []
    · have filled : segment ≠ [] := by
        rintro rfl
        exact nonempty (by rw [← parts, empty]; rfl)
      have := List.length_pos_iff.mpr filled
      split_ifs
      · omega
      · omega
    · rw [if_pos (slashed empty)]
      omega

/-- A pair of dots takes the last segment away, and above the root everything
is freed. -/
theorem normalizeTurn_dots {chars next : Bytes} {after : Nat}
    {expected : Except StaticFileError (List Bytes) × Process}
    {state : Nat × SegmentArray}
    (smaller : chars.length - after < chars.length - state.1)
    (rest : StringAt chars after next) (clean : nul ∉ next)
    (collects : Collects segments stored blocks)
    (holds : heap.Holds (blocks + owned))
    (same : process.allocs = heap.allocs)
    (ahead : (if stored.map StoredText.text = [] then
        (.error .forbidden, process)
      else normalizeFrom next (stored.map StoredText.text).dropLast
        segments.capacity process) = expected) :
    Gives (if segments.count = 0 then do
          dropSegments segments
          pure (.done (.error .forbidden))
        else do
          let popped ← popSegment segments
          pure (.next (after, popped))) heap fun step later =>
      GoodTurn (Normalizing chars owned expected · later)
        (fun reached => chars.length - reached.1)
        (Normalized owned expected · later) state step := by
  rw [collects.count]
  rcases List.eq_nil_or_concat stored with empty | ⟨fewer, last, parts⟩
  · obtain rfl := empty
    rw [List.map_nil, if_pos rfl] at ahead
    obtain rfl := ahead
    rw [List.length_nil, if_pos rfl]
    apply (dropSegments_gives collects holds).andThen
    rintro _ later ⟨done, again⟩
    exact .pure (.done (.failed done (same.trans again.symm)))
  · rw [List.concat_eq_append] at parts
    obtain rfl := parts
    rw [if_neg (by simp), List.map_append, List.map_singleton,
      List.dropLast_concat] at ahead
    rw [if_neg (by simp)]
    apply (popSegment_gives collects holds).andThen
    rintro popped later ⟨capacity, again, _, left, kept⟩
    rw [← capacity] at ahead
    exact .pure (.next (.mk rest clean left kept (same.trans again.symm)
      ahead) smaller)

theorem normalizeTurn_good {chars : Bytes}
    {expected : Except StaticFileError (List Bytes) × Process}
    {state : Nat × SegmentArray}
    (normalizing : Normalizing chars owned expected state heap) :
    Gives (normalizeTurn chars state) heap fun step after =>
      GoodTurn (Normalizing chars owned expected · after)
        (fun later => chars.length - later.1)
        (Normalized owned expected · after) state step := by
  cases normalizing with
  | @mk cursor position segments stored blocks process _ here clean collects
      holds same ahead =>
      unfold normalizeTurn
      cases cursor with
      | nil =>
          apply (checked_gives here.first_nul).andThen
          rintro _ _ ⟨rfl, rfl⟩
          rw [if_pos rfl]
          rw [normalizeFrom, if_pos rfl] at ahead
          obtain rfl := ahead
          exact .pure (.done (.collected collects holds same))
      | cons character others =>
          have nonzero : character ≠ nul := by
            rintro rfl
            exact clean List.mem_cons_self
          obtain ⟨segment, next, stop, after, behind, first⟩ :=
            firstSegment here clean (List.cons_ne_nil _ _)
          have inside := here.inside
          have smaller : chars.length - after < chars.length - position := by
            have := first.moved
            omega
          rw [normalizeFrom, if_neg (List.cons_ne_nil _ _)] at ahead
          simp only [first.segment_eq, first.next_eq] at ahead
          apply (checked_gives here.first).andThen
          rintro _ _ ⟨rfl, rfl⟩
          rw [if_neg nonzero]
          apply (checked_gives first.span).andThen
          rintro _ _ ⟨rfl, rfl⟩
          apply (checked_gives first.length).andThen
          rintro _ _ ⟨rfl, rfl⟩
          apply (checked_gives first.range).andThen
          rintro _ _ ⟨rfl, rfl⟩
          apply (checked_gives first.stopped).andThen
          rintro _ _ ⟨rfl, rfl⟩
          dsimp only
          rw [first.skipped]
          by_cases empty : segment = []
          · rw [if_pos empty] at ahead
            rw [if_pos (by rw [empty]; rfl)]
            exact .pure (.next (.mk first.rest first.restClean collects holds
              same ahead) smaller)
          rw [if_neg empty] at ahead
          rw [if_neg (by simpa using empty)]
          by_cases dot : segment = ascii "."
          · rw [if_pos dot] at ahead
            rw [if_pos dot]
            exact .pure (.next (.mk first.rest first.restClean collects holds
              same ahead) smaller)
          rw [if_neg dot] at ahead ⊢
          by_cases dots : segment = ascii ".."
          · rw [if_pos dots] at ahead ⊢
            exact normalizeTurn_dots smaller first.rest first.restClean
              collects holds same ahead
          rw [if_neg dots] at ahead ⊢
          apply (pushSegment_gives collects holds same first.range
            first.clean).andThen
          intro pushed later result
          generalize CinderHTTP.pushSegment segment
            (stored.map StoredText.text) segments.capacity process = outcome
            at result ahead
          cases result with
          | failed done again =>
              obtain rfl := ahead
              exact .pure (.done (.failed done again))
          | pushed grown kept again =>
              exact .pure (.next (.mk first.rest first.restClean grown kept
                again ahead) smaller)

/-! ## Joining -/

theorem joinSegments_cons (segment : Bytes) (segments : List Bytes) :
    joinSegments (segment :: segments) =
      segment ++
        if segments = [] then [] else slash :: joinSegments segments := by
  cases segments with
  | nil => simp [joinSegments]
  | cons next segments => simp [joinSegments]

theorem totalLength_gives {index : Nat}
    (cells : array.cells.drop index = stored.map pointerTo ++ stale)
    (holds : heap.Holds ({array} + (blocksOf stored + owned))) :
    Gives (totalLength (some array.address) (index + stored.length) index
      stored.length) heap fun total after =>
        (joinSegments (stored.map StoredText.text)).length = total ∧
          heap = after := by
  induction stored generalizing index owned with
  | nil => exact .pure ⟨rfl, rfl⟩
  | cons segment stored induction =>
      rw [blocksOf_cons] at holds
      have first : heap.Holds
          ({segment.block} + ({array} + (blocksOf stored + owned))) :=
        holds.rearrange (by abel)
      have others : heap.Holds
          ({array} + (blocksOf stored + ({segment.block} + owned))) :=
        holds.rearrange (by abel)
      have count : index + (segment :: stored).length =
          index + 1 + stored.length := by
        rw [List.length_cons]
        omega
      rw [count]
      apply (loadSegment_gives cells holds).andThen
      rintro _ _ ⟨rfl, rfl⟩
      apply (readString_gives first segment.reads).andThen
      rintro _ _ ⟨rfl, rfl⟩
      apply (induction (drop_next cells) others).andThen
      rintro _ _ ⟨rfl, rfl⟩
      refine .pure ⟨?_, rfl⟩
      rw [List.map_cons, joinSegments_cons]
      cases stored with
      | nil => simp [joinSegments]
      | cons next stored =>
          simp
          omega

/-- The copies fill the result, and each segment is freed behind its copy. -/
theorem joinFrom_gives {relative index : Nat} {written : Bytes}
    (cells : array.cells.drop index = stored.map pointerTo ++ stale)
    (holds : heap.Holds ({filledBlock relative written
      ((joinSegments (stored.map StoredText.text)).length + 1)} +
        ({array} + (blocksOf stored + owned)))) :
    Gives (joinFrom relative (some array.address) (index + stored.length)
      index written.length stored.length) heap fun off after =>
        (written ++ joinSegments (stored.map StoredText.text)).length =
          off ∧
        after.Holds ({filledBlock relative
          (written ++ joinSegments (stored.map StoredText.text)) 1} +
            ({array} + owned)) ∧
        after.allocs = heap.allocs := by
  induction stored generalizing index written heap with
  | nil =>
      refine .pure ⟨by simp [joinSegments], ?_, rfl⟩
      simpa [joinSegments] using holds
  | cons segment stored induction =>
      rw [blocksOf_cons] at holds
      have count : index + (segment :: stored).length =
          index + 1 + stored.length := by
        rw [List.length_cons]
        omega
      rw [count]
      rw [List.map_cons, joinSegments_cons] at holds ⊢
      have loaded : heap.Holds ({array} + _) :=
        holds.rearrange (add_left_comm _ _ _)
      have read : heap.Holds ({segment.block} + ({filledBlock relative
          written _} + ({array} + (blocksOf stored + owned)))) :=
        holds.rearrange (by abel)
      apply (loadSegment_gives cells loaded).andThen
      rintro _ _ ⟨rfl, rfl⟩
      apply (readString_gives read segment.reads).andThen
      rintro _ _ ⟨rfl, rfl⟩
      rw [List.length_append, Nat.add_assoc] at holds
      apply (fill_gives segment.text holds).andThen
      rintro _ copied ⟨filled, same⟩
      have both : copied.Holds ({segment.block} + ({filledBlock relative
          (written ++ segment.text) _} + ({array} + (blocksOf stored +
            owned)))) :=
        filled.rearrange (by abel)
      apply (release_gives both).andThen
      rintro _ freed ⟨left, again⟩
      rw [← List.append_assoc]
      cases stored with
      | nil =>
          rw [if_neg (by simp), ← List.length_append]
          apply (induction (drop_next cells) left).weaken
          rintro _ after ⟨off, done, last⟩
          exact ⟨off, done, last.trans (again.trans same)⟩
      | cons next stored =>
          rw [List.map_cons, if_neg (List.cons_ne_nil _ _)] at left ⊢
          rw [if_pos (by rw [List.length_cons]; omega),
            ← List.length_append]
          rw [List.length_cons, Nat.add_assoc, Nat.add_left_comm] at left
          apply (fill_gives [slash] left).andThen
          rintro _ slashed ⟨closed, later⟩
          have reached : (written ++ segment.text).length + 1 =
              (written ++ segment.text ++ [slash]).length := by
            rw [@List.length_append _ _ [slash], List.length_singleton]
          rw [reached, List.append_cons _ slash (joinSegments _)]
          apply (induction (drop_next cells) closed).weaken
          rintro _ after ⟨off, done, last⟩
          exact ⟨off, done, last.trans (later.trans (again.trans same))⟩

/-! The array may be `NULL` when there are no segments. -/

theorem Collects.totalLength (collects : Collects segments stored blocks)
    (holds : heap.Holds (blocks + owned)) :
    Gives (Pointers.totalLength segments.array segments.count 0
      segments.count) heap fun total after =>
        (joinSegments (stored.map StoredText.text)).length = total ∧
          heap = after := by
  cases collects with
  | null => exact .pure ⟨rfl, rfl⟩
  | @array block _ stale cells =>
      have whole : block.cells.drop 0 = stored.map pointerTo ++ stale := cells
      have total := totalLength_gives whole
        (holds.rearrange (add_assoc _ _ _))
      rwa [Nat.zero_add] at total

theorem Collects.join {relative : Nat}
    (collects : Collects segments stored blocks)
    (holds : heap.Holds ({filledBlock relative []
      ((joinSegments (stored.map StoredText.text)).length + 1)} +
        (blocks + owned))) :
    Gives (joinFrom relative segments.array segments.count 0 0
      segments.count) heap fun off after =>
        (joinSegments (stored.map StoredText.text)).length = off ∧
        after.allocs = heap.allocs ∧
        ∃ emptied, Collects { segments with count := 0 } [] emptied ∧
          after.Holds ({filledBlock relative
            (joinSegments (stored.map StoredText.text)) 1} +
              (emptied + owned)) := by
  cases collects with
  | null => exact .pure ⟨rfl, rfl, 0, .null, holds⟩
  | @array block _ stale cells =>
      have whole : block.cells.drop 0 = stored.map pointerTo ++ stale := cells
      rw [add_assoc] at holds
      have joined := joinFrom_gives whole holds
      rw [Nat.zero_add] at joined
      apply joined.weaken
      rintro _ after ⟨off, done, same⟩
      have emptied : Collects _ [] _ := @Collects.array block [] _ rfl
      exact ⟨off, same, _, emptied, done⟩

theorem joinSegments_clean {texts : List Bytes}
    (clean : ∀ text ∈ texts, nul ∉ text) : nul ∉ joinSegments texts := by
  induction texts with
  | nil => simp [joinSegments]
  | cons text texts induction =>
      rw [joinSegments_cons, List.mem_append, not_or]
      refine ⟨clean text List.mem_cons_self, ?_⟩
      split_ifs
      · simp
      · rw [List.mem_cons, not_or]
        exact ⟨by decide, induction fun other member =>
          clean other (List.mem_cons_of_mem _ member)⟩

theorem staticFilesNormalizePath_gives {block : Block Cell} {text : Bytes}
    (holds : heap.Holds ({block} + owned))
    (reads : cString block.cells = some text)
    (same : process.allocs = heap.allocs) :
    Gives (Pointers.staticFilesNormalizePath block.address) heap
      (MakesAs ({block} + owned)
        (CinderHTTP.staticFilesNormalizePath text process)) := by
  have clean := cString_clean reads
  have here := stringAt_start text
  unfold CinderHTTP.staticFilesNormalizePath
  apply (readString_gives holds reads).andThen
  rintro _ _ ⟨rfl, rfl⟩
  cases text with
  | nil =>
      apply (checked_gives here.first_nul).andThen
      rintro _ _ ⟨rfl, rfl⟩
      rw [if_pos (by decide)]
      exact .pure ⟨.failed holds, same.symm⟩
  | cons first rest =>
      apply (checked_gives here.first).andThen
      rintro _ _ ⟨rfl, rfl⟩
      by_cases absolute : first = slash
      case neg =>
          simp only [if_pos absolute]
          exact .pure ⟨.failed holds, same.symm⟩
      simp only [if_neg (not_not.mpr absolute)]
      rw [List.mem_cons, not_or] at clean
      have start : Normalizing (first :: rest ++ [nul]) ({block} + owned)
          (normalizeFrom rest [] 0 process)
          (1, { array := none, count := 0, capacity := 0 }) heap :=
        .mk here.next clean.2 .null (holds.rearrange (zero_add _).symm)
          same rfl
      apply (iterate_gives (fun _ _ => normalizeTurn_good) start
        (by simp only; omega)).andThen
      intro walked after normalized
      generalize normalizeFrom rest [] 0 process = outcome at normalized ⊢
      cases normalized with
      | failed kept alike => exact .pure ⟨.failed kept, alike.symm⟩
      | @collected segments stored blocks process _ collects kept alike =>
          apply (collects.totalLength kept).andThen
          rintro _ _ ⟨rfl, rfl⟩
          apply (allocate_gives kept _).andThen
          intro given middle allocated
          cases allocated with
          | refused answer without =>
              rw [← alike] at answer
              simp only [process_malloc answer]
              apply (dropSegments_gives collects without).andThen
              rintro _ last ⟨done, again⟩
              exact .pure ⟨.failed done, again⟩
          | @granted _ relative answer blank =>
              rw [← alike] at answer
              simp only [process_malloc answer]
              have unbroken : nul ∉
                  joinSegments (stored.map StoredText.text) := by
                apply joinSegments_clean
                intro text member
                obtain ⟨segment, _, rfl⟩ := List.mem_map.mp member
                exact cString_clean segment.reads
              apply (collects.join blank).andThen
              rintro _ joined ⟨rfl, again, emptied, none, filled⟩
              apply (@fill_gives _ _ relative 0 _ [nul] filled).andThen
              rintro _ closed ⟨made, later⟩
              apply (none.owns.release
                (made.rearrange (add_left_comm _ _ _))).andThen
              rintro _ last ⟨done, ended⟩
              exact .pure ⟨@Makes.made _ (filledBlock relative _ 0) _ _
                (cString_clean_copy unbroken) done,
                ended.trans (later.trans again)⟩

/-! ## Resolving -/

/-- What resolving leaves: nothing when it fails, and otherwise a copy of the
path that was found. -/
inductive Finds (owned : Multiset (Block Cell)) :
    Except StaticFileError Resolved →
      Except StaticFileError (Resolved × Nat) → Heap Cell → Prop
  | failed {failure : StaticFileError} {after : Heap Cell}
      (holds : after.Holds owned) :
      Finds owned (.error failure) (.error failure) after
  | found {block : Block Cell} {resolved : Resolved} {after : Heap Cell}
      (reads : cString block.cells = some (cstr resolved.path))
      (holds : after.Holds ({block} + owned)) :
      Finds owned (.ok resolved) (.ok (resolved, block.address)) after

structure FindsAs (owned : Multiset (Block Cell))
    (listed : Except StaticFileError Resolved × Process)
    (result : Except StaticFileError (Resolved × Nat))
    (after : Heap Cell) : Prop where
  finds : Finds owned listed.1 result after
  allocs : listed.2.allocs = after.allocs

theorem resolveUnderRoot_gives (fs : FileSystem)
    (canonicalRoot relative : Bytes) (holds : heap.Holds owned)
    (same : process.allocs = heap.allocs) :
    Gives (Pointers.resolveUnderRoot fs canonicalRoot relative) heap
      (FindsAs owned (CinderHTTP.resolveUnderRoot fs canonicalRoot relative
        process)) := by
  unfold Pointers.resolveUnderRoot CinderHTTP.resolveUnderRoot
  cases locateUnderRoot fs canonicalRoot relative with
  | error failure => exact .pure ⟨.failed holds, same⟩
  | ok resolved =>
      apply (newText_gives holds (rfl : some resolved.path = _) rfl).andThen
      intro copy after result
      cases result with
      | refused answer kept =>
          rw [← same] at answer
          simp only [process_malloc answer]
          exact .pure ⟨.failed kept, rfl⟩
      | @granted _ address answer kept =>
          rw [← same] at answer
          simp only [process_malloc answer]
          exact .pure ⟨@Finds.found _ { address := address, cells := _ } _ _
            (cString_textCells _) kept, rfl⟩

theorem tryIndex_gives (fs : FileSystem)
    (canonicalRoot dirRelative : Bytes) (holds : heap.Holds owned)
    (same : process.allocs = heap.allocs) :
    Gives (Pointers.tryIndex fs canonicalRoot dirRelative) heap
      (FindsAs owned (CinderHTTP.tryIndex fs canonicalRoot dirRelative
        process)) := by
  unfold Pointers.tryIndex CinderHTTP.tryIndex
  generalize printPath _ = printed
  cases printed with
  | error failure => exact .pure ⟨.failed holds, same⟩
  | ok indexRelative =>
      simp only
      apply (resolveUnderRoot_gives fs canonicalRoot indexRelative holds
        same).andThen
      intro found after result
      generalize CinderHTTP.resolveUnderRoot fs canonicalRoot indexRelative
        process = listed at result ⊢
      obtain ⟨listed, later⟩ := listed
      obtain ⟨finds, answers⟩ := result
      cases finds with
      | failed kept => exact .pure ⟨.failed kept, answers⟩
      | @found block resolved _ reads kept =>
          simp only
          by_cases directory : resolved.isDir = true
          case neg =>
              rw [if_neg directory, if_neg directory]
              exact .pure ⟨.found reads kept, answers⟩
          rw [if_pos directory, if_pos directory]
          apply (release_gives kept).andThen
          rintro _ last ⟨freed, again⟩
          exact .pure ⟨.failed freed, answers.trans again.symm⟩

theorem resolveTarget_gives (fs : FileSystem)
    (canonicalRoot relative : Bytes) (holds : heap.Holds owned)
    (same : process.allocs = heap.allocs) :
    Gives (Pointers.resolveTarget fs canonicalRoot relative) heap
      (FindsAs owned (CinderHTTP.resolveTarget fs canonicalRoot relative
        process)) := by
  unfold Pointers.resolveTarget CinderHTTP.resolveTarget
  apply (resolveUnderRoot_gives fs canonicalRoot relative holds
    same).andThen
  intro found after result
  generalize CinderHTTP.resolveUnderRoot fs canonicalRoot relative process =
    listed at result ⊢
  obtain ⟨listed, later⟩ := listed
  obtain ⟨finds, answers⟩ := result
  cases finds with
  | failed kept => exact .pure ⟨.failed kept, answers⟩
  | @found block resolved _ reads kept =>
      simp only
      by_cases directory : resolved.isDir = true
      case neg =>
          rw [if_neg directory, if_neg directory]
          exact .pure ⟨.found reads kept, answers⟩
      rw [if_pos directory, if_pos directory]
      apply (release_gives kept).andThen
      rintro _ middle ⟨freed, again⟩
      apply (tryIndex_gives fs canonicalRoot relative freed
        (answers.trans again.symm)).andThen
      intro index last result
      generalize CinderHTTP.tryIndex fs canonicalRoot relative later =
        listed at result ⊢
      obtain ⟨listed, final⟩ := listed
      obtain ⟨finds, done⟩ := result
      cases finds with
      | @failed failure _ kept =>
          cases failure with
          | notFound => exact .pure ⟨.failed kept, done⟩
          | forbidden => exact .pure ⟨.failed kept, done⟩
          | badTarget => exact .pure ⟨.failed kept, done⟩
          | tooLarge => exact .pure ⟨.failed kept, done⟩
          | ioError => exact .pure ⟨.failed kept, done⟩
          | outOfMemory => exact .pure ⟨.failed kept, done⟩
      | found reads kept => exact .pure ⟨.found reads kept, done⟩

/-! ## Serving -/

/-- The four pointers of `static_files_serve` own these blocks. -/
inductive Paths.Own (paths : Paths) : Multiset (Block Cell) → Prop
  | mk {pathOnly decoded relative resolved : Multiset (Block Cell)}
      (ownsPath : Owns paths.pathOnly pathOnly)
      (ownsDecoded : Owns paths.decoded decoded)
      (ownsRelative : Owns paths.relative relative)
      (ownsResolved : Owns paths.resolved resolved) :
      paths.Own (pathOnly + decoded + relative + resolved)

/-- The path that was found, as it is read back from memory. -/
def readBack (found : Except StaticFileError Resolved) :
    Except StaticFileError Resolved :=
  found.map fun resolved => { resolved with path := cstr resolved.path }

/-- What the lookup leaves at the label `done`. -/
structure LooksUp (owned : Multiset (Block Cell))
    (listed : Except StaticFileError Resolved × Process)
    (result : Except StaticFileError Resolved × Paths)
    (after : Heap Cell) : Prop where
  found : readBack listed.1 = result.1
  allocs : listed.2.allocs = after.allocs
  own : ∃ blocks, result.2.Own blocks ∧ after.Holds (blocks + owned)

theorem lookUpUnder_gives (fs : FileSystem) (root : Bytes)
    {path decoded relative : Block Cell} {text : Bytes} {paths : Paths}
    (made : paths =
      { pathOnly := some path.address
        decoded := some decoded.address
        relative := some relative.address })
    (holds : heap.Holds ({relative} + ({decoded} + ({path} + owned))))
    (reads : cString relative.cells = some text)
    (same : process.allocs = heap.allocs) :
    Gives (lookUpUnder fs root relative.address paths) heap
      (LooksUp owned
        (CinderHTTP.resolveTarget fs root text process)) := by
  obtain rfl := made
  apply (readString_gives holds reads).andThen
  rintro _ _ ⟨rfl, rfl⟩
  apply (resolveTarget_gives fs root text holds same).andThen
  intro found after result
  generalize CinderHTTP.resolveTarget fs root text process = listed
    at result ⊢
  obtain ⟨listed, later⟩ := listed
  obtain ⟨finds, answers⟩ := result
  cases finds with
  | failed kept =>
      refine .pure ⟨rfl, answers, _,
        .mk (.block path) (.block decoded) (.block relative) .null,
        kept.rearrange ?_⟩
      simp only [add_zero]
      abel
  | @found copy resolved _ reads kept =>
      apply (readString_gives kept reads).andThen
      rintro _ _ ⟨rfl, rfl⟩
      exact .pure ⟨rfl, answers, _,
        .mk (.block path) (.block decoded) (.block relative) (.block copy),
        kept.rearrange (by abel)⟩

theorem lookUp_gives (fs : FileSystem) (documentRoot : Bytes)
    {block : Block Cell} {text : Bytes}
    (holds : heap.Holds ({block} + owned))
    (reads : cString block.cells = some text)
    (same : process.allocs = heap.allocs) :
    Gives (lookUp fs documentRoot block.address) heap
      (LooksUp ({block} + owned)
        (findFile fs documentRoot text process)) := by
  unfold lookUp findFile relativePath
  apply (staticFilesExtractPath_gives holds reads same).andThen
  intro path first result
  generalize CinderHTTP.staticFilesExtractPath text process = listed
    at result ⊢
  obtain ⟨listed, process⟩ := listed
  obtain ⟨makes, answers⟩ := result
  cases makes with
  | failed kept =>
      exact .pure ⟨rfl, answers.symm, _, .mk .null .null .null .null,
        kept.rearrange (by simp)⟩
  | @made path text _ reads kept =>
      simp only
      apply (staticFilesUrlDecode_gives kept reads answers.symm).andThen
      intro decoded second result
      generalize CinderHTTP.staticFilesUrlDecode text process = listed
        at result ⊢
      obtain ⟨listed, process⟩ := listed
      obtain ⟨makes, answers⟩ := result
      cases makes with
      | failed kept =>
          exact .pure ⟨rfl, answers.symm, _,
            .mk (.block path) .null .null .null, kept.rearrange (by simp)⟩
      | @made decoded text _ reads kept =>
          simp only
          apply (staticFilesNormalizePath_gives kept reads
            answers.symm).andThen
          intro relative third result
          generalize CinderHTTP.staticFilesNormalizePath text process =
            listed at result ⊢
          obtain ⟨listed, process⟩ := listed
          obtain ⟨makes, answers⟩ := result
          cases makes with
          | failed kept =>
              refine .pure ⟨rfl, answers.symm, _,
                .mk (.block path) (.block decoded) .null .null,
                kept.rearrange ?_⟩
              simp only [add_zero]
              abel
          | @made relative text _ reads kept =>
              simp only
              cases canonicalDocumentRoot fs documentRoot with
              | none =>
                  refine .pure ⟨rfl, answers.symm, _, .mk (.block path)
                    (.block decoded) (.block relative) .null,
                    kept.rearrange ?_⟩
                  simp only [add_zero]
                  abel
              | some root =>
                  exact lookUpUnder_gives fs root rfl kept reads
                    answers.symm

/-- The lookup frees every path that it has made, whichever allocations
fail. -/
theorem staticFilesFind_gives (fs : FileSystem) (documentRoot : Bytes)
    {block : Block Cell} {text : Bytes}
    (holds : heap.Holds ({block} + owned))
    (reads : cString block.cells = some text)
    (same : process.allocs = heap.allocs) :
    Gives (staticFilesFind fs documentRoot block.address) heap
      fun found after =>
        readBack (findFile fs documentRoot text process).1 = found ∧
          after.Holds ({block} + owned) ∧
          (findFile fs documentRoot text process).2.allocs =
            after.allocs := by
  apply (lookUp_gives fs documentRoot holds reads same).andThen
  rintro ⟨found, paths⟩ first ⟨listed, answers, blocks, own, holds⟩
  cases own with
  | mk ownsPath ownsDecoded ownsRelative ownsResolved =>
      simp only [add_assoc] at holds
      apply (ownsPath.release holds).andThen
      rintro _ second ⟨holds, freed⟩
      apply (ownsDecoded.release holds).andThen
      rintro _ third ⟨holds, again⟩
      apply (ownsRelative.release holds).andThen
      rintro _ fourth ⟨holds, more⟩
      apply (ownsResolved.release holds).andThen
      rintro _ last ⟨holds, done⟩
      exact .pure ⟨listed, holds, by rw [done, more, again, freed, answers]⟩

end

theorem Stores.target {record : RequestRecord} {request : Request}
    {blocks : Multiset (Block Cell)} {text : Bytes}
    (stores : Stores record request blocks)
    (targeted : request.target = some text) :
    ∃ block others, record.target = some block.address ∧
      cString block.cells = some text ∧ blocks = {block} + others := by
  cases stores with
  | @mk _ versions tables bodies method target version table count body
      length =>
      rw [targeted] at target
      generalize record.target = pointer at target
      cases target with
      | @string block _ reads =>
          refine ⟨block, versions + (tables + bodies), rfl, reads, ?_⟩
          rw [add_assoc, add_assoc]

/-- From the message to the file: when the parser accepts a message, the
target in memory is one that the lookup can use.  The lookup does nothing
undefined, finds what it finds on lists and leaves the request as it is, so
that destroying it gives everything back. -/
theorem parsedTarget_memorySafe (fs : FileSystem)
    (documentRoot data : Bytes) (heap : Heap Cell) :
    Gives (Pointers.httpParseRequest data) heap fun outcome parsed =>
      outcome.exit = .parsed →
        ∃ target text, outcome.request.target = some target ∧
          (CinderHTTP.httpParseRequest data heap.allocs).request.target =
            some text ∧
          Gives (staticFilesFind fs documentRoot target) parsed
            fun found after =>
              readBack (findFile fs documentRoot text
                { allocs := parsed.allocs }).1 = found ∧
              after.Holds parsed.blocks ∧
              Gives (Pointers.httpRequestDestroy outcome.request) after
                fun _ last => last.Holds heap.blocks := by
  have start : heap.Holds heap.blocks := rfl
  apply (httpParseRequest_gives start).weaken
  rintro outcome parsed ⟨exit, blocks, stores, holds⟩ accepted
  obtain ⟨parts, -, -, request⟩ :=
    httpParseRequest_parsed (exit.symm.trans accepted)
  have targeted : (CinderHTTP.httpParseRequest data
      heap.allocs).request.target = some parts.target := by
    rw [request]
    rfl
  obtain ⟨block, others, pointer, reads, rfl⟩ := stores.target targeted
  refine ⟨block.address, parts.target, pointer, targeted, ?_⟩
  rw [add_assoc] at holds
  apply (@staticFilesFind_gives parsed _ { allocs := parsed.allocs } fs
    documentRoot block parts.target holds reads rfl).weaken
  rintro found after ⟨same, kept, -⟩
  refine ⟨same, kept.rearrange holds.symm, ?_⟩
  rw [← add_assoc] at kept
  apply (httpRequestDestroy_gives stores kept).weaken
  rintro _ last ⟨-, freed, -⟩
  exact freed

end Pointers

end CinderHTTP
