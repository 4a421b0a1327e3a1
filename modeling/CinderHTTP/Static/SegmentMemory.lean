import CinderHTTP.Static.DecodingSafety

/-!
# The array of segments in memory

The segments of a path are strings that an array points to.  The array is
enlarged when it is full, and the cells behind its segments may hold
anything: a segment that was taken away leaves its pointer there.
-/

namespace CinderHTTP

namespace Pointers

/-- A block that reads as a text. -/
structure StoredText where
  block : Block Cell
  text : Bytes
  reads : cString block.cells = some text

/-- A cell that points to a stored text. -/
def pointerTo (segment : StoredText) : Option Cell :=
  some (.pointers [segment.block.address])

/-- The blocks of some stored texts. -/
def blocksOf (segments : List StoredText) : Multiset (Block Cell) :=
  (segments.map StoredText.block : List (Block Cell))

@[simp]
theorem blocksOf_nil : blocksOf [] = 0 :=
  rfl

theorem blocksOf_cons (segment : StoredText) (segments : List StoredText) :
    blocksOf (segment :: segments) = {segment.block} + blocksOf segments :=
  rfl

theorem blocksOf_snoc (segments : List StoredText) (segment : StoredText) :
    blocksOf (segments ++ [segment]) =
      {segment.block} + blocksOf segments := by
  rw [add_comm]
  simp [blocksOf, ← Multiset.coe_add]

/-- The array points to these segments, and the two own these blocks. -/
inductive Collects : SegmentArray → List StoredText →
    Multiset (Block Cell) → Prop
  | null : Collects { array := none, count := 0, capacity := 0 } [] 0
  | array {block : Block Cell} {stored : List StoredText}
      {stale : List (Option Cell)}
      (cells : block.cells = stored.map pointerTo ++ stale) :
      Collects
        { array := some block.address
          count := stored.length
          capacity := block.cells.length } stored
        ({block} + blocksOf stored)

theorem Collects.count {segments : SegmentArray} {stored : List StoredText}
    {blocks : Multiset (Block Cell)}
    (collects : Collects segments stored blocks) :
    segments.count = stored.length := by
  cases collects with
  | null => rfl
  | array cells => rfl

theorem Collects.owns {segments : SegmentArray}
    {blocks : Multiset (Block Cell)}
    (collects : Collects segments [] blocks) :
    Owns segments.array blocks := by
  cases collects with
  | null => exact .null
  | array cells =>
      rw [blocksOf_nil, add_zero]
      exact .block _

section

variable {heap : Heap Cell} {owned blocks : Multiset (Block Cell)}
  {process : Process} {array : Block Cell} {stale : List (Option Cell)}
  {segments : SegmentArray} {stored : List StoredText}

/-! ## Freeing -/

theorem loadSegment_gives {segment : StoredText} {index : Nat}
    (cells : array.cells.drop index = pointerTo segment :: stale)
    (holds : heap.Holds ({array} + owned)) :
    Gives (loadSegment (some array.address) index) heap fun given after =>
      segment.block.address = given ∧ heap = after := by
  have found : array.cells[index]? = some (pointerTo segment) := by
    have first := congrArg List.head? cells
    rwa [List.head?_drop] at first
  apply (checked_gives (rfl : some array.address = _)).andThen
  rintro _ _ ⟨rfl, rfl⟩
  apply (load_gives holds found).andThen
  rintro _ _ ⟨rfl, rfl⟩
  exact .pure ⟨rfl, rfl⟩

theorem drop_next {cells others : List (Option Cell)}
    {first : Option Cell} {index : Nat}
    (here : cells.drop index = first :: others) :
    cells.drop (index + 1) = others := by
  have rest := congrArg List.tail here
  rwa [List.tail_drop] at rest

theorem freeSegments_gives {index : Nat}
    (cells : array.cells.drop index = stored.map pointerTo ++ stale)
    (holds : heap.Holds ({array} + (blocksOf stored + owned))) :
    Gives (freeSegments (some array.address) index stored.length) heap
      fun _ after =>
        after.Holds ({array} + owned) ∧ after.allocs = heap.allocs := by
  induction stored generalizing index heap with
  | nil => exact .pure ⟨holds.rearrange (by simp), rfl⟩
  | cons segment stored induction =>
      rw [blocksOf_cons] at holds
      have first : heap.Holds
          ({segment.block} + ({array} + (blocksOf stored + owned))) :=
        holds.rearrange (by abel)
      apply (loadSegment_gives cells holds).andThen
      rintro _ _ ⟨rfl, rfl⟩
      apply (release_gives first).andThen
      rintro _ later ⟨rest, same⟩
      apply (induction (drop_next cells) rest).weaken
      rintro _ after ⟨done, again⟩
      exact ⟨done, again.trans same⟩

theorem dropSegments_gives (collects : Collects segments stored blocks)
    (holds : heap.Holds (blocks + owned)) :
    Gives (dropSegments segments) heap fun _ after =>
      after.Holds owned ∧ after.allocs = heap.allocs := by
  cases collects with
  | null => exact ⟨(), heap, rfl, holds.rearrange (zero_add _), rfl⟩
  | @array block _ stale cells =>
      have whole : block.cells.drop 0 = stored.map pointerTo ++ stale := cells
      rw [add_assoc] at holds
      apply (freeSegments_gives whole holds).andThen
      rintro _ later ⟨only, same⟩
      apply (release_gives only).weaken
      rintro _ after ⟨done, again⟩
      exact ⟨done, again.trans same⟩

/-- The pointer to a segment that was freed stays behind the others. -/
theorem popSegment_gives {last : StoredText}
    (collects : Collects segments (stored ++ [last]) blocks)
    (holds : heap.Holds (blocks + owned)) :
    Gives (popSegment segments) heap fun popped after =>
      popped.capacity = segments.capacity ∧
        after.allocs = heap.allocs ∧
        ∃ fewer, Collects popped stored fewer ∧
          after.Holds (fewer + owned) := by
  generalize both : stored ++ [last] = all at collects
  cases collects with
  | null => simp at both
  | @array block _ stale cells =>
      obtain rfl := both
      have here : block.cells.drop stored.length =
          pointerTo last :: stale := by
        rw [cells, List.map_append, List.append_assoc,
          ← List.length_map (f := pointerTo), List.drop_left]
        rfl
      have fewer : block.cells =
          stored.map pointerTo ++ pointerTo last :: stale := by
        rw [cells]
        simp
      rw [blocksOf_snoc] at holds
      have first : heap.Holds
          ({last.block} + ({block} + blocksOf stored + owned)) :=
        holds.rearrange (by abel)
      have index : subtractAll (stored ++ [last]).length [1] =
          some stored.length := by
        rw [subtractAll_eq_some_iff]
        simp
      apply (checked_gives index).andThen
      rintro _ _ ⟨rfl, rfl⟩
      apply (loadSegment_gives here
        (holds.rearrange (add_assoc _ _ _))).andThen
      rintro _ _ ⟨rfl, rfl⟩
      apply (release_gives first).andThen
      rintro _ after ⟨rest, same⟩
      exact .pure ⟨rfl, same, _, .array fewer, rest⟩

/-! ## Growing -/

/-- What the array is when there is to be room for one more segment. -/
inductive Grows (owned blocks : Multiset (Block Cell))
    (stored : List StoredText) (newCapacity : Nat) :
    Bool × Process → Option SegmentArray → Heap Cell → Prop
  | refused {process : Process} {after : Heap Cell}
      (holds : after.Holds (blocks + owned))
      (same : process.allocs = after.allocs) :
      Grows owned blocks stored newCapacity (false, process) none after
  | grown {process : Process} {after : Heap Cell} {block : Block Cell}
      {stale : List (Option Cell)} {unused : Option Cell}
      (cells : block.cells = stored.map pointerTo ++ unused :: stale)
      (capacity : block.cells.length = newCapacity)
      (holds : after.Holds ({block} + (blocksOf stored + owned)))
      (same : process.allocs = after.allocs) :
      Grows owned blocks stored newCapacity (true, process)
        (some
          { array := some block.address
            count := stored.length
            capacity := newCapacity }) after

/-- The capacity that `static_files_normalize_path` asks for. -/
def grownCapacity (capacity : Nat) : Nat :=
  if capacity = 0 then 8 else capacity * 2

theorem lt_grownCapacity (capacity : Nat) :
    capacity < grownCapacity capacity := by
  unfold grownCapacity
  split_ifs
  · omega
  · omega

theorem grownCells {cells : List (Option Cell)} {size : Nat}
    (more : cells.length < size) :
    ∃ stale, (cells ++ List.replicate size none).take size =
      cells ++ none :: stale := by
  obtain ⟨unused, rfl⟩ : ∃ unused, size = cells.length + (unused + 1) :=
    ⟨size - cells.length - 1, by omega⟩
  refine ⟨List.replicate unused none, ?_⟩
  rw [List.take_length_add_append, List.take_replicate,
    Nat.min_eq_left (by omega), List.replicate_succ]

theorem growSegments_gives (collects : Collects segments stored blocks)
    (holds : heap.Holds (blocks + owned))
    (same : process.allocs = heap.allocs) :
    Gives (growSegments segments) heap
      (Grows owned blocks stored
        (if stored.length = segments.capacity then
          grownCapacity segments.capacity
        else segments.capacity)
        (if stored.length = segments.capacity then process.malloc
        else (true, process))) := by
  unfold growSegments
  rw [collects.count]
  by_cases full : stored.length = segments.capacity
  case neg =>
      rw [if_neg full, if_neg full, if_neg full]
      cases collects with
      | null => exact absurd rfl full
      | @array block _ stale cells =>
          cases stale with
          | nil =>
              simp only [cells] at full
              simp at full
          | cons unused stale =>
              exact .pure (.grown cells rfl
                (holds.rearrange (add_assoc _ _ _)) same)
  rw [if_pos full, if_pos full, if_pos full]
  dsimp only
  rw [← grownCapacity]
  cases collects with
  | null =>
      rw [zero_add] at holds
      apply (reallocate_null holds 8).andThen
      intro given after result
      cases result with
      | refused answer kept =>
          rw [← same] at answer
          rw [process_malloc answer]
          exact .pure (.refused (kept.rearrange (zero_add _).symm) rfl)
      | @granted _ address answer kept =>
          rw [← same] at answer
          rw [process_malloc answer]
          apply Gives.pure
          exact @Grows.grown _ _ _ _ _ _
            { address := address, cells := List.replicate 8 none }
            (List.replicate 7 none) none rfl rfl
            (kept.rearrange (by simp)) rfl
  | @array block _ stale cells =>
      dsimp only at full
      obtain ⟨more, grown⟩ := grownCells
        (lt_grownCapacity block.cells.length)
      have only : stale = [] := by
        have lengths := congrArg List.length cells
        rw [List.length_append, List.length_map, ← full] at lengths
        exact List.eq_nil_of_length_eq_zero (by omega)
      rw [only, List.append_nil] at cells
      apply (reallocate_gives (holds.rearrange (add_assoc _ _ _))
        (grownCapacity block.cells.length)).andThen
      intro given after result
      cases result with
      | refused answer kept =>
          rw [← same] at answer
          rw [process_malloc answer]
          exact .pure (.refused (kept.rearrange (add_assoc _ _ _).symm) rfl)
      | @granted _ address answer kept =>
          rw [← same] at answer
          rw [process_malloc answer]
          apply Gives.pure
          apply @Grows.grown _ _ _ _ _ _ { address := address, cells := _ }
            more none _ _ kept rfl
          · rw [grown, cells]
          · simp

/-! ## Pushing -/

/-- What storing a segment leaves: everything is freed when memory runs
out. -/
inductive Pushes (owned : Multiset (Block Cell)) :
    Option (List Bytes × Nat) × Process → Option SegmentArray →
      Heap Cell → Prop
  | failed {process : Process} {after : Heap Cell}
      (holds : after.Holds owned) (same : process.allocs = after.allocs) :
      Pushes owned (none, process) none after
  | pushed {process : Process} {after : Heap Cell}
      {segments : SegmentArray} {stored : List StoredText}
      {blocks : Multiset (Block Cell)}
      (collects : Collects segments stored blocks)
      (holds : after.Holds (blocks + owned))
      (same : process.allocs = after.allocs) :
      Pushes owned
        (some (stored.map StoredText.text, segments.capacity), process)
        (some segments) after

/-- A pointer is written behind the others. -/
theorem storeCell {cells : List (Option Cell)} {unused : Option Cell}
    (parts : cells = stored.map pointerTo ++ unused :: stale)
    (pointer : Option Cell) :
    copyAt cells stored.length [pointer] =
      some (stored.map pointerTo ++ pointer :: stale) := by
  have copied := @copyAt_append _ (stored.map pointerTo) (unused :: stale)
    [pointer] (by simp)
  rw [← parts, List.length_map] at copied
  simpa using copied

theorem Collects.snoc {unused : Option Cell}
    (cells : array.cells = stored.map pointerTo ++ unused :: stale)
    (last : StoredText) :
    Collects
      { array := some array.address
        count := stored.length + 1
        capacity := array.cells.length } (stored ++ [last])
      ({{ array with
        cells := stored.map pointerTo ++ pointerTo last :: stale }} +
        blocksOf (stored ++ [last])) := by
  have stores := @Collects.array
    { array with cells := stored.map pointerTo ++ pointerTo last :: stale }
    (stored ++ [last]) stale (by simp)
  rw [List.length_append, List.length_singleton] at stores
  rw [cells]
  simpa using stores

theorem pushSegment_gives {chars segment : Bytes} {start : Nat}
    (collects : Collects segments stored blocks)
    (holds : heap.Holds (blocks + owned))
    (same : process.allocs = heap.allocs)
    (read : readRange chars start segment.length = some segment)
    (clean : nul ∉ segment) :
    Gives (pushSegment chars start segment.length segments) heap
      (Pushes owned (CinderHTTP.pushSegment segment
        (stored.map StoredText.text) segments.capacity process)) := by
  unfold CinderHTTP.pushSegment
  rw [List.length_map]
  apply (growSegments_gives collects holds same).andThen
  intro grown middle result
  dsimp only
  rw [← grownCapacity]
  generalize (if stored.length = segments.capacity then process.malloc
    else (true, process)) = answered at result ⊢
  generalize (if stored.length = segments.capacity then
    grownCapacity segments.capacity else segments.capacity) = newCapacity
    at result ⊢
  cases result with
  | refused kept alike =>
      apply (dropSegments_gives collects kept).andThen
      rintro _ after ⟨done, later⟩
      exact .pure (.failed done (alike.trans later.symm))
  | @grown process _ block stale unused cells capacity kept alike =>
      have grownCollects : Collects _ stored _ := .array cells
      rw [capacity] at grownCollects
      apply (newText_gives kept read rfl).andThen
      intro copy after result
      cases result with
      | refused answer without =>
          rw [← alike] at answer
          rw [process_malloc answer]
          apply (dropSegments_gives grownCollects
            (without.rearrange (add_assoc _ _ _).symm)).andThen
          rintro _ final ⟨done, later⟩
          exact .pure (.failed done later.symm)
      | @granted _ address answer both =>
          rw [← alike] at answer
          rw [process_malloc answer]
          -- the copy becomes the last segment
          let last : StoredText :=
            { block := { address := address, cells := textCells segment }
              text := segment
              reads := cString_clean_copy clean }
          have longer := Collects.snoc cells last
          rw [capacity] at longer
          have written := storeCell cells (pointerTo last)
          apply (checked_gives (rfl : some block.address = _)).andThen
          rintro _ _ ⟨rfl, rfl⟩
          apply (overwrite_gives (both.rearrange (add_left_comm _ _ _))
            written).andThen
          rintro _ final ⟨done, later⟩
          have holding : final.Holds ({{ block with
              cells := stored.map pointerTo ++ pointerTo last :: stale }} +
                blocksOf (stored ++ [last]) + owned) := by
            rw [blocksOf_snoc, add_assoc, add_assoc]
            exact done
          have pushed := Pushes.pushed longer holding
            (rfl : ({ process with allocs := final.allocs } :
              Process).allocs = _)
          rw [List.map_append, later] at pushed
          exact .pure pushed

end

end Pointers

end CinderHTTP
