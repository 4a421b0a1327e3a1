import CinderHTTP.Base.Heap

/-!
# C strings on a heap

A block of characters is read as a C string up to its first NUL, which has to
be inside.  It is filled from the front, and the cells behind what is written
stay uninitialized.  An array of pointers, or of records of pointers, has a
cell for each element.
-/

namespace CinderHTTP

/-- A character, or the pointers of one array element. -/
inductive Cell where
  | byte (value : Byte)
  | pointers (addresses : List Nat)
  deriving DecidableEq, Repr

/-! ## Cells of a text -/

/-- Written characters, and cells that are not written yet. -/
def filledCells (written : Bytes) (unused : Nat) : List (Option Cell) :=
  written.map (fun character => some (.byte character)) ++
    List.replicate unused none

/-- The cells of a text with a NUL behind it. -/
def textCells (text : Bytes) : List (Option Cell) :=
  filledCells (text ++ [nul]) 0

/-- The C string at the start of some cells. -/
def cString : List (Option Cell) → Option Bytes
  | some (.byte character) :: cells =>
      if character = nul then some []
      else (cString cells).map (character :: ·)
  | _ => none

theorem cString_filledCells (text : Bytes) (unused : Nat) :
    cString (filledCells (text ++ [nul]) unused) = some (cstr text) := by
  induction text with
  | nil => rfl
  | cons character text induction =>
      change (if character = nul then some []
        else (cString (filledCells (text ++ [nul]) unused)).map
          (character :: ·)) = _
      rw [induction]
      by_cases stops : character = nul
      · simp [stops, cstr]
      · simp [stops, cstr]

theorem cString_textCells (text : Bytes) :
    cString (textCells text) = some (cstr text) :=
  cString_filledCells text 0

theorem cString_clean {cells : List (Option Cell)} {text : Bytes}
    (reads : cString cells = some text) : nul ∉ text := by
  fun_induction cString cells generalizing text with
  | case1 =>
      obtain rfl := Option.some.inj reads
      simp
  | case2 character cells differs induction =>
      obtain ⟨rest, read, rfl⟩ := Option.map_eq_some_iff.mp reads
      rw [List.mem_cons, not_or]
      exact ⟨Ne.symm differs, induction read⟩
  | case3 => cases reads

/-! ## Reading and writing -/

/-- The C string at an address. -/
def readString (address : Nat) : Program Cell Bytes := do
  let heap ← get
  checked ((heap.cellsAt address).bind cString)

/-- A copy of some characters with a NUL behind them.  They are read only when
the memory is granted. -/
def newText (source : Option Bytes) (length : Nat) :
    Program Cell (Option Nat) := do
  match ← allocate (length + 1) with
  | none => pure none
  | some copy => do
      let text ← checked source
      overwrite copy 0 (text.map .byte)
      overwrite copy length [.byte nul]
      pure (some copy)

section

variable {heap : Heap Cell} {owned : Multiset (Block Cell)}

theorem readString_gives {block : Block Cell} {text : Bytes}
    (holds : heap.Holds ({block} + owned))
    (reads : cString block.cells = some text) :
    Gives (readString block.address) heap fun given after =>
      text = given ∧ heap = after := by
  refine ⟨text, heap, ?_, rfl, rfl⟩
  change checked _ heap = _
  rw [holds.cellsAt, Option.bind_some, reads]
  rfl

/-- A block that is filled from the front. -/
def filledBlock (address : Nat) (written : Bytes) (unused : Nat) :
    Block Cell :=
  { address := address, cells := filledCells written unused }

/-- More characters are written behind the others, as long as there are cells
left. -/
theorem fill_gives {address unused : Nat} {written : Bytes} (more : Bytes)
    (holds : heap.Holds
      ({filledBlock address written (more.length + unused)} + owned)) :
    Gives (overwrite address written.length (more.map .byte)) heap
      fun _ after =>
        after.Holds ({filledBlock address (written ++ more) unused} + owned) ∧
          after.allocs = heap.allocs := by
  have fits : copyAt (filledCells written (more.length + unused))
      written.length ((more.map Cell.byte).map some) =
        some (filledCells (written ++ more) unused) := by
    have copied := @copyAt_append _
      (written.map fun character => some (Cell.byte character))
      (List.replicate (more.length + unused) none)
      ((more.map Cell.byte).map some) (by simp)
    simpa [filledCells, Function.comp_def] using copied
  exact overwrite_gives holds fits

theorem newText_gives (holds : heap.Holds owned) {source : Option Bytes}
    {text : Bytes} {length : Nat} (read : source = some text)
    (sized : text.length = length) :
    Gives (newText source length) heap
      (Allocated heap owned owned (textCells text)) := by
  obtain rfl := sized
  apply (allocate_gives holds (text.length + 1)).andThen
  intro given granted allocated
  cases allocated with
  | refused answer kept => exact .pure (.refused answer kept)
  | @granted _ copy answer blank =>
      apply (checked_gives read).andThen
      rintro _ _ ⟨rfl, rfl⟩
      apply (@fill_gives _ _ copy 1 [] text blank).andThen
      rintro _ written ⟨partly, same⟩
      apply (@fill_gives _ _ copy 0 text [nul] partly).andThen
      rintro _ closed ⟨done, later⟩
      apply Gives.pure
      apply Allocated.granted _ done
      rw [answer, later, same]

end

/-! ## Ranges of a buffer -/

section

variable {α : Type} {buffer items : List α} {start length : Nat}

theorem readRange_length
    (read : readRange buffer start length = some items) :
    items.length = length := by
  unfold readRange at read
  split_ifs at read with inside
  obtain rfl := Option.some.inj read
  rw [List.length_take, List.length_drop]
  omega

theorem readRange_part {before piece after : List α}
    (read : readRange buffer start length =
      some (before ++ (piece ++ after))) :
    readRange buffer (start + before.length) piece.length = some piece := by
  have total := readRange_length read
  simp only [List.length_append] at total
  unfold readRange at read ⊢
  split_ifs at read with inside
  have parts := Option.some.inj read
  rw [if_pos (by omega)]
  have behind : (buffer.drop (start + before.length)).take
      (length - before.length) = piece ++ after := by
    rw [← List.drop_drop, ← List.drop_take, parts, List.drop_left]
  have shorter : min piece.length (length - before.length) =
      piece.length := by omega
  rw [← shorter, ← List.take_take, behind, List.take_left]

theorem getElem?_of_readRange {first : α} {others : List α}
    (read : readRange buffer start length = some (first :: others)) :
    buffer[start]? = some first ∧
      readRange buffer (start + 1) others.length = some others := by
  have head := @readRange_part _ buffer start length [] [first] others read
  have tail := @readRange_part _ buffer start length [first] others []
    (by rw [read, List.append_nil]; rfl)
  refine ⟨?_, tail⟩
  unfold readRange at head
  split_ifs at head
  have front := congrArg List.head? (Option.some.inj head)
  simpa [List.head?_take, List.head?_drop] using front

end

/-! ## Positions in a string -/

/-- A text with its NUL at a position of the characters of a string. -/
def StringAt (chars : Bytes) (position : Nat) (text : Bytes) : Prop :=
  readRange chars position (text.length + 1) = some (text ++ [nul])

theorem stringAt_start (text : Bytes) : StringAt (text ++ [nul]) 0 text := by
  have whole := @readRange_between _ (text ++ [nul]) [] (text ++ [nul]) []
    (by simp)
  rwa [List.length_append, List.length_singleton] at whole

namespace StringAt

variable {chars text : Bytes} {position : Nat}

theorem first_nul (here : StringAt chars position []) :
    chars[position]? = some nul :=
  (getElem?_of_readRange here).1

theorem first {character : Byte}
    (here : StringAt chars position (character :: text)) :
    chars[position]? = some character :=
  (getElem?_of_readRange here).1

theorem range {before : Bytes}
    (here : StringAt chars position (before ++ text)) :
    readRange chars position before.length = some before := by
  unfold StringAt at here
  rw [List.append_assoc] at here
  exact @readRange_part _ chars position _ [] before (text ++ [nul]) here

theorem skip {before : Bytes}
    (here : StringAt chars position (before ++ text)) :
    StringAt chars (position + before.length) text := by
  unfold StringAt at here ⊢
  rw [List.append_assoc] at here
  have behind := @readRange_part _ chars position _ before (text ++ [nul])
    [] (by rw [here, List.append_nil])
  rwa [List.length_append, List.length_singleton] at behind

theorem next {character : Byte}
    (here : StringAt chars position (character :: text)) :
    StringAt chars (position + 1) text :=
  @skip chars text position [character] here

theorem inside (here : StringAt chars position text) :
    position + text.length < chars.length := by
  unfold StringAt readRange at here
  split_ifs at here with within
  omega

theorem shorter (here : StringAt chars position text) :
    text.length < chars.length :=
  Nat.lt_of_le_of_lt (Nat.le_add_left _ _) here.inside

end StringAt

end CinderHTTP
