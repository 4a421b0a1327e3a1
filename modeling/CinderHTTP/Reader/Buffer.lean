import CinderHTTP.Http.Framing

/-!
# The accumulation buffer of the reader

`http_reader_t` with the functions of `http_reader.c` that work on the buffer
alone.  The stored bytes are the first `length` bytes of the C buffer.  That
they fit the buffer, and that the buffer never outgrows the largest message,
is part of the type: `recv` writes behind the stored bytes and relies on it.
-/

namespace CinderHTTP

/-- The results other than `HTTP_READ_OK`. -/
inductive ReadError where
  | clientClosed
  | timeout
  | tooLarge
  | ioError
  | badRequest
  | unsupportedTransferEncoding
  | invalidContentLength
  | outOfMemory
  deriving DecidableEq, Repr

def mapFramingError : ParseError → ReadError
  | .tooLarge => .tooLarge
  | .unsupportedTransferEncoding => .unsupportedTransferEncoding
  | .invalidContentLength => .invalidContentLength
  | .outOfMemory => .outOfMemory
  | .badRequest => .badRequest
  | .unsupportedMethod => .badRequest
  | .unsupportedVersion => .badRequest
  | .tooManyHeaders => .badRequest

def httpReaderInitialCapacity : Nat := 4096
def httpReaderRecvChunk : Nat := 4096

structure Reader where
  data : Bytes
  capacity : Nat
  fits : data.length ≤ capacity
  bounded : capacity ≤ httpMaxMessageBytes
  deriving DecidableEq

namespace Reader

/-- The assignment `reader->length = 0`. -/
def clear (reader : Reader) : Reader :=
  { data := []
    capacity := reader.capacity
    fits := Nat.zero_le _
    bounded := reader.bounded }

/-- Dropping a message from the front of the stored bytes. -/
def dropFront (reader : Reader) (length : Nat) : Reader :=
  { data := reader.data.drop length
    capacity := reader.capacity
    fits := by
      rw [List.length_drop]
      exact Nat.le_trans (Nat.sub_le _ _) reader.fits
    bounded := reader.bounded }

/-- A larger buffer with the same contents. -/
def withCapacity (reader : Reader) (capacity : Nat)
    (larger : reader.capacity ≤ capacity)
    (bounded : capacity ≤ httpMaxMessageBytes) : Reader :=
  { data := reader.data
    capacity := capacity
    fits := Nat.le_trans reader.fits larger
    bounded := bounded }

/-- The room behind the stored bytes. -/
def space (reader : Reader) : Nat :=
  reader.capacity - reader.data.length

/-- Storing at most as many bytes as there is room for. -/
def store (reader : Reader) (received : Bytes)
    (room : received.length ≤ reader.space) : Reader :=
  { data := reader.data ++ received
    capacity := reader.capacity
    fits := by
      have fits := reader.fits
      rw [space] at room
      rw [List.length_append]
      omega
    bounded := reader.bounded }

end Reader

def httpReaderInit : Reader :=
  { data := [], capacity := 0, fits := Nat.le_refl _
    bounded := Nat.zero_le _ }

/-! ## Growing -/

/-- The doubling loop of `ensure_capacity`. -/
def growCapacity (needed capacity : Nat) (positive : 0 < capacity) : Nat :=
  if capacity < needed then
    if capacity > httpMaxMessageBytes / 2 then httpMaxMessageBytes
    else growCapacity needed (capacity * 2) (by omega)
  else capacity
termination_by needed - capacity

/-- The capacity that the doubling loop starts from. -/
def startCapacity (capacity : Nat) : Nat :=
  if capacity = 0 then httpReaderInitialCapacity else capacity

theorem startCapacity_pos (capacity : Nat) : 0 < startCapacity capacity := by
  rw [startCapacity]
  split
  · exact Nat.succ_pos _
  · omega

/-- The buffer after `ensure_capacity`, with the returned flag. -/
def ensureCapacity (reader : Reader) (needed : Nat) (allocs : Allocs) :
    (Bool × Reader) × Allocs :=
  if roomy : needed ≤ reader.capacity then ((true, reader), allocs)
  else if needed > httpMaxMessageBytes then ((false, reader), allocs)
  else
    let newCapacity := growCapacity needed (startCapacity reader.capacity)
      (startCapacity_pos _)
    if unusable : newCapacity < needed ∨ newCapacity > httpMaxMessageBytes
    then ((false, reader), allocs)
    else
      let grown := malloc allocs
      if !grown.1 then ((false, reader), grown.2)
      else
        ((true, reader.withCapacity newCapacity (by omega) (by omega)),
          grown.2)

theorem growCapacity_sized {needed capacity : Nat}
    (positive : 0 < capacity) (fits : needed ≤ httpMaxMessageBytes)
    (bounded : capacity ≤ httpMaxMessageBytes) :
    needed ≤ growCapacity needed capacity positive ∧
      growCapacity needed capacity positive ≤ httpMaxMessageBytes := by
  fun_induction growCapacity needed capacity positive with
  | case1 capacity positive small late =>
      exact ⟨fits, Nat.le_refl _⟩
  | case2 capacity positive small early induction =>
      exact induction (by omega)
  | case3 capacity positive enough =>
      exact ⟨by omega, bounded⟩

theorem startCapacity_le {capacity : Nat}
    (bounded : capacity ≤ httpMaxMessageBytes) :
    startCapacity capacity ≤ httpMaxMessageBytes := by
  rw [startCapacity]
  split
  · decide
  · exact bounded

theorem le_growCapacity {needed capacity : Nat} (positive : 0 < capacity)
    (bounded : capacity ≤ httpMaxMessageBytes) :
    capacity ≤ growCapacity needed capacity positive := by
  fun_induction growCapacity needed capacity positive with
  | case1 capacity positive small late => exact bounded
  | case2 capacity positive small early induction =>
      exact Nat.le_trans (by omega) (induction (by omega))
  | case3 capacity positive enough => exact Nat.le_refl _

/-- The same contents in a buffer of the same size, or of one that the
doubling loop can reach. -/
structure Reader.Enlarged (before after : Reader) : Prop where
  data : after.data = before.data
  capacity : after.capacity = before.capacity ∨
    startCapacity before.capacity ≤ after.capacity

theorem ensureCapacity_enlarged (reader : Reader) (needed : Nat)
    (allocs : Allocs) :
    reader.Enlarged (ensureCapacity reader needed allocs).1.2 := by
  unfold ensureCapacity
  simp only
  split_ifs
  · exact ⟨rfl, .inl rfl⟩
  · exact ⟨rfl, .inl rfl⟩
  · exact ⟨rfl, .inl rfl⟩
  · exact ⟨rfl, .inl rfl⟩
  · exact ⟨rfl, .inr (le_growCapacity _ (startCapacity_le reader.bounded))⟩

@[simp] theorem ensureCapacity_data (reader : Reader) (needed : Nat)
    (allocs : Allocs) :
    (ensureCapacity reader needed allocs).1.2.data = reader.data :=
  (ensureCapacity_enlarged reader needed allocs).data

theorem ensureCapacity_false {reader other : Reader} {needed : Nat}
    {allocs later : Allocs}
    (refused : ensureCapacity reader needed allocs =
      ((false, other), later)) : other = reader := by
  unfold ensureCapacity at refused
  simp only at refused
  split_ifs at refused
  all_goals
    simp only [Prod.mk.injEq, Bool.true_eq_false, false_and,
      true_and] at refused
  all_goals exact refused.1.symm

theorem ensureCapacity_true {reader grown : Reader} {needed : Nat}
    {allocs later : Allocs}
    (success : ensureCapacity reader needed allocs = ((true, grown), later)) :
    reader.Enlarged grown ∧ needed ≤ grown.capacity := by
  refine ⟨?_, ?_⟩
  · have enlarged := ensureCapacity_enlarged reader needed allocs
    rwa [success] at enlarged
  · unfold ensureCapacity at success
    simp only at success
    split_ifs at success with roomy tooLarge unusable refused
    all_goals
      simp only [Prod.mk.injEq, Bool.false_eq_true, false_and,
        true_and] at success
    · rw [← success.1]
      exact roomy
    · rw [← success.1]
      rw [not_or] at unusable
      exact Nat.le_of_not_lt unusable.1

/-- Without allocation failures only the size limit can refuse. -/
theorem ensureCapacity_granted (reader : Reader) {needed : Nat}
    (fits : needed ≤ httpMaxMessageBytes) :
    (ensureCapacity reader needed []).1.1 = true := by
  have sized := growCapacity_sized (startCapacity_pos reader.capacity) fits
    (startCapacity_le reader.bounded)
  unfold ensureCapacity
  simp only
  split_ifs with roomy tooLarge unusable refused
  · rfl
  · omega
  · omega
  · simp at refused
  · rfl

/-! ## Extracting -/

/-- The length of the first complete message.  `HTTP_READ_IO_ERROR` stands
for a message that needs more data. -/
def tryExtractLength (reader : Reader) (allocs : Allocs) :
    Except ReadError Nat × Allocs :=
  if reader.data.length = 0 then (.error .ioError, allocs)
  else
    match httpFindHeaderTerminator reader.data with
    | none =>
        if reader.data.length ≥ httpMaxHeaderBytes then
          (.error .tooLarge, allocs)
        else (.error .ioError, allocs)
    | some headerEnd =>
        let headerBytes := headerEnd + 4
        if headerBytes > httpMaxHeaderBytes then (.error .tooLarge, allocs)
        else
          match httpInspectMessageFraming (reader.data.take headerBytes)
              allocs with
          | (.error failure, later) =>
              (.error (mapFramingError failure), later)
          | (.ok bodyLength, later) =>
              if bodyLength > httpMaxMessageBytes - headerBytes then
                (.error .tooLarge, later)
              else if reader.data.length < headerBytes + bodyLength then
                (.error .ioError, later)
              else (.ok (headerBytes + bodyLength), later)

/-- The copy of the first message and the buffer without it. -/
def takeMessage (reader : Reader) (messageLength : Nat) (allocs : Allocs) :
    Option Bytes × Reader :=
  if !(malloc allocs).1 then (none, reader)
  else
    (some (reader.data.take messageLength), reader.dropFront messageLength)

end CinderHTTP
