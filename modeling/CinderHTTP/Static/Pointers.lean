import CinderHTTP.Base.CStrings
import CinderHTTP.Static.Serve

/-!
# The lookup of a file in memory

The path functions of `static_files.c` with their pointers.  A string is read
up to its NUL; a pointer into it is a position, and each read there is
checked.  The decoded path, the array of segments with its strings and the
joined path are blocks of a heap, and each write into them is checked.
-/

namespace CinderHTTP

namespace Pointers

/-- The first position from a given one whose character passes a test. -/
def spanAt (stops : Byte → Bool) (chars : Bytes) (position : Nat) :
    Nat → Option Nat
  | 0 => none
  | turns + 1 => do
      let character ← chars[position]?
      if stops character then some position
      else spanAt stops chars (position + 1) turns

/-! ## Path portion -/

/-- `static_files_extract_path`, with `path_portion` in it. -/
def staticFilesExtractPath (target : Nat) :
    Program Cell (Except StaticFileError Nat) := do
  let text ← readString target
  let chars := text ++ [nul]
  let first ← checked chars[0]?
  if first = nul then pure (.error .badTarget)
  else if first ≠ slash then pure (.error .badTarget)
  else
    let stop ← checked (spanAt (fun character => character == nul ||
      character == question || character == hash) chars 0 chars.length)
    match ← newText (readRange chars 0 stop) stop with
    | none => pure (.error .outOfMemory)
    | some path => pure (.ok path)

/-! ## Percent-decoding -/

/-- A turn of the decoding loop, with its positions in the input and in the
output.  It is left without a position at a bad escape. -/
def decodeTurn (chars : Bytes) (inLen out : Nat) (state : Nat × Nat) :
    Program Cell (LoopStep (Nat × Nat) (Option Nat)) := do
  if state.1 < inLen then
    let character ← checked chars[state.1]?
    if character = percent then
      if state.1 + 2 ≥ inLen then pure (.done none)
      else
        let high ← checked chars[state.1 + 1]?
        let low ← checked chars[state.1 + 2]?
        if !isHex high || !isHex low then pure (.done none)
        else
          let decoded := UInt8.ofNat (hexValue high * 16 + hexValue low)
          if decoded = nul then pure (.done none)
          else
            overwrite out state.2 [.byte decoded]
            pure (.next (state.1 + 3, state.2 + 1))
    else
      overwrite out state.2 [.byte character]
      pure (.next (state.1 + 1, state.2 + 1))
  else pure (.done (some state.2))

def staticFilesUrlDecode (input : Nat) :
    Program Cell (Except StaticFileError Nat) := do
  let text ← readString input
  match ← allocate (text.length + 1) with
  | none => pure (.error .outOfMemory)
  | some out => do
      let walked ← iterate (decodeTurn (text ++ [nul]) text.length out)
        (text.length + 1) (0, 0)
      match walked with
      | none => do
          release (some out)
          pure (.error .badTarget)
      | some stop => do
          overwrite out stop [.byte nul]
          pure (.ok out)

/-! ## Normalization -/

/-- The array of segments, with the number of segments in it and the number
that it has room for. -/
structure SegmentArray where
  array : Option Nat
  count : Nat
  capacity : Nat
  deriving DecidableEq, Repr

/-- The pointer in an array cell. -/
def loadSegment (array : Option Nat) (index : Nat) : Program Cell Nat := do
  let address ← checked array
  match ← load address index with
  | .pointers [segment] => pure segment
  | _ => checked none

/-- The loop that frees the segments. -/
def freeSegments (array : Option Nat) (index : Nat) :
    Nat → Program Cell Unit
  | 0 => pure ()
  | remaining + 1 => do
      let segment ← loadSegment array index
      release (some segment)
      freeSegments array (index + 1) remaining

/-- The segments are freed, and then the array. -/
def dropSegments (segments : SegmentArray) : Program Cell Unit := do
  freeSegments segments.array 0 segments.count
  release segments.array

/-- A full array is enlarged. -/
def growSegments (segments : SegmentArray) :
    Program Cell (Option SegmentArray) := do
  if segments.count = segments.capacity then
    let newCapacity :=
      if segments.capacity = 0 then 8 else segments.capacity * 2
    match ← reallocate segments.array newCapacity with
    | none => pure none
    | some grown =>
        pure (some { segments with
          array := some grown
          capacity := newCapacity })
  else pure (some segments)

/-- A segment is copied and stored behind the others.  When memory runs out
everything is freed. -/
def pushSegment (chars : Bytes) (start length : Nat)
    (segments : SegmentArray) : Program Cell (Option SegmentArray) := do
  match ← growSegments segments with
  | none => do
      dropSegments segments
      pure none
  | some grown =>
      match ← newText (readRange chars start length) length with
      | none => do
          dropSegments grown
          pure none
      | some segment => do
          let address ← checked grown.array
          overwrite address grown.count [.pointers [segment]]
          pure (some { grown with count := grown.count + 1 })

/-- The last segment is freed. -/
def popSegment (segments : SegmentArray) : Program Cell SegmentArray := do
  let last ← checked (subtractAll segments.count [1])
  let segment ← loadSegment segments.array last
  release (some segment)
  pure { segments with count := last }

/-- A turn of the loop over the segments of the path. -/
def normalizeTurn (chars : Bytes) (state : Nat × SegmentArray) :
    Program Cell (LoopStep (Nat × SegmentArray)
      (Except StaticFileError SegmentArray)) := do
  let first ← checked chars[state.1]?
  if first = nul then pure (.done (.ok state.2))
  else
    let stop ← checked (spanAt (fun character => character == nul ||
      character == slash) chars state.1 chars.length)
    let length ← checked (subtractAll stop [state.1])
    let segment ← checked (readRange chars state.1 length)
    let behind ← checked chars[stop]?
    let next := if behind = slash then stop + 1 else stop
    if length = 0 then pure (.next (next, state.2))
    else if segment = ascii "." then pure (.next (next, state.2))
    else if segment = ascii ".." then
      if state.2.count = 0 then
        dropSegments state.2
        pure (.done (.error .forbidden))
      else
        let popped ← popSegment state.2
        pure (.next (next, popped))
    else
      match ← pushSegment chars state.1 length state.2 with
      | none => pure (.done (.error .outOfMemory))
      | some pushed => pure (.next (next, pushed))

/-- The length of the segments from an index on, with the slashes behind all
but the last one. -/
def totalLength (array : Option Nat) (count index : Nat) :
    Nat → Program Cell Nat
  | 0 => pure 0
  | remaining + 1 => do
      let segment ← loadSegment array index
      let text ← readString segment
      let others ← totalLength array count (index + 1) remaining
      pure (text.length + (if index + 1 < count then 1 else 0) + others)

/-- The loop that copies the segments and frees them, with the position
reached. -/
def joinFrom (relative : Nat) (array : Option Nat) (count index off : Nat) :
    Nat → Program Cell Nat
  | 0 => pure off
  | remaining + 1 => do
      let segment ← loadSegment array index
      let text ← readString segment
      overwrite relative off (text.map .byte)
      release (some segment)
      if index + 1 < count then
        overwrite relative (off + text.length) [.byte slash]
        joinFrom relative array count (index + 1) (off + text.length + 1)
          remaining
      else
        joinFrom relative array count (index + 1) (off + text.length)
          remaining

def staticFilesNormalizePath (decoded : Nat) :
    Program Cell (Except StaticFileError Nat) := do
  let text ← readString decoded
  let chars := text ++ [nul]
  let first ← checked chars[0]?
  if first ≠ slash then pure (.error .badTarget)
  else
    let walked ← iterate (normalizeTurn chars) (chars.length + 1)
      (1, { array := none, count := 0, capacity := 0 })
    match walked with
    | .error failure => pure (.error failure)
    | .ok segments => do
        let total ← totalLength segments.array segments.count 0
          segments.count
        match ← allocate (total + 1) with
        | none => do
            dropSegments segments
            pure (.error .outOfMemory)
        | some relative => do
            let stop ← joinFrom relative segments.array segments.count 0 0
              segments.count
            overwrite relative stop [.byte nul]
            release segments.array
            pure (.ok relative)

/-! ## Resolving -/

/-- `resolve_under_root`: the result in its buffer is copied at the end. -/
def resolveUnderRoot (fs : FileSystem) (canonicalRoot relative : Bytes) :
    Program Cell (Except StaticFileError (Resolved × Nat)) := do
  match locateUnderRoot fs canonicalRoot relative with
  | .error failure => pure (.error failure)
  | .ok resolved =>
      match ← newText (some resolved.path) resolved.path.length with
      | none => pure (.error .outOfMemory)
      | some copy => pure (.ok (resolved, copy))

def tryIndex (fs : FileSystem) (canonicalRoot dirRelative : Bytes) :
    Program Cell (Except StaticFileError (Resolved × Nat)) := do
  match printPath (if dirRelative = [] then ascii "index.html"
      else dirRelative ++ ascii "/index.html") with
  | .error failure => pure (.error failure)
  | .ok indexRelative =>
      match ← resolveUnderRoot fs canonicalRoot indexRelative with
      | .error failure => pure (.error failure)
      | .ok (resolved, copy) =>
          if resolved.isDir then
            release (some copy)
            pure (.error .forbidden)
          else pure (.ok (resolved, copy))

/-- The file to open: the path itself, or the index file of a directory, whose
own path is freed first. -/
def resolveTarget (fs : FileSystem) (canonicalRoot relative : Bytes) :
    Program Cell (Except StaticFileError (Resolved × Nat)) := do
  match ← resolveUnderRoot fs canonicalRoot relative with
  | .error failure => pure (.error failure)
  | .ok (resolved, copy) =>
      if resolved.isDir then
        release (some copy)
        match ← tryIndex fs canonicalRoot relative with
        | .error .notFound => pure (.error .forbidden)
        | .error failure => pure (.error failure)
        | .ok index => pure (.ok index)
      else pure (.ok (resolved, copy))

/-! ## Serving -/

/-- The local pointers of `static_files_serve`. -/
structure Paths where
  pathOnly : Option Nat := none
  decoded : Option Nat := none
  relative : Option Nat := none
  resolved : Option Nat := none

/-- The relative path is resolved under the canonical root. -/
def lookUpUnder (fs : FileSystem) (root : Bytes) (relative : Nat)
    (paths : Paths) :
    Program Cell (Except StaticFileError Resolved × Paths) := do
  let text ← readString relative
  match ← resolveTarget fs root text with
  | .error failure => pure (.error failure, paths)
  | .ok (file, copy) => do
      let path ← readString copy
      pure (.ok { file with path := path }, { paths with resolved := copy })

/-- The part of `static_files_serve` in front of its label `done`, with the
file that it would open. -/
def lookUp (fs : FileSystem) (documentRoot : Bytes) (target : Nat) :
    Program Cell (Except StaticFileError Resolved × Paths) := do
  match ← staticFilesExtractPath target with
  | .error failure => pure (.error failure, {})
  | .ok pathOnly =>
      match ← staticFilesUrlDecode pathOnly with
      | .error failure => pure (.error failure, { pathOnly := pathOnly })
      | .ok decoded =>
          match ← staticFilesNormalizePath decoded with
          | .error failure =>
              pure (.error failure,
                { pathOnly := pathOnly, decoded := decoded })
          | .ok relative =>
              let paths : Paths :=
                { pathOnly := pathOnly
                  decoded := decoded
                  relative := relative }
              match canonicalDocumentRoot fs documentRoot with
              | none => pure (.error .ioError, paths)
              | some root => lookUpUnder fs root relative paths

/-- The frees at the label `done`. -/
def staticFilesFind (fs : FileSystem) (documentRoot : Bytes)
    (target : Nat) : Program Cell (Except StaticFileError Resolved) := do
  let found ← lookUp fs documentRoot target
  release found.2.pathOnly
  release found.2.decoded
  release found.2.relative
  release found.2.resolved
  pure found.1

end Pointers

end CinderHTTP
