import CinderHTTP.System.Files

/-!
# From request target to relative path

The lexical stages of `static_files.c`: the query and fragment are cut off,
percent escapes are decoded once, and the decoded path is normalized to a
path relative to the document root.
-/

namespace CinderHTTP

/-- The results other than `STATIC_FILE_OK`. -/
inductive StaticFileError where
  | notFound
  | forbidden
  | badTarget
  | tooLarge
  | ioError
  | outOfMemory
  deriving DecidableEq, Repr

def isHex (character : Byte) : Bool :=
  (byte '0' ≤ character && character ≤ byte '9') ||
  (byte 'a' ≤ character && character ≤ byte 'f') ||
  (byte 'A' ≤ character && character ≤ byte 'F')

/-- The value of a hexadecimal digit.  No caller passes another byte. -/
def hexValue (character : Byte) : Nat :=
  if byte '0' ≤ character && character ≤ byte '9' then
    character.toNat - (byte '0').toNat
  else if byte 'a' ≤ character && character ≤ byte 'f' then
    character.toNat - (byte 'a').toNat + 10
  else if byte 'A' ≤ character && character ≤ byte 'F' then
    character.toNat - (byte 'A').toNat + 10
  else 0

/-! ## Path portion -/

def pathPortion (target : Bytes) : Except StaticFileError Bytes :=
  if target = [] then .error .badTarget
  else if target.head? ≠ some slash then .error .badTarget
  else
    .ok (target.takeWhile fun character =>
      character ≠ question && character ≠ hash)

def staticFilesExtractPath (target : Bytes) (process : Process) :
    Except StaticFileError Bytes × Process :=
  match pathPortion target with
  | .error failure => (.error failure, process)
  | .ok path =>
      let copy := process.malloc
      if !copy.1 then (.error .outOfMemory, copy.2) else (.ok path, copy.2)

/-! ## Percent-decoding -/

/-- The decoded bytes, or nothing at a bad escape or an escaped NUL. -/
def decodeEscapes : Bytes → Option Bytes
  | [] => some []
  | character :: rest =>
      if character = percent then
        match rest with
        | high :: low :: more =>
            if !isHex high || !isHex low then none
            else
              let decoded := UInt8.ofNat (hexValue high * 16 + hexValue low)
              if decoded = nul then none
              else (decodeEscapes more).map (decoded :: ·)
        | _ => none
      else (decodeEscapes rest).map (character :: ·)

def staticFilesUrlDecode (input : Bytes) (process : Process) :
    Except StaticFileError Bytes × Process :=
  let out := process.malloc
  if !out.1 then (.error .outOfMemory, out.2)
  else
    match decodeEscapes input with
    | none => (.error .badTarget, out.2)
    | some decoded => (.ok decoded, out.2)

/-! ## Normalization -/

/-- The array of segments is enlarged when it is full, then the segment is
copied. -/
def pushSegment (segment : Bytes) (segments : List Bytes) (capacity : Nat)
    (process : Process) : Option (List Bytes × Nat) × Process :=
  let grown :=
    if segments.length = capacity then process.malloc else (true, process)
  if !grown.1 then (none, grown.2)
  else
    let newCapacity :=
      if segments.length = capacity then
        if capacity = 0 then 8 else capacity * 2
      else capacity
    let copy := grown.2.malloc
    if !copy.1 then (none, copy.2)
    else (some (segments ++ [segment], newCapacity), copy.2)

def normalizeFrom (cursor : Bytes) (segments : List Bytes) (capacity : Nat)
    (process : Process) : Except StaticFileError (List Bytes) × Process :=
  if cursor = [] then (.ok segments, process)
  else
    let segment := cursor.takeWhile (· ≠ slash)
    let next := (cursor.dropWhile (· ≠ slash)).drop 1
    if segment = [] then normalizeFrom next segments capacity process
    else if segment = ascii "." then
      normalizeFrom next segments capacity process
    else if segment = ascii ".." then
      if segments = [] then (.error .forbidden, process)
      else normalizeFrom next segments.dropLast capacity process
    else
      match pushSegment segment segments capacity process with
      | (none, process) => (.error .outOfMemory, process)
      | (some (pushed, newCapacity), process) =>
          normalizeFrom next pushed newCapacity process
termination_by cursor.length
decreasing_by
  all_goals
    have nonempty : 0 < cursor.length := List.length_pos_iff.mpr (by assumption)
    have behind : (cursor.dropWhile (· ≠ slash)).length ≤ cursor.length :=
      (List.dropWhile_suffix _).length_le
    rw [List.length_drop]
    omega

/-- The segments with slashes between them. -/
def joinSegments : List Bytes → Bytes
  | [] => []
  | [segment] => segment
  | segment :: next :: segments =>
      segment ++ slash :: joinSegments (next :: segments)

def staticFilesNormalizePath (decoded : Bytes) (process : Process) :
    Except StaticFileError Bytes × Process :=
  match decoded with
  | [] => (.error .badTarget, process)
  | first :: rest =>
      if first ≠ slash then (.error .badTarget, process)
      else
        match normalizeFrom rest [] 0 process with
        | (.error failure, process) => (.error failure, process)
        | (.ok segments, process) =>
            let relative := process.malloc
            if !relative.1 then (.error .outOfMemory, relative.2)
            else (.ok (joinSegments segments), relative.2)

end CinderHTTP
