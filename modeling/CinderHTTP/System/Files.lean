import CinderHTTP.Base.Memory

/-!
# Files and descriptors

What the program sees of the file system: the answers of `realpath`, `stat`
and `open` as functions of a path, which stay the same during a call.  An
open file carries the canonical path of the object it refers to.  A process
answers allocation requests from its script and records every descriptor
that is opened and every one that is closed.
-/

namespace CinderHTTP

/-- The error numbers that the program tells apart. -/
inductive Errno where
  | enoent
  | eacces
  | other
  deriving DecidableEq, Repr

inductive FileKind where
  | regular
  | directory
  | other
  deriving DecidableEq, Repr

structure Stat where
  kind : FileKind
  size : Int
  deriving DecidableEq, Repr

/-- An opened object: its canonical path, its bytes and what `fstat` says. -/
structure OpenFile where
  path : List Bytes
  content : Bytes
  fstat : Except Errno Stat
  deriving DecidableEq

structure FileSystem where
  realpath : Bytes → Except Errno Bytes
  stat : Bytes → Except Errno Stat
  openRead : Bytes → Except Errno OpenFile

/-! ## Canonical paths -/

/-- The text of a sequence of path components, each behind a slash. -/
def renderTail (components : List Bytes) : Bytes :=
  components.flatMap fun component => slash :: component

/-- An absolute path; the root directory has no components. -/
def renderPath (components : List Bytes) : Bytes :=
  if components = [] then [slash] else renderTail components

/-- A component without slashes and NULs that is not empty and not a dot
segment. -/
structure CanonicalComponent (component : Bytes) : Prop where
  nonempty : component ≠ []
  noSlash : slash ∉ component
  noNul : nul ∉ component
  notDot : component ≠ ascii "."
  notDotDot : component ≠ ascii ".."

def CanonicalPath (components : List Bytes) : Prop :=
  ∀ component ∈ components, CanonicalComponent component

/-- An object of the file system, as `stat` and `read` show it. -/
structure Object where
  stat : Stat
  content : Bytes

/-- The documented behaviour of the three calls.  A resolved path is the
canonical path of an object, and a canonical path leads `stat` and `open` to
the object that it names. -/
structure FileSystem.Lawful (fs : FileSystem)
    (object : List Bytes → Option Object) : Prop where
  realpath : ∀ path resolved, fs.realpath path = .ok resolved →
    ∃ components, CanonicalPath components ∧
      (object components).isSome ∧ resolved = renderPath components
  stat : ∀ components, CanonicalPath components → ∀ found,
    fs.stat (renderPath components) = .ok found →
      (object components).map Object.stat = some found
  openRead : ∀ components, CanonicalPath components → ∀ file,
    fs.openRead (renderPath components) = .ok file →
      file.path = components ∧
      (object components).map Object.content = some file.content ∧
      ∀ found, file.fstat = .ok found →
        (object components).map Object.stat = some found

/-! ## Processes -/

/-- A descriptor is told from all others by its place in the sequence of
`open` calls, so a number that the kernel reuses is a new descriptor. -/
structure Descriptor where
  serial : Nat
  file : OpenFile
  deriving DecidableEq

structure Process where
  allocs : Allocs := []
  opened : List Descriptor := []
  closed : List Descriptor := []

namespace Process

def malloc (process : Process) : Bool × Process :=
  let answer := CinderHTTP.malloc process.allocs
  (answer.1, { process with allocs := answer.2 })

/-- `open(path, O_RDONLY | O_CLOEXEC)`. -/
def openRead (process : Process) (fs : FileSystem) (path : Bytes) :
    Except Errno Descriptor × Process :=
  match fs.openRead path with
  | .error errno => (.error errno, process)
  | .ok file =>
      let descriptor : Descriptor :=
        { serial := process.opened.length, file := file }
      (.ok descriptor,
        { process with opened := process.opened ++ [descriptor] })

def close (process : Process) (descriptor : Descriptor) : Process :=
  { process with closed := process.closed ++ [descriptor] }

@[simp] theorem malloc_granted {process : Process}
    (granted : process.allocs = []) :
    process.malloc = (true, process) := by
  rcases process with ⟨allocs, opened, closed⟩
  subst granted
  rfl

end Process

end CinderHTTP
