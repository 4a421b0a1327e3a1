import CinderHTTP.Base.Lines
import Mathlib.Data.List.TakeWhile

/-!
# Allocation outcomes and C strings

A run of a C function asks for memory a finite number of times.  Its
allocation script lists the answers in order; when the script is used up,
every further request is granted, so the empty script is the run without
allocation failure.

A C string is modelled by the bytes before its NUL.
-/

namespace CinderHTTP

/-- Answers to the allocation requests of a run, in order. -/
abbrev Allocs := List Bool

/-- One allocation request: whether it is granted, and the later answers. -/
def malloc : Allocs → Bool × Allocs
  | [] => (true, [])
  | granted :: later => (granted, later)

@[simp] theorem malloc_nil : malloc [] = (true, []) := rfl

/-- The C string stored in a buffer: its bytes before the first NUL. -/
def cstr (buffer : Bytes) : Bytes :=
  buffer.takeWhile fun stored => stored != nul

theorem cstr_eq_self {buffer : Bytes} (clean : nul ∉ buffer) :
    cstr buffer = buffer := by
  rw [cstr, List.takeWhile_eq_self_iff]
  intro stored member
  have different : stored ≠ nul := by
    intro same
    exact clean (same ▸ member)
  simp [different]

end CinderHTTP
