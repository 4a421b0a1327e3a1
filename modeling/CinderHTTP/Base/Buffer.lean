import CinderHTTP.Base.Search
import Mathlib.Algebra.BigOperators.Group.List.Basic
import Mathlib.Algebra.Ring.Nat
import Mathlib.Data.Nat.PSub

/-!
# Reading and writing a buffer

A buffer of fixed size is filled from a cursor that each copy advances, and
searched range by range.  A copy or a search that would run over the end of
the buffer gives nothing, and neither does an unsigned subtraction that would
wrap around.  So a result means that every access stayed inside.
-/

namespace CinderHTTP

section

variable {α : Type*}

/-- Copying items to a position of a buffer. -/
def copyAt (buffer : List α) (position : Nat) (items : List α) :
    Option (List α) :=
  if position + items.length ≤ buffer.length then
    some (buffer.take position ++ items ++
      buffer.drop (position + items.length))
  else none

/-- Copying pieces one behind the other, with the position reached. -/
def copyAll (buffer : List α) (position : Nat) :
    List (List α) → Option (List α × Nat)
  | [] => some (buffer, position)
  | piece :: pieces =>
      (copyAt buffer position piece).bind fun written =>
        copyAll written (position + piece.length) pieces

theorem copyAt_append {written rest items : List α}
    (fits : items.length ≤ rest.length) :
    copyAt (written ++ rest) written.length items =
      some (written ++ items ++ rest.drop items.length) := by
  have inside : written.length + items.length ≤ (written ++ rest).length := by
    rw [List.length_append]
    omega
  rw [copyAt, if_pos inside, List.take_left, List.drop_append,
    List.drop_eq_nil_of_le (Nat.le_add_right _ _), List.nil_append,
    Nat.add_sub_cancel_left]

/-- Pieces that fit are all copied, and the position advances by their
length. -/
theorem copyAll_append (pieces : List (List α)) {written rest : List α}
    (fits : pieces.flatten.length ≤ rest.length) :
    copyAll (written ++ rest) written.length pieces =
      some (written ++ pieces.flatten ++ rest.drop pieces.flatten.length,
        written.length + pieces.flatten.length) := by
  induction pieces generalizing written rest with
  | nil => simp [copyAll]
  | cons piece pieces induction =>
      rw [List.flatten_cons, List.length_append] at fits
      have moved : written.length + piece.length =
          (written ++ piece).length := List.length_append.symm
      rw [copyAll, copyAt_append (by omega), Option.bind_some, moved,
        induction (by rw [List.length_drop]; omega)]
      simp only [List.flatten_cons, List.length_append, List.append_assoc,
        List.drop_drop, Nat.add_assoc]

theorem copyAll_exact (pieces : List (List α)) {buffer : List α}
    (sized : buffer.length = pieces.flatten.length + 1) :
    ∃ last, copyAll buffer 0 pieces =
      some (pieces.flatten ++ [last], pieces.flatten.length) := by
  have whole := @copyAll_append α pieces [] buffer (by omega)
  have one : (buffer.drop pieces.flatten.length).length = 1 := by
    rw [List.length_drop]
    omega
  obtain ⟨last, same⟩ := List.length_eq_one_iff.mp one
  rw [same] at whole
  exact ⟨last, by simpa using whole⟩

/-! ## Ranges -/

/-- The items of a range of a buffer. -/
def readRange (buffer : List α) (start length : Nat) : Option (List α) :=
  if start + length ≤ buffer.length then
    some ((buffer.drop start).take length)
  else none

theorem readRange_between {buffer before items after : List α}
    (parts : buffer = before ++ (items ++ after)) :
    readRange buffer before.length items.length = some items := by
  have inside : before.length + items.length ≤ buffer.length := by
    simp only [parts, List.length_append]
    omega
  rw [readRange, if_pos inside, parts, List.drop_left, List.take_left]

/-- A chain of unsigned subtractions. -/
def subtractAll (minuend : Nat) (subtrahends : List Nat) : Option Nat :=
  subtrahends.foldlM Nat.psub minuend

theorem subtractAll_eq_some_iff {minuend : Nat} {subtrahends : List Nat}
    {rest : Nat} :
    subtractAll minuend subtrahends = some rest ↔
      rest + subtrahends.sum = minuend := by
  induction subtrahends generalizing minuend with
  | nil => simp [subtractAll, eq_comm]
  | cons subtrahend others induction =>
      change (Nat.psub minuend subtrahend).bind
        (fun left => subtractAll left others) = some rest ↔ _
      simp only [Option.bind_eq_some_iff, Nat.psub_eq_some, induction,
        List.sum_cons]
      constructor
      · rintro ⟨left, first, rfl⟩
        omega
      · intro total
        exact ⟨rest + others.sum, by omega, rfl⟩

section Search

variable {α : Type} [DecidableEq α]

/-- The position of the first occurrence of an item in a range. -/
def memchr (item : α) (buffer : List α) (start length : Nat) :
    Option (Option Nat) :=
  (readRange buffer start length).map fun items =>
    (items.idxOf? item).map (start + ·)

/-- Whether an item occurs in a range. -/
def occursIn (item : α) (buffer : List α) (start length : Nat) :
    Option Bool :=
  (memchr item buffer start length).map Option.isSome

theorem idxOf?_eq_cutFirst (item : α) (items : List α) :
    items.idxOf? item = (cutFirst item items).map fun cut =>
      cut.1.length := by
  induction items with
  | nil => rfl
  | cons head tail induction =>
      rw [List.idxOf?_cons, cutFirst, induction]
      by_cases same : head = item
      · simp [same]
      · simp [same, Option.map_map, Function.comp_def]

/-- A search finds the end of what `cutFirst` cuts off. -/
theorem memchr_eq {buffer items : List α} {start length : Nat}
    (read : readRange buffer start length = some items) (item : α) :
    memchr item buffer start length =
      some ((cutFirst item items).map fun cut =>
        start + cut.1.length) := by
  rw [memchr, read, Option.map_some, idxOf?_eq_cutFirst, Option.map_map]
  rfl

theorem occursIn_eq {buffer items : List α} {start length : Nat}
    (read : readRange buffer start length = some items) (item : α) :
    occursIn item buffer start length = some (decide (item ∈ items)) := by
  rw [occursIn, memchr, read, Option.map_some, Option.map_some,
    Option.isSome_map, Option.some.injEq, Bool.eq_iff_iff,
    List.isSome_idxOf?, decide_eq_true_iff]

end Search

end

end CinderHTTP
