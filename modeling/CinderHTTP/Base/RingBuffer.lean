import Mathlib.Data.List.GetD
import Mathlib.Data.Nat.ModEq

/-!
# Ring buffers

A bounded buffer in an array, filled at its tail and emptied at its head,
both of which wrap around.  The contents are the cells from the head on, and
the two operations are those of a list that grows at its end and shrinks at
its front.
-/

namespace CinderHTTP

structure Ring (α : Type*) where
  items : List α
  capacity : Nat
  head : Nat
  tail : Nat
  count : Nat
  deriving DecidableEq, Repr

namespace Ring

section

variable {α : Type*}

def push (ring : Ring α) (item : α) : Ring α :=
  { ring with
    items := ring.items.set ring.tail item
    tail := (ring.tail + 1) % ring.capacity
    count := ring.count + 1 }

def pop (ring : Ring α) : Ring α :=
  { ring with
    head := (ring.head + 1) % ring.capacity
    count := ring.count - 1 }

/-- The indices are those of a buffer in use. -/
structure Valid (ring : Ring α) : Prop where
  size : ring.items.length = ring.capacity
  head : ring.head < ring.capacity
  tail : ring.tail = (ring.head + ring.count) % ring.capacity
  count : ring.count ≤ ring.capacity

theorem Valid.tail_lt {ring : Ring α} (valid : ring.Valid) :
    ring.tail < ring.capacity := by
  rw [valid.tail]
  exact Nat.mod_lt _ (Nat.lt_of_le_of_lt (Nat.zero_le _) valid.head)

theorem place_injective {capacity head first second : Nat}
    (firstBound : first < capacity) (secondBound : second < capacity)
    (same : (head + first) % capacity = (head + second) % capacity) :
    first = second := by
  have equal : first ≡ second [MOD capacity] :=
    Nat.ModEq.add_left_cancel' head same
  rwa [Nat.ModEq, Nat.mod_eq_of_lt firstBound,
    Nat.mod_eq_of_lt secondBound] at equal

theorem Valid.push {ring : Ring α} (valid : ring.Valid)
    (room : ring.count < ring.capacity) (item : α) :
    (ring.push item).Valid := by
  constructor
  · simp only [Ring.push, List.length_set]
    exact valid.size
  · exact valid.head
  · simp only [Ring.push]
    rw [valid.tail, Nat.mod_add_mod, Nat.add_assoc]
  · exact room

theorem Valid.pop {ring : Ring α} (valid : ring.Valid)
    (filled : 0 < ring.count) : ring.pop.Valid := by
  have positive := Nat.lt_of_le_of_lt (Nat.zero_le _) valid.head
  constructor
  · exact valid.size
  · exact Nat.mod_lt _ positive
  · simp only [Ring.pop]
    rw [valid.tail, Nat.mod_add_mod, Nat.add_assoc,
      Nat.add_sub_cancel' filled]
  · exact Nat.le_trans (Nat.sub_le _ _) valid.count

end

section

variable {α : Type*} [Inhabited α]

/-- An array cell. -/
def cell (ring : Ring α) (index : Nat) : α :=
  ring.items.getD index default

/-- The cells in use, from the head on. -/
def contents (ring : Ring α) : List α :=
  (List.range ring.count).map fun index =>
    ring.cell ((ring.head + index) % ring.capacity)

theorem cell_set_ne {ring : Ring α} {place other : Nat} {item : α}
    (different : place ≠ other) :
    cell { ring with items := ring.items.set place item } other =
      ring.cell other := by
  simp only [cell, List.getD_eq_getElem?_getD]
  rw [List.getElem?_set_ne different]

theorem contents_length (ring : Ring α) :
    ring.contents.length = ring.count := by
  simp [contents]

theorem Valid.push_contents {ring : Ring α} (valid : ring.Valid)
    (room : ring.count < ring.capacity) (item : α) :
    (ring.push item).contents = ring.contents ++ [item] := by
  have written : ring.tail < ring.items.length := by
    rw [valid.size]
    exact valid.tail_lt
  simp only [contents, Ring.push, cell, List.range_succ, List.map_append,
    List.map_cons, List.map_nil]
  congr 1
  · apply List.map_congr_left
    intro index member
    have used := List.mem_range.mp member
    apply cell_set_ne
    rw [valid.tail]
    intro same
    have equal := place_injective room (Nat.lt_trans used room) same
    exact Nat.ne_of_gt used equal
  · rw [← valid.tail, List.getD_eq_getElem?_getD, List.getElem?_set_self written]
    rfl

theorem Valid.pop_contents {ring : Ring α} (valid : ring.Valid)
    (filled : 0 < ring.count) :
    ring.contents = ring.cell ring.head :: ring.pop.contents := by
  obtain ⟨rest, more⟩ : ∃ rest, ring.count = rest + 1 :=
    ⟨ring.count - 1, by omega⟩
  simp only [contents, Ring.pop, more, Nat.add_sub_cancel,
    List.range_succ_eq_map, List.map_cons, List.map_map]
  congr 1
  · rw [Nat.add_zero, Nat.mod_eq_of_lt valid.head]
  · apply List.map_congr_left
    intro index _
    simp only [Function.comp_apply, cell, Nat.mod_add_mod]
    rw [Nat.succ_eq_add_one, Nat.add_assoc, Nat.add_comm 1 index]

/-- An empty buffer of the given size. -/
def empty (capacity : Nat) : Ring α :=
  { items := List.replicate capacity default
    capacity := capacity
    head := 0
    tail := 0
    count := 0 }

theorem valid_empty {capacity : Nat} (positive : 0 < capacity) :
    (empty capacity : Ring α).Valid :=
  { size := List.length_replicate
    head := positive
    tail := (Nat.zero_mod capacity).symm
    count := Nat.zero_le capacity }

end

end Ring

end CinderHTTP
