import CinderHTTP.Base.Buffer
import CinderHTTP.Base.Loop
import CinderHTTP.Base.Memory
import Mathlib.Data.Multiset.AddSub
import Mathlib.Data.Multiset.Filter
import Mathlib.Data.Multiset.MapFold
import Mathlib.Algebra.Order.Group.Multiset

/-!
# Programs on a heap

A heap has live blocks of cells.  A program on it gives nothing at the first
step that C leaves undefined: an access outside of a block, a read of a cell
that was never written, or the use or release of a block that is not live.  So
a result means that there was no such step.

What a program owns is a multiset of blocks.  The rules say what each step does
to some of them and leave the others as they are.
-/

namespace CinderHTTP

/-- A cell holds nothing before it is written. -/
structure Block (α : Type) where
  address : Nat
  cells : List (Option α)

/-- The live blocks, with the answers to the allocation requests to come.  No
address is given out twice. -/
structure Heap (α : Type) where
  blocks : List (Block α)
  fresh : Nat
  allocs : Allocs
  distinct : (blocks.map Block.address).Nodup
  below : ∀ block ∈ blocks, block.address < fresh

/-- A program on a heap. -/
abbrev Program (α β : Type) := StateT (Heap α) Option β

variable {α β γ : Type}

/-! ## What a program gives -/

/-- A program is defined on a heap, and its result and the heap behind it are
as described. -/
def Gives (program : Program α β) (heap : Heap α)
    (post : β → Heap α → Prop) : Prop :=
  ∃ result after, program heap = some (result, after) ∧ post result after

namespace Gives

variable {heap : Heap α} {program : Program α β}

theorem pure {result : β} {post : β → Heap α → Prop}
    (holds : post result heap) :
    Gives (Pure.pure result : Program α β) heap post :=
  ⟨result, heap, rfl, holds⟩

theorem andThen {middle : β → Heap α → Prop} {rest : β → Program α γ}
    {post : γ → Heap α → Prop} (first : Gives program heap middle)
    (next : ∀ result after, middle result after →
      Gives (rest result) after post) :
    Gives (program >>= rest) heap post := by
  obtain ⟨result, after, ran, holds⟩ := first
  obtain ⟨last, final, finished, done⟩ := next result after holds
  refine ⟨last, final, ?_, done⟩
  change (program heap).bind (fun pair => rest pair.1 pair.2) = _
  rw [ran]
  exact finished

theorem weaken {strong weak : β → Heap α → Prop}
    (gives : Gives program heap strong)
    (implies : ∀ result after, strong result after → weak result after) :
    Gives program heap weak := by
  obtain ⟨result, after, ran, holds⟩ := gives
  exact ⟨result, after, ran, implies result after holds⟩

end Gives

/-- A computation that may be undefined but leaves the heap alone. -/
def checked (value : Option β) : Program α β := fun heap =>
  value.map fun result => (result, heap)

theorem checked_gives {value : Option β} {result : β} {heap : Heap α}
    (defined : value = some result) :
    Gives (checked value) heap fun given after =>
      result = given ∧ heap = after :=
  ⟨result, heap, by rw [checked, defined, Option.map_some], rfl, rfl⟩

/-- A loop on the heap, which is undefined when it is not left within a number
of turns. -/
def iterate (body : β → Program α (LoopStep β γ)) :
    Nat → β → Program α γ
  | 0, _ => checked none
  | turns + 1, state => do
      match ← body state with
      | .next after => iterate body turns after
      | .done result => pure result

/-- A loop whose turns keep an invariant and make a measure smaller is left,
with a result that the last turn allows. -/
theorem iterate_gives {body : β → Program α (LoopStep β γ)}
    {holds : β → Heap α → Prop} {measure : β → Nat}
    {allowed : γ → Heap α → Prop}
    (good : ∀ state heap, holds state heap →
      Gives (body state) heap fun step after =>
        GoodTurn (holds · after) measure (allowed · after) state step)
    {state : β} {heap : Heap α} (held : holds state heap) {turns : Nat}
    (enough : measure state < turns) :
    Gives (iterate body turns state) heap allowed := by
  induction turns generalizing state heap with
  | zero => exact absurd enough (Nat.not_lt_zero _)
  | succ turns induction =>
      apply (good state heap held).andThen
      intro step after turn
      cases turn with
      | next kept smaller => exact induction kept (by omega)
      | done ends => exact .pure ends

/-! ## Ownership -/

namespace Heap

/-- The live blocks are these. -/
def Holds (heap : Heap α) (owned : Multiset (Block α)) : Prop :=
  (heap.blocks : Multiset (Block α)) = owned

variable {heap : Heap α} {owned others : Multiset (Block α)}
  {block : Block α}

theorem Holds.rearrange (holds : heap.Holds owned) (same : owned = others) :
    heap.Holds others :=
  holds.trans same

theorem Holds.addresses (holds : heap.Holds owned) :
    (owned.map Block.address).Nodup := by
  rw [← holds, Multiset.map_coe, Multiset.coe_nodup]
  exact heap.distinct

theorem Holds.apart (holds : heap.Holds ({block} + owned)) :
    ∀ other ∈ owned, other.address ≠ block.address := by
  intro other member same
  have addresses := holds.addresses
  rw [Multiset.singleton_add, Multiset.map_cons, Multiset.nodup_cons]
    at addresses
  exact addresses.1 (Multiset.mem_map.mpr ⟨other, member, same⟩)

theorem Holds.mem (holds : heap.Holds ({block} + owned))
    {other : Block α} :
    other ∈ heap.blocks ↔ other = block ∨ other ∈ owned := by
  rw [← Multiset.mem_coe, holds, Multiset.mem_add, Multiset.mem_singleton]

/-- The cells of a live block. -/
def cellsAt (heap : Heap α) (address : Nat) : Option (List (Option α)) :=
  (heap.blocks.find? fun block => block.address == address).map Block.cells

theorem Holds.cellsAt (holds : heap.Holds ({block} + owned)) :
    heap.cellsAt block.address = some block.cells := by
  have member : block ∈ heap.blocks := holds.mem.mpr (.inl rfl)
  cases found : heap.blocks.find? fun other =>
      other.address == block.address with
  | none =>
      have missing := List.find?_eq_none.mp found block member
      simp at missing
  | some other =>
      have same : other.address = block.address := by
        simpa using List.find?_some found
      rcases holds.mem.mp (List.mem_of_find?_eq_some found) with
        rfl | elsewhere
      · rw [Heap.cellsAt, found, Option.map_some]
      · exact absurd same (holds.apart other elsewhere)

/-- A new block at an address that was not used before. -/
def add (heap : Heap α) (cells : List (Option α)) : Heap α :=
  { blocks := { address := heap.fresh, cells := cells } :: heap.blocks
    fresh := heap.fresh + 1
    allocs := heap.allocs
    distinct := by
      rw [List.map_cons, List.nodup_cons]
      refine ⟨?_, heap.distinct⟩
      intro member
      obtain ⟨block, inside, same⟩ := List.mem_map.mp member
      exact absurd same (Nat.ne_of_lt (heap.below block inside))
    below := by
      intro block member
      rcases List.mem_cons.mp member with rfl | inside
      · exact Nat.lt_succ_self _
      · exact Nat.lt_succ_of_lt (heap.below block inside) }

theorem Holds.add (holds : heap.Holds owned) (cells : List (Option α)) :
    (heap.add cells).Holds
      ({{ address := heap.fresh, cells := cells }} + owned) := by
  rw [← holds]
  rfl

def remove (heap : Heap α) (address : Nat) : Heap α :=
  { heap with
    blocks := heap.blocks.filter fun block => block.address ≠ address
    distinct := heap.distinct.sublist (List.filter_sublist.map _)
    below := fun block member =>
      heap.below block (List.mem_of_mem_filter member) }

theorem map_replace (blocks : List (Block α)) (address : Nat)
    (cells : List (Option α)) :
    (blocks.map fun block =>
      if block.address = address then { block with cells := cells }
      else block).map Block.address = blocks.map Block.address := by
  rw [List.map_map]
  apply List.map_congr_left
  intro block _
  rw [Function.comp_apply]
  split_ifs
  · rfl
  · rfl

/-- Other cells in a block. -/
def replace (heap : Heap α) (address : Nat) (cells : List (Option α)) :
    Heap α :=
  { heap with
    blocks := heap.blocks.map fun block =>
      if block.address = address then { block with cells := cells }
      else block
    distinct := by
      rw [map_replace]
      exact heap.distinct
    below := by
      intro block member
      obtain ⟨old, inside, rfl⟩ := List.mem_map.mp member
      split_ifs
      · exact heap.below old inside
      · exact heap.below old inside }

theorem Holds.remove (holds : heap.Holds ({block} + owned)) :
    (heap.remove block.address).Holds owned := by
  change ((heap.blocks.filter _ : List (Block α)) :
    Multiset (Block α)) = owned
  rw [← Multiset.filter_coe, holds, Multiset.filter_add,
    Multiset.filter_singleton, if_neg (by simp), Multiset.empty_eq_zero,
    zero_add, Multiset.filter_eq_self]
  exact holds.apart

theorem Holds.replace (holds : heap.Holds ({block} + owned))
    (cells : List (Option α)) :
    (heap.replace block.address cells).Holds
      ({{ block with cells := cells }} + owned) := by
  change ((heap.blocks.map _ : List (Block α)) : Multiset (Block α)) = _
  rw [← Multiset.map_coe, holds, Multiset.map_add, Multiset.map_singleton,
    if_pos rfl, Multiset.map_congr rfl fun other member =>
      if_neg (holds.apart other member), Multiset.map_id']

end Heap

/-! ## Operations -/

/-- Uninitialized cells in a new block, if the request is granted. -/
def allocate (size : Nat) : Program α (Option Nat) := fun heap =>
  let answer := malloc heap.allocs
  let answered := { heap with allocs := answer.2 }
  if answer.1 then
    some (some heap.fresh, answered.add (List.replicate size none))
  else some (none, answered)

/-- Releasing `NULL` does nothing. -/
def release (pointer : Option Nat) : Program α Unit := fun heap =>
  match pointer with
  | none => some ((), heap)
  | some address =>
      (heap.cellsAt address).map fun _ => ((), heap.remove address)

/-- The value of a cell. -/
def load (address index : Nat) : Program α α := do
  let heap ← get
  checked (do (← (← heap.cellsAt address)[index]?))

/-- Writing values to consecutive cells. -/
def overwrite (address position : Nat) (values : List α) :
    Program α Unit := fun heap =>
  (heap.cellsAt address).bind fun cells =>
    (copyAt cells position (values.map some)).map fun written =>
      ((), heap.replace address written)

/-- Another block with the first cells of the old one, which is released.  A
request that is refused leaves the old block. -/
def reallocate (pointer : Option Nat) (size : Nat) :
    Program α (Option Nat) := do
  match ← allocate size with
  | none => pure none
  | some moved => fun heap =>
      match pointer with
      | none => some (some moved, heap)
      | some address =>
          (heap.cellsAt address).map fun cells =>
            (some moved, (heap.replace moved
              ((cells ++ List.replicate size none).take size)).remove
                address)

section

variable {heap : Heap α} {owned : Multiset (Block α)}

/-- What an allocation comes to.  The answer is the next one of the script,
and when it is granted there is a new block beside the rest. -/
inductive Allocated (heap : Heap α) (owned rest : Multiset (Block α))
    (cells : List (Option α)) : Option Nat → Heap α → Prop
  | refused {after : Heap α} (answer : malloc heap.allocs =
      (false, after.allocs)) (holds : after.Holds owned) :
      Allocated heap owned rest cells none after
  | granted {after : Heap α} {address : Nat} (answer : malloc heap.allocs =
      (true, after.allocs))
      (holds : after.Holds ({{ address := address, cells := cells }} + rest)) :
      Allocated heap owned rest cells (some address) after

theorem allocate_gives (holds : heap.Holds owned) (size : Nat) :
    Gives (allocate size) heap
      (Allocated heap owned owned (List.replicate size none)) := by
  cases answer : malloc heap.allocs with
  | mk granted later =>
      cases granted with
      | false =>
          refine ⟨none, { heap with allocs := later }, ?_, .refused answer
            holds⟩
          simp only [allocate, answer, Bool.false_eq_true, if_false]
      | true =>
          refine ⟨some heap.fresh, ({ heap with allocs := later } :
            Heap α).add (List.replicate size none), ?_, .granted answer
            (holds.add _)⟩
          simp only [allocate, answer, if_true]

theorem release_gives {block : Block α}
    (holds : heap.Holds ({block} + owned)) :
    Gives (release (some block.address)) heap fun _ after =>
      after.Holds owned ∧ after.allocs = heap.allocs := by
  refine ⟨(), heap.remove block.address, ?_, holds.remove, rfl⟩
  simp only [release, holds.cellsAt, Option.map_some]

/-- What a pointer owns: a block, or nothing when it is `NULL`. -/
inductive Owns : Option Nat → Multiset (Block α) → Prop
  | null : Owns none 0
  | block (block : Block α) : Owns (some block.address) {block}

theorem Owns.release {pointer : Option Nat} {blocks : Multiset (Block α)}
    (owns : Owns pointer blocks) (holds : heap.Holds (blocks + owned)) :
    Gives (CinderHTTP.release pointer) heap fun _ after =>
      after.Holds owned ∧ after.allocs = heap.allocs := by
  cases owns with
  | null => exact ⟨(), heap, rfl, holds.rearrange (zero_add _), rfl⟩
  | block => exact release_gives holds

theorem load_gives {block : Block α} {index : Nat} {value : α}
    (holds : heap.Holds ({block} + owned))
    (stored : block.cells[index]? = some (some value)) :
    Gives (load block.address index) heap fun given after =>
      value = given ∧ heap = after := by
  refine ⟨value, heap, ?_, rfl, rfl⟩
  change (checked _ heap) = _
  rw [holds.cellsAt]
  simp [checked, stored]

theorem overwrite_gives {block : Block α} {position : Nat}
    {values : List α} {written : List (Option α)}
    (holds : heap.Holds ({block} + owned))
    (fits : copyAt block.cells position (values.map some) = some written) :
    Gives (overwrite block.address position values) heap fun _ after =>
      after.Holds ({{ block with cells := written }} + owned) ∧
        after.allocs = heap.allocs := by
  refine ⟨(), heap.replace block.address written, ?_,
    holds.replace written, rfl⟩
  simp only [overwrite, holds.cellsAt, Option.bind_some, fits,
    Option.map_some]

theorem reallocate_gives {block : Block α}
    (holds : heap.Holds ({block} + owned)) (size : Nat) :
    Gives (reallocate (some block.address) size) heap
      (Allocated heap ({block} + owned) owned
        ((block.cells ++ List.replicate size none).take size)) := by
  apply (allocate_gives holds size).andThen
  intro given middle allocated
  cases allocated with
  | refused answer kept => exact .pure (.refused answer kept)
  | @granted _ moved answer both =>
      have behind := (both.rearrange (add_left_comm _ _ _)).cellsAt
      have copied := (both.replace
        ((block.cells ++ List.replicate size none).take size)).rearrange
          (add_left_comm _ _ _)
      refine ⟨some moved, (middle.replace moved
        ((block.cells ++ List.replicate size none).take size)).remove
          block.address, ?_, .granted answer copied.remove⟩
      simp only [behind, Option.map_some]

theorem reallocate_null (holds : heap.Holds owned) (size : Nat) :
    Gives (reallocate none size) heap
      (Allocated heap owned owned (List.replicate size none)) := by
  apply (allocate_gives holds size).andThen
  intro given middle allocated
  cases allocated with
  | refused answer kept => exact .pure (.refused answer kept)
  | granted answer kept => exact ⟨_, _, rfl, .granted answer kept⟩

end

end CinderHTTP
