import CinderHTTP.Base.Transition

/-!
# Bounded queues

The queue as an abstract machine: items enter behind and leave in front,
nothing enters a full queue or one that was closed, and a closed queue still
gives away what it holds.  The state remembers what has entered and what has
left.
-/

namespace CinderHTTP

structure Fifo (α : Type*) where
  contents : List α
  closed : Bool
  entered : List α
  departed : List α

inductive FifoAction (α : Type*) where
  | enter (item : α)
  | depart
  | close
  | rest

namespace Fifo

variable {α : Type*}

def next (capacity : Nat) (fifo : Fifo α) : FifoAction α → Option (Fifo α)
  | .enter item =>
      if fifo.closed = false ∧ fifo.contents.length < capacity then
        some { fifo with
          contents := fifo.contents ++ [item]
          entered := fifo.entered ++ [item] }
      else none
  | .depart =>
      match fifo.contents with
      | [] => none
      | item :: rest =>
          some { fifo with
            contents := rest
            departed := fifo.departed ++ [item] }
  | .close => some { fifo with closed := true }
  | .rest => some fifo

def machine (capacity : Nat) : Machine (Fifo α) (FifoAction α) :=
  { Start := fun fifo => fifo =
      { contents := [], closed := false, entered := [], departed := [] }
    next := next capacity }

/-- Nothing is lost, doubled or reordered, and the bound is kept. -/
structure Ordered (capacity : Nat) (fifo : Fifo α) : Prop where
  order : fifo.departed ++ fifo.contents = fifo.entered
  bound : fifo.contents.length ≤ capacity

theorem Ordered.next {capacity : Nat} {fifo after : Fifo α}
    {action : FifoAction α} (ordered : fifo.Ordered capacity)
    (stepped : fifo.next capacity action = some after) :
    after.Ordered capacity := by
  cases action with
  | enter item =>
      simp only [Fifo.next] at stepped
      split at stepped
      · rename_i room
        cases stepped
        constructor
        · rw [← ordered.order, List.append_assoc]
        · rw [List.length_append]
          exact room.2
      · cases stepped
  | depart =>
      simp only [Fifo.next] at stepped
      split at stepped
      · cases stepped
      · rename_i item rest front
        cases stepped
        have order := ordered.order
        have bound := ordered.bound
        rw [front] at order bound
        constructor
        · rw [← order, List.append_assoc]
          rfl
        · exact Nat.le_of_succ_le bound
  | close =>
      cases stepped
      exact ⟨ordered.order, ordered.bound⟩
  | rest =>
      cases stepped
      exact ordered

theorem ordered_of_reachable {capacity : Nat} {fifo : Fifo α}
    (reachable : (machine capacity).Reachable fifo) :
    fifo.Ordered capacity := by
  apply reachable.invariant
  · intro start started
    cases started
    exact ⟨rfl, Nat.zero_le _⟩
  · intro before action after ordered stepped
    exact ordered.next stepped

end Fifo

end CinderHTTP
