import Mathlib.Data.List.Basic
import Mathlib.Data.List.Nodup
import Mathlib.Data.List.Perm.Basic

/-!
# Lifetimes of resources

A program acquires and releases resources, and some rest on others: a resource
has a layer, and may be acquired or released only while nothing of a higher
layer is held.  Reading the log of a program gives what it holds, or fails at
the first entry that breaks the rules: an acquisition of what is held already,
a release of what is not held, or one that pulls the ground from under another
resource.
-/

namespace CinderHTTP

/-- An entry of the log. -/
inductive Use (α : Type*) where
  | acquire (resource : α)
  | release (resource : α)
  deriving DecidableEq, Repr

section

variable {α : Type*} [DecidableEq α] (layer : α → Nat)

/-- Nothing that is held rests on the resource. -/
def OnTop (held : List α) (resource : α) : Prop :=
  ∀ other ∈ held, layer other ≤ layer resource

instance (held : List α) (resource : α) :
    Decidable (OnTop layer held resource) :=
  inferInstanceAs (Decidable (∀ other ∈ held, layer other ≤ layer resource))

def settleStep (held : List α) : Use α → Option (List α)
  | .acquire resource =>
      if resource ∉ held ∧ OnTop layer held resource then
        some (resource :: held)
      else none
  | .release resource =>
      if resource ∈ held ∧ OnTop layer held resource then
        some (held.erase resource)
      else none

/-- What is held behind a log. -/
def settle (held : List α) (log : List (Use α)) : Option (List α) :=
  log.foldlM (settleStep layer) held

variable {layer} {held after : List α} {log more : List (Use α)}
  {resource : α}

theorem settle_append (settled : settle layer held log = some after) :
    settle layer held (log ++ more) = settle layer after more := by
  unfold settle at settled ⊢
  rw [List.foldlM_append, settled]
  rfl

theorem settle_acquire (settled : settle layer held log = some after)
    (absent : resource ∉ after) (top : OnTop layer after resource) :
    settle layer held (log ++ [.acquire resource]) =
      some (resource :: after) := by
  rw [settle_append settled, settle, List.foldlM_cons, settleStep,
    if_pos ⟨absent, top⟩]
  rfl

theorem settle_release (settled : settle layer held log = some after)
    (present : resource ∈ after) (top : OnTop layer after resource) :
    settle layer held (log ++ [.release resource]) =
      some (after.erase resource) := by
  rw [settle_append settled, settle, List.foldlM_cons, settleStep,
    if_pos ⟨present, top⟩]
  rfl

/-- Resources of one layer are released in any order. -/
theorem settle_releaseAll {order items ground : List α} {height : Nat}
    (settled : settle layer held log = some (items ++ ground))
    (all : order.Perm items) (level : ∀ item ∈ items, layer item = height)
    (below : ∀ other ∈ ground, layer other ≤ height) :
    settle layer held (log ++ order.map .release) = some ground := by
  induction order generalizing items log with
  | nil =>
      rw [List.nil_perm.mp all] at settled
      rw [List.map_nil, List.append_nil]
      exact settled
  | cons item order induction =>
      have member : item ∈ items := all.subset List.mem_cons_self
      have top : OnTop layer (items ++ ground) item := by
        intro other inside
        rw [level item member]
        rcases List.mem_append.mp inside with above | under
        · exact Nat.le_of_eq (level other above)
        · exact below other under
      have released := settle_release settled
        (List.mem_append_left _ member) top
      rw [List.erase_append_left _ member] at released
      rw [List.map_cons, List.append_cons]
      apply induction released
      · exact List.cons_perm_iff_perm_erase.mp all |>.2
      · exact fun other inside => level other (List.mem_of_mem_erase inside)

end

end CinderHTTP
