import Mathlib.Algebra.BigOperators.Group.List.Basic
import Mathlib.Algebra.Ring.Nat
import Mathlib.Tactic.TypeStar

/-!
# Credit

Agents work off lists of steps in any interleaving.  Some steps earn a unit
and some spend one.  The credit that a list needs in advance is its demand,
and when every list was granted its demand, no more was spent at any moment
than was earned and granted.
-/

namespace CinderHTTP

variable {Step : Type*} (spends earns : Step → Bool)

/-- The credit with which a list of steps never runs dry. -/
def demand : List Step → Nat
  | [] => 0
  | step :: steps =>
      (spends step).toNat + demand steps - (earns step).toNat

/-- What was spent, and what the agents still need, is covered. -/
def Solvent (granted : Nat) (made : List Step)
    (remaining : List (List Step)) : Prop :=
  made.countP spends + (remaining.map (demand spends earns)).sum ≤
    made.countP earns + granted

theorem sum_map_set {α : Type*} {values : List α} {index : Nat} {old : α}
    (new : α) (weight : α → Nat) (found : values[index]? = some old) :
    ((values.set index new).map weight).sum + weight old =
      (values.map weight).sum + weight new := by
  induction values generalizing index with
  | nil => cases found
  | cons value values induction =>
      cases index with
      | zero =>
          cases found
          simp only [List.set_cons_zero, List.map_cons, List.sum_cons]
          omega
      | succ index =>
          have rest := induction found
          simp only [List.set_cons_succ, List.map_cons, List.sum_cons]
          omega

namespace Solvent

variable {spends earns} {granted : Nat} {made : List Step}
  {remaining : List (List Step)}

theorem bound (solvent : Solvent spends earns granted made remaining) :
    made.countP spends ≤ made.countP earns + granted :=
  Nat.le_trans (Nat.le_add_right _ _) solvent

theorem idle (agents : Nat) :
    Solvent spends earns 0 [] (List.replicate agents []) := by
  simp [Solvent, demand]

theorem make (solvent : Solvent spends earns granted made remaining)
    {index : Nat} {step : Step} {steps : List Step}
    (found : remaining[index]? = some (step :: steps)) :
    Solvent spends earns granted (made ++ [step])
      (remaining.set index steps) := by
  have moved := sum_map_set steps (demand spends earns) found
  have single : ∀ counts : Step → Bool,
      [step].countP counts = (counts step).toNat := by
    intro counts
    rw [List.countP_singleton]
    cases counts step <;> rfl
  unfold Solvent at solvent ⊢
  rw [demand] at moved
  rw [List.countP_append, List.countP_append, single, single]
  omega

theorem assign (solvent : Solvent spends earns granted made remaining)
    {index : Nat} {steps : List Step} {grant : Nat}
    (enough : demand spends earns steps ≤ grant) :
    Solvent spends earns (granted + grant) made
      (remaining.set index steps) := by
  unfold Solvent at solvent ⊢
  cases found : remaining[index]? with
  | none =>
      rw [List.set_eq_of_length_le (List.getElem?_eq_none_iff.mp found)]
      omega
  | some old =>
      have moved := sum_map_set steps (demand spends earns) found
      omega

end Solvent

end CinderHTTP
