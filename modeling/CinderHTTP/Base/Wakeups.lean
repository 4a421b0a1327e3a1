import Mathlib.Algebra.Ring.Nat
import Mathlib.Data.List.Defs
import Mathlib.Tactic.TypeStar

/-!
# Wakeups that are not lost

Threads wait for units of something that others supply, asleep on a condition
variable or woken and about to look.  Nobody sleeps in vain as long as there
is a woken thread for every unit.  The rules say which changes of one thread,
and which signals, keep it so.
-/

namespace CinderHTTP

/-! ## Counting threads -/

section Counting

variable {α : Type*}

theorem getElem?_set_cases {values : List α} {index other : Nat}
    {new value : α} (found : (values.set index new)[other]? = some value) :
    (other = index ∧ value = new) ∨
      (other ≠ index ∧ values[other]? = some value) := by
  by_cases same : other = index
  · subst same
    rw [List.getElem?_set_self'] at found
    obtain ⟨_, _, equal⟩ := Option.map_eq_some_iff.mp found
    exact .inl ⟨rfl, equal.symm⟩
  · rw [List.getElem?_set_ne (Ne.symm same)] at found
    exact .inr ⟨same, found⟩

theorem countP_set_of_getElem? {values : List α} {index : Nat}
    {old : α} (new : α) (p : α → Bool)
    (found : values[index]? = some old) :
    (values.set index new).countP p + (if p old then 1 else 0) =
      values.countP p + (if p new then 1 else 0) := by
  induction values generalizing index with
  | nil => cases found
  | cons value values induction =>
      cases index with
      | zero =>
          cases found
          simp only [List.set_cons_zero, List.countP_cons]
          omega
      | succ index =>
          have rest := induction found
          simp only [List.set_cons_succ, List.countP_cons]
          omega

theorem countP_mapIdx_eq {p : α → Bool} {change : Nat → α → α}
    (same : ∀ index value, p (change index value) = p value)
    (values : List α) :
    (values.mapIdx change).countP p = values.countP p := by
  induction values generalizing change with
  | nil => rfl
  | cons value values induction =>
      rw [List.mapIdx_cons, List.countP_cons, List.countP_cons, same,
        induction fun index => same (index + 1)]

theorem countP_le_countP_mapIdx {p : α → Bool} {change : Nat → α → α}
    (kept : ∀ index value, p value = true → p (change index value) = true)
    (values : List α) :
    values.countP p ≤ (values.mapIdx change).countP p := by
  induction values generalizing change with
  | nil => exact Nat.le_refl 0
  | cons value values induction =>
      have rest := induction fun index => kept (index + 1)
      rw [List.mapIdx_cons, List.countP_cons, List.countP_cons]
      cases held : p value with
      | false =>
          simp only [Bool.false_eq_true, if_false]
          omega
      | true =>
          rw [kept 0 value held]
          omega

/-- A change that a predicate sees at one place. -/
theorem countP_lt_countP_mapIdx {p : α → Bool} {change : Nat → α → α}
    (kept : ∀ index value, p value = true → p (change index value) = true)
    {values : List α} {index : Nat} {value : α}
    (found : values[index]? = some value) (before : p value = false)
    (after : p (change index value) = true) :
    values.countP p < (values.mapIdx change).countP p := by
  induction values generalizing change index with
  | nil => cases found
  | cons first values induction =>
      rw [List.mapIdx_cons, List.countP_cons, List.countP_cons]
      cases index with
      | zero =>
          cases found
          have rest := countP_le_countP_mapIdx
            (fun index => kept (index + 1)) values
          rw [before, after]
          simp only [Bool.false_eq_true, if_false, if_true]
          omega
      | succ index =>
          have rest := induction (fun index => kept (index + 1)) found after
          cases held : p first with
          | false =>
              simp only [Bool.false_eq_true, if_false]
              omega
          | true =>
              rw [kept 0 first held]
              omega

end Counting

/-! ## Covered supplies -/

section Covered

variable {α : Type*} {asleep woken : α → Bool} {supply : Nat}
  {threads : List α}

/-- While some thread sleeps, every unit has a woken thread. -/
def Covered (asleep woken : α → Bool) (supply : Nat) (threads : List α) :
    Prop :=
  (∃ thread ∈ threads, asleep thread = true) →
    supply ≤ threads.countP woken

theorem Covered.zero : Covered asleep woken 0 threads :=
  fun _ => Nat.zero_le _

theorem Covered.set (covered : Covered asleep woken supply threads)
    {index : Nat} {old new : α} (found : threads[index]? = some old)
    (unwoken : woken old = false) (awake : asleep new = false) :
    Covered asleep woken supply (threads.set index new) := by
  rintro ⟨thread, member, sleeps⟩
  have counted := countP_set_of_getElem? new woken found
  rcases List.mem_or_eq_of_mem_set member with other | rfl
  · have enough := covered ⟨thread, other, sleeps⟩
    rw [unwoken] at counted
    simp only [Bool.false_eq_true, if_false] at counted
    omega
  · rw [sleeps] at awake
    cases awake

/-- A thread that takes one unit, woken or not. -/
theorem Covered.take (covered : Covered asleep woken (supply + 1) threads)
    {index : Nat} {old new : α} (found : threads[index]? = some old)
    (awake : asleep new = false) :
    Covered asleep woken supply (threads.set index new) := by
  rintro ⟨thread, member, sleeps⟩
  have counted := countP_set_of_getElem? new woken found
  rcases List.mem_or_eq_of_mem_set member with other | rfl
  · have enough := covered ⟨thread, other, sleeps⟩
    split_ifs at counted <;> omega
  · rw [sleeps] at awake
    cases awake

/-- A signal to the threads that wait for something else. -/
theorem Covered.unseen (covered : Covered asleep woken supply threads)
    {change : Nat → α → α}
    (sameAsleep : ∀ index value, asleep (change index value) = asleep value)
    (sameWoken : ∀ index value, woken (change index value) = woken value) :
    Covered asleep woken supply (threads.mapIdx change) := by
  rintro ⟨thread, member, sleeps⟩
  obtain ⟨index, bound, rfl⟩ := List.mem_mapIdx.mp member
  rw [sameAsleep] at sleeps
  rw [countP_mapIdx_eq sameWoken]
  exact covered ⟨_, List.getElem_mem bound, sleeps⟩

/-- One more unit, with a signal that wakes a sleeper if there is one. -/
theorem Covered.signal (covered : Covered asleep woken supply threads)
    {change : Nat → α → α}
    (noneSleeps : ∀ index value, asleep (change index value) = true →
      asleep value = true)
    (keepsWoken : ∀ index value, woken value = true →
      woken (change index value) = true)
    (wakes : (∃ thread ∈ threads, asleep thread = true) →
      ∃ index thread, threads[index]? = some thread ∧
        woken thread = false ∧ woken (change index thread) = true) :
    Covered asleep woken (supply + 1) (threads.mapIdx change) := by
  rintro ⟨thread, member, sleeps⟩
  obtain ⟨index, bound, rfl⟩ := List.mem_mapIdx.mp member
  have before : ∃ thread ∈ threads, asleep thread = true :=
    ⟨_, List.getElem_mem bound, noneSleeps _ _ sleeps⟩
  obtain ⟨place, sleeper, found, unwoken, awake⟩ := wakes before
  have more := countP_lt_countP_mapIdx keepsWoken found unwoken awake
  have enough := covered before
  omega

end Covered

end CinderHTTP
