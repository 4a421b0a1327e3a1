import Mathlib.Data.List.Induction
import Mathlib.Algebra.BigOperators.Group.List.Basic
import Mathlib.Algebra.Ring.Int.Defs
import Mathlib.Logic.Relation

/-!
# Cancellation on a stack

Items are read from left to right.  An item is skipped, goes on top of a
stack, or removes the top of the stack, and reading fails when there is
nothing to remove.  The stack grows at its end, so its first item is the
bottom.
-/

namespace CinderHTTP

/-- What an item does to the stack. -/
inductive Move where
  | skip
  | push
  | pop
  deriving DecidableEq, Repr

section

variable {α : Type*} (move : α → Move)

def cancelStep (stack : List α) (item : α) : Option (List α) :=
  match move item with
  | .skip => some stack
  | .push => some (stack ++ [item])
  | .pop => if stack.isEmpty then none else some stack.dropLast

/-- The stack after all items. -/
def cancel (stack : List α) : List α → Option (List α)
  | [] => some stack
  | item :: items =>
      (cancelStep move stack item).bind fun next => cancel next items

/-- Items put on the stack minus items removed from it. -/
def depth (items : List α) : Int :=
  (items.map fun item =>
    match move item with
    | .skip => (0 : Int)
    | .push => 1
    | .pop => -1).sum

/-- No beginning of the sequence removes more than it has put. -/
def StaysAbove (items : List α) : Prop :=
  ∀ front, front <+: items → 0 ≤ depth move front

/-- The sequence removes exactly what it has put. -/
def Balanced (items : List α) : Prop :=
  StaysAbove move items ∧ depth move items = 0

variable {move}

theorem cancel_append (stack left right : List α) :
    cancel move stack (left ++ right) =
      (cancel move stack left).bind fun next => cancel move next right := by
  induction left generalizing stack with
  | nil => rfl
  | cons item left induction =>
      simp only [List.cons_append, cancel, Option.bind_assoc]
      congr
      funext next
      exact induction next

theorem cancel_singleton (stack : List α) (item : α) :
    cancel move stack [item] = cancelStep move stack item := by
  simp [cancel]

theorem cancelStep_length {stack next : List α} {item : α}
    (success : cancelStep move stack item = some next) :
    (next.length : Int) = stack.length + depth move [item] := by
  unfold cancelStep at success
  simp only [depth, List.map_cons, List.map_nil, List.sum_singleton]
  cases kind : move item with
  | skip =>
      simp only [kind, Option.some.injEq] at success ⊢
      rw [success, Int.add_zero]
  | push =>
      simp only [kind, Option.some.injEq] at success ⊢
      rw [← success, List.length_append, List.length_singleton]
      exact Int.natCast_add _ _
  | pop =>
      simp only [kind, Option.ite_none_left_eq_some, Option.some.injEq,
        List.isEmpty_iff] at success ⊢
      have nonempty := List.length_pos_iff.mpr success.1
      rw [← success.2, List.length_dropLast]
      omega

theorem cancel_length {stack result items : List α}
    (success : cancel move stack items = some result) :
    (result.length : Int) = stack.length + depth move items := by
  induction items generalizing stack with
  | nil =>
      cases success
      simp [depth]
  | cons item items induction =>
      obtain ⟨next, step, rest⟩ := Option.bind_eq_some_iff.mp success
      have whole : depth move (item :: items) =
          depth move [item] + depth move items := by
        simp [depth]
      rw [induction rest, cancelStep_length step, whole]
      exact Int.add_assoc _ _ _

/-- Reading succeeds exactly when no beginning removes too much. -/
theorem cancel_isSome_iff (stack items : List α) :
    (∃ result, cancel move stack items = some result) ↔
      ∀ front, front <+: items → 0 ≤ stack.length + depth move front := by
  constructor
  · rintro ⟨result, success⟩ front ⟨rest, rfl⟩
    rw [cancel_append] at success
    obtain ⟨next, first, -⟩ := Option.bind_eq_some_iff.mp success
    rw [← cancel_length first]
    exact Int.natCast_nonneg _
  · intro above
    induction items generalizing stack with
    | nil => exact ⟨stack, rfl⟩
    | cons item items induction =>
        have present : ∃ next, cancelStep move stack item = some next := by
          unfold cancelStep
          cases kind : move item with
          | skip => exact ⟨stack, rfl⟩
          | push => exact ⟨stack ++ [item], rfl⟩
          | pop =>
              refine ⟨stack.dropLast, if_neg ?_⟩
              intro empty
              have first := above [item] ⟨items, rfl⟩
              rw [List.isEmpty_iff.mp empty] at first
              simp [depth, kind] at first
        obtain ⟨next, step⟩ := present
        obtain ⟨result, rest⟩ := induction next (by
          intro front isFront
          have longer := above (item :: front)
            (List.cons_prefix_cons.mpr ⟨rfl, isFront⟩)
          rw [cancelStep_length step, Int.add_assoc]
          simpa [depth] using longer)
        exact ⟨result, by rw [cancel, step, Option.bind_some, rest]⟩

theorem staysAbove_iff (items : List α) :
    StaysAbove move items ↔ ∃ result, cancel move [] items = some result := by
  rw [cancel_isSome_iff]
  simp [StaysAbove]

theorem balanced_iff (items : List α) :
    Balanced move items ↔ cancel move [] items = some [] := by
  rw [Balanced, staysAbove_iff]
  constructor
  · rintro ⟨⟨result, success⟩, level⟩
    have height := cancel_length success
    rw [level] at height
    have empty : result = [] := by simpa using height
    rw [success, empty]
  · intro success
    refine ⟨⟨[], success⟩, ?_⟩
    simpa using (cancel_length success).symm

/-- What lies below the stack does not matter while nothing is removed from
it. -/
theorem cancel_above (base : List α) {stack result items : List α}
    (success : cancel move stack items = some result) :
    cancel move (base ++ stack) items = some (base ++ result) := by
  induction items generalizing stack with
  | nil =>
      cases success
      rfl
  | cons item items induction =>
      obtain ⟨next, step, rest⟩ := Option.bind_eq_some_iff.mp success
      have lifted : cancelStep move (base ++ stack) item =
          some (base ++ next) := by
        unfold cancelStep at step ⊢
        cases kind : move item with
        | skip => simpa [kind] using step
        | push =>
            simp only [kind, Option.some.injEq] at step ⊢
            rw [← step, List.append_assoc]
        | pop =>
            simp only [kind, Option.ite_none_left_eq_some,
              Option.some.injEq, List.isEmpty_iff] at step ⊢
            refine ⟨?_, ?_⟩
            · intro empty
              exact step.1 (List.append_eq_nil_iff.mp empty).2
            · rw [List.dropLast_append_of_ne_nil step.1, step.2]
      rw [cancel, lifted, Option.bind_some]
      exact induction rest

/-- The bottom of the stack was put there when the items before it had
cancelled out, and the items behind it never reach it again. -/
theorem cancel_bottom_iff (items : List α) (bottom : α) (above : List α) :
    cancel move [] items = some (bottom :: above) ↔
      ∃ lead rest, items = lead ++ bottom :: rest ∧
        move bottom = .push ∧ cancel move [] lead = some [] ∧
        cancel move [] rest = some above := by
  constructor
  · intro success
    induction items using List.reverseRecOn generalizing above with
    | nil => simp [cancel] at success
    | append_singleton items item induction =>
        rw [cancel_append] at success
        obtain ⟨next, first, last⟩ := Option.bind_eq_some_iff.mp success
        rw [cancel_singleton] at last
        -- the bottom was there before the last item, unless it is that item
        have extend : ∀ top, next = bottom :: top →
            cancelStep move top item = some above →
            ∃ lead rest, items ++ [item] = lead ++ bottom :: rest ∧
              move bottom = .push ∧ cancel move [] lead = some [] ∧
              cancel move [] rest = some above := by
          intro top same step
          obtain ⟨lead, rest, split, pushed, levelled, behind⟩ :=
            induction top (by rw [first, same])
          refine ⟨lead, rest ++ [item], ?_, pushed, levelled, ?_⟩
          · rw [split, List.append_assoc, List.cons_append]
          · rw [cancel_append, behind, Option.bind_some, cancel_singleton,
              step]
        unfold cancelStep at last extend
        cases kind : move item with
        | skip =>
            simp only [kind, Option.some.injEq] at last extend
            exact extend above last rfl
        | push =>
            simp only [kind, Option.some.injEq] at last extend
            cases next with
            | nil =>
                simp only [List.nil_append, List.cons.injEq] at last
                obtain ⟨rfl, rfl⟩ := last
                exact ⟨items, [], rfl, kind, first, rfl⟩
            | cons lowest top =>
                simp only [List.cons_append, List.cons.injEq] at last
                obtain ⟨rfl, last⟩ := last
                exact extend top rfl last
        | pop =>
            simp only [kind, Option.ite_none_left_eq_some, List.isEmpty_iff,
              Option.some.injEq] at last extend
            obtain ⟨nonempty, last⟩ := last
            rcases next with _ | ⟨lowest, _ | ⟨second, top⟩⟩
            · exact absurd rfl nonempty
            · simp at last
            · simp only [List.dropLast_cons_cons, List.cons.injEq] at last
              obtain ⟨rfl, last⟩ := last
              exact extend (second :: top) rfl ⟨by simp, last⟩
  · rintro ⟨lead, rest, rfl, pushed, levelled, behind⟩
    rw [cancel_append, levelled, Option.bind_some, cancel, cancelStep,
      pushed]
    exact cancel_above [bottom] behind

theorem mem_of_cancel {stack result items : List α}
    (success : cancel move stack items = some result) {item : α}
    (member : item ∈ result) :
    item ∈ stack ∨ (item ∈ items ∧ move item = .push) := by
  induction items generalizing stack with
  | nil =>
      cases success
      exact .inl member
  | cons first items induction =>
      obtain ⟨next, step, rest⟩ := Option.bind_eq_some_iff.mp success
      rcases induction rest with inNext | ⟨inItems, pushed⟩
      · unfold cancelStep at step
        cases kind : move first with
        | skip =>
            simp only [kind, Option.some.injEq] at step
            rw [step]
            exact .inl inNext
        | push =>
            simp only [kind, Option.some.injEq] at step
            rw [← step, List.mem_append, List.mem_singleton] at inNext
            rcases inNext with inStack | rfl
            · exact .inl inStack
            · exact .inr ⟨List.mem_cons_self, kind⟩
        | pop =>
            simp only [kind, Option.ite_none_left_eq_some,
              Option.some.injEq] at step
            rw [← step.2] at inNext
            exact .inl (List.dropLast_subset _ inNext)
      · exact .inr ⟨List.mem_cons_of_mem _ inItems, pushed⟩

/-! ## Cancelling pairs -/

variable (move) in
/-- The items that do something. -/
def active (items : List α) : List α :=
  items.filter fun item => move item ≠ .skip

variable (move) in
/-- Taking out an item that was put on the stack together with the one right
behind it that removes it. -/
inductive CancelsPair : List α → List α → Prop
  | pair {front back : List α} {top drop : α} :
      move top = .push → move drop = .pop →
      CancelsPair (front ++ top :: drop :: back) (front ++ back)

theorem cancel_active (stack items : List α) :
    cancel move stack (active move items) = cancel move stack items := by
  induction items generalizing stack with
  | nil => rfl
  | cons item items induction =>
      by_cases idle : move item = .skip
      · have skipped : cancelStep move stack item = some stack := by
          rw [cancelStep, idle]
        rw [active, List.filter_cons_of_neg (by simpa using idle), cancel,
          skipped, Option.bind_some]
        exact induction stack
      · rw [active, List.filter_cons_of_pos (by simpa using idle), cancel,
          cancel]
        congr
        funext next
        exact induction next

theorem CancelsPair.cancel_eq {items reduced : List α}
    (step : CancelsPair move items reduced) (stack : List α) :
    cancel move stack items = cancel move stack reduced := by
  cases step with
  | pair pushed popped =>
      rw [cancel_append, cancel_append]
      congr
      funext next
      simp [cancel, cancelStep, pushed, popped]

theorem cancel_pushed {stack items : List α}
    (pushed : ∀ item ∈ items, move item = .push) :
    cancel move stack items = some (stack ++ items) := by
  induction items generalizing stack with
  | nil => simp [cancel]
  | cons item items induction =>
      have first : cancelStep move stack item = some (stack ++ [item]) := by
        rw [cancelStep, pushed item List.mem_cons_self]
      rw [cancel, first, Option.bind_some, induction]
      · simp
      · intro other member
        exact pushed other (List.mem_cons_of_mem _ member)

/-- The machine cancels pair by pair. -/
theorem cancelsPair_of_cancel {stack result items : List α}
    (stacked : ∀ item ∈ stack, move item = .push)
    (success : cancel move stack items = some result) :
    Relation.ReflTransGen (CancelsPair move) (stack ++ active move items)
      result := by
  induction items generalizing stack with
  | nil =>
      cases success
      rw [active, List.filter_nil, List.append_nil]
  | cons item items induction =>
      obtain ⟨next, step, rest⟩ := Option.bind_eq_some_iff.mp success
      unfold cancelStep at step
      cases kind : move item with
      | skip =>
          simp only [kind, Option.some.injEq] at step
          subst step
          rw [active, List.filter_cons_of_neg (by simpa using kind)]
          exact induction stacked rest
      | push =>
          simp only [kind, Option.some.injEq] at step
          subst step
          rw [active, List.filter_cons_of_pos (by simp [kind]),
            List.append_cons]
          apply induction _ rest
          intro other member
          rcases List.mem_append.mp member with inStack | last
          · exact stacked other inStack
          · rw [List.mem_singleton.mp last]
            exact kind
      | pop =>
          simp only [kind, Option.ite_none_left_eq_some,
            Option.some.injEq, List.isEmpty_iff] at step
          obtain ⟨nonempty, rfl⟩ := step
          rw [active, List.filter_cons_of_pos (by simp [kind])]
          have top := stacked _ (List.getLast_mem nonempty)
          have whole := List.dropLast_append_getLast nonempty
          apply Relation.ReflTransGen.head
          · rw [← whole, List.append_assoc]
            exact .pair top kind
          · apply induction _ rest
            intro other member
            exact stacked other (List.dropLast_subset _ member)

/-- Reading succeeds with the one list without removals that cancelling pairs
leads to. -/
theorem cancel_eq_some_iff (items result : List α) :
    cancel move [] items = some result ↔
      Relation.ReflTransGen (CancelsPair move) (active move items) result ∧
        ∀ item ∈ result, move item = .push := by
  constructor
  · intro success
    refine ⟨?_, ?_⟩
    · have reduces := cancelsPair_of_cancel (by simp) success
      rwa [List.nil_append] at reduces
    · intro item member
      rcases mem_of_cancel success member with inEmpty | ⟨-, pushed⟩
      · cases inEmpty
      · exact pushed
  · rintro ⟨reduces, pushed⟩
    rw [← cancel_active]
    generalize active move items = start at reduces
    induction reduces using Relation.ReflTransGen.head_induction_on with
    | refl => exact cancel_pushed pushed
    | head step _ induction => rw [step.cancel_eq, induction]

theorem depth_eq_count (items : List α) :
    depth move items =
      (items.countP fun item => move item = .push) -
        (items.countP fun item => move item = .pop) := by
  induction items with
  | nil => rfl
  | cons item items induction =>
      have whole : depth move (item :: items) =
          depth move [item] + depth move items := by
        simp [depth]
      rw [whole, induction, List.countP_cons, List.countP_cons]
      cases kind : move item with
      | skip => simp [depth, kind]
      | push =>
          simp [depth, kind]
          omega
      | pop =>
          simp [depth, kind]
          omega

/-- Reading fails exactly when some beginning of the items removes more than
it puts. -/
theorem cancel_eq_none_iff (items : List α) :
    cancel move [] items = none ↔
      ∃ front, front <+: active move items ∧
        (front.countP fun item => move item = .push) <
          front.countP fun item => move item = .pop := by
  have possible := @cancel_isSome_iff α move [] (active move items)
  rw [cancel_active] at possible
  constructor
  · intro failed
    by_contra none
    have above : ∀ front, front <+: active move items →
        0 ≤ (([] : List α).length : Int) + depth move front := by
      intro front isFront
      by_contra below
      refine none ⟨front, isFront, ?_⟩
      rw [depth_eq_count] at below
      simp only [List.length_nil, Int.natCast_zero, Int.zero_add] at below
      omega
    obtain ⟨result, success⟩ := possible.mpr above
    rw [failed] at success
    cases success
  · rintro ⟨front, isFront, fewer⟩
    cases success : cancel move [] items with
    | none => rfl
    | some result =>
        have above := possible.mp ⟨result, success⟩ front isFront
        rw [depth_eq_count] at above
        simp only [List.length_nil, Int.natCast_zero, Int.zero_add] at above
        omega

end

end CinderHTTP
