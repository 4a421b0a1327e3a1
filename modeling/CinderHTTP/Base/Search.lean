import Mathlib.Data.List.Basic
import Mathlib.Data.List.Infix
import Mathlib.Data.List.TakeWhile

/-!
# Cutting a list at a separator or at a pattern

`cutFirst` cuts a list at the first occurrence of one element and
`findInfix` locates the first occurrence of a contiguous pattern.  The facts
about `findInfix` say how a search result moves between a list and its
extensions: an occurrence found early is found in every extension, and a
search that fails in a long prefix can only succeed late.  Texts cut at a
separator are compared part by part.
-/

namespace CinderHTTP

variable {α : Type}

section Search

variable [DecidableEq α]

/-- The parts of a list before and after the first occurrence of a
separator. -/
def cutFirst (separator : α) : List α → Option (List α × List α)
  | [] => none
  | head :: tail =>
      if head = separator then some ([], tail)
      else (cutFirst separator tail).map fun cut => (head :: cut.1, cut.2)

theorem cutFirst_append_cons {separator : α} {before : List α}
    (absent : separator ∉ before) (after : List α) :
    cutFirst separator (before ++ separator :: after) =
      some (before, after) := by
  induction before with
  | nil => simp [cutFirst]
  | cons head tail induction =>
      have different : head ≠ separator := by
        intro same
        exact absent (by simp [same])
      have tailAbsent : separator ∉ tail := by
        intro member
        exact absent (List.mem_cons_of_mem _ member)
      simp [cutFirst, different, induction tailAbsent]

theorem cutFirst_eq_some_iff {separator : α} {items before after : List α} :
    cutFirst separator items = some (before, after) ↔
      items = before ++ separator :: after ∧ separator ∉ before := by
  constructor
  · intro success
    induction items generalizing before with
    | nil => simp [cutFirst] at success
    | cons head tail induction =>
        by_cases same : head = separator
        · simp only [cutFirst, same, if_true, Option.some.injEq,
            Prod.mk.injEq] at success
          obtain ⟨rfl, rfl⟩ := success
          exact ⟨by simp [same], by simp⟩
        · simp only [cutFirst, same, if_false, Option.map_eq_some_iff,
            Prod.mk.injEq] at success
          obtain ⟨⟨tailBefore, tailAfter⟩, tailSuccess, rfl, rfl⟩ := success
          obtain ⟨tailEquality, tailAbsent⟩ := induction tailSuccess
          have other : separator ≠ head := Ne.symm same
          exact ⟨by rw [tailEquality]; rfl, by simp [other, tailAbsent]⟩
  · rintro ⟨rfl, absent⟩
    exact cutFirst_append_cons absent after

/-- The index of the first occurrence of a pattern. -/
def findInfix (pattern : List α) : List α → Option Nat
  | [] => if pattern = [] then some 0 else none
  | head :: tail =>
      if pattern <+: head :: tail then some 0
      else (findInfix pattern tail).map (· + 1)

theorem findInfix_at_start {pattern items : List α}
    (occurs : pattern <+: items) : findInfix pattern items = some 0 := by
  cases items with
  | nil => simp [findInfix, List.prefix_nil.mp occurs]
  | cons head tail => simp [findInfix, occurs]

theorem findInfix_cons_skip {pattern tail : List α} {head : α}
    (absent : ¬pattern <+: head :: tail) :
    findInfix pattern (head :: tail) =
      (findInfix pattern tail).map (· + 1) := by
  simp [findInfix, absent]

theorem findInfix_occurs {pattern items : List α} {index : Nat}
    (found : findInfix pattern items = some index) :
    pattern <+: items.drop index := by
  induction items generalizing index with
  | nil =>
      simp only [findInfix] at found
      split at found
      · rename_i empty
        simp [empty]
      · simp at found
  | cons head tail induction =>
      by_cases occurs : pattern <+: head :: tail
      · simp only [findInfix, occurs, if_true, Option.some.injEq] at found
        subst index
        simpa using occurs
      · rw [findInfix_cons_skip occurs] at found
        obtain ⟨tailIndex, tailFound, rfl⟩ := Option.map_eq_some_iff.mp found
        simpa using induction tailFound

theorem findInfix_bound {pattern items : List α} {index : Nat}
    (found : findInfix pattern items = some index) :
    index + pattern.length ≤ items.length := by
  have occurs := (findInfix_occurs found).length_le
  by_cases inside : index ≤ items.length
  · simp only [List.length_drop] at occurs
    omega
  · induction items generalizing index with
    | nil =>
        simp only [findInfix] at found
        split at found
        · simp only [Option.some.injEq] at found
          omega
        · simp at found
    | cons head tail induction =>
        by_cases prefixOccurs : pattern <+: head :: tail
        · simp only [findInfix, prefixOccurs, if_true,
            Option.some.injEq] at found
          omega
        · rw [findInfix_cons_skip prefixOccurs] at found
          obtain ⟨tailIndex, tailFound, rfl⟩ :=
            Option.map_eq_some_iff.mp found
          have tailBound := induction tailFound
            (by simpa using occurs) (by simpa using inside)
          simp only [List.length_cons]
          omega

/-- An occurrence inside a list is the first occurrence in each of its
extensions. -/
theorem findInfix_append {pattern items : List α} {index : Nat}
    (found : findInfix pattern items = some index) (more : List α) :
    findInfix pattern (items ++ more) = some index := by
  induction items generalizing index with
  | nil =>
      simp only [findInfix] at found
      split at found
      · rename_i empty
        simp only [Option.some.injEq] at found
        subst index
        exact findInfix_at_start (by simp [empty])
      · simp at found
  | cons head tail induction =>
      by_cases occurs : pattern <+: head :: tail
      · simp only [findInfix, occurs, if_true, Option.some.injEq] at found
        subst index
        exact findInfix_at_start
          (occurs.trans (List.prefix_append _ more))
      · have shifted := found
        rw [findInfix_cons_skip occurs] at shifted
        obtain ⟨tailIndex, tailFound, rfl⟩ :=
          Option.map_eq_some_iff.mp shifted
        have tailBound := findInfix_bound tailFound
        have stillAbsent : ¬pattern <+: head :: (tail ++ more) := by
          intro late
          apply occurs
          refine List.prefix_of_prefix_length_le late
            (List.prefix_append (head :: tail) more) ?_
          simp only [List.length_cons]
          omega
        rw [List.cons_append, findInfix_cons_skip stillAbsent,
          induction tailFound]
        rfl

/-- A search that fails in a list can only succeed in an extension beyond
the end of that list. -/
theorem findInfix_append_late {pattern items more : List α} {index : Nat}
    (absent : findInfix pattern items = none)
    (found : findInfix pattern (items ++ more) = some index) :
    items.length < index + pattern.length := by
  induction items generalizing index with
  | nil =>
      simp only [findInfix] at absent
      split at absent
      · simp at absent
      · rename_i nonempty
        have positive := List.length_pos_of_ne_nil nonempty
        simp only [List.length_nil]
        omega
  | cons head tail induction =>
      by_cases occurs : pattern <+: head :: tail
      · simp [findInfix, occurs] at absent
      · rw [findInfix_cons_skip occurs] at absent
        by_cases late : pattern <+: head :: (tail ++ more)
        · by_cases short : pattern.length ≤ (head :: tail).length
          · exact absurd (List.prefix_of_prefix_length_le late
              (List.prefix_append (head :: tail) more) short) occurs
          · omega
        · rw [List.cons_append, findInfix_cons_skip late] at found
          obtain ⟨tailIndex, tailFound, rfl⟩ :=
            Option.map_eq_some_iff.mp found
          have tailLate := induction (by simpa using absent) tailFound
          simp only [List.length_cons]
          omega

/-- The search finds every occurrence, or an earlier one. -/
theorem findInfix_of_occurs {pattern items : List α} {index : Nat}
    (occurs : pattern <+: items.drop index)
    (inside : index ≤ items.length) :
    ∃ earlier, earlier ≤ index ∧
      findInfix pattern items = some earlier := by
  induction items generalizing index with
  | nil =>
      rw [List.drop_nil, List.prefix_nil] at occurs
      exact ⟨0, Nat.zero_le _, by simp [findInfix, occurs]⟩
  | cons head tail induction =>
      by_cases first : pattern <+: head :: tail
      · exact ⟨0, Nat.zero_le _, findInfix_at_start first⟩
      cases index with
      | zero => exact absurd occurs first
      | succ behind =>
          obtain ⟨earlier, before, found⟩ :=
            induction occurs (Nat.le_of_succ_le_succ inside)
          refine ⟨earlier + 1, Nat.succ_le_succ before, ?_⟩
          rw [findInfix_cons_skip first, found, Option.map_some]

theorem findInfix_take {pattern items : List α} {index length : Nat}
    (found : findInfix pattern items = some index)
    (covered : index + pattern.length ≤ length) :
    findInfix pattern (items.take length) = some index := by
  have split : items.take length ++ items.drop length = items :=
    List.take_append_drop length items
  rw [← split] at found
  cases searched : findInfix pattern (items.take length) with
  | none =>
      have late := findInfix_append_late searched found
      have bound := findInfix_bound found
      rw [split] at bound
      simp only [List.length_take] at late
      omega
  | some earlier =>
      rw [findInfix_append searched] at found
      exact found

theorem findInfix_behind {first : α} {others before : List α}
    (absent : first ∉ before) (after : List α) :
    findInfix (first :: others) (before ++ first :: others ++ after) =
      some before.length := by
  induction before with
  | nil => exact findInfix_at_start (List.prefix_append _ _)
  | cons head tail induction =>
      rw [List.mem_cons, not_or] at absent
      have notHere : ¬first :: others <+:
          head :: (tail ++ first :: others ++ after) := by
        rw [List.cons_prefix_cons]
        rintro ⟨same, -⟩
        exact absent.1 same
      rw [List.cons_append, List.cons_append, findInfix_cons_skip notHere,
        induction absent.2, Option.map_some, List.length_cons]

/-- The pieces between the occurrences of a pattern, found from left to
right. -/
def splitInfix (pattern : List α) (items : List α) : List (List α) :=
  match _found : findInfix pattern items with
  | none => [items]
  | some index =>
      if pattern = [] then [items]
      else
        items.take index ::
          splitInfix pattern (items.drop (index + pattern.length))
termination_by items.length
decreasing_by
  have bound := findInfix_bound _found
  have positive : 0 < pattern.length :=
    List.length_pos_iff.mpr (by assumption)
  rw [List.length_drop]
  omega

theorem splitInfix_of_none {pattern items : List α}
    (absent : findInfix pattern items = none) :
    splitInfix pattern items = [items] := by
  rw [splitInfix]
  split
  · rfl
  · rename_i found
    rw [absent] at found
    cases found

theorem splitInfix_behind {first : α} {others before : List α}
    (absent : first ∉ before) (after : List α) :
    splitInfix (first :: others) (before ++ first :: others ++ after) =
      before :: splitInfix (first :: others) after := by
  have located := @findInfix_behind α _ first others before absent after
  rw [splitInfix]
  split
  · rename_i missing
    rw [located] at missing
    cases missing
  · rename_i index found
    rw [located, Option.some.injEq] at found
    subst found
    rw [if_neg (List.cons_ne_nil _ _), List.append_assoc, List.take_left,
      ← List.drop_drop, List.drop_left, List.drop_left]

end Search

theorem takeWhile_append_stop {keep : α → Bool} {stop : α}
    (stops : keep stop = false) (items rest : List α) :
    (items ++ stop :: rest).takeWhile keep = items.takeWhile keep := by
  induction items with
  | nil => simp [stops]
  | cons item items induction =>
      cases kept : keep item with
      | false => simp [kept]
      | true => simpa [kept] using induction

/-! ## Boundaries -/

/-- A rest that is empty or starts with the separator. -/
def AtBoundary (separator : α) (rest : List α) : Prop :=
  rest = [] ∨ rest.head? = some separator

theorem AtBoundary.nil (separator : α) : AtBoundary separator [] :=
  .inl rfl

theorem AtBoundary.cons (separator : α) (rest : List α) :
    AtBoundary separator (separator :: rest) :=
  .inr rfl

theorem AtBoundary.eq_of_cons {separator head : α} {rest : List α}
    (boundary : AtBoundary separator (head :: rest)) : head = separator := by
  rcases boundary with empty | first
  · cases empty
  · simpa using first

section

variable [DecidableEq α]

theorem dropWhile_boundary (separator : α) (items : List α) :
    AtBoundary separator (items.dropWhile (· ≠ separator)) := by
  have stopped := List.head?_dropWhile_not (· ≠ separator) items
  cases behind : items.dropWhile (· ≠ separator) with
  | nil => exact .nil separator
  | cons stop rest =>
      rw [behind] at stopped
      have same : stop = separator := by simpa using stopped
      rw [same]
      exact .cons separator rest

theorem takeWhile_boundary {separator : α} {text rest : List α}
    (clean : separator ∉ text) (boundary : AtBoundary separator rest) :
    (text ++ rest).takeWhile (· ≠ separator) = text ∧
      (text ++ rest).dropWhile (· ≠ separator) = rest := by
  have other : ∀ item ∈ text, decide (item ≠ separator) = true := by
    intro item member
    rw [decide_eq_true_iff]
    rintro rfl
    exact clean member
  rw [List.takeWhile_append_of_pos other, List.dropWhile_append_of_pos other]
  cases rest with
  | nil => simp
  | cons head rest => simp [boundary.eq_of_cons]

theorem takeWhile_eq_iff_boundary {separator : α} {items text : List α}
    (clean : separator ∉ text) :
    items.takeWhile (· ≠ separator) = text ↔
      ∃ rest, items = text ++ rest ∧ AtBoundary separator rest := by
  constructor
  · rintro rfl
    exact ⟨items.dropWhile (· ≠ separator),
      List.takeWhile_append_dropWhile.symm,
      dropWhile_boundary separator items⟩
  · rintro ⟨rest, rfl, boundary⟩
    exact (takeWhile_boundary clean boundary).1

theorem splitOn_cut (separator : α) (items : List α) :
    items.splitOn separator = items.takeWhile (· ≠ separator) ::
      match items.dropWhile (· ≠ separator) with
      | [] => []
      | _ :: rest => rest.splitOn separator := by
  have parts : items.takeWhile (· ≠ separator) ++
      items.dropWhile (· ≠ separator) = items :=
    List.takeWhile_append_dropWhile
  have clean : separator ∉ items.takeWhile (· ≠ separator) := by
    intro member
    simpa using List.mem_takeWhile_imp member
  have boundary := dropWhile_boundary separator items
  rcases behind : items.dropWhile (· ≠ separator) with _ | ⟨stop, rest⟩
  · rw [behind, List.append_nil] at parts
    rw [parts] at clean ⊢
    exact List.splitOn_eq_singleton clean
  · rw [behind] at parts boundary
    have same := boundary.eq_of_cons
    subst same
    nth_rewrite 1 [← parts]
    exact List.splitOn_append_cons_self_of_not_mem clean rest

end

/-- Two texts cut at their first separator agree before and behind it. -/
theorem append_inj_of_boundary {separator : α}
    {left right leftRest rightRest : List α}
    (leftClean : separator ∉ left) (rightClean : separator ∉ right)
    (leftBoundary : AtBoundary separator leftRest)
    (rightBoundary : AtBoundary separator rightRest)
    (same : left ++ leftRest = right ++ rightRest) :
    left = right ∧ leftRest = rightRest := by
  induction left generalizing right with
  | nil =>
      cases right with
      | nil => exact ⟨rfl, same⟩
      | cons head right =>
          rw [List.nil_append] at same
          rw [same] at leftBoundary
          exact absurd leftBoundary.eq_of_cons.symm
            (List.ne_of_not_mem_cons rightClean)
  | cons head left induction =>
      cases right with
      | nil =>
          rw [List.nil_append] at same
          rw [← same] at rightBoundary
          exact absurd rightBoundary.eq_of_cons.symm
            (List.ne_of_not_mem_cons leftClean)
      | cons other right =>
          obtain ⟨sameHead, sameTail⟩ := List.cons.inj same
          obtain ⟨sameLeft, sameRest⟩ := induction
            (List.not_mem_of_not_mem_cons leftClean)
            (List.not_mem_of_not_mem_cons rightClean) sameTail
          exact ⟨by rw [sameHead, sameLeft], sameRest⟩

end CinderHTTP
