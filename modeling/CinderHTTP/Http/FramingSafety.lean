import CinderHTTP.Base.CStrings
import CinderHTTP.Http.Positions

/-!
# The framing walk in memory

`http_inspect_message_framing` reads inside of the header section only and
frees the copies it makes of each field, whatever the section holds.
-/

namespace CinderHTTP

namespace Pointers

/-- The result and the remaining answers are those on lists, and nothing is
left in memory. -/
structure Agrees {β : Type} (listed : β × Allocs)
    (owned : Multiset (Block Cell)) (result : β) (after : Heap Cell) :
    Prop where
  result : result = listed.1
  allocs : after.allocs = listed.2
  holds : after.Holds owned

section

variable {data : Bytes} {heap : Heap Cell} {owned : Multiset (Block Cell)}

/-! ## Field lines -/

theorem readRange_fieldName {line length : Nat} {name value : Bytes}
    (read : readRange data line length = some (name ++ colon :: value)) :
    readRange data line name.length = some name := by
  have front := @readRange_part _ data line length [] name (colon :: value)
    read
  exact front

theorem valueRange_field {line length : Nat} {name value : Bytes}
    (read : readRange data line length = some (name ++ colon :: value)) :
    ∃ valueStart, valueRange data (line + name.length + 1) (line + length) =
        some (valueStart, (trimOws value).length) ∧
      readRange data valueStart (trimOws value).length =
        some (trimOws value) := by
  have behind := @readRange_part _ data line length (name ++ [colon]) value
    [] (by rw [read]; simp)
  have found := valueRange_eq behind
  have stop : line + (name ++ [colon]).length + value.length =
      line + length := by
    rw [← readRange_length read]
    simp only [List.length_append, List.length_cons, List.length_nil]
    omega
  rwa [stop, List.length_append, List.length_singleton, ← Nat.add_assoc]
    at found

theorem subtractAll_offset (start length : Nat) :
    subtractAll (start + length) [start] = some length := by
  rw [subtractAll_eq_some_iff, List.sum_singleton, Nat.add_comm]

theorem position_eq_iff {start : Nat} {before : Bytes} :
    start + before.length = start ↔ before = [] := by
  rw [← List.length_eq_zero_iff]
  omega

theorem inspectHeaderLine_gives {line : Nat} {text : Bytes}
    (read : readRange data line text.length = some text)
    (holds : heap.Holds owned) (scan : FramingScan) :
    Gives (Pointers.inspectHeaderLine data line text.length scan) heap
      (Agrees (CinderHTTP.inspectHeaderLine text scan heap.allocs)
        owned) := by
  unfold CinderHTTP.inspectHeaderLine
  apply (checked_gives (memchr_eq read colon)).andThen
  rintro _ _ ⟨rfl, rfl⟩
  cases cut : cutFirst colon text with
  | none => exact .pure ⟨rfl, rfl, holds⟩
  | some parts =>
      obtain ⟨rawName, rawValue⟩ := parts
      obtain ⟨rfl, -⟩ := cutFirst_eq_some_iff.mp cut
      simp only [Option.map_some, position_eq_iff]
      by_cases empty : rawName = []
      · rw [if_pos empty, if_pos empty]
        exact .pure ⟨rfl, rfl, holds⟩
      rw [if_neg empty, if_neg empty]
      apply (checked_gives (subtractAll_offset line rawName.length)).andThen
      rintro _ _ ⟨rfl, rfl⟩
      apply (newText_gives holds (readRange_fieldName read) rfl).andThen
      intro name named nameCopy
      cases nameCopy with
      | refused refused kept =>
          rw [refused]
          exact .pure ⟨rfl, rfl, kept⟩
      | granted granted kept =>
          rw [granted]
          obtain ⟨valueStart, range, value⟩ := valueRange_field read
          apply (checked_gives range).andThen
          rintro _ _ ⟨rfl, rfl⟩
          apply (newText_gives kept value rfl).andThen
          intro value valued valueCopy
          cases valueCopy with
          | refused refused both =>
              apply (release_gives both).andThen
              rintro _ after ⟨freed, same⟩
              rw [refused]
              exact .pure ⟨rfl, same, freed⟩
          | granted granted both =>
              have named := both.rearrange (add_left_comm _ _ _)
              apply (readString_gives named (cString_textCells _)).andThen
              rintro _ _ ⟨rfl, rfl⟩
              apply (readString_gives both (cString_textCells _)).andThen
              rintro _ _ ⟨rfl, rfl⟩
              apply (release_gives named).andThen
              rintro _ half ⟨left, same⟩
              apply (release_gives left).andThen
              rintro _ after ⟨freed, later⟩
              rw [granted]
              exact .pure ⟨rfl, later.trans same, freed⟩

/-! ## Framing -/

/-- The framing walk in memory and the one on lists have the same lines ahead
of them. -/
inductive Inspecting (data : Bytes) (stop : Nat)
    (owned : Multiset (Block Cell))
    (expected : Except ParseError FramingScan × Allocs) :
    Nat × FramingScan → Heap Cell → Prop
  | mk {cursor : Nat} {scan : FramingScan} {rest : Bytes} {heap : Heap Cell}
      (read : readRange data cursor rest.length = some rest)
      (reach : cursor + rest.length = stop)
      (ahead : inspectHeaderLines rest scan heap.allocs = expected)
      (holds : heap.Holds owned) :
      Inspecting data stop owned expected (cursor, scan) heap

theorem blank_eq {cursor : Nat} {rest : Bytes}
    (read : readRange data cursor rest.length = some rest) :
    (if cursor + 1 < cursor + rest.length then matchesAt data cursor crlf
      else some false) = some (decide (crlf <+: rest)) := by
  by_cases long : cursor + 1 < cursor + rest.length
  · rw [if_pos long, matchesAt_range read (by simp [crlf]; omega)]
  · have short : ¬crlf <+: rest := by
      intro fits
      have bound := fits.length_le
      simp [crlf] at bound
      omega
    rw [if_neg long, decide_eq_false short]

theorem inspectTurn_done {stop : Nat} {state : Nat × FramingScan}
    {result : Except ParseError FramingScan}
    {expected : Except ParseError FramingScan × Allocs}
    (left : (result, heap.allocs) = expected) (holds : heap.Holds owned) :
    Gives (pure (.done result)) heap fun step after =>
      GoodTurn (Inspecting data stop owned expected · after)
        (fun later => stop - later.1) (Agrees expected owned · after) state
          step := by
  apply Gives.pure
  apply GoodTurn.done
  rw [← left]
  exact ⟨rfl, rfl, holds⟩

/-- A turn ends the walk as the one on lists ends, or goes to the next
line. -/
theorem inspectTurn_good {stop : Nat}
    {expected : Except ParseError FramingScan × Allocs}
    {state : Nat × FramingScan}
    (walking : Inspecting data stop owned expected state heap) :
    Gives (inspectTurn data stop state) heap fun step after =>
      GoodTurn (Inspecting data stop owned expected · after)
        (fun later => stop - later.1) (Agrees expected owned · after) state
          step := by
  cases walking with
  | @mk cursor scan rest _ read reach ahead holds =>
      obtain rfl := reach
      rw [inspectHeaderLines] at ahead
      by_cases finished : rest = []
      · rw [if_pos finished] at ahead
        have stopped : ¬cursor < cursor + rest.length := by
          simp [finished]
        rw [inspectTurn, if_neg stopped]
        exact inspectTurn_done ahead holds
      have within : cursor < cursor + rest.length := by
        have nonempty := List.length_pos_iff.mpr finished
        omega
      rw [if_neg finished] at ahead
      rw [inspectTurn, if_pos within]
      apply (checked_gives (blank_eq read)).andThen
      rintro _ _ ⟨rfl, rfl⟩
      by_cases blank : crlf <+: rest
      · rw [if_pos blank] at ahead
        rw [if_pos (decide_eq_true blank)]
        exact inspectTurn_done ahead holds
      rw [if_neg blank] at ahead
      rw [if_neg (by simp [blank])]
      apply (checked_gives (lineEnd_eq read)).andThen
      rintro _ _ ⟨rfl, rfl⟩
      cases taken : takeLine rest with
      | none =>
          rw [taken] at ahead
          exact inspectTurn_done ahead holds
      | some cut =>
          obtain ⟨line, later⟩ := cut
          have found := lineAt_of_takeLine read taken
          rw [taken] at ahead
          apply (checked_gives found.lineLen).andThen
          rintro _ _ ⟨rfl, rfl⟩
          apply (inspectHeaderLine_gives found.front holds scan).andThen
          intro result after agrees
          simp only at ahead
          generalize CinderHTTP.inspectHeaderLine line scan heap.allocs =
            listed at agrees ahead
          obtain ⟨listed, allocs⟩ := listed
          obtain ⟨rfl, rfl, kept⟩ := agrees
          cases result with
          | error failure => exact inspectTurn_done ahead kept
          | ok next =>
              apply Gives.pure
              apply GoodTurn.next
              · exact .mk found.behind found.reach ahead kept
              · have reach := found.reach
                simp only
                omega

theorem httpInspectMessageFraming_gives {headerLength : Nat}
    {header : Bytes} (read : readRange data 0 headerLength = some header)
    (holds : heap.Holds owned) :
    Gives (Pointers.httpInspectMessageFraming data headerLength) heap
      (Agrees (CinderHTTP.httpInspectMessageFraming header heap.allocs)
        owned) := by
  have sized := readRange_length read
  unfold Pointers.httpInspectMessageFraming
    CinderHTTP.httpInspectMessageFraming
  rw [sized]
  by_cases short : headerLength < 4
  · rw [if_pos short, if_pos short]
    exact .pure ⟨rfl, rfl, holds⟩
  rw [if_neg short, if_neg short]
  have last := @readRange_part _ data 0 headerLength
    (header.take (headerLength - 4)) (header.drop (headerLength - 4)) []
    (by rw [read, List.append_nil, List.take_append_drop])
  have tail : (header.drop (headerLength - 4)).length = 4 := by
    rw [List.length_drop]
    omega
  rw [List.length_take, Nat.zero_add, tail,
    Nat.min_eq_left (by omega)] at last
  have closing : blankLine <+: header.drop (headerLength - 4) ↔
      blankLine <:+ header := by
    rw [List.suffix_iff_eq_drop, sized]
    constructor
    · intro starts
      exact starts.eq_of_length tail.symm
    · intro same
      have whole : blankLine = header.drop (headerLength - 4) := same
      rw [← whole]
  have compared : blankLine.length ≤ 4 := Nat.le_refl 4
  apply (checked_gives (matchesAt_range last compared)).andThen
  rintro _ _ ⟨rfl, rfl⟩
  by_cases closed : blankLine <:+ header
  case neg =>
      have differs := decide_eq_false (mt closing.mp closed)
      rw [if_pos closed, if_pos (by rw [differs]; rfl)]
      exact .pure ⟨rfl, rfl, holds⟩
  have same := decide_eq_true (closing.mpr closed)
  rw [if_neg (not_not.mpr closed), if_neg (by rw [same]; decide)]
  have ends := lineEnd_eq read
  rw [Nat.zero_add] at ends
  apply (checked_gives ends).andThen
  rintro _ _ ⟨rfl, rfl⟩
  cases taken : takeLine header with
  | none => exact .pure ⟨rfl, rfl, holds⟩
  | some cut =>
      obtain ⟨line, rest⟩ := cut
      have found := lineAt_of_takeLine read taken
      have reach := found.reach
      simp only [Nat.zero_add] at reach
      simp only [Option.map_some]
      have start : Inspecting data headerLength owned
          (inspectHeaderLines rest .start heap.allocs)
          (0 + line.length + 1 + 1, .start) heap :=
        .mk found.behind (by omega) rfl holds
      apply (iterate_gives (fun _ _ => inspectTurn_good) start
        (by simp only; omega)).andThen
      intro result after agrees
      generalize inspectHeaderLines rest .start heap.allocs = listed
        at agrees
      obtain ⟨listed, allocs⟩ := listed
      obtain ⟨rfl, rfl, kept⟩ := agrees
      cases result with
      | error failure => exact .pure ⟨rfl, rfl, kept⟩
      | ok scan =>
          simp only
          split_ifs
          · exact .pure ⟨rfl, rfl, kept⟩
          · exact .pure ⟨rfl, rfl, kept⟩
          · exact .pure ⟨rfl, rfl, kept⟩

end

end Pointers

end CinderHTTP
