import CinderHTTP.Http.Pointers

/-!
# Scanning by position

Each scan of the message stays inside of it and finds what the parser on lists
finds in the bytes of the range.
-/

namespace CinderHTTP

namespace Pointers

variable {data : Bytes}

theorem matchesAt_eq {position : Nat} {pattern : Bytes}
    (inside : position + pattern.length ≤ data.length) :
    matchesAt data position pattern =
      some (decide (pattern <+: data.drop position)) := by
  induction pattern generalizing position with
  | nil => simp [matchesAt]
  | cons expected others induction =>
      rw [List.length_cons] at inside
      have within : position < data.length := by omega
      have behind := @induction (position + 1) (by omega)
      rw [matchesAt, List.getElem?_eq_getElem within, Option.bind_eq_bind,
        Option.bind_some, behind, List.drop_eq_getElem_cons within]
      by_cases same : data[position] = expected
      · simp only [same, ne_eq, not_true, if_false, List.cons_prefix_cons,
          true_and]
      · simp only [same, ne_eq, not_false_iff, if_true,
          List.cons_prefix_cons, Ne.symm same, false_and, decide_false]

theorem matchesAt_range {position length : Nat} {text pattern : Bytes}
    (read : readRange data position length = some text)
    (fits : pattern.length ≤ length) :
    matchesAt data position pattern = some (decide (pattern <+: text)) := by
  unfold readRange at read
  split_ifs at read with inside
  obtain rfl := Option.some.inj read
  rw [matchesAt_eq (by omega)]
  congr 2
  rw [List.prefix_take_iff, and_iff_left fits]

theorem terminatorFrom_eq {position remaining : Nat}
    (inside : position + remaining + 3 = data.length) :
    terminatorFrom data position remaining =
      some ((findInfix blankLine (data.drop position)).map
        (position + ·)) := by
  induction remaining generalizing position with
  | zero =>
      cases found : findInfix blankLine (data.drop position) with
      | none => rfl
      | some index =>
          have bound := findInfix_bound found
          rw [List.length_drop] at bound
          simp [blankLine] at bound
          omega
  | succ remaining induction =>
      have within : position < data.length := by omega
      rw [terminatorFrom, matchesAt_eq (by simp [blankLine]; omega),
        Option.bind_eq_bind, Option.bind_some]
      by_cases here : blankLine <+: data.drop position
      · simp [here, findInfix_at_start here]
      · have later := here
        rw [List.drop_eq_getElem_cons within] at later ⊢
        rw [findInfix_cons_skip later, decide_eq_false later,
          if_neg (by simp), induction (by omega), Option.map_map]
        congr 2
        funext index
        simp only [Function.comp_apply]
        omega

theorem httpFindHeaderTerminator_eq :
    Pointers.httpFindHeaderTerminator data =
      some (CinderHTTP.httpFindHeaderTerminator data) := by
  unfold httpFindHeaderTerminator CinderHTTP.httpFindHeaderTerminator
  by_cases short : data.length < 4
  · rw [if_pos short]
    cases found : findInfix blankLine data with
    | none => rfl
    | some index =>
        have bound := findInfix_bound found
        simp [blankLine] at bound
        omega
  · rw [if_neg short, terminatorFrom_eq (by omega)]
    simp

theorem anyIn_eq (test : Byte → Bool) {start length : Nat} {items : Bytes}
    (read : readRange data start length = some items) :
    anyIn test data start length = some (items.any test) := by
  have sized := readRange_length read
  induction items generalizing start length with
  | nil =>
      obtain rfl := sized
      rfl
  | cons first others induction =>
      obtain rfl := sized
      obtain ⟨front, behind⟩ := getElem?_of_readRange read
      rw [List.length_cons, anyIn, front, Option.bind_eq_bind,
        Option.bind_some]
      cases passed : test first with
      | true => simp [passed]
      | false => simp [passed, induction behind rfl]

theorem skipOws_eq {start length : Nat} {text : Bytes}
    (read : readRange data start length = some text) :
    Pointers.skipOws data start length =
      some (start + (text.takeWhile isOws).length) := by
  have sized := readRange_length read
  induction text generalizing start length with
  | nil =>
      obtain rfl := sized
      rfl
  | cons first others induction =>
      obtain rfl := sized
      obtain ⟨front, behind⟩ := getElem?_of_readRange read
      rw [List.length_cons, Pointers.skipOws, front, Option.bind_eq_bind,
        Option.bind_some]
      cases blank : isOws first with
      | true =>
          simp [blank, induction behind rfl]
          omega
      | false => simp [blank]

theorem trimOwsEnd_eq {start length : Nat} {text : Bytes}
    (read : readRange data start length = some text) :
    Pointers.trimOwsEnd data start (start + length) =
      some (start + (CinderHTTP.trimOwsEnd text).length) := by
  have sized := readRange_length read
  -- from the last character to the first
  induction text using List.reverseRecOn generalizing length with
  | nil =>
      obtain rfl := sized
      cases start with
      | zero => rfl
      | succ start => simp [Pointers.trimOwsEnd, CinderHTTP.trimOwsEnd]
  | append_singleton others last induction =>
      rw [List.length_append, List.length_singleton] at sized
      obtain rfl := sized
      have final := (getElem?_of_readRange (@readRange_part _ data start _
        others [last] [] (by rw [read, List.append_nil]))).1
      have before := @readRange_part _ data start _ [] others [last] read
      rw [List.length_nil, Nat.add_zero] at before
      rw [← Nat.add_assoc, Pointers.trimOwsEnd, if_pos (by omega), final,
        Option.bind_eq_bind, Option.bind_some]
      cases blank : isOws last with
      | true =>
          rw [if_pos rfl, induction before rfl]
          simp [CinderHTTP.trimOwsEnd, blank]
      | false =>
          simp [CinderHTTP.trimOwsEnd, blank, Nat.add_assoc]

/-- The range of a field value holds the value without its blanks. -/
theorem valueRange_eq {start length : Nat} {text : Bytes}
    (read : readRange data start length = some text) :
    ∃ valueStart, valueRange data start (start + length) =
        some (valueStart, (trimOws text).length) ∧
      readRange data valueStart (trimOws text).length =
        some (trimOws text) := by
  have sized := readRange_length read
  have parts : text.takeWhile isOws ++ CinderHTTP.skipOws text = text :=
    List.takeWhile_append_dropWhile
  have skipped := @readRange_part _ data start length
    (text.takeWhile isOws) (CinderHTTP.skipOws text) []
    (by rw [read, List.append_nil, parts])
  obtain ⟨blanks, split⟩ : trimOws text <+: CinderHTTP.skipOws text :=
    List.rdropWhile_prefix isOws _
  refine ⟨start + (text.takeWhile isOws).length, ?_, ?_⟩
  · have stop : start + length = start + (text.takeWhile isOws).length +
        (CinderHTTP.skipOws text).length := by
      rw [← sized, ← congrArg List.length parts, List.length_append]
      omega
    have trimmed := trimOwsEnd_eq skipped
    rw [← stop] at trimmed
    have valueLen : subtractAll (start + (text.takeWhile isOws).length +
        (trimOws text).length) [start + (text.takeWhile isOws).length] =
          some (trimOws text).length := by
      rw [subtractAll_eq_some_iff, List.sum_singleton, Nat.add_comm]
    rw [valueRange, Nat.add_sub_cancel_left, skipOws_eq read]
    simp only [Option.bind_eq_bind, Option.bind_some, trimmed]
    exact congrArg (Option.bind · _) valueLen
  · have front := @readRange_part _ data _ _ [] (trimOws text) blanks
      (by rw [skipped, List.nil_append, split])
    exact front

theorem lineEnd_eq {cursor length : Nat} {text : Bytes}
    (read : readRange data cursor length = some text) :
    lineEnd data cursor (cursor + length) =
      some ((takeLine text).map fun cut => cursor + cut.1.length + 1) := by
  have remaining : subtractAll (cursor + length) [cursor] =
      some length := by
    rw [subtractAll_eq_some_iff, List.sum_singleton, Nat.add_comm]
  rw [lineEnd, remaining, Option.bind_eq_bind, Option.bind_some,
    memchr_eq read, takeLine]
  cases cut : cutFirst lf text with
  | none => rfl
  | some parts =>
      obtain ⟨before, after⟩ := parts
      obtain ⟨same, -⟩ := cutFirst_eq_some_iff.mp cut
      rcases List.eq_nil_or_concat before with rfl | ⟨line, last, rfl⟩
      · simp
      · -- the character before the LF
        have final := (getElem?_of_readRange (@readRange_part _ data cursor
          length line [last] (lf :: after) (by rw [read, same]; simp))).1
        have back : subtractAll (cursor + (line.length + 1)) [1] =
            some (cursor + line.length) := by
          rw [subtractAll_eq_some_iff, List.sum_singleton, Nat.add_assoc]
        by_cases proper : last = cr
        · simp [proper, back, final, Nat.add_assoc]
        · simp [proper, back, final]

/-- A line, the bytes behind it, and the differences that the loops over lines
compute. -/
structure LineAt (data : Bytes) (cursor stop : Nat) (line rest : Bytes) :
    Prop where
  front : readRange data cursor line.length = some line
  behind : readRange data (cursor + line.length + 1 + 1) rest.length =
    some rest
  reach : cursor + line.length + 1 + 1 + rest.length = stop
  lineLen : subtractAll (cursor + line.length + 1) [1, cursor] =
    some line.length

theorem lineAt_of_takeLine {cursor length : Nat} {text line rest : Bytes}
    (read : readRange data cursor length = some text)
    (taken : takeLine text = some (line, rest)) :
    LineAt data cursor (cursor + length) line rest := by
  have sized := readRange_length read
  obtain ⟨rfl, -⟩ := takeLine_eq_some_iff.mp taken
  have front := @readRange_part _ data cursor length [] line (crlf ++ rest)
    (by rw [read]; simp)
  have back := @readRange_part _ data cursor length (line ++ crlf) rest []
    (by rw [read]; simp)
  simp only [List.length_append, crlf, List.length_cons, List.length_nil]
    at sized back
  refine ⟨front, back, by omega, ?_⟩
  rw [subtractAll_eq_some_iff]
  simp only [List.sum_cons, List.sum_nil]
  omega

end Pointers

end CinderHTTP
