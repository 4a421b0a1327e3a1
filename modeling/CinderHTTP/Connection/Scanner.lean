import CinderHTTP.Base.Buffer
import CinderHTTP.Base.Loop
import CinderHTTP.Connection.Tokens

/-!
# The scan for a token

`http_header_value_has_token` walks over its value with pointers: one loop
skips blanks, one looks for the end of an element, one steps back over the
blanks at its end.  Here each turn of each loop is a step of its own and every
read is checked.  The walk never leaves the value, it ends within a number of
turns that is linear in its length, and it answers what splitting the value at
its commas, trimming the elements and comparing them answers.
-/

namespace CinderHTTP

/-! ## The loops -/

/-- The loop that takes the next turn, with the pointers it uses as offsets
into the value. -/
inductive Scan where
  | outer (position : Nat)
  | skip (position : Nat)
  | element (start position : Nat)
  | trim (start position stop : Nat)
  deriving DecidableEq, Repr

/-- A read of one character; a read outside the text leaves the scan without
an answer. -/
def readChar (text : Bytes) (position : Nat)
    (use : Byte → LoopStep Scan (Option Bool)) :
    LoopStep Scan (Option Bool) :=
  match getElem? text position with
  | none => .done none
  | some character => use character

/-- The comparison of an element and the step over the comma behind it. -/
def compareElement (text token : Bytes) (start position stop : Nat) :
    LoopStep Scan (Option Bool) :=
  match readRange text start (stop - start) with
  | none => .done none
  | some element =>
      if tokenEqualCi element token then .done (some true)
      else
        readChar text position fun character =>
          if character = comma then .next (.outer (position + 1))
          else .next (.outer position)

/-- One turn of the loops of `http_header_value_has_token`. -/
def scanTurn (text token : Bytes) : Scan → LoopStep Scan (Option Bool)
  | .outer position =>
      readChar text position fun character =>
        if character ≠ nul then .next (.skip position)
        else .done (some false)
  | .skip position =>
      readChar text position fun character =>
        if isOws character then .next (.skip (position + 1))
        else if character = nul then .done (some false)
        else .next (.element position position)
  | .element start position =>
      readChar text position fun character =>
        if character ≠ nul ∧ character ≠ comma then
          .next (.element start (position + 1))
        else .next (.trim start position position)
  | .trim start position stop =>
      if stop > start then
        readChar text (stop - 1) fun character =>
          if isOws character then .next (.trim start position (stop - 1))
          else compareElement text token start position stop
      else compareElement text token start position stop

/-! ## What the scan has behind it -/

/-- Where a scan of a value can be: what is left of the value still has the
answer of the whole. -/
inductive Scanned (token value : Bytes) : Scan → Prop
  | outer {before rest : Bytes} : value = before ++ rest →
      listsToken token value = listsToken token rest →
      Scanned token value (.outer before.length)
  | skip {before rest : Bytes} : value = before ++ rest →
      listsToken token value = listsToken token rest →
      Scanned token value (.skip before.length)
  | element {before text rest : Bytes} : value = before ++ (text ++ rest) →
      listsToken token value = listsToken token (text ++ rest) →
      skipOws (text ++ rest) = text ++ rest → comma ∉ text →
      Scanned token value
        (.element before.length (before.length + text.length))
  | trim {before kept blanks rest : Bytes} :
      value = before ++ (kept ++ (blanks ++ rest)) →
      listsToken token value =
        listsToken token (kept ++ (blanks ++ rest)) →
      skipOws (kept ++ (blanks ++ rest)) = kept ++ (blanks ++ rest) →
      comma ∉ kept ++ blanks → (∀ blank ∈ blanks, isOws blank = true) →
      AtBoundary comma rest →
      Scanned token value
        (.trim before.length (before.length + kept.length + blanks.length)
          (before.length + kept.length))

/-- Every turn makes this smaller. -/
def scanMeasure (length : Nat) : Scan → Nat
  | .outer position =>
      if position < length then 4 * (length - position) + 4 else 0
  | .skip position => 4 * (length - position) + 3
  | .element start position =>
      4 * (length - position) + (position - start) + 2
  | .trim start position stop =>
      4 * (length - position) + (stop - start) + 1

/-- A good turn of the scan of a value. -/
def ScanStep (token value : Bytes) (state : Scan) :
    LoopStep Scan (Option Bool) → Prop :=
  GoodTurn (Scanned token value) (scanMeasure value.length)
    (fun answer => answer = some (listsToken token value)) state

section

variable {token value : Bytes}

theorem ScanStep.answer {state : Scan} {answer : Bool}
    (same : listsToken token value = answer) :
    ScanStep token value state (.done (some answer)) :=
  .done (by rw [same])

/-- A read behind a part of the value gives the next character, which is the
terminator at the end. -/
theorem readChar_behind {before rest : Bytes} (parts : value = before ++ rest)
    (use : Byte → LoopStep Scan (Option Bool)) :
    readChar (value ++ [nul]) before.length use =
      use (rest.head?.getD nul) := by
  rw [readChar, parts, List.append_assoc,
    List.getElem?_append_right (Nat.le_refl _), Nat.sub_self]
  cases rest with
  | nil => rfl
  | cons character rest => rfl

theorem next_char_inside (terminated : nul ∉ value) {before rest : Bytes}
    {character : Byte} (parts : value = before ++ character :: rest) :
    character ≠ nul ∧ before.length < value.length := by
  constructor
  · rintro rfl
    exact terminated (by simp [parts])
  · simp [parts]

/-! ## One turn of each loop -/

theorem scanTurn_outer (nonempty : token ≠ []) (terminated : nul ∉ value)
    {before rest : Bytes} (parts : value = before ++ rest)
    (same : listsToken token value = listsToken token rest) :
    ScanStep token value (.outer before.length)
      (scanTurn (value ++ [nul]) token (.outer before.length)) := by
  rw [scanTurn, readChar_behind parts]
  cases rest with
  | nil => exact .answer (same.trans (listsToken_nil nonempty))
  | cons character rest =>
      obtain ⟨visible, inside⟩ := next_char_inside terminated parts
      rw [List.head?_cons, Option.getD_some, if_pos visible]
      refine .next (.skip parts same) ?_
      rw [scanMeasure, scanMeasure, if_pos inside]
      omega

theorem scanTurn_skip (nonempty : token ≠ []) (terminated : nul ∉ value)
    {before rest : Bytes} (parts : value = before ++ rest)
    (same : listsToken token value = listsToken token rest) :
    ScanStep token value (.skip before.length)
      (scanTurn (value ++ [nul]) token (.skip before.length)) := by
  rw [scanTurn, readChar_behind parts]
  cases rest with
  | nil => exact .answer (same.trans (listsToken_nil nonempty))
  | cons character rest =>
      obtain ⟨visible, inside⟩ := next_char_inside terminated parts
      rw [List.head?_cons, Option.getD_some]
      cases blank : isOws character with
      | false =>
          rw [if_neg Bool.false_ne_true, if_neg visible]
          have found := @Scanned.element token value before []
            (character :: rest) parts same
            (List.dropWhile_cons_of_neg (by simp [blank])) List.not_mem_nil
          refine .next found ?_
          simp only [scanMeasure]
          omega
      | true =>
          rw [if_pos rfl]
          have moved := @Scanned.skip token value (before ++ [character]) rest
            (by simp [parts])
            (by rw [same, listsToken, listElements_cons_blank blank,
              listsToken])
          rw [List.length_append, List.length_singleton] at moved
          refine .next moved ?_
          simp only [scanMeasure]
          omega

theorem scanTurn_element (terminated : nul ∉ value)
    {before text rest : Bytes} (parts : value = before ++ (text ++ rest))
    (same : listsToken token value = listsToken token (text ++ rest))
    (started : skipOws (text ++ rest) = text ++ rest)
    (clean : comma ∉ text) :
    ScanStep token value
      (.element before.length (before.length + text.length))
      (scanTurn (value ++ [nul]) token
        (.element before.length (before.length + text.length))) := by
  -- the end of the element, with no blank stepped over yet
  have ended (boundary : AtBoundary comma rest) :
      ScanStep token value
        (.element before.length (before.length + text.length))
        (.next (.trim before.length (before.length + text.length)
          (before.length + text.length))) := by
    refine .next (@Scanned.trim token value before text [] rest parts same
      started (by simpa using clean) (by simp) boundary) ?_
    simp only [scanMeasure]
    omega
  have split : value = (before ++ text) ++ rest := by
    rw [parts, List.append_assoc]
  rw [scanTurn, ← List.length_append, readChar_behind split,
    List.length_append]
  cases rest with
  | nil => exact ended (.nil comma)
  | cons character rest =>
      obtain ⟨visible, inside⟩ := next_char_inside terminated split
      rw [List.head?_cons, Option.getD_some]
      by_cases separator : character = comma
      · rw [if_neg (by simp [separator])]
        subst separator
        exact ended (.cons comma rest)
      · rw [if_pos ⟨visible, separator⟩]
        have joined : text ++ character :: rest =
            (text ++ [character]) ++ rest := by simp
        rw [joined] at parts same started
        have longer := Scanned.element parts same started
          (by simpa [clean] using Ne.symm separator)
        rw [List.length_append, List.length_singleton] at longer
        refine .next longer ?_
        rw [List.length_append] at inside
        simp only [scanMeasure]
        omega

theorem trimOwsEnd_append_blanks (kept : Bytes) {blanks : Bytes}
    (blank : ∀ character ∈ blanks, isOws character = true) :
    trimOwsEnd (kept ++ blanks) = trimOwsEnd kept := by
  rw [trimOwsEnd, trimOwsEnd, List.rdropWhile, List.rdropWhile,
    List.reverse_append, List.dropWhile_append_of_pos]
  intro character member
  exact blank character (List.mem_reverse.mp member)

/-- The list behind an element: the element, or what follows its comma. -/
theorem listsToken_element (nonempty : token ≠ []) {kept blanks rest : Bytes}
    (started : skipOws (kept ++ (blanks ++ rest)) = kept ++ (blanks ++ rest))
    (clean : comma ∉ kept ++ blanks)
    (blank : ∀ character ∈ blanks, isOws character = true)
    (boundary : AtBoundary comma rest) (trimmed : trimOwsEnd kept = kept) :
    listsToken token (kept ++ (blanks ++ rest)) =
      (tokenEqualCi kept token || listsToken token (rest.drop 1)) := by
  rw [← List.append_assoc] at started ⊢
  obtain ⟨front, behind⟩ := takeWhile_boundary clean boundary
  have own : trimOws (kept ++ blanks) = kept := by
    have unblank := skipOws_takeWhile_skipOws (kept ++ blanks ++ rest)
      (· ≠ comma)
    rw [started, front] at unblank
    rw [trimOws, unblank, trimOwsEnd_append_blanks kept blank, trimmed]
  rw [listsToken_cut nonempty, front, behind, own, tokenEqualCi_eq_decide]

/-- The step over the comma behind an element. -/
theorem readChar_comma {state : Scan} {before rest : Bytes}
    (parts : value = before ++ rest)
    (same : listsToken token value = listsToken token (rest.drop 1))
    (boundary : AtBoundary comma rest)
    (above : 4 * (value.length - before.length) <
      scanMeasure value.length state) :
    ScanStep token value state
      (readChar (value ++ [nul]) before.length fun character =>
        if character = comma then .next (.outer (before.length + 1))
        else .next (.outer before.length)) := by
  rw [readChar_behind parts]
  cases rest with
  | nil =>
      have finished : ¬before.length < value.length := by simp [parts]
      rw [List.head?_nil, Option.getD_none, if_neg (by decide)]
      refine .next (.outer parts same) ?_
      rw [scanMeasure, if_neg finished]
      exact Nat.zero_lt_of_lt above
  | cons character rest =>
      have separator := boundary.eq_of_cons
      subst separator
      have outer := @Scanned.outer token value (before ++ [comma]) rest
        (by simp [parts]) same
      rw [List.length_append, List.length_singleton] at outer
      rw [List.head?_cons, Option.getD_some, if_pos rfl]
      refine .next outer ?_
      rw [scanMeasure]
      split_ifs <;> omega

theorem compareElement_step {before kept blanks rest : Bytes}
    (parts : value = before ++ (kept ++ (blanks ++ rest)))
    (same : listsToken token value =
      (tokenEqualCi kept token || listsToken token (rest.drop 1)))
    (boundary : AtBoundary comma rest) :
    let position := before.length + kept.length + blanks.length
    let stop := before.length + kept.length
    ScanStep token value (.trim before.length position stop)
      (compareElement (value ++ [nul]) token before.length position
        stop) := by
  intro position stop
  have read : readRange (value ++ [nul]) before.length
      (stop - before.length) = some kept := by
    have inside : value ++ [nul] =
        before ++ (kept ++ (blanks ++ rest ++ [nul])) := by simp [parts]
    rw [Nat.add_sub_cancel_left]
    exact readRange_between inside
  simp only [compareElement, read]
  cases equal : tokenEqualCi kept token with
  | true =>
      rw [if_pos rfl]
      exact .answer (by rw [same, equal, Bool.true_or])
  | false =>
      have split : value = (before ++ kept ++ blanks) ++ rest := by
        simp [parts]
      have here : position = (before ++ kept ++ blanks).length := by
        rw [List.length_append, List.length_append]
      rw [equal, Bool.false_or] at same
      rw [if_neg Bool.false_ne_true, here]
      refine readChar_comma split same boundary ?_
      simp only [scanMeasure]
      omega

theorem scanTurn_trim (nonempty : token ≠ [])
    {before kept blanks rest : Bytes}
    (parts : value = before ++ (kept ++ (blanks ++ rest)))
    (same : listsToken token value =
      listsToken token (kept ++ (blanks ++ rest)))
    (started : skipOws (kept ++ (blanks ++ rest)) = kept ++ (blanks ++ rest))
    (clean : comma ∉ kept ++ blanks)
    (blank : ∀ character ∈ blanks, isOws character = true)
    (boundary : AtBoundary comma rest) :
    let state := Scan.trim before.length
      (before.length + kept.length + blanks.length)
      (before.length + kept.length)
    ScanStep token value state
      (scanTurn (value ++ [nul]) token state) := by
  intro state
  have compared (trimmed : trimOwsEnd kept = kept) :
      ScanStep token value state (compareElement (value ++ [nul]) token
        before.length (before.length + kept.length + blanks.length)
        (before.length + kept.length)) :=
    compareElement_step parts
      (same.trans (listsToken_element nonempty started clean blank boundary
        trimmed)) boundary
  rw [scanTurn]
  -- nothing is left of the element, or its last character decides
  rcases List.eq_nil_or_concat' kept with rfl | ⟨shorter, last, rfl⟩
  · rw [if_neg (by simp)]
    exact compared rfl
  · have joined : (shorter ++ [last]) ++ (blanks ++ rest) =
        shorter ++ ((last :: blanks) ++ rest) := by simp
    have behind : value = (before ++ shorter) ++
        ((last :: blanks) ++ rest) := by
      rw [parts, joined, List.append_assoc]
    have back : before.length + (shorter ++ [last]).length - 1 =
        (before ++ shorter).length := by simp
    rw [if_pos (by simp), back, readChar_behind behind, List.cons_append,
      List.head?_cons, Option.getD_some]
    cases empty : isOws last with
    | false =>
        rw [if_neg Bool.false_ne_true]
        exact compared (List.rdropWhile_concat_neg _ _ _ (by simp [empty]))
    | true =>
        rw [if_pos rfl]
        rw [joined] at parts same started
        have moved := Scanned.trim parts same started
          (by simpa using clean) (by simpa [empty] using blank) boundary
        have position : before.length + shorter.length +
            (last :: blanks).length = before.length +
              (shorter ++ [last]).length + blanks.length := by
          simp only [List.length_append, List.length_cons, List.length_nil]
          omega
        rw [position, ← @List.length_append _ before shorter] at moved
        refine .next moved ?_
        simp only [state, scanMeasure, List.length_append,
          List.length_singleton]
        omega

/-! ## The whole scan -/

theorem scanTurn_step (nonempty : token ≠ []) (terminated : nul ∉ value)
    {state : Scan} (scanned : Scanned token value state) :
    ScanStep token value state
      (scanTurn (value ++ [nul]) token state) := by
  cases scanned with
  | outer parts same => exact scanTurn_outer nonempty terminated parts same
  | skip parts same => exact scanTurn_skip nonempty terminated parts same
  | element parts same started clean =>
      exact scanTurn_element terminated parts same started clean
  | trim parts same started clean blank boundary =>
      exact scanTurn_trim nonempty parts same started clean blank boundary

end

/-- The loops leave every value with the answer of the function, which is
whether some element of the list is the token. -/
theorem httpHeaderValueHasToken_scan {token value : Bytes}
    (nonempty : token ≠ []) (terminated : nul ∉ value) :
    (httpHeaderValueHasToken (some value) token = true ↔
      ∃ element ∈ value.splitOn comma, SameName (trimOws element) token) ∧
    ∀ turns > 4 * value.length + 4,
      runLoop (scanTurn (value ++ [nul]) token) turns (.outer 0) =
        some (some (httpHeaderValueHasToken (some value) token)) := by
  rw [httpHeaderValueHasToken_eq nonempty, Option.any_some]
  constructor
  · simp only [listsToken, listElements, List.any_map, List.any_eq_true,
      Function.comp_apply, decide_eq_true_iff]
  · intro turns enough
    have start : Scanned token value (.outer 0) :=
      @Scanned.outer token value [] value rfl rfl
    have bound : scanMeasure value.length (.outer 0) < turns := by
      rw [scanMeasure]
      split_ifs <;> omega
    obtain ⟨answer, left, rfl⟩ := runLoop_of_turns
      (fun state => scanTurn_step nonempty terminated) start bound
    exact left

/-- A value of commas and blanks only, with its scan. -/
theorem httpHeaderValueHasToken_scan_separators :
    httpHeaderValueHasToken (some (ascii ", ,\t, ")) (ascii "close") =
        false ∧
      runLoop (scanTurn (ascii ", ,\t, " ++ [nul]) (ascii "close")) 29
        (.outer 0) = some (some false) := by
  obtain ⟨listed, scanned⟩ := @httpHeaderValueHasToken_scan (ascii "close")
    (ascii ", ,\t, ") (by decide) (by decide)
  have answer : httpHeaderValueHasToken (some (ascii ", ,\t, "))
      (ascii "close") = false := by
    rw [Bool.eq_false_iff, ne_eq, listed]
    decide +kernel
  have left := scanned 29 (by decide)
  rw [answer] at left
  exact ⟨answer, left⟩

end CinderHTTP
