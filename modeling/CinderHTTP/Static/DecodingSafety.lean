import CinderHTTP.Static.Lexical
import CinderHTTP.Static.Pointers
import Mathlib.Tactic.Abel

/-!
# Cutting and decoding a target in memory

The copy of the path portion and the decoded path are strings that read as the
functions on lists say.  The decoder writes no more cells than it has asked
for, and frees them at a bad escape.
-/

namespace CinderHTTP

namespace Pointers

/-- What a function that makes a string leaves: nothing when it fails, and
otherwise one more block that reads as the text. -/
inductive Makes (owned : Multiset (Block Cell)) :
    Except StaticFileError Bytes → Except StaticFileError Nat →
      Heap Cell → Prop
  | failed {failure : StaticFileError} {after : Heap Cell}
      (holds : after.Holds owned) :
      Makes owned (.error failure) (.error failure) after
  | made {block : Block Cell} {text : Bytes} {after : Heap Cell}
      (reads : cString block.cells = some text)
      (holds : after.Holds ({block} + owned)) :
      Makes owned (.ok text) (.ok block.address) after

/-- The string and the remaining answers are those on lists. -/
structure MakesAs (owned : Multiset (Block Cell))
    (listed : Except StaticFileError Bytes × Process)
    (result : Except StaticFileError Nat) (after : Heap Cell) : Prop where
  makes : Makes owned listed.1 result after
  allocs : after.allocs = listed.2.allocs

theorem process_malloc {process : Process} {answer : Bool}
    {later : Allocs} (answered : malloc process.allocs = (answer, later)) :
    process.malloc = (answer, { process with allocs := later }) := by
  rw [Process.malloc, answered]

section

variable {heap : Heap Cell} {owned : Multiset (Block Cell)}
  {process : Process}

/-! ## Path portion -/

/-- The search ends at the NUL at the latest. -/
theorem spanAt_eq {stops : Byte → Bool} (stopsNul : stops nul = true)
    {chars rest : Bytes} {position turns : Nat}
    (here : StringAt chars position rest) (enough : rest.length < turns) :
    spanAt stops chars position turns =
      some (position + (rest.takeWhile fun character =>
        !stops character).length) := by
  induction rest generalizing position turns with
  | nil =>
      obtain ⟨turns, rfl⟩ : ∃ fewer, turns = fewer + 1 :=
        ⟨turns - 1, by simp at enough; omega⟩
      simp [spanAt, here.first_nul, stopsNul]
  | cons first rest induction =>
      obtain ⟨turns, rfl⟩ : ∃ fewer, turns = fewer + 1 :=
        ⟨turns - 1, by omega⟩
      rw [List.length_cons] at enough
      rw [spanAt, here.first, Option.bind_eq_bind, Option.bind_some]
      cases stopsHere : stops first with
      | true => simp [stopsHere]
      | false =>
          rw [if_neg (by simp), induction here.next (by omega)]
          simp only [List.takeWhile_cons, stopsHere, Bool.not_false,
            if_true, List.length_cons]
          congr 1
          omega

/-- On a string without NUL, two tests that differ at NUL only stop at the
same character. -/
theorem takeWhile_clean {text : Bytes} (clean : nul ∉ text)
    {first second : Byte → Bool}
    (same : ∀ character, character ≠ nul →
      first character = second character) :
    text.takeWhile first = text.takeWhile second := by
  induction text with
  | nil => rfl
  | cons character text induction =>
      rw [List.mem_cons, not_or] at clean
      rw [List.takeWhile_cons, List.takeWhile_cons,
        same character (Ne.symm clean.1), induction clean.2]

theorem cString_clean_copy {text : Bytes} (clean : nul ∉ text) :
    cString (textCells text) = some text := by
  rw [cString_textCells, cstr_eq_self clean]

theorem staticFilesExtractPath_gives {block : Block Cell} {text : Bytes}
    (holds : heap.Holds ({block} + owned))
    (reads : cString block.cells = some text)
    (same : process.allocs = heap.allocs) :
    Gives (Pointers.staticFilesExtractPath block.address) heap
      (MakesAs ({block} + owned)
        (CinderHTTP.staticFilesExtractPath text process)) := by
  have clean := cString_clean reads
  have here := stringAt_start text
  unfold CinderHTTP.staticFilesExtractPath pathPortion
  apply (readString_gives holds reads).andThen
  rintro _ _ ⟨rfl, rfl⟩
  cases text with
  | nil =>
      apply (checked_gives here.first_nul).andThen
      rintro _ _ ⟨rfl, rfl⟩
      rw [if_pos rfl]
      exact .pure ⟨.failed holds, same.symm⟩
  | cons first others =>
      have nonzero : first ≠ nul := by
        rintro rfl
        exact clean List.mem_cons_self
      apply (checked_gives here.first).andThen
      rintro _ _ ⟨rfl, rfl⟩
      rw [if_neg nonzero, if_neg (List.cons_ne_nil _ _)]
      by_cases relative : first = slash
      case neg =>
          rw [if_pos relative, if_pos (by simpa using relative)]
          exact .pure ⟨.failed holds, same.symm⟩
      rw [if_neg (not_not.mpr relative), if_neg (by simpa using relative)]
      have stop := @spanAt_eq (fun character => character == nul ||
        character == question || character == hash) rfl _ _ _ _ here
        here.shorter
      have alike := @takeWhile_clean _ clean (fun character =>
        !(character == nul || character == question || character == hash))
        (fun character => character ≠ question && character ≠ hash)
        (by
          intro character other
          simp [beq_eq_decide, other])
      rw [alike, Nat.zero_add] at stop
      apply (checked_gives stop).andThen
      rintro _ _ ⟨rfl, rfl⟩
      have parts := @List.takeWhile_append_dropWhile _ (fun character =>
        character ≠ question && character ≠ hash) (first :: others)
      generalize (first :: others).takeWhile (fun character =>
        character ≠ question && character ≠ hash) = portion at parts ⊢
      rw [← parts] at here clean ⊢
      rw [List.mem_append, not_or] at clean
      apply (newText_gives holds here.range rfl).andThen
      intro copy after result
      cases result with
      | refused answer kept =>
          rw [← same] at answer
          rw [process_malloc answer]
          exact .pure ⟨.failed kept, rfl⟩
      | @granted _ address answer kept =>
          rw [← same] at answer
          rw [process_malloc answer]
          exact .pure ⟨@Makes.made _ { address := address, cells := _ } _ _
            (cString_clean_copy clean.1) kept, rfl⟩

/-! ## Percent-decoding -/

/-- The decoder in memory has the same characters ahead of it as the one on
lists, and has written what that one has decoded.  It is not ahead of its
input, so there is room for what it still has to write. -/
inductive Decoding (text : Bytes) (out : Nat)
    (owned : Multiset (Block Cell)) (allocs : Allocs) :
    Nat × Nat → Heap Cell → Prop
  | mk {rest written : Bytes} {position unused : Nat} {heap : Heap Cell}
      (here : StringAt (text ++ [nul]) position rest)
      (unread : nul ∉ rest)
      (reach : position + rest.length = text.length)
      (room : written.length + unused = text.length + 1)
      (behind : written.length ≤ position) (clean : nul ∉ written)
      (ahead : decodeEscapes text =
        (decodeEscapes rest).map (written ++ ·))
      (holds : heap.Holds ({filledBlock out written unused} + owned))
      (same : heap.allocs = allocs) :
      Decoding text out owned allocs (position, written.length) heap

/-- How the decoding loop is left. -/
inductive Decoded (text : Bytes) (out : Nat)
    (owned : Multiset (Block Cell)) (allocs : Allocs) :
    Option Nat → Heap Cell → Prop
  | bad {written : Bytes} {unused : Nat} {heap : Heap Cell}
      (failed : decodeEscapes text = none)
      (holds : heap.Holds ({filledBlock out written unused} + owned))
      (same : heap.allocs = allocs) :
      Decoded text out owned allocs none heap
  | good {written : Bytes} {unused : Nat} {heap : Heap Cell}
      (decoded : decodeEscapes text = some written)
      (clean : nul ∉ written)
      (holds : heap.Holds ({filledBlock out written (unused + 1)} + owned))
      (same : heap.allocs = allocs) :
      Decoded text out owned allocs (some written.length) heap

theorem decodeTurn_write {text rest written : Bytes} {out position : Nat}
    {unused consumed : Nat} {allocs : Allocs} {decoded : Byte}
    {state : Nat × Nat} (before : state.1 = position)
    (here : StringAt (text ++ [nul]) (position + consumed) rest)
    (unread : nul ∉ rest) (moved : 0 < consumed)
    (reach : position + consumed + rest.length = text.length)
    (room : written.length + unused = text.length + 1)
    (behind : written.length ≤ position) (clean : nul ∉ written)
    (proper : decoded ≠ nul)
    (ahead : decodeEscapes text =
      (decodeEscapes rest).map (written ++ decoded :: ·))
    (holds : heap.Holds ({filledBlock out written unused} + owned))
    (same : heap.allocs = allocs) :
    Gives (do
        overwrite out written.length [.byte decoded]
        pure (.next (position + consumed, written.length + 1))) heap
      fun step after =>
        GoodTurn (Decoding text out owned allocs · after)
          (fun later => text.length - later.1)
          (Decoded text out owned allocs · after) state step := by
  obtain ⟨fewer, rfl⟩ : ∃ fewer, unused = 1 + fewer :=
    ⟨unused - 1, by omega⟩
  apply (@fill_gives _ _ out fewer written [decoded] holds).andThen
  rintro _ after ⟨longer, later⟩
  have next : Decoding text out owned allocs
      (position + consumed, (written ++ [decoded]).length) after := by
    apply Decoding.mk here unread reach _ _ _ _ longer (later.trans same)
    · rw [List.length_append, List.length_singleton]
      omega
    · rw [List.length_append, List.length_singleton]
      omega
    · rw [List.mem_append, List.mem_singleton, not_or]
      exact ⟨clean, Ne.symm proper⟩
    · rw [ahead]
      simp
  rw [List.length_append, List.length_singleton] at next
  apply Gives.pure
  apply GoodTurn.next
  · exact next
  · simp only
    omega

theorem decodeTurn_stop {text rest written : Bytes} {out unused : Nat}
    {allocs : Allocs} {state : Nat × Nat}
    (ahead : decodeEscapes text = (decodeEscapes rest).map (written ++ ·))
    (bad : decodeEscapes rest = none)
    (holds : heap.Holds ({filledBlock out written unused} + owned))
    (same : heap.allocs = allocs) :
    Gives (pure (.done none)) heap fun step after =>
      GoodTurn (Decoding text out owned allocs · after)
        (fun later => text.length - later.1)
        (Decoded text out owned allocs · after) state step := by
  apply Gives.pure
  apply GoodTurn.done
  apply Decoded.bad _ holds same
  rw [ahead, bad, Option.map_none]

theorem decodeTurn_good {text : Bytes} {out : Nat} {allocs : Allocs}
    {state : Nat × Nat}
    (decoding : Decoding text out owned allocs state heap) :
    Gives (decodeTurn (text ++ [nul]) text.length out state) heap
      fun step after =>
        GoodTurn (Decoding text out owned allocs · after)
          (fun later => text.length - later.1)
          (Decoded text out owned allocs · after) state step := by
  cases decoding with
  | @mk rest written position unused _ here unread reach room behind clean
      ahead holds same =>
      unfold decodeTurn
      cases rest with
      | nil =>
          rw [List.length_nil, Nat.add_zero] at reach
          rw [if_neg (by simp only; omega)]
          obtain ⟨fewer, rfl⟩ : ∃ fewer, unused = fewer + 1 :=
            ⟨unused - 1, by omega⟩
          apply Gives.pure
          apply GoodTurn.done
          apply Decoded.good _ clean holds same
          rw [ahead]
          simp [decodeEscapes]
      | cons character rest =>
          rw [List.length_cons] at reach
          rw [if_pos (by simp only; omega)]
          apply (checked_gives here.first).andThen
          rintro _ _ ⟨rfl, rfl⟩
          by_cases escaped : character = percent
          case neg =>
              rw [if_neg escaped]
              rw [decodeEscapes_literal escaped, Option.map_map] at ahead
              rw [List.mem_cons, not_or] at unread
              exact decodeTurn_write rfl here.next unread.2 Nat.one_pos
                (by omega) room behind clean (Ne.symm unread.1) ahead holds
                same
          obtain rfl := escaped
          rw [if_pos rfl]
          -- an escape needs two characters behind the percent sign
          rcases rest with _ | ⟨high, _ | ⟨low, more⟩⟩
          · rw [if_pos (by simp at reach; simp only; omega)]
            exact decodeTurn_stop ahead rfl holds same
          · rw [if_pos (by simp at reach; simp only; omega)]
            exact decodeTurn_stop ahead rfl holds same
          simp only [List.length_cons] at reach
          rw [if_neg (by simp only; omega)]
          apply (checked_gives here.next.first).andThen
          rintro _ _ ⟨rfl, rfl⟩
          apply (checked_gives here.next.next.first).andThen
          rintro _ _ ⟨rfl, rfl⟩
          by_cases digits : (!isHex high || !isHex low) = true
          · have bad : decodeEscapes (percent :: high :: low :: more) =
                none := by
              rw [decodeEscapes, if_pos rfl]
              exact if_pos digits
            rw [if_pos digits]
            exact decodeTurn_stop ahead bad holds same
          rw [if_neg digits]
          dsimp only
          rw [← escapedByte]
          by_cases zero : escapedByte high low = nul
          · have bad : decodeEscapes (percent :: high :: low :: more) =
                none := by
              rw [decodeEscapes, if_pos rfl]
              simp only
              rw [if_neg digits]
              exact if_pos zero
            rw [if_pos zero]
            exact decodeTurn_stop ahead bad holds same
          rw [if_neg zero]
          simp only [Bool.or_eq_true, Bool.not_eq_true', not_or,
            Bool.not_eq_false] at digits
          rw [decodeEscapes_escape digits.1 digits.2 zero,
            Option.map_map] at ahead
          simp only [List.mem_cons, not_or] at unread
          exact decodeTurn_write rfl here.next.next.next unread.2.2.2
            (by omega) (by omega) room behind clean zero ahead holds same

theorem staticFilesUrlDecode_gives {block : Block Cell} {text : Bytes}
    (holds : heap.Holds ({block} + owned))
    (reads : cString block.cells = some text)
    (same : process.allocs = heap.allocs) :
    Gives (Pointers.staticFilesUrlDecode block.address) heap
      (MakesAs ({block} + owned)
        (CinderHTTP.staticFilesUrlDecode text process)) := by
  have clean := cString_clean reads
  unfold CinderHTTP.staticFilesUrlDecode
  apply (readString_gives holds reads).andThen
  rintro _ _ ⟨rfl, rfl⟩
  apply (allocate_gives holds (text.length + 1)).andThen
  intro given middle allocated
  cases allocated with
  | refused answer kept =>
      rw [← same] at answer
      rw [process_malloc answer]
      exact .pure ⟨.failed kept, rfl⟩
  | @granted _ out answer kept =>
      rw [← same] at answer
      rw [process_malloc answer]
      have start : Decoding text out ({block} + owned) middle.allocs
          (0, 0) middle :=
        @Decoding.mk text out _ _ text [] 0 (text.length + 1) middle
          (stringAt_start text) clean (Nat.zero_add _) (Nat.zero_add _)
          (Nat.le_refl 0) (by simp) (by simp) kept rfl
      apply (iterate_gives (fun _ _ => decodeTurn_good) start
        (by simp)).andThen
      intro stop after decoded
      cases decoded with
      | bad failed holds later =>
          apply (release_gives holds).andThen
          rintro _ last ⟨freed, again⟩
          rw [failed]
          exact .pure ⟨.failed freed, again.trans later⟩
      | @good written unused _ decoded unbroken holds later =>
          apply (@fill_gives _ _ out unused written [nul]
            (holds.rearrange (by rw [List.length_singleton,
              Nat.add_comm]))).andThen
          rintro _ last ⟨done, again⟩
          have copy : cString (filledBlock out (written ++ [nul])
              unused).cells = some written := by
            rw [filledBlock, cString_filledCells, cstr_eq_self unbroken]
          rw [decoded]
          exact .pure ⟨.made copy done, again.trans later⟩

end

end Pointers

end CinderHTTP
