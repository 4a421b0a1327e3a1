import CinderHTTP.Reader.Loop

/-!
# Framing a whole stream

`frameStream` cuts a byte stream that ends with end-of-file into messages,
without any buffer: it repeats `frameHead`, the framing of the first message.
A verdict of `frameHead` other than that the message is unfinished does not
depend on the bytes that follow, which is what allows a reader to decide on
the bytes it has.
-/

namespace CinderHTTP

/-- The length of the first message of a stream that ends with end-of-file,
or the final result. -/
def frameHead (stream : Bytes) : Except ReadError Nat :=
  match httpFindHeaderTerminator stream with
  | none =>
      if stream.length ≥ httpMaxHeaderBytes then .error .tooLarge
      else .error .clientClosed
  | some terminator =>
      if terminator + 4 > httpMaxHeaderBytes then .error .tooLarge
      else
        match (httpInspectMessageFraming (stream.take (terminator + 4))
            []).1 with
        | .error failure => .error (mapFramingError failure)
        | .ok bodyLength =>
            if stream.length < terminator + 4 + bodyLength then
              .error .clientClosed
            else .ok (terminator + 4 + bodyLength)

theorem mapFramingError_ne_clientClosed (failure : ParseError) :
    mapFramingError failure ≠ .clientClosed := by
  cases failure <;> simp [mapFramingError]

theorem mapFramingError_ne_ioError (failure : ParseError) :
    mapFramingError failure ≠ .ioError := by
  cases failure <;> simp [mapFramingError]

theorem frameHead_eq_ok_iff {stream : Bytes} {length : Nat} :
    frameHead stream = .ok length ↔
      ∃ terminator bodyLength,
        httpFindHeaderTerminator stream = some terminator ∧
        terminator + 4 ≤ httpMaxHeaderBytes ∧
        (httpInspectMessageFraming (stream.take (terminator + 4)) []).1 =
          .ok bodyLength ∧
        length = terminator + 4 + bodyLength ∧
        length ≤ stream.length := by
  unfold frameHead
  cases found : httpFindHeaderTerminator stream with
  | none =>
      simp only [reduceCtorEq, false_and, exists_false, iff_false]
      split_ifs <;> simp
  | some terminator =>
      simp only [Option.some.injEq]
      constructor
      · intro success
        split_ifs at success with long
        cases framing : (httpInspectMessageFraming
            (stream.take (terminator + 4)) []).1 with
        | error failure => simp [framing] at success
        | ok bodyLength =>
            simp only [framing] at success
            split_ifs at success with short
            simp only [Except.ok.injEq] at success
            exact ⟨terminator, bodyLength, rfl, by omega, framing,
              success.symm, by omega⟩
      · rintro ⟨_, bodyLength, rfl, small, framing, rfl, covered⟩
        rw [if_neg (by omega), framing]
        simp only
        rw [if_neg (by omega)]

theorem frameHead_incomplete {stream : Bytes}
    (incomplete : frameHead stream = .error .clientClosed) :
    (httpFindHeaderTerminator stream = none ∧
      stream.length < httpMaxHeaderBytes) ∨
    ∃ terminator bodyLength,
      httpFindHeaderTerminator stream = some terminator ∧
      terminator + 4 ≤ httpMaxHeaderBytes ∧
      (httpInspectMessageFraming (stream.take (terminator + 4)) []).1 =
        .ok bodyLength ∧
      stream.length < terminator + 4 + bodyLength := by
  unfold frameHead at incomplete
  cases found : httpFindHeaderTerminator stream with
  | none =>
      simp only [found] at incomplete
      by_cases long : stream.length ≥ httpMaxHeaderBytes
      · simp [long] at incomplete
      · exact .inl ⟨rfl, by omega⟩
  | some terminator =>
      right
      simp only [found] at incomplete
      by_cases long : terminator + 4 > httpMaxHeaderBytes
      · simp [long] at incomplete
      rw [if_neg long] at incomplete
      cases framing : (httpInspectMessageFraming
          (stream.take (terminator + 4)) []).1 with
      | error failure =>
          simp only [framing, Except.error.injEq] at incomplete
          exact absurd incomplete (mapFramingError_ne_clientClosed failure)
      | ok bodyLength =>
          simp only [framing] at incomplete
          split_ifs at incomplete with short
          exact ⟨terminator, bodyLength, rfl, by omega, framing, short⟩

/-- A settled verdict does not depend on the bytes behind those it was
reached on. -/
theorem frameHead_append {stream : Bytes}
    (settled : frameHead stream ≠ .error .clientClosed) (more : Bytes) :
    frameHead (stream ++ more) = frameHead stream := by
  cases found : httpFindHeaderTerminator stream with
  | none =>
      have long : stream.length ≥ httpMaxHeaderBytes := by
        by_contra short
        exact settled (by simp [frameHead, found, short])
      have longer : (stream ++ more).length ≥ httpMaxHeaderBytes := by
        rw [List.length_append]
        omega
      cases later : httpFindHeaderTerminator (stream ++ more) with
      | none => simp only [frameHead, found, later, long, longer, if_true]
      | some terminator =>
          -- the terminator reaches beyond the limit already passed
          have late : stream.length < terminator + 4 :=
            findInfix_append_late found later
          simp only [frameHead, found, later, long, if_true]
          rw [if_pos (by omega)]
  | some terminator =>
      have later : httpFindHeaderTerminator (stream ++ more) =
          some terminator := findInfix_append found more
      have covered : terminator + 4 ≤ stream.length := findInfix_bound found
      have header : (stream ++ more).take (terminator + 4) =
          stream.take (terminator + 4) :=
        List.take_append_of_le_length covered
      unfold frameHead at settled ⊢
      simp only [found, later, header] at settled ⊢
      split_ifs at settled ⊢ with long
      · rfl
      · cases framing : (httpInspectMessageFraming
            (stream.take (terminator + 4)) []).1 with
        | error failure => rfl
        | ok bodyLength =>
            simp only [framing] at settled ⊢
            split_ifs at settled with short
            · exact absurd rfl settled
            · rw [if_neg short, if_neg (by rw [List.length_append]; omega)]

theorem frameHead_pos {stream : Bytes} {length : Nat}
    (framed : frameHead stream = .ok length) :
    0 < length ∧ length ≤ stream.length := by
  obtain ⟨terminator, bodyLength, _, _, _, rfl, covered⟩ :=
    frameHead_eq_ok_iff.mp framed
  omega

/-- The messages of a stream that ends with end-of-file, followed by the
final result. -/
def frameStream (stream : Bytes) : List (Except ReadError Bytes) :=
  match _framed : frameHead stream with
  | .error failure => [.error failure]
  | .ok length => .ok (stream.take length) :: frameStream (stream.drop length)
termination_by stream.length
decreasing_by
  have bounds := frameHead_pos _framed
  rw [List.length_drop]
  omega

end CinderHTTP
