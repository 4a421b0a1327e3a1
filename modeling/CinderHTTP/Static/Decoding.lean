import CinderHTTP.Base.Buffer
import CinderHTTP.Static.Lexical

/-!
# Decoding is exact

`static_files_url_decode` accepts exactly the percent-encodings of texts
without NUL, whatever bytes they escape and however the digits are written,
and stops at the first escape that is not well formed.  The loop of the source
reads the input at an index that moves by one or by three and writes behind
it into a buffer that is as large as the input.
-/

namespace CinderHTTP

/-! ## Encodings -/

/-- The characters that stand for a hexadecimal digit, in either case. -/
def hexDigits (value : Nat) : Bytes :=
  [(ascii "0123456789abcdef").getD value nul,
    (ascii "0123456789ABCDEF").getD value nul]

/-- The first text is the second one with some bytes replaced by a percent
sign and their two digits, among them every percent sign. -/
inductive Encodes : Bytes → Bytes → Prop
  | nil : Encodes [] []
  | literal {character : Byte} {encoded decoded : Bytes} :
      character ≠ percent → Encodes encoded decoded →
      Encodes (character :: encoded) (character :: decoded)
  | escape {character high low : Byte} {encoded decoded : Bytes} :
      high ∈ hexDigits (character.toNat / 16) →
      low ∈ hexDigits (character.toNat % 16) → Encodes encoded decoded →
      Encodes (percent :: high :: low :: encoded) (character :: decoded)

/-- What stands behind a percent sign is two digits of a byte other than
NUL. -/
def StartsEscape (rest : Bytes) : Prop :=
  ∃ character high low more, rest = high :: low :: more ∧
    high ∈ hexDigits (character.toNat / 16) ∧
    low ∈ hexDigits (character.toNat % 16) ∧ character ≠ nul

/-- Behind an encoded beginning stands a percent sign that starts no escape.
No percent sign of the beginning is left to be read. -/
def BadEscape (input : Bytes) : Prop :=
  ∃ encoded decoded rest, input = encoded ++ percent :: rest ∧
    nul ∉ decoded ∧ Encodes encoded decoded ∧ ¬StartsEscape rest

theorem mem_hexDigits_iff (digit : Byte) {value : Nat} (small : value < 16) :
    digit ∈ hexDigits value ↔ isHex digit = true ∧ hexValue digit = value := by
  have read : ∀ value < 16, ∀ digit ∈ hexDigits value,
      isHex digit = true ∧ hexValue digit = value := by
    decide +kernel
  have written : ∀ code < 256, isHex (UInt8.ofNat code) = true →
      UInt8.ofNat code ∈ hexDigits (hexValue (UInt8.ofNat code)) := by
    decide +kernel
  constructor
  · exact read value small digit
  · rintro ⟨hex, rfl⟩
    have found := written digit.toNat digit.toNat_lt
    rw [UInt8.ofNat_toNat] at found
    exact found hex

theorem hexValue_lt (digit : Byte) : hexValue digit < 16 := by
  have table : ∀ code < 256, hexValue (UInt8.ofNat code) < 16 := by
    decide +kernel
  have found := table digit.toNat digit.toNat_lt
  rwa [UInt8.ofNat_toNat] at found

theorem escapedByte_toNat (high low : Byte) :
    (escapedByte high low).toNat = hexValue high * 16 + hexValue low := by
  have one := hexValue_lt high
  have two := hexValue_lt low
  rw [escapedByte, UInt8.toNat_ofNat']
  omega

theorem digits_iff (character high low : Byte) :
    (high ∈ hexDigits (character.toNat / 16) ∧
        low ∈ hexDigits (character.toNat % 16)) ↔
      isHex high = true ∧ isHex low = true ∧
        escapedByte high low = character := by
  have bound := character.toNat_lt
  rw [mem_hexDigits_iff high (by omega), mem_hexDigits_iff low (by omega),
    ← UInt8.toNat_inj, escapedByte_toNat]
  have one := hexValue_lt high
  have two := hexValue_lt low
  constructor
  · rintro ⟨⟨highHex, highValue⟩, lowHex, lowValue⟩
    exact ⟨highHex, lowHex, by omega⟩
  · rintro ⟨highHex, lowHex, value⟩
    exact ⟨⟨highHex, by omega⟩, lowHex, by omega⟩

theorem startsEscape_iff (rest : Bytes) :
    StartsEscape rest ↔ ∃ high low more, rest = high :: low :: more ∧
      isHex high = true ∧ isHex low = true ∧ escapedByte high low ≠ nul := by
  constructor
  · rintro ⟨character, high, low, more, same, highDigit, lowDigit, filled⟩
    obtain ⟨highHex, lowHex, rfl⟩ :=
      (digits_iff character high low).mp ⟨highDigit, lowDigit⟩
    exact ⟨high, low, more, same, highHex, lowHex, filled⟩
  · rintro ⟨high, low, more, same, highHex, lowHex, filled⟩
    obtain ⟨highDigit, lowDigit⟩ :=
      (digits_iff _ high low).mpr ⟨highHex, lowHex, rfl⟩
    exact ⟨_, high, low, more, same, highDigit, lowDigit, filled⟩

theorem Encodes.percentEncoding {encoded decoded : Bytes}
    (encodes : Encodes encoded decoded) (clean : nul ∉ decoded) :
    PercentEncoding encoded decoded := by
  induction encodes with
  | nil => exact .nil
  | literal literal _ induction =>
      exact .literal literal (induction (List.not_mem_of_not_mem_cons clean))
  | @escape character high low _ _ highDigit lowDigit _ induction =>
      obtain ⟨highHex, lowHex, rfl⟩ :=
        (digits_iff character high low).mp ⟨highDigit, lowDigit⟩
      refine .escape highHex lowHex ?_
        (induction (List.not_mem_of_not_mem_cons clean))
      intro same
      exact clean (same ▸ List.mem_cons_self)

theorem PercentEncoding.encodes {encoded decoded : Bytes}
    (encoding : PercentEncoding encoded decoded) : Encodes encoded decoded := by
  induction encoding with
  | nil => exact .nil
  | literal literal _ induction => exact .literal literal induction
  | escape highHex lowHex _ _ induction =>
      obtain ⟨highDigit, lowDigit⟩ :=
        (digits_iff _ _ _).mpr ⟨highHex, lowHex, rfl⟩
      exact .escape highDigit lowDigit induction

/-- Only a NUL of the input is decoded to NUL. -/
theorem PercentEncoding.nul_not_mem {encoded decoded : Bytes}
    (encoding : PercentEncoding encoded decoded) (clean : nul ∉ encoded) :
    nul ∉ decoded := by
  induction encoding with
  | nil => exact clean
  | literal _ _ induction =>
      rw [List.mem_cons, not_or] at clean ⊢
      exact ⟨clean.1, induction clean.2⟩
  | escape _ _ filled _ induction =>
      simp only [List.mem_cons, not_or] at clean ⊢
      exact ⟨filled.symm, induction clean.2.2.2⟩

theorem isHex_ne_percent {digit : Byte} (hex : isHex digit = true) :
    digit ≠ percent := by
  rintro rfl
  exact absurd hex (by decide)

/-- Every percent sign starts an escape, and an escape is three bytes for
one. -/
theorem PercentEncoding.length_eq {encoded decoded : Bytes}
    (encoding : PercentEncoding encoded decoded) :
    decoded.length + 2 * encoded.count percent = encoded.length := by
  induction encoding with
  | nil => rfl
  | literal literal _ induction =>
      rw [List.count_cons_of_ne literal, List.length_cons, List.length_cons]
      omega
  | escape highHex lowHex _ _ induction =>
      rw [List.count_cons_self, List.count_cons_of_ne (isHex_ne_percent highHex),
        List.count_cons_of_ne (isHex_ne_percent lowHex)]
      simp only [List.length_cons]
      omega

/-! ## Bad escapes -/

theorem decodeEscapes_percent_eq_none {rest : Bytes}
    (bad : ¬StartsEscape rest) : decodeEscapes (percent :: rest) = none := by
  rw [startsEscape_iff] at bad
  match rest with
  | [] => rfl
  | [_] => rfl
  | high :: low :: more =>
      rw [decodeEscapes, if_pos rfl]
      simp only
      split_ifs with hex value
      · rfl
      · rfl
      · simp only [Bool.or_eq_true, Bool.not_eq_true', not_or,
          Bool.not_eq_false] at hex
        exact absurd ⟨high, low, more, rfl, hex.1, hex.2, value⟩ bad

/-- The decoder stops at the first percent sign it reads that starts no
escape. -/
theorem decodeEscapes_eq_none_iff (input : Bytes) :
    decodeEscapes input = none ↔
      ∃ encoded decoded rest, input = encoded ++ percent :: rest ∧
        PercentEncoding encoded decoded ∧ ¬StartsEscape rest := by
  constructor
  · intro stopped
    fun_induction decodeEscapes input with
    | case1 => cases stopped
    | case2 high low more hex =>
        refine ⟨[], [], high :: low :: more, rfl, .nil, ?_⟩
        rw [startsEscape_iff]
        rintro ⟨high', low', more', same, highHex, lowHex, -⟩
        cases same
        simp [highHex, lowHex] at hex
    | case3 high low more hex value isNul =>
        refine ⟨[], [], high :: low :: more, rfl, .nil, ?_⟩
        rw [startsEscape_iff]
        rintro ⟨high', low', more', same, -, -, filled⟩
        cases same
        exact filled isNul
    | case4 high low more hex value filled induction =>
        obtain ⟨encoded, decoded, rest, rfl, encoding, bad⟩ :=
          induction (Option.map_eq_none_iff.mp stopped)
        simp only [Bool.or_eq_true, Bool.not_eq_true', not_or,
          Bool.not_eq_false] at hex
        exact ⟨percent :: high :: low :: encoded, value :: decoded, rest, rfl,
          .escape hex.1 hex.2 filled encoding, bad⟩
    | case5 rest short =>
        refine ⟨[], [], rest, rfl, .nil, ?_⟩
        rintro ⟨_, high, low, more, same, -⟩
        exact short high low more same
    | case6 character rest literal induction =>
        obtain ⟨encoded, decoded, rest, rfl, encoding, bad⟩ :=
          induction (Option.map_eq_none_iff.mp stopped)
        exact ⟨character :: encoded, character :: decoded, rest, rfl,
          .literal literal encoding, bad⟩
  · rintro ⟨encoded, decoded, rest, rfl, encoding, bad⟩
    rw [encoding.decodeEscapes_append, decodeEscapes_percent_eq_none bad,
      Option.map_none]

/-! ## The loop over indices -/

/-- The loop of the source.  A write outside the buffer gives nothing. -/
def decodeInto (input : Bytes) (i : Nat) (out : Bytes) (oi : Nat) :
    Option (Except StaticFileError (Bytes × Nat)) :=
  if inside : i < input.length then
    if input[i] = percent then
      if long : i + 2 ≥ input.length then some (.error .badTarget)
      else if !isHex input[i + 1] || !isHex input[i + 2] then
        some (.error .badTarget)
      else
        let decoded := escapedByte input[i + 1] input[i + 2]
        if decoded = nul then some (.error .badTarget)
        else
          (copyAt out oi [decoded]).bind fun out =>
            decodeInto input (i + 3) out (oi + 1)
    else
      (copyAt out oi [input[i]]).bind fun out =>
        decodeInto input (i + 1) out (oi + 1)
  else (copyAt out oi [nul]).map fun out => .ok (out, oi)
termination_by input.length - i

/-- What the loop returns when the bytes it has not read decode so, with the
bytes written so far and the rest of the buffer. -/
def loopAnswer (done rest : Bytes) :
    Option Bytes → Except StaticFileError (Bytes × Nat)
  | none => .error .badTarget
  | some decoded =>
      .ok (done ++ decoded ++ nul :: rest.drop (decoded.length + 1),
        done.length + decoded.length)

theorem loopAnswer_push (done rest : Bytes) (character : Byte)
    (decoding : Option Bytes) :
    loopAnswer (done ++ [character]) (rest.drop 1) decoding =
      loopAnswer done rest (decoding.map (character :: ·)) := by
  cases decoding with
  | none => rfl
  | some decoded =>
      simp [loopAnswer, Nat.add_comm, Nat.add_left_comm]

/-- The bytes written are never more than the bytes read, so the buffer does
not end before the input. -/
structure Writing (input out : Bytes) (i oi : Nat) (done rest : Bytes) :
    Prop where
  split : out = done ++ rest
  cursor : oi = done.length
  behind : oi ≤ i
  inside : i ≤ input.length
  sized : out.length = input.length + 1

namespace Writing

variable {input out done rest : Bytes} {i oi : Nat}

theorem start (sized : out.length = input.length + 1) :
    Writing input out 0 0 [] out :=
  ⟨rfl, rfl, Nat.le_refl 0, Nat.zero_le _, sized⟩

theorem room (writing : Writing input out i oi done rest) :
    1 ≤ rest.length := by
  have total := writing.sized
  have behind := writing.behind
  have inside := writing.inside
  rw [writing.split, List.length_append, ← writing.cursor] at total
  omega

theorem put (writing : Writing input out i oi done rest) (character : Byte) :
    copyAt out oi [character] = some (done ++ [character] ++ rest.drop 1) := by
  rw [writing.split, writing.cursor]
  exact copyAt_append writing.room

theorem next (writing : Writing input out i oi done rest) (character : Byte)
    {later : Nat} (advanced : i < later) (inside : later ≤ input.length) :
    Writing input (done ++ [character] ++ rest.drop 1) later (oi + 1)
      (done ++ [character]) (rest.drop 1) := by
  have behind := writing.behind
  have room := writing.room
  have total := writing.sized
  rw [writing.split, List.length_append] at total
  refine ⟨rfl, ?_, by omega, inside, ?_⟩
  · rw [writing.cursor, List.length_append, List.length_singleton]
  · simp only [List.length_append, List.length_singleton, List.length_drop]
    omega

end Writing

theorem decodeInto_eq {input out done rest : Bytes} {i oi : Nat}
    (writing : Writing input out i oi done rest) :
    decodeInto input i out oi =
      some (loopAnswer done rest (decodeEscapes (input.drop i))) := by
  fun_induction decodeInto input i out oi generalizing done rest with
  | case1 i out oi more escape short =>
      rw [List.drop_eq_getElem_cons more, escape,
        decodeEscapes_percent_eq_none]
      · rfl
      · rintro ⟨_, high, low, tail, same, -⟩
        have long := congrArg List.length same
        simp only [List.length_drop, List.length_cons] at long
        omega
  | case2 i out oi more escape long hex =>
      have second : i + 1 < input.length := by omega
      have third : i + 1 + 1 < input.length := by omega
      rw [List.drop_eq_getElem_cons more, escape,
        decodeEscapes_percent_eq_none]
      · rfl
      · rw [List.drop_eq_getElem_cons second,
          List.drop_eq_getElem_cons third, startsEscape_iff]
        rintro ⟨high, low, tail, same, highHex, lowHex, -⟩
        cases same
        simp [highHex, lowHex] at hex
  | case3 i out oi more escape long hex decoded =>
      rename_i isNul
      have second : i + 1 < input.length := by omega
      have third : i + 1 + 1 < input.length := by omega
      rw [List.drop_eq_getElem_cons more, escape,
        decodeEscapes_percent_eq_none]
      · rfl
      · rw [List.drop_eq_getElem_cons second,
          List.drop_eq_getElem_cons third, startsEscape_iff]
        rintro ⟨high, low, tail, same, -, -, filled⟩
        cases same
        exact filled isNul
  | case4 i out oi more escape long hex decoded filled =>
      rename_i induction
      have second : i + 1 < input.length := by omega
      have third : i + 1 + 1 < input.length := by omega
      simp only [Bool.or_eq_true, Bool.not_eq_true', not_or,
        Bool.not_eq_false] at hex
      rw [writing.put, Option.bind_some,
        induction _ (writing.next decoded (by omega) (by omega)),
        loopAnswer_push, List.drop_eq_getElem_cons more, escape,
        List.drop_eq_getElem_cons second, List.drop_eq_getElem_cons third,
        decodeEscapes_escape hex.1 hex.2 filled]
  | case5 i out oi more literal induction =>
      rw [writing.put, Option.bind_some,
        induction _ (writing.next input[i] (by omega) (by omega)),
        loopAnswer_push, List.drop_eq_getElem_cons more,
        decodeEscapes_literal literal]
  | case6 i out oi finished =>
      have nothing : input.drop i = [] :=
        List.drop_eq_nil_of_le (Nat.le_of_not_lt finished)
      rw [writing.put, nothing, writing.cursor]
      simp [loopAnswer, decodeEscapes]

/-! ## The function -/

theorem staticFilesUrlDecode_granted (input : Bytes) {process : Process}
    (granted : process.allocs = []) :
    staticFilesUrlDecode input process =
      (match decodeEscapes input with
        | none => .error .badTarget
        | some decoded => .ok decoded, process) := by
  unfold staticFilesUrlDecode
  rw [Process.malloc_granted granted]
  cases decodeEscapes input with
  | none => rfl
  | some decoded => rfl

theorem badEscape_iff {input : Bytes} (clean : nul ∉ input) :
    BadEscape input ↔ decodeEscapes input = none := by
  rw [decodeEscapes_eq_none_iff]
  constructor
  · rintro ⟨encoded, decoded, rest, same, filled, encodes, bad⟩
    exact ⟨encoded, decoded, rest, same, encodes.percentEncoding filled, bad⟩
  · rintro ⟨encoded, decoded, rest, rfl, encoding, bad⟩
    have front : nul ∉ encoded := by
      intro member
      exact clean (List.mem_append_left _ member)
    exact ⟨encoded, decoded, rest, rfl, encoding.nul_not_mem front,
      encoding.encodes, bad⟩

/-- Decoding inverts every encoding and accepts nothing else, and the loop
that computes it stays inside a buffer of the size of its input. -/
theorem staticFilesUrlDecode_exact (input : Bytes) {process : Process}
    (granted : process.allocs = []) :
    (∀ decoded, nul ∉ decoded → Encodes input decoded →
      staticFilesUrlDecode input process = (.ok decoded, process)) ∧
    (∀ decoded later,
      staticFilesUrlDecode input process = (.ok decoded, later) →
        Encodes input decoded ∧ (nul ∉ input → nul ∉ decoded) ∧
        decoded.length + 2 * input.count percent = input.length) ∧
    (nul ∉ input →
      (staticFilesUrlDecode input process = (.error .badTarget, process) ↔
        BadEscape input)) ∧
    ∀ out, out.length = input.length + 1 →
      match (staticFilesUrlDecode input process).1 with
      | .error failure => decodeInto input 0 out 0 = some (.error failure)
      | .ok decoded => ∃ unused, decodeInto input 0 out 0 =
          some (.ok (decoded ++ nul :: unused, decoded.length)) := by
  refine ⟨?_, ?_, ?_, ?_⟩
  · intro decoded clean encodes
    rw [staticFilesUrlDecode_granted input granted,
      (encodes.percentEncoding clean).decodeEscapes_eq]
  · intro decoded later success
    have encoding := staticFilesUrlDecode_ok success
    exact ⟨encoding.encodes, encoding.nul_not_mem, encoding.length_eq⟩
  · intro clean
    rw [badEscape_iff clean, staticFilesUrlDecode_granted input granted]
    cases decodeEscapes input with
    | none => simp
    | some decoded => simp
  · intro out sized
    have loop := decodeInto_eq (Writing.start sized)
    rw [List.drop_zero] at loop
    rw [staticFilesUrlDecode_granted input granted]
    cases decoding : decodeEscapes input with
    | none =>
        rw [decoding] at loop
        exact loop
    | some decoded =>
        rw [decoding] at loop
        exact ⟨out.drop (decoded.length + 1), by simpa [loopAnswer] using loop⟩

/-- An escaped percent sign is not decoded again. -/
theorem staticFilesUrlDecode_exact_percent :
    staticFilesUrlDecode (ascii "a%2541%2fb") {} =
      (.ok (ascii "a%41/b"), {}) := by
  have granted : ({} : Process).allocs = [] := rfl
  refine (staticFilesUrlDecode_exact (ascii "a%2541%2fb") granted).1
    (ascii "a%41/b") (by decide) ?_
  refine .literal (by decide) (.escape (by decide) (by decide) ?_)
  refine .literal (by decide) (.literal (by decide) ?_)
  exact .escape (by decide) (by decide) (.literal (by decide) .nil)

end CinderHTTP
