import CinderHTTP.Base.Lines
import Mathlib.Data.Nat.Digits.Lemmas

/-!
# Decimal numerals as byte strings

`decimal` writes a natural number the way `%zu` does, `signedDecimal` an
integer the way `%d` does, and `decimalValue` reads a string of digits.
Leading zeros are read and never written.
-/

namespace CinderHTTP

/-- The digit `0` to `9`. -/
def isDigit (digit : Byte) : Bool :=
  byte '0' ≤ digit && digit ≤ byte '9'

def digitByte (digit : Nat) : Byte :=
  UInt8.ofNat (48 + digit)

def digitValue (digit : Byte) : Nat :=
  digit.toNat - 48

/-- The number denoted by a string of digits, most significant first. -/
def decimalValue (digits : Bytes) : Nat :=
  digits.foldl (fun value digit => value * 10 + digitValue digit) 0

/-- The numeral of a natural number, without leading zeros. -/
def decimal (value : Nat) : Bytes :=
  if value = 0 then [byte '0']
  else (Nat.digits 10 value).reverse.map digitByte

/-- The numeral of an integer, as `%d` writes it. -/
def signedDecimal (value : Int) : Bytes :=
  if value < 0 then byte '-' :: decimal value.natAbs
  else decimal value.natAbs

theorem digitValue_digitByte {digit : Nat} (small : digit < 10) :
    digitValue (digitByte digit) = digit := by
  have bounded : 48 + digit < 256 := by omega
  simp [digitValue, digitByte, Nat.mod_eq_of_lt bounded]

theorem isDigit_digitByte {digit : Nat} (small : digit < 10) :
    isDigit (digitByte digit) = true := by
  have bounded : 48 + digit < 256 := by omega
  simp only [isDigit, digitByte, byte, UInt8.le_iff_toNat_le,
    UInt8.toNat_ofNat', Nat.mod_eq_of_lt bounded, Bool.and_eq_true,
    decide_eq_true_eq]
  constructor
  · change 48 ≤ 48 + digit
    omega
  · change 48 + digit ≤ 57
    omega

theorem decimalValue_map_digitByte {digits : List Nat}
    (small : ∀ digit ∈ digits, digit < 10) :
    decimalValue (digits.reverse.map digitByte) = Nat.ofDigits 10 digits := by
  induction digits with
  | nil => rfl
  | cons digit digits induction =>
      have tailSmall : ∀ later ∈ digits, later < 10 := fun later member =>
        small later (List.mem_cons_of_mem _ member)
      have unfolded :
          decimalValue (((digit :: digits).reverse).map digitByte) =
            decimalValue (digits.reverse.map digitByte) * 10 +
              digitValue (digitByte digit) := by
        simp [decimalValue, List.foldl_append]
      rw [unfolded, induction tailSmall,
        digitValue_digitByte (small digit (by simp)), Nat.ofDigits_cons]
      omega

/-- A written numeral reads back as its number. -/
theorem decimalValue_decimal (value : Nat) :
    decimalValue (decimal value) = value := by
  by_cases zero : value = 0
  · subst zero
    decide
  · rw [decimal, if_neg zero, decimalValue_map_digitByte
      (fun digit member => Nat.digits_lt_base (by decide) member),
      Nat.ofDigits_digits]

theorem isDigit_of_mem_decimal {value : Nat} {digit : Byte}
    (member : digit ∈ decimal value) : isDigit digit = true := by
  by_cases zero : value = 0
  · have only : digit = byte '0' := by simpa [decimal, zero] using member
    rw [only]
    decide
  · rw [decimal, if_neg zero, List.mem_map] at member
    obtain ⟨number, numberMember, rfl⟩ := member
    exact isDigit_digitByte
      (Nat.digits_lt_base (by decide) (List.mem_reverse.mp numberMember))

theorem decimal_ne_nil (value : Nat) : decimal value ≠ [] := by
  by_cases zero : value = 0
  · simp [decimal, zero]
  · simp [decimal, zero, Nat.digits_ne_nil_iff_ne_zero]

theorem decimal_length_le {value width : Nat} (positive : 0 < width)
    (bounded : value < 10 ^ width) : (decimal value).length ≤ width := by
  by_cases zero : value = 0
  · simp only [decimal, zero, if_true, List.length_singleton]
    omega
  · have digits := (Nat.digits_length_le_iff (by decide) value).mpr bounded
    simpa [decimal, zero] using digits

end CinderHTTP
