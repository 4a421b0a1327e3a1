import CinderHTTP.Base.Decimal

/-!
# Flat objects of numbers

Texts of the form `\x7b"name":number,...\x7d`, which are JSON objects whose
values are natural numbers.  `readObject` gives back the members of an object
that `writeObject` has written, whatever the numbers are.
-/

namespace CinderHTTP

def quote : Byte := 34
def openBrace : Byte := 123
def closeBrace : Byte := 125

/-- A name and its number. -/
abbrev Member := Bytes × Nat

/-! ## Writing -/

def writeMember (member : Member) : Bytes :=
  quote :: (member.1 ++ quote :: colon :: decimal member.2)

/-- The members behind the first one, and the end. -/
def writeOthers : List Member → Bytes
  | [] => [closeBrace]
  | member :: others => comma :: (writeMember member ++ writeOthers others)

def writeObject : List Member → Bytes
  | [] => [openBrace, closeBrace]
  | member :: others =>
      openBrace :: (writeMember member ++ writeOthers others)

/-! ## Reading -/

def readMember : Bytes → Option (Member × Bytes)
  | [] => none
  | first :: rest =>
      if first ≠ quote then none
      else
        match cutFirst quote rest with
        | some (name, second :: behind) =>
            if second ≠ colon ∨ behind.takeWhile isDigit = [] then none
            else
              some ((name, decimalValue (behind.takeWhile isDigit)),
                behind.dropWhile isDigit)
        | _ => none

theorem readMember_length {text rest : Bytes} {member : Member}
    (success : readMember text = some (member, rest)) :
    rest.length < text.length := by
  unfold readMember at success
  split at success
  · cases success
  · rename_i first behind
    split_ifs at success
    split at success
    · rename_i name second digits cut
      split_ifs at success
      simp only [Option.some.injEq, Prod.mk.injEq] at success
      obtain ⟨whole, _⟩ := cutFirst_eq_some_iff.mp cut
      have shorter := (List.dropWhile_suffix isDigit (l := digits)).length_le
      rw [← success.2, whole]
      simp only [List.length_cons, List.length_append]
      omega
    · cases success

def readOthers (text : Bytes) : Option (List Member) :=
  match text with
  | [] => none
  | first :: rest =>
      if first = closeBrace then (if rest = [] then some [] else none)
      else if first = comma then
        match _member : readMember rest with
        | none => none
        | some (member, behind) =>
            (readOthers behind).map (member :: ·)
      else none
termination_by text.length
decreasing_by
  have shorter := readMember_length _member
  simp only [List.length_cons]
  omega

def readObject : Bytes → Option (List Member)
  | [] => none
  | first :: rest =>
      if first ≠ openBrace then none
      else if rest = [closeBrace] then some []
      else
        match readMember rest with
        | none => none
        | some (member, behind) =>
            (readOthers behind).map (member :: ·)

/-! ## The round trip -/

theorem isDigit_decimal_takeWhile (value : Nat) {first : Byte}
    (other : isDigit first = false) (rest : Bytes) :
    (decimal value ++ first :: rest).takeWhile isDigit = decimal value ∧
      (decimal value ++ first :: rest).dropWhile isDigit = first :: rest := by
  have digits : ∀ digit ∈ decimal value, isDigit digit = true :=
    fun digit => isDigit_of_mem_decimal
  constructor
  · rw [List.takeWhile_append_of_pos digits, List.takeWhile_cons_of_neg,
      List.append_nil]
    simp [other]
  · rw [List.dropWhile_append_of_pos digits, List.dropWhile_cons_of_neg]
    simp [other]

theorem readMember_append {member : Member} (plain : quote ∉ member.1)
    {first : Byte} (other : isDigit first = false) (rest : Bytes) :
    readMember (writeMember member ++ first :: rest) =
      some (member, first :: rest) := by
  obtain ⟨number, behind⟩ :=
    isDigit_decimal_takeWhile member.2 other rest
  have shape : writeMember member ++ first :: rest =
      quote :: (member.1 ++ quote ::
        (colon :: (decimal member.2 ++ first :: rest))) := by
    simp [writeMember]
  rw [shape, readMember, if_neg (by simp), cutFirst_append_cons plain]
  simp only [number, behind, decimalValue_decimal]
  rw [if_neg (by simp [decimal_ne_nil])]

theorem writeOthers_front (others : List Member) :
    ∃ first rest, writeOthers others = first :: rest ∧
      isDigit first = false := by
  cases others with
  | nil => exact ⟨closeBrace, [], rfl, by decide⟩
  | cons member others => exact ⟨comma, _, rfl, by decide⟩

theorem readOthers_writeOthers {others : List Member}
    (plain : ∀ member ∈ others, quote ∉ member.1) :
    readOthers (writeOthers others) = some others := by
  induction others with
  | nil => simp [writeOthers, readOthers]
  | cons member others induction =>
      have rest := induction fun other inside =>
        plain other (List.mem_cons_of_mem _ inside)
      obtain ⟨first, behind, shape, other⟩ := writeOthers_front others
      have read := readMember_append (plain member List.mem_cons_self) other
        behind
      rw [← shape] at read
      rw [writeOthers, readOthers, if_neg (by decide), if_pos rfl]
      split
      · rename_i failed
        rw [read] at failed
        cases failed
      · rename_i found later success
        rw [read] at success
        cases success
        rw [rest, Option.map_some]

/-- What was written is read. -/
theorem readObject_writeObject {members : List Member}
    (plain : ∀ member ∈ members, quote ∉ member.1) :
    readObject (writeObject members) = some members := by
  cases members with
  | nil => rfl
  | cons member others =>
      have rest := readOthers_writeOthers fun other inside =>
        plain other (List.mem_cons_of_mem _ inside)
      obtain ⟨first, behind, shape, other⟩ := writeOthers_front others
      have read := readMember_append (plain member List.mem_cons_self) other
        behind
      rw [← shape] at read
      have filled : writeMember member ++ writeOthers others ≠
          [closeBrace] := by
        simp [writeMember]
      rw [writeObject, readObject, if_neg (by simp), if_neg filled, read]
      simp only [rest, Option.map_some]

end CinderHTTP
