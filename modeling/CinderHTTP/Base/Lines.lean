import CinderHTTP.Base.Search

/-!
# Lines that end in CRLF

A byte string is read line by line: a line runs up to the first LF, which
must be preceded by a CR.  `takeLine` cuts off one line and `joinLines` is
its inverse on line-feed-free lines.  A section of lines is closed by a blank
line, so its end is the first occurrence of CRLF CRLF;
`findInfix_blankLine_joinLines` computes where that is.
-/

namespace CinderHTTP

abbrev Byte := UInt8

abbrev Bytes := List UInt8

/-- The bytes of a text of ASCII characters. -/
def ascii (text : String) : Bytes :=
  text.toList.map fun character => UInt8.ofNat character.toNat

/-- The byte of one ASCII character. -/
def byte (character : Char) : Byte :=
  UInt8.ofNat character.toNat

def nul : Byte := 0
def tab : Byte := 9
def lf : Byte := 10
def cr : Byte := 13
def space : Byte := 32
def colon : Byte := 58
def slash : Byte := 47
def dot : Byte := 46
def comma : Byte := 44
def percent : Byte := 37
def hash : Byte := 35
def question : Byte := 63

def crlf : Bytes := [cr, lf]

/-- The end of a section of lines: the line end of its last line followed by
a blank line. -/
def blankLine : Bytes := [cr, lf, cr, lf]

/-- One line without its CRLF, and what follows it. -/
def takeLine (cursor : Bytes) : Option (Bytes × Bytes) :=
  match cutFirst lf cursor with
  | none => none
  | some (before, after) =>
      if before.getLast? = some cr then some (before.dropLast, after)
      else none

/-- Lines written one after the other, each closed by CRLF. -/
def joinLines (lines : List Bytes) : Bytes :=
  lines.flatMap fun line => line ++ crlf

@[simp] theorem joinLines_nil : joinLines [] = [] := rfl

@[simp] theorem joinLines_cons (line : Bytes) (lines : List Bytes) :
    joinLines (line :: lines) = line ++ crlf ++ joinLines lines := rfl

@[simp] theorem joinLines_append (first second : List Bytes) :
    joinLines (first ++ second) = joinLines first ++ joinLines second := by
  simp [joinLines]

theorem takeLine_append {line : Bytes} (unbroken : lf ∉ line)
    (rest : Bytes) : takeLine (line ++ crlf ++ rest) = some (line, rest) := by
  have shape : line ++ crlf ++ rest = (line ++ [cr]) ++ lf :: rest := by
    simp [crlf]
  have absent : lf ∉ line ++ [cr] := by
    simp only [List.mem_append, List.mem_singleton, not_or]
    exact ⟨unbroken, by decide⟩
  rw [shape, takeLine, cutFirst_append_cons absent]
  simp

theorem takeLine_eq_some_iff {cursor line rest : Bytes} :
    takeLine cursor = some (line, rest) ↔
      cursor = line ++ crlf ++ rest ∧ lf ∉ line := by
  constructor
  · intro success
    unfold takeLine at success
    split at success
    · simp at success
    · rename_i before after cut
      obtain ⟨rfl, absent⟩ := cutFirst_eq_some_iff.mp cut
      split at success
      · rename_i closed
        simp only [Option.some.injEq, Prod.mk.injEq] at success
        obtain ⟨rfl, rfl⟩ := success
        obtain ⟨content, rfl⟩ := List.getLast?_eq_some_iff.mp closed
        refine ⟨by simp [crlf], ?_⟩
        intro member
        exact absent (List.mem_append_left _ (by simpa using member))
      · simp at success
  · rintro ⟨rfl, unbroken⟩
    exact takeLine_append unbroken rest

theorem takeLine_length {cursor line rest : Bytes}
    (success : takeLine cursor = some (line, rest)) :
    rest.length < cursor.length := by
  obtain ⟨rfl, _⟩ := takeLine_eq_some_iff.mp success
  simp [crlf]
  omega

/-- No pattern with LF in second place starts at a byte of a line: the byte
behind it is either another byte of the line or the CR that closes it. -/
theorem not_prefix_of_second_lf {head first : Byte} {tail rest more : Bytes}
    (unbroken : lf ∉ tail) :
    ¬first :: lf :: more <+: head :: (tail ++ crlf ++ rest) := by
  intro occurs
  have afterHead := (List.cons_prefix_cons.mp occurs).2
  cases tail with
  | nil =>
      have same := (List.cons_prefix_cons.mp afterHead).1
      exact absurd same (by decide)
  | cons next others =>
      have same := (List.cons_prefix_cons.mp afterHead).1
      exact unbroken (by simp [same])

theorem not_crlf_prefix_line {line rest : Bytes} (nonempty : line ≠ [])
    (unbroken : lf ∉ line) : ¬crlf <+: line ++ crlf ++ rest := by
  cases line with
  | nil => exact absurd rfl nonempty
  | cons head tail =>
      exact not_prefix_of_second_lf fun member =>
        unbroken (List.mem_cons_of_mem _ member)

/-- A line followed by no blank line hides no section end: the search
continues behind it. -/
theorem findInfix_blankLine_line {line rest : Bytes}
    (unbroken : lf ∉ line) (continued : ¬crlf <+: rest) :
    findInfix blankLine (line ++ crlf ++ rest) =
      (findInfix blankLine rest).map (· + (line.length + 2)) := by
  induction line with
  | nil =>
      have first : ¬blankLine <+: cr :: lf :: rest := by
        intro occurs
        apply continued
        simpa [blankLine, crlf, List.cons_prefix_cons] using occurs
      have second : ¬blankLine <+: lf :: rest := by
        intro occurs
        exact absurd (List.cons_prefix_cons.mp occurs).1 (by decide)
      simp only [List.nil_append, crlf, List.cons_append]
      rw [findInfix_cons_skip first, findInfix_cons_skip second]
      simp [Function.comp_def]
  | cons head tail induction =>
      have tailUnbroken : lf ∉ tail := fun member =>
        unbroken (List.mem_cons_of_mem _ member)
      have absent : ¬blankLine <+: head :: (tail ++ crlf ++ rest) :=
        not_prefix_of_second_lf tailUnbroken
      rw [List.cons_append, List.cons_append,
        findInfix_cons_skip absent, induction tailUnbroken,
        Option.map_map]
      congr 1

/-- A line followed by a blank line ends its section. -/
theorem findInfix_blankLine_last {line rest : Bytes}
    (unbroken : lf ∉ line) :
    findInfix blankLine (line ++ crlf ++ (crlf ++ rest)) =
      some line.length := by
  induction line with
  | nil =>
      exact findInfix_at_start ⟨rest, by simp [blankLine, crlf]⟩
  | cons head tail induction =>
      have tailUnbroken : lf ∉ tail := fun member =>
        unbroken (List.mem_cons_of_mem _ member)
      have absent :
          ¬blankLine <+: head :: (tail ++ crlf ++ (crlf ++ rest)) :=
        not_prefix_of_second_lf tailUnbroken
      rw [List.cons_append, List.cons_append,
        findInfix_cons_skip absent, induction tailUnbroken]
      rfl

/-- The blank line behind a section of nonempty lines is the first
occurrence of CRLF CRLF. -/
theorem findInfix_blankLine_joinLines
    {first : Bytes} {lines : List Bytes} (body : Bytes)
    (firstUnbroken : lf ∉ first)
    (unbroken : ∀ line ∈ lines, lf ∉ line)
    (nonempty : ∀ line ∈ lines, line ≠ []) :
    findInfix blankLine (joinLines (first :: lines) ++ crlf ++ body) =
      some ((joinLines (first :: lines)).length - 2) := by
  induction lines generalizing first with
  | nil =>
      rw [joinLines_cons, joinLines_nil, List.append_nil, List.append_assoc,
        findInfix_blankLine_last firstUnbroken]
      simp [crlf]
  | cons next others induction =>
      have nextUnbroken := unbroken next (by simp)
      have nextNonempty := nonempty next (by simp)
      have tailFound := induction nextUnbroken
        (fun line member => unbroken line (List.mem_cons_of_mem _ member))
        (fun line member => nonempty line (List.mem_cons_of_mem _ member))
      have continued :
          ¬crlf <+: joinLines (next :: others) ++ crlf ++ body := by
        have start : ¬crlf <+:
            next ++ crlf ++ (joinLines others ++ crlf ++ body) :=
          not_crlf_prefix_line nextNonempty nextUnbroken
        simpa using start
      rw [joinLines_cons, List.append_assoc, List.append_assoc,
        ← List.append_assoc (joinLines (next :: others)),
        findInfix_blankLine_line firstUnbroken continued, tailFound]
      simp [crlf]
      omega

theorem splitInfix_joinLines {lines : List Bytes}
    (unbroken : ∀ line ∈ lines, cr ∉ line) (rest : Bytes) :
    splitInfix crlf (joinLines lines ++ rest) =
      lines ++ splitInfix crlf rest := by
  induction lines with
  | nil => rfl
  | cons line lines induction =>
      have first : splitInfix crlf (line ++ crlf ++ (joinLines lines ++ rest)) =
          line :: splitInfix crlf (joinLines lines ++ rest) :=
        splitInfix_behind (unbroken line List.mem_cons_self) _
      rw [joinLines_cons, List.append_assoc, first, induction,
        List.cons_append]
      intro other member
      exact unbroken other (List.mem_cons_of_mem _ member)

/-- The lines in front of the first blank line. -/
def sectionLines (cursor : Bytes) : List Bytes :=
  match _taken : takeLine cursor with
  | none => []
  | some (line, rest) =>
      if line = [] then [] else line :: sectionLines rest
termination_by cursor.length
decreasing_by exact takeLine_length _taken

theorem sectionLines_line {line : Bytes} (unbroken : lf ∉ line)
    (rest : Bytes) :
    sectionLines (line ++ crlf ++ rest) =
      if line = [] then [] else line :: sectionLines rest := by
  rw [sectionLines]
  split
  · rename_i refused
    rw [takeLine_append unbroken rest] at refused
    cases refused
  · rename_i first others taken
    rw [takeLine_append unbroken rest] at taken
    cases taken
    rfl

/-- Reading a section gives back the lines it was written from. -/
theorem sectionLines_joinLines {lines : List Bytes} (rest : Bytes)
    (unbroken : ∀ line ∈ lines, lf ∉ line)
    (nonempty : ∀ line ∈ lines, line ≠ []) :
    sectionLines (joinLines lines ++ crlf ++ rest) = lines := by
  induction lines with
  | nil =>
      have blank : sectionLines ([] ++ crlf ++ rest) = _ :=
        sectionLines_line (by simp) rest
      simpa using blank
  | cons line lines induction =>
      rw [joinLines_cons, List.append_assoc, List.append_assoc,
        ← List.append_assoc (joinLines lines),
        sectionLines_line (unbroken line (by simp)),
        if_neg (nonempty line (by simp)), induction]
      · intro other member
        exact unbroken other (List.mem_cons_of_mem _ member)
      · intro other member
        exact nonempty other (List.mem_cons_of_mem _ member)

/-! ## Line ends -/

/-- Recipients may end lines at CRLF, at LF or at CR.  All of them see the
same number of lines, because the two characters only occur in pairs. -/
structure LineEnds (count : Nat) (bytes : Bytes) : Prop where
  followed : ∀ before after, bytes = before ++ cr :: after →
    after.head? = some lf
  preceded : ∀ before after, bytes = before ++ lf :: after →
    before.getLast? = some cr
  pairs : (bytes.zip bytes.tail).count (cr, lf) = count
  feeds : bytes.count lf = count
  returns : bytes.count cr = count

namespace LineEnds

theorem nil : LineEnds 0 [] :=
  { followed := by simp
    preceded := by simp
    pairs := rfl
    feeds := rfl
    returns := rfl }

theorem cons {count : Nat} {bytes : Bytes} (ends : LineEnds count bytes)
    {character : Byte} (notCr : character ≠ cr) (notLf : character ≠ lf) :
    LineEnds count (character :: bytes) := by
  constructor
  · intro before after same
    cases before with
    | nil => exact absurd (List.cons.inj same).1 notCr
    | cons first before =>
        exact ends.followed before after (List.cons.inj same).2
  · intro before after same
    cases before with
    | nil => exact absurd (List.cons.inj same).1 notLf
    | cons first before =>
        have closed := ends.preceded before after (List.cons.inj same).2
        rw [List.getLast?_cons, closed]
        rfl
  · rw [← ends.pairs]
    cases bytes with
    | nil => rfl
    | cons next bytes =>
        have other : (character, next) ≠ (cr, lf) := fun same =>
          notCr (Prod.mk.inj same).1
        exact List.count_cons_of_ne other
  · rw [List.count_cons_of_ne notLf, ends.feeds]
  · rw [List.count_cons_of_ne notCr, ends.returns]

theorem crlf {count : Nat} {bytes : Bytes} (ends : LineEnds count bytes) :
    LineEnds (count + 1) (CinderHTTP.crlf ++ bytes) := by
  have different : cr ≠ lf := by decide
  change LineEnds (count + 1) (cr :: lf :: bytes)
  constructor
  · intro before after same
    cases before with
    | nil =>
        rw [← (List.cons.inj same).2]
        rfl
    | cons first before =>
        have behind := (List.cons.inj same).2
        cases before with
        | nil => exact absurd (List.cons.inj behind).1.symm different
        | cons second before =>
            exact ends.followed before after (List.cons.inj behind).2
  · intro before after same
    cases before with
    | nil => exact absurd (List.cons.inj same).1 different
    | cons first before =>
        obtain ⟨rfl, behind⟩ := List.cons.inj same
        cases before with
        | nil => rfl
        | cons second before =>
            have closed := ends.preceded before after
              (List.cons.inj behind).2
            rw [List.getLast?_cons, List.getLast?_cons, closed]
            rfl
  · rw [← ends.pairs]
    cases bytes with
    | nil => rfl
    | cons next bytes =>
        have other : (lf, next) ≠ (cr, lf) := fun same =>
          different (Prod.mk.inj same).1.symm
        have skipped : (((lf, next) :: (next :: bytes).zip bytes).count
            (cr, lf)) = ((next :: bytes).zip bytes).count (cr, lf) :=
          List.count_cons_of_ne other
        exact List.count_cons_self.trans (congrArg (· + 1) skipped)
  · rw [List.count_cons_of_ne different, List.count_cons_self, ends.feeds]
  · rw [List.count_cons_self, List.count_cons_of_ne different.symm,
      ends.returns]

theorem line {count : Nat} {bytes line : Bytes}
    (ends : LineEnds count bytes) (noCr : cr ∉ line) (noLf : lf ∉ line) :
    LineEnds (count + 1) (line ++ CinderHTTP.crlf ++ bytes) := by
  induction line with
  | nil => exact ends.crlf
  | cons character line induction =>
      rw [List.mem_cons, not_or] at noCr noLf
      exact (induction noCr.2 noLf.2).cons (Ne.symm noCr.1)
        (Ne.symm noLf.1)

theorem joinLines {count : Nat} {bytes : Bytes}
    (ends : LineEnds count bytes) {lines : List Bytes}
    (noCr : ∀ line ∈ lines, cr ∉ line) (noLf : ∀ line ∈ lines, lf ∉ line) :
    LineEnds (lines.length + count) (CinderHTTP.joinLines lines ++ bytes) := by
  induction lines with
  | nil =>
      rw [List.length_nil, Nat.zero_add]
      exact ends
  | cons line lines induction =>
      have behind := induction
        (fun line member => noCr line (List.mem_cons_of_mem _ member))
        (fun line member => noLf line (List.mem_cons_of_mem _ member))
      have whole := behind.line (noCr line List.mem_cons_self)
        (noLf line List.mem_cons_self)
      rw [joinLines_cons, List.append_assoc, List.length_cons,
        Nat.add_right_comm]
      exact whole

/-- A CR that is left inside a line is not followed by LF. -/
theorem not_mem_line {count : Nat} {front line rest : Bytes}
    (ends : LineEnds count (front ++ line ++ CinderHTTP.crlf ++ rest))
    (unbroken : lf ∉ line) : cr ∉ line := by
  intro member
  obtain ⟨before, after, rfl⟩ := List.append_of_mem member
  have next := ends.followed (front ++ before)
    (after ++ CinderHTTP.crlf ++ rest) (by simp)
  cases after with
  | nil =>
      have same : cr = lf := Option.some.inj next
      exact absurd same (by decide)
  | cons character after =>
      have same : character = lf := Option.some.inj next
      apply unbroken
      simp [same]

end LineEnds

end CinderHTTP
