import CinderHTTP.Config.Arguments
import CinderHTTP.Http.HeaderFields

/-!
# What the command line means

A command line is a sequence of settings, each spelled by one or two
arguments.  `config_parse_args` accepts exactly these sequences, and the
result is that of making the settings one after the other.  Started with the
defaults it gives the configurations within the bounds and no others.
-/

namespace CinderHTTP

/-! ## Numerals -/

/-- Blanks, a sign or none, and digits, with the number they denote. -/
inductive Numeral : Bytes → Int → Prop
  | plain {blanks digits : Bytes}
      (blank : ∀ character ∈ blanks, isSpaceChar character = true)
      (nonempty : digits ≠ [])
      (digital : ∀ digit ∈ digits, isDigit digit = true) :
      Numeral (blanks ++ digits) (decimalValue digits)
  | plus {blanks digits : Bytes}
      (blank : ∀ character ∈ blanks, isSpaceChar character = true)
      (nonempty : digits ≠ [])
      (digital : ∀ digit ∈ digits, isDigit digit = true) :
      Numeral (blanks ++ byte '+' :: digits) (decimalValue digits)
  | minus {blanks digits : Bytes}
      (blank : ∀ character ∈ blanks, isSpaceChar character = true)
      (nonempty : digits ≠ [])
      (digital : ∀ digit ∈ digits, isDigit digit = true) :
      Numeral (blanks ++ byte '-' :: digits) (-decimalValue digits)

/-- The value that `strtol` reports, with whether it is the true one. -/
def clampLong (value : Int) (rest : Bytes) : Strtol :=
  if longMax < value then
    { value := longMax, rest := rest, erange := true }
  else if value < longMin then
    { value := longMin, rest := rest, erange := true }
  else { value := value, rest := rest, erange := false }

/-- What `strtol` does behind the blanks. -/
def strtolStripped (text stripped : Bytes) : Strtol :=
  let negative := stripped.head? = some (byte '-')
  let unsigned :=
    if negative ∨ stripped.head? = some (byte '+') then stripped.tail
    else stripped
  let digits := unsigned.takeWhile isDigit
  let magnitude : Int := decimalValue digits
  if digits = [] then { value := 0, rest := text, erange := false }
  else clampLong (if negative then -magnitude else magnitude)
    (unsigned.dropWhile isDigit)

theorem strtol_stripped (text : Bytes) :
    strtol text = strtolStripped text (text.dropWhile isSpaceChar) := rfl

theorem dropWhile_blanks {blanks rest : Bytes}
    (blank : ∀ character ∈ blanks, isSpaceChar character = true)
    {first : Byte} {others : Bytes} (starts : rest = first :: others)
    (visible : isSpaceChar first = false) :
    (blanks ++ rest).dropWhile isSpaceChar = rest := by
  rw [List.dropWhile_append_of_pos blank, starts]
  simp [visible]

theorem not_sign_of_isDigit {digit : Byte} (digital : isDigit digit = true) :
    digit ≠ byte '-' ∧ digit ≠ byte '+' := by
  obtain ⟨lower, _⟩ := isDigit_toNat digital
  constructor
  · rintro rfl
    exact absurd lower (by decide)
  · rintro rfl
    exact absurd lower (by decide)

theorem takeWhile_digits {digits : Bytes}
    (digital : ∀ digit ∈ digits, isDigit digit = true) :
    digits.takeWhile isDigit = digits ∧ digits.dropWhile isDigit = [] :=
  ⟨List.takeWhile_eq_self_iff.mpr digital,
    List.dropWhile_eq_nil_iff.mpr digital⟩

theorem strtol_of_numeral {text : Bytes} {value : Int}
    (numeral : Numeral text value) : strtol text = clampLong value [] := by
  cases numeral with
  | plain blank nonempty digital =>
      rename_i blanks digits
      obtain ⟨first, others, starts⟩ := List.exists_cons_of_ne_nil nonempty
      have firstDigit := digital first (by simp [starts])
      obtain ⟨notMinus, notPlus⟩ := not_sign_of_isDigit firstDigit
      obtain ⟨taken, dropped⟩ := takeWhile_digits digital
      rw [strtol_stripped, dropWhile_blanks blank starts
        (not_isSpaceChar_of_isDigit firstDigit)]
      have head : digits.head? = some first := by rw [starts]; rfl
      simp [strtolStripped, head, notMinus, notPlus, taken, dropped,
        nonempty]
  | plus blank nonempty digital =>
      obtain ⟨taken, dropped⟩ := takeWhile_digits digital
      rw [strtol_stripped, dropWhile_blanks blank rfl (by decide)]
      have different : byte '+' ≠ byte '-' := by decide
      simp [strtolStripped, taken, dropped, nonempty, different]
  | minus blank nonempty digital =>
      obtain ⟨taken, dropped⟩ := takeWhile_digits digital
      rw [strtol_stripped, dropWhile_blanks blank rfl (by decide)]
      simp [strtolStripped, taken, dropped, nonempty]

theorem clampLong_rest (value : Int) (rest : Bytes) :
    (clampLong value rest).rest = rest := by
  unfold clampLong
  split
  · rfl
  · split <;> rfl

/-- A string that is read to its end is a numeral. -/
theorem numeral_of_strtol {text : Bytes} (progress : (strtol text).rest ≠ text)
    (finished : (strtol text).rest = []) :
    ∃ value, Numeral text value := by
  have blank : ∀ character ∈ text.takeWhile isSpaceChar,
      isSpaceChar character = true := fun _ member =>
    List.mem_takeWhile_imp member
  have parts : text.takeWhile isSpaceChar ++ text.dropWhile isSpaceChar =
      text := List.takeWhile_append_dropWhile
  rw [strtol_stripped] at progress finished
  generalize text.dropWhile isSpaceChar = stripped at *
  generalize text.takeWhile isSpaceChar = blanks at *
  -- the part behind the sign is not empty and consists of digits
  have unsignedDigits : ∀ unsigned : Bytes,
      (if stripped.head? = some (byte '-') ∨
        stripped.head? = some (byte '+') then stripped.tail
        else stripped) = unsigned →
      unsigned ≠ [] ∧ ∀ digit ∈ unsigned, isDigit digit = true := by
    intro unsigned behind
    simp only [strtolStripped, behind] at progress finished
    split at finished
    · rename_i none
      rw [if_pos none] at progress
      exact absurd rfl progress
    · rename_i some
      rw [clampLong_rest] at finished
      refine ⟨?_, List.dropWhile_eq_nil_iff.mp finished⟩
      rintro rfl
      exact some rfl
  cases stripped with
  | nil => exact absurd rfl (unsignedDigits [] rfl).1
  | cons first others =>
      by_cases minus : first = byte '-'
      · subst minus
        obtain ⟨nonempty, digital⟩ := unsignedDigits others (by simp)
        rw [← parts]
        exact ⟨_, .minus blank nonempty digital⟩
      · by_cases plus : first = byte '+'
        · subst plus
          obtain ⟨nonempty, digital⟩ := unsignedDigits others (by simp)
          rw [← parts]
          exact ⟨_, .plus blank nonempty digital⟩
        · obtain ⟨nonempty, digital⟩ :=
            unsignedDigits (first :: others) (by simp [minus, plus])
          rw [← parts]
          exact ⟨_, .plain blank nonempty digital⟩

/-- `parse_long_arg` accepts the numerals of the C type. -/
theorem parseLongArg_eq_ok_iff {optionName text : Bytes} {value : Int} :
    parseLongArg optionName text = .ok value ↔
      Numeral text value ∧ longMin ≤ value ∧ value ≤ longMax := by
  constructor
  · intro accepted
    unfold parseLongArg at accepted
    simp only at accepted
    split at accepted
    · cases accepted
    · rename_i good
      simp only [not_or, not_not, Bool.not_eq_true] at good
      obtain ⟨progress, finished, inRange⟩ := good
      obtain ⟨denoted, numeral⟩ := numeral_of_strtol progress finished
      rw [strtol_of_numeral numeral, clampLong] at accepted inRange
      split at inRange
      · cases inRange
      · split at inRange
        · cases inRange
        · rename_i above below
          rw [if_neg above, if_neg below] at accepted
          cases accepted
          exact ⟨numeral, Int.not_lt.mp below, Int.not_lt.mp above⟩
  · rintro ⟨numeral, lower, upper⟩
    have nonempty : text ≠ [] := by
      cases numeral with
      | plain blank nonempty digital => simp [nonempty]
      | plus blank nonempty digital => simp
      | minus blank nonempty digital => simp
    have read : strtol text =
        { value := value, rest := [], erange := false } := by
      rw [strtol_of_numeral numeral, clampLong, if_neg (Int.not_lt.mpr upper),
        if_neg (Int.not_lt.mpr lower)]
    simp [parseLongArg, read, nonempty.symm]

/-! ## Settings -/

/-- What one option asks for. -/
inductive Setting where
  | verbose
  | numeric (option : NumericOption) (value : Int)
  | root (path : Bytes)
  deriving DecidableEq, Repr

def Setting.apply (config : Configuration) : Setting → Configuration
  | .verbose => { config with verbose := 1 }
  | .numeric option value => option.store config value
  | .root path => { config with documentRoot := path }

/-- The arguments that spell a setting. -/
inductive Spells : List Bytes → Setting → Prop
  | verbose : Spells [ascii "--verbose"] .verbose
  | numeric {option : NumericOption} {text : Bytes} {value : Int}
      (numeral : Numeral text value) (lower : option.minimum ≤ value)
      (upper : value ≤ option.maximum) :
      Spells [option.name, text] (.numeric option value)
  | root {path : Bytes} (fits : path.length < pathMax) :
      Spells [ascii "--root", path] (.root path)

inductive CommandLine : List Bytes → List Setting → Prop
  | nil : CommandLine [] []
  | cons {arguments later : List Bytes} {setting : Setting}
      {settings : List Setting} (spelled : Spells arguments setting)
      (rest : CommandLine later settings) :
      CommandLine (arguments ++ later) (setting :: settings)

theorem commandOption_name (option : NumericOption) :
    commandOption option.name = some (.numeric option) := by
  cases option <;> decide

theorem commandOption_eq_some {arg : Bytes} {option : CommandOption}
    (recognized : commandOption arg = some option) :
    (option = .help ∧ arg = ascii "--help") ∨
      (option = .verbose ∧ arg = ascii "--verbose") ∨
      (option = .root ∧ arg = ascii "--root") ∨
      ∃ numeric : NumericOption, option = .numeric numeric ∧
        arg = numeric.name := by
  unfold commandOption at recognized
  split_ifs at recognized with help verbose port workers queue root keepAlive
    request
  · cases recognized
    exact .inl ⟨rfl, help⟩
  · cases recognized
    exact .inr (.inl ⟨rfl, verbose⟩)
  · cases recognized
    exact .inr (.inr (.inr ⟨.port, rfl, port⟩))
  · cases recognized
    exact .inr (.inr (.inr ⟨.workers, rfl, workers⟩))
  · cases recognized
    exact .inr (.inr (.inr ⟨.queueSize, rfl, queue⟩))
  · cases recognized
    exact .inr (.inr (.inl ⟨rfl, root⟩))
  · cases recognized
    exact .inr (.inr (.inr ⟨.keepAliveTimeout, rfl, keepAlive⟩))
  · cases recognized
    exact .inr (.inr (.inr ⟨.requestTimeout, rfl, request⟩))

theorem NumericOption.bounds (option : NumericOption) {value : Int}
    (lower : option.minimum ≤ value) (upper : value ≤ option.maximum) :
    longMin ≤ value ∧ value ≤ longMax := by
  have small : 1 ≤ option.minimum ∧ option.maximum ≤ 65535 := by
    cases option <;> decide
  unfold longMin longMax
  omega

/-- Arguments that spell a setting are read as this setting. -/
theorem configParseArgs_spelled {arguments : List Bytes} {setting : Setting}
    (spelled : Spells arguments setting) (config : Configuration)
    (later : List Bytes) :
    configParseArgs config (arguments ++ later) =
      configParseArgs (setting.apply config) later := by
  cases spelled with
  | verbose => rfl
  | numeric numeral lower upper =>
      rename_i option text value
      have accepted : parseLongArg option.name text = .ok value :=
        parseLongArg_eq_ok_iff.mpr ⟨numeral, option.bounds lower upper⟩
      have inside : ¬(value < option.minimum ∨ value > option.maximum) := by
        omega
      simp only [List.cons_append, List.nil_append]
      rw [configParseArgs, commandOption_name]
      simp only [accepted, if_neg inside]
      rfl
  | root fits =>
      rename_i path
      have whole : path.take (pathMax - 1) = path :=
        List.take_of_length_le (Nat.le_pred_of_lt fits)
      have short : ¬path.length ≥ pathMax := Nat.not_le.mpr fits
      simp only [List.cons_append, List.nil_append]
      rw [configParseArgs]
      change (if path.length ≥ pathMax then _ else _) = _
      rw [if_neg short, whole]
      rfl

theorem configParseArgs_commandLine {front : List Bytes}
    {settings : List Setting} (line : CommandLine front settings)
    (config : Configuration) (later : List Bytes) :
    configParseArgs config (front ++ later) =
      configParseArgs (settings.foldl Setting.apply config) later := by
  induction line generalizing config with
  | nil => rfl
  | cons spelled _ induction =>
      rw [List.append_assoc, configParseArgs_spelled spelled, induction]
      rfl

/-- How the parsing ends: at the end of the arguments, at a request for help
or at an argument that is refused. -/
inductive Ending : List Bytes → ConfigParseResult → Prop
  | all : Ending [] .ok
  | help (later : List Bytes) : Ending (ascii "--help" :: later) .help
  | refused {later : List Bytes}
      (error : ∀ config, (configParseArgs config later).result = .error ∧
        (configParseArgs config later).diagnostic ≠ []) :
      Ending later .error

theorem parseLongArg_error {optionName text diagnostic : Bytes}
    (refused : parseLongArg optionName text = .error diagnostic) :
    diagnostic ≠ [] := by
  unfold parseLongArg at refused
  simp only at refused
  split at refused
  · cases refused
    simp only [List.append_assoc]
    exact List.append_ne_nil_of_left_ne_nil (by decide) _
  · cases refused

theorem numeric_cases (option : NumericOption) (later : List Bytes) :
    (∀ config, (configParseArgs config (option.name :: later)).result =
          .error ∧
        (configParseArgs config (option.name :: later)).diagnostic ≠ []) ∨
      ∃ text rest value, later = text :: rest ∧
        Spells [option.name, text] (.numeric option value) := by
  cases later with
  | nil =>
      left
      intro config
      rw [configParseArgs, commandOption_name]
      simp only [missingValue, List.append_assoc, true_and]
      exact List.append_ne_nil_of_left_ne_nil (by decide) _
  | cons text rest =>
      cases parsed : parseLongArg option.name text with
      | error diagnostic =>
          left
          intro config
          rw [configParseArgs, commandOption_name]
          simp only [parsed, true_and]
          exact parseLongArg_error parsed
      | ok value =>
          by_cases outside : value < option.minimum ∨ value > option.maximum
          · left
            intro config
            rw [configParseArgs, commandOption_name]
            simp only [parsed, if_pos outside, NumericOption.outOfRange,
              List.append_assoc, true_and]
            exact List.append_ne_nil_of_left_ne_nil (by decide) _
          · right
            have numeral := (parseLongArg_eq_ok_iff.mp parsed).1
            exact ⟨text, rest, value, rfl,
              .numeric numeral (by omega) (by omega)⟩

theorem root_cases (later : List Bytes) :
    (∀ config, (configParseArgs config (ascii "--root" :: later)).result =
          .error ∧
        (configParseArgs config (ascii "--root" :: later)).diagnostic ≠
          []) ∨
      ∃ path rest, later = path :: rest ∧
        Spells [ascii "--root", path] (.root path) := by
  cases later with
  | nil =>
      left
      intro config
      refine ⟨rfl, ?_⟩
      change missingValue (ascii "--root") ≠ []
      decide
  | cons path rest =>
      by_cases long : path.length ≥ pathMax
      · left
        intro config
        rw [configParseArgs]
        change (if path.length ≥ pathMax then _ else _ :
          ConfigOutcome).result = .error ∧
          (if path.length ≥ pathMax then _ else _ :
            ConfigOutcome).diagnostic ≠ []
        rw [if_pos long]
        exact ⟨rfl, List.append_ne_nil_of_left_ne_nil (by decide) _⟩
      · exact .inr ⟨path, rest, rfl, .root (Nat.not_le.mp long)⟩

/-- Every list of arguments begins with a command line, behind which the
parsing ends. -/
theorem commandLine_ending (arguments : List Bytes) :
    ∃ front later settings result, arguments = front ++ later ∧
      CommandLine front settings ∧ Ending later result := by
  -- an option takes one or two arguments
  induction measured : arguments.length using Nat.strong_induction_on
    generalizing arguments with
  | _ size induction =>
      have prepend : ∀ {spelling rest : List Bytes} {setting : Setting},
          Spells spelling setting → arguments = spelling ++ rest →
          ∃ front later settings result, arguments = front ++ later ∧
            CommandLine front settings ∧ Ending later result := by
        intro spelling rest setting spelled split
        have shorter : rest.length < size := by
          have positive : 0 < spelling.length := by
            cases spelled <;> simp
          rw [← measured, split, List.length_append]
          omega
        obtain ⟨front, later, settings, result, parts, line, ending⟩ :=
          induction rest.length shorter rest rfl
        refine ⟨spelling ++ front, later, setting :: settings, result, ?_,
          .cons spelled line, ending⟩
        rw [split, parts, List.append_assoc]
      cases arguments with
      | nil => exact ⟨[], [], [], .ok, rfl, .nil, .all⟩
      | cons arg rest =>
          cases recognized : commandOption arg with
          | none =>
              refine ⟨[], arg :: rest, [], .error, rfl, .nil, .refused ?_⟩
              intro config
              rw [configParseArgs.eq_def]
              simp only [recognized, unrecognized, List.append_assoc, true_and]
              exact List.append_ne_nil_of_left_ne_nil (by decide) _
          | some option =>
              rcases commandOption_eq_some recognized with
                ⟨rfl, rfl⟩ | ⟨rfl, rfl⟩ | ⟨rfl, rfl⟩ | ⟨numeric, rfl, rfl⟩
              · exact ⟨[], _, [], .help, rfl, .nil, .help rest⟩
              · exact prepend .verbose rfl
              · rcases root_cases rest with error | ⟨path, behind, rfl, spelled⟩
                · exact ⟨[], _, [], .error, rfl, .nil, .refused error⟩
                · exact prepend spelled rfl
              · rcases numeric_cases numeric rest with
                  error | ⟨text, behind, value, rfl, spelled⟩
                · exact ⟨[], _, [], .error, rfl, .nil, .refused error⟩
                · exact prepend spelled rfl

theorem configParseArgs_accepts {arguments : List Bytes}
    {settings : List Setting} (line : CommandLine arguments settings)
    (config : Configuration) :
    configParseArgs config arguments =
      { result := .ok, config := settings.foldl Setting.apply config
        diagnostic := [] } := by
  have parsed := configParseArgs_commandLine line config []
  rw [List.append_nil] at parsed
  exact parsed

theorem configParseArgs_helps {front : List Bytes} {settings : List Setting}
    (line : CommandLine front settings) (config : Configuration)
    (later : List Bytes) :
    configParseArgs config (front ++ ascii "--help" :: later) =
      { result := .help, config := settings.foldl Setting.apply config
        diagnostic := [] } :=
  configParseArgs_commandLine line config _

theorem configParseArgs_ending {later : List Bytes}
    {result : ConfigParseResult} (ending : Ending later result)
    (config : Configuration) :
    (configParseArgs config later).result = result ∧
      (result = .error ↔ (configParseArgs config later).diagnostic ≠ []) := by
  cases ending with
  | all => exact ⟨rfl, by simp [configParseArgs]⟩
  | help later =>
      have helps := configParseArgs_helps .nil config later
      rw [List.nil_append] at helps
      rw [helps]
      simp
  | refused error =>
      exact ⟨(error config).1, fun _ => (error config).2, fun _ => rfl⟩

theorem commandLine_of_ok {arguments : List Bytes} {config : Configuration}
    (ok : (configParseArgs config arguments).result = .ok) :
    ∃ settings, CommandLine arguments settings := by
  obtain ⟨front, later, settings, result, rfl, line, ending⟩ :=
    commandLine_ending arguments
  rw [configParseArgs_commandLine line,
    (configParseArgs_ending ending _).1] at ok
  subst ok
  cases ending with
  | all => exact ⟨settings, by rwa [List.append_nil]⟩

/-- `config_parse_args` accepts exactly the command lines and makes their
settings in order.  It asks for help exactly when a command line is followed
by `--help`, and refuses everything else with a diagnostic. -/
theorem configParseArgs_exact (config : Configuration)
    (arguments : List Bytes) :
    ((configParseArgs config arguments).result = .ok ↔
        ∃ settings, CommandLine arguments settings) ∧
      ((configParseArgs config arguments).result = .help ↔
        ∃ front settings later, arguments = front ++ ascii "--help" :: later ∧
          CommandLine front settings) ∧
      ((configParseArgs config arguments).result = .error ↔
        (configParseArgs config arguments).diagnostic ≠ []) ∧
      ∀ settings, CommandLine arguments settings →
        (configParseArgs config arguments).config =
          settings.foldl Setting.apply config := by
  refine ⟨⟨commandLine_of_ok, ?_⟩, ⟨?_, ?_⟩, ?_, ?_⟩
  · rintro ⟨settings, line⟩
    rw [configParseArgs_accepts line]
  · intro help
    obtain ⟨front, later, settings, result, rfl, line, ending⟩ :=
      commandLine_ending arguments
    rw [configParseArgs_commandLine line,
      (configParseArgs_ending ending _).1] at help
    subst help
    cases ending with
    | help later => exact ⟨front, settings, later, rfl, line⟩
  · rintro ⟨front, settings, later, rfl, line⟩
    rw [configParseArgs_helps line]
  · obtain ⟨front, later, settings, result, rfl, line, ending⟩ :=
      commandLine_ending arguments
    rw [configParseArgs_commandLine line]
    have ended := configParseArgs_ending ending
      (settings.foldl Setting.apply config)
    rw [ended.1]
    exact ended.2
  · intro settings line
    rw [configParseArgs_accepts line]

/-! ## Accepted configurations -/

def NumericOption.value (config : Configuration) : NumericOption → Int
  | .port => config.port
  | .workers => config.workerCount
  | .queueSize => config.queueCapacity
  | .keepAliveTimeout => config.keepAliveTimeoutSec
  | .requestTimeout => config.requestTimeoutSec

/-- Every number is within its bounds, and the document root is a C string
that fits its buffer. -/
structure Configuration.Valid (config : Configuration) : Prop where
  numeric : ∀ option : NumericOption,
    option.minimum ≤ option.value config ∧
      option.value config ≤ option.maximum
  root : config.documentRoot.length < pathMax
  string : nul ∉ config.documentRoot
  verbose : config.verbose = 0 ∨ config.verbose = 1

theorem configSetDefaults_valid : configSetDefaults.Valid := by
  constructor
  · intro option
    cases option <;> decide
  · decide
  · decide
  · exact .inl rfl

theorem NumericOption.value_store (option stored : NumericOption)
    (config : Configuration) (value : Int) :
    option.value (stored.store config value) =
      if option = stored then value else option.value config := by
  cases option <;> cases stored <;> rfl

theorem NumericOption.store_others (stored : NumericOption)
    (config : Configuration) (value : Int) :
    (stored.store config value).documentRoot = config.documentRoot ∧
      (stored.store config value).verbose = config.verbose := by
  cases stored <;> exact ⟨rfl, rfl⟩

theorem NumericOption.value_verbose (option : NumericOption)
    (config : Configuration) (verbose : Int) :
    option.value { config with verbose := verbose } =
      option.value config := by
  cases option <;> rfl

theorem NumericOption.value_root (option : NumericOption)
    (config : Configuration) (path : Bytes) :
    option.value { config with documentRoot := path } =
      option.value config := by
  cases option <;> rfl

theorem Configuration.Valid.apply {config : Configuration}
    {arguments : List Bytes} {setting : Setting} (valid : config.Valid)
    (spelled : Spells arguments setting)
    (strings : ∀ argument ∈ arguments, nul ∉ argument) :
    (setting.apply config).Valid := by
  cases spelled with
  | verbose =>
      constructor
      · intro option
        rw [Setting.apply, NumericOption.value_verbose]
        exact valid.numeric option
      · exact valid.root
      · exact valid.string
      · exact .inr rfl
  | numeric numeral lower upper =>
      rename_i stored text value
      obtain ⟨root, verbose⟩ := stored.store_others config value
      constructor
      · intro option
        rw [Setting.apply, NumericOption.value_store]
        split
        · rename_i same
          rw [same]
          exact ⟨lower, upper⟩
        · exact valid.numeric option
      · rw [Setting.apply, root]
        exact valid.root
      · rw [Setting.apply, root]
        exact valid.string
      · rw [Setting.apply, verbose]
        exact valid.verbose
  | root fits =>
      rename_i path
      constructor
      · intro option
        rw [Setting.apply, NumericOption.value_root]
        exact valid.numeric option
      · exact fits
      · exact strings path (by simp)
      · exact valid.verbose

theorem Configuration.Valid.commandLine {config : Configuration}
    {arguments : List Bytes} {settings : List Setting}
    (valid : config.Valid) (line : CommandLine arguments settings)
    (strings : ∀ argument ∈ arguments, nul ∉ argument) :
    (settings.foldl Setting.apply config).Valid := by
  induction line generalizing config with
  | nil => exact valid
  | cons spelled _ induction =>
      apply induction
      · apply valid.apply spelled
        exact fun argument member =>
          strings argument (List.mem_append_left _ member)
      · exact fun argument member =>
          strings argument (List.mem_append_right _ member)

/-! ## Writing a configuration -/

def Setting.spell : Setting → List Bytes
  | .verbose => [ascii "--verbose"]
  | .numeric option value => [option.name, decimal value.toNat]
  | .root path => [ascii "--root", path]

/-- The settings that lead from the defaults to a configuration. -/
def Configuration.settings (config : Configuration) : List Setting :=
  (if config.verbose = 1 then [.verbose] else []) ++
    [.numeric .port config.port, .numeric .workers config.workerCount,
      .numeric .queueSize config.queueCapacity, .root config.documentRoot,
      .numeric .keepAliveTimeout config.keepAliveTimeoutSec,
      .numeric .requestTimeout config.requestTimeoutSec]

theorem numeral_decimal {value : Int} (nonnegative : 0 ≤ value) :
    Numeral (decimal value.toNat) value := by
  have denoted : (decimalValue (decimal value.toNat) : Int) = value := by
    rw [decimalValue_decimal]
    exact Int.toNat_of_nonneg nonnegative
  have plain : Numeral ([] ++ decimal value.toNat)
      (decimalValue (decimal value.toNat)) :=
    .plain nofun (decimal_ne_nil _) fun _ => isDigit_of_mem_decimal
  rwa [denoted] at plain

theorem commandLine_spell {settings : List Setting}
    (spelled : ∀ setting ∈ settings, Spells setting.spell setting) :
    CommandLine (settings.flatMap Setting.spell) settings := by
  induction settings with
  | nil => exact .nil
  | cons setting settings induction =>
      rw [List.flatMap_cons]
      exact .cons (spelled setting (by simp))
        (induction fun other member => spelled other (by simp [member]))

theorem Configuration.Valid.spells {config : Configuration}
    (valid : config.Valid) {setting : Setting}
    (member : setting ∈ config.settings) : Spells setting.spell setting := by
  have numeric : ∀ option : NumericOption,
      Spells (Setting.numeric option (option.value config)).spell
        (.numeric option (option.value config)) := by
    intro option
    obtain ⟨lower, upper⟩ := valid.numeric option
    have positive : 0 ≤ option.value config := by
      have least : 1 ≤ option.minimum := by cases option <;> decide
      omega
    exact .numeric (numeral_decimal positive) lower upper
  simp only [Configuration.settings, List.mem_append, List.mem_ite_nil_right,
    List.mem_cons, List.not_mem_nil, or_false] at member
  rcases member with ⟨_, rfl⟩ | rfl | rfl | rfl | rfl | rfl | rfl
  · exact .verbose
  · exact numeric .port
  · exact numeric .workers
  · exact numeric .queueSize
  · exact .root valid.root
  · exact numeric .keepAliveTimeout
  · exact numeric .requestTimeout

theorem Configuration.Valid.settings_apply {config : Configuration}
    (valid : config.Valid) :
    config.settings.foldl Setting.apply configSetDefaults = config := by
  rcases valid.verbose with quiet | loud
  · obtain ⟨⟨_, _, _⟩, _, _, _, _⟩ := config
    cases quiet
    rfl
  · obtain ⟨⟨_, _, _⟩, _, _, _, _⟩ := config
    cases loud
    rfl

theorem nul_not_mem_decimal (value : Nat) : nul ∉ decimal value := by
  intro member
  have digital := isDigit_of_mem_decimal member
  exact absurd digital (by decide)

theorem nul_not_mem_spell {setting : Setting} {argument : Bytes}
    (path : ∀ root, setting = .root root → nul ∉ root)
    (member : argument ∈ setting.spell) : nul ∉ argument := by
  cases setting with
  | verbose =>
      rw [Setting.spell, List.mem_singleton] at member
      rw [member]
      decide
  | numeric option value =>
      rcases List.mem_cons.mp member with rfl | second
      · cases option <;> decide
      · rw [List.mem_singleton.mp second]
        exact nul_not_mem_decimal _
  | root root =>
      rcases List.mem_cons.mp member with rfl | second
      · decide
      · rw [List.mem_singleton.mp second]
        exact path root rfl

/-- From the defaults the command line leads to exactly the configurations
within the bounds: to no other, and to each of them by spelling out its
settings. -/
theorem configParseArgs_range (config : Configuration) :
    (∃ arguments : List Bytes, (∀ argument ∈ arguments, nul ∉ argument) ∧
        (configParseArgs configSetDefaults arguments).result = .ok ∧
        (configParseArgs configSetDefaults arguments).config = config) ↔
      config.Valid := by
  constructor
  · rintro ⟨arguments, strings, ok, rfl⟩
    obtain ⟨settings, line⟩ := commandLine_of_ok ok
    rw [configParseArgs_accepts line]
    exact configSetDefaults_valid.commandLine line strings
  · intro valid
    have line := commandLine_spell fun _ member => valid.spells member
    have accepts := configParseArgs_accepts line configSetDefaults
    refine ⟨config.settings.flatMap Setting.spell, ?_, ?_, ?_⟩
    · intro argument member
      obtain ⟨setting, chosen, inside⟩ := List.mem_flatMap.mp member
      apply nul_not_mem_spell _ inside
      rintro root rfl
      simp only [Configuration.settings, List.mem_append,
        List.mem_ite_nil_right, List.mem_cons, List.not_mem_nil, or_false,
        reduceCtorEq, and_false, false_or, Setting.root.injEq] at chosen
      rw [chosen]
      exact valid.string
    · rw [accepts]
    · rw [accepts]
      exact valid.settings_apply

end CinderHTTP
