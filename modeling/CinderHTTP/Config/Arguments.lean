import CinderHTTP.Client.Handler

/-!
# The command line

`config.c`: the defaults, and the loop of `config_parse_args` over the
arguments behind the program name, which are C strings.  An outcome says how
the parsing ended, what became of the configuration, and what was written to
standard error.
-/

namespace CinderHTTP

/-! ## The configuration -/

structure Configuration extends ServerConfig where
  port : Int
  workerCount : Int
  queueCapacity : Int
  verbose : Int
  deriving DecidableEq, Repr

def configSetDefaults : Configuration :=
  { documentRoot := ascii "./public"
    keepAliveTimeoutSec := 5
    requestTimeoutSec := 10
    port := 8080
    workerCount := 4
    queueCapacity := 64
    verbose := 0 }

/-! ## Numbers -/

/-- Result of the libc function: the value, the unread rest of the string and
whether the value was out of range. -/
structure Strtol where
  value : Int
  rest : Bytes
  erange : Bool
  deriving DecidableEq, Repr

def longMax : Int := 2 ^ 63 - 1

def longMin : Int := -2 ^ 63

/-- `strtol(text, &rest, 10)`. -/
def strtol (text : Bytes) : Strtol :=
  let stripped := text.dropWhile isSpaceChar
  let negative := stripped.head? = some (byte '-')
  let unsigned :=
    if negative ∨ stripped.head? = some (byte '+') then stripped.tail
    else stripped
  let digits := unsigned.takeWhile isDigit
  let magnitude : Int := decimalValue digits
  let value := if negative then -magnitude else magnitude
  let rest := unsigned.dropWhile isDigit
  if digits = [] then { value := 0, rest := text, erange := false }
  else if longMax < value then
    { value := longMax, rest := rest, erange := true }
  else if value < longMin then
    { value := longMin, rest := rest, erange := true }
  else { value := value, rest := rest, erange := false }

def missingValue (optionName : Bytes) : Bytes :=
  ascii "cinderhttp: option '" ++ optionName ++ ascii "' requires a value\n"

/-- `parse_long_arg` where there is a further argument; without one the
option is refused with `missingValue`. -/
def parseLongArg (optionName valueStr : Bytes) : Except Bytes Int :=
  let parsed := strtol valueStr
  if parsed.rest = valueStr ∨ parsed.rest ≠ [] ∨ parsed.erange then
    .error (ascii "cinderhttp: option '" ++ optionName ++
      ascii "' expects an integer, got '" ++ valueStr ++ ascii "'\n")
  else .ok parsed.value

/-! ## Options -/

/-- The options whose value is a number between two bounds. -/
inductive NumericOption where
  | port
  | workers
  | queueSize
  | keepAliveTimeout
  | requestTimeout
  deriving DecidableEq, Repr

namespace NumericOption

def name : NumericOption → Bytes
  | .port => ascii "--port"
  | .workers => ascii "--workers"
  | .queueSize => ascii "--queue-size"
  | .keepAliveTimeout => ascii "--keep-alive-timeout"
  | .requestTimeout => ascii "--request-timeout"

def minimum : NumericOption → Int
  | .port => 1
  | .workers => 1
  | .queueSize => 1
  | .keepAliveTimeout => 1
  | .requestTimeout => 1

def maximum : NumericOption → Int
  | .port => 65535
  | .workers => 256
  | .queueSize => 4096
  | .keepAliveTimeout => 300
  | .requestTimeout => 300

def store (config : Configuration) (value : Int) :
    NumericOption → Configuration
  | .port => { config with port := value }
  | .workers => { config with workerCount := value }
  | .queueSize => { config with queueCapacity := value }
  | .keepAliveTimeout => { config with keepAliveTimeoutSec := value }
  | .requestTimeout => { config with requestTimeoutSec := value }

def outOfRange (option : NumericOption) (value : Int) : Bytes :=
  ascii "cinderhttp: " ++ option.name ++ ascii " must be between " ++
    signedDecimal option.minimum ++ ascii " and " ++
    signedDecimal option.maximum ++ ascii " (got " ++
    signedDecimal value ++ ascii ")\n"

end NumericOption

inductive CommandOption where
  | help
  | verbose
  | numeric (option : NumericOption)
  | root
  deriving DecidableEq, Repr

/-- The comparisons of the loop, in their order. -/
def commandOption (arg : Bytes) : Option CommandOption :=
  if arg = ascii "--help" then some .help
  else if arg = ascii "--verbose" then some .verbose
  else if arg = NumericOption.port.name then some (.numeric .port)
  else if arg = NumericOption.workers.name then some (.numeric .workers)
  else if arg = NumericOption.queueSize.name then some (.numeric .queueSize)
  else if arg = ascii "--root" then some .root
  else if arg = NumericOption.keepAliveTimeout.name then
    some (.numeric .keepAliveTimeout)
  else if arg = NumericOption.requestTimeout.name then
    some (.numeric .requestTimeout)
  else none

def unrecognized (arg : Bytes) : Bytes :=
  ascii "cinderhttp: unrecognized option '" ++ arg ++ ascii "'\n" ++
    ascii "Try 'cinderhttp --help' for usage information.\n"

def rootTooLong : Bytes :=
  ascii "cinderhttp: --root path is too long (max " ++ decimal (pathMax - 1) ++
    ascii " characters)\n"

/-! ## The loop -/

inductive ConfigParseResult where
  | ok
  | help
  | error
  deriving DecidableEq, Repr

structure ConfigOutcome where
  result : ConfigParseResult
  config : Configuration
  diagnostic : Bytes
  deriving DecidableEq, Repr

/-- The arguments from the current one on. -/
def configParseArgs (config : Configuration) : List Bytes → ConfigOutcome
  | [] => { result := .ok, config := config, diagnostic := [] }
  | arg :: later =>
      match commandOption arg with
      | some .help => { result := .help, config := config, diagnostic := [] }
      | some .verbose => configParseArgs { config with verbose := 1 } later
      | some (.numeric option) =>
          match later with
          | [] =>
              { result := .error
                config := config
                diagnostic := missingValue option.name }
          | valueStr :: later =>
              match parseLongArg option.name valueStr with
              | .error diagnostic =>
                  { result := .error
                    config := config
                    diagnostic := diagnostic }
              | .ok value =>
                  if value < option.minimum ∨ value > option.maximum then
                    { result := .error
                      config := config
                      diagnostic := option.outOfRange value }
                  else configParseArgs (option.store config value) later
      | some .root =>
          match later with
          | [] =>
              { result := .error
                config := config
                diagnostic := missingValue (ascii "--root") }
          | path :: later =>
              -- the buffer holds what fits, also when the path is refused
              let stored :=
                { config with documentRoot := path.take (pathMax - 1) }
              if path.length ≥ pathMax then
                { result := .error
                  config := stored
                  diagnostic := rootTooLong }
              else configParseArgs stored later
      | none =>
          { result := .error, config := config
            diagnostic := unrecognized arg }

end CinderHTTP
