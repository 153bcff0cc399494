import FleetControl.Config

/-!
# Command-line options

What may stand on the command line of a controller: values that win over the configuration file,
and the place of that file.
-/
namespace FleetControl

/-- What the command line asks for. -/
structure Options where
  configPath : String := "~/.frameos/controller.toml"
  logLevel : String := "info"
  overrides : Overrides := {}

/-- Why a command line is refused. -/
inductive OptionError where
  | unknown (argument : String)
  | missingValue (option : String)
  | badValue (option value : String)
  deriving DecidableEq, Repr

/-- The text for the user. -/
def OptionError.message : OptionError → String
  | unknown argument => "unexpected argument '" ++ argument ++ "' found"
  | missingValue option => "a value is required for '" ++ option ++ "' but none was supplied"
  | badValue option value => "invalid value '" ++ value ++ "' for '" ++ option ++ "'"

namespace Options

/-- A plain decimal below a bound. -/
def natBelow? (bound : Nat) (s : String) : Option Nat :=
  if ¬ s.isEmpty ∧ s.toList.all Char.isDigit then
    let n := s.toList.foldl (fun n c => 10 * n + (c.toNat - '0'.toNat)) 0
    if n < bound then some n else none
  else none

/-- The options, each of which takes a value. -/
def names : List String :=
  ["-p", "--port", "--bind", "--cert", "--key", "--config", "--redis-url", "--max-connections",
    "--log-level"]

/-- Takes the value of an option over. -/
def set (o : Options) (option value : String) : Except OptionError Options :=
  let withNumber (bound : Nat) (f : Nat → Overrides) : Except OptionError Options :=
    match natBelow? bound value with
    | some n => .ok { o with overrides := f n }
    | none => .error (.badValue option value)
  let withText (f : Overrides) : Except OptionError Options := .ok { o with overrides := f }
  match option with
  | "-p" => withNumber 65536 fun n => { o.overrides with port := some n }
  | "--port" => withNumber 65536 fun n => { o.overrides with port := some n }
  | "--max-connections" =>
    withNumber (2 ^ 64) fun n => { o.overrides with maxConnections := some n }
  | "--bind" => withText { o.overrides with bind := some value }
  | "--cert" => withText { o.overrides with cert := some value }
  | "--key" => withText { o.overrides with key := some value }
  | "--redis-url" => withText { o.overrides with redisUrl := some value }
  | "--config" => .ok { o with configPath := value }
  | "--log-level" => .ok { o with logLevel := value }
  | other => .error (.unknown other)

/-- Reads the rest of a command line: options and values in turn. -/
def parseFrom (o : Options) : List String → Except OptionError Options
  | [] => .ok o
  | [option] => .error (if option ∈ names then .missingValue option else .unknown option)
  | option :: value :: rest => (o.set option value).bind fun o => parseFrom o rest

/-- Reads a command line. -/
def parse (args : List String) : Except OptionError Options := parseFrom {} args

theorem parse_nil : parse [] = .ok {} := rfl

end Options

end FleetControl
