import FeatureAtlas.Text.Blank

/-!
# Log levels and configuration errors
-/

namespace FeatureAtlas

/-- How detailed the log is, from everything to failures only. -/
inductive LogLevel where
  | trace
  | debug
  | info
  | warn
  | error
deriving DecidableEq, Repr, Inhabited

/-- Why a configuration is refused. -/
inductive SettingsError where
  | unknownLevel (text : String)
deriving DecidableEq, Repr

/-- The wording of a configuration error; the refused text is shown as it was given. -/
def SettingsError.message : SettingsError → String
  | .unknownLevel text =>
    "invalid configuration: unknown log level '" ++ text
      ++ "', expected one of: trace, debug, info, warn, error"

namespace LogLevel

/-- The place in the order from most to least detailed. -/
def severity : LogLevel → Nat
  | .trace => 0
  | .debug => 1
  | .info => 2
  | .warn => 3
  | .error => 4

/-- Whether a log at level `threshold` shows an event of level `l`. -/
def isShownAt (l threshold : LogLevel) : Bool :=
  threshold.severity ≤ l.severity

/-- The name in lower case. -/
def name : LogLevel → String
  | .trace => "trace"
  | .debug => "debug"
  | .info => "info"
  | .warn => "warn"
  | .error => "error"

/-- The name at the start of a log line, right-aligned to five characters. -/
def label : LogLevel → String
  | .trace => "TRACE"
  | .debug => "DEBUG"
  | .info => " INFO"
  | .warn => " WARN"
  | .error => "ERROR"

/-- Read a level: a name in any case, with blanks around it, and `warning` for `warn`. Lower case
is taken for ASCII letters only: beyond them just the Kelvin sign has an ASCII letter as its lower
case, and that letter, k, is in none of the names. -/
def parse (text : String) : Except SettingsError LogLevel :=
  match String.ofList ((Text.trimChars text.toList).map Char.toLower) with
  | "trace" => .ok .trace
  | "debug" => .ok .debug
  | "info" => .ok .info
  | "warn" => .ok .warn
  | "warning" => .ok .warn
  | "error" => .ok .error
  | _ => .error (.unknownLevel text)

end LogLevel

end FeatureAtlas
