import FeatureAtlas.LogLevel
import FeatureAtlas.Path

/-!
# The command line

Arguments are read from left to right and the first one that is wrong, or that asks for the version
or for help, decides. What starts with a dash is an option, unless it is a dash alone or comes
behind `--`. The value of an option follows it as the next argument or behind an equals sign; a
next argument that is an option itself is no value.
-/

namespace FeatureAtlas

/-- What the arguments of a run say. -/
structure Arguments where
  paths : List Path
  excludedTags : List String
  logLevel : Option LogLevel
  isPretty : Bool
deriving DecidableEq, Repr

/-- Why arguments are refused. -/
inductive UsageError where
  | missingPath
  | emptyPath
  | missingValue (option : String)
  | unexpectedValue (option : String)
  | repeated (option : String)
  | invalidLevel (cause : SettingsError)
  | unknownOption (argument : String)
deriving DecidableEq, Repr

/-- The wording of a usage error. -/
def UsageError.message : UsageError → String
  | .missingPath => "no path was given"
  | .emptyPath => "a path is empty"
  | .missingValue option => "a value is required for '" ++ option ++ "' but none was given"
  | .unexpectedValue option => "'" ++ option ++ "' takes no value"
  | .repeated option => "'" ++ option ++ "' cannot be used more than once"
  | .invalidLevel cause => "invalid value for '--log-level': " ++ cause.message
  | .unknownOption argument => "unexpected argument '" ++ argument ++ "'"

/-- What the arguments ask for. -/
inductive Invocation where
  | run (arguments : Arguments)
  | showVersion
  | showHelp
  | refused (error : UsageError)
deriving DecidableEq, Repr

namespace Arguments

/-- No arguments read yet. -/
def none : Arguments := ⟨[], [], .none, false⟩

/-- Add a path. -/
def addPath (a : Arguments) (text : String) : Except UsageError Arguments :=
  if text = "" then .error .emptyPath else .ok { a with paths := a.paths ++ [⟨text⟩] }

/-- Add an excluded tag. -/
def excludeTag (a : Arguments) (tag : String) : Arguments :=
  { a with excludedTags := a.excludedTags ++ [tag] }

/-- Set the log level, which is done at most once. -/
def setLogLevel (a : Arguments) (text : String) : Except UsageError Arguments :=
  match a.logLevel, LogLevel.parse text with
  | some _, _ => .error (.repeated "--log-level")
  | .none, .ok level => .ok { a with logLevel := some level }
  | .none, .error e => .error (.invalidLevel e)

/-- Ask for indented output, which is done at most once. -/
def setPretty (a : Arguments) : Except UsageError Arguments :=
  if a.isPretty then .error (.repeated "--pretty") else .ok { a with isPretty := true }

end Arguments

namespace CommandLine

/-- Whether an argument is an option and not a value or path. -/
def isOption (argument : String) : Bool :=
  argument.toList.head? = some '-' && argument ≠ "-"

/-- An option and the value behind its first equals sign. -/
def cutValue (argument : String) : String × Option String :=
  match argument.toList.dropWhile (· ≠ '=') with
  | [] => (argument, none)
  | _ :: value =>
    (String.ofList (argument.toList.takeWhile (· ≠ '=')), some (String.ofList value))

/-- Go on with the arguments read so far, unless the last one was wrong. -/
def proceed (step : Except UsageError Arguments) (next : Arguments → Invocation) : Invocation :=
  match step with
  | .ok a => next a
  | .error e => .refused e

/-- All arguments are read. -/
def finish (a : Arguments) : Invocation :=
  if a.paths = [] then .refused .missingPath else .run a

/-- Read arguments that are all paths. -/
def parsePaths (a : Arguments) : List String → Invocation
  | [] => finish a
  | text :: rest => proceed (a.addPath text) fun a => parsePaths a rest

/-- What an option of one or two dashes asks for. -/
inductive OptionKind where
  | version
  | help
  | pretty
  | excludeTag
  | logLevel
  | endOfOptions
  | unknown
deriving DecidableEq

/-- The kind of an option without its value. Of letters behind a single dash the first decides. -/
def optionKind (name : String) : OptionKind :=
  match name with
  | "--version" => .version
  | "--help" => .help
  | "--pretty" => .pretty
  | "--exclude-tag" => .excludeTag
  | "--log-level" => .logLevel
  | "--" => .endOfOptions
  | _ =>
    match name.toList with
    | '-' :: 'V' :: _ => .version
    | '-' :: 'h' :: _ => .help
    | _ => .unknown

/-- Whether an option stands behind a single dash. -/
def isShort (name : String) : Bool :=
  name.toList[1]? ≠ some '-'

/-- Read the arguments that are left. -/
def parseFrom (a : Arguments) : List String → Invocation
  | [] => finish a
  | argument :: rest =>
    if !isOption argument then proceed (a.addPath argument) fun a => parseFrom a rest
    else
      match optionKind (cutValue argument).1, (cutValue argument).2 with
      | .endOfOptions, none => parsePaths a rest
      | .version, none => .showVersion
      | .help, none => .showHelp
      | .version, some _ =>
        if isShort argument then .showVersion else .refused (.unexpectedValue "--version")
      | .help, some _ =>
        if isShort argument then .showHelp else .refused (.unexpectedValue "--help")
      | .pretty, none => proceed a.setPretty fun a => parseFrom a rest
      | .pretty, some _ => .refused (.unexpectedValue "--pretty")
      | .excludeTag, some tag => parseFrom (a.excludeTag tag) rest
      | .excludeTag, none =>
        match rest with
        | tag :: rest =>
          if isOption tag then .refused (.missingValue "--exclude-tag")
          else parseFrom (a.excludeTag tag) rest
        | [] => .refused (.missingValue "--exclude-tag")
      | .logLevel, some text => proceed (a.setLogLevel text) fun a => parseFrom a rest
      | .logLevel, none =>
        match rest with
        | text :: rest =>
          if isOption text then .refused (.missingValue "--log-level")
          else proceed (a.setLogLevel text) fun a => parseFrom a rest
        | [] => .refused (.missingValue "--log-level")
      | _, _ => .refused (.unknownOption argument)

/-- Read the arguments of the program, its own name not among them. -/
def parse (arguments : List String) : Invocation :=
  parseFrom .none arguments

end CommandLine

end FeatureAtlas
