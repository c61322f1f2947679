import FeatureAtlas.Tag.Filter
import FeatureAtlas.LogLevel

/-!
# Settings

A run is configured by two environment variables, and then by the command line. Excluded tags
accumulate; a log level replaces the one before it.
-/

namespace FeatureAtlas

/-- The log level and the names of the excluded tags. -/
@[ext] structure Settings where
  logLevel : LogLevel
  excludedTags : NameSet
deriving DecidableEq, Repr

namespace Settings

/-- The variable that holds the log level. -/
def logLevelVariable : String := "GHERKIN_GRAPH_LOG_LEVEL"

/-- The variable that holds the excluded tags, separated by commas. -/
def excludedTagsVariable : String := "GHERKIN_GRAPH_EXCLUDED_TAGS"

/-- Warnings are logged and no tag is excluded. -/
def default : Settings := ⟨.warn, NameSet.empty⟩

instance : Inhabited Settings := ⟨default⟩

/-- The entries of a list separated by commas. -/
def splitTags (text : String) : List String :=
  (text.toList.splitOn ',').map String.ofList

/-- Read the configuration through a lookup of variables. -/
def ofVariables (lookup : String → Option String) : Except SettingsError Settings := do
  let level ←
    match lookup logLevelVariable with
    | some text => LogLevel.parse text
    | none => .ok default.logLevel
  let tags :=
    match lookup excludedTagsVariable with
    | some text => usableNames (splitTags text)
    | none => []
  return ⟨level, NameSet.ofList tags⟩

/-- The same configuration with another log level. -/
def setLevel (s : Settings) (level : LogLevel) : Settings :=
  { s with logLevel := level }

/-- Replace the log level, if one is given, and add excluded tags. -/
def override (s : Settings) (level : Option LogLevel) (tags : List String) : Settings :=
  ⟨level.getD s.logLevel, s.excludedTags.insertAll (usableNames tags)⟩

/-- The filter that a configuration asks for. -/
def filter (s : Settings) : TagFilter :=
  TagFilter.ofTags s.excludedTags.names

end Settings

end FeatureAtlas
