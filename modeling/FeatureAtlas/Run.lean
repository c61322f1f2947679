import FeatureAtlas.CommandLine
import FeatureAtlas.Settings
import FeatureAtlas.Atlas.Events
import FeatureAtlas.FileTree.Search
import FeatureAtlas.FileTree.Opening
import FeatureAtlas.Json.Printer
import FeatureAtlas.Report

/-!
# A run of the program

A run finds the documents that the paths stand for, opens them in order, adds them to one atlas,
and writes a report. Whatever goes wrong on the way ends the run with a logged error and without a
report; a document that the grammar refuses is skipped. Everything a run does is a value: `Output`
holds its exit code and what it writes.
-/

namespace FeatureAtlas

/-- What ends a run without a report. -/
inductive RunFailure where
  | search (cause : SearchError)
  | reading (cause : OpenError)
  | ragged (cause : RaggedError)
deriving DecidableEq, Repr

/-- The wording of a failure is that of its cause. -/
def RunFailure.message : RunFailure → String
  | .search cause => cause.message
  | .reading cause => cause.message
  | .ragged cause => cause.message

/-- What a run works with: files, a grammar, and the filter it was asked for. -/
structure Workspace where
  files : FileSystem
  grammar : Grammar
  filter : TagFilter

namespace Workspace

/-- Open documents in order and add them to an atlas, up to the first that fails. -/
def addDocuments (w : Workspace) (a : Atlas) : List Path → Except RunFailure Atlas
  | [] => .ok a
  | p :: ps =>
    match w.files.openDocument w.grammar p with
    | .error e => .error (.reading e)
    | .ok loaded =>
      let addition := a.addDocument loaded.document w.filter
      match addition.outcome with
      | .error e => .error (.ragged e)
      | .ok _ => w.addDocuments addition.atlas ps

/-- A document that is skipped because of a problem with its text. -/
def skippedEvent (d : Problem) : LogEvent :=
  ⟨.warn, "gherkin_graph", "skipping document with syntax errors",
    [("document", .plain d.path.text), ("message", .plain d.message)]⟩

/-- The log events of `addDocuments`. -/
def addEvents (w : Workspace) (a : Atlas) : List Path → List LogEvent
  | [] => []
  | p :: ps =>
    match w.files.openDocument w.grammar p with
    | .error _ => []
    | .ok loaded =>
      let addition := a.addDocument loaded.document w.filter
      w.files.openEvents w.grammar p ++ loaded.problems.map skippedEvent
        ++ a.additionEvents loaded.document w.filter
        ++ match addition.outcome with
          | .error _ => []
          | .ok _ => w.addEvents addition.atlas ps

/-- The report of the documents that paths stand for. -/
def report (w : Workspace) (paths : List Path) : Except RunFailure Report :=
  match w.files.findDocuments paths with
  | .error e => .error (.search e)
  | .ok documents =>
    (w.addDocuments .empty documents).map fun a => a.report documents.length

/-- The log events from the start of a run to its end. -/
def events (w : Workspace) (paths : List Path) : List LogEvent :=
  let target := "gherkin_graph"
  let started : LogEvent :=
    ⟨.info, target, "starting gherkin-graph", [("version", .quoted "0.1.0")]⟩
  let work :=
    match w.files.findDocuments paths with
    | .error _ => []
    | .ok documents => w.addEvents .empty documents
  let ended : LogEvent :=
    match w.report paths with
    | .ok report =>
      ⟨.info, target, "graph built",
        [("documents", .plain (toString report.documents)),
          ("features", .plain (toString report.features)),
          ("tags", .plain (toString report.tags.length))]⟩
    | .error e => ⟨.error, target, "graph build failed", [("error", .plain e.message)]⟩
  started :: work ++ [ended]

end Workspace

/-- What a run leaves behind. -/
structure Output where
  code : Nat
  stdout : String
  stderr : String
deriving DecidableEq, Repr

namespace Output

/-- The text of a log at a level. -/
def logText (level : LogLevel) (events : List LogEvent) : String :=
  String.join ((LogEvent.shownAt level events).map fun e => e.line ++ "\n")

/-- The output of a run with valid arguments. The environment is read first, so a log level in it
has to be valid even where the arguments replace it. -/
def ofRun (files : FileSystem) (grammar : Grammar) (environment : String → Option String)
    (a : Arguments) : Output :=
  match Settings.ofVariables environment with
  | .error e =>
    let refused : LogEvent :=
      ⟨.error, "gherkin_graph", "invalid configuration", [("error", .plain e.message)]⟩
    ⟨2, "", logText Settings.default.logLevel [refused]⟩
  | .ok settings =>
    let settings := settings.override a.logLevel a.excludedTags
    let w : Workspace := ⟨files, grammar, settings.filter⟩
    let log := logText settings.logLevel (w.events a.paths)
    match w.report a.paths with
    | .error _ => ⟨1, "", log⟩
    | .ok report =>
      let text := if a.isPretty then report.toJson.pretty else report.toJson.compact
      ⟨0, text ++ "\n", log⟩

/-- What `--version` shows. -/
def versionText : String := "gherkin-graph 0.1.0\n"

/-- The first line of what `--help` shows after the description, and the hint in a usage error. -/
def usageText : String := "Usage: gherkin-graph [OPTIONS] <PATHS>...\n"

/-- What `--help` shows. -/
def helpText : String :=
  "Build a navigable graph from Gherkin feature files\n\n" ++ usageText ++ "\n" ++
  "Arguments:\n" ++
  "  <PATHS>...  Feature files or directories to search for .feature files\n\n" ++
  "Options:\n" ++
  "      --exclude-tag <TAG>      Skip features and scenarios carrying this tag (repeatable)\n" ++
  "      --log-level <LOG_LEVEL>  Log level (trace, debug, info, warn, error)\n" ++
  "      --pretty                 Pretty-print the JSON summary\n" ++
  "  -h, --help                   Print help\n" ++
  "  -V, --version                Print version\n"

/-- The output of the program. -/
def ofInvocation (files : FileSystem) (grammar : Grammar)
    (environment : String → Option String) : Invocation → Output
  | .run a => ofRun files grammar environment a
  | .showVersion => ⟨0, versionText, ""⟩
  | .showHelp => ⟨0, helpText, ""⟩
  | .refused e => ⟨2, "", "error: " ++ e.message ++ "\n\n" ++ usageText⟩

end Output

end FeatureAtlas
