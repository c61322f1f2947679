import FeatureAtlas.Json.Reader
import FeatureAtlas.Listing
import FeatureAtlas.Run

/-!
# The program

The outermost layer: the arguments and environment come from the system, and a listing of the files
from standard input. It is read only by a run, so the version and the help need none.
-/

namespace FeatureAtlas

/-- Read a stream to its end. -/
partial def readAll (stream : IO.FS.Stream) (read : String) : IO String := do
  let line ← stream.getLine
  if line.isEmpty then return read
  readAll stream (read ++ line)

/-- The variables of the environment that a run looks up. -/
def readEnvironment : IO (String → Option String) := do
  let level ← IO.getEnv Settings.logLevelVariable
  let tags ← IO.getEnv Settings.excludedTagsVariable
  return fun name =>
    if name = Settings.logLevelVariable then level
    else if name = Settings.excludedTagsVariable then tags
    else none

/-- The listing that a run gets on standard input. -/
def readListing : IO Listing := do
  let text ← readAll (← IO.getStdin) ""
  match Json.read? text with
  | some j => return Listing.ofJson j
  | none => throw (IO.userError "standard input holds no listing of files")

end FeatureAtlas

open FeatureAtlas in
/-- Perform what the arguments ask for, and leave with its exit code. -/
def main (arguments : List String) : IO UInt32 := do
  let invocation := CommandLine.parse arguments
  let listing ←
    match invocation with
    | .run _ => readListing
    | _ => pure ⟨[], [], []⟩
  let environment ← readEnvironment
  let output := Output.ofInvocation listing.fileSystem listing.grammar environment invocation
  IO.eprint output.stderr
  IO.print output.stdout
  return output.code.toUInt32
