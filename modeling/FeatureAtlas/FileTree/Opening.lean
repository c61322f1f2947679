import FeatureAtlas.Document.Reading
import FeatureAtlas.FileTree

/-!
# Opening documents

A document is opened by reading its file and then its text.
-/

namespace FeatureAtlas

/-- A file that could not be read. -/
structure OpenError where
  file : Path
  cause : FileError
deriving DecidableEq, Repr

/-- The wording of an open error. -/
def OpenError.message (e : OpenError) : String :=
  "failed to read feature file " ++ e.file.text ++ ": " ++ e.cause.message

namespace FileSystem

/-- Open the document at a path. -/
def openDocument (fs : FileSystem) (grammar : Grammar) (p : Path) : Except OpenError ReadDocument :=
  match fs.readText p with
  | .ok text => .ok (Document.read grammar p text)
  | .error e => .error ⟨p, e⟩

/-- The log events of opening the document at a path. -/
def openEvents (fs : FileSystem) (grammar : Grammar) (p : Path) : List LogEvent :=
  match fs.readText p with
  | .ok text => Document.readEvents grammar p text
  | .error _ => []

end FileSystem

end FeatureAtlas
