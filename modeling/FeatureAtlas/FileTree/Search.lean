import FeatureAtlas.FileTree

/-!
# Finding documents

Paths given to a run name documents or directories that contain them. A directory is searched to
the bottom, without entering links to directories. An entry is kept if it leads to a regular file
whose place, after all links, has the extension of a feature file. The result is ordered by path.
-/

namespace FeatureAtlas

/-- A directory that could not be searched. -/
structure SearchError where
  directory : Path
  cause : FileError
deriving DecidableEq, Repr

/-- The wording of a search error. -/
def SearchError.message (e : SearchError) : String :=
  "failed to search " ++ e.directory.text ++ ": " ++ e.cause.message

namespace FileSystem

/-- The path of an entry that is no directory, if it leads to a feature file. -/
def keepEntry (fs : FileSystem) (p : Path) : Except FileError (List Path) :=
  match fs.resolve p with
  | .error e => .error e
  | .ok place =>
    let isFile := ((fs.root.get? place).map FileTree.isFile).getD false
    let isFeature := ((place.getLast?.map Path.mk).map Path.hasFeatureExtension).getD false
    .ok (if isFile && isFeature then [p] else [])

mutual

/-- The feature files at a path and below it. -/
def searchNode (fs : FileSystem) (p : Path) : FileTree → Except FileError (List Path)
  | .directory entries =>
    match pathFault? p with
    | some e => .error e
    | none => searchEntries fs p entries
  | .file _ => fs.keepEntry p
  | .link _ => fs.keepEntry p

/-- The feature files among and below the entries of a directory. -/
def searchEntries (fs : FileSystem) (p : Path) :
    List (String × FileTree) → Except FileError (List Path)
  | [] => .ok []
  | (name, node) :: entries => do
    let here ← searchNode fs (p.entry name) node
    let rest ← searchEntries fs p entries
    return here ++ rest

end

/-- The paths in order; those with the same components keep the order in which they were given. -/
def sortPaths (paths : List Path) : List Path :=
  paths.mergeSort Path.le

/-- The feature files at or below a path. A link given as the start is entered if it leads to a
directory. -/
def featureFiles (fs : FileSystem) (p : Path) : Except FileError (List Path) := do
  let start ← fs.lookup false p
  let top ←
    match start with
    | .link _ => fs.lookup true p
    | node => pure node
  let found ← fs.searchNode p top
  return sortPaths found

/-- The list without paths that are the same as the one kept before them. -/
def dropSame : List Path → List Path
  | [] => []
  | p :: paths => p :: dropSameAs p paths
where
  /-- The list without paths that are the same as the last one kept. -/
  dropSameAs (last : Path) : List Path → List Path
    | [] => []
    | p :: paths => if last.same p then dropSameAs last paths else p :: dropSameAs p paths

/-- The documents that a given path stands for: the feature files of a directory, and otherwise
the path itself, whether or not it exists. -/
def findDocumentsAt (fs : FileSystem) (p : Path) : Except SearchError (List Path) :=
  if fs.isDirectory p then
    match fs.featureFiles p with
    | .ok found => .ok found
    | .error e => .error ⟨p, e⟩
  else .ok [p]

/-- The documents that given paths stand for, in order and each once. -/
def findDocuments (fs : FileSystem) (paths : List Path) : Except SearchError (List Path) := do
  let found ← paths.mapM fs.findDocumentsAt
  return dropSame (sortPaths found.flatten)

end FileSystem

end FeatureAtlas
