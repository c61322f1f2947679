import FeatureAtlas.Path

/-!
# File trees

A tree of directories, regular files and symbolic links, and the way a path is followed through it.
A path is followed piece by piece: an empty piece or a dot asks for a directory, and a link is
replaced by the pieces of its target. No more than forty links are followed, so a loop of links
ends with an error. A path that is empty, too long as a whole, or holds a NUL leads nowhere.
-/

namespace FeatureAtlas

/-- A directory, a regular file, or a symbolic link. -/
inductive FileTree where
  | directory (entries : List (String × FileTree))
  | file (content : ByteArray)
  | link (target : String)

/-- Why a path cannot be followed or a file cannot be read. -/
inductive FileError where
  | notFound
  | notDirectory
  | isDirectory
  | tooManyLinks
  | nameTooLong
  | nulInName
  | notUtf8
deriving DecidableEq, Repr

/-- The wording of a file error. -/
def FileError.message : FileError → String
  | .notFound => "No such file or directory (os error 2)"
  | .notDirectory => "Not a directory (os error 20)"
  | .isDirectory => "Is a directory (os error 21)"
  | .tooManyLinks => "Too many levels of symbolic links (os error 40)"
  | .nameTooLong => "File name too long (os error 36)"
  | .nulInName => "file name contained an unexpected NUL byte"
  | .notUtf8 => "stream did not contain valid UTF-8"

namespace FileTree

/-- The empty directory. -/
def empty : FileTree := .directory []

instance : Inhabited FileTree := ⟨empty⟩

/-- Whether it is a directory. -/
def isDirectory : FileTree → Bool
  | .directory _ => true
  | _ => false

/-- Whether it is a regular file. -/
def isFile : FileTree → Bool
  | .file _ => true
  | _ => false

/-- The entry of a directory with the given name. -/
def child? (t : FileTree) (name : String) : Option FileTree :=
  match t with
  | .directory entries => (entries.find? (·.1 == name)).map (·.2)
  | _ => none

/-- What stands at a place, given by the names on the way to it. Links are not followed. -/
def get? (t : FileTree) : List String → Option FileTree
  | [] => some t
  | name :: names => (t.child? name).bind (get? · names)

/-- The tree with something put at a place. Directories on the way are made. -/
def put (t : FileTree) (node : FileTree) : List String → FileTree
  | [] => node
  | name :: names =>
    let entries :=
      match t with
      | .directory entries => entries
      | _ => []
    let inner := ((entries.find? (·.1 == name)).map (·.2)).getD empty
    .directory (entries.filter (·.1 != name) ++ [(name, inner.put node names)])

/-- The tree with a directory at a place, which is kept if it is there. -/
def makeDirectory (t : FileTree) (place : List String) : FileTree :=
  match t.get? place with
  | some (.directory _) => t
  | _ => t.put empty place

end FileTree

/-- A tree seen from a working directory, from which relative paths start. -/
structure FileSystem where
  root : FileTree
  workingDirectory : List String

namespace FileSystem

/-- How many links are followed on the way to one place. -/
def maxLinks : Nat := 40

/-- How many bytes a name may take. -/
def maxNameBytes : Nat := 255

/-- How many bytes a path may take. -/
def maxPathBytes : Nat := 4095

/-- The pieces of a path between separators. -/
def pathPieces (text : String) : List String :=
  (text.toList.splitOn '/').map String.ofList

/-- Whether a path starts at the root. -/
def isAbsolute (text : String) : Bool :=
  text.toList.head? = some '/'

/-- Follow pieces from a place. `links` is the number of links that may still be followed; a link
that is the last piece is followed only if `followLast` is set. The answer is a place with no link
on the way to it. -/
def follow (fs : FileSystem) (followLast : Bool) (links : Nat) (place : List String) :
    List String → Except FileError (List String)
  | [] => .ok place
  | piece :: pieces =>
    match fs.root.get? place with
    | none => .error .notFound
    | some node =>
      if !node.isDirectory then .error .notDirectory
      else if piece = "" ∨ piece = "." then follow fs followLast links place pieces
      else if piece = ".." then follow fs followLast links place.dropLast pieces
      else if maxNameBytes < piece.utf8ByteSize then .error .nameTooLong
      else
        match node.child? piece with
        | none => .error .notFound
        | some (.link target) =>
          if pieces = [] ∧ followLast = false then .ok (place ++ [piece])
          else
            match links with
            | 0 => .error .tooManyLinks
            | links + 1 =>
              follow fs followLast links (if isAbsolute target then [] else place)
                (pathPieces target ++ pieces)
        | some _ => follow fs followLast links (place ++ [piece]) pieces
termination_by pieces => (links, pieces.length)

/-- The place that a path leads to. Its length as a whole does not matter. -/
def locate (fs : FileSystem) (followLast : Bool) (p : Path) : Except FileError (List String) :=
  fs.follow followLast maxLinks (if isAbsolute p.text then [] else fs.workingDirectory)
    (pathPieces p.text)

/-- The place that a path leads to when all links are followed. -/
def resolve (fs : FileSystem) (p : Path) : Except FileError (List String) :=
  fs.locate true p

/-- What is wrong with the writing of a path, in any tree. -/
def pathFault? (p : Path) : Option FileError :=
  if p.text.toList.contains '\x00' then some .nulInName
  else if p.text = "" then some .notFound
  else if maxPathBytes < p.text.utf8ByteSize then some .nameTooLong
  else none

/-- What stands at the place that a path leads to. -/
def lookup (fs : FileSystem) (followLast : Bool) (p : Path) : Except FileError FileTree :=
  match pathFault? p, fs.locate followLast p with
  | some e, _ => .error e
  | none, .error e => .error e
  | none, .ok place =>
    match fs.root.get? place with
    | some node => .ok node
    | none => .error .notFound

/-- Whether a path leads to a directory. -/
def isDirectory (fs : FileSystem) (p : Path) : Bool :=
  match fs.lookup true p with
  | .ok node => node.isDirectory
  | .error _ => false

/-- The text of a file. -/
def readText (fs : FileSystem) (p : Path) : Except FileError String :=
  match fs.lookup true p with
  | .error e => .error e
  | .ok (.file content) =>
    match String.fromUTF8? content with
    | some text => .ok text
    | none => .error .notUtf8
  | .ok _ => .error .isDirectory

end FileSystem

end FeatureAtlas
