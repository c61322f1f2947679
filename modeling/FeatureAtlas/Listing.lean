import FeatureAtlas.Document.Reading
import FeatureAtlas.FileTree

/-!
# Listings

The files of a run reach the program as a listing, a JSON object made by whoever has access to the
disk and to the Gherkin grammar. It names directories, files and links by paths from the working
directory. A file has its text, or its bytes where these are no text, and with a text comes what
the grammar says of it.
-/

namespace FeatureAtlas

/-- A file of a listing with the grammar's result. -/
structure ListedFile where
  path : Path
  content : ByteArray
  parsed : Json

/-- The files of a run. -/
structure Listing where
  directories : List Path
  files : List ListedFile
  links : List (Path × String)

namespace ListedFile

/-- The text of a file as the grammar gets it. -/
def grammarText? (f : ListedFile) : Option String :=
  (String.fromUTF8? f.content).map Document.endLine

/-- A file in its JSON form. -/
def ofJson (j : Json) : ListedFile :=
  let content :=
    match j.part? "bytes" with
    | some bytes =>
      ⟨(((bytes.items?.getD []).filterMap Json.number?).map Nat.toUInt8).toArray⟩
    | none => (j.text "text").toUTF8
  ⟨⟨j.text "path"⟩, content, j.part "ast"⟩

end ListedFile

namespace Listing

/-- A listing in its JSON form. -/
def ofJson (j : Json) : Listing :=
  ⟨(j.part "dirs").texts.map Path.mk, (j.items "files").map ListedFile.ofJson,
    (j.items "links").map fun link => (⟨link.text "path"⟩, link.text "target")⟩

/-- The place of the working directory. It is below the root, so an absolute path leads to no file
of a listing. -/
def workingDirectory : List String := ["work"]

/-- The place of a listed path. -/
def placeOf (p : Path) : List String :=
  p.components.foldl (fun place component =>
    match component with
    | .root => []
    | .here => place
    | .up => place.dropLast
    | .name name => place ++ [name]) workingDirectory

/-- The tree of a listing: first the directories are made, then the files, then the links. -/
def tree (l : Listing) : FileTree :=
  let start := FileTree.empty.makeDirectory workingDirectory
  let directories := l.directories.foldl (fun t p => t.makeDirectory (placeOf p)) start
  let files := l.files.foldl (fun t f => t.put (.file f.content) (placeOf f.path)) directories
  l.links.foldl (fun t (p, target) => t.put (.link target) (placeOf p)) files

/-- The files of a listing as a run sees them. -/
def fileSystem (l : Listing) : FileSystem := ⟨l.tree, workingDirectory⟩

/-- The grammar that knows the texts of a listing. -/
def grammar (l : Listing) : Grammar := fun text =>
  match l.files.find? fun f => f.grammarText? == some text with
  | some f => ParseTree.resultOfJson f.parsed
  | none => .error "the listing has no parse tree for this text"

end Listing

end FeatureAtlas
