import FeatureAtlas.Document

/-!
# Ragged tables

The only thing that stops a document from being added is a table whose rows differ in width.
-/

namespace FeatureAtlas

/-- A row that does not have the expected width. Rows are counted from zero. -/
structure RaggedRow where
  document : Path
  line : Nat
  row : Nat
  expected : Nat
  found : Nat
deriving DecidableEq, Repr

/-- The first row of another width than expected. -/
def RaggedRow.find? (document : Path) (expected : Nat) (rows : List Row) : Option RaggedRow :=
  (rows.zipIdx.find? fun (row, _) => row.cells.length ≠ expected).map fun (row, index) =>
    ⟨document, row.position.line, index, expected, row.cells.length⟩

/-- Why a document cannot be added: a row of a step's table is not as wide as the first row, or a
data row of an examples block is not as wide as the header. -/
inductive RaggedError where
  | table (row : RaggedRow)
  | examples (row : RaggedRow)
deriving DecidableEq, Repr

namespace RaggedError

/-- The row that is to blame. -/
def row : RaggedError → RaggedRow
  | .table r => r
  | .examples r => r

/-- The wording of the error. -/
def message : RaggedError → String
  | .table r =>
    r.document.text ++ ":" ++ toString r.line ++ ": data table row " ++ toString r.row ++ " has "
      ++ toString r.found ++ " cells, expected " ++ toString r.expected
  | .examples r =>
    r.document.text ++ ":" ++ toString r.line ++ ": examples row " ++ toString r.row ++ " has "
      ++ toString r.found ++ " cells, header has " ++ toString r.expected

end RaggedError

end FeatureAtlas
