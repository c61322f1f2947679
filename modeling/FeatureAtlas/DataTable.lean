import FeatureAtlas.Ragged

/-!
# Data tables

A `DataTable` is a list of rows of texts. A table read from a document is rectangular; cells may
be added later, so the type does not ask for it.
-/

namespace FeatureAtlas

/-- A table of texts. -/
structure DataTable where
  rows : List (List String)
deriving DecidableEq, Repr

namespace DataTable

/-- The table of a document's rows; all rows have to be as wide as the first. -/
def ofRows (document : Path) (rows : List Row) : Except RaggedError DataTable :=
  match RaggedRow.find? document ((rows.head?.map (·.cells.length)).getD 0) rows with
  | some ragged => .error (.table ragged)
  | none => .ok ⟨rows.map (·.cells)⟩

/-- How many rows there are. -/
def height (t : DataTable) : Nat := t.rows.length

/-- How many cells the first row has. -/
def width (t : DataTable) : Nat := (t.rows.head?.map List.length).getD 0

/-- A row, counted from zero. -/
def row? (t : DataTable) (row : Nat) : Option (List String) := t.rows[row]?

/-- A cell, by row and column, both counted from zero. -/
def cell? (t : DataTable) (row column : Nat) : Option String := (t.rows[row]?).bind (·[column]?)

/-- The table with every cell changed. -/
def map (change : String → String) (t : DataTable) : DataTable :=
  ⟨t.rows.map (List.map change)⟩

/-- The table with one row changed; a row that is not there changes nothing. -/
def modifyRow (t : DataTable) (row : Nat) (change : List String → List String) : DataTable :=
  ⟨t.rows.modify row change⟩

/-- The table with one cell changed; a cell that is not there changes nothing. -/
def modifyCell (t : DataTable) (row column : Nat) (change : String → String) : DataTable :=
  t.modifyRow row fun cells => cells.modify column change

/-- The table with one cell added at the end of a row; a row that is not there changes nothing. -/
def pushCell (t : DataTable) (row : Nat) (cell : String) : DataTable :=
  t.modifyRow row fun cells => cells ++ [cell]

/-- All rows are as wide as the first. -/
def IsRectangular (t : DataTable) : Prop :=
  ∀ row ∈ t.rows, row.length = t.width

@[simp] theorem height_map (change : String → String) (t : DataTable) :
    (t.map change).height = t.height := by
  simp [map, height]

@[simp] theorem width_map (change : String → String) (t : DataTable) :
    (t.map change).width = t.width := by
  obtain ⟨_ | ⟨row, rows⟩⟩ := t <;> simp [map, width]

@[simp] theorem cell?_map (change : String → String) (t : DataTable) (row column : Nat) :
    (t.map change).cell? row column = (t.cell? row column).map change := by
  simp only [cell?, map, List.getElem?_map]
  cases t.rows[row]? <;> simp

theorem IsRectangular.map {t : DataTable} (h : t.IsRectangular) (change : String → String) :
    (t.map change).IsRectangular := by
  intro row hrow
  obtain ⟨cells, hcells, rfl⟩ := List.mem_map.1 hrow
  simpa using h cells hcells

end DataTable

end FeatureAtlas
