/-!
# Placeholders

A template such as `I have <count> items` has its placeholders replaced by the cells of an examples
row. A placeholder is a `<`, a name without angle brackets, and a `>`. The template is read once
from left to right: `pieces` cuts it, and the cells put in are not read again.
-/

namespace FeatureAtlas

namespace Placeholder

/-- A part of a template: one character that stands for itself, or a placeholder's name. -/
inductive Piece where
  | literal (c : Char)
  | token (name : List Char)
deriving DecidableEq, Repr

/-- Whether a character is no angle bracket. -/
def isNameChar (c : Char) : Bool := c ≠ '<' && c ≠ '>'

/-- The name that the text begins with, if a `>` closes it before another `<`, and what follows
the `>`. -/
def closedName? (cs : List Char) : Option (List Char × List Char) :=
  match cs.dropWhile isNameChar with
  | '>' :: rest => some (cs.takeWhile isNameChar, rest)
  | _ => none

theorem closedName?_eq_some_iff {cs name rest : List Char} :
    closedName? cs = some (name, rest) ↔
      (∀ c ∈ name, isNameChar c = true) ∧ cs = name ++ '>' :: rest := by
  constructor
  · intro h
    unfold closedName? at h
    split at h
    · next hd =>
      simp only [Option.some.injEq, Prod.mk.injEq] at h
      obtain ⟨rfl, rfl⟩ := h
      refine ⟨fun c hc => ?_, ?_⟩
      · exact (List.all_eq_true.1 List.all_takeWhile) c hc
      · rw [← hd, List.takeWhile_append_dropWhile]
    · cases h
  · rintro ⟨hname, rfl⟩
    have h' : isNameChar '>' = false := by decide
    simp [closedName?, List.dropWhile_append_of_pos hname, List.takeWhile_append_of_pos hname,
      h']

/-- The pieces of a template. A `<` that begins no placeholder stands for itself. -/
def pieces : List Char → List Piece
  | [] => []
  | c :: cs =>
    if c = '<' then
      match h : closedName? cs with
      | some (name, rest) =>
        have : rest.length < cs.length := by
          rw [(closedName?_eq_some_iff.1 h).2, List.length_append, List.length_cons]
          omega
        .token name :: pieces rest
      | none => .literal c :: pieces cs
    else .literal c :: pieces cs
termination_by cs => cs.length

namespace Piece

/-- A piece as it stands in the template. -/
def source : Piece → List Char
  | .literal c => [c]
  | .token name => '<' :: name ++ ['>']

/-- The name of a placeholder. -/
def name? : Piece → Option String
  | .literal _ => none
  | .token name => some (String.ofList name)

end Piece

/-- Cutting a template loses nothing. -/
theorem flatMap_source_pieces (cs : List Char) : (pieces cs).flatMap Piece.source = cs := by
  fun_induction pieces cs with
  | case1 => rfl
  | case2 cs name rest h _ ih =>
    simp [Piece.source, ih, (closedName?_eq_some_iff.1 h).2]
  | case3 _ _ ih => simp [Piece.source, ih]
  | case4 _ _ _ ih => simp [Piece.source, ih]

/-- The names of the placeholders in a text, in order, repeats included. -/
def names (text : String) : List String :=
  (pieces text.toList).filterMap Piece.name?

end Placeholder

/-- The columns of an examples block with the cells of one of its rows. -/
structure Binding where
  columns : List String
  cells : List String
deriving DecidableEq, Repr

namespace Binding

/-- The cell of a column; of columns with one name the leftmost counts, and a cell that the row
lacks is empty. -/
def get? (b : Binding) (column : String) : Option String :=
  (b.columns.findIdx? (· == column)).map fun index => b.cells[index]?.getD ""

/-- What a piece of a template becomes: a placeholder that names no column stays as it is. -/
def renderPiece (b : Binding) (piece : Placeholder.Piece) : List Char :=
  match piece.name?.bind b.get? with
  | some cell => cell.toList
  | none => piece.source

/-- The text with its placeholders replaced. -/
def render (b : Binding) (text : String) : String :=
  String.ofList ((Placeholder.pieces text.toList).flatMap b.renderPiece)

/-- Every column with its cell, in order. -/
def pairs : List String → List String → List (String × String)
  | [], _ => []
  | column :: columns, [] => (column, "") :: pairs columns []
  | column :: columns, cell :: cells => (column, cell) :: pairs columns cells

end Binding

end FeatureAtlas
