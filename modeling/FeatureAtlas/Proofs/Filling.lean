import FeatureAtlas.Proofs.Cutting
import FeatureAtlas.Proofs.Shapes

/-!
# Filled templates

`Placeholder.Occurs` says that a placeholder stands in a text, brackets and all; the names that are
read from a text are just those of which this is true. `Placeholder.IsFilledWith` says that a text
is a template with values in place of its placeholders, wherever the values come from, and
`Step.IsFilledWith` says it of all texts of a step. The copies of a step that are made for a row are
filled with the cells of the row.
-/

namespace FeatureAtlas

namespace Placeholder

/-- A placeholder with this name stands somewhere in the text. -/
def Occurs (name : String) (cs : List Char) : Prop :=
  IsName name.toList ∧ (Piece.token name.toList).source <:+: cs

/-- What comes in place of a placeholder: its value, or if it has none the placeholder itself. -/
def filling (value? : String → Option String) (name : List Char) : List Char :=
  match value? (String.ofList name) with
  | some value => value.toList
  | none => (Piece.token name).source

/-- The text is the template with values in place of its placeholders. -/
def IsFilledWith (value? : String → Option String) (template text : String) : Prop :=
  ∃ d : Cut, d.IsOf template.toList ∧ text.toList = d.fill (filling value?)

/-- What is read as a placeholder has a name without brackets. -/
theorem isName_of_token_mem {name cs : List Char} (h : Piece.token name ∈ pieces cs) :
    IsName name := by
  fun_induction pieces cs with
  | case1 => cases h
  | case2 cs name' rest hclosed _ ih =>
    rcases List.mem_cons.1 h with heq | hrest
    · cases heq
      exact isName_iff.2 (closedName?_eq_some_iff.1 hclosed).1
    · exact ih hrest
  | case3 cs hnone ih => exact ih (by simpa using h)
  | case4 c cs hc ih => exact ih (by simpa using h)

/-- The names on the pieces of a text are those of the placeholders that stand in it. -/
theorem mem_filterMap_name?_pieces {name : String} {cs : List Char} :
    name ∈ (pieces cs).filterMap Piece.name? ↔ Occurs name cs := by
  constructor
  · intro h
    obtain ⟨p, hp, hname⟩ := List.mem_filterMap.1 h
    cases p with
    | literal c => cases hname
    | token n =>
      cases hname
      obtain ⟨before, after, hsplit⟩ := List.append_of_mem hp
      rw [Occurs, String.toList_ofList]
      refine ⟨isName_of_token_mem hp, before.flatMap Piece.source, after.flatMap Piece.source, ?_⟩
      conv_rhs => rw [← flatMap_source_pieces cs, hsplit]
      simp
  · rintro ⟨hname, before, after, rfl⟩
    rw [List.append_assoc, source_token_append, pieces_append_open, ← source_token_append,
      pieces_token hname]
    simp [Piece.name?]

theorem mem_names_iff {name text : String} : name ∈ names text ↔ Occurs name text.toList :=
  mem_filterMap_name?_pieces

end Placeholder

namespace Binding

/-- The cells of a row are looked up one way for reading and another for rendering. -/
theorem filling_get? (b : Binding) : Placeholder.filling b.get? = b.value := by
  funext name
  rw [Placeholder.filling, get?_eq_lookup]
  rfl

/-- A rendered template is filled with the cells of the row. -/
theorem isFilledWith_render (b : Binding) (text : String) :
    Placeholder.IsFilledWith b.get? text (b.render text) := by
  have hcut := Placeholder.Cut.isOf_ofPieces text.toList
  refine ⟨_, hcut, ?_⟩
  rw [render, String.toList_ofList, Placeholder.Cut.pieces_eq_of_isOf hcut,
    Placeholder.Cut.flatMap_pieces b.renderPiece_literal, filling_get?]
  simp only [renderPiece_token]
  rw [Placeholder.Cut.ofPieces_pieces]

end Binding

namespace Step

/-- Every text of a step in which a placeholder can stand: its own, the doc string, and the cells
row by row. -/
def texts (s : Step) : List String :=
  s.text :: (s.docString.toList ++ (s.table.toList.flatMap (·.rows)).flatten)

/-- The step has the shape of the template, and each of its texts is that of the template filled. -/
structure IsFilledWith (value? : String → Option String) (template s : Step) : Prop where
  shape : s.IsShapedLike template
  texts : List.Forall₂ (Placeholder.IsFilledWith value?) template.texts s.texts

theorem texts_bind (template : Step) (b : Binding) (owner : ScenarioId) :
    (template.bind b owner).texts = template.texts.map b.render := by
  cases hdoc : template.docString <;> cases htable : template.table <;>
    simp [texts, bind, DataTable.map, hdoc, htable, List.map_flatten]

theorem isShapedLike_bind (template : Step) (b : Binding) (owner : ScenarioId) :
    (template.bind b owner).IsShapedLike template where
  table := by cases htable : template.table <;> simp [bind, htable]
  docString := by simp [bind]

/-- The copy of a step for a row is filled with the cells of the row. -/
theorem isFilledWith_bind (template : Step) (b : Binding) (owner : ScenarioId) :
    template.IsFilledWith b.get? (template.bind b owner) where
  shape := template.isShapedLike_bind b owner
  texts := by
    rw [texts_bind, List.forall₂_map_right_iff]
    exact List.forall₂_same.2 fun text _ => b.isFilledWith_render text

end Step

end FeatureAtlas
