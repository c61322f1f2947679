import FeatureAtlas.Proofs.Cutting
import Mathlib.Data.List.Perm.Basic

/-!
# Rendering and replacing

A row can also be put into a text column by column: wherever `<column>` stands in the text obtained
so far, it is replaced by the column's cell. In general that differs from rendering, as a cell may
bring in placeholders, or close one that was left open. It agrees with it, in every order of the
columns, if each `<` of the text begins a placeholder and no cell has a `<`. Then the texts on the
way are made of closed pieces, literal characters that are no `<` and placeholders, and replacing
works on them piece by piece.
-/

namespace FeatureAtlas

/-! ## Replacing -/

namespace Text

/-- The text with every occurrence of `old` replaced, from left to right. What is put in is not
searched again, and an empty text does not occur. -/
def replaceChars (old new : List Char) : List Char → List Char
  | [] => []
  | c :: cs =>
    if old ≠ [] ∧ old <+: c :: cs then new ++ replaceChars old new ((c :: cs).drop old.length)
    else c :: replaceChars old new cs
termination_by cs => cs.length
decreasing_by
  · next h =>
    have hpos : 0 < old.length := List.length_pos_iff.2 h.1
    simp only [List.length_drop, List.length_cons]
    omega
  · simp

/-- `replaceChars` for texts. -/
def replace (old new text : String) : String :=
  String.ofList (replaceChars old.toList new.toList text.toList)

/-- The text after the columns are replaced by their cells, one column after the other. -/
def replaceEach (text : String) (columns : List (String × String)) : String :=
  columns.foldl (fun text (column, cell) => replace ("<" ++ column ++ ">") cell text) text

end Text

namespace Placeholder

/-- Every `<` of the text begins a placeholder. -/
def IsClosed (cs : List Char) : Prop :=
  ∀ before after, cs = before ++ '<' :: after →
    ∃ name rest, IsName name ∧ after = name ++ '>' :: rest

namespace Piece

/-- A literal character that is no `<`, or a placeholder. -/
def IsClosed : Piece → Prop
  | .literal c => c ≠ '<'
  | .token name => IsName name

instance : DecidablePred IsClosed
  | .literal c => inferInstanceAs (Decidable (c ≠ '<'))
  | .token name => inferInstanceAs (Decidable (IsName name))

/-- The pieces that come in place of one, given the cells of some columns. -/
def fill (columns : List (String × String)) : Piece → List Piece
  | .literal c => [.literal c]
  | .token name =>
    match columns.lookup (String.ofList name) with
    | some cell => cell.toList.map .literal
    | none => [.token name]

end Piece

/-! ## Closed pieces -/

theorem IsClosed.of_suffix {cs ds : List Char} (h : IsClosed cs) (hsuffix : ds <:+ cs) :
    IsClosed ds := by
  obtain ⟨skipped, rfl⟩ := hsuffix
  rintro before after rfl
  exact h (skipped ++ before) after (by simp)

theorem IsClosed.isClosed_of_mem {cs : List Char} (h : IsClosed cs) :
    ∀ p ∈ pieces cs, p.IsClosed := by
  fun_induction pieces cs with
  | case1 => exact fun p hp => by cases hp
  | case2 cs name rest hclosed _ ih =>
    obtain ⟨hname, rfl⟩ := closedName?_eq_some_iff.1 hclosed
    refine List.forall_mem_cons.2 ⟨isName_iff.2 hname, ih (h.of_suffix ?_)⟩
    exact ⟨'<' :: name ++ ['>'], by simp⟩
  | case3 cs hnone _ =>
    obtain ⟨name, rest, hname, rfl⟩ := h [] cs rfl
    rw [closedName?_of_isName hname] at hnone
    cases hnone
  | case4 c cs hc ih =>
    exact List.forall_mem_cons.2 ⟨hc, ih (h.of_suffix (List.suffix_cons c cs))⟩

/-- It can be decided on the pieces whether each `<` begins a placeholder. -/
theorem isClosed_iff {cs : List Char} : IsClosed cs ↔ ∀ p ∈ pieces cs, p.IsClosed := by
  refine ⟨IsClosed.isClosed_of_mem, ?_⟩
  rintro h before after rfl
  rw [pieces_append_open] at h
  cases hclosed : closedName? after with
  | none =>
    rw [pieces_open_of_none hclosed] at h
    exact absurd rfl (h (.literal '<') (by simp))
  | some found =>
    obtain ⟨hname, heq⟩ := closedName?_eq_some_iff.1 hclosed
    exact ⟨found.1, found.2, isName_iff.2 hname, heq⟩

instance (cs : List Char) : Decidable (IsClosed cs) := decidable_of_iff _ isClosed_iff.symm

/-- Closed pieces are read again from the text that they give. -/
theorem pieces_flatMap_source {ps : List Piece} (h : ∀ p ∈ ps, p.IsClosed) :
    pieces (ps.flatMap Piece.source) = ps := by
  induction ps with
  | nil => rw [List.flatMap_nil, pieces_nil]
  | cons p ps ih =>
    obtain ⟨hp, hps⟩ := List.forall_mem_cons.1 h
    cases p with
    | literal c =>
      rw [List.flatMap_cons, Piece.source, List.singleton_append, pieces_cons_of_ne hp, ih hps]
    | token name => rw [List.flatMap_cons, pieces_token hp, ih hps]

namespace Piece

variable {columns : List (String × String)}

/-- Cells without a `<` leave closed pieces. -/
theorem IsClosed.fill {p : Piece} (h : p.IsClosed)
    (hcells : ∀ x ∈ columns, '<' ∉ x.2.toList) : ∀ q ∈ p.fill columns, q.IsClosed := by
  cases p with
  | literal c => exact List.forall_mem_singleton.2 h
  | token name =>
    simp only [Piece.fill]
    split
    · next cell hcell =>
      obtain ⟨before, after, rfl, -⟩ := List.lookup_eq_some_iff.1 hcell
      have hcell : '<' ∉ cell.toList := hcells (String.ofList name, cell) (by simp)
      refine List.forall_mem_map.2 fun c hc heq => hcell ?_
      rwa [← heq]
    · exact List.forall_mem_singleton.2 h

theorem forall_isClosed_fill {ps : List Piece} (h : ∀ p ∈ ps, p.IsClosed)
    (hcells : ∀ x ∈ columns, '<' ∉ x.2.toList) : ∀ q ∈ ps.flatMap (fill columns), q.IsClosed := by
  intro q hq
  obtain ⟨p, hp, hq⟩ := List.mem_flatMap.1 hq
  exact (h p hp).fill hcells q hq

/-- Columns may be filled in one after the other. -/
theorem fill_cons (column cell : String) (p : Piece) :
    p.fill ((column, cell) :: columns) = (p.fill [(column, cell)]).flatMap (fill columns) := by
  cases p with
  | literal c => simp [fill]
  | token name =>
    have hliterals (cs : List Char) :
        (cs.map Piece.literal).flatMap (fill columns) = cs.map .literal := by
      induction cs with
      | nil => rfl
      | cons c cs ih => rw [List.map_cons, List.flatMap_cons, ih, fill, List.singleton_append]
    by_cases hname : String.ofList name = column
    · simp [fill, hname, hliterals]
    · have hne : (String.ofList name == column) = false := by simpa using hname
      simp [fill, List.lookup_cons, hne]

theorem flatMap_fill_cons (column cell : String) (ps : List Piece) :
    (ps.flatMap (fill [(column, cell)])).flatMap (fill columns) =
      ps.flatMap (fill ((column, cell) :: columns)) := by
  rw [List.flatMap_assoc]
  exact List.flatMap_congr fun p _ => (fill_cons column cell p).symm

/-- A placeholder is left only if no column has its name. -/
theorem lookup_of_token_mem_fill {p : Piece} {name : List Char} (h : token name ∈ p.fill columns) :
    columns.lookup (String.ofList name) = none := by
  cases p with
  | literal c => simp [fill] at h
  | token name' =>
    simp only [fill] at h
    split at h
    · simp at h
    · next hnone =>
      cases List.mem_singleton.1 h
      exact hnone

end Piece

/-! ## Replacing placeholders -/

section

variable {column : List Char} {cell : List Char}

theorem toList_bracketed (column : String) :
    ("<" ++ column ++ ">").toList = (Piece.token column.toList).source := by
  simp [Piece.source]

/-- One placeholder stands at the start of another just if it is the same. -/
theorem source_prefix_iff {name : List Char} (hcolumn : IsName column) (hname : IsName name)
    (rest : List Char) :
    (Piece.token column).source <+: (Piece.token name).source ++ rest ↔ column = name := by
  constructor
  · rintro ⟨more, heq⟩
    rw [source_token_append, source_token_append, List.cons.injEq] at heq
    have hsame := congrArg closedName? heq.2
    rw [closedName?_of_isName hcolumn, closedName?_of_isName hname] at hsame
    cases hsame
    rfl
  · rintro rfl
    exact List.prefix_append _ _

/-- Up to the next `<` nothing is replaced. -/
theorem replaceChars_append_of_notMem {skipped : List Char} (h : '<' ∉ skipped)
    (rest : List Char) :
    Text.replaceChars (Piece.token column).source cell (skipped ++ rest) =
      skipped ++ Text.replaceChars (Piece.token column).source cell rest := by
  induction skipped with
  | nil => rfl
  | cons c skipped ih =>
    rw [List.mem_cons, not_or] at h
    have hstarts : ¬(Piece.token column).source <+: c :: (skipped ++ rest) :=
      fun htoken => h.1 (List.cons_prefix_cons.1 htoken).1
    rw [List.cons_append, Text.replaceChars, if_neg fun h' => hstarts h'.2, ih h.2,
      List.cons_append]

theorem replaceChars_token (rest : List Char) :
    Text.replaceChars (Piece.token column).source cell ((Piece.token column).source ++ rest) =
      cell ++ Text.replaceChars (Piece.token column).source cell rest := by
  have hne : (Piece.token column).source ≠ [] := List.cons_ne_nil _ _
  rw [source_token_append, Text.replaceChars, ← source_token_append column rest,
    if_pos ⟨hne, List.prefix_append _ _⟩, List.drop_left]

theorem replaceChars_token_of_ne {name : List Char} (hcolumn : IsName column) (hname : IsName name)
    (hne : column ≠ name) (rest : List Char) :
    Text.replaceChars (Piece.token column).source cell ((Piece.token name).source ++ rest) =
      (Piece.token name).source ++ Text.replaceChars (Piece.token column).source cell rest := by
  -- The column's placeholder begins neither here nor, for want of a `<`, further inside.
  have hstarts := mt (source_prefix_iff hcolumn hname rest).1 hne
  have hskipped : '<' ∉ name ++ ['>'] := by simp [hname.1]
  rw [source_token_append] at hstarts
  rw [source_token_append, Text.replaceChars, if_neg fun h => hstarts h.2,
    List.append_cons, replaceChars_append_of_notMem hskipped]
  simp [Piece.source]

end

/-- In a text of closed pieces, replacing a placeholder fills in its column. -/
theorem replaceChars_flatMap_source {column cell : String} (hcolumn : IsName column.toList)
    {ps : List Piece} (h : ∀ p ∈ ps, p.IsClosed) :
    Text.replaceChars (Piece.token column.toList).source cell.toList (ps.flatMap Piece.source) =
      (ps.flatMap (Piece.fill [(column, cell)])).flatMap Piece.source := by
  induction ps with
  | nil => rw [List.flatMap_nil, List.flatMap_nil, List.flatMap_nil, Text.replaceChars]
  | cons p ps ih =>
    obtain ⟨hp, hps⟩ := List.forall_mem_cons.1 h
    rw [List.flatMap_cons, List.flatMap_cons, List.flatMap_append, ← ih hps]
    cases p with
    | literal c =>
      have hc : '<' ∉ [c] := by simpa using Ne.symm hp
      rw [Piece.source, replaceChars_append_of_notMem hc, Piece.fill, List.flatMap_singleton,
        Piece.source]
    | token name =>
      by_cases hname : column.toList = name
      · subst hname
        rw [replaceChars_token]
        simp [Piece.fill, List.flatMap_map, Piece.source]
      · have hne : (String.ofList name == column) = false := by
          rw [beq_eq_false_iff_ne]
          rintro rfl
          exact hname (String.toList_ofList)
        rw [replaceChars_token_of_ne hcolumn hp hname]
        simp [Piece.fill, List.lookup_cons, hne]

/-- In a text of closed pieces, replacing some placeholders one after the other fills in their
columns at once. -/
theorem replaceEach_flatMap_source {columns : List (String × String)}
    (hcolumns : ∀ x ∈ columns, IsName x.1.toList) (hcells : ∀ x ∈ columns, '<' ∉ x.2.toList)
    {ps : List Piece} (h : ∀ p ∈ ps, p.IsClosed) :
    Text.replaceEach (String.ofList (ps.flatMap Piece.source)) columns =
      String.ofList ((ps.flatMap (Piece.fill columns)).flatMap Piece.source) := by
  induction columns generalizing ps with
  | nil =>
    have hfill : Piece.fill [] = fun p => [p] := funext fun p => by cases p <;> rfl
    rw [hfill, List.flatMap_singleton']
    rfl
  | cons x columns ih =>
    obtain ⟨column, cell⟩ := x
    obtain ⟨hcolumn, hcolumns⟩ := List.forall_mem_cons.1 hcolumns
    have hcell : ∀ x ∈ [(column, cell)], '<' ∉ x.2.toList :=
      List.forall_mem_singleton.2 (List.forall_mem_cons.1 hcells).1
    -- The first cell brings in no `<`, so the pieces are closed for the columns that follow.
    have hclosed := Piece.forall_isClosed_fill h hcell
    have hreplace : Text.replace ("<" ++ column ++ ">") cell
        (String.ofList (ps.flatMap Piece.source)) =
          String.ofList ((ps.flatMap (Piece.fill [(column, cell)])).flatMap Piece.source) := by
      rw [Text.replace, toList_bracketed, String.toList_ofList,
        replaceChars_flatMap_source hcolumn h]
    calc Text.replaceEach (String.ofList (ps.flatMap Piece.source)) ((column, cell) :: columns)
      _ = Text.replaceEach (Text.replace ("<" ++ column ++ ">") cell
            (String.ofList (ps.flatMap Piece.source))) columns := rfl
      _ = String.ofList (((ps.flatMap (Piece.fill [(column, cell)])).flatMap
            (Piece.fill columns)).flatMap Piece.source) := by
          rw [hreplace, ih hcolumns (List.forall_mem_cons.1 hcells).2 hclosed]
      _ = String.ofList ((ps.flatMap (Piece.fill ((column, cell) :: columns))).flatMap
            Piece.source) := by
          rw [Piece.flatMap_fill_cons]

/-- A placeholder in a text of closed pieces is one of the pieces. -/
theorem mem_of_source_infix {name : List Char} (hname : IsName name) {ps : List Piece}
    (h : ∀ p ∈ ps, p.IsClosed) (htoken : (Piece.token name).source <:+: ps.flatMap Piece.source) :
    Piece.token name ∈ ps := by
  obtain ⟨before, after, heq⟩ := htoken
  rw [← pieces_flatMap_source h, ← heq, List.append_assoc, source_token_append,
    pieces_append_open, ← source_token_append, pieces_token hname]
  simp

end Placeholder

/-! ## Columns in any order -/

section

variable {α β : Type} [BEq α] [LawfulBEq α]

theorem lookup_eq_some_iff_mem {l : List (α × β)} (h : (l.map Prod.fst).Nodup) {key : α}
    {value : β} : l.lookup key = some value ↔ (key, value) ∈ l := by
  induction l with
  | nil => simp
  | cons x l ih =>
    obtain ⟨key', value'⟩ := x
    obtain ⟨hkey', hl⟩ := List.nodup_cons.1 h
    by_cases heq : key = key'
    · subst heq
      have hnotMem : (key, value) ∉ l := fun hmem =>
        hkey' (List.mem_map.2 ⟨(key, value), hmem, rfl⟩)
      rw [List.lookup_cons_self]
      simp [hnotMem, eq_comm]
    · have hne : (key == key') = false := beq_eq_false_iff_ne.2 heq
      rw [List.lookup_cons, hne, List.mem_cons]
      simp [ih hl, heq]

/-- Of distinct keys, each is looked up with the same result in any order. -/
theorem lookup_eq_of_perm {l m : List (α × β)} (h : (l.map Prod.fst).Nodup) (hperm : m.Perm l)
    (key : α) : m.lookup key = l.lookup key := by
  have hm : (m.map Prod.fst).Nodup := (hperm.map Prod.fst).nodup_iff.2 h
  ext value
  rw [lookup_eq_some_iff_mem hm, lookup_eq_some_iff_mem h, hperm.mem_iff]

end

/-- So what is filled in does not depend on the order of distinct columns. -/
theorem Placeholder.Piece.fill_eq_of_perm {columns order : List (String × String)}
    (h : (columns.map Prod.fst).Nodup) (horder : order.Perm columns) :
    fill order = fill columns := by
  funext p
  cases p with
  | literal c => rfl
  | token name => rw [fill, fill, lookup_eq_of_perm h horder]

namespace Binding

open Placeholder (Piece)

theorem map_fst_pairs (columns cells : List String) :
    (pairs columns cells).map Prod.fst = columns := by
  induction columns generalizing cells with
  | nil => rfl
  | cons column columns ih => rw [pairs_cons, List.map_cons, ih]

/-- What is put in for a column is a cell of the row or nothing. -/
theorem snd_of_mem_pairs {columns cells : List String} {x : String × String}
    (h : x ∈ pairs columns cells) : x.2 ∈ cells ∨ x.2 = "" := by
  induction columns generalizing cells with
  | nil => cases h
  | cons column columns ih =>
    rw [pairs_cons, List.mem_cons] at h
    rcases h with rfl | hmem
    · cases cells with
      | nil => exact .inr rfl
      | cons cell cells => exact .inl List.mem_cons_self
    · exact (ih hmem).imp List.mem_of_mem_tail id

theorem renderPiece_eq_fill (b : Binding) (p : Piece) :
    b.renderPiece p = (p.fill (pairs b.columns b.cells)).flatMap Piece.source := by
  cases p with
  | literal c => rfl
  | token name =>
    rw [renderPiece_token, value, Piece.fill]
    cases (pairs b.columns b.cells).lookup (String.ofList name) with
    | none => simp
    | some cell => simp [List.flatMap_map, Piece.source]

/-- To render a text is to fill in all columns at once. -/
theorem render_eq_fill (b : Binding) (text : String) :
    b.render text = String.ofList (((Placeholder.pieces text.toList).flatMap
      (Piece.fill (pairs b.columns b.cells))).flatMap Piece.source) := by
  rw [render, List.flatMap_congr fun p _ => b.renderPiece_eq_fill p, List.flatMap_assoc]

/-- If each `<` of a text begins a placeholder, the columns have distinct names without brackets and
no cell has a `<`, then rendering the text replaces the placeholder of one column after the other
in any order, and no placeholder of a column is left. -/
theorem render_eq_replaceEach {b : Binding} {text : String} {order : List (String × String)}
    (htext : Placeholder.IsClosed text.toList) (hdistinct : b.columns.Nodup)
    (hcolumns : ∀ column ∈ b.columns, Placeholder.IsName column.toList)
    (hcells : ∀ cell ∈ b.cells, '<' ∉ cell.toList) (horder : order.Perm (pairs b.columns b.cells)) :
    b.render text = Text.replaceEach text order ∧
      ∀ column ∈ b.columns, ¬("<" ++ column ++ ">").toList <:+: (b.render text).toList := by
  have hkeys : ((pairs b.columns b.cells).map Prod.fst).Nodup := by rwa [map_fst_pairs]
  have hnames : ∀ x ∈ pairs b.columns b.cells, Placeholder.IsName x.1.toList := fun x hx =>
    hcolumns x.1 (map_fst_pairs b.columns b.cells ▸ List.mem_map_of_mem hx)
  have hvalues : ∀ x ∈ pairs b.columns b.cells, '<' ∉ x.2.toList := by
    intro x hx
    rcases snd_of_mem_pairs hx with hcell | hempty
    · exact hcells x.2 hcell
    · simp [hempty]
  have hps : ∀ p ∈ Placeholder.pieces text.toList, p.IsClosed := htext.isClosed_of_mem
  constructor
  · have hreplace := Placeholder.replaceEach_flatMap_source
      (fun x hx => hnames x (horder.mem_iff.1 hx)) (fun x hx => hvalues x (horder.mem_iff.1 hx)) hps
    rw [Placeholder.flatMap_source_pieces, String.ofList_toList,
      Piece.fill_eq_of_perm hkeys horder, ← render_eq_fill] at hreplace
    exact hreplace.symm
  · intro column hcolumn htoken
    have hfilled := Piece.forall_isClosed_fill hps hvalues
    rw [render_eq_fill, String.toList_ofList, Placeholder.toList_bracketed] at htoken
    obtain ⟨p, -, hleft⟩ := List.mem_flatMap.1
      (Placeholder.mem_of_source_infix (hcolumns column hcolumn) hfilled htoken)
    have hnone := Piece.lookup_of_token_mem_fill hleft
    rw [String.ofList_toList, List.lookup_eq_none_iff] at hnone
    rw [← map_fst_pairs b.columns b.cells] at hcolumn
    obtain ⟨x, hx, rfl⟩ := List.mem_map.1 hcolumn
    simpa using hnone x hx

/-- The row lacks a cell, a cell has a `>`, the text has a placeholder of no column, and the columns
are taken from the right. -/
theorem render_eq_replaceEach_guests :
    render ⟨["who", "n", "note"], ["Ada>Bo", "2"]⟩ "<who> > <n><note> <table>" =
      Text.replaceEach "<who> > <n><note> <table>" [("note", ""), ("n", "2"), ("who", "Ada>Bo")] ∧
    ∀ column ∈ ["who", "n", "note"], ¬("<" ++ column ++ ">").toList <:+:
      (render ⟨["who", "n", "note"], ["Ada>Bo", "2"]⟩ "<who> > <n><note> <table>").toList :=
  render_eq_replaceEach (b := ⟨["who", "n", "note"], ["Ada>Bo", "2"]⟩) (by decide +kernel)
    (by decide) (by decide) (by decide) (by decide)

/-- A `<` that is left open may be closed by a cell. -/
example : render ⟨["b", "ax"], ["x>", "!"]⟩ "<a<b>" = "<ax>" ∧
    Text.replaceEach "<a<b>" [("b", "x>"), ("ax", "!")] = "!" := by
  decide +kernel

end Binding

end FeatureAtlas
