import FeatureAtlas.Placeholder
import Mathlib.Data.List.Infix

/-!
# Cutting a text at its placeholders

A text has exactly one `Cut`: gaps in which no placeholder stands, and the placeholders between
them. What makes it unique is that a placeholder has no bracket inside, so that a `<` can belong
only to the placeholder that begins there, and a text may be read afresh from any `<` on. Both
readers of templates follow the cut: `Placeholder.names` lists its names, and `Binding.render` keeps
its gaps and puts a value in place of every name.
-/

namespace FeatureAtlas

namespace Placeholder

/-- No angle bracket. -/
def IsName (name : List Char) : Prop := '<' ∉ name ∧ '>' ∉ name

instance : DecidablePred IsName := fun _ => inferInstanceAs (Decidable (_ ∧ _))

/-- No placeholder stands anywhere in the text. -/
def IsPlain (cs : List Char) : Prop :=
  ∀ name, IsName name → ¬(Piece.token name).source <:+: cs

theorem IsPlain.of_infix {cs ds : List Char} (h : IsPlain cs) (hwithin : ds <:+: cs) : IsPlain ds :=
  fun name hname htoken => h name hname (htoken.trans hwithin)

/-- A text cut at its placeholders: what stands before the first of them, and the name of each with
what stands between it and the next. -/
structure Cut where
  first : List Char
  rest : List (List Char × List Char)
deriving DecidableEq, Repr

namespace Cut

/-- The names of the placeholders in order. -/
def names (d : Cut) : List (List Char) := d.rest.map (·.1)

/-- The texts before, between and behind the placeholders. -/
def gaps (d : Cut) : List (List Char) := d.first :: d.rest.map (·.2)

/-- The gaps with a text in place of every placeholder. -/
def fill (d : Cut) (value : List Char → List Char) : List Char :=
  d.first ++ d.rest.flatMap fun (name, gap) => value name ++ gap

/-- A cut of this text: put together it gives the text, its names have no brackets, and its gaps no
placeholders. -/
structure IsOf (d : Cut) (cs : List Char) : Prop where
  fill_source : (d.fill fun name => (Piece.token name).source) = cs
  names : ∀ name ∈ d.names, IsName name
  gaps : ∀ gap ∈ d.gaps, IsPlain gap

/-- The pieces of a text that is cut like this. -/
def pieces (d : Cut) : List Piece :=
  d.first.map .literal ++ d.rest.flatMap fun (name, gap) => .token name :: gap.map .literal

/-- The cut between the placeholders among some pieces. -/
def ofPieces : List Piece → Cut
  | [] => ⟨[], []⟩
  | .literal c :: ps => ⟨c :: (ofPieces ps).first, (ofPieces ps).rest⟩
  | .token name :: ps => ⟨[], (name, (ofPieces ps).first) :: (ofPieces ps).rest⟩

end Cut

/-! ## Reading pieces -/

theorem isName_iff {name : List Char} : IsName name ↔ ∀ c ∈ name, isNameChar c = true := by
  simp only [IsName, isNameChar, Bool.and_eq_true, decide_eq_true_eq]
  constructor
  · exact fun h c hc => ⟨fun heq => h.1 (heq ▸ hc), fun heq => h.2 (heq ▸ hc)⟩
  · exact fun h => ⟨fun hmem => (h _ hmem).1 rfl, fun hmem => (h _ hmem).2 rfl⟩

theorem closedName?_of_isName {name : List Char} (h : IsName name) (rest : List Char) :
    closedName? (name ++ '>' :: rest) = some (name, rest) :=
  closedName?_eq_some_iff.2 ⟨isName_iff.1 h, rfl⟩

@[simp] theorem pieces_nil : pieces [] = [] := by rw [pieces]

theorem pieces_cons_of_ne {c : Char} (h : c ≠ '<') (cs : List Char) :
    pieces (c :: cs) = .literal c :: pieces cs := by
  rw [pieces, if_neg h]

theorem source_token_append (name rest : List Char) :
    (Piece.token name).source ++ rest = '<' :: (name ++ '>' :: rest) := by
  simp [Piece.source]

/-- A placeholder is read where it begins. -/
theorem pieces_token {name : List Char} (h : IsName name) (rest : List Char) :
    pieces ((Piece.token name).source ++ rest) = .token name :: pieces rest := by
  rw [source_token_append, pieces, if_pos rfl]
  split
  · next name' rest' heq =>
    rw [closedName?_of_isName h] at heq
    cases heq
    rfl
  · next heq =>
    rw [closedName?_of_isName h] at heq
    cases heq

theorem pieces_open_of_none {cs : List Char} (h : closedName? cs = none) :
    pieces ('<' :: cs) = .literal '<' :: pieces cs := by
  rw [pieces, if_pos rfl]
  split
  · next heq =>
    rw [h] at heq
    cases heq
  · rfl

/-- A name that is not closed before a `<` is not closed behind it. -/
theorem closedName?_append_open {u : List Char} (h : closedName? u = none) (v : List Char) :
    closedName? (u ++ '<' :: v) = none := by
  refine Option.eq_none_iff_forall_ne_some.2 fun ⟨name, rest⟩ hsome => ?_
  obtain ⟨hname, heq⟩ := closedName?_eq_some_iff.1 hsome
  obtain ⟨more, hlong, hrest⟩ | ⟨more, hshort, hrest⟩ := List.append_eq_append_iff.1 heq
  · -- The name would reach up to the `<`, and so have it inside.
    cases more with
    | nil => simp at hrest
    | cons c more =>
      rw [List.cons_append, List.cons.injEq] at hrest
      have hmem : '<' ∈ name := hlong ▸ hrest.1 ▸ by simp
      exact (isName_iff.2 hname).1 hmem
  · cases more with
    | nil => simp at hrest
    | cons c more =>
      rw [List.cons_append, List.cons.injEq] at hrest
      rw [hshort, ← hrest.1, closedName?_of_isName (isName_iff.2 hname)] at h
      cases h

/-- A text may be read afresh from any `<` on. -/
theorem pieces_append_open (u v : List Char) :
    pieces (u ++ '<' :: v) = pieces u ++ pieces ('<' :: v) := by
  fun_induction pieces u with
  | case1 => rfl
  | case2 cs name rest h _ ih =>
    obtain ⟨hname, rfl⟩ := closedName?_eq_some_iff.1 h
    rw [← source_token_append, List.append_assoc, pieces_token (isName_iff.2 hname), ih,
      List.cons_append]
  | case3 cs h ih =>
    rw [List.cons_append, pieces_open_of_none (closedName?_append_open h v), ih, List.cons_append]
  | case4 c cs hc ih => rw [List.cons_append, pieces_cons_of_ne hc, ih, List.cons_append]

/-- A text without placeholders is read as it stands. -/
theorem pieces_of_isPlain {cs : List Char} (h : IsPlain cs) : pieces cs = cs.map .literal := by
  fun_induction pieces cs with
  | case1 => rfl
  | case2 cs name rest hclosed =>
    obtain ⟨hname, rfl⟩ := closedName?_eq_some_iff.1 hclosed
    refine absurd ?_ (h name (isName_iff.2 hname))
    exact ⟨[], rest, source_token_append name rest⟩
  | case3 cs hnone ih => rw [ih (h.of_infix (List.suffix_cons _ _).isInfix), List.map_cons]
  | case4 c cs hc ih => rw [ih (h.of_infix (List.suffix_cons _ _).isInfix), List.map_cons]

/-! ## The cut of a text -/

namespace Cut

@[simp] theorem fill_nil (first : List Char) (value : List Char → List Char) :
    fill ⟨first, []⟩ value = first := by
  simp [fill]

@[simp] theorem fill_cons (first name gap : List Char) (rest : List (List Char × List Char))
    (value : List Char → List Char) :
    fill ⟨first, (name, gap) :: rest⟩ value = first ++ (value name ++ fill ⟨gap, rest⟩ value) := by
  simp [fill]

@[simp] theorem pieces_nil (first : List Char) : pieces ⟨first, []⟩ = first.map .literal := by
  simp [pieces]

@[simp] theorem pieces_cons (first name gap : List Char) (rest : List (List Char × List Char)) :
    pieces ⟨first, (name, gap) :: rest⟩ =
      first.map .literal ++ .token name :: pieces ⟨gap, rest⟩ := by
  simp [pieces]

/-- A text is read along any cut of it. -/
theorem pieces_eq_of_isOf {d : Cut} {cs : List Char} (h : d.IsOf cs) :
    Placeholder.pieces cs = d.pieces := by
  obtain ⟨first, rest⟩ := d
  obtain ⟨rfl, hnames, hgaps⟩ := h
  induction rest generalizing first with
  | nil =>
    rw [fill_nil, pieces_nil]
    exact pieces_of_isPlain (hgaps first List.mem_cons_self)
  | cons token rest ih =>
    obtain ⟨name, gap⟩ := token
    have hrest := ih gap (fun n hn => hnames n (List.mem_cons_of_mem name hn))
      fun g hg => hgaps g (List.mem_cons_of_mem first hg)
    rw [fill_cons, source_token_append, pieces_append_open, ← source_token_append,
      pieces_of_isPlain (hgaps first List.mem_cons_self),
      pieces_token (hnames name List.mem_cons_self), hrest, pieces_cons]

@[simp] theorem ofPieces_pieces (d : Cut) : ofPieces d.pieces = d := by
  obtain ⟨first, rest⟩ := d
  have hliterals (cs : List Char) (ps : List Piece) :
      ofPieces (cs.map .literal ++ ps) = ⟨cs ++ (ofPieces ps).first, (ofPieces ps).rest⟩ := by
    induction cs with
    | nil => rfl
    | cons c cs ih => rw [List.map_cons, List.cons_append, ofPieces, ih, List.cons_append]
  induction rest generalizing first with
  | nil => simpa [ofPieces] using hliterals first []
  | cons token rest ih =>
    rw [pieces_cons, hliterals, ofPieces, ih token.2, List.append_nil]

/-- A gap to which a character is added in front is still without placeholders, if none begins with
this character. -/
theorem IsOf.cons {d : Cut} {cs : List Char} {c : Char} (h : d.IsOf cs)
    (hc : ∀ name, IsName name → ¬(Piece.token name).source <+: c :: cs) :
    IsOf ⟨c :: d.first, d.rest⟩ (c :: cs) := by
  obtain ⟨rfl, hnames, hgaps⟩ := h
  refine ⟨rfl, hnames, fun gap hgap => ?_⟩
  rcases List.mem_cons.1 hgap with rfl | hrest
  · intro name hname htoken
    rcases List.infix_cons_iff.1 htoken with hstarts | hwithin
    · exact hc name hname (hstarts.trans ⟨_, rfl⟩)
    · exact hgaps d.first List.mem_cons_self name hname hwithin
  · exact hgaps gap (List.mem_cons_of_mem _ hrest)

/-- A placeholder in front of a text begins its cut. -/
theorem IsOf.token {d : Cut} {cs name : List Char} (h : d.IsOf cs) (hname : IsName name) :
    IsOf ⟨[], (name, d.first) :: d.rest⟩ ('<' :: (name ++ '>' :: cs)) := by
  obtain ⟨rfl, hnames, hgaps⟩ := h
  refine ⟨?_, List.forall_mem_cons.2 ⟨hname, hnames⟩,
    List.forall_mem_cons.2 ⟨fun n _ htoken => ?_, hgaps⟩⟩
  · rw [fill_cons, List.nil_append, source_token_append]
  · exact List.cons_ne_nil _ _ (List.infix_nil.1 htoken)

theorem isOf_nil : IsOf ⟨[], []⟩ [] := by
  refine ⟨rfl, fun n hn => (by cases hn), List.forall_mem_singleton.2 fun n _ htoken => ?_⟩
  exact List.cons_ne_nil _ _ (List.infix_nil.1 htoken)

/-- Every text has a cut, between the placeholders that are read from it. -/
theorem isOf_ofPieces (cs : List Char) : (ofPieces (Placeholder.pieces cs)).IsOf cs := by
  fun_induction Placeholder.pieces cs with
  | case1 => exact isOf_nil
  | case2 cs name rest hclosed _ ih =>
    obtain ⟨hname, rfl⟩ := closedName?_eq_some_iff.1 hclosed
    exact ih.token (isName_iff.2 hname)
  | case3 cs hnone ih =>
    refine ih.cons fun name hname htoken => ?_
    obtain ⟨rest, hrest⟩ := htoken
    rw [source_token_append] at hrest
    rw [← List.tail_eq_of_cons_eq hrest, closedName?_of_isName hname] at hnone
    cases hnone
  | case4 c cs hc ih =>
    refine ih.cons fun name _ htoken => hc ?_
    exact (List.cons_prefix_cons.1 htoken).1.symm

/-- A text has just one cut. -/
theorem isOf_iff {d : Cut} {cs : List Char} :
    d.IsOf cs ↔ d = ofPieces (Placeholder.pieces cs) := by
  constructor
  · intro h
    rw [pieces_eq_of_isOf h, ofPieces_pieces]
  · rintro rfl
    exact isOf_ofPieces cs

/-- What literal characters do not change, pieces put together are the filled cut. -/
theorem flatMap_pieces {write : Piece → List Char} (hliteral : ∀ c, write (.literal c) = [c])
    (d : Cut) : d.pieces.flatMap write = d.fill fun name => write (.token name) := by
  obtain ⟨first, rest⟩ := d
  have hgap (gap : List Char) : (gap.map Piece.literal).flatMap write = gap := by
    simp [List.flatMap_map, hliteral]
  induction rest generalizing first with
  | nil => rw [pieces_nil, hgap, fill_nil]
  | cons token rest ih =>
    rw [pieces_cons, List.flatMap_append, hgap, List.flatMap_cons, ih, fill_cons]

theorem filterMap_name?_pieces (d : Cut) :
    d.pieces.filterMap Piece.name? = d.names.map String.ofList := by
  obtain ⟨first, rest⟩ := d
  have hgap (gap : List Char) : (gap.map Piece.literal).filterMap Piece.name? = [] := by
    simp [Piece.name?]
  induction rest generalizing first with
  | nil => simp [hgap, names]
  | cons token rest ih =>
    have hname : Piece.name? (.token token.1) = some (String.ofList token.1) := rfl
    rw [pieces_cons, List.filterMap_append, hgap, List.nil_append, List.filterMap_cons_some hname,
      ih]
    rfl

end Cut

end Placeholder

/-! ## Values -/

namespace Binding

/-- What has to stand in place of a placeholder: the cell of the leftmost column with its name,
empty if the row lacks it, and the placeholder itself if no column has the name. -/
def value (b : Binding) (name : List Char) : List Char :=
  match (pairs b.columns b.cells).lookup (String.ofList name) with
  | some cell => cell.toList
  | none => (Placeholder.Piece.token name).source

theorem pairs_cons (column : String) (columns cells : List String) :
    pairs (column :: columns) cells = (column, cells[0]?.getD "") :: pairs columns cells.tail := by
  cases cells <;> rfl

/-- A column is looked up among the pairs of columns and cells. -/
theorem get?_eq_lookup (b : Binding) (column : String) :
    b.get? column = (pairs b.columns b.cells).lookup column := by
  obtain ⟨columns, cells⟩ := b
  induction columns generalizing cells with
  | nil => rfl
  | cons c columns ih =>
    rw [pairs_cons]
    by_cases hc : c = column
    · simp [get?, List.findIdx?_cons, hc]
    · have hne : (column == c) = false := by simpa using Ne.symm hc
      have htail (index : Nat) : cells[index + 1]?.getD "" = cells.tail[index]?.getD "" := by simp
      rw [List.lookup_cons, hne, ← ih cells.tail]
      simp [get?, List.findIdx?_cons, hc, Function.comp_def, htail]

@[simp] theorem renderPiece_literal (b : Binding) (c : Char) : b.renderPiece (.literal c) = [c] :=
  rfl

@[simp] theorem renderPiece_token (b : Binding) (name : List Char) :
    b.renderPiece (.token name) = b.value name := by
  have hget : (Placeholder.Piece.token name).name?.bind b.get? =
      (pairs b.columns b.cells).lookup (String.ofList name) := b.get?_eq_lookup _
  cases hlookup : (pairs b.columns b.cells).lookup (String.ofList name) <;>
    simp only [renderPiece, value, hget, hlookup]

end Binding

/-- Every text has exactly one cut. The placeholders found in it are those of the cut, and rendering
it for a row keeps the gaps and puts a value in place of every placeholder, whatever brackets the
values and the gaps have. -/
theorem Placeholder.exists_cut (text : String) :
    ∃ d : Cut, (∀ d' : Cut, d'.IsOf text.toList ↔ d' = d) ∧
      names text = d.names.map String.ofList ∧
      ∀ b : Binding, (b.render text).toList = d.fill b.value := by
  let d := Cut.ofPieces (pieces text.toList)
  have hpieces : pieces text.toList = d.pieces := Cut.pieces_eq_of_isOf (Cut.isOf_ofPieces _)
  refine ⟨d, fun d' => Cut.isOf_iff, ?_, fun b => ?_⟩
  · rw [names, hpieces, Cut.filterMap_name?_pieces]
  · rw [Binding.render, String.toList_ofList, hpieces, Cut.flatMap_pieces b.renderPiece_literal]
    simp only [Binding.renderPiece_token]

/-- Of nested and unbalanced brackets only those of placeholders count. -/
example : Placeholder.Cut.ofPieces (Placeholder.pieces "<a <b>> <>".toList) =
    ⟨"<a ".toList, [("b".toList, "> ".toList), ([], [])]⟩ := by
  decide +kernel

end FeatureAtlas
