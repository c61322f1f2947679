import FeatureAtlas.Proofs.Repeats
import FeatureAtlas.Proofs.RowMaps

/-!
# Placeholders without a column

`ExamplesPlan.unmatched` goes through the texts of the steps and looks up the names of placeholders
among the columns; a row is filled in from the texts anew. `Placeholder.IsReport` says what has to
be reported without reading any text: which names, and that each comes before those which are met
later. A name is reported just if no row has a cell for it, so where nothing is reported, every
placeholder of an outline was replaced in all instances.
-/

namespace FeatureAtlas

namespace Placeholder

/-- Going through the texts in order, and through each from left to right, a placeholder `x` is met
before any `y`. -/
def ComesBefore (texts : List String) (x y : String) : Prop :=
  ∃ before text after start rest, texts = before ++ text :: after ∧
    (∀ t ∈ before, ¬Occurs y t.toList) ∧
    text.toList = start ++ (Piece.token x.toList).source ++ rest ∧ ¬Occurs y start

/-- The names of the placeholders in the texts that no column has, each once, in the order in which
they are first met. -/
structure IsReport (texts columns report : List String) : Prop where
  nodup : report.Nodup
  mem_iff : ∀ name, name ∈ report ↔ (∃ text ∈ texts, Occurs name text.toList) ∧ name ∉ columns
  order : report.Pairwise (ComesBefore texts)

/-! ## The order of placeholders -/

theorem Piece.source_ne_nil (p : Piece) : p.source ≠ [] := by
  cases p <;> exact List.cons_ne_nil _ _

/-- Beginnings of the same pieces that give the same text are the same. -/
theorem eq_of_flatMap_source_eq {ps qs more more' : List Piece} (h : ps ++ more = qs ++ more')
    (hsource : ps.flatMap Piece.source = qs.flatMap Piece.source) : ps = qs := by
  have hnil {extra : List Piece} (hextra : extra.flatMap Piece.source = []) : extra = [] :=
    List.eq_nil_iff_forall_not_mem.2 fun p hp =>
      p.source_ne_nil (List.flatMap_eq_nil_iff.1 hextra p hp)
  obtain ⟨extra, rfl, -⟩ | ⟨extra, rfl, -⟩ := List.append_eq_append_iff.1 h
  · rw [List.flatMap_append, List.self_eq_append_right] at hsource
    rw [hnil hsource, List.append_nil]
  · rw [List.flatMap_append, List.append_right_eq_self] at hsource
    rw [hnil hsource, List.append_nil]

/-- What stands in front of a placeholder is read as if there were nothing behind it. -/
theorem pieces_flatMap_source_of_append {cs name : List Char} {before after : List Piece}
    (h : pieces cs = before ++ .token name :: after) :
    pieces (before.flatMap Piece.source) = before := by
  have htoken : .token name ∈ pieces cs := by simp [h]
  have hname : IsName name := isName_of_token_mem htoken
  have htext : cs = before.flatMap Piece.source ++
      ((Piece.token name).source ++ after.flatMap Piece.source) := by
    rw [← flatMap_source_pieces cs, h, List.flatMap_append, List.flatMap_cons]
  have hread : pieces cs = pieces (before.flatMap Piece.source) ++
      .token name :: pieces (after.flatMap Piece.source) := by
    rw [htext, source_token_append, pieces_append_open, ← source_token_append, pieces_token hname]
  exact eq_of_flatMap_source_eq (hread.symm.trans h) (flatMap_source_pieces _)

/-- The place of a name among those that are read from a text is a place in the text. -/
theorem exists_of_seenBefore_names {text x y : String} (h : SeenBefore (names text) x y) :
    ∃ start rest, text.toList = start ++ (Piece.token x.toList).source ++ rest ∧
      ¬Occurs y start := by
  obtain ⟨before, after, hnames, hy⟩ := h
  obtain ⟨earlier, more, hpieces, rfl, hmore⟩ := List.filterMap_eq_append_iff.1 hnames
  obtain ⟨skipped, p, later, rfl, hskipped, hx, -⟩ := List.filterMap_eq_cons_iff.1 hmore
  cases p with
  | literal c => cases hx
  | token name =>
    cases hx
    rw [← List.append_assoc] at hpieces
    refine ⟨(earlier ++ skipped).flatMap Piece.source, later.flatMap Piece.source, ?_, ?_⟩
    · rw [← flatMap_source_pieces text.toList, hpieces, String.toList_ofList]
      simp
    · rw [← mem_filterMap_name?_pieces, pieces_flatMap_source_of_append hpieces,
        List.filterMap_append, List.mem_append, not_or]
      refine ⟨hy, fun hmem => ?_⟩
      obtain ⟨q, hq, hname⟩ := List.mem_filterMap.1 hmem
      rw [hskipped q hq] at hname
      cases hname

theorem comesBefore_of_seenBefore {texts : List String} {x y : String}
    (h : SeenBefore (texts.flatMap names) x y) : ComesBefore texts x y := by
  obtain ⟨before, text, after, htexts, hbefore, hseen⟩ := h.exists_of_flatMap
  obtain ⟨start, rest, htext, hstart⟩ := exists_of_seenBefore_names hseen
  exact ⟨before, text, after, start, rest, htexts, fun t ht => mt mem_names_iff.2 (hbefore t ht),
    htext, hstart⟩

/-! ## Filling without a rest -/

/-- The names of a cut are those of the placeholders that stand in the text. -/
theorem Cut.IsOf.occurs {d : Cut} {cs name : List Char} (h : d.IsOf cs) (hname : name ∈ d.names) :
    Occurs (String.ofList name) cs := by
  rw [← mem_filterMap_name?_pieces, Cut.pieces_eq_of_isOf h, Cut.filterMap_name?_pieces]
  exact List.mem_map_of_mem hname

/-- Only the values of the placeholders that stand in the template count. -/
theorem IsFilledWith.congr {value? value?' : String → Option String} {template text : String}
    (h : IsFilledWith value? template text)
    (hvalue : ∀ name, Occurs name template.toList → value? name = value?' name) :
    IsFilledWith value?' template text := by
  obtain ⟨d, hcut, htext⟩ := h
  have hfilling : ∀ token ∈ d.rest, filling value? token.1 = filling value?' token.1 := by
    intro token htoken
    have hoccurs := hcut.occurs (List.mem_map_of_mem htoken : token.1 ∈ d.names)
    rw [filling, hvalue _ hoccurs, filling]
  refine ⟨d, hcut, ?_⟩
  rw [htext, Cut.fill, Cut.fill]
  refine congrArg _ (List.flatMap_congr fun token htoken => ?_)
  exact congrArg (· ++ token.2) (hfilling token htoken)

end Placeholder

theorem Step.IsFilledWith.congr {value? value?' : String → Option String} {template s : Step}
    (h : template.IsFilledWith value? s)
    (hvalue : ∀ text ∈ template.texts, ∀ name, Placeholder.Occurs name text.toList →
      value? name = value?' name) : template.IsFilledWith value?' s where
  shape := h.shape
  texts := by
    refine ((List.forall₂_and_left _ _).2 ⟨hvalue, h.texts⟩).imp fun text filled hfilled => ?_
    exact hfilled.2.congr hfilled.1

theorem Atlas.AreFilledWith.congr {a : Atlas} {value? value?' : String → Option String}
    {steps templates : List StepId} (h : a.AreFilledWith value? steps templates)
    (hvalue : ∀ t ∈ templates.filterMap a.step?, ∀ text ∈ t.texts, ∀ name,
      Placeholder.Occurs name text.toList → value? name = value?' name) :
    a.AreFilledWith value?' steps templates := by
  have hflip : List.Forall₂ _ templates steps := List.Forall₂.flip h
  refine List.Forall₂.flip (((List.forall₂_and_left _ _).2 ⟨fun id hid => hid, hflip⟩).imp ?_)
  rintro template step ⟨htemplate, s, t, hs, ht, hfilled⟩
  exact ⟨s, t, hs, ht, hfilled.congr (hvalue t (List.mem_filterMap.2 ⟨template, htemplate, ht⟩))⟩

/-! ## The report -/

/-- A name has no cell just if it is no column, however long the row. -/
theorem Binding.get?_eq_none_iff {b : Binding} {name : String} :
    b.get? name = none ↔ name ∉ b.columns := by
  rw [get?, Option.map_eq_none_iff, List.findIdx?_eq_none_iff]
  constructor
  · intro h hmem
    simpa using h name hmem
  · intro h column hcolumn
    rw [beq_eq_false_iff_ne]
    rintro rfl
    exact h hcolumn

/-- A step without its place, as it was planned. -/
def Step.plan (s : Step) : StepPlan :=
  ⟨s.keyword, s.text, s.comments, s.line, s.docString, s.table, none⟩

theorem Step.templates_plan (s : Step) : s.plan.templates = s.texts := rfl

namespace ExamplesPlan

variable (e : ExamplesPlan) (steps : List StepPlan)

theorem mem_unmatched_iff {name : String} :
    name ∈ e.unmatched steps ↔
      (∃ text ∈ steps.flatMap StepPlan.templates, Placeholder.Occurs name text.toList) ∧
        name ∉ e.columns := by
  rw [unmatched, List.mem_eraseDups, List.mem_filter, List.mem_flatMap]
  simp only [Placeholder.mem_names_iff, Bool.not_eq_true', List.contains_eq_mem,
    decide_eq_false_iff_not]

theorem isReport_unmatched :
    Placeholder.IsReport (steps.flatMap StepPlan.templates) e.columns (e.unmatched steps) := by
  have hfirsts := isFirsts_eraseDups
    (((steps.flatMap StepPlan.templates).flatMap Placeholder.names).filter
      fun name => !e.columns.contains name)
  refine ⟨hfirsts.nodup, fun name => e.mem_unmatched_iff steps, ?_⟩
  refine hfirsts.order.imp_of_mem fun {x y} hx hy hseen => ?_
  have hfree := (List.mem_filter.1 ((hfirsts.mem_iff y).1 hy)).2
  exact Placeholder.comesBefore_of_seenBefore (hseen.of_filter hfree)

/-- Where nothing is reported, every placeholder has a cell in every row. -/
theorem exists_value_of_unmatched_eq_nil {e : ExamplesPlan} {steps : List StepPlan}
    (h : e.unmatched steps = []) (cells : List String) :
    ∃ value : String → String, ∀ text ∈ steps.flatMap StepPlan.templates, ∀ name,
      Placeholder.Occurs name text.toList →
        Binding.get? ⟨e.columns, cells⟩ name = some (value name) := by
  refine ⟨fun name => (Binding.get? ⟨e.columns, cells⟩ name).getD "", ?_⟩
  intro text htext name hoccurs
  cases hget : Binding.get? ⟨e.columns, cells⟩ name with
  | some cell => simp [hget]
  | none =>
    have hreported : name ∈ e.unmatched steps :=
      (e.mem_unmatched_iff steps).2 ⟨⟨text, htext, hoccurs⟩, Binding.get?_eq_none_iff.1 hget⟩
    rw [h] at hreported
    cases hreported

/-- The report has just the names of placeholders for which no column has a cell, whatever the row,
in the order of their first places. So if it is empty for the steps of an outline, then in every
instance of the block every placeholder was replaced by a value of its row. -/
theorem unmatched_exact :
    (∀ (e : ExamplesPlan) (steps : List StepPlan),
      Placeholder.IsReport (steps.flatMap StepPlan.templates) e.columns (e.unmatched steps) ∧
      ∀ cells name, (∃ text ∈ steps.flatMap StepPlan.templates,
          Placeholder.Occurs name text.toList) →
        (name ∈ e.unmatched steps ↔ Binding.get? ⟨e.columns, cells⟩ name = none)) ∧
    ∀ a : Atlas, a.Delivered → ∀ id o, a.scenario? id = some o → ∀ e ∈ o.examples,
      e.plan.unmatched ((a.stepsIn id).map Step.plan) = [] → ∀ row < e.rows.length,
        ∃ cells i n, ∃ value : String → String, a.IsRowInstance id o e row cells i n ∧
          (∀ t ∈ a.stepsIn id, ∀ text ∈ t.texts, ∀ name, Placeholder.Occurs name text.toList →
            Binding.get? ⟨e.columns, cells⟩ name = some (value name)) ∧
          a.AreFilledWith (fun name => some (value name)) n.steps o.steps := by
  constructor
  · intro e steps
    refine ⟨e.isReport_unmatched steps, fun cells name hoccurs => ?_⟩
    rw [mem_unmatched_iff, Binding.get?_eq_none_iff]
    exact and_iff_right hoccurs
  · intro a h id o ho e he hnone row hrow
    obtain ⟨cells, i, n, hinstance⟩ := h.hasRowInstances id o ho e he row hrow
    obtain ⟨value, hvalue⟩ := exists_value_of_unmatched_eq_nil hnone cells
    have hcells : ∀ t ∈ a.stepsIn id, ∀ text ∈ t.texts, ∀ name,
        Placeholder.Occurs name text.toList →
          Binding.get? ⟨e.columns, cells⟩ name = some (value name) := by
      intro t ht text htext
      apply hvalue
      rw [← t.templates_plan] at htext
      exact List.mem_flatMap.2 ⟨t.plan, List.mem_map_of_mem ht, htext⟩
    have hsteps : a.stepsIn id = o.steps.filterMap a.step? := by rw [Atlas.stepsIn, ho]
    refine ⟨cells, i, n, value, hinstance, hcells, hinstance.steps.congr ?_⟩
    rwa [← hsteps]

/-- A report on two steps, for a row that is too short; and an outline of which all placeholders
have a column. -/
theorem unmatched_brunch :
    let steps : List StepPlan :=
      [⟨"Given", "<b>, <a> and <n>", "", 3, some "<>", none, none⟩,
        ⟨"When", "<a>", "", 5, none, some ⟨[["<m> or <<b>", "<m>"], ["<c", "<c>"]]⟩, none⟩]
    let e : ExamplesPlan := ⟨"Examples", "", "", 8, ["n", "m", "n"], [["1"]]⟩
    let texts := steps.flatMap StepPlan.templates
    let d : Document := ⟨⟨"brunch.feature"⟩, some (.brunch [⟨⟨17, 7⟩, ["cake"]⟩])⟩
    let a := (Atlas.empty.addDocument d .keepAll).atlas
    let block : Examples := ⟨"Examples", "", "", 15, ["dish"], [["cake"]], [⟨3⟩]⟩
    e.unmatched steps = ["b", "a", "", "c"] ∧
      Placeholder.IsReport texts e.columns ["b", "a", "", "c"] ∧
      (∃ text ∈ texts, Placeholder.Occurs "m" text.toList) ∧
      Binding.get? ⟨e.columns, ["1"]⟩ "m" ≠ none ∧
      a.Delivered ∧ ∃ o, a.scenario? ⟨0⟩ = some o ∧ block ∈ o.examples ∧
        block.plan.unmatched ((a.stepsIn ⟨0⟩).map Step.plan) = [] ∧ 0 < block.rows.length ∧
        (∃ cells i n, ∃ value : String → String, a.IsRowInstance ⟨0⟩ o block 0 cells i n ∧
          a.AreFilledWith (fun name => some (value name)) n.steps o.steps) ∧
        (a.stepsIn ⟨3⟩).map (·.texts) =
          [["a table", "dish", "count", "cake", "1"], ["I say", "cake, please"]] := by
  intro steps e texts d a block
  obtain ⟨hreports, hinstances⟩ := unmatched_exact
  have hreport : e.unmatched steps = ["b", "a", "", "c"] := by decide +kernel
  obtain ⟨hexact, hcells⟩ := hreports e steps
  rw [hreport] at hexact hcells
  have hoccurs : ∃ text ∈ texts, Placeholder.Occurs "m" text.toList := by
    refine ⟨"<m>", by decide, Placeholder.mem_names_iff.1 (by decide +kernel)⟩
  have hdelivered : a.Delivered := Atlas.Delivered.empty.addDocument d .keepAll
  obtain ⟨o, ho, hblock⟩ : ∃ o, a.scenario? ⟨0⟩ = some o ∧ o.examples[1]? = some block :=
    Option.bind_eq_some_iff.1 (by decide +kernel)
  have hmem : block ∈ o.examples := List.mem_of_getElem? hblock
  have hnone : block.plan.unmatched ((a.stepsIn ⟨0⟩).map Step.plan) = [] := by decide +kernel
  have hrow : 0 < block.rows.length := by decide
  obtain ⟨cells, i, n, value, hinstance, -, hfilled⟩ :=
    hinstances a hdelivered ⟨0⟩ o ho block hmem hnone 0 hrow
  refine ⟨hreport, hexact, hoccurs, mt (hcells ["1"] "m" hoccurs).2 (by decide), hdelivered, o, ho,
    hmem, hnone, hrow, ⟨cells, i, n, value, hinstance, hfilled⟩, by decide +kernel⟩

end ExamplesPlan

end FeatureAtlas
