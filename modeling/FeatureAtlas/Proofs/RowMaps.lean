import FeatureAtlas.Proofs.Filling
import FeatureAtlas.Proofs.Replacing

/-!
# Rows and their instances

Rows are paired with columns twice: `Binding.get?` looks up a cell when an instance is made, and
`Examples.cellsByColumn?` lists the pairs for a reader. Here the two are shown to agree, row by row.
`Atlas.HasRowInstances` says of all that an atlas holds that the instance listed for a row has the
steps of the outline filled with the cells of this row; it is kept when a block is placed, where the
rows of all examples blocks are numbered through. An edit of a step could break it.
-/

namespace FeatureAtlas

namespace Atlas

/-- The steps of an instance are those of its outline, one by one, filled with these values. -/
def AreFilledWith (a : Atlas) (value? : String → Option String) (steps templates : List StepId) :
    Prop :=
  List.Forall₂ (fun step template =>
    ∃ s t, a.step? step = some s ∧ a.step? template = some t ∧ t.IsFilledWith value? s)
    steps templates

/-- A row of an examples block is as wide as the columns, and the instance listed for it has the
steps of the outline filled with its cells. -/
structure IsRowInstance (a : Atlas) (outline : ScenarioId) (o : Scenario) (e : Examples) (row : Nat)
    (cells : List String) (i : ScenarioId) (n : Scenario) : Prop where
  found : e.rows[row]? = some cells
  width : cells.length = e.columns.length
  listed : e.instances[row]? = some i
  node : a.scenario? i = some n
  outline : n.outline = some outline
  steps : a.AreFilledWith (Binding.get? ⟨e.columns, cells⟩) n.steps o.steps

/-- Every row of every examples block has its instance. -/
def HasRowInstances (a : Atlas) : Prop :=
  ∀ id o, a.scenario? id = some o → ∀ e ∈ o.examples, ∀ row < e.rows.length,
    ∃ cells i n, a.IsRowInstance id o e row cells i n

end Atlas

/-! ## A placed block -/

theorem NodeId.getElem?_run {kind : NodeKind} (id : NodeId kind) {n k : Nat} (h : k < n) :
    (id.run n)[k]? = some (id.shift k) := by
  simp [run, h]

/-- A row of a placed examples block has the number of its instance among the rows of all blocks. -/
theorem exists_number_of_mem_placeExamples {first : ScenarioId} {es : List ExamplesPlan}
    {e : Examples} (he : e ∈ placeExamples first es) {row : Nat} {cells : List String}
    (hcells : e.rows[row]? = some cells) :
    ∃ number, (es.flatMap ExamplesPlan.bindings)[number]? = some ⟨e.columns, cells⟩ ∧
      e.instances[row]? = some (first.shift number) := by
  induction es generalizing first with
  | nil => cases he
  | cons plan es ih =>
    rw [List.flatMap_cons]
    rcases List.mem_cons.1 he with rfl | hlater
    · have hrow : row < plan.rows.length := (List.getElem?_eq_some_iff.1 hcells).1
      refine ⟨row, ?_, first.getElem?_run hrow⟩
      have hlength : row < plan.bindings.length := by simpa [ExamplesPlan.bindings] using hrow
      rw [List.getElem?_append_left hlength, ExamplesPlan.bindings, List.getElem?_map]
      exact congrArg (Option.map _) hcells
    · -- The rows of this block come first, and shift the numbers of the others.
      obtain ⟨number, hnumber, hinstance⟩ := ih hlater
      refine ⟨plan.rows.length + number, ?_, ?_⟩
      · rw [List.getElem?_append_right (by simp [ExamplesPlan.bindings])]
        simpa [ExamplesPlan.bindings] using hnumber
      · rw [hinstance, NodeId.shift_shift]

namespace Atlas

section

variable {a : Atlas} {site : Site} {name : String} {b : BlockPlan}

theorem AreFilledWith.place {value? : String → Option String} {steps templates : List StepId}
    (h : a.AreFilledWith value? steps templates) :
    (a.place site name b).AreFilledWith value? steps templates :=
  forall₂_steps_place h

/-- An instance of a placed block is filled with the cells of its row. -/
theorem areFilledWith_place (hstep : site.step = a.steps.nextId) (tags : List TagId) {number : Nat}
    {cells : Binding} (hcells : b.bindings[number]? = some cells) :
    (a.place site name b).AreFilledWith cells.get? (b.instanceNode site number).steps
      (b.node site name tags).steps := by
  refine (forall₂_planned_place hstep tags hcells).imp fun step template hplanned => ?_
  obtain ⟨p, hs, ht⟩ := hplanned
  exact ⟨_, _, hs, ht,
    (p.toStep site.file site.scenario).isFilledWith_bind cells (site.instanceId number)⟩

theorem IsRowInstance.place {id : ScenarioId} {o : Scenario} {e : Examples} {row : Nat}
    {cells : List String} {i : ScenarioId} {n : Scenario}
    (h : a.IsRowInstance id o e row cells i n) :
    (a.place site name b).IsRowInstance id o e row cells i n :=
  { h with
    node := scenario?_place_of_some h.node
    steps := h.steps.place }

/-- Every row of a placed block has its instance. -/
theorem exists_isRowInstance_place (hb : b.IsRegular) (hsite : site.scenario = a.scenarios.nextId)
    (hstep : site.step = a.steps.nextId) (tags : List TagId) {e : Examples}
    (he : e ∈ (b.node site name tags).examples) {row : Nat} (hrow : row < e.rows.length) :
    ∃ cells i n, (a.place site name b).IsRowInstance site.scenario (b.node site name tags) e row
      cells i n := by
  have hcells : e.rows[row]? = some e.rows[row] := List.getElem?_eq_getElem hrow
  have hfull : e.IsFull := ExamplesPlan.isFull_of_mem_placeExamples hb.examples he
  obtain ⟨number, hnumber, hlisted⟩ := exists_number_of_mem_placeExamples he hcells
  have hlt : number < b.bindings.length := (List.getElem?_eq_some_iff.1 hnumber).1
  have hid : (site.instanceId 0).shift number = site.instanceId number := by
    simp [Site.instanceId, Nat.add_comm]
  refine ⟨e.rows[row], site.instanceId number, b.instanceNode site number, ?_⟩
  constructor
  case found => exact hcells
  case width => exact hfull.widths _ (List.getElem_mem hrow)
  case listed => rw [hlisted, hid]
  case node => exact scenario?_place_instance hsite hlt
  case outline => rfl
  case steps => exact areFilledWith_place hstep tags hnumber

/-- Placing a regular block keeps the instances of all rows. -/
theorem HasRowInstances.place (h : a.HasRowInstances) (hb : b.IsRegular)
    (hsite : site.scenario = a.scenarios.nextId) (hstep : site.step = a.steps.nextId) :
    (a.place site name b).HasRowInstances := by
  intro id o ho e he row hrow
  rcases cases_scenario?_place hsite ho with hold | ⟨rfl, rfl⟩ | ⟨number, -, -, rfl⟩
  · obtain ⟨cells, i, n, hinstance⟩ := h id o hold e he row hrow
    exact ⟨cells, i, n, hinstance.place⟩
  · exact exists_isRowInstance_place hb hsite hstep _ he hrow
  · cases he

end

/-! ## A run -/

/-- Rows are a matter of scenarios and steps. -/
theorem HasRowInstances.withOthers {a : Atlas} (h : a.HasRowInstances)
    (features : Arena .feature Feature) (tags : TagIndex) :
    HasRowInstances ⟨features, a.scenarios, a.steps, tags⟩ := by
  intro id o ho e he row hrow
  obtain ⟨cells, i, n, hinstance⟩ := h id o ho e he row hrow
  exact ⟨cells, i, n, hinstance.found, hinstance.width, hinstance.listed, hinstance.node,
    hinstance.outline, hinstance.steps⟩

theorem HasRowInstances.addBlock {g : Growth} {f : Feature} (h : (g.close f).HasRowInstances)
    (document : Path) {b : BlockPlan} (hb : b.IsRegular) :
    ((g.addBlock document b).close f).HasRowInstances := by
  have hplaced :
      ((g.close f).place (g.nextSite document) (g.nextName b.kind) b).HasRowInstances :=
    h.place hb rfl rfl
  exact hplaced.withOthers _ _

/-- After any deliveries, those that fail included, every row has its instance. -/
theorem Delivered.hasRowInstances {a : Atlas} (h : a.Delivered) : a.HasRowInstances :=
  h.invariant (Q := BlockPlan.IsRegular) (fun _ _ _ ha => ha.withOthers _ _)
    (fun _ _ document _ hb hg => hg.addBlock document hb) (fun _ _ ho => by cases ho)
    fun _ _ _ hb => Document.isRegular_of_keeps hb

end Atlas

/-! ## What is shown of a row -/

namespace Binding

theorem map_snd_pairs {columns cells : List String} (h : cells.length = columns.length) :
    (pairs columns cells).map Prod.snd = cells := by
  induction columns generalizing cells with
  | nil => exact (List.length_eq_zero_iff.1 h).symm
  | cons column columns ih =>
    cases cells with
    | nil => cases h
    | cons cell cells => rw [pairs, List.map_cons, ih (Nat.succ.inj h)]

/-- A placeholder is given the cell of the first pair with its name. -/
theorem get?_eq_lookup_pairs (columns cells : List String) :
    get? ⟨columns, cells⟩ = fun column => (pairs columns cells).lookup column :=
  funext (get?_eq_lookup ⟨columns, cells⟩)

end Binding

/-- What is shown of a row are all columns in order with the cells of the row, and these are what
its instance was made from: in every text of its steps a placeholder was replaced by the value of
the first pair with its name, and left as it is if there is none. -/
theorem Atlas.Delivered.cellsByColumn?_isFilledWith {a : Atlas} (h : a.Delivered) {id : ScenarioId}
    {o : Scenario} (ho : a.scenario? id = some o) {e : Examples} (he : e ∈ o.examples) {row : Nat}
    (hrow : row < e.rows.length) :
    ∃ shown i n, e.cellsByColumn? row = some shown ∧
      shown.map Prod.fst = e.columns ∧ e.rows[row]? = some (shown.map Prod.snd) ∧
      e.instances[row]? = some i ∧ a.scenario? i = some n ∧ n.outline = some id ∧
      a.AreFilledWith (fun column => shown.lookup column) n.steps o.steps := by
  obtain ⟨cells, i, n, hinstance⟩ := h.hasRowInstances id o ho e he row hrow
  have hshown : e.cellsByColumn? row = some (Binding.pairs e.columns cells) := by
    rw [Examples.cellsByColumn?, hinstance.found, Option.map_some]
  have hsteps := hinstance.steps
  rw [Binding.get?_eq_lookup_pairs] at hsteps
  refine ⟨_, i, n, hshown, Binding.map_fst_pairs e.columns cells, ?_, hinstance.listed,
    hinstance.node, hinstance.outline, hsteps⟩
  rw [Binding.map_snd_pairs hinstance.width, hinstance.found]

/-- An outline with two examples blocks. The second has a column twice and one without a name, and
lacks one that the first has. -/
def FeatureBlock.cocktail : FeatureBlock where
  keyword := "Feature"
  title := "Cocktail"
  description := ""
  comments := []
  position := ⟨1, 1⟩
  tags := []
  children :=
    [.outline ⟨"Scenario Outline", "Mixing", "", [], ⟨2, 3⟩, [],
      [⟨"Given", "<gin> of gin", [], ⟨3, 5⟩, none⟩,
        ⟨"When", "I stir", [], ⟨4, 5⟩,
          some (.table [⟨⟨5, 7⟩, ["ice", "<ice>"]⟩, ⟨⟨6, 7⟩, ["rest", "<>"]⟩] ⟨5, 7⟩)⟩],
      [⟨"Examples", "", [], ⟨8, 5⟩, some ⟨⟨9, 7⟩, ["gin", "ice"]⟩, [⟨⟨10, 7⟩, ["1", "2"]⟩]⟩,
        ⟨"Examples", "", [], ⟨12, 5⟩, some ⟨⟨13, 7⟩, ["ice", "", "ice"]⟩,
          [⟨⟨14, 7⟩, ["3", "4", "5"]⟩, ⟨⟨15, 7⟩, ["6", "<ice>", "8"]⟩]⟩]⟩]

/-- The last row, with the instance made from it. -/
theorem Atlas.cellsByColumn?_isFilledWith_cocktail :
    let d : Document := ⟨⟨"cocktail.feature"⟩, some .cocktail⟩
    let a := (Atlas.empty.addDocument d .keepAll).atlas
    let block : Examples :=
      ⟨"Examples", "", "", 12, ["ice", "", "ice"], [["3", "4", "5"], ["6", "<ice>", "8"]],
        [⟨2⟩, ⟨3⟩]⟩
    a.Delivered ∧ ∃ o, a.scenario? ⟨0⟩ = some o ∧ block ∈ o.examples ∧ 1 < block.rows.length ∧
      block.cellsByColumn? 1 = some [("ice", "6"), ("", "<ice>"), ("ice", "8")] ∧
      (∃ shown i n, block.cellsByColumn? 1 = some shown ∧ block.instances[1]? = some i ∧
        a.scenario? i = some n ∧
        a.AreFilledWith (fun column => shown.lookup column) n.steps o.steps) ∧
      (a.stepsIn ⟨3⟩).map (·.texts) =
        [["<gin> of gin"], ["I stir", "ice", "6", "rest", "<ice>"]] := by
  intro d a block
  have hdelivered : a.Delivered := Delivered.empty.addDocument d .keepAll
  obtain ⟨o, ho, hblock⟩ : ∃ o, a.scenario? ⟨0⟩ = some o ∧ o.examples[1]? = some block :=
    Option.bind_eq_some_iff.1 (by decide +kernel)
  have hmem : block ∈ o.examples := List.mem_of_getElem? hblock
  obtain ⟨shown, i, n, hshown, -, -, hlisted, hn, -, hfilled⟩ :=
    hdelivered.cellsByColumn?_isFilledWith ho hmem (by decide : 1 < block.rows.length)
  exact ⟨hdelivered, o, ho, hmem, by decide, by decide, ⟨shown, i, n, hshown, hlisted, hn, hfilled⟩,
    by decide +kernel⟩

end FeatureAtlas
