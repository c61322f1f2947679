import FeatureAtlas.Proofs.Contents
import Mathlib.Data.List.Forall2

/-!
# Outline expansion is exact

`IsExpanded` says what a sound outline becomes: its own node with the templates as written, one
instance for each row over all examples blocks, and for every examples block the instances of its
rows. `IsInstance` says the same of one instance. `outline_expands` shows that `Building.outline`
always succeeds on such an outline and leaves it expanded, with the rest of the atlas as it was.
-/

namespace FeatureAtlas

/-- The rows of an outline over all its examples blocks, each with the columns of its block. -/
def Block.bindings (b : Block) : List Binding :=
  b.examples.flatMap (·.bindings)

/-- An examples block as the document has it, without its instances. -/
def Examples.plan (e : Examples) : ExamplesPlan :=
  ⟨e.keyword, e.title, e.comments, e.line, e.columns, e.rows⟩

/-- An examples block as the document has it, with these instances. Without a header it has no
columns. -/
def ExamplesBlock.node (instances : List ScenarioId) (e : ExamplesBlock) : Examples where
  keyword := e.keyword
  title := e.title
  comments := "\n".intercalate e.comments
  line := e.position.line
  columns := (e.header.map (·.cells)).getD []
  rows := e.body.map (·.cells)
  instances := instances

/-- A step with a row's cells in place of its placeholders, for a node of its own. -/
structure Step.IsFilled (template : Step) (cells : Binding) (owner : ScenarioId) (s : Step) :
    Prop where
  name : s.name = template.name
  keyword : s.keyword = template.keyword
  text : s.text = cells.render template.text
  comments : s.comments = template.comments
  file : s.file = template.file
  line : s.line = template.line
  docString : s.docString = template.docString.map cells.render
  table : s.table = template.table.map (·.map cells.render)
  scenario : s.scenario = owner

/-- An instance of the outline `o` with the given number. It has no tags, examples or instances,
and its steps are those of the outline in order, filled with the cells of its row. -/
structure IsInstance (a : Atlas) (outline : ScenarioId) (o : Scenario) (templates : List Step)
    (cells : Binding) (number : Nat) (id : ScenarioId) (n : Scenario) : Prop where
  node : a.scenario? id = some n
  kind : n.kind = .example
  heading : n.heading =
    { o.heading with
      name := "example_" ++ toString number
      title := o.heading.title ++ " (" ++ toString (number + 1) ++ ")" }
  feature : n.feature = o.feature
  outline : n.outline = some outline
  tags : n.tags = []
  examples : n.examples = []
  instances : n.instances = []
  steps : List.Forall₂
    (fun step template => ∃ s, a.step? step = some s ∧ template.IsFilled cells id s)
    n.steps templates
  nodup : n.steps.Nodup

/-- The outline `o` of a block with its instances. -/
structure IsExpanded (a : Atlas) (document : Path) (b : Block) (id : ScenarioId) (o : Scenario) :
    Prop where
  node : a.scenario? id = some o
  kind : o.kind = .outline
  outline : o.outline = none
  steps : o.steps.map a.step? = b.steps.map fun s => some (s.node document id)
  examples : List.Forall₂ (fun placed e => placed = e.node placed.instances) o.examples b.examples
  slices : (o.examples.map (·.instances)).flatten = o.instances
  widths : ∀ e ∈ o.examples, e.instances.length = e.rows.length
  instances : List.Forall₂
    (fun i row => ∃ n,
      IsInstance a id o (b.steps.map (·.node document id)) row.1 row.2 i n)
    o.instances b.bindings.zipIdx
  nodup : (id :: o.instances).Nodup

/-! ## The examples of a placed outline -/

theorem map_plan_placeExamples (first : ScenarioId) (es : List ExamplesPlan) :
    (placeExamples first es).map (·.plan) = es := by
  induction es generalizing first with
  | nil => rfl
  | cons e es ih => rw [placeExamples, List.map_cons, ih]; rfl

theorem forall₂_node_placeExamples (first : ScenarioId) (es : List ExamplesBlock) :
    List.Forall₂ (fun placed e => placed = e.node placed.instances)
      (placeExamples first (es.map (·.plan))) es := by
  induction es generalizing first with
  | nil => exact .nil
  | cons e es ih => exact .cons rfl (ih _)

/-- The instances of all examples blocks are numbered without a gap. -/
theorem flatten_instances_placeExamples (first : ScenarioId) (es : List ExamplesPlan) :
    ((placeExamples first es).map (·.instances)).flatten =
      first.run (es.flatMap (·.rows)).length := by
  induction es generalizing first with
  | nil => rfl
  | cons e es ih =>
    rw [placeExamples, List.map_cons, List.flatten_cons, ih, List.flatMap_cons, List.length_append,
      NodeId.run_add]

theorem length_instances_of_mem_placeExamples {first : ScenarioId} {es : List ExamplesPlan}
    {e : Examples} (he : e ∈ placeExamples first es) : e.instances.length = e.rows.length := by
  induction es generalizing first with
  | nil => cases he
  | cons e' es ih =>
    rcases List.mem_cons.1 he with rfl | hrest
    · exact NodeId.length_run _ _
    · exact ih hrest

@[simp] theorem Block.bindings_plan (b : Block) : (b.plan .outline).bindings = b.bindings := by
  simp [plan, examplesPlans, BlockPlan.bindings, bindings, List.flatMap_map]

/-! ## The instances of a placed outline -/

/-- Ids that look up the images of items, one by one. -/
theorem forall₂_of_map_eq {α β γ : Type} {look : α → Option β} {image : γ → β} {ids : List α}
    {items : List γ} (h : ids.map look = (items.map image).map some) :
    List.Forall₂ (fun id item => look id = some (image item)) ids items := by
  have heq : List.Forall₂ (· = ·) (ids.map look) (items.map (some ∘ image)) := by
    rw [h, List.map_map]
    exact List.forall₂_same.2 fun _ _ => rfl
  rwa [List.forall₂_map_left_iff, List.forall₂_map_right_iff] at heq

section

variable {a : Atlas} {site : Site} {name : String} {b : Block}

/-- Every step of an instance is a filled copy of the step at its place in the outline. -/
theorem forall₂_isFilled_place (hstep : site.step = a.steps.nextId) {number : Nat}
    {cells : Binding} (hcells : b.bindings[number]? = some cells) :
    let placed := a.place site name (b.plan .outline)
    List.Forall₂
      (fun step template => ∃ s, placed.step? step = some s ∧
        template.IsFilled cells (site.instanceId number) s)
      ((b.plan .outline).instanceNode site number).steps
      (b.steps.map (·.node site.file site.scenario)) := by
  intro placed
  let filled (s : StepLine) : Step :=
    (s.plan.bind cells).toStep site.file (site.instanceId number)
  have hcells' : (b.plan .outline).bindings[number]? = some cells := by
    rw [Block.bindings_plan, hcells]
  have hfilled : (b.plan .outline).instanceSteps site number cells = b.steps.map filled :=
    List.map_map
  have hsteps : ((b.plan .outline).instanceNode site number).steps.map placed.step? =
      (b.steps.map filled).map some :=
    hfilled ▸ Atlas.map_step?_place_instance hstep hcells'
  rw [List.forall₂_map_right_iff]
  refine (forall₂_of_map_eq hsteps).imp fun step s hstep => ⟨filled s, hstep, ?_⟩
  exact ⟨rfl, rfl, rfl, rfl, rfl, rfl, rfl, rfl, rfl⟩

/-- The instance of a row, where its outline was placed. -/
theorem isInstance_place (hsite : site.scenario = a.scenarios.nextId)
    (hstep : site.step = a.steps.nextId) (tags : List TagId) {number : Nat} {cells : Binding}
    (hcells : b.bindings[number]? = some cells) :
    IsInstance (a.place site name (b.plan .outline)) site.scenario
      ((b.plan .outline).node site name tags) (b.steps.map (·.node site.file site.scenario))
      cells number (site.instanceId number) ((b.plan .outline).instanceNode site number) := by
  have hnumber : number < (b.plan .outline).bindings.length := by
    rw [b.bindings_plan]
    exact (List.getElem?_eq_some_iff.1 hcells).1
  constructor
  case node => exact Atlas.scenario?_place_instance hsite hnumber
  case steps => exact forall₂_isFilled_place hstep hcells
  case nodup => exact NodeId.nodup_run _ _
  all_goals rfl

/-- A placed outline is expanded. -/
theorem isExpanded_place (hsite : site.scenario = a.scenarios.nextId)
    (hstep : site.step = a.steps.nextId) :
    IsExpanded (a.place site name (b.plan .outline)) site.file b site.scenario
      ((b.plan .outline).node site name (a.recordBlock site (b.plan .outline)).2) := by
  constructor
  case node => exact Atlas.scenario?_place hsite
  case kind => rfl
  case outline => rfl
  case steps =>
    rw [Atlas.map_step?_place_own hstep, Block.ownSteps_plan, List.map_map]
    rfl
  case examples => exact forall₂_node_placeExamples _ b.examples
  case slices =>
    refine (flatten_instances_placeExamples _ _).trans ?_
    exact congrArg _ (BlockPlan.length_bindings _).symm
  case widths => exact fun e he => length_instances_of_mem_placeExamples he
  case instances =>
    -- Both lists are numbered through, so the instance of row `i` is the `i`-th one.
    refine List.forall₂_iff_get.2 ⟨by simp [BlockPlan.node], fun i h₁ h₂ => ?_⟩
    have hi : i < b.bindings.length := by simpa using h₂
    have hid : ((b.plan .outline).node site name
        (a.recordBlock site (b.plan .outline)).2).instances.get ⟨i, h₁⟩ = site.instanceId i := by
      simp [BlockPlan.node, NodeId.run, Site.instanceId, Nat.add_comm]
    have hrow : b.bindings.zipIdx.get ⟨i, h₂⟩ = (b.bindings[i], i) := by simp
    rw [hid, hrow]
    exact ⟨_, isInstance_place hsite hstep _ (List.getElem?_eq_getElem hi)⟩
  case nodup =>
    have hrun : site.scenario :: (site.instanceId 0).run (b.plan .outline).bindings.length =
        site.scenario.run ((b.plan .outline).bindings.length + 1) :=
      (NodeId.run_succ _ _).symm
    exact hrun ▸ NodeId.nodup_run _ _

end

/-- An outline that is kept and sound is always added, and expanded exactly. The feature lists it
as its last child; what the atlas held before is still there. -/
theorem Building.outline_expands (document : Path) {filter : TagFilter} (feature : FeatureId)
    {b : Block} (hkept : filter.excludes (tagTexts b.tags) = false) (hsound : b.IsSound .outline)
    (a : Atlas) :
    ∃ a' o, EStateM.run (outline document filter feature b) a =
        .ok (some a.scenarios.nextId) a' ∧
      IsExpanded a' document b a.scenarios.nextId o ∧
      o.heading = ⟨a.childName feature, b.keyword, b.title, b.description,
        "\n".intercalate b.comments, document, b.position.line⟩ ∧
      o.feature = feature ∧
      a'.feature? feature = (a.feature? feature).map (fun f =>
        { f with children := f.children ++ [a.scenarios.nextId] }) ∧
      (∀ id n, a.scenario? id = some n → a'.scenario? id = some n) ∧
      ∀ id s, a.step? id = some s → a'.step? id = some s := by
  let id := a.scenarios.nextId
  let listed := a.addChild feature id
  let site := listed.nextSite document feature
  let name := a.childName feature
  have hrun : EStateM.run (outline document filter feature b) a =
      .ok (some id) (listed.place site name (b.plan .outline)) := by
    rw [run_outline hkept, BlockPlan.ofBlock_of_isSound hsound]
    rfl
  have hlisted : listed.feature? feature = (a.feature? feature).map (fun f =>
      { f with children := f.children ++ [id] }) := by
    simp only [listed, Atlas.addChild, Atlas.feature?, Arena.get?_modify, if_true]
  refine ⟨_, _, hrun, isExpanded_place rfl rfl, rfl, rfl, hlisted, ?_, ?_⟩
  · intro i n hn
    exact Atlas.scenario?_place_of_some hn
  · intro i s hs
    exact Atlas.step?_place_of_some hs

/-- An outline with a doc string and a table, one examples block with two rows and one with a
single row. -/
def Block.eating : Block where
  keyword := "Scenario Outline"
  title := "Eating"
  description := "At noon"
  comments := ["# lunch", "# or dinner"]
  position := ⟨3, 3⟩
  tags := [⟨"@slow", ⟨2, 3⟩⟩]
  steps :=
    [⟨"Given", "there are <n> cukes", [], ⟨4, 5⟩, some (.docString "<n> of <kind>" ⟨5, 7⟩)⟩,
      ⟨"When", "I eat", ["# all", "# of them"], ⟨6, 5⟩,
        some (.table [⟨⟨7, 7⟩, ["kind", "count"]⟩, ⟨⟨8, 7⟩, ["cukes", "<n>"]⟩] ⟨7, 7⟩)⟩]
  examples :=
    [⟨"Examples", "few", ["# small", "# portions"], ⟨10, 5⟩, some ⟨⟨11, 7⟩, ["n"]⟩,
        [⟨⟨12, 7⟩, ["1"]⟩, ⟨⟨13, 7⟩, ["2"]⟩]⟩,
      ⟨"Examples", "many", [], ⟨15, 5⟩, some ⟨⟨16, 7⟩, ["n"]⟩, [⟨⟨17, 7⟩, ["50"]⟩]⟩]

theorem Block.eating_isSound : Block.eating.IsSound .outline := by
  constructor
  · simp [eating, StepLine.IsSound, StepLine.table?, DataTable.IsRectangular, DataTable.width]
  · simp [eating, ExamplesBlock.IsSound, ExamplesBlock.columns]

/-- The outline under a filter that keeps it, in an atlas with a feature. There are three instances,
and the steps of the first have the cell of its row. -/
theorem Building.eating_expands :
    let path : Path := ⟨"eating.feature"⟩
    let a := Atlas.empty.openFeature ⟨"eating", "Feature", "Meals", "", "", path, 1⟩
    let filter := TagFilter.ofTags ["@wip"]
    filter.excludes (tagTexts Block.eating.tags) = false ∧ Block.eating.IsSound .outline ∧
      ∃ a' o, EStateM.run (outline path filter ⟨0⟩ Block.eating) a = .ok (some ⟨0⟩) a' ∧
        IsExpanded a' path Block.eating ⟨0⟩ o ∧
        o.heading = ⟨"scenario_0", "Scenario Outline", "Eating", "At noon",
          "# lunch\n# or dinner", path, 3⟩ ∧
        o.examples =
          [⟨"Examples", "few", "# small\n# portions", 10, ["n"], [["1"], ["2"]], [⟨1⟩, ⟨2⟩]⟩,
            ⟨"Examples", "many", "", 15, ["n"], [["50"]], [⟨3⟩]⟩] ∧
        o.instances = [⟨1⟩, ⟨2⟩, ⟨3⟩] ∧
        (a'.scenario? ⟨1⟩).map (fun n => (n.heading, n.steps.map a'.step?)) = some
          (⟨"example_0", "Scenario Outline", "Eating (1)", "At noon", "# lunch\n# or dinner", path,
              3⟩,
            [some ⟨"step_4", "Given", "there are 1 cukes", "", path, 4, some "1 of <kind>", none,
                ⟨1⟩⟩,
              some ⟨"step_6", "When", "I eat", "# all\n# of them", path, 6, none,
                some ⟨[["kind", "count"], ["cukes", "1"]]⟩, ⟨1⟩⟩]) := by
  intro path a filter
  have hkept : filter.excludes (tagTexts Block.eating.tags) = false := by decide
  obtain ⟨a', o, hrun, hexpanded, hheading, -⟩ :=
    outline_expands path ⟨0⟩ hkept Block.eating_isSound a
  let ran := EStateM.run (outline path filter ⟨0⟩ Block.eating) a
  have hstate : a' = match ran with
      | .ok _ s => s
      | .error _ s => s := by
    simp only [ran, hrun]
  have hlists : (a'.scenario? ⟨0⟩).map (fun n => (n.examples, n.instances)) = some
      ([⟨"Examples", "few", "# small\n# portions", 10, ["n"], [["1"], ["2"]], [⟨1⟩, ⟨2⟩]⟩,
        ⟨"Examples", "many", "", 15, ["n"], [["50"]], [⟨3⟩]⟩], [⟨1⟩, ⟨2⟩, ⟨3⟩]) := by
    rw [hstate]
    decide +kernel
  have hnode : a'.scenario? ⟨0⟩ = some o := hexpanded.node
  rw [hnode, Option.map_some, Option.some.injEq, Prod.mk.injEq] at hlists
  refine ⟨hkept, Block.eating_isSound, a', o, hrun, hexpanded, ?_, hlists.1, hlists.2, ?_⟩
  · rw [hheading]
    decide +kernel
  · rw [hstate]
    decide +kernel

end FeatureAtlas
