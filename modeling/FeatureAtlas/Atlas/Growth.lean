import FeatureAtlas.Atlas.Nodes

/-!
# What a plan amounts to

What a block adds to an atlas, all at once: its own node, then one node for every instance; its own
steps, then the steps of the instances in the same order. As the arenas are only appended to, the
ids of all of them are known beforehand. `Growth` is an atlas with the blocks of a feature so far,
and keeps what the feature's own node has to say about them until it is added at the end.
-/

namespace FeatureAtlas

/-- Where a block's nodes go: the ids of its own node and of its first step. -/
structure Site where
  file : Path
  feature : FeatureId
  scenario : ScenarioId
  step : StepId
deriving DecidableEq, Repr

namespace Site

/-- The id of the instance with this number, counted from zero over all examples blocks. -/
def instanceId (site : Site) (number : Nat) : ScenarioId :=
  site.scenario.shift (number + 1)

end Site

/-- The examples of an outline whose first instance has the given id. -/
def placeExamples (first : ScenarioId) : List ExamplesPlan → List Examples
  | [] => []
  | e :: es =>
    ⟨e.keyword, e.title, e.comments, e.line, e.columns, e.rows, first.run e.rows.length⟩
      :: placeExamples (first.shift e.rows.length) es

namespace BlockPlan

/-- What a block shows of itself under the given name. -/
def heading (b : BlockPlan) (file : Path) (name : String) : Heading :=
  ⟨name, b.keyword, b.title, b.description, b.comments, file, b.line⟩

/-- What an instance shows: what its outline shows, with a number of its own. -/
def instanceHeading (b : BlockPlan) (file : Path) (number : Nat) : Heading :=
  ⟨"example_" ++ toString number, b.keyword, b.title ++ " (" ++ toString (number + 1) ++ ")",
    b.description, b.comments, file, b.line⟩

/-- The node of the block itself. -/
def node (b : BlockPlan) (site : Site) (name : String) (tags : List TagId) : Scenario where
  heading := b.heading site.file name
  kind := b.kind
  tags := tags.eraseDups
  steps := site.step.run b.steps.length
  instances := (site.instanceId 0).run b.bindings.length
  examples := placeExamples (site.instanceId 0) b.examples
  feature := site.feature
  outline := none

/-- The node of an instance. -/
def instanceNode (b : BlockPlan) (site : Site) (number : Nat) : Scenario where
  heading := b.instanceHeading site.file number
  kind := .example
  tags := []
  steps := (site.step.shift ((number + 1) * b.steps.length)).run b.steps.length
  instances := []
  examples := []
  feature := site.feature
  outline := some site.scenario

/-- All nodes that the block adds: its own, and one for each instance. -/
def nodes (b : BlockPlan) (site : Site) (name : String) (tags : List TagId) : List Scenario :=
  b.node site name tags :: (List.range b.bindings.length).map (b.instanceNode site)

/-- The steps of the block itself. -/
def ownSteps (b : BlockPlan) (site : Site) : List Step :=
  b.steps.map (·.toStep site.file site.scenario)

/-- The steps of an instance: the block's steps with the row's cells in place of placeholders. -/
def instanceSteps (b : BlockPlan) (site : Site) (number : Nat) (cells : Binding) : List Step :=
  b.steps.map fun s => (s.bind cells).toStep site.file (site.instanceId number)

/-- The steps of instances in order, of which the first has the given number. -/
def rowSteps (b : BlockPlan) (site : Site) (number : Nat) (rows : List Binding) : List Step :=
  (rows.zipIdx number).flatMap fun (cells, number) => b.instanceSteps site number cells

/-- All steps that the block adds. -/
def stepNodes (b : BlockPlan) (site : Site) : List Step :=
  b.ownSteps site ++ b.rowSteps site 0 b.bindings

@[simp] theorem length_nodes (b : BlockPlan) (site : Site) (name : String) (tags : List TagId) :
    (b.nodes site name tags).length = b.bindings.length + 1 := by
  simp [nodes]

@[simp] theorem length_ownSteps (b : BlockPlan) (site : Site) :
    (b.ownSteps site).length = b.steps.length := by
  simp [ownSteps]

@[simp] theorem length_instanceSteps (b : BlockPlan) (site : Site) (number : Nat)
    (cells : Binding) : (b.instanceSteps site number cells).length = b.steps.length := by
  simp [instanceSteps]

@[simp] theorem rowSteps_nil (b : BlockPlan) (site : Site) (number : Nat) :
    b.rowSteps site number [] = [] := rfl

theorem rowSteps_cons (b : BlockPlan) (site : Site) (number : Nat) (cells : Binding)
    (rows : List Binding) : b.rowSteps site number (cells :: rows) =
      b.instanceSteps site number cells ++ b.rowSteps site (number + 1) rows := rfl

theorem rowSteps_append (b : BlockPlan) (site : Site) (number : Nat) (rows more : List Binding) :
    b.rowSteps site number (rows ++ more) =
      b.rowSteps site number rows ++ b.rowSteps site (number + rows.length) more := by
  rw [rowSteps, List.zipIdx_append, List.flatMap_append]
  rfl

@[simp] theorem length_rowSteps (b : BlockPlan) (site : Site) (number : Nat)
    (rows : List Binding) :
    (b.rowSteps site number rows).length = rows.length * b.steps.length := by
  induction rows generalizing number with
  | nil => simp
  | cons cells rows ih =>
    rw [rowSteps_cons, List.length_append, ih, length_instanceSteps, List.length_cons, Nat.succ_mul,
      Nat.add_comm]

/-- Every instance adds as many steps as the block itself. -/
theorem length_stepNodes (b : BlockPlan) (site : Site) :
    (b.stepNodes site).length = (b.bindings.length + 1) * b.steps.length := by
  rw [stepNodes, List.length_append, length_ownSteps, length_rowSteps, Nat.succ_mul, Nat.add_comm]

/-- Whether the feature lists the block; one that ends at a ragged table of a step is not. -/
def isListed (b : BlockPlan) : Bool := b.extent ≠ .upToStep

end BlockPlan

namespace Atlas

/-- Where the next block of a feature goes. -/
def nextSite (a : Atlas) (file : Path) (feature : FeatureId) : Site :=
  ⟨file, feature, a.scenarios.nextId, a.steps.nextId⟩

/-- The tags of a block, recorded for its node. -/
def recordBlock (a : Atlas) (site : Site) (b : BlockPlan) : TagIndex × List TagId :=
  a.tags.recordAll (.scenario site.scenario) ⟨site.file, b.line⟩ b.tags

/-- Add a block with its instances under a name. -/
def place (a : Atlas) (site : Site) (name : String) (b : BlockPlan) : Atlas :=
  { a with
    scenarios := a.scenarios.append (b.nodes site name (a.recordBlock site b).2)
    steps := a.steps.append (b.stepNodes site)
    tags := (a.recordBlock site b).1 }

end Atlas

/-- An atlas to which blocks of a feature are being added, with the feature's children and
background so far. -/
structure Growth where
  atlas : Atlas
  children : List ScenarioId
  background : Option ScenarioId
deriving DecidableEq, Repr

namespace Growth

/-- The name of the next block of a kind. -/
def nextName (g : Growth) : ScenarioKind → String
  | .background => "background"
  | _ => "scenario_" ++ toString g.children.length

theorem nextName_of_ne (g : Growth) {kind : ScenarioKind} (h : kind ≠ .background) :
    g.nextName kind = "scenario_" ++ toString g.children.length := by
  cases kind with
  | background => exact absurd rfl h
  | _ => rfl

/-- Where the next block goes. -/
def nextSite (g : Growth) (file : Path) : Site :=
  g.atlas.nextSite file g.atlas.features.nextId

/-- Add a block with its instances. -/
def addBlock (file : Path) (g : Growth) (b : BlockPlan) : Growth :=
  let site := g.nextSite file
  { atlas := g.atlas.place site (g.nextName b.kind) b
    children :=
      if b.isListed ∧ b.kind ≠ .background then g.children ++ [site.scenario] else g.children
    background :=
      if b.isListed ∧ b.kind = .background then some site.scenario else g.background }

/-- Only a background replaces the background. -/
theorem background_addBlock_of_ne (g : Growth) (file : Path) {b : BlockPlan}
    (h : b.kind ≠ .background) : (g.addBlock file b).background = g.background := by
  simp only [addBlock, h, and_false, if_false]

theorem children_addBlock_of_ne (g : Growth) (file : Path) {b : BlockPlan}
    (h : b.kind ≠ .background) : (g.addBlock file b).children =
      if b.isListed then g.children ++ [g.atlas.scenarios.nextId] else g.children := by
  simp only [addBlock, h, ne_eq, not_false_eq_true, and_true]
  rfl

/-- The atlas with the feature's own node, which lists the children and the background. -/
def close (g : Growth) (f : Feature) : Atlas :=
  { g.atlas with
    features := g.atlas.features.push
      { f with children := g.children, background := g.background } }

/-- Add a child, unless it is excluded. -/
def add (file : Path) (g : Growth) : ChildPlan → Growth
  | .excluded .. => g
  | .kept b => g.addBlock file b

/-- Add children in order. -/
def addAll (file : Path) (g : Growth) (children : List ChildPlan) : Growth :=
  children.foldl (add file) g

@[simp] theorem addAll_nil (file : Path) (g : Growth) : g.addAll file [] = g := rfl

@[simp] theorem addAll_cons (file : Path) (g : Growth) (d : ChildPlan) (ds : List ChildPlan) :
    g.addAll file (d :: ds) = (g.add file d).addAll file ds := rfl

theorem addAll_append (file : Path) (g : Growth) (ds es : List ChildPlan) :
    g.addAll file (ds ++ es) = (g.addAll file ds).addAll file es :=
  List.foldl_append

/-- Blocks leave the features alone. -/
@[simp] theorem features_add (file : Path) (g : Growth) (d : ChildPlan) :
    (g.add file d).atlas.features = g.atlas.features := by
  cases d <;> rfl

@[simp] theorem features_addAll (file : Path) (g : Growth) (ds : List ChildPlan) :
    (g.addAll file ds).atlas.features = g.atlas.features := by
  induction ds generalizing g with
  | nil => rfl
  | cons d ds ih => rw [addAll_cons, ih, features_add]

end Growth

namespace FeaturePlan

/-- What a feature shows of itself; it is named for its file. -/
def heading (f : FeaturePlan) (file : Path) : Heading :=
  ⟨file.stem?.getD "", f.keyword, f.title, f.description, f.comments, file, f.line⟩

/-- The state before the first block: the feature's own tags are recorded. -/
def start (f : FeaturePlan) (a : Atlas) (file : Path) : Growth × List TagId :=
  let recorded := a.tags.recordAll (.feature a.features.nextId) ⟨file, f.line⟩ f.tags
  (⟨{ a with tags := recorded.1 }, [], none⟩, recorded.2.eraseDups)

end FeaturePlan

/-- Add a feature with all its blocks. -/
def Atlas.addFeature (a : Atlas) (file : Path) (f : FeaturePlan) : Atlas :=
  let (start, tags) := f.start a file
  (start.addAll file f.children).close ⟨f.heading file, tags, [], none⟩

end FeatureAtlas
