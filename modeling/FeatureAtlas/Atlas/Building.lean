import FeatureAtlas.Atlas.Nodes

/-!
# Building a document

A document is built into an atlas from top to bottom: the feature with its tags, then its children
with theirs, step by step, and the examples of an outline block by block. `Building` is such work.
A ragged table ends it at once, and what was built before stays in the atlas.
-/

namespace FeatureAtlas

/-- Work on an atlas that a ragged table may end. -/
abbrev Building := EStateM RaggedError Atlas

namespace Building

/-- Build a step at the end of a scenario. -/
def step (document : Path) (owner : ScenarioId) (s : StepLine) : Building Unit := do
  let plan ← MonadExcept.ofExcept (StepPlan.ofLine document s)
  modify fun a => a.attach (plan.toStep document owner)

/-- Build a block of a kind, with its tags and steps, under a name. -/
def block (document : Path) (feature : FeatureId) (kind : ScenarioKind) (name : String)
    (b : Block) : Building ScenarioId := do
  let id := (← get).scenarios.nextId
  modify fun a => a.openScenario (b.heading document name) kind feature
  modify fun a => a.addTags document (.scenario id) (tagTexts b.tags)
  b.steps.forM (step document id)
  return id

/-- Build the background of a feature. It is never left out, and replaces an earlier one. -/
def background (document : Path) (feature : FeatureId) (b : Block) : Building Unit := do
  let id ← block document feature .background "background" b
  modify fun a => a.setBackground feature id

/-- Build a scenario as the next child of a feature, unless the filter leaves it out. -/
def scenario (document : Path) (filter : TagFilter) (feature : FeatureId) (b : Block) :
    Building (Option ScenarioId) := do
  if filter.excludes (tagTexts b.tags) then return none
  let name := (← get).childName feature
  let id ← block document feature .scenario name b
  modify fun a => a.addChild feature id
  return some id

/-- Build an examples block of an outline, with its instances. Its rows are checked first. -/
def examples (document : Path) (outline : ScenarioId) (e : ExamplesBlock) : Building Unit := do
  let plan ← MonadExcept.ofExcept (ExamplesPlan.ofBlock document e)
  modify fun a => a.expand outline plan

/-- Build an outline as the next child of a feature, unless the filter leaves it out, and then its
examples blocks in order. -/
def outline (document : Path) (filter : TagFilter) (feature : FeatureId) (b : Block) :
    Building (Option ScenarioId) := do
  if filter.excludes (tagTexts b.tags) then return none
  let name := (← get).childName feature
  let id ← block document feature .outline name b
  modify fun a => a.addChild feature id
  b.examples.forM (examples document id)
  return some id

/-- Build a child of a feature. -/
def child (document : Path) (filter : TagFilter) (feature : FeatureId) : Child → Building Unit
  | .background b => background document feature b
  | .scenario b => discard (scenario document filter feature b)
  | .outline b => discard (outline document filter feature b)

/-- Build a feature with its children in order, unless the filter leaves it out. -/
def feature (document : Path) (filter : TagFilter) (f : FeatureBlock) :
    Building (Option FeatureId) := do
  if filter.excludes (tagTexts f.tags) then return none
  let id := (← get).features.nextId
  modify fun a => a.openFeature (f.heading document)
  modify fun a => a.addTags document (.feature id) (tagTexts f.tags)
  f.children.forM (child document filter id)
  return some id

/-- Build a document; one without a feature adds nothing. -/
def document (filter : TagFilter) (d : Document) : Building (Option FeatureId) :=
  match d.feature? with
  | none => pure none
  | some f => feature d.path filter f

end Building

end FeatureAtlas
