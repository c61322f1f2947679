import FeatureAtlas.DataTable
import FeatureAtlas.Tag.Filter
import FeatureAtlas.Placeholder
import FeatureAtlas.Progress

/-!
# Plans

A plan is what a document will add to an atlas, worked out without looking at the atlas. Tables
are checked and excluded children marked here, so a plan can be added without failing. If a table
is ragged the plan ends there: `Document.plan` gives what comes before it, together with the
error.
-/

namespace FeatureAtlas

/-- What a node stands for: a feature's background, a scenario, the template of an outline, or an
instance of one. -/
inductive ScenarioKind where
  | background
  | scenario
  | outline
  | example
deriving DecidableEq, Repr

/-- The kind of node that a child becomes. -/
def Child.kind : Child → ScenarioKind
  | .background _ => .background
  | .scenario _ => .scenario
  | .outline _ => .outline

/-- Comments as one text, a line for each. -/
def commentText (comments : List String) : String :=
  "\n".intercalate comments

/-- A step to be added. `ignored` is the kind of an argument that is left out. -/
structure StepPlan where
  keyword : String
  text : String
  comments : String
  line : Nat
  docString : Option String
  table : Option DataTable
  ignored : Option String
deriving DecidableEq, Repr

namespace StepPlan

/-- The plan of a step. It fails if the step has a ragged table. -/
def ofLine (document : Path) (step : StepLine) : Except RaggedError StepPlan :=
  let plain : StepPlan :=
    ⟨step.keyword, step.text, commentText step.comments, step.position.line, none, none, none⟩
  match step.argument with
  | some (.docString content _) => .ok { plain with docString := some content }
  | some (.table rows _) =>
    (DataTable.ofRows document rows).map fun table => { plain with table := some table }
  | some (.other kind) => .ok { plain with ignored := some kind }
  | none => .ok plain

/-- The step with a row's cells in place of placeholders, in its text, doc string and table. -/
def bind (b : Binding) (step : StepPlan) : StepPlan :=
  { step with
    text := b.render step.text
    docString := step.docString.map b.render
    table := step.table.map (·.map b.render) }

/-- Every text of a step in which placeholders are replaced: its own, the doc string, and the
cells row by row. -/
def templates (step : StepPlan) : List String :=
  step.text :: (step.docString.toList ++ (step.table.toList.flatMap (·.rows)).flatten)

end StepPlan

/-- An examples block to be added. -/
structure ExamplesPlan where
  keyword : String
  title : String
  comments : String
  line : Nat
  columns : List String
  rows : List (List String)
deriving DecidableEq, Repr

namespace ExamplesPlan

/-- The plan of an examples block. It fails if a data row is not as wide as the header; a block
without a header has no columns. -/
def ofBlock (document : Path) (block : ExamplesBlock) : Except RaggedError ExamplesPlan :=
  let columns := (block.header.map (·.cells)).getD []
  match RaggedRow.find? document columns.length block.body with
  | some ragged => .error (.examples ragged)
  | none =>
    .ok ⟨block.keyword, block.title, commentText block.comments, block.position.line, columns,
      block.body.map (·.cells)⟩

/-- The columns with the cells of each row. -/
def bindings (e : ExamplesPlan) : List Binding :=
  e.rows.map fun cells => ⟨e.columns, cells⟩

/-- The names of placeholders in these steps that no column has, in order of first appearance. -/
def unmatched (e : ExamplesPlan) (steps : List StepPlan) : List String :=
  (((steps.flatMap StepPlan.templates).flatMap Placeholder.names).filter
    fun name => !e.columns.contains name).eraseDups

end ExamplesPlan

/-- How much of a block is in its plan: all of it, its steps up to a ragged table, or all steps
and its examples up to a ragged block. -/
inductive Extent where
  | whole
  | upToStep
  | upToExamples
deriving DecidableEq, Repr

/-- A background, scenario or outline to be added. -/
structure BlockPlan where
  kind : ScenarioKind
  keyword : String
  title : String
  description : String
  comments : String
  line : Nat
  tags : List String
  steps : List StepPlan
  examples : List ExamplesPlan
  extent : Extent
deriving DecidableEq, Repr

namespace BlockPlan

/-- The cells of every instance, over all examples blocks. -/
def bindings (b : BlockPlan) : List Binding :=
  b.examples.flatMap ExamplesPlan.bindings

end BlockPlan

namespace Block

/-- The steps of a block up to the first ragged table. -/
def checkedSteps (document : Path) (b : Block) : Progress RaggedError StepPlan :=
  Progress.collect (fun s => .ofExcept (StepPlan.ofLine document s)) b.steps

/-- The examples of an outline up to the first ragged block; other kinds have none. -/
def checkedExamples (document : Path) (kind : ScenarioKind) (b : Block) :
    Progress RaggedError ExamplesPlan :=
  match kind with
  | .outline => Progress.collect (fun e => .ofExcept (ExamplesPlan.ofBlock document e)) b.examples
  | _ => ⟨[], none⟩

/-- The plan of a block with its sound steps and the given examples. -/
def planWith (document : Path) (kind : ScenarioKind) (b : Block) (examples : List ExamplesPlan)
    (extent : Extent) : BlockPlan :=
  ⟨kind, b.keyword, b.title, b.description, commentText b.comments, b.position.line,
    tagTexts b.tags, (b.checkedSteps document).done, examples, extent⟩

end Block

/-- The plan of a block as far as its tables go, and the first ragged table. -/
def BlockPlan.ofBlock (document : Path) (kind : ScenarioKind) (b : Block) :
    BlockPlan × Option RaggedError :=
  let examples := b.checkedExamples document kind
  match (b.checkedSteps document).failure, examples.failure with
  | some e, _ => (b.planWith document kind [] .upToStep, some e)
  | none, some e => (b.planWith document kind examples.done .upToExamples, some e)
  | none, none => (b.planWith document kind examples.done .whole, none)

/-- A child of a feature: left out because of its tags, or to be added. -/
inductive ChildPlan where
  | excluded (kind : ScenarioKind) (title : String) (line : Nat)
  | kept (plan : BlockPlan)
deriving DecidableEq, Repr

namespace ChildPlan

/-- Whether a filter leaves a child out. Backgrounds are always kept. -/
def leavesOut (filter : TagFilter) : Child → Bool
  | .background _ => false
  | .scenario block => filter.excludes (tagTexts block.tags)
  | .outline block => filter.excludes (tagTexts block.tags)

/-- The plan of a child as far as it can be built. -/
def ofChild (document : Path) (filter : TagFilter) (child : Child) :
    Progress RaggedError ChildPlan :=
  if leavesOut filter child then
    ⟨[.excluded child.kind child.block.title child.block.position.line], none⟩
  else
    let (plan, failure) := BlockPlan.ofBlock document child.kind child.block
    ⟨[.kept plan], failure⟩

end ChildPlan

/-- A feature to be added. -/
structure FeaturePlan where
  keyword : String
  title : String
  description : String
  comments : String
  line : Nat
  tags : List String
  children : List ChildPlan
deriving DecidableEq, Repr

/-- What a document adds: nothing, as it has no feature; nothing, as its feature is excluded; or
a feature, with the error that ends it if a table is ragged. -/
inductive DocumentPlan where
  | noFeature
  | excluded (title : String)
  | feature (plan : FeaturePlan) (failure : Option RaggedError)
deriving DecidableEq, Repr

/-- The plan of a document under a filter. -/
def Document.plan (d : Document) (filter : TagFilter) : DocumentPlan :=
  match d.feature? with
  | none => .noFeature
  | some feature =>
    if filter.excludes (tagTexts feature.tags) then .excluded feature.title
    else
      let children := Progress.collect (ChildPlan.ofChild d.path filter) feature.children
      .feature
        ⟨feature.keyword, feature.title, feature.description, commentText feature.comments,
          feature.position.line, tagTexts feature.tags, children.done⟩
        children.failure

end FeatureAtlas
