import FeatureAtlas.Atlas.Basic

/-!
# Opening and linking nodes

An atlas grows one node at a time. A new node has no links; its tags, steps, examples and instances
are put on it afterwards, each at the end of its list. The nodes of an outline's instances are made
by `Atlas.expand` from what the outline holds by then.
-/

namespace FeatureAtlas

/-- What a block shows of itself under the given name. -/
def Block.heading (b : Block) (file : Path) (name : String) : Heading :=
  ⟨name, b.keyword, b.title, b.description, commentText b.comments, file, b.position.line⟩

/-- What a feature shows of itself; it is named for its file. -/
def FeatureBlock.heading (f : FeatureBlock) (file : Path) : Heading :=
  ⟨file.stem?.getD "", f.keyword, f.title, f.description, commentText f.comments, file,
    f.position.line⟩

/-- What an instance shows: what its outline shows, with a number of its own. -/
def Heading.numbered (h : Heading) (number : Nat) : Heading :=
  { h with
    name := "example_" ++ toString number
    title := h.title ++ " (" ++ toString (number + 1) ++ ")" }

/-- The step node of a plan. -/
def StepPlan.toStep (file : Path) (owner : ScenarioId) (s : StepPlan) : Step :=
  ⟨"step_" ++ toString s.line, s.keyword, s.text, s.comments, file, s.line, s.docString, s.table,
    owner⟩

/-- A copy of a step for an instance, with a row's cells in place of placeholders in its text, doc
string and table. -/
def Step.bind (s : Step) (b : Binding) (owner : ScenarioId) : Step :=
  { s with
    text := b.render s.text
    docString := s.docString.map b.render
    table := s.table.map (·.map b.render)
    scenario := owner }

/-- A list with one more tag, unless it has the tag already. -/
def withTag (tags : List TagId) (tag : TagId) : List TagId :=
  if tag ∈ tags then tags else tags ++ [tag]

/-- Instances added to an outline and to one of its examples blocks. -/
def Scenario.enlist (o : Scenario) (block : Nat) (instances : List ScenarioId) : Scenario :=
  { o with
    instances := o.instances ++ instances
    examples := o.examples.modify block fun e => { e with instances := e.instances ++ instances } }

/-- An examples block without instances. -/
def ExamplesPlan.toExamples (e : ExamplesPlan) : Examples :=
  ⟨e.keyword, e.title, e.comments, e.line, e.columns, e.rows, []⟩

namespace Atlas

/-! ## New nodes -/

/-- A new feature, without any links. -/
def openFeature (a : Atlas) (heading : Heading) : Atlas :=
  { a with features := a.features.push ⟨heading, [], [], none⟩ }

/-- A new scenario of a feature, without any other links. -/
def openScenario (a : Atlas) (heading : Heading) (kind : ScenarioKind) (feature : FeatureId) :
    Atlas :=
  { a with scenarios := a.scenarios.push ⟨heading, kind, [], [], [], [], feature, none⟩ }

/-- A new step, at the end of its scenario's steps. -/
def attach (a : Atlas) (s : Step) : Atlas :=
  { a with
    steps := a.steps.push s
    scenarios := a.scenarios.modify s.scenario fun n =>
      { n with steps := n.steps ++ [a.steps.nextId] } }

/-! ## Tags -/

/-- The line of a node, for the occurrences of its tags; zero if there is no such node. -/
def lineOf (a : Atlas) : TagOwner → Nat
  | .feature id => ((a.feature? id).map (·.heading.line)).getD 0
  | .scenario id => ((a.scenario? id).map (·.heading.line)).getD 0

/-- Put a tag on the node that carries it. -/
def linkTag (a : Atlas) (tag : TagId) : TagOwner → Atlas
  | .feature id =>
    { a with features := a.features.modify id fun n => { n with tags := withTag n.tags tag } }
  | .scenario id =>
    { a with scenarios := a.scenarios.modify id fun n => { n with tags := withTag n.tags tag } }

/-- Tag a node: the index records the occurrence, and the node lists the tag. -/
def addTag (a : Atlas) (document : Path) (owner : TagOwner) (raw : String) : Atlas :=
  let (tags, id) := a.tags.record raw owner ⟨document, a.lineOf owner⟩
  { a with tags }.linkTag id owner

/-- Tag a node with raw tags in order. -/
def addTags (a : Atlas) (document : Path) (owner : TagOwner) (raws : List String) : Atlas :=
  raws.foldl (·.addTag document owner) a

/-! ## Children of a feature -/

/-- The name of the next child of a feature. -/
def childName (a : Atlas) (feature : FeatureId) : String :=
  "scenario_" ++ toString (((a.feature? feature).map (·.children.length)).getD 0)

/-- List a scenario as the last child of a feature. -/
def addChild (a : Atlas) (feature : FeatureId) (child : ScenarioId) : Atlas :=
  { a with features :=
      a.features.modify feature fun n => { n with children := n.children ++ [child] } }

/-- Make a scenario the background of a feature. -/
def setBackground (a : Atlas) (feature : FeatureId) (background : ScenarioId) : Atlas :=
  { a with features := a.features.modify feature fun n => { n with background := some background } }

/-! ## Examples of an outline -/

/-- An examples block at the end of an outline's blocks, without instances. -/
def openExamples (a : Atlas) (outline : ScenarioId) (e : ExamplesPlan) : Atlas :=
  { a with scenarios :=
      a.scenarios.modify outline fun n => { n with examples := n.examples ++ [e.toExamples] } }

/-- Name the outline of an instance, and list the instance there and in an examples block. -/
def linkInstance (a : Atlas) (outline : ScenarioId) (block : Nat) (id : ScenarioId) : Atlas :=
  let named := a.scenarios.modify id fun n => { n with outline := some outline }
  { a with scenarios := named.modify outline (·.enlist block [id]) }

/-- The instance of a row: a node with copies of the steps, listed by its outline. -/
def addInstance (a : Atlas) (outline : ScenarioId) (template : Scenario) (steps : List Step)
    (block number : Nat) (cells : Binding) : Atlas :=
  let id := a.scenarios.nextId
  let opened := a.openScenario (template.heading.numbered number) .example template.feature
  (steps.foldl (fun a s => a.attach (s.bind cells id)) opened).linkInstance outline block id

/-- Add an examples block to an outline, and an instance for each of its rows. The outline and its
steps are read before the first instance is made, and numbers go on from the instances it has. -/
def expand (a : Atlas) (outline : ScenarioId) (e : ExamplesPlan) : Atlas :=
  match a.scenario? outline with
  | none => a
  | some template =>
    let steps := a.stepsIn outline
    (e.bindings.zipIdx template.instances.length).foldl
      (fun a (cells, number) =>
        a.addInstance outline template steps template.examples.length number cells)
      (a.openExamples outline e)

end Atlas

end FeatureAtlas
