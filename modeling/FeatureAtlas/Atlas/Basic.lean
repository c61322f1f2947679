import FeatureAtlas.Plan
import FeatureAtlas.Tag.Index

/-!
# The atlas

An `Atlas` holds everything built from the documents of one run. Features, scenarios and steps are
nodes in arenas, and refer to each other by id: owners list what they own, and what is owned names
its owner. Tags are shared by all documents.
-/

namespace FeatureAtlas

/-- What features and scenarios show of themselves. The name tells them from their siblings; the
title is what the document says. -/
structure Heading where
  name : String
  keyword : String
  title : String
  description : String
  comments : String
  file : Path
  line : Nat
deriving DecidableEq, Repr

/-- File and line, for references. -/
def Heading.reference (h : Heading) : String :=
  h.file.text ++ ":" ++ toString h.line

/-- The feature of a document. The background is not among the children. -/
structure Feature where
  heading : Heading
  tags : List TagId
  children : List ScenarioId
  background : Option ScenarioId
deriving DecidableEq, Repr

/-- An examples block of an outline, with the instances that its rows gave. -/
structure Examples where
  keyword : String
  title : String
  comments : String
  line : Nat
  columns : List String
  rows : List (List String)
  instances : List ScenarioId
deriving DecidableEq, Repr

/-- Every column with its cell in a data row; a cell that the row lacks is empty. -/
def Examples.cellsByColumn? (e : Examples) (row : Nat) : Option (List (String × String)) :=
  e.rows[row]?.map (Binding.pairs e.columns)

/-- A background, scenario, outline or instance of an outline. Only outlines have examples and
instances, and only instances name an outline. -/
structure Scenario where
  heading : Heading
  kind : ScenarioKind
  tags : List TagId
  steps : List StepId
  instances : List ScenarioId
  examples : List Examples
  feature : FeatureId
  outline : Option ScenarioId
deriving DecidableEq, Repr

/-- A step of a scenario. -/
structure Step where
  name : String
  keyword : String
  text : String
  comments : String
  file : Path
  line : Nat
  docString : Option String
  table : Option DataTable
  scenario : ScenarioId
deriving DecidableEq, Repr

/-- All nodes and tags of a run. -/
structure Atlas where
  features : Arena .feature Feature
  scenarios : Arena .scenario Scenario
  steps : Arena .step Step
  tags : TagIndex
deriving DecidableEq, Repr

namespace Atlas

/-- The atlas of no documents. -/
def empty : Atlas := ⟨.empty, .empty, .empty, .empty⟩

instance : Inhabited Atlas := ⟨empty⟩

/-- A feature by id. -/
def feature? (a : Atlas) (id : FeatureId) : Option Feature := a.features.get? id

/-- A scenario of any kind by id. -/
def scenario? (a : Atlas) (id : ScenarioId) : Option Scenario := a.scenarios.get? id

/-- A step by id. -/
def step? (a : Atlas) (id : StepId) : Option Step := a.steps.get? id

/-- A tag by id. -/
def tag? (a : Atlas) (id : TagId) : Option Tag := a.tags.get? id

/-- How many scenarios of a kind there are. -/
def countOf (a : Atlas) (kind : ScenarioKind) : Nat :=
  a.scenarios.toList.countP (·.kind = kind)

/-- The steps of a scenario in order. -/
def stepsIn (a : Atlas) (id : ScenarioId) : List Step :=
  match a.scenario? id with
  | some scenario => scenario.steps.filterMap a.step?
  | none => []

/-- The ids of a node's tags in the order of their declaration. -/
def tagIdsOn (a : Atlas) : TagOwner → List TagId
  | .feature id => ((a.feature? id).map (·.tags)).getD []
  | .scenario id => ((a.scenario? id).map (·.tags)).getD []

/-- The tags of a node in the order of their declaration. -/
def tagsOn (a : Atlas) (owner : TagOwner) : List Tag :=
  (a.tagIdsOn owner).filterMap a.tag?

end Atlas

/-- A change to a step of an atlas. -/
inductive StepChange where
  | appendText (more : String)
  | setDocString (content : String)
  | setCell (row column : Nat) (cell : String)
deriving DecidableEq, Repr

/-- The step after a change. A cell that is not there is not set. -/
def Step.apply (s : Step) : StepChange → Step
  | .appendText more => { s with text := s.text ++ more }
  | .setDocString content => { s with docString := some content }
  | .setCell row column cell =>
    { s with table := s.table.map (·.modifyCell row column fun _ => cell) }

/-- Change a step in place. A step that does not exist changes nothing. -/
def Atlas.editStep (a : Atlas) (id : StepId) (change : StepChange) : Atlas :=
  { a with steps := a.steps.modify id (·.apply change) }

end FeatureAtlas
