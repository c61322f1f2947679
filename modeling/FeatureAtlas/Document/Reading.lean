import FeatureAtlas.Log
import FeatureAtlas.ParseTree
import FeatureAtlas.Source

/-!
# Reading a document

A parse tree and the text it came from give a document. Rules are dissolved: their scenarios become
children of the feature, with the rule's tags in front of their own, and all children are put in
the order of their lines. A text that the grammar refuses gives a document without a feature and
one problem.
-/

namespace FeatureAtlas

/-- A problem that kept a document's feature from being read. -/
structure Problem where
  path : Path
  message : String
deriving DecidableEq, Repr

/-- A document with the problems met in reading it. -/
structure ReadDocument where
  document : Document
  problems : List Problem
deriving DecidableEq, Repr

namespace Document

/-- A tag with its marker. -/
def markTag (tag : String) : String :=
  if tag.toList.head? = some markerChar then tag else String.ofList (markerChar :: tag.toList)

/-- Tags of a block; they are placed where its keyword stands. -/
def tagMarks (tags : List String) (position : Position) : List TagMark :=
  tags.map fun tag => ⟨markTag tag, position⟩

/-- The tags of a scenario in a rule, each text once. -/
def inheritTags (ofRule own : List String) : List String :=
  (ofRule ++ own).eraseDups

/-- What follows a step. If there are a doc string and a table, the doc string counts. It starts
on the line below the step. -/
def argument? (s : Source) (step : ParseTree.Step) : Option Argument :=
  match step.docString, step.table with
  | some content, _ => some (.docString content ⟨step.position.line + 1, step.position.column⟩)
  | none, some table =>
    some (.table (s.placeRows (s.firstRow table.start) table.rows) (s.firstRow table.start))
  | none, none => none

/-- A step. -/
def stepLine (s : Source) (step : ParseTree.Step) : StepLine :=
  ⟨step.keyword, step.text, s.commentsAbove step.position.line, step.position, argument? s step⟩

/-- An examples block; the first row of its table is the header. -/
def examplesBlock (s : Source) (e : ParseTree.Examples) : ExamplesBlock :=
  let rows :=
    match e.table with
    | some table => s.placeRows (s.firstRow table.start) table.rows
    | none => []
  ⟨e.keyword, e.title, s.commentsAbove e.position.line, e.position, rows.head?, rows.tail⟩

/-- The block of a background. -/
def backgroundBlock (s : Source) (b : ParseTree.Background) : Block :=
  ⟨b.keyword, b.title, b.description, s.commentsAbove b.position.line, b.position, [],
    b.steps.map (stepLine s), []⟩

/-- The block of a scenario with the given tags. -/
def scenarioBlock (s : Source) (tags : List String) (scenario : ParseTree.Scenario) : Block :=
  ⟨scenario.keyword, scenario.title, scenario.description,
    s.commentsAbove scenario.position.line, scenario.position, tagMarks tags scenario.position,
    scenario.steps.map (stepLine s), scenario.examples.map (examplesBlock s)⟩

/-- Whether a scenario is an outline: it has examples, or its keyword says so. -/
def readsAsOutline (scenario : ParseTree.Scenario) : Bool :=
  !scenario.examples.isEmpty
    || ["Scenario Outline", "Scenario Template"].contains (Text.trim scenario.keyword)

/-- The child that a scenario becomes, in a rule with the given tags. -/
def scenarioChild (s : Source) (ofRule : List String) (scenario : ParseTree.Scenario) : Child :=
  let block := scenarioBlock s (inheritTags ofRule scenario.tags) scenario
  if readsAsOutline scenario then .outline block else .scenario block

/-- The children of a feature before they are put in order: the background, the scenarios outside
of rules, and those of the rules. -/
def unorderedChildren (s : Source) (f : ParseTree.Feature) : List Child :=
  (f.background.map fun b => Child.background (backgroundBlock s b)).toList
    ++ f.scenarios.map (scenarioChild s [])
    ++ f.rules.flatMap fun rule => rule.scenarios.map (scenarioChild s rule.tags)

/-- The children of a feature by increasing line; those on one line keep their order. -/
def orderedChildren (s : Source) (f : ParseTree.Feature) : List Child :=
  (unorderedChildren s f).mergeSort fun a b =>
    decide (a.block.position.line ≤ b.block.position.line)

/-- The feature of a parse tree. -/
def featureBlock (s : Source) (f : ParseTree.Feature) : FeatureBlock :=
  ⟨f.keyword, f.title, f.description, s.commentsAbove f.position.line, f.position,
    tagMarks f.tags f.position, orderedChildren s f⟩

/-- A text with a line feed at its end. -/
def endLine (text : String) : String :=
  if text.toList.getLast? = some '\n' then text else text ++ "\n"

/-- Whether a text holds nothing but blanks. -/
def isBlankText (text : String) : Bool :=
  text.toList.all Text.isBlank

/-- Read a text. The grammar is not asked about a blank text, which has no feature. -/
def read (grammar : Grammar) (path : Path) (text : String) : ReadDocument :=
  let text := endLine text
  if isBlankText text then ⟨⟨path, none⟩, []⟩
  else
    match grammar text with
    | .ok feature => ⟨⟨path, some (featureBlock (.ofChars text.toList) feature)⟩, []⟩
    | .error message => ⟨⟨path, none⟩, [⟨path, message⟩]⟩

/-! ## What reading reports -/

/-- A warning about a step whose table is dropped. -/
def stepWarnings (step : ParseTree.Step) : List LogEvent :=
  if step.docString.isSome && step.table.isSome then
    [⟨.warn, "gherkin_graph::gherkin_source",
      "step has both a doc string and a table; keeping the doc string",
      [("line", .plain (toString step.position.line))]⟩]
  else []

/-- The warnings about a rule: its background is dropped. -/
def ruleWarnings (path : Path) (rule : ParseTree.Rule) : List LogEvent :=
  let dropped := rule.background.toList.map fun b =>
    LogEvent.mk .warn "gherkin_graph::gherkin_source" "ignoring rule background"
      [("document", .plain path.text), ("line", .plain (toString b.position.line))]
  dropped ++ rule.scenarios.flatMap fun s => s.steps.flatMap stepWarnings

/-- The warnings about a feature, in the order of its parts in the parse tree. -/
def featureWarnings (path : Path) (f : ParseTree.Feature) : List LogEvent :=
  f.background.toList.flatMap (fun b => b.steps.flatMap stepWarnings)
    ++ f.scenarios.flatMap (fun s => s.steps.flatMap stepWarnings)
    ++ f.rules.flatMap (ruleWarnings path)

/-- The log events of reading a text. -/
def readEvents (grammar : Grammar) (path : Path) (text : String) : List LogEvent :=
  let text := endLine text
  if isBlankText text then []
  else
    match grammar text with
    | .ok feature => featureWarnings path feature
    | .error _ => []

end Document

end FeatureAtlas
