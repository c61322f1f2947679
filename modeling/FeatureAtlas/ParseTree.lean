import FeatureAtlas.Document
import FeatureAtlas.Json.Basic

/-!
# Parse trees

The result of the Gherkin grammar, which is not part of this library: a `Grammar` is handed in by
whoever reads documents. Tags come without their marker, comments are missing, and a table has one
byte offset for all its rows. `ParseTree.Feature.ofJson` takes a tree from its JSON form, where a
part that is missing or null is empty.
-/

namespace FeatureAtlas

namespace ParseTree

/-- A table whose text begins at byte `start`. -/
structure Table where
  rows : List (List String)
  start : Nat
deriving DecidableEq, Repr

/-- A step with what follows it. -/
structure Step where
  keyword : String
  text : String
  docString : Option String
  table : Option Table
  position : Position
deriving DecidableEq, Repr

/-- A background. -/
structure Background where
  keyword : String
  title : String
  description : String
  steps : List Step
  position : Position
deriving DecidableEq, Repr

/-- A block of examples; the header is the first row of its table. -/
structure Examples where
  keyword : String
  title : String
  table : Option Table
  position : Position
deriving DecidableEq, Repr

/-- A scenario, with or without examples. -/
structure Scenario where
  keyword : String
  title : String
  description : String
  tags : List String
  steps : List Step
  examples : List Examples
  position : Position
deriving DecidableEq, Repr

/-- A rule, which groups scenarios and may have tags and a background for them. -/
structure Rule where
  tags : List String
  background : Option Background
  scenarios : List Scenario
deriving DecidableEq, Repr

/-- A feature. -/
structure Feature where
  keyword : String
  title : String
  description : String
  tags : List String
  background : Option Background
  scenarios : List Scenario
  rules : List Rule
  position : Position
deriving DecidableEq, Repr

end ParseTree

/-- The Gherkin grammar: a parse tree, or a message that says where the text is wrong. The text
ends with a line feed and is not blank. -/
abbrev Grammar := String → Except String ParseTree.Feature

/-! ## The JSON form -/

/-- A position is a pair of line and column. -/
def Position.ofJson (j : Json) : Position :=
  match j.items? with
  | some [.num line, .num column] => ⟨line, column⟩
  | _ => ⟨0, 0⟩

namespace ParseTree

/-- A table. -/
def Table.ofJson (j : Json) : Table :=
  ⟨(j.items "rows").map Json.texts, j.number "start"⟩

/-- A step. -/
def Step.ofJson (j : Json) : Step :=
  ⟨j.text "keyword", j.text "value", (j.part? "docstring").bind Json.text?,
    (j.part? "table").map Table.ofJson, .ofJson (j.part "position")⟩

/-- A background. -/
def Background.ofJson (j : Json) : Background :=
  ⟨j.text "keyword", j.text "name", j.text "description", (j.items "steps").map Step.ofJson,
    .ofJson (j.part "position")⟩

/-- A block of examples. -/
def Examples.ofJson (j : Json) : Examples :=
  ⟨j.text "keyword", j.text "name", (j.part? "table").map Table.ofJson, .ofJson (j.part "position")⟩

/-- A scenario. -/
def Scenario.ofJson (j : Json) : Scenario :=
  ⟨j.text "keyword", j.text "name", j.text "description", (j.part "tags").texts,
    (j.items "steps").map Step.ofJson, (j.items "examples").map Examples.ofJson,
    .ofJson (j.part "position")⟩

/-- A rule. -/
def Rule.ofJson (j : Json) : Rule :=
  ⟨(j.part "tags").texts, (j.part? "background").map Background.ofJson,
    (j.items "scenarios").map Scenario.ofJson⟩

/-- A feature. -/
def Feature.ofJson (j : Json) : Feature :=
  ⟨j.text "keyword", j.text "name", j.text "description", (j.part "tags").texts,
    (j.part? "background").map Background.ofJson, (j.items "scenarios").map Scenario.ofJson,
    (j.items "rules").map Rule.ofJson, .ofJson (j.part "position")⟩

/-- What the grammar returned: a tree, or an object that holds the message as its `error`. -/
def resultOfJson (j : Json) : Except String Feature :=
  match j.part? "error" with
  | some message => .error (message.text?.getD "")
  | none => .ok (Feature.ofJson j)

end ParseTree

end FeatureAtlas
