import FeatureAtlas.Atlas.Basic
import FeatureAtlas.Json.Basic

/-!
# The atlas as JSON

Every node becomes an object and every arena an array, so an id in the output is a position in the
array of its kind.
-/

namespace FeatureAtlas

/-- An id is its number. -/
def NodeId.toJson {kind : NodeKind} (id : NodeId kind) : Json := .num id.index

/-- A list of ids. -/
def NodeId.listToJson {kind : NodeKind} (ids : List (NodeId kind)) : Json :=
  .arr (ids.map NodeId.toJson)

/-- An id that may be missing. -/
def NodeId.optionToJson {kind : NodeKind} : Option (NodeId kind) → Json
  | some id => id.toJson
  | none => .null

/-- The kind of an owner with its id. -/
def TagOwner.toJson : TagOwner → Json
  | .feature id => .obj [("kind", .str "feature"), ("id", id.toJson)]
  | .scenario id => .obj [("kind", .str "scenario"), ("id", id.toJson)]

/-- A document with a line. -/
def Occurrence.toJson (o : Occurrence) : Json :=
  .obj [("document", .str o.document.text), ("line", .num o.line)]

/-- A tag with its owners and occurrences. -/
def Tag.toJson (t : Tag) : Json :=
  .obj [("name", .str t.name), ("value", .str t.value),
    ("owners", .arr (t.owners.map TagOwner.toJson)),
    ("occurrences", .arr (t.occurrences.map Occurrence.toJson))]

/-- The rows of a table. -/
def DataTable.toJson (t : DataTable) : Json :=
  .arr (t.rows.map Json.ofTexts)

/-- The name of a kind. -/
def ScenarioKind.name : ScenarioKind → String
  | .background => "background"
  | .scenario => "scenario"
  | .outline => "outline"
  | .example => "example"

/-- The fields that features and scenarios have in common. -/
def Heading.fields (h : Heading) : List (String × Json) :=
  [("name", .str h.name), ("keyword", .str h.keyword), ("value", .str h.title),
    ("description", .str h.description), ("comments", .str h.comments),
    ("file", .str h.file.text), ("line", .num h.line)]

/-- A feature. -/
def Feature.toJson (f : Feature) : Json :=
  .obj (f.heading.fields ++
    [("tags", NodeId.listToJson f.tags), ("scenarios", NodeId.listToJson f.children),
      ("background", NodeId.optionToJson f.background)])

/-- An examples block. -/
def Examples.toJson (e : Examples) : Json :=
  .obj [("keyword", .str e.keyword), ("name", .str e.title), ("comments", .str e.comments),
    ("line", .num e.line), ("header", .ofTexts e.columns),
    ("rows", .arr (e.rows.map Json.ofTexts)), ("scenarios", NodeId.listToJson e.instances)]

/-- A scenario of any kind. -/
def Scenario.toJson (s : Scenario) : Json :=
  .obj (s.heading.fields ++
    [("kind", .str s.kind.name), ("tags", NodeId.listToJson s.tags),
      ("steps", NodeId.listToJson s.steps), ("scenarios", NodeId.listToJson s.instances),
      ("examples", .arr (s.examples.map Examples.toJson)), ("feature", s.feature.toJson),
      ("outline", NodeId.optionToJson s.outline)])

/-- A step. -/
def Step.toJson (s : Step) : Json :=
  .obj [("name", .str s.name), ("keyword", .str s.keyword), ("value", .str s.text),
    ("comments", .str s.comments), ("file", .str s.file.text), ("line", .num s.line),
    ("docstring", .ofText? s.docString),
    ("table", (s.table.map DataTable.toJson).getD .null), ("scenario", s.scenario.toJson)]

/-- The whole atlas. -/
def Atlas.toJson (a : Atlas) : Json :=
  .obj [("features", .arr (a.features.toList.map Feature.toJson)),
    ("scenarios", .arr (a.scenarios.toList.map Scenario.toJson)),
    ("steps", .arr (a.steps.toList.map Step.toJson)),
    ("tags", .obj [("tags", .arr (a.tags.tags.toList.map Tag.toJson))])]

end FeatureAtlas
