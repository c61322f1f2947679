import FeatureAtlas.Atlas.Export

/-!
# Reports

A run ends with a report of its atlas: how many nodes of each kind there are, and the tags by
name.
-/

namespace FeatureAtlas

/-- What is said of one tag; of its owners only the number. -/
structure TagReport where
  name : String
  value : String
  ownerCount : Nat
  occurrences : List Occurrence
deriving DecidableEq, Repr

/-- What is said of a whole run. -/
structure Report where
  documents : Nat
  features : Nat
  backgrounds : Nat
  scenarios : Nat
  outlines : Nat
  instances : Nat
  tags : List TagReport
deriving DecidableEq, Repr

/-- What is said of a tag. -/
def Tag.report (t : Tag) : TagReport :=
  ⟨t.name, t.value, t.owners.length, t.occurrences⟩

/-- The report of an atlas that was built from this many documents. -/
def Atlas.report (a : Atlas) (documents : Nat) : Report where
  documents := documents
  features := a.features.size
  backgrounds := a.countOf .background
  scenarios := a.countOf .scenario
  outlines := a.countOf .outline
  instances := a.countOf .example
  tags := a.tags.byName.map Tag.report

/-- The JSON form of a tag's report. -/
def TagReport.toJson (t : TagReport) : Json :=
  .obj [("name", .str t.name), ("value", .str t.value), ("owners", .num t.ownerCount),
    ("occurrences", .arr (t.occurrences.map Occurrence.toJson))]

/-- The JSON form of a report. -/
def Report.toJson (s : Report) : Json :=
  .obj [("documents", .num s.documents), ("features", .num s.features),
    ("backgrounds", .num s.backgrounds), ("scenarios", .num s.scenarios),
    ("outlines", .num s.outlines), ("instances", .num s.instances),
    ("tags", .arr (s.tags.map TagReport.toJson))]

end FeatureAtlas
