import FeatureAtlas.Path

/-!
# Documents

What a `.feature` file says, without any of the links that an atlas adds: a document has at most
one feature, a feature has a background, scenarios and scenario outlines as children, and these
have steps. Everything carries the position at which it stands in the file.
-/

namespace FeatureAtlas

/-- A place in a text; lines and columns are counted from one. -/
structure Position where
  line : Nat
  column : Nat
deriving DecidableEq, Repr, Inhabited

/-- A tag as written, with the marker. -/
structure TagMark where
  text : String
  position : Position
deriving DecidableEq, Repr

/-- A row of a table. -/
structure Row where
  position : Position
  cells : List String
deriving DecidableEq, Repr

/-- What may follow a step: a doc string, a table, or something of another kind, which only has
the kind's name. -/
inductive Argument where
  | docString (content : String) (position : Position)
  | table (rows : List Row) (position : Position)
  | other (kind : String)
deriving DecidableEq, Repr

/-- One step. The keyword is as written, so it may be `And`. -/
structure StepLine where
  keyword : String
  text : String
  comments : List String
  position : Position
  argument : Option Argument
deriving DecidableEq, Repr

/-- The examples of an outline: a header that names the columns, and one row for each instance. -/
structure ExamplesBlock where
  keyword : String
  title : String
  comments : List String
  position : Position
  header : Option Row
  body : List Row
deriving DecidableEq, Repr

/-- A background, scenario or outline. Only outlines have examples. -/
structure Block where
  keyword : String
  title : String
  description : String
  comments : List String
  position : Position
  tags : List TagMark
  steps : List StepLine
  examples : List ExamplesBlock
deriving DecidableEq, Repr

/-- A child of a feature. -/
inductive Child where
  | background (block : Block)
  | scenario (block : Block)
  | outline (block : Block)
deriving DecidableEq, Repr

/-- The block of a child, whatever its kind. -/
def Child.block : Child → Block
  | .background block => block
  | .scenario block => block
  | .outline block => block

/-- A feature with its children in the order of the document. -/
structure FeatureBlock where
  keyword : String
  title : String
  description : String
  comments : List String
  position : Position
  tags : List TagMark
  children : List Child
deriving DecidableEq, Repr

/-- A document; one that is empty, or could not be read as Gherkin, has no feature. -/
structure Document where
  path : Path
  feature? : Option FeatureBlock
deriving DecidableEq, Repr

/-- The raw texts of tags. -/
def tagTexts (marks : List TagMark) : List String :=
  marks.map (·.text)

end FeatureAtlas
