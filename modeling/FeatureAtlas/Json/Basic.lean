/-!
# JSON values

The values that are read and written: numbers are natural, and an object keeps its fields in the
order in which they were given.
-/

namespace FeatureAtlas

/-- A JSON value without fractions or signs. -/
inductive Json where
  | null
  | bool (value : Bool)
  | num (value : Nat)
  | str (value : String)
  | arr (items : List Json)
  | obj (fields : List (String × Json))
deriving Repr, Inhabited, BEq

namespace Json

/-- The value of an object's field; of two fields with one name, the last. -/
def field? (j : Json) (name : String) : Option Json :=
  match j with
  | .obj fields => (fields.reverse.find? (·.1 == name)).map (·.2)
  | _ => none

/-- The text, if the value is one. -/
def text? : Json → Option String
  | .str s => some s
  | _ => none

/-- The number, if the value is one. -/
def number? : Json → Option Nat
  | .num n => some n
  | _ => none

/-- The items, if the value is an array. -/
def items? : Json → Option (List Json)
  | .arr items => some items
  | _ => none

/-! ## Parts of objects

Readers of a JSON form take a part that is missing or null as empty. -/

/-- A field that is neither missing nor null. -/
def part? (j : Json) (name : String) : Option Json :=
  match j.field? name with
  | some .null => none
  | field => field

/-- A field, or null if it is missing. -/
def part (j : Json) (name : String) : Json :=
  (j.field? name).getD .null

/-- A field that holds a text. -/
def text (j : Json) (name : String) : String :=
  ((j.field? name).bind text?).getD ""

/-- A field that holds a number. -/
def number (j : Json) (name : String) : Nat :=
  ((j.field? name).bind number?).getD 0

/-- A field that holds an array. -/
def items (j : Json) (name : String) : List Json :=
  ((j.field? name).bind items?).getD []

/-- The texts in an array. -/
def texts (j : Json) : List String :=
  (j.items?.getD []).filterMap text?

/-! ## Making values -/

/-- The text, or null. -/
def ofText? : Option String → Json
  | some s => .str s
  | none => .null

/-- An array of texts. -/
def ofTexts (ss : List String) : Json :=
  .arr (ss.map .str)

end Json

end FeatureAtlas
