import FeatureAtlas.Json.Basic

/-!
# Writing JSON

`compact` writes a value without blanks. `pretty` puts every item on a line of its own, indented
by two spaces a level; an empty array or object stays on one line.
-/

namespace FeatureAtlas.Json

/-- One character of a text: a quote, a backslash and the control characters are escaped, the
others stand for themselves. -/
def escapeChar (c : Char) : List Char :=
  match c with
  | '"' => ['\\', '"']
  | '\\' => ['\\', '\\']
  | '\n' => ['\\', 'n']
  | '\r' => ['\\', 'r']
  | '\t' => ['\\', 't']
  | '\x08' => ['\\', 'b']
  | '\x0c' => ['\\', 'f']
  | c =>
    if c.toNat < 0x10 then ['\\', 'u', '0', '0', '0'] ++ Nat.toDigits 16 c.toNat
    else if c.toNat < 0x20 then ['\\', 'u', '0', '0'] ++ Nat.toDigits 16 c.toNat
    else [c]

/-- A text between quotes. -/
def escape (s : String) : String :=
  String.ofList ('"' :: s.toList.flatMap escapeChar ++ ['"'])

/-- A value that has no parts. -/
def leaf : Json → String
  | .null => "null"
  | .bool true => "true"
  | .bool false => "false"
  | .num n => toString n
  | .str s => escape s
  | .arr _ => "[]"
  | .obj _ => "\x7b\x7d"

mutual

/-- The parts of a value on one line, without blanks. -/
def compactParts : Json → List String
  | .arr (j :: js) => "[" :: compactParts j ++ compactItems js ++ ["]"]
  | .obj ((name, j) :: fields) =>
    "\x7b" :: escape name :: ":" :: compactParts j ++ compactFields fields ++ ["\x7d"]
  | .arr [] => ["[]"]
  | .obj [] => ["\x7b\x7d"]
  | .null => [leaf .null]
  | .bool b => [leaf (.bool b)]
  | .num n => [leaf (.num n)]
  | .str s => [leaf (.str s)]

/-- The items after the first, each behind a comma. -/
def compactItems : List Json → List String
  | [] => []
  | j :: js => "," :: compactParts j ++ compactItems js

/-- The fields after the first, each behind a comma. -/
def compactFields : List (String × Json) → List String
  | [] => []
  | (name, j) :: fields => "," :: escape name :: ":" :: compactParts j ++ compactFields fields

end

/-- The value on one line, without blanks. -/
def compact (j : Json) : String :=
  String.join (compactParts j)

/-- The start of a line at the given depth. -/
def newLine (depth : Nat) : String :=
  String.ofList ('\n' :: List.replicate (2 * depth) ' ')

mutual

/-- The parts of a value over several lines; its first line is at the given depth already. -/
def prettyParts (depth : Nat) : Json → List String
  | .arr (j :: js) =>
    "[" :: newLine (depth + 1) :: prettyParts (depth + 1) j ++ prettyItems (depth + 1) js
      ++ [newLine depth, "]"]
  | .obj ((name, j) :: fields) =>
    "\x7b" :: newLine (depth + 1) :: escape name :: ": " :: prettyParts (depth + 1) j
      ++ prettyFields (depth + 1) fields ++ [newLine depth, "\x7d"]
  | .arr [] => ["[]"]
  | .obj [] => ["\x7b\x7d"]
  | .null => [leaf .null]
  | .bool b => [leaf (.bool b)]
  | .num n => [leaf (.num n)]
  | .str s => [leaf (.str s)]

/-- The items after the first, each on a line of its own. -/
def prettyItems (depth : Nat) : List Json → List String
  | [] => []
  | j :: js => "," :: newLine depth :: prettyParts depth j ++ prettyItems depth js

/-- The fields after the first, each on a line of its own. -/
def prettyFields (depth : Nat) : List (String × Json) → List String
  | [] => []
  | (name, j) :: fields =>
    "," :: newLine depth :: escape name :: ": " :: prettyParts depth j
      ++ prettyFields depth fields

end

/-- The value over several lines. -/
def pretty (j : Json) : String :=
  String.join (prettyParts 0 j)

end FeatureAtlas.Json
