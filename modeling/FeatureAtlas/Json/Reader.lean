import FeatureAtlas.Json.Basic

/-!
# Reading JSON

A text is first cut into tokens, and the tokens are then read from left to right with the open
arrays and objects kept on a stack. `ofText` is `none` for a text that is not one JSON value with
natural numbers.
-/

namespace FeatureAtlas.Json

/-- The smallest parts of a JSON text. -/
inductive Token where
  | openArray
  | closeArray
  | openObject
  | closeObject
  | comma
  | colon
  | value (leaf : Json)

/-- The number that four hexadecimal digits stand for. -/
def hex4? (digits : List Char) : Option Nat :=
  digits.foldlM (fun n c =>
    if '0' ≤ c ∧ c ≤ '9' then some (16 * n + (c.toNat - '0'.toNat))
    else if 'a' ≤ c ∧ c ≤ 'f' then some (16 * n + (c.toNat - 'a'.toNat + 10))
    else if 'A' ≤ c ∧ c ≤ 'F' then some (16 * n + (c.toNat - 'A'.toNat + 10))
    else none) 0

/-- The character that a letter after a backslash stands for. -/
def unescape? : Char → Option Char
  | '"' => some '"'
  | '\\' => some '\\'
  | '/' => some '/'
  | 'n' => some '\n'
  | 'r' => some '\r'
  | 't' => some '\t'
  | 'b' => some '\x08'
  | 'f' => some '\x0c'
  | _ => none

/-- The character of two halves, the first from D800 to DBFF and the second from DC00 to DFFF. -/
def joinHalves (high low : Nat) : Char :=
  Char.ofNat (0x10000 + 0x400 * (high - 0xD800) + (low - 0xDC00))

/-- Read a text up to its closing quote: the characters read so far are given in reverse, the
answer is the text and what follows it. -/
def scanText (read : List Char) : List Char → Option (String × List Char)
  | '"' :: rest => some (String.ofList read.reverse, rest)
  | '\\' :: 'u' :: a :: b :: c :: d :: rest =>
    match hex4? [a, b, c, d] with
    | none => none
    | some n =>
      if 0xD800 ≤ n ∧ n < 0xDC00 then
        match rest with
        | '\\' :: 'u' :: e :: f :: g :: h :: rest =>
          match hex4? [e, f, g, h] with
          | some m =>
            if 0xDC00 ≤ m ∧ m < 0xE000 then scanText (joinHalves n m :: read) rest else none
          | none => none
        | _ => none
      else if 0xDC00 ≤ n ∧ n < 0xE000 then none
      else scanText (Char.ofNat n :: read) rest
  | '\\' :: c :: rest =>
    match unescape? c with
    | some c => scanText (c :: read) rest
    | none => none
  | c :: rest => if c.toNat < 0x20 then none else scanText (c :: read) rest
  | [] => none

theorem length_of_scanText {read cs rest : List Char} {s : String}
    (h : scanText read cs = some (s, rest)) : rest.length < cs.length := by
  fun_induction scanText read cs <;> simp_all only [List.length_cons, reduceCtorEq, forall_const,
    Option.some.injEq, Prod.mk.injEq] <;> omega

/-- The value of a decimal digit. -/
def digitValue (c : Char) : Nat :=
  c.toNat - '0'.toNat

/-- The digits at the start, as a number, and what follows them. -/
def scanNumber (n : Nat) : List Char → Nat × List Char
  | c :: rest =>
    if c.isDigit then scanNumber (10 * n + digitValue c) rest else (n, c :: rest)
  | [] => (n, [])

theorem length_scanNumber (n : Nat) (cs : List Char) : (scanNumber n cs).2.length ≤ cs.length := by
  fun_induction scanNumber n cs <;> grind

/-- The tokens of a text. -/
def tokens? (cs : List Char) : Option (List Token) :=
  match cs with
  | [] => some []
  | '[' :: rest => (tokens? rest).map (.openArray :: ·)
  | ']' :: rest => (tokens? rest).map (.closeArray :: ·)
  | '\x7b' :: rest => (tokens? rest).map (.openObject :: ·)
  | '\x7d' :: rest => (tokens? rest).map (.closeObject :: ·)
  | ',' :: rest => (tokens? rest).map (.comma :: ·)
  | ':' :: rest => (tokens? rest).map (.colon :: ·)
  | 't' :: 'r' :: 'u' :: 'e' :: rest => (tokens? rest).map (.value (.bool true) :: ·)
  | 'f' :: 'a' :: 'l' :: 's' :: 'e' :: rest => (tokens? rest).map (.value (.bool false) :: ·)
  | 'n' :: 'u' :: 'l' :: 'l' :: rest => (tokens? rest).map (.value .null :: ·)
  | '"' :: rest =>
    match h : scanText [] rest with
    | some (s, rest') =>
      have := length_of_scanText h
      (tokens? rest').map (.value (.str s) :: ·)
    | none => none
  | c :: rest =>
    if c.isDigit then
      have := length_scanNumber (digitValue c) rest
      let number := scanNumber (digitValue c) rest
      (tokens? number.2).map (.value (.num number.1) :: ·)
    else if c == ' ' || c == '\t' || c == '\n' || c == '\r' then tokens? rest
    else none
termination_by cs.length

/-- An array or object whose end is still to come, with the parts read so far in reverse. -/
inductive Frame where
  | array (items : List Json)
  | object (fields : List (String × Json))
  | field (fields : List (String × Json)) (name : String)

/-- What may come next. -/
inductive Expected where
  | value
  | valueOrClose
  | next
  | name
  | nameOrClose
  | colon
  | nothing
deriving DecidableEq

/-- The state between two tokens. -/
structure Reading where
  frames : List Frame
  expected : Expected
  result : Json

/-- Add a finished value to the innermost open part. -/
def Reading.finish (frames : List Frame) (j : Json) : Option Reading :=
  match frames with
  | [] => some ⟨[], .nothing, j⟩
  | .array items :: frames => some ⟨.array (j :: items) :: frames, .next, .null⟩
  | .field fields name :: frames => some ⟨.object ((name, j) :: fields) :: frames, .next, .null⟩
  | .object _ :: _ => none

/-- Whether a value may come next. -/
def Reading.awaitsValue (r : Reading) : Prop :=
  r.expected = .value ∨ r.expected = .valueOrClose

instance (r : Reading) : Decidable r.awaitsValue :=
  inferInstanceAs (Decidable (_ ∨ _))

/-- Read one token. -/
def Reading.step (r : Reading) (t : Token) : Option Reading :=
  match t, r.frames with
  | .openArray, frames =>
    if r.awaitsValue then some ⟨.array [] :: frames, .valueOrClose, .null⟩ else none
  | .openObject, frames =>
    if r.awaitsValue then some ⟨.object [] :: frames, .nameOrClose, .null⟩ else none
  | .closeArray, .array items :: frames =>
    if r.expected = .next ∨ r.expected = .valueOrClose then finish frames (.arr items.reverse)
    else none
  | .closeObject, .object fields :: frames =>
    if r.expected = .next ∨ r.expected = .nameOrClose then finish frames (.obj fields.reverse)
    else none
  | .comma, .array items :: frames =>
    if r.expected = .next then some ⟨.array items :: frames, .value, .null⟩ else none
  | .comma, .object fields :: frames =>
    if r.expected = .next then some ⟨.object fields :: frames, .name, .null⟩ else none
  | .colon, frames => if r.expected = .colon then some ⟨frames, .value, .null⟩ else none
  | .value (.str name), .object fields :: frames =>
    if r.expected = .name ∨ r.expected = .nameOrClose then
      some ⟨.field fields name :: frames, .colon, .null⟩
    else none
  | .value j, frames => if r.awaitsValue then finish frames j else none
  | _, _ => none

/-- The value that a text holds. -/
def read? (s : String) : Option Json := do
  let ts ← tokens? s.toList
  let r ← ts.foldlM Reading.step ⟨[], .value, .null⟩
  if r.expected = .nothing then some r.result else none

end FeatureAtlas.Json
