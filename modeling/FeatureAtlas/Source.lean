import FeatureAtlas.Document
import FeatureAtlas.Tag
import FeatureAtlas.Text.Blank

/-!
# The text of a document

A parse tree of a document lacks its comments and has one byte offset for a whole table. A `Source`
finds both in the text: the comments above a line, and the lines on which a table's rows stand.
Columns are counted in bytes.
-/

namespace FeatureAtlas

/-- A line without the carriage return at its end. -/
def dropCarriageReturn (line : List Char) : List Char :=
  if line.getLast? = some '\r' then line.dropLast else line

/-- The lines of a text. A line ends at a line feed, with or without a carriage return in front of
it; what follows the last line feed is a line if it is not empty. -/
def textLines (text : List Char) : List (List Char) :=
  let pieces := text.splitOn '\n'
  pieces.dropLast.map dropCarriageReturn ++ (pieces.getLast?.filter (· ≠ [])).toList

/-- The first line feed ends the first line. -/
theorem textLines_append_cons {line : List Char} (h : '\n' ∉ line) (rest : List Char) :
    textLines (line ++ '\n' :: rest) = dropCarriageReturn line :: textLines rest := by
  have hpieces : rest.splitOn '\n' ≠ [] := List.splitOn_ne_nil _ _
  rw [textLines, List.splitOn_append_cons_self_of_not_mem h, textLines,
    List.dropLast_cons_of_ne_nil hpieces, List.getLast?_cons_of_ne_nil hpieces]
  rfl

/-- How many bytes the characters take in UTF-8. -/
def byteLength : List Char → Nat
  | [] => 0
  | c :: cs => c.utf8Size + byteLength cs

@[simp] theorem byteLength_append (cs ds : List Char) :
    byteLength (cs ++ ds) = byteLength cs + byteLength ds := by
  induction cs with
  | nil => simp [byteLength]
  | cons c cs ih =>
    rw [List.cons_append, byteLength, byteLength, ih]
    omega

/-- The characters in front of a byte offset, if it falls between two characters. -/
def charsBefore? : Nat → List Char → Option (List Char)
  | 0, _ => some []
  | _ + 1, [] => none
  | offset + 1, c :: cs =>
    if c.utf8Size ≤ offset + 1 then (charsBefore? (offset + 1 - c.utf8Size) cs).map (c :: ·)
    else none

/-- The offset at the end of a part in front falls between two characters. -/
theorem charsBefore?_byteLength (before rest : List Char) :
    charsBefore? (byteLength before) (before ++ rest) = some before := by
  induction before with
  | nil => simp [byteLength, charsBefore?]
  | cons c before ih =>
    have hpos : 0 < c.utf8Size := Char.utf8Size_pos c
    obtain ⟨offset, hoffset⟩ : ∃ offset, c.utf8Size + byteLength before = offset + 1 :=
      ⟨c.utf8Size + byteLength before - 1, by omega⟩
    have hrest : offset + 1 - c.utf8Size = byteLength before := by omega
    rw [List.cons_append, byteLength, hoffset, charsBefore?, if_pos (by omega), hrest, ih]
    rfl

/-- A text with its lines. -/
structure Source where
  text : List Char
  lines : List (List Char)
  lines_eq : lines = textLines text

namespace Source

/-- Cut a text into lines. -/
def ofChars (text : List Char) : Source := ⟨text, textLines text, rfl⟩

@[simp] theorem lines_ofChars (text : List Char) : (ofChars text).lines = textLines text := rfl

/-- A line by its number, counted from one. -/
def line? (s : Source) (number : Nat) : Option (List Char) :=
  if number = 0 then none else s.lines[number - 1]?

theorem line?_eq_none_iff {s : Source} {number : Nat} :
    s.line? number = none ↔ number = 0 ∨ s.lines.length < number := by
  unfold line?
  split
  · simp_all
  · next hne =>
    rw [List.getElem?_eq_none_iff]
    omega

/-- The position after the given characters. -/
def positionAfter (before : List Char) : Position :=
  ⟨before.count '\n' + 1, byteLength (before.reverse.takeWhile (· ≠ '\n')) + 1⟩

/-- The position of a byte offset. An offset that is not between two characters of the text counts
as its end. -/
def positionAt (s : Source) (offset : Nat) : Position :=
  positionAfter ((charsBefore? offset s.text).getD s.text)

theorem positionAt_byteLength {s : Source} {before rest : List Char} (h : s.text = before ++ rest) :
    s.positionAt (byteLength before) = positionAfter before := by
  rw [positionAt, h, charsBefore?_byteLength]
  rfl

/-! ## Tables -/

/-- Whether a line starts with a pipe, blanks aside. -/
def isPipeLine (line : List Char) : Bool :=
  (Text.trimChars line).head? = some '|'

/-- The column of the first pipe. -/
def pipeColumn (line : List Char) : Nat :=
  byteLength (line.takeWhile (· ≠ '|')) + 1

/-- The first pipe line from the one with the given number on. -/
def pipeLineFrom? (s : Source) (number : Nat) : Option Position :=
  if number = 0 then none
  else
    match (s.lines.drop (number - 1)).findIdx? isPipeLine with
    | some skipped =>
      some ⟨number + skipped, ((s.line? (number + skipped)).map pipeColumn).getD 1⟩
    | none => none

/-- Where a table starts whose text begins at or before its first row. -/
def firstRow (s : Source) (offset : Nat) : Position :=
  (s.pipeLineFrom? (s.positionAt offset).line).getD (s.positionAt offset)

/-- Where the row after one at the given position stands: on the next pipe line, or one line down
if there is none. -/
def nextRow (s : Source) (p : Position) : Position :=
  (s.pipeLineFrom? (p.line + 1)).getD ⟨p.line + 1, p.column⟩

/-- Rows on successive pipe lines, the first at the given position. -/
def placeRows (s : Source) (first : Position) : List (List String) → List Row
  | [] => []
  | cells :: rest => ⟨first, cells⟩ :: placeRows s (s.nextRow first) rest

/-! ## Comments -/

/-- Whether a line holds tags. -/
def startsWithTag (line : List Char) : Bool :=
  (Text.trimChars line).head? = some markerChar

/-- Whether a line says which language the document is in: `language:` behind a `#`. -/
def isLanguageLine (line : List Char) : Bool :=
  match Text.trimChars line with
  | '#' :: rest => "language:".toList.isPrefixOf (Text.dropBlanks rest)
  | _ => false

/-- Whether a line is a comment that belongs to what follows it. -/
def isCommentLine (line : List Char) : Bool :=
  (Text.trimChars line).head? = some '#' && !isLanguageLine line

/-- The comments directly above the line with the given number; lines with tags may stand between
and below them. There are none above a line that lies past the end of the text. -/
def commentsAbove (s : Source) (number : Nat) : List String :=
  if s.lines.length < number - 1 then []
  else
    let above := (s.lines.take (number - 1)).reverse
    let block := above.takeWhile fun line => startsWithTag line || isCommentLine line
    (block.reverse.filter isCommentLine).map fun line => String.ofList (Text.trimChars line)

end Source

end FeatureAtlas
