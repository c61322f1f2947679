import FeatureAtlas.Text.Blank
import FeatureAtlas.Text.Extending
import FeatureAtlas.Text.Unassigned

/-!
# Characters that are not seen

Some characters leave no mark of their own on a line: controls, blanks other than the space,
formatting characters, fillers, those for private use, those that extend the character before them,
and code points that are not assigned at all. The tables follow Unicode 17; they hold ranges of
code points, in increasing order and with both ends included.
-/

namespace FeatureAtlas.Text

/-- The formatting characters (general category Cf). -/
def formatRanges : List (Nat × Nat) :=
  [(0xAD, 0xAD), (0x600, 0x605), (0x61C, 0x61C), (0x6DD, 0x6DD), (0x70F, 0x70F), (0x890, 0x891),
   (0x8E2, 0x8E2), (0x180E, 0x180E), (0x200B, 0x200F), (0x202A, 0x202E), (0x2060, 0x2064),
   (0x2066, 0x206F), (0xFEFF, 0xFEFF), (0xFFF9, 0xFFFB), (0x110BD, 0x110BD), (0x110CD, 0x110CD),
   (0x13430, 0x1343F), (0x1BCA0, 0x1BCA3), (0x1D173, 0x1D17A), (0xE0001, 0xE0001),
   (0xE0020, 0xE007F)]

/-- The fillers of Hangul: letters that take up a place and have no shape. -/
def fillerRanges : List (Nat × Nat) :=
  [(0x115F, 0x1160), (0x3164, 0x3164), (0xFFA0, 0xFFA0)]

/-- The characters for private use (general category Co). -/
def privateRanges : List (Nat × Nat) :=
  [(0xE000, 0xF8FF), (0xF0000, 0xFFFFD), (0x100000, 0x10FFFD)]

/-- Whether a code point is in one of the ranges. -/
def inRanges (n : Nat) (ranges : List (Nat × Nat)) : Bool :=
  ranges.any fun (first, last) => first ≤ n && n ≤ last

/-- Whether a character is a control. -/
def isControl (c : Char) : Bool :=
  c.toNat < 0x20 || (0x7F ≤ c.toNat && c.toNat < 0xA0)

/-- Whether a character is one of the two halfwidth sound marks of katakana. They extend the
character before them, and have a place and a shape of their own. -/
def isSoundMark (c : Char) : Bool :=
  c == '\uFF9E' || c == '\uFF9F'

/-- Whether a character merges with the one before it. -/
def isExtending (c : Char) : Bool :=
  inRanges c.toNat extendingRanges && !isSoundMark c

/-- Whether a character leaves no mark of its own. -/
def isUnseen (c : Char) : Bool :=
  isControl c || (isBlank c && c != ' ')
    || (0x80 ≤ c.toNat && (inRanges c.toNat formatRanges || inRanges c.toNat fillerRanges
      || inRanges c.toNat privateRanges || isExtending c || inRanges c.toNat unassignedRanges))

end FeatureAtlas.Text
