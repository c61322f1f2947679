/-!
# Blank characters and trimming

`isBlank` is Unicode's White_Space property, and `trim` removes blanks at both ends. The work is
done on lists of characters; the functions on strings wrap it.
-/

namespace FeatureAtlas.Text

/-- The characters with the property White_Space: the tab to the carriage return, the space, the
next line, and the blanks beyond Latin-1. The zero-width space and the byte order mark are not
among them. -/
def isBlank (c : Char) : Bool :=
  let n := c.toNat
  (9 ≤ n && n ≤ 13) || n == 0x20 || n == 0x85 || n == 0xA0 || n == 0x1680
    || (0x2000 ≤ n && n ≤ 0x200A) || n == 0x2028 || n == 0x2029 || n == 0x202F
    || n == 0x205F || n == 0x3000

/-- The characters from the first that is not blank. -/
def dropBlanks (cs : List Char) : List Char :=
  cs.dropWhile isBlank

/-- The characters up to the last that is not blank. -/
def dropBlanksEnd (cs : List Char) : List Char :=
  (dropBlanks cs.reverse).reverse

/-- The characters without the blanks at both ends. -/
def trimChars (cs : List Char) : List Char :=
  dropBlanksEnd (dropBlanks cs)

/-- The text without the blanks at both ends. -/
def trim (s : String) : String :=
  String.ofList (trimChars s.toList)

@[simp] theorem dropBlanks_nil : dropBlanks [] = [] := rfl

@[simp] theorem trimChars_nil : trimChars [] = [] := rfl

@[simp] theorem toList_trim (s : String) : (trim s).toList = trimChars s.toList := by
  simp [trim]

theorem dropBlanks_cons (c : Char) (cs : List Char) :
    dropBlanks (c :: cs) = if isBlank c then dropBlanks cs else c :: cs := by
  simp [dropBlanks, List.dropWhile_cons]

/-- Text that does not start with a blank is left as it is. -/
theorem dropBlanks_eq_self_iff {cs : List Char} :
    dropBlanks cs = cs ↔ ∀ c ∈ cs.head?, isBlank c = false := by
  cases cs with
  | nil => simp
  | cons c cs =>
    rw [dropBlanks_cons]
    by_cases h : isBlank c
    · simp only [h, if_true, List.head?_cons, Option.mem_some_iff, forall_eq', Bool.true_eq_false,
        iff_false]
      intro he
      have := congrArg List.length he
      have hle : (dropBlanks cs).length ≤ cs.length := (List.dropWhile_sublist _).length_le
      simp at this
      omega
    · simp [h]

/-- What is left after dropping blanks does not start with one. -/
theorem head?_dropBlanks (cs : List Char) : ∀ c ∈ (dropBlanks cs).head?, isBlank c = false := by
  induction cs with
  | nil => simp
  | cons c cs ih =>
    rw [dropBlanks_cons]
    by_cases h : isBlank c
    · simpa [h] using ih
    · simp [h]

@[simp] theorem dropBlanks_dropBlanks (cs : List Char) :
    dropBlanks (dropBlanks cs) = dropBlanks cs :=
  dropBlanks_eq_self_iff.2 (head?_dropBlanks cs)

@[simp] theorem dropBlanksEnd_dropBlanksEnd (cs : List Char) :
    dropBlanksEnd (dropBlanksEnd cs) = dropBlanksEnd cs := by
  simp [dropBlanksEnd]

/-- A first character that is not blank stays, whatever follows it. -/
theorem dropBlanksEnd_cons {c : Char} (h : isBlank c = false) (cs : List Char) :
    dropBlanksEnd (c :: cs) = c :: dropBlanksEnd cs := by
  simp only [dropBlanksEnd, dropBlanks, List.reverse_cons, List.dropWhile_append]
  split
  · next hblank =>
    rw [List.isEmpty_iff.1 hblank]
    simp [h]
  · simp

theorem dropBlanks_sublist (cs : List Char) : (dropBlanks cs).Sublist cs :=
  List.dropWhile_sublist _

theorem dropBlanksEnd_sublist (cs : List Char) : (dropBlanksEnd cs).Sublist cs := by
  have h := (dropBlanks_sublist cs.reverse).reverse
  rwa [List.reverse_reverse] at h

theorem trimChars_sublist (cs : List Char) : (trimChars cs).Sublist cs :=
  (dropBlanksEnd_sublist _).trans (dropBlanks_sublist cs)

/-- One more blank at the end is trimmed too. -/
theorem trimChars_append_singleton {c : Char} (h : isBlank c = true) (cs : List Char) :
    trimChars (cs ++ [c]) = trimChars cs := by
  have hstart : dropBlanks (cs ++ [c]) = dropBlanks cs ∨
      dropBlanks (cs ++ [c]) = dropBlanks cs ++ [c] := by
    simp only [dropBlanks, List.dropWhile_append]
    split
    · next hempty =>
      left
      simp [List.isEmpty_iff.1 hempty, h]
    · exact .inr rfl
  rcases hstart with hsame | hlonger
  · rw [trimChars, hsame, trimChars]
  · rw [trimChars, hlonger, trimChars, dropBlanksEnd, List.reverse_append, List.reverse_singleton,
      List.singleton_append, dropBlanks_cons, if_pos h, dropBlanksEnd]

end FeatureAtlas.Text
