import FeatureAtlas.Source
import Mathlib.Data.List.Forall2
import Mathlib.Order.Bounds.Defs

/-!
# Comments above a line

The comments of a keyword are read upwards from its line, up to the first line that holds neither
tags nor a comment. `Source.IsBlockAbove` says where such a block begins, without any reading. Going
down the text line by line, a block either takes in the next line or starts anew below it, and
`Source.commentsAbove` follows it. As a block does not reach over a keyword, no comment belongs to
two of them.
-/

namespace FeatureAtlas

namespace Source

/-- A line that belongs to what is below it: there are tags on it, or a comment. -/
def IsAttached (s : Source) (number : Nat) : Prop :=
  ∃ line, s.line? number = some line ∧ (startsWithTag line = true ∨ isCommentLine line = true)

/-- The block above the line with the given number begins at the line `first`, the least from which
on all lines are attached. If that is the line itself, the block is empty. -/
def IsBlockAbove (s : Source) (number first : Nat) : Prop :=
  IsLeast {k | ∀ i, k ≤ i → i < number → s.IsAttached i} first

/-- The line with the given number is a comment and has this text between its blanks. -/
def IsCommentAt (s : Source) (number : Nat) (comment : String) : Prop :=
  ∃ line, s.line? number = some line ∧ isCommentLine line = true ∧
    comment = String.ofList (Text.trimChars line)

/-- The numbers of the comments from the line `first` on, up to the line in front of `number`. -/
def commentNumbers (s : Source) (first number : Nat) : List Nat :=
  (List.range' first (number - first)).filter fun i => (s.line? i).any isCommentLine

variable {s : Source} {number first : Nat}

/-! ## Blocks -/

theorem not_isAttached_zero : ¬s.IsAttached 0 := by
  rintro ⟨line, hline, -⟩
  cases hline

theorem isAttached_iff {line : List Char} (hline : s.line? number = some line) :
    s.IsAttached number ↔ (startsWithTag line || isCommentLine line) = true := by
  rw [Bool.or_eq_true]
  constructor
  · rintro ⟨line', hline', hattached⟩
    rw [hline, Option.some.injEq] at hline'
    rwa [hline']
  · exact fun hattached => ⟨line, hline, hattached⟩

theorem IsBlockAbove.le (h : s.IsBlockAbove number first) : first ≤ number := by
  apply h.2
  intro i hle hlt
  omega

/-- An attached line joins the block above it. -/
theorem IsBlockAbove.succ (h : s.IsBlockAbove number first) (hattached : s.IsAttached number) :
    s.IsBlockAbove (number + 1) first := by
  constructor
  · intro i hle hlt
    by_cases hlast : i = number
    · exact hlast ▸ hattached
    · exact h.1 i hle (by omega)
  · intro k hk
    apply h.2
    intro i hle hlt
    exact hk i hle (by omega)

/-- Below any other line a block starts anew. -/
theorem isBlockAbove_succ_of_not_isAttached (h : ¬s.IsAttached number) :
    s.IsBlockAbove (number + 1) (number + 1) := by
  constructor
  · intro i hle hlt
    omega
  · intro k hk
    by_contra hlt
    exact h (hk number (by omega) (by omega))

/-- A block does not reach over a line that is not attached. -/
theorem IsBlockAbove.lt_of_not_isAttached {upper lower : Nat} (h : s.IsBlockAbove lower first)
    (hupper : ¬s.IsAttached upper) (hlt : upper < lower) : upper < first := by
  by_contra hle
  exact hupper (h.1 upper (by omega) hlt)

/-! ## Numbers of comments -/

theorem mem_commentNumbers {i : Nat} :
    i ∈ s.commentNumbers first number ↔
      (first ≤ i ∧ i < number) ∧ (s.line? i).any isCommentLine = true := by
  rw [commentNumbers, List.mem_filter, List.mem_range'_1]
  refine and_congr_left fun _ => ?_
  omega

@[simp] theorem commentNumbers_self (s : Source) (number : Nat) :
    s.commentNumbers number number = [] := by
  simp [commentNumbers]

theorem commentNumbers_succ (h : first ≤ number) {line : List Char}
    (hline : s.line? number = some line) :
    s.commentNumbers first (number + 1) =
      s.commentNumbers first number ++ if isCommentLine line then [number] else [] := by
  have hlength : number + 1 - first = (number - first) + 1 := by omega
  have hlast : first + (number - first) = number := by omega
  rw [commentNumbers, hlength, List.range'_1_concat, List.filter_append, hlast, commentNumbers]
  simp [List.filter_cons, hline]

/-! ## Reading upwards -/

@[simp] theorem commentsAbove_one (s : Source) : s.commentsAbove 1 = [] := by
  simp [commentsAbove]

theorem commentsAbove_of_lt (h : s.lines.length < number) : s.commentsAbove (number + 1) = [] :=
  if_pos h

/-- One line further down the comments go on if the line is attached, and start anew otherwise. -/
theorem commentsAbove_succ {line : List Char} (hline : s.line? (number + 1) = some line) :
    s.commentsAbove (number + 2) =
      if startsWithTag line || isCommentLine line then
        s.commentsAbove (number + 1) ++
          if isCommentLine line then [String.ofList (Text.trimChars line)] else []
      else [] := by
  have hget : s.lines[number]? = some line := by simpa [line?] using hline
  obtain ⟨hlt, -⟩ := List.getElem?_eq_some_iff.1 hget
  have htake : s.lines.take (number + 1) = s.lines.take number ++ [line] := by
    rw [List.take_add_one, hget, Option.toList_some]
  have habove : ¬s.lines.length < number := by omega
  have hbelow : ¬s.lines.length < number + 1 := by omega
  simp only [commentsAbove, Nat.add_sub_cancel, Nat.reduceSubDiff, if_neg habove, if_neg hbelow,
    htake, List.reverse_append, List.reverse_singleton, List.singleton_append, List.takeWhile_cons]
  by_cases hattached : (startsWithTag line || isCommentLine line) = true
  · rw [if_pos hattached, if_pos hattached, List.reverse_cons, List.filter_append, List.map_append]
    by_cases hcomment : isCommentLine line = true <;> simp [hcomment]
  · simp [hattached]

/-- Every line down to the one below the last has a block above it, and its comments are those of
the block. -/
theorem exists_isBlockAbove (h : number ≤ s.lines.length) :
    ∃ first, s.IsBlockAbove (number + 1) first ∧
      List.Forall₂ s.IsCommentAt (s.commentNumbers first (number + 1))
        (s.commentsAbove (number + 1)) := by
  induction number with
  | zero =>
    refine ⟨1, isBlockAbove_succ_of_not_isAttached not_isAttached_zero, ?_⟩
    rw [commentNumbers_self, commentsAbove_one]
    exact .nil
  | succ number ih =>
    obtain ⟨first, hblock, hcomments⟩ := ih (by omega)
    have hget : s.lines[number]? = some s.lines[number] := List.getElem?_eq_getElem (by omega)
    have hline : s.line? (number + 1) = some s.lines[number] := by simp [line?, hget]
    rw [commentsAbove_succ hline]
    by_cases hattached : s.IsAttached (number + 1)
    · refine ⟨first, hblock.succ hattached, ?_⟩
      rw [if_pos ((isAttached_iff hline).1 hattached), commentNumbers_succ hblock.le hline]
      refine List.rel_append hcomments ?_
      split
      · next hcomment => exact .cons ⟨_, hline, hcomment, rfl⟩ .nil
      · exact .nil
    · refine ⟨_, isBlockAbove_succ_of_not_isAttached hattached, ?_⟩
      rw [if_neg (mt (isAttached_iff hline).2 hattached), commentNumbers_self]
      exact .nil

/-- The comments above a line are those of the block above it, in the order of the text. The block
above a line that lies below a keyword lies below this keyword too, so the two have no comment in
common. -/
theorem commentsAbove_exact (s : Source) :
    (∀ number, 1 ≤ number → number ≤ s.lines.length + 1 →
      ∃ first, s.IsBlockAbove number first ∧
        List.Forall₂ s.IsCommentAt (s.commentNumbers first number) (s.commentsAbove number)) ∧
    ∀ upper lower line first first', s.line? upper = some line → upper < lower →
      (Text.trimChars line).head? ≠ some '#' → (Text.trimChars line).head? ≠ some '@' →
      s.IsBlockAbove upper first → s.IsBlockAbove lower first' →
      (s.commentNumbers first upper).Disjoint (s.commentNumbers first' lower) ∧
        ∀ i ∈ s.commentNumbers first' lower, upper < i := by
  constructor
  · intro number hpos hle
    obtain ⟨above, rfl⟩ : ∃ above, number = above + 1 := ⟨number - 1, by omega⟩
    exact exists_isBlockAbove (by omega)
  · intro upper lower line first first' hline hlt hcomment htag _ hlower
    have hkeyword : ¬s.IsAttached upper := by
      rw [isAttached_iff hline]
      simp [startsWithTag, isCommentLine, markerChar, hcomment, htag]
    have hfirst : upper < first' := hlower.lt_of_not_isAttached hkeyword hlt
    constructor
    · intro i hi hi'
      have habove := (mem_commentNumbers.1 hi).1
      have hbelow := (mem_commentNumbers.1 hi').1
      omega
    · intro i hi
      have hbelow := (mem_commentNumbers.1 hi).1
      omega

/-- A document with a language header, comments with a tag line between them, and two keywords. -/
def picnic : Source :=
  ofChars ("# language: en\n# a\r\n@slow\n\t# b \nFeature: Picnic\n\n" ++
    "# c\n@wip\nScenario: Rain\n").toList

/-- The header ends the first block, and the empty line the second. -/
theorem commentsAbove_picnic :
    picnic.commentsAbove 5 = ["# a", "# b"] ∧ picnic.commentsAbove 9 = ["# c"] ∧
      ∃ first first', picnic.IsBlockAbove 5 first ∧ picnic.IsBlockAbove 9 first' ∧
        List.Forall₂ picnic.IsCommentAt (picnic.commentNumbers first 5) (picnic.commentsAbove 5) ∧
        (picnic.commentNumbers first 5).Disjoint (picnic.commentNumbers first' 9) ∧
        ∀ i ∈ picnic.commentNumbers first' 9, 5 < i := by
  obtain ⟨hexact, hapart⟩ := commentsAbove_exact picnic
  obtain ⟨first, hfirst, hcomments⟩ := hexact 5 (by decide) (by decide)
  obtain ⟨first', hfirst', -⟩ := hexact 9 (by decide) (by decide)
  have hline : picnic.line? 5 = some "Feature: Picnic".toList := by decide
  refine ⟨by decide, by decide, first, first', hfirst, hfirst', hcomments, ?_⟩
  exact hapart 5 9 _ first first' hline (by decide) (by decide) (by decide) hfirst hfirst'

end Source

end FeatureAtlas
