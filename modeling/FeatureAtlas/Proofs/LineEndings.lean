import FeatureAtlas.Proofs.CommentBlocks
import FeatureAtlas.Proofs.TableRows
import Mathlib.Data.List.Induction

/-!
# Line endings

Some editors put a carriage return in front of every line feed. A line that had one at its end
already then keeps it, as only one is dropped, so the lines of the two texts need not be equal:
`Source.IsAlike` allows for one carriage return more. Nothing that is read off a line depends on it.
Positions are lines and columns, and an offset moves by one byte for each line feed in front of it,
so `Source.withCarriageReturns_alike` finds the same comments, positions and rows in both texts.
-/

namespace FeatureAtlas

/-- The text with a carriage return put in front of every line feed. -/
def withCarriageReturns (text : List Char) : List Char :=
  text.flatMap fun c => if c = '\n' then ['\r', '\n'] else [c]

@[simp] theorem withCarriageReturns_nil : withCarriageReturns [] = [] := rfl

@[simp] theorem withCarriageReturns_append (cs ds : List Char) :
    withCarriageReturns (cs ++ ds) = withCarriageReturns cs ++ withCarriageReturns ds :=
  List.flatMap_append

@[simp] theorem withCarriageReturns_cons (c : Char) (cs : List Char) :
    withCarriageReturns (c :: cs) =
      (if c = '\n' then ['\r', '\n'] else [c]) ++ withCarriageReturns cs :=
  List.flatMap_cons

theorem withCarriageReturns_of_notMem {cs : List Char} (h : '\n' ∉ cs) :
    withCarriageReturns cs = cs := by
  induction cs with
  | nil => rfl
  | cons c cs ih =>
    obtain ⟨hc, hcs⟩ := not_or.1 (mt List.mem_cons.2 h)
    rw [withCarriageReturns_cons, if_neg (Ne.symm hc), ih hcs]
    rfl

/-- Each line feed takes one byte more. -/
theorem byteLength_withCarriageReturns (cs : List Char) :
    byteLength (withCarriageReturns cs) = byteLength cs + cs.count '\n' := by
  have hreturn : byteLength ['\r', '\n'] = byteLength ['\n'] + 1 := rfl
  induction cs with
  | nil => rfl
  | cons c cs ih =>
    rw [withCarriageReturns_cons, byteLength_append, ih, byteLength, List.count_cons]
    by_cases hc : c = '\n'
    · subst hc
      simp only [if_true, hreturn, byteLength, beq_self_eq_true]
      omega
    · simp [hc, byteLength]
      omega

namespace Source

/-! ## Lines -/

/-- The second line is the first one, or has one carriage return more at its end. -/
def IsAlike (line other : List Char) : Prop :=
  other = line ∨ other = line ++ ['\r']

namespace IsAlike

variable {line other : List Char}

theorem trimChars_eq (h : IsAlike line other) : Text.trimChars other = Text.trimChars line := by
  rcases h with rfl | rfl
  · rfl
  · exact Text.trimChars_append_singleton (by decide) line

theorem isPipeLine_eq (h : IsAlike line other) : isPipeLine other = isPipeLine line := by
  rw [isPipeLine, h.trimChars_eq, isPipeLine]

theorem startsWithTag_eq (h : IsAlike line other) : startsWithTag other = startsWithTag line := by
  rw [startsWithTag, h.trimChars_eq, startsWithTag]

theorem isCommentLine_eq (h : IsAlike line other) : isCommentLine other = isCommentLine line := by
  rw [isCommentLine, isLanguageLine, h.trimChars_eq, isCommentLine, isLanguageLine]

/-- What stands behind the first pipe does not move it. -/
theorem pipeColumn_eq (h : IsAlike line other) (hpipe : isPipeLine line = true) :
    pipeColumn other = pipeColumn line := by
  rcases h with rfl | rfl
  · rfl
  · obtain ⟨before, after, rfl, hbefore⟩ := exists_pipe_of_isPipeLine hpipe
    rw [List.append_assoc, List.cons_append, pipeColumn_append_cons hbefore,
      pipeColumn_append_cons hbefore]

end IsAlike

/-- A line that ends at a line feed is the piece in front of it, but for one carriage return. -/
theorem isAlike_dropCarriageReturn (piece : List Char) :
    IsAlike (dropCarriageReturn piece) piece := by
  unfold dropCarriageReturn
  split
  · next hlast =>
    right
    exact (List.dropLast_append_getLast? '\r' hlast).symm
  · exact .inl rfl

theorem dropCarriageReturn_append (piece : List Char) :
    dropCarriageReturn (piece ++ ['\r']) = piece := by
  simp [dropCarriageReturn]

/-- Both texts have the same number of lines, and these are alike. -/
theorem forall₂_textLines_withCarriageReturns (text : List Char) :
    List.Forall₂ IsAlike (textLines text) (textLines (withCarriageReturns text)) := by
  induction hlength : text.length using Nat.strongRecOn generalizing text with
  | ind length ih =>
    by_cases hfeed : '\n' ∈ text
    · obtain ⟨piece, rest, rfl, hpiece⟩ := List.eq_append_cons_of_mem hfeed
      have hreturn : '\n' ∉ piece ++ ['\r'] := by simp [hpiece]
      have htext : withCarriageReturns (piece ++ '\n' :: rest) =
          (piece ++ ['\r']) ++ '\n' :: withCarriageReturns rest := by
        simp [withCarriageReturns_of_notMem hpiece]
      rw [htext, textLines_append_cons hpiece, textLines_append_cons hreturn,
        dropCarriageReturn_append]
      refine .cons (isAlike_dropCarriageReturn piece) (ih _ ?_ rest rfl)
      simp only [List.length_append, List.length_cons] at hlength
      omega
    · rw [withCarriageReturns_of_notMem hfeed]
      exact List.forall₂_same.2 fun line _ => .inl rfl

/-! ## What is read off the lines -/

section

variable {s t : Source} (h : List.Forall₂ IsAlike s.lines t.lines)

include h

theorem line?_alike (number : Nat) :
    s.line? number = none ∧ t.line? number = none ∨
      ∃ line other, s.line? number = some line ∧ t.line? number = some other ∧
        IsAlike line other := by
  simp only [line?]
  by_cases hzero : number = 0
  · exact .inl ⟨if_pos hzero, if_pos hzero⟩
  · rw [if_neg hzero, if_neg hzero]
    by_cases hlt : number - 1 < s.lines.length
    · have hlt' : number - 1 < t.lines.length := h.length_eq ▸ hlt
      exact .inr ⟨_, _, List.getElem?_eq_getElem hlt, List.getElem?_eq_getElem hlt',
        h.get hlt hlt'⟩
    · have hlt' : ¬number - 1 < t.lines.length := h.length_eq ▸ hlt
      exact .inl ⟨List.getElem?_eq_none (by omega), List.getElem?_eq_none (by omega)⟩

theorem commentsAbove_eq_of_alike (number : Nat) :
    t.commentsAbove number = s.commentsAbove number := by
  cases number with
  | zero => simp [commentsAbove]
  | succ number =>
    induction number with
    | zero => rw [commentsAbove_one, commentsAbove_one]
    | succ number ih =>
      rcases line?_alike h (number + 1) with ⟨hs, ht⟩ | ⟨line, other, hs, ht, halike⟩
      · -- The line lies below the last one in both.
        have hlt : s.lines.length < number + 1 := by
          rcases line?_eq_none_iff.1 hs with hzero | hlt
          · cases hzero
          · exact hlt
        rw [commentsAbove_of_lt hlt, commentsAbove_of_lt (h.length_eq ▸ hlt)]
      · rw [commentsAbove_succ hs, commentsAbove_succ ht, ih, halike.startsWithTag_eq,
          halike.isCommentLine_eq, halike.trimChars_eq]

theorem pipeLineFrom?_eq_of_alike (number : Nat) :
    t.pipeLineFrom? number = s.pipeLineFrom? number := by
  by_cases hzero : number = 0
  · rw [pipeLineFrom?, if_pos hzero, pipeLineFrom?, if_pos hzero]
  have hpos : 0 < number := by omega
  clear hzero
  induction hleft : s.lines.length + 1 - number generalizing number with
  | zero =>
    have hs : s.line? number = none := line?_eq_none_iff.2 (.inr (by omega))
    have ht : t.line? number = none := line?_eq_none_iff.2 (.inr (by rw [← h.length_eq]; omega))
    rw [pipeLineFrom?_eq t hpos, ht, pipeLineFrom?_eq s hpos, hs]
    rfl
  | succ left ih =>
    rw [pipeLineFrom?_eq t hpos, pipeLineFrom?_eq s hpos, ih (number + 1) (by omega) (by omega)]
    rcases line?_alike h number with ⟨hs, ht⟩ | ⟨line, other, hs, ht, halike⟩
    · rw [hs, ht]
    · rw [hs, ht, Option.bind_some, Option.bind_some, halike.isPipeLine_eq]
      by_cases hpipe : isPipeLine line = true
      · rw [if_pos hpipe, if_pos hpipe, halike.pipeColumn_eq hpipe]
      · rw [if_neg hpipe, if_neg hpipe]

theorem nextRow_eq_of_alike (p : Position) : t.nextRow p = s.nextRow p := by
  rw [nextRow, pipeLineFrom?_eq_of_alike h, nextRow]

theorem placeRows_eq_of_alike (first : Position) (table : List (List String)) :
    t.placeRows first table = s.placeRows first table := by
  induction table generalizing first with
  | nil => rfl
  | cons cells table ih => rw [placeRows_cons, placeRows_cons, nextRow_eq_of_alike h, ih]

end

/-! ## Positions -/

theorem count_withCarriageReturns (cs : List Char) :
    (withCarriageReturns cs).count '\n' = cs.count '\n' := by
  induction cs with
  | nil => rfl
  | cons c cs ih => by_cases hc : c = '\n' <;> simp [hc, ih]

/-- A carriage return is on the line that it ends, so what is behind the last line feed stays. -/
theorem takeWhile_reverse_withCarriageReturns (cs : List Char) :
    (withCarriageReturns cs).reverse.takeWhile (· ≠ '\n') = cs.reverse.takeWhile (· ≠ '\n') := by
  induction cs using List.reverseRecOn with
  | nil => rfl
  | append_singleton cs c ih =>
    rw [withCarriageReturns_append, List.reverse_append, List.reverse_append]
    by_cases hc : c = '\n'
    · simp [hc]
    · simpa [hc] using ih

theorem positionAfter_withCarriageReturns (before : List Char) :
    positionAfter (withCarriageReturns before) = positionAfter before := by
  rw [positionAfter, count_withCarriageReturns, takeWhile_reverse_withCarriageReturns,
    positionAfter]

/-- With a carriage return in front of every line feed a text has the same comments above each line
and the same pipe lines. An offset between two characters moves by the line feeds in front of it,
and has the same position then, so a table has its rows where they were. -/
theorem withCarriageReturns_alike (text : List Char) :
    let s := ofChars text
    let t := ofChars (withCarriageReturns text)
    (∀ number, t.commentsAbove number = s.commentsAbove number) ∧
      (∀ number, t.pipeLineFrom? number = s.pipeLineFrom? number) ∧
      ∀ before rest, text = before ++ rest →
        let offset := byteLength before
        let moved := offset + before.count '\n'
        t.positionAt moved = s.positionAt offset ∧ t.firstRow moved = s.firstRow offset ∧
          ∀ table,
            t.placeRows (t.firstRow moved) table = s.placeRows (s.firstRow offset) table := by
  intro s t
  have halike : List.Forall₂ IsAlike s.lines t.lines := forall₂_textLines_withCarriageReturns text
  refine ⟨commentsAbove_eq_of_alike halike, pipeLineFrom?_eq_of_alike halike, ?_⟩
  rintro before rest rfl offset moved
  have hposition : t.positionAt moved = s.positionAt offset := by
    have hmoved : moved = byteLength (withCarriageReturns before) :=
      (byteLength_withCarriageReturns before).symm
    have htext : t.text = withCarriageReturns before ++ withCarriageReturns rest :=
      withCarriageReturns_append before rest
    have hs : s.positionAt offset = positionAfter before := positionAt_byteLength rfl
    rw [hmoved, positionAt_byteLength htext, positionAfter_withCarriageReturns, hs]
  have hfirst : t.firstRow moved = s.firstRow offset := by
    rw [firstRow, hposition, pipeLineFrom?_eq_of_alike halike, firstRow]
  refine ⟨hposition, hfirst, fun table => ?_⟩
  rw [hfirst, placeRows_eq_of_alike halike]

/-- A text with both endings of lines, with a comment, and with a table below its second step. -/
def brunchText : List Char :=
  "# new\r\n@late\nFeature: é\r\r\n  Given eggs\n  | n |\r\n# two\n\t| 2 |".toList

/-- The part of the text in front of the table. -/
def beforeBrunchTable : List Char := "# new\r\n@late\nFeature: é\r\r\n  Given eggs\n".toList

/-- The table begins at byte 40, and at byte 44 with the carriage returns. Its rows stay where they
are, though not all lines are equal. -/
theorem withCarriageReturns_alike_brunch :
    let t := ofChars (withCarriageReturns brunchText)
    byteLength beforeBrunchTable = 40 ∧ beforeBrunchTable.count '\n' = 4 ∧
      t.lines ≠ (ofChars brunchText).lines ∧ t.commentsAbove 3 = ["# new"] ∧
      t.pipeLineFrom? 6 = some ⟨7, 2⟩ ∧ t.positionAt 44 = ⟨5, 1⟩ ∧
      t.placeRows (t.firstRow 44) [["n"], ["2"]] = [⟨⟨5, 3⟩, ["n"]⟩, ⟨⟨7, 2⟩, ["2"]⟩] := by
  intro t
  have hlength : byteLength beforeBrunchTable = 40 := by decide
  have hcount : beforeBrunchTable.count '\n' = 4 := by decide
  have htext : brunchText = beforeBrunchTable ++ "  | n |\r\n# two\n\t| 2 |".toList := by decide
  obtain ⟨hcomments, hpipes, hmoved⟩ := withCarriageReturns_alike brunchText
  obtain ⟨hposition, -, hrows⟩ := hmoved _ _ htext
  rw [hlength, hcount] at hposition hrows
  refine ⟨hlength, hcount, by decide, ?_, ?_, ?_, ?_⟩
  · rw [hcomments]
    decide
  · rw [hpipes]
    decide
  · rw [hposition]
    decide
  · rw [hrows]
    decide

end Source

end FeatureAtlas
