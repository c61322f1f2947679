import FeatureAtlas.Proofs.TableRows
import Mathlib.Data.List.Induction
import Mathlib.Data.List.Infix

/-!
# Offsets and positions

The position of an offset is found by counting line feeds and looking back for the last one, while
a line is taken from the lines of the text, which drop carriage returns and an empty line at the
end. Both are followed along one decomposition: what is in front of an offset is a number of whole
lines and the part of one more that lies to the left. Main statement: `Source.positionAt_exact`.
-/

namespace FeatureAtlas

/-- Which of two positions comes first: by line, then by column. -/
def Position.Precedes (p q : Position) : Prop :=
  p.line < q.line ∨ p.line = q.line ∧ p.column < q.column

namespace Source

/-- Whole lines, each with the line feed that ends it. -/
def joinLines (pieces : List (List Char)) : List Char :=
  pieces.flatMap (· ++ ['\n'])

/-- The byte at which a line begins. -/
def lineStart (s : Source) (number : Nat) : Nat :=
  byteLength (joinLines ((s.text.splitOn '\n').take (number - 1)))

/-- What ends a line: a line feed, together with a carriage return in front of it, or the end of
the text if the line is not empty. -/
def IsEndOf (line ending below : List Char) : Prop :=
  ending = ['\r', '\n'] ∨ (ending = ['\n'] ∧ line.getLast? ≠ some '\r') ∨
    ending = [] ∧ below = [] ∧ line ≠ []

/-- A line where it stands in a text. -/
structure IsLineOf (text above line ending below : List Char) : Prop where
  text_eq : text = above ++ (line ++ ending) ++ below
  above : above = [] ∨ above.getLast? = some '\n'
  single : '\n' ∉ line
  ends : IsEndOf line ending below

/-- The position between `above ++ left` and `rest`, told by the lines of the text. -/
structure LiesAt (s : Source) (above left rest : List Char) (p : Position) : Prop where
  text_eq : s.text = above ++ left ++ rest
  pos : 0 < p.line
  le : p.line ≤ (s.text.splitOn '\n').length
  lineStart_eq : s.lineStart p.line = byteLength above
  left_notMem : '\n' ∉ left
  column_eq : p.column = byteLength left + 1
  /-- The line of that number is the one around the position. -/
  line_eq : ∀ line, s.line? p.line = some line →
    ∃ ending below, IsLineOf s.text above line ending below ∧ left <+: line ++ ending
  /-- There is none just at the end of a text with nothing in the last line. -/
  line_none : s.line? p.line = none ↔ left = [] ∧ rest = []

/-! ## Whole lines and the rest -/

@[simp] theorem joinLines_nil : joinLines [] = [] := rfl

@[simp] theorem joinLines_cons (piece : List Char) (pieces : List (List Char)) :
    joinLines (piece :: pieces) = piece ++ '\n' :: joinLines pieces := by
  simp [joinLines]

theorem joinLines_concat (pieces : List (List Char)) (piece : List Char) :
    joinLines (pieces ++ [piece]) = joinLines pieces ++ piece ++ ['\n'] := by
  simp [joinLines]

/-- Any characters are whole lines and a part of one more. -/
theorem exists_joinLines (cs : List Char) :
    ∃ pieces left, cs = joinLines pieces ++ left ∧ (∀ piece ∈ pieces, '\n' ∉ piece) ∧
      '\n' ∉ left := by
  induction cs using List.reverseRecOn with
  | nil => exact ⟨[], [], rfl, by simp, by simp⟩
  | append_singleton cs c ih =>
    obtain ⟨pieces, left, rfl, hpieces, hleft⟩ := ih
    by_cases hc : c = '\n'
    · subst hc
      refine ⟨pieces ++ [left], [], by simp [joinLines_concat], ?_, by simp⟩
      simpa [or_imp, forall_and] using ⟨hpieces, hleft⟩
    · exact ⟨pieces, left ++ [c], by simp, hpieces, by simpa [hleft] using Ne.symm hc⟩

section

variable {pieces : List (List Char)} {left : List Char}

theorem getLast?_joinLines (pieces : List (List Char)) :
    joinLines pieces = [] ∨ (joinLines pieces).getLast? = some '\n' := by
  rcases List.eq_nil_or_concat' pieces with rfl | ⟨pieces, piece, rfl⟩
  · exact .inl rfl
  · exact .inr (by simp [joinLines_concat])

theorem splitOn_of_notMem {cs : List Char} (h : '\n' ∉ cs) : cs.splitOn '\n' = [cs] := by
  rw [List.splitOn_eq_splitOnP, List.splitOnP_eq_singleton]
  intro c hc
  have hne : c ≠ '\n' := fun heq => h (heq ▸ hc)
  simpa using hne

theorem splitOn_joinLines (h : ∀ piece ∈ pieces, '\n' ∉ piece) (rest : List Char) :
    (joinLines pieces ++ rest).splitOn '\n' = pieces ++ rest.splitOn '\n' := by
  induction pieces with
  | nil => rfl
  | cons piece pieces ih =>
    obtain ⟨hpiece, hpieces⟩ := List.forall_mem_cons.1 h
    rw [joinLines_cons, List.append_assoc, List.cons_append,
      List.splitOn_append_cons_self_of_not_mem hpiece, ih hpieces, List.cons_append]

theorem textLines_joinLines (h : ∀ piece ∈ pieces, '\n' ∉ piece) (rest : List Char) :
    textLines (joinLines pieces ++ rest) = pieces.map dropCarriageReturn ++ textLines rest := by
  induction pieces with
  | nil => rfl
  | cons piece pieces ih =>
    obtain ⟨hpiece, hpieces⟩ := List.forall_mem_cons.1 h
    rw [joinLines_cons, List.append_assoc, List.cons_append, textLines_append_cons hpiece,
      ih hpieces, List.map_cons, List.cons_append]

theorem count_joinLines (h : ∀ piece ∈ pieces, '\n' ∉ piece) :
    (joinLines pieces).count '\n' = pieces.length := by
  induction pieces with
  | nil => rfl
  | cons piece pieces ih =>
    obtain ⟨hpiece, hpieces⟩ := List.forall_mem_cons.1 h
    rw [joinLines_cons, List.count_append, List.count_cons_self, ih hpieces,
      List.count_eq_zero_of_not_mem hpiece, List.length_cons, Nat.zero_add]

/-- Looking back from the end, one finds what lies to the left. -/
theorem takeWhile_reverse_joinLines (h : '\n' ∉ left) (pieces : List (List Char)) :
    (joinLines pieces ++ left).reverse.takeWhile (· ≠ '\n') = left.reverse := by
  have hleft : ∀ c ∈ left.reverse, decide (c ≠ '\n') = true := by
    intro c hc
    have hne : c ≠ '\n' := fun heq => h (heq ▸ List.mem_reverse.1 hc)
    simpa using hne
  rw [List.reverse_append, List.takeWhile_append_of_pos hleft]
  rcases List.eq_nil_or_concat' pieces with rfl | ⟨pieces, piece, rfl⟩
  · simp
  · simp [joinLines_concat]

@[simp] theorem byteLength_reverse (cs : List Char) : byteLength cs.reverse = byteLength cs := by
  induction cs with
  | nil => rfl
  | cons c cs ih =>
    rw [List.reverse_cons, byteLength_append, ih, byteLength, byteLength, byteLength]
    omega

theorem positionAfter_joinLines (h : ∀ piece ∈ pieces, '\n' ∉ piece) (hleft : '\n' ∉ left) :
    positionAfter (joinLines pieces ++ left) = ⟨pieces.length + 1, byteLength left + 1⟩ := by
  rw [positionAfter, takeWhile_reverse_joinLines hleft, byteLength_reverse, List.count_append,
    count_joinLines h, List.count_eq_zero_of_not_mem hleft, Nat.add_zero]

end

/-! ## The line around a position -/

theorem dropCarriageReturn_cases (piece : List Char) :
    piece = dropCarriageReturn piece ++ ['\r'] ∨
      piece = dropCarriageReturn piece ∧ piece.getLast? ≠ some '\r' := by
  unfold dropCarriageReturn
  split
  · next hlast =>
    left
    obtain ⟨init, rfl⟩ := List.getLast?_eq_some_iff.1 hlast
    rw [List.dropLast_concat]
  · next hlast => exact .inr ⟨rfl, hlast⟩

/-- A text without line feeds is one line. -/
theorem textLines_of_notMem {text : List Char} (h : '\n' ∉ text) (hne : text ≠ []) :
    textLines text = [text] := by
  rw [textLines, splitOn_of_notMem h]
  simp [hne]

/-- The first line of a text is what its first ending leaves of it. -/
theorem head?_textLines {text line : List Char} (h : (textLines text).head? = some line) :
    ∃ ending below, text = line ++ ending ++ below ∧ '\n' ∉ line ∧ IsEndOf line ending below := by
  by_cases hmem : '\n' ∈ text
  · obtain ⟨piece, below, rfl, hpiece⟩ := List.eq_append_cons_of_mem hmem
    rw [textLines_append_cons hpiece, List.head?_cons] at h
    cases h
    rcases dropCarriageReturn_cases piece with hcut | ⟨hcut, hlast⟩
    · refine ⟨['\r', '\n'], below, ?_, ?_, .inl rfl⟩
      · conv_lhs => rw [hcut]
        simp
      · rw [hcut] at hpiece
        exact fun hin => hpiece (List.mem_append_left _ hin)
    · rw [← hcut]
      exact ⟨['\n'], below, by simp, hpiece, .inr (.inl ⟨rfl, hlast⟩)⟩
  · have hne : text ≠ [] := by
      rintro rfl
      cases h
    rw [textLines_of_notMem hmem hne, List.head?_cons] at h
    cases h
    exact ⟨[], [], by simp, hmem, .inr (.inr ⟨rfl, rfl, hne⟩)⟩

theorem head?_textLines_eq_none_iff {text : List Char} :
    (textLines text).head? = none ↔ text = [] := by
  rw [List.head?_eq_none_iff]
  constructor
  · intro h
    by_contra hne
    by_cases hmem : '\n' ∈ text
    · obtain ⟨piece, below, rfl, hpiece⟩ := List.eq_append_cons_of_mem hmem
      rw [textLines_append_cons hpiece] at h
      cases h
    · rw [textLines_of_notMem hmem hne] at h
      cases h
  · rintro rfl
    rfl

/-- What lies to the left of a position on a line does not reach beyond the end of that line. -/
theorem prefix_of_isEndOf {left rest line ending below : List Char} (hleft : '\n' ∉ left)
    (h : left ++ rest = line ++ ending ++ below) (hend : IsEndOf line ending below) :
    left <+: line ++ ending := by
  have hprefix : left <+: line ++ ending ++ below := ⟨rest, h⟩
  rcases List.prefix_or_prefix_of_prefix hprefix (List.prefix_append _ _) with hin | hover
  · exact hin
  · -- Reaching as far as the line feed means that there is none.
    rcases hend with rfl | ⟨rfl, -⟩ | ⟨rfl, rfl, -⟩
    · exact absurd (hover.subset (by simp)) hleft
    · exact absurd (hover.subset (by simp)) hleft
    · rwa [List.append_nil] at hprefix

theorem liesAt_positionAt {s : Source} {before rest : List Char} (h : s.text = before ++ rest) :
    ∃ above left, before = above ++ left ∧
      s.LiesAt above left rest (s.positionAt (byteLength before)) := by
  obtain ⟨pieces, left, rfl, hpieces, hleft⟩ := exists_joinLines before
  refine ⟨joinLines pieces, left, rfl, ?_⟩
  rw [positionAt_byteLength h, positionAfter_joinLines hpieces hleft]
  have htext : s.text = joinLines pieces ++ (left ++ rest) := by rw [h, List.append_assoc]
  have hsplit : s.text.splitOn '\n' = pieces ++ (left ++ rest).splitOn '\n' := by
    rw [htext, splitOn_joinLines hpieces]
  have hline : s.line? (pieces.length + 1) = (textLines (left ++ rest)).head? := by
    rw [line?, if_neg (Nat.succ_ne_zero _), s.lines_eq, htext, textLines_joinLines hpieces,
      Nat.add_sub_cancel, List.getElem?_append_right (by simp), List.length_map, Nat.sub_self,
      List.head?_eq_getElem?]
  constructor
  case text_eq => exact h
  case pos => exact Nat.succ_pos _
  case le =>
    have hne := List.length_pos_of_ne_nil (List.splitOn_ne_nil '\n' (left ++ rest))
    rw [hsplit, List.length_append]
    dsimp only
    omega
  case lineStart_eq =>
    rw [lineStart, hsplit, Nat.add_sub_cancel, List.take_left]
  case left_notMem => exact hleft
  case column_eq => rfl
  case line_eq =>
    intro line hsome
    rw [hline] at hsome
    obtain ⟨ending, below, htail, hsingle, hend⟩ := head?_textLines hsome
    refine ⟨ending, below, ⟨?_, getLast?_joinLines pieces, hsingle, hend⟩, ?_⟩
    · rw [htext, htail, ← List.append_assoc]
    · exact prefix_of_isEndOf hleft htail hend
  case line_none => rw [hline, head?_textLines_eq_none_iff, List.append_eq_nil_iff]

/-! ## The order of positions -/

theorem byteLength_pos {cs : List Char} (h : cs ≠ []) : 0 < byteLength cs := by
  obtain ⟨c, cs, rfl⟩ := List.exists_cons_of_ne_nil h
  have hpos := Char.utf8Size_pos c
  rw [byteLength]
  omega

/-- Further characters move the position on. -/
theorem precedes_positionAfter_append {between : List Char} (h : between ≠ [])
    (before : List Char) :
    (positionAfter before).Precedes (positionAfter (before ++ between)) := by
  obtain ⟨pieces, left, rfl, hpieces, hleft⟩ := exists_joinLines before
  by_cases hmem : '\n' ∈ between
  · have hcount := List.count_pos_iff.2 hmem
    refine .inl ?_
    simp only [positionAfter, List.count_append]
    omega
  · have hlonger : '\n' ∉ left ++ between := by simp [hleft, hmem]
    have hpos := byteLength_pos h
    rw [List.append_assoc, positionAfter_joinLines hpieces hleft,
      positionAfter_joinLines hpieces hlonger, byteLength_append]
    refine .inr ⟨rfl, ?_⟩
    dsimp only
    omega

end Source

namespace Position

theorem Precedes.asymm {p q : Position} (h : p.Precedes q) : ¬q.Precedes p := by
  unfold Precedes at *
  omega

theorem Precedes.ne {p q : Position} (h : p.Precedes q) : p ≠ q := by
  rintro rfl
  exact h.asymm h

end Position

namespace Source

/-- Of two parts in front one is in front of the other. -/
theorem positionAfter_cases {before before' : List Char}
    (h : before <+: before' ∨ before' <+: before) :
    (byteLength before < byteLength before' ∧
        (positionAfter before).Precedes (positionAfter before')) ∨
      before = before' ∨
        (byteLength before' < byteLength before ∧
          (positionAfter before').Precedes (positionAfter before)) := by
  have hextend {start longer : List Char} (hstart : start <+: longer) :
      start = longer ∨ (byteLength start < byteLength longer ∧
        (positionAfter start).Precedes (positionAfter longer)) := by
    obtain ⟨between, rfl⟩ := hstart
    by_cases hne : between = []
    · exact .inl (by simp [hne])
    · have hpos := byteLength_pos hne
      exact .inr ⟨by simpa using hpos, precedes_positionAfter_append hne start⟩
  rcases h with h | h
  · rcases hextend h with heq | hlt
    · exact .inr (.inl heq)
    · exact .inl hlt
  · rcases hextend h with heq | hlt
    · exact .inr (.inl heq.symm)
    · exact .inr (.inr hlt)

/-- Positions are ordered as offsets are, and tell them apart. -/
theorem positionAfter_lt_iff {before before' : List Char}
    (h : before <+: before' ∨ before' <+: before) :
    (byteLength before < byteLength before' ↔
        (positionAfter before).Precedes (positionAfter before')) ∧
      (positionAfter before = positionAfter before' → byteLength before = byteLength before') := by
  rcases positionAfter_cases h with ⟨hlt, hprecedes⟩ | rfl | ⟨hlt, hprecedes⟩
  · exact ⟨⟨fun _ => hprecedes, fun _ => hlt⟩, fun heq => absurd heq hprecedes.ne⟩
  · refine ⟨⟨fun hlt => ?_, fun hself => absurd rfl hself.ne⟩, fun _ => rfl⟩
    exact absurd hlt (Nat.lt_irrefl _)
  · refine ⟨⟨fun hless => ?_, fun hother => absurd hprecedes hother.asymm⟩, fun heq => ?_⟩
    · exact absurd hless (Nat.lt_asymm hlt)
    · exact absurd heq.symm hprecedes.ne

/-- The position of an offset between two characters of a text is the line on which it lies and its
distance from the beginning of that line. Positions are in the order of offsets, and no two offsets
share one; the line of that number is the line around the offset, without what ends it, so the first
row of a table is not looked for above it. -/
theorem positionAt_exact (s : Source) {before rest : List Char} (h : s.text = before ++ rest) :
    let p := s.positionAt (byteLength before)
    (∃ above left, before = above ++ left ∧ s.LiesAt above left rest p) ∧
      byteLength before = s.lineStart p.line + (p.column - 1) ∧
      (∀ before' rest', s.text = before' ++ rest' →
        let p' := s.positionAt (byteLength before')
        (byteLength before < byteLength before' ↔ p.Precedes p') ∧
          (p = p' → byteLength before = byteLength before')) ∧
      p.line ≤ (s.firstRow (byteLength before)).line := by
  intro p
  obtain ⟨above, left, hbefore, hlies⟩ := liesAt_positionAt h
  refine ⟨⟨above, left, hbefore, hlies⟩, ?_, ?_, (isFoundFrom_firstRow s _).le⟩
  · rw [hlies.lineStart_eq, hlies.column_eq, hbefore, byteLength_append, Nat.add_sub_cancel]
  · intro before' rest' h' p'
    have hp : p = positionAfter before := positionAt_byteLength h
    have hp' : p' = positionAfter before' := positionAt_byteLength h'
    have hprefix : before <+: before' ∨ before' <+: before :=
      List.prefix_or_prefix_of_prefix ⟨rest, h.symm⟩ ⟨rest', h'.symm⟩
    rw [hp, hp']
    exact positionAfter_lt_iff hprefix

/-- A line with both characters at its end, an empty line and a table. -/
def recipe : Source := ofChars "Salt: é\r\n\n| egg |\n".toList

/-- Byte 9 is between the carriage return and the line feed, and still on the first line. -/
theorem positionAt_exact_recipe :
    (∃ above left, "Salt: é\r".toList = above ++ left ∧
      recipe.LiesAt above left "\n\n| egg |\n".toList ⟨1, 10⟩) ∧
      recipe.lineStart 1 + (10 - 1) = 9 ∧
      (⟨1, 10⟩ : Position).Precedes (recipe.positionAt 10) ∧ 1 ≤ (recipe.firstRow 9).line := by
  have hposition : recipe.positionAt (byteLength "Salt: é\r".toList) = ⟨1, 10⟩ := by decide
  have hlength : byteLength "Salt: é\r".toList = 9 := by decide
  have hnext : byteLength "Salt: é\r\n".toList = 10 := by decide
  have htext : recipe.text = "Salt: é\r".toList ++ "\n\n| egg |\n".toList := by decide
  obtain ⟨hlies, hoffset, horder, hrow⟩ := positionAt_exact recipe htext
  obtain ⟨hiff, -⟩ := horder "Salt: é\r\n".toList "\n| egg |\n".toList (by decide)
  rw [hposition] at hlies hoffset hiff hrow
  rw [hlength, hnext] at hiff
  rw [hlength] at hoffset hrow
  exact ⟨hlies, hoffset.symm, hiff.1 (by omega), hrow⟩

end Source

end FeatureAtlas
