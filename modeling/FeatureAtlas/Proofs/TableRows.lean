import FeatureAtlas.Document.Reading
import Mathlib.Logic.Function.Iterate

/-!
# Where the rows of a table stand

A table has one offset for all its rows, and they are looked for in the text: each on the next pipe
line below the one before it. `Source.pipeLines` lists the pipe lines from a line on. One search
takes the first of them and leaves the others for the searches after it, so the rows stand on the
pipe lines one by one; when these are used up, each further row is put below the last. Main
statement: `Source.placeRows_exact`.
-/

namespace FeatureAtlas

namespace Source

/-- The numbers of the pipe lines from the line `first` on. -/
def pipeLines (s : Source) (first : Nat) : List Nat :=
  (List.range' first (s.lines.length + 1 - first)).filter fun i => (s.line? i).any isPipeLine

/-- The position is that of the first pipe on its line. -/
def IsFirstPipe (s : Source) (p : Position) : Prop :=
  ∃ before after, s.line? p.line = some (before ++ '|' :: after) ∧ '|' ∉ before ∧
    p.column = byteLength before + 1

/-- The rows of a table whose text begins at a byte offset, each where it belongs. -/
structure ArePlaced (s : Source) (offset : Nat) (table : List (List String)) (rows : List Row) :
    Prop where
  cells_eq : rows.map (·.cells) = table
  /-- The rows stand on the pipe lines, one by one. -/
  onPipe : ∀ (i : Nat) (row : Row) (number : Nat), rows[i]? = some row →
    (s.pipeLines (s.positionAt offset).line)[i]? = some number →
      row.position.line = number ∧ s.IsFirstPipe row.position
  /-- If there is no pipe line, the first row stands at the offset. -/
  atOffset : s.pipeLines (s.positionAt offset).line = [] →
    ∀ row ∈ rows.head?, row.position = s.positionAt offset
  /-- A row for which there is no pipe line stands one line below the row before it. -/
  below : ∀ (i : Nat) (row next : Row),
    (s.pipeLines (s.positionAt offset).line).length ≤ i + 1 → rows[i]? = some row →
      rows[i + 1]? = some next → next.position = ⟨row.position.line + 1, row.position.column⟩
  increasing : rows.Pairwise fun row later => row.position.line < later.position.line

variable {s : Source}

/-! ## Pipe lines -/

theorem mem_pipeLines {first number : Nat} :
    number ∈ s.pipeLines first ↔
      first ≤ number ∧ ∃ line, s.line? number = some line ∧ isPipeLine line = true := by
  rw [pipeLines, List.mem_filter, List.mem_range'_1, Option.any_eq_true]
  constructor
  · rintro ⟨⟨hle, -⟩, hline⟩
    exact ⟨hle, hline⟩
  · rintro ⟨hle, line, hline, hpipe⟩
    have hlength : number ≤ s.lines.length := by
      by_contra hlt
      rw [line?_eq_none_iff.2 (.inr (by omega))] at hline
      cases hline
    exact ⟨⟨hle, by omega⟩, line, hline, hpipe⟩

theorem pairwise_pipeLines (s : Source) (first : Nat) : (s.pipeLines first).Pairwise (· < ·) :=
  List.Pairwise.filter _ (List.pairwise_lt_range' 1)

theorem pipeLines_eq_nil_of_le {first later : Nat} (h : s.pipeLines first = [])
    (hle : first ≤ later) : s.pipeLines later = [] := by
  rw [List.eq_nil_iff_forall_not_mem] at h ⊢
  intro number hnumber
  obtain ⟨hlater, hline⟩ := mem_pipeLines.1 hnumber
  exact h number (mem_pipeLines.2 ⟨by omega, hline⟩)

/-- The pipe lines line by line. -/
theorem pipeLines_eq (s : Source) (first : Nat) :
    s.pipeLines first =
      (if (s.line? first).any isPipeLine then [first] else []) ++ s.pipeLines (first + 1) := by
  by_cases hle : first ≤ s.lines.length
  · have hlength : s.lines.length + 1 - first = s.lines.length + 1 - (first + 1) + 1 := by omega
    rw [pipeLines, hlength, List.range'_succ, List.filter_cons, pipeLines]
    split <;> rfl
  · have hline : s.line? first = none := line?_eq_none_iff.2 (.inr (by omega))
    have hnil : ∀ later, first ≤ later → s.pipeLines later = [] := by
      intro later hlater
      have hlength : s.lines.length + 1 - later = 0 := by omega
      simp [pipeLines, hlength]
    simp [hline, hnil first, hnil (first + 1)]

/-- The search for a pipe line, line by line. -/
theorem pipeLineFrom?_eq (s : Source) {number : Nat} (hpos : 0 < number) :
    s.pipeLineFrom? number = (s.line? number).bind fun line =>
      if isPipeLine line then some ⟨number, pipeColumn line⟩ else s.pipeLineFrom? (number + 1) := by
  have hne : number ≠ 0 := by omega
  by_cases hlt : number - 1 < s.lines.length
  · have hget : s.line? number = some s.lines[number - 1] := by simp [line?, hne, hlt]
    have hrest : number - 1 + 1 = number := by omega
    rw [pipeLineFrom?, if_neg hne, List.drop_eq_getElem_cons hlt, List.findIdx?_cons, hget, hrest]
    by_cases hpipe : isPipeLine s.lines[number - 1] = true
    · simp [hpipe, hget]
    · rw [if_neg hpipe, Option.bind_some, if_neg hpipe, pipeLineFrom?, if_neg (by omega),
        Nat.add_sub_cancel]
      cases (s.lines.drop number).findIdx? isPipeLine with
      | none => rfl
      | some skipped => simp [Nat.add_comm, Nat.add_left_comm]
  · have hline : s.line? number = none := line?_eq_none_iff.2 (.inr (by omega))
    have hdrop : s.lines.drop (number - 1) = [] := List.drop_eq_nil_of_le (by omega)
    rw [pipeLineFrom?, if_neg hne, hdrop, hline]
    rfl

/-- A pipe line can be cut at its first pipe. -/
theorem exists_pipe_of_isPipeLine {line : List Char} (h : isPipeLine line = true) :
    ∃ before after, line = before ++ '|' :: after ∧ '|' ∉ before := by
  have hhead : (Text.trimChars line).head? = some '|' := by simpa [isPipeLine] using h
  have hmem := (Text.trimChars_sublist line).subset (List.mem_of_head? hhead)
  exact List.eq_append_cons_of_mem hmem

theorem pipeColumn_append_cons {before : List Char} (h : '|' ∉ before) (after : List Char) :
    pipeColumn (before ++ '|' :: after) = byteLength before + 1 := by
  have htake : (before ++ '|' :: after).takeWhile (· ≠ '|') = before := by
    rw [List.takeWhile_append_of_pos]
    · simp
    · intro c hc
      have hne : c ≠ '|' := fun heq => h (heq ▸ hc)
      simpa using hne
  rw [pipeColumn, htake]

theorem isFirstPipe_of_isPipeLine {number : Nat} {line : List Char}
    (hline : s.line? number = some line) (hpipe : isPipeLine line = true) :
    s.IsFirstPipe ⟨number, pipeColumn line⟩ := by
  obtain ⟨before, after, rfl, hbefore⟩ := exists_pipe_of_isPipeLine hpipe
  exact ⟨before, after, hline, hbefore, pipeColumn_append_cons hbefore after⟩

/-- A search finds the first pipe line, and leaves those below it. -/
theorem pipeLineFrom?_cases (s : Source) {number : Nat} (hpos : 0 < number) :
    (s.pipeLineFrom? number = none ∧ s.pipeLines number = []) ∨
      ∃ p, s.pipeLineFrom? number = some p ∧ s.IsFirstPipe p ∧
        s.pipeLines number = p.line :: s.pipeLines (p.line + 1) := by
  induction hleft : s.lines.length + 1 - number generalizing number with
  | zero =>
    left
    have hline : s.line? number = none := line?_eq_none_iff.2 (.inr (by omega))
    constructor
    · rw [pipeLineFrom?_eq s hpos, hline]
      rfl
    · simp [pipeLines, hleft]
  | succ left ih =>
    have hget : s.line? number = some s.lines[number - 1] := by
      have hlt : number - 1 < s.lines.length := by omega
      simp [line?, hlt, Nat.ne_of_gt hpos]
    rw [pipeLineFrom?_eq s hpos, pipeLines_eq, hget, Option.bind_some, Option.any_some]
    by_cases hpipe : isPipeLine s.lines[number - 1] = true
    · right
      rw [if_pos hpipe, if_pos hpipe]
      exact ⟨_, rfl, isFirstPipe_of_isPipeLine hget hpipe, rfl⟩
    · rw [if_neg hpipe, if_neg hpipe, List.nil_append]
      exact ih (by omega) (by omega)

/-! ## One row -/

/-- Where a row stands that is looked for from the line `first` on: on the first pipe line from
there, or at another place if there is none. -/
structure IsFoundFrom (s : Source) (first : Nat) (other p : Position) : Prop where
  le : first ≤ p.line
  onPipe : ∀ number ∈ (s.pipeLines first).head?, p.line = number ∧ s.IsFirstPipe p
  eq_other : s.pipeLines first = [] → p = other
  /-- The next row has the pipe lines that are left. -/
  rest : s.pipeLines (p.line + 1) = (s.pipeLines first).tail

theorem isFoundFrom_getD {first : Nat} (hpos : 0 < first) {other : Position}
    (hle : first ≤ other.line) :
    s.IsFoundFrom first other ((s.pipeLineFrom? first).getD other) := by
  rcases s.pipeLineFrom?_cases hpos with ⟨hnone, hnil⟩ | ⟨p, hsome, hfirst, hcons⟩
  · rw [hnone, Option.getD_none]
    constructor
    case le => exact hle
    case onPipe => simp [hnil]
    case eq_other => exact fun _ => rfl
    case rest =>
      rw [hnil, List.tail_nil]
      exact pipeLines_eq_nil_of_le hnil (by omega)
  · rw [hsome, Option.getD_some]
    have hmem : p.line ∈ s.pipeLines first := by simp [hcons]
    constructor
    case le => exact (mem_pipeLines.1 hmem).1
    case onPipe =>
      intro number hnumber
      rw [hcons, List.head?_cons, Option.mem_some_iff] at hnumber
      exact ⟨hnumber, hfirst⟩
    case eq_other => simp [hcons]
    case rest => rw [hcons, List.tail_cons]

theorem isFoundFrom_firstRow (s : Source) (offset : Nat) :
    s.IsFoundFrom (s.positionAt offset).line (s.positionAt offset) (s.firstRow offset) :=
  isFoundFrom_getD (Nat.succ_pos _) (Nat.le_refl _)

theorem isFoundFrom_nextRow (s : Source) (p : Position) :
    s.IsFoundFrom (p.line + 1) ⟨p.line + 1, p.column⟩ (s.nextRow p) :=
  isFoundFrom_getD (Nat.succ_pos _) (Nat.le_refl _)

/-! ## All rows -/

@[simp] theorem placeRows_cons (s : Source) (first : Position) (cells : List String)
    (table : List (List String)) :
    s.placeRows first (cells :: table) = ⟨first, cells⟩ :: s.placeRows (s.nextRow first) table :=
  rfl

theorem map_cells_placeRows (s : Source) (first : Position) (table : List (List String)) :
    (s.placeRows first table).map (·.cells) = table := by
  induction table generalizing first with
  | nil => rfl
  | cons cells table ih => rw [placeRows_cons, List.map_cons, ih]

theorem position_of_mem_head?_placeRows {first : Position} {table : List (List String)} {row : Row}
    (h : row ∈ (s.placeRows first table).head?) : row.position = first := by
  cases table with
  | nil => cases h
  | cons cells table =>
    cases h
    rfl

/-- A row is reached from the first one by as many searches as there are rows above it. -/
theorem position_of_getElem?_placeRows {first : Position} {table : List (List String)} {i : Nat}
    {row : Row} (h : (s.placeRows first table)[i]? = some row) :
    row.position = s.nextRow^[i] first := by
  induction table generalizing first i with
  | nil => cases h
  | cons cells table ih =>
    cases i with
    | zero =>
      cases h
      rfl
    | succ i =>
      rw [placeRows_cons, List.getElem?_cons_succ] at h
      rw [Function.iterate_succ_apply]
      exact ih h

/-- After some rows, as many of the pipe lines are used up. -/
theorem pipeLines_iterate_nextRow {first : Nat} {other p : Position}
    (h : s.IsFoundFrom first other p) (i : Nat) :
    s.pipeLines ((s.nextRow^[i] p).line + 1) = (s.pipeLines first).drop (i + 1) := by
  induction i with
  | zero => rw [Function.iterate_zero_apply, h.rest, List.drop_one]
  | succ i ih =>
    rw [Function.iterate_succ_apply', (s.isFoundFrom_nextRow _).rest, ih, List.tail_drop]

theorem isFirstPipe_iterate_nextRow {other p : Position} {first i number : Nat}
    (h : s.IsFoundFrom first other p) (hnumber : (s.pipeLines first)[i]? = some number) :
    (s.nextRow^[i] p).line = number ∧ s.IsFirstPipe (s.nextRow^[i] p) := by
  cases i with
  | zero => exact h.onPipe number (by rwa [List.head?_eq_getElem?])
  | succ i =>
    rw [Function.iterate_succ_apply']
    refine (s.isFoundFrom_nextRow _).onPipe number ?_
    rw [pipeLines_iterate_nextRow h, List.head?_drop]
    exact hnumber

/-- No row stands above the first. -/
theorem le_line_of_mem_placeRows {first : Position} {table : List (List String)} {row : Row}
    (h : row ∈ s.placeRows first table) : first.line ≤ row.position.line := by
  induction table generalizing first with
  | nil => cases h
  | cons cells table ih =>
    rcases List.mem_cons.1 h with rfl | hmem
    · exact Nat.le_refl _
    · have hnext := (s.isFoundFrom_nextRow first).le
      have hrow := ih hmem
      omega

theorem pairwise_placeRows (s : Source) (first : Position) (table : List (List String)) :
    (s.placeRows first table).Pairwise fun row later =>
      row.position.line < later.position.line := by
  induction table generalizing first with
  | nil => exact List.Pairwise.nil
  | cons cells table ih =>
    refine List.pairwise_cons.2 ⟨fun later hlater => ?_, ih _⟩
    have hnext := (s.isFoundFrom_nextRow first).le
    have hline := le_line_of_mem_placeRows hlater
    dsimp only
    omega

theorem arePlaced_placeRows (s : Source) (offset : Nat) (table : List (List String)) :
    s.ArePlaced offset table (s.placeRows (s.firstRow offset) table) := by
  have hfirst := s.isFoundFrom_firstRow offset
  constructor
  case cells_eq => exact s.map_cells_placeRows _ table
  case onPipe =>
    intro i row number hrow hnumber
    rw [position_of_getElem?_placeRows hrow]
    exact isFirstPipe_iterate_nextRow hfirst hnumber
  case atOffset =>
    intro hnil row hrow
    rw [position_of_mem_head?_placeRows hrow]
    exact hfirst.eq_other hnil
  case below =>
    intro i row next hused hrow hnext
    rw [position_of_getElem?_placeRows hrow, position_of_getElem?_placeRows hnext,
      Function.iterate_succ_apply']
    apply (s.isFoundFrom_nextRow _).eq_other
    rw [pipeLines_iterate_nextRow hfirst]
    exact List.drop_eq_nil_of_le hused
  case increasing => exact s.pairwise_placeRows _ table

/-! ## The tables of steps and examples -/

theorem argument?_of_table {step : ParseTree.Step} {table : ParseTree.Table}
    (hdoc : step.docString = none) (htable : step.table = some table) :
    Document.argument? s step =
      some (.table (s.placeRows (s.firstRow table.start) table.rows) (s.firstRow table.start)) := by
  rw [Document.argument?, hdoc, htable]

theorem header_examplesBlock {e : ParseTree.Examples} {table : ParseTree.Table}
    (h : e.table = some table) : (Document.examplesBlock s e).header =
      (s.placeRows (s.firstRow table.start) table.rows).head? := by
  rw [Document.examplesBlock, h]

theorem body_examplesBlock {e : ParseTree.Examples} {table : ParseTree.Table}
    (h : e.table = some table) : (Document.examplesBlock s e).body =
      (s.placeRows (s.firstRow table.start) table.rows).tail := by
  rw [Document.examplesBlock, h]

/-- The rows of any table are where they belong, from the line on which its offset lies. The
argument of a step is placed where the first row of its table is. The first row of an examples table
is its header and stands on the first pipe line, and the others follow. -/
theorem placeRows_exact (s : Source) (table : ParseTree.Table) :
    let pipes := s.pipeLines (s.positionAt table.start).line
    let rows := s.placeRows (s.firstRow table.start) table.rows
    s.ArePlaced table.start table.rows rows ∧
      (pipes.Pairwise (· < ·) ∧ ∀ number, number ∈ pipes ↔
        (s.positionAt table.start).line ≤ number ∧
          ∃ line, s.line? number = some line ∧ (Text.trimChars line).head? = some '|') ∧
      (∀ before rest, s.text = before ++ rest → table.start = byteLength before →
        (s.positionAt table.start).line = before.count '\n' + 1) ∧
      (∀ step : ParseTree.Step, step.docString = none → step.table = some table →
        ∃ position, Document.argument? s step = some (.table rows position) ∧
          ∀ row ∈ rows.head?, position = row.position) ∧
      ∀ e : ParseTree.Examples, e.table = some table →
        let block := Document.examplesBlock s e
        block.header.toList ++ block.body = rows ∧
          (∀ row ∈ block.header, ∀ number ∈ pipes.head?,
            row.position.line = number ∧ s.IsFirstPipe row.position) ∧
          ∀ (j : Nat) (row : Row) (number : Nat), block.body[j]? = some row →
            pipes[j + 1]? = some number →
              row.position.line = number ∧ s.IsFirstPipe row.position := by
  intro pipes rows
  have hplaced : s.ArePlaced table.start table.rows rows := s.arePlaced_placeRows _ _
  refine ⟨hplaced, ⟨s.pairwise_pipeLines _, fun number => ?_⟩, ?_, ?_, ?_⟩
  · rw [mem_pipeLines]
    simp only [isPipeLine, decide_eq_true_eq]
  · intro before rest htext hstart
    rw [hstart, positionAt_byteLength htext]
    rfl
  · intro step hdoc htable
    refine ⟨_, argument?_of_table hdoc htable, fun row hrow => ?_⟩
    exact (position_of_mem_head?_placeRows hrow).symm
  · intro e htable
    dsimp only
    rw [header_examplesBlock htable, body_examplesBlock htable]
    refine ⟨?_, ?_, ?_⟩
    · change rows.head?.toList ++ rows.tail = rows
      cases rows <;> rfl
    · intro row hrow number hnumber
      rw [List.head?_eq_getElem?] at hrow hnumber
      exact hplaced.onPipe 0 row number hrow hnumber
    · intro j row number hrow hnumber
      rw [List.getElem?_tail] at hrow
      exact hplaced.onPipe (j + 1) row number hrow hnumber

/-- Examples with a comment and an empty line between the header and the only other pipe line. -/
def buffet : Source :=
  ofChars "Feature: é\n    Examples:\n      | n |\n      # two\n\n\t| 1 |\n".toList

/-- The table of these examples in the parse tree, which has one row more. -/
def buffetTable : ParseTree.Table := ⟨[["n"], ["1"], ["2"]], 25⟩

/-- The header and the first row of data are found, and the second one is put below. As the argument
of a step, the table would be placed where its first row is. -/
theorem placeRows_exact_buffet :
    let rows := buffet.placeRows (buffet.firstRow 25) buffetTable.rows
    let step : ParseTree.Step := ⟨"Given ", "guests", none, some buffetTable, ⟨2, 5⟩⟩
    let block := Document.examplesBlock buffet ⟨"Examples", "", some buffetTable, ⟨2, 5⟩⟩
    (buffet.positionAt 25).line = 2 ∧ buffet.pipeLines 2 = [3, 6] ∧
      Document.argument? buffet step = some (.table rows ⟨3, 7⟩) ∧
      block.header = some ⟨⟨3, 7⟩, ["n"]⟩ ∧ buffet.IsFirstPipe ⟨3, 7⟩ ∧
      block.body = [⟨⟨6, 2⟩, ["1"]⟩, ⟨⟨7, 2⟩, ["2"]⟩] ∧ buffet.IsFirstPipe ⟨6, 2⟩ := by
  intro rows step block
  obtain ⟨-, -, hlineOf, hstep, hexamples⟩ := placeRows_exact buffet buffetTable
  have hline : (buffet.positionAt 25).line = 2 :=
    hlineOf "Feature: é\n    Examples:".toList "\n      | n |\n      # two\n\n\t| 1 |\n".toList
      (by decide) (by decide)
  have hpipes : buffet.pipeLines (buffet.positionAt 25).line = [3, 6] := by decide
  have hheader : block.header = some ⟨⟨3, 7⟩, ["n"]⟩ := by decide
  have hbody : block.body = [⟨⟨6, 2⟩, ["1"]⟩, ⟨⟨7, 2⟩, ["2"]⟩] := by decide
  have hhead : rows.head? = some ⟨⟨3, 7⟩, ["n"]⟩ := by decide
  obtain ⟨position, hargument, hposition⟩ := hstep step rfl rfl
  obtain rfl := hposition _ hhead
  obtain ⟨-, hfirst, hrest⟩ := hexamples ⟨"Examples", "", some buffetTable, ⟨2, 5⟩⟩ rfl
  have hthree := hfirst ⟨⟨3, 7⟩, ["n"]⟩ hheader 3 (congrArg List.head? hpipes)
  have hsix := hrest 0 ⟨⟨6, 2⟩, ["1"]⟩ 6 (congrArg (·[0]?) hbody) (congrArg (·[1]?) hpipes)
  exact ⟨hline, hline ▸ hpipes, hargument, hheader, hthree.2, hbody, hsix.2⟩

end Source

end FeatureAtlas
