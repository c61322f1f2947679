import FeatureAtlas.Proofs.Addition
import FeatureAtlas.Proofs.Sound

/-!
# What stops a document

`Document.ragged` lists every ragged row of a document in the order of the document: child by child
without those that a filter leaves out, in a child the tables of its steps and then its examples
blocks, and in each of them row by row. It looks at nothing but the document and the filter.
`Delivery.perform_new_error_iff` says that the first of these rows, and nothing else, is what stops
a document, whatever the atlas holds.
-/

namespace FeatureAtlas

/-! ## All ragged rows -/

/-- All rows of another width than expected, in order. -/
def RaggedRow.all (document : Path) (expected : Nat) (rows : List Row) : List RaggedRow :=
  (rows.zipIdx.filter fun (row, _) => row.cells.length ≠ expected).map fun (row, index) =>
    ⟨document, row.position.line, index, expected, row.cells.length⟩

/-- The ragged rows of the table after a step, which are not as wide as its first row. -/
def StepLine.ragged (document : Path) (s : StepLine) : List RaggedError :=
  match s.argument with
  | some (.table rows _) =>
    (RaggedRow.all document ((rows.head?.map (·.cells.length)).getD 0) rows).map .table
  | _ => []

/-- The ragged rows of an examples block, which are not as wide as its header. -/
def ExamplesBlock.ragged (document : Path) (e : ExamplesBlock) : List RaggedError :=
  (RaggedRow.all document e.columns.length e.body).map .examples

/-- The ragged rows of a child, first in its steps and then, in an outline, in its examples. -/
def Child.ragged (document : Path) (c : Child) : List RaggedError :=
  c.block.steps.flatMap (·.ragged document) ++
    if c.kind = .outline then c.block.examples.flatMap (·.ragged document) else []

/-- The ragged rows of a document, without the children that a filter leaves out; there are none
if it leaves out the feature. -/
def Document.ragged (filter : TagFilter) (d : Document) : List RaggedError :=
  match d.feature? with
  | none => []
  | some f =>
    if filter.excludes (tagTexts f.tags) then []
    else f.children.flatMap fun c => if ChildPlan.leavesOut filter c then [] else c.ragged d.path

/-! ## The checks find the first one -/

theorem RaggedRow.find?_eq_head? (document : Path) (expected : Nat) (rows : List Row) :
    RaggedRow.find? document expected rows = (RaggedRow.all document expected rows).head? := by
  rw [find?, all, List.head?_map, List.head?_filter]

variable {document : Path}

theorem StepPlan.failure_ofLine (s : StepLine) :
    (Progress.ofExcept (StepPlan.ofLine document s)).failure = (s.ragged document).head? := by
  unfold ofLine StepLine.ragged
  cases s.argument with
  | none => rfl
  | some argument =>
    cases argument with
    | docString content position => rfl
    | other kind => rfl
    | table rows position =>
      simp only [DataTable.ofRows, RaggedRow.find?_eq_head?, List.head?_map]
      cases (RaggedRow.all document ((rows.head?.map (·.cells.length)).getD 0) rows).head? <;> rfl

theorem ExamplesPlan.failure_ofBlock (e : ExamplesBlock) :
    (Progress.ofExcept (ExamplesPlan.ofBlock document e)).failure = (e.ragged document).head? := by
  have hcolumns : (e.header.map (·.cells)).getD [] = e.columns := rfl
  simp only [ofBlock, ExamplesBlock.ragged, hcolumns, RaggedRow.find?_eq_head?, List.head?_map]
  cases (RaggedRow.all document e.columns.length e.body).head? <;> rfl

theorem Block.failure_checkedSteps (b : Block) :
    (b.checkedSteps document).failure = (b.steps.flatMap (·.ragged document)).head? := by
  rw [checkedSteps, Progress.failure_collect, List.head?_flatMap]
  simp only [StepPlan.failure_ofLine]

theorem Block.failure_checkedExamples (kind : ScenarioKind) (b : Block) :
    (b.checkedExamples document kind).failure =
      (if kind = .outline then b.examples.flatMap (·.ragged document) else []).head? := by
  cases kind with
  | outline =>
    rw [if_pos rfl, checkedExamples, Progress.failure_collect, List.head?_flatMap]
    simp only [ExamplesPlan.failure_ofBlock]
  | _ => rfl

/-- What ends the plan of a child is its first ragged row. -/
theorem BlockPlan.failure_ofBlock (c : Child) :
    (BlockPlan.ofBlock document c.kind c.block).2 = (c.ragged document).head? := by
  rw [Child.ragged, List.head?_append, ← Block.failure_checkedSteps,
    ← Block.failure_checkedExamples]
  simp only [ofBlock]
  cases (c.block.checkedSteps document).failure with
  | some e => rfl
  | none => cases (c.block.checkedExamples document c.kind).failure <;> rfl

theorem ChildPlan.failure_ofChild (filter : TagFilter) (c : Child) :
    (ChildPlan.ofChild document filter c).failure =
      (if leavesOut filter c then [] else c.ragged document).head? := by
  rw [ofChild]
  split
  · rfl
  · exact BlockPlan.failure_ofBlock c

/-! ## The outcome -/

/-- A document is stopped just by its first ragged row. -/
theorem Atlas.outcome_addDocument_eq_error_iff (a : Atlas) (d : Document) (filter : TagFilter)
    (e : RaggedError) :
    (a.addDocument d filter).outcome = .error e ↔ (d.ragged filter).head? = some e := by
  rw [addDocument_eq_carryOut, Document.plan, Document.ragged]
  cases d.feature? with
  | none => simp [DocumentPlan.carryOut]
  | some f =>
    dsimp only
    split
    · simp [DocumentPlan.carryOut]
    · rw [List.head?_flatMap, Progress.failure_collect]
      simp only [ChildPlan.failure_ofChild]
      cases f.children.findSome? _ <;> simp [DocumentPlan.carryOut]

/-- A document has ragged rows just if its feature is kept and one of the kept children is not
sound. -/
theorem Document.exists_head?_ragged_iff {d : Document} {filter : TagFilter} :
    (∃ e, (d.ragged filter).head? = some e) ↔
      ∃ f, d.feature? = some f ∧ filter.excludes (tagTexts f.tags) = false ∧
        ∃ c ∈ f.children, ChildPlan.leavesOut filter c = false ∧ ¬c.block.IsSound c.kind := by
  have hchild (c : Child) : (c.ragged d.path).head? = none ↔ c.block.IsSound c.kind := by
    rw [← BlockPlan.failure_ofBlock, BlockPlan.ofBlock_failure_eq_none_iff]
  rw [← Option.isSome_iff_exists, ← Option.ne_none_iff_isSome, ragged]
  cases d.feature? with
  | none => simp
  | some f =>
    cases hkept : filter.excludes (tagTexts f.tags) with
    | true => simp [hkept]
    | false =>
      simp only [hkept, Bool.false_eq_true, if_false, List.head?_flatMap, ne_eq,
        List.findSome?_eq_none_iff, Option.some.injEq, exists_eq_left', true_and]
      push Not
      refine exists_congr fun c => and_congr_right fun _ => ?_
      cases hleft : ChildPlan.leavesOut filter c with
      | true => simp
      | false => simp [← hchild]

namespace Delivery

/-- A new delivery fails just if the document has a ragged row that is not left out, and then with
the first one. This is so in every atlas, so whether it fails and how depends on the document and
the filter alone. -/
theorem perform_new_error_iff (d : Document) (filter : TagFilter) (a : Atlas) :
    let outcome (a : Atlas) := ((Delivery.new d filter).perform a).2.outcome
    (∀ e, outcome a = .error e ↔ (d.ragged filter).head? = some e) ∧
      ((∃ e, outcome a = .error e) ↔
        ∃ f, d.feature? = some f ∧ filter.excludes (tagTexts f.tags) = false ∧
          ∃ c ∈ f.children, ChildPlan.leavesOut filter c = false ∧ ¬c.block.IsSound c.kind) ∧
      ∀ other e, outcome a = .error e ↔ outcome other = .error e := by
  intro outcome
  have herror (a : Atlas) (e : RaggedError) :
      outcome a = .error e ↔ (d.ragged filter).head? = some e := by
    simp only [outcome, perform_new, a.outcome_addDocument_eq_error_iff]
  refine ⟨herror a, ?_, ?_⟩
  · simp only [herror]
    exact Document.exists_head?_ragged_iff
  · intro other e
    rw [herror, herror]

end Delivery

end FeatureAtlas
