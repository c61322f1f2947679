import FeatureAtlas.Plan
import Mathlib.Data.List.Basic

/-!
# Sound blocks

A step is sound if its table is rectangular, and an examples block if its rows are as wide as its
header. What is sound has a plan that can be written down without checking anything, and this is
the plan that the checks arrive at; what is not sound fails. Everything here is said of the
document alone.
-/

namespace FeatureAtlas

/-! ## Rows -/

/-- No row is found ragged just if all rows have the expected width. -/
theorem RaggedRow.find?_eq_none_iff {document : Path} {expected : Nat} {rows : List Row} :
    RaggedRow.find? document expected rows = none ↔
      ∀ row ∈ rows, row.cells.length = expected := by
  simp only [find?, Option.map_eq_none_iff, List.find?_eq_none, Prod.forall, decide_not,
    Bool.not_eq_true, Bool.not_eq_false', decide_eq_true_eq]
  constructor
  · intro h row hrow
    obtain ⟨i, hi⟩ := List.getElem?_of_mem hrow
    exact h row i (List.mem_zipIdx_iff_getElem?.2 hi)
  · intro h row i hmem
    exact h row (List.mem_of_getElem? (List.mem_zipIdx_iff_getElem?.1 hmem))

/-! ## Steps -/

namespace StepLine

/-- The text of the doc string after a step. -/
def docString? (s : StepLine) : Option String :=
  match s.argument with
  | some (.docString content _) => some content
  | _ => none

/-- The cells of the table after a step, whatever the widths of its rows. -/
def table? (s : StepLine) : Option DataTable :=
  match s.argument with
  | some (.table rows _) => some ⟨rows.map (·.cells)⟩
  | _ => none

/-- The kind of an argument that is neither. -/
def ignored? (s : StepLine) : Option String :=
  match s.argument with
  | some (.other kind) => some kind
  | _ => none

/-- A step without a ragged table. -/
def IsSound (s : StepLine) : Prop :=
  ∀ table, s.table? = some table → table.IsRectangular

/-- The plan of a sound step. -/
def plan (s : StepLine) : StepPlan :=
  ⟨s.keyword, s.text, commentText s.comments, s.position.line, s.docString?, s.table?, s.ignored?⟩

end StepLine

/-- A table is read just if it is rectangular, and then with all its cells. -/
theorem DataTable.ofRows_eq_ok_iff {document : Path} {rows : List Row} {t : DataTable} :
    DataTable.ofRows document rows = .ok t ↔
      DataTable.IsRectangular ⟨rows.map (·.cells)⟩ ∧ t = ⟨rows.map (·.cells)⟩ := by
  have hwidth : (rows.head?.map (·.cells.length)).getD 0 =
      DataTable.width ⟨rows.map (·.cells)⟩ := by
    cases rows <;> rfl
  have hrows : RaggedRow.find? document ((rows.head?.map (·.cells.length)).getD 0) rows = none ↔
      DataTable.IsRectangular ⟨rows.map (·.cells)⟩ := by
    rw [RaggedRow.find?_eq_none_iff, hwidth]
    simp [IsRectangular]
  rw [ofRows, ← hrows]
  cases RaggedRow.find? document ((rows.head?.map (·.cells.length)).getD 0) rows with
  | none => simp [eq_comm]
  | some ragged => simp

/-- A step is planned just if it is sound. -/
theorem StepPlan.ofLine_eq_ok_iff {document : Path} {s : StepLine} {p : StepPlan} :
    StepPlan.ofLine document s = .ok p ↔ s.IsSound ∧ p = s.plan := by
  unfold ofLine StepLine.IsSound StepLine.plan StepLine.docString? StepLine.table? StepLine.ignored?
  cases s.argument with
  | none => simp [eq_comm]
  | some argument =>
    cases argument with
    | docString content position => simp [eq_comm]
    | other kind => simp [eq_comm]
    | table rows position =>
      have hrows (t : DataTable) : DataTable.ofRows document rows = .ok t ↔ _ :=
        DataTable.ofRows_eq_ok_iff
      cases hread : DataTable.ofRows document rows with
      | ok t =>
        obtain ⟨hrect, rfl⟩ := (hrows t).1 hread
        simp [Except.map, hread, hrect, eq_comm]
      | error e =>
        have hragged : ¬DataTable.IsRectangular ⟨rows.map (·.cells)⟩ := fun hrect => by
          rw [(hrows _).2 ⟨hrect, rfl⟩] at hread
          cases hread
        simp [Except.map, hread, hragged]

/-! ## Examples -/

namespace ExamplesBlock

/-- The columns of an examples block; there are none without a header. -/
def columns (e : ExamplesBlock) : List String := (e.header.map (·.cells)).getD []

/-- An examples block without a ragged row. -/
def IsSound (e : ExamplesBlock) : Prop :=
  ∀ row ∈ e.body, row.cells.length = e.columns.length

/-- The plan of a sound examples block. -/
def plan (e : ExamplesBlock) : ExamplesPlan :=
  ⟨e.keyword, e.title, commentText e.comments, e.position.line, e.columns, e.body.map (·.cells)⟩

/-- The columns with the cells of each row. -/
def bindings (e : ExamplesBlock) : List Binding :=
  e.body.map fun row => ⟨e.columns, row.cells⟩

@[simp] theorem bindings_plan (e : ExamplesBlock) : e.plan.bindings = e.bindings := by
  simp [plan, bindings, ExamplesPlan.bindings]

end ExamplesBlock

theorem ExamplesPlan.ofBlock_eq_ok_iff {document : Path} {e : ExamplesBlock} {p : ExamplesPlan} :
    ExamplesPlan.ofBlock document e = .ok p ↔ e.IsSound ∧ p = e.plan := by
  have hrows : RaggedRow.find? document e.columns.length e.body = none ↔ e.IsSound :=
    RaggedRow.find?_eq_none_iff
  have hcolumns : (e.header.map (·.cells)).getD [] = e.columns := rfl
  simp only [ofBlock, hcolumns, ← hrows]
  cases RaggedRow.find? document e.columns.length e.body with
  | none => simp [ExamplesBlock.plan, eq_comm]
  | some ragged => simp

/-! ## Blocks -/

namespace Progress

variable {ε α β : Type} {check : α → Except ε β} {sound : α → Prop} {plan : α → β}

/-- A checked item passes just if it is sound. -/
theorem failure_ofExcept_eq_none_iff (hcheck : ∀ a b, check a = .ok b ↔ sound a ∧ b = plan a)
    (a : α) : (ofExcept (check a)).failure = none ↔ sound a := by
  cases h : check a with
  | ok b => simp [ofExcept, ((hcheck a b).1 h).1]
  | error e =>
    have hnot : ¬sound a := fun hs => by
      rw [(hcheck a (plan a)).2 ⟨hs, rfl⟩] at h
      cases h
    simp [ofExcept, hnot]

/-- Items that are checked one by one all pass just if all are sound. -/
theorem failure_collect_eq_none_iff (hcheck : ∀ a b, check a = .ok b ↔ sound a ∧ b = plan a)
    (as : List α) :
    (collect (fun a => ofExcept (check a)) as).failure = none ↔ ∀ a ∈ as, sound a := by
  simp only [failure_collect, List.findSome?_eq_none_iff]
  exact forall₂_congr fun a _ => failure_ofExcept_eq_none_iff hcheck a

/-- Sound items give their plans. -/
theorem done_collect_of_sound (hcheck : ∀ a b, check a = .ok b ↔ sound a ∧ b = plan a)
    {as : List α} (hsound : ∀ a ∈ as, sound a) :
    (collect (fun a => ofExcept (check a)) as).done = as.map plan := by
  rw [done_collect_of_failure_eq_none ((failure_collect_eq_none_iff hcheck as).2 hsound),
    List.map_eq_flatMap]
  refine List.flatMap_congr fun a ha => ?_
  rw [(hcheck a (plan a)).2 ⟨hsound a ha, rfl⟩]
  rfl

end Progress

namespace Block

/-- A block whose tables are sound. Only the examples of an outline count. -/
def IsSound (kind : ScenarioKind) (b : Block) : Prop :=
  (∀ s ∈ b.steps, s.IsSound) ∧ (kind = .outline → ∀ e ∈ b.examples, e.IsSound)

/-- The plans of an outline's examples blocks; other kinds have none. -/
def examplesPlans (kind : ScenarioKind) (b : Block) : List ExamplesPlan :=
  if kind = .outline then b.examples.map (·.plan) else []

/-- The plan of a sound block. -/
def plan (kind : ScenarioKind) (b : Block) : BlockPlan :=
  ⟨kind, b.keyword, b.title, b.description, commentText b.comments, b.position.line,
    tagTexts b.tags, b.steps.map (·.plan), b.examplesPlans kind, .whole⟩

variable {document : Path} {kind : ScenarioKind} {b : Block}

theorem failure_checkedSteps_eq_none_iff :
    (b.checkedSteps document).failure = none ↔ ∀ s ∈ b.steps, s.IsSound :=
  Progress.failure_collect_eq_none_iff (fun _ _ => StepPlan.ofLine_eq_ok_iff) b.steps

theorem done_checkedSteps_of_sound (hsound : ∀ s ∈ b.steps, s.IsSound) :
    (b.checkedSteps document).done = b.steps.map (·.plan) :=
  Progress.done_collect_of_sound (fun _ _ => StepPlan.ofLine_eq_ok_iff) hsound

theorem failure_checkedExamples_eq_none_iff :
    (b.checkedExamples document kind).failure = none ↔
      (kind = .outline → ∀ e ∈ b.examples, e.IsSound) := by
  have houtline : (b.checkedExamples document .outline).failure = none ↔
      ∀ e ∈ b.examples, e.IsSound :=
    Progress.failure_collect_eq_none_iff (fun _ _ => ExamplesPlan.ofBlock_eq_ok_iff) b.examples
  cases kind with
  | outline => simpa using houtline
  | _ => simp [checkedExamples]

theorem done_checkedExamples_of_sound (hsound : kind = .outline → ∀ e ∈ b.examples, e.IsSound) :
    (b.checkedExamples document kind).done = b.examplesPlans kind := by
  cases kind with
  | outline =>
    exact Progress.done_collect_of_sound (fun _ _ => ExamplesPlan.ofBlock_eq_ok_iff) (hsound rfl)
  | _ => rfl

end Block

/-- The plan of a block is complete just if the block is sound. -/
theorem BlockPlan.ofBlock_failure_eq_none_iff {document : Path} {kind : ScenarioKind} {b : Block} :
    (BlockPlan.ofBlock document kind b).2 = none ↔ b.IsSound kind := by
  have hsteps : (b.checkedSteps document).failure = none ↔ _ :=
    Block.failure_checkedSteps_eq_none_iff
  have hexamples : (b.checkedExamples document kind).failure = none ↔ _ :=
    Block.failure_checkedExamples_eq_none_iff
  rw [Block.IsSound, ← hsteps, ← hexamples]
  simp only [ofBlock]
  split <;> simp_all

/-- The plan of a sound block is the one that can be written down. -/
theorem BlockPlan.ofBlock_of_isSound {document : Path} {kind : ScenarioKind} {b : Block}
    (hsound : b.IsSound kind) : BlockPlan.ofBlock document kind b = (b.plan kind, none) := by
  have hsteps : (b.checkedSteps document).failure = none :=
    Block.failure_checkedSteps_eq_none_iff.2 hsound.1
  have hexamples : (b.checkedExamples document kind).failure = none :=
    Block.failure_checkedExamples_eq_none_iff.2 hsound.2
  simp only [ofBlock, hsteps, hexamples, Block.planWith,
    Block.done_checkedSteps_of_sound hsound.1, Block.done_checkedExamples_of_sound hsound.2]
  rfl

/-! ## Features -/

/-- The plan of a feature whose blocks are all kept and sound. -/
def FeatureBlock.plan (f : FeatureBlock) : FeaturePlan :=
  ⟨f.keyword, f.title, f.description, commentText f.comments, f.position.line, tagTexts f.tags,
    f.children.map fun c => .kept (c.block.plan c.kind)⟩

/-- Without a filter the plan of a child is that of its block. -/
theorem ChildPlan.ofChild_keepAll (document : Path) (c : Child) :
    ChildPlan.ofChild document .keepAll c =
      ⟨[.kept (BlockPlan.ofBlock document c.kind c.block).1],
        (BlockPlan.ofBlock document c.kind c.block).2⟩ := by
  have hkept : ChildPlan.leavesOut .keepAll c = false := by
    cases c <;> simp [leavesOut]
  simp only [ofChild, hkept, Bool.false_eq_true, if_false]

/-- Without a filter and a failure, a document has a feature with its plan, if it has any. -/
theorem Document.plan_keepAll_of_sound {d : Document} {f : FeatureBlock}
    (hfeature : d.feature? = some f) {plan : FeaturePlan}
    (hplan : d.plan .keepAll = .feature plan none) : plan = f.plan := by
  simp only [Document.plan, hfeature, TagFilter.excludes_keepAll, Bool.false_eq_true, if_false,
    DocumentPlan.feature.injEq] at hplan
  obtain ⟨rfl, hnone⟩ := hplan
  have hsound : ∀ c ∈ f.children, c.block.IsSound c.kind := by
    intro c hc
    rw [Progress.failure_collect, List.findSome?_eq_none_iff] at hnone
    have h := hnone c hc
    rw [ChildPlan.ofChild_keepAll] at h
    exact BlockPlan.ofBlock_failure_eq_none_iff.1 h
  rw [Progress.done_collect_of_failure_eq_none hnone, FeatureBlock.plan, List.map_eq_flatMap]
  congr 1
  refine List.flatMap_congr fun c hc => ?_
  rw [ChildPlan.ofChild_keepAll, BlockPlan.ofBlock_of_isSound (hsound c hc)]

end FeatureAtlas
