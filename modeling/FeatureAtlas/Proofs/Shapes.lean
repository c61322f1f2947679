import FeatureAtlas.Proofs.Ownership

/-!
# Tables keep their shape

Widths are checked once, when a document is planned. What is planned is regular: the table of a step
is rectangular, and the rows of an examples block are as wide as its columns. Filling a template
replaces texts and nothing else, so an instance has steps of the same shape as its outline.
`Atlas.IsRegular` says this of all that an atlas holds, and `Atlas.Delivered.isRegular` that it
holds after any deliveries, those that fail included. An edit could break it: a step may get any
table.
-/

namespace FeatureAtlas

/-! ## Shapes -/

/-- How many cells each row of a table has. -/
def DataTable.widths (t : DataTable) : List Nat := t.rows.map List.length

@[simp] theorem DataTable.widths_map (change : String → String) (t : DataTable) :
    (t.map change).widths = t.widths := by
  simp [widths, map, Function.comp_def]

/-- Two steps with tables that have equally many rows, each as wide as that of the other, or both
without one; and both with a doc string or both without one. -/
structure Step.IsShapedLike (s t : Step) : Prop where
  table : s.table.map (·.widths) = t.table.map (·.widths)
  docString : s.docString.isSome = t.docString.isSome

/-- An examples block whose rows are as wide as its columns, with an instance for every row. -/
structure Examples.IsFull (e : Examples) : Prop where
  widths : ∀ row ∈ e.rows, row.length = e.columns.length
  instances : e.instances.length = e.rows.length

namespace Atlas

/-- The steps of an instance and of its outline, one by one. -/
def AreShapedLike (a : Atlas) (steps templates : List StepId) : Prop :=
  List.Forall₂ (fun step template =>
    ∃ s t, a.step? step = some s ∧ a.step? template = some t ∧ s.IsShapedLike t) steps templates

/-- All tables are rectangular, examples blocks hold instances of their outline, one for every row,
and instances have the shape of their outline. -/
structure IsRegular (a : Atlas) : Prop where
  tables : ∀ id s t, a.step? id = some s → s.table = some t → t.IsRectangular
  examples : ∀ id o, a.scenario? id = some o → ∀ e ∈ o.examples, e.IsFull
  outlines : ∀ id o, a.scenario? id = some o → ∀ e ∈ o.examples, ∀ i ∈ e.instances,
    ∃ n, a.scenario? i = some n ∧ n.outline = some id
  instances : ∀ id n outline, a.scenario? id = some n → n.outline = some outline →
    ∃ o, a.scenario? outline = some o ∧ a.AreShapedLike n.steps o.steps

end Atlas

/-! ## Plans -/

/-- A block whose tables are rectangular and whose examples are as wide as their columns. -/
structure BlockPlan.IsRegular (b : BlockPlan) : Prop where
  tables : ∀ s ∈ b.steps, ∀ t, s.table = some t → t.IsRectangular
  examples : ∀ e ∈ b.examples, ∀ row ∈ e.rows, row.length = e.columns.length

theorem Progress.mem_done_ofExcept {ε α : Type} {r : Except ε α} {a : α}
    (h : a ∈ (ofExcept r).done) : r = .ok a := by
  cases r with
  | ok b => rw [List.mem_singleton.1 h]
  | error e => cases h

namespace Block

variable {document : Path} {kind : ScenarioKind} {b : Block}

/-- Only rectangular tables are planned, also where a later one is ragged. -/
theorem isRectangular_checkedSteps {s : StepPlan} (hs : s ∈ (b.checkedSteps document).done)
    {t : DataTable} (ht : s.table = some t) : t.IsRectangular := by
  obtain ⟨line, -, hdone, -⟩ := Progress.exists_of_mem_done_collect hs
  obtain ⟨hsound, rfl⟩ := StepPlan.ofLine_eq_ok_iff.1 (Progress.mem_done_ofExcept hdone)
  exact hsound t ht

theorem length_row_checkedExamples {e : ExamplesPlan}
    (he : e ∈ (b.checkedExamples document kind).done) :
    ∀ row ∈ e.rows, row.length = e.columns.length := by
  cases kind with
  | outline =>
    obtain ⟨block, -, hdone, -⟩ := Progress.exists_of_mem_done_collect he
    obtain ⟨hsound, rfl⟩ := ExamplesPlan.ofBlock_eq_ok_iff.1 (Progress.mem_done_ofExcept hdone)
    exact List.forall_mem_map.2 hsound
  | _ => cases he

end Block

theorem BlockPlan.isRegular_ofBlock (document : Path) (kind : ScenarioKind) (b : Block) :
    (ofBlock document kind b).1.IsRegular := by
  simp only [ofBlock]
  split
  all_goals
    refine ⟨fun s hs t => b.isRectangular_checkedSteps hs, fun e he => ?_⟩
  · cases he
  · exact Block.length_row_checkedExamples he
  · exact Block.length_row_checkedExamples he

theorem Document.isRegular_of_keeps {d : Document} {filter : TagFilter} {b : BlockPlan}
    (h : (d.plan filter).Keeps b) : b.IsRegular := by
  obtain ⟨c, rfl, -⟩ := exists_child_of_keeps h
  exact BlockPlan.isRegular_ofBlock d.path c.kind c.block

/-! ## A placed block -/

/-- What two lists say of a third one, entry by entry, they say of each other. -/
theorem forall₂_through {α β γ : Type} {R : α → γ → Prop} {S : β → γ → Prop} {as : List α}
    {bs : List β} {cs : List γ} (h : List.Forall₂ R as cs) (h' : List.Forall₂ S bs cs) :
    List.Forall₂ (fun a b => ∃ c, R a c ∧ S b c) as bs := by
  induction h generalizing bs with
  | nil =>
    cases h'
    exact .nil
  | cons hr _ ih =>
    cases h' with
    | cons hs hrest => exact .cons ⟨_, hr, hs⟩ (ih hrest)

/-- The steps of a block are planned ones, or copies of these for a row. -/
theorem BlockPlan.cases_stepNodes {b : BlockPlan} {site : Site} {s : Step}
    (h : s ∈ b.stepNodes site) :
    ∃ p ∈ b.steps, ∃ owner,
      s = p.toStep site.file owner ∨ ∃ cells, s = (p.bind cells).toStep site.file owner := by
  rcases List.mem_append.1 h with hown | hrow
  · obtain ⟨p, hp, rfl⟩ := List.mem_map.1 hown
    exact ⟨p, hp, site.scenario, Or.inl rfl⟩
  · obtain ⟨⟨cells, number⟩, -, hs⟩ := List.mem_flatMap.1 hrow
    obtain ⟨p, hp, rfl⟩ := List.mem_map.1 hs
    exact ⟨p, hp, site.instanceId number, Or.inr ⟨cells, rfl⟩⟩

/-- A filled template has the template's shape. -/
theorem StepPlan.isShapedLike_bind (p : StepPlan) (cells : Binding) (file : Path)
    (owner template : ScenarioId) :
    ((p.bind cells).toStep file owner).IsShapedLike (p.toStep file template) where
  table := by
    cases h : p.table <;> simp [StepPlan.toStep, StepPlan.bind, h]
  docString := by simp [StepPlan.toStep, StepPlan.bind]

/-- The placed examples are the planned ones, with an instance for every row. -/
theorem ExamplesPlan.isFull_of_mem_placeExamples {first : ScenarioId} {es : List ExamplesPlan}
    (hes : ∀ e ∈ es, ∀ row ∈ e.rows, row.length = e.columns.length) {e : Examples}
    (he : e ∈ placeExamples first es) : e.IsFull where
  widths := by
    have hplan : e.plan ∈ (placeExamples first es).map (·.plan) := List.mem_map_of_mem he
    rw [map_plan_placeExamples] at hplan
    exact hes e.plan hplan
  instances := length_instances_of_mem_placeExamples he

/-- The instances in the placed examples of a block are those of the block. -/
theorem BlockPlan.exists_of_mem_placeExamples (b : BlockPlan) {site : Site} {e : Examples}
    (he : e ∈ placeExamples (site.instanceId 0) b.examples) {i : ScenarioId}
    (hi : i ∈ e.instances) : ∃ number < b.bindings.length, i = site.instanceId number := by
  have hmem : i ∈ ((placeExamples (site.instanceId 0) b.examples).map (·.instances)).flatten :=
    List.mem_flatten.2 ⟨e.instances, List.mem_map_of_mem he, hi⟩
  rw [flatten_instances_placeExamples, ← b.length_bindings] at hmem
  exact Site.mem_run_instanceId.1 hmem

namespace Atlas

section

variable {a : Atlas} {site : Site} {name : String} {b : BlockPlan}

/-- What was said of two lists of steps is still true of them. -/
theorem forall₂_steps_place {R : Step → Step → Prop} {steps templates : List StepId}
    (h : List.Forall₂ (fun step template =>
      ∃ s t, a.step? step = some s ∧ a.step? template = some t ∧ R s t) steps templates) :
    List.Forall₂ (fun step template =>
      ∃ s t, (a.place site name b).step? step = some s ∧
        (a.place site name b).step? template = some t ∧ R s t) steps templates := by
  refine h.imp fun step template hsteps => ?_
  obtain ⟨s, t, hs, ht, hr⟩ := hsteps
  exact ⟨s, t, step?_place_of_some hs, step?_place_of_some ht, hr⟩

theorem AreShapedLike.place {steps templates : List StepId}
    (h : a.AreShapedLike steps templates) :
    (a.place site name b).AreShapedLike steps templates :=
  forall₂_steps_place h

/-- The steps of an instance of a placed block and those of the block come from the same planned
steps, one by one. -/
theorem forall₂_planned_place (hstep : site.step = a.steps.nextId) (tags : List TagId)
    {number : Nat} {cells : Binding} (hcells : b.bindings[number]? = some cells) :
    List.Forall₂ (fun step template => ∃ p : StepPlan,
      (a.place site name b).step? step =
        some ((p.bind cells).toStep site.file (site.instanceId number)) ∧
      (a.place site name b).step? template = some (p.toStep site.file site.scenario))
      (b.instanceNode site number).steps (b.node site name tags).steps := by
  -- Both lists of steps were made from the planned steps, and are compared through these.
  let placed := a.place site name b
  have hinstance : List.Forall₂ (fun id (p : StepPlan) =>
      placed.step? id = some ((p.bind cells).toStep site.file (site.instanceId number)))
      (b.instanceNode site number).steps b.steps :=
    forall₂_of_map_eq (map_step?_place_instance hstep hcells)
  have hown : List.Forall₂ (fun id (p : StepPlan) =>
      placed.step? id = some (p.toStep site.file site.scenario))
      (b.node site name tags).steps b.steps :=
    forall₂_of_map_eq (map_step?_place_own hstep tags)
  exact forall₂_through hinstance hown

/-- An instance of a placed block has the shape of the block. -/
theorem areShapedLike_place (hstep : site.step = a.steps.nextId) (tags : List TagId) {number : Nat}
    {cells : Binding} (hcells : b.bindings[number]? = some cells) :
    (a.place site name b).AreShapedLike (b.instanceNode site number).steps
      (b.node site name tags).steps := by
  refine (forall₂_planned_place hstep tags hcells).imp fun step template hplanned => ?_
  obtain ⟨p, hs, ht⟩ := hplanned
  exact ⟨_, _, hs, ht, p.isShapedLike_bind cells _ _ _⟩

/-- Placing a regular block keeps an atlas regular. -/
theorem IsRegular.place (h : a.IsRegular) (hb : b.IsRegular)
    (hsite : site.scenario = a.scenarios.nextId) (hstep : site.step = a.steps.nextId) :
    (a.place site name b).IsRegular := by
  constructor
  case tables =>
    intro id s t hs ht
    rcases Arena.cases_get?_append hs with hold | ⟨k, hk, -⟩
    · exact h.tables id s t hold ht
    · obtain ⟨p, hp, owner, rfl | ⟨cells, rfl⟩⟩ :=
        BlockPlan.cases_stepNodes (List.mem_of_getElem? hk)
      · exact hb.tables p hp t ht
      · obtain ⟨table, htable, rfl⟩ := Option.map_eq_some_iff.1 ht
        exact (hb.tables p hp table htable).map cells.render
  case examples =>
    intro id n hn e he
    rcases cases_scenario?_place hsite hn with hold | ⟨-, rfl⟩ | ⟨number, -, -, rfl⟩
    · exact h.examples id n hold e he
    · exact ExamplesPlan.isFull_of_mem_placeExamples hb.examples he
    · cases he
  case outlines =>
    intro id o ho e he i hi
    rcases cases_scenario?_place hsite ho with hold | ⟨rfl, rfl⟩ | ⟨number, -, -, rfl⟩
    · obtain ⟨n, hn, hnamed⟩ := h.outlines id o hold e he i hi
      exact ⟨n, scenario?_place_of_some hn, hnamed⟩
    · obtain ⟨number, hnumber, rfl⟩ := b.exists_of_mem_placeExamples he hi
      exact ⟨_, scenario?_place_instance hsite hnumber, rfl⟩
    · cases he
  case instances =>
    intro id n outline hn houtline
    rcases cases_scenario?_place hsite hn with hold | ⟨-, rfl⟩ | ⟨number, hnumber, -, rfl⟩
    · obtain ⟨o, ho, hlike⟩ := h.instances id n outline hold houtline
      exact ⟨o, scenario?_place_of_some ho, hlike.place⟩
    · cases houtline
    · cases houtline
      exact ⟨_, scenario?_place hsite,
        areShapedLike_place hstep _ (List.getElem?_eq_getElem hnumber)⟩

end

/-! ## A run -/

/-- Shapes are a matter of scenarios and steps. -/
theorem IsRegular.withOthers {a : Atlas} (h : a.IsRegular) (features : Arena .feature Feature)
    (tags : TagIndex) : IsRegular ⟨features, a.scenarios, a.steps, tags⟩ :=
  ⟨h.tables, h.examples, h.outlines, h.instances⟩

theorem IsRegular.addBlock {g : Growth} {f : Feature} (h : (g.close f).IsRegular)
    (document : Path) {b : BlockPlan} (hb : b.IsRegular) :
    ((g.addBlock document b).close f).IsRegular := by
  have hplaced : ((g.close f).place (g.nextSite document) (g.nextName b.kind) b).IsRegular :=
    h.place hb rfl rfl
  exact hplaced.withOthers _ _

theorem isRegular_empty : Atlas.empty.IsRegular where
  tables := fun _ _ _ h => by cases h
  examples := fun _ _ h => by cases h
  outlines := fun _ _ h => by cases h
  instances := fun _ _ _ h => by cases h

/-- Whatever documents are delivered under whatever filters, and wherever they fail, the atlas is
regular. -/
theorem Delivered.isRegular {a : Atlas} (h : a.Delivered) : a.IsRegular :=
  h.invariant (Q := BlockPlan.IsRegular) (fun _ _ _ ha => ha.withOthers _ _)
    (fun _ _ document _ hb hg => hg.addBlock document hb) isRegular_empty
    fun _ _ _ hb => Document.isRegular_of_keeps hb

end Atlas

/-- A feature with an outline, of which a step has a table and another a doc string. The first
examples block has two rows, the second has these. -/
def FeatureBlock.brunch (rows : List Row) : FeatureBlock where
  keyword := "Feature"
  title := "Brunch"
  description := ""
  comments := []
  position := ⟨1, 1⟩
  tags := []
  children :=
    [.outline ⟨"Scenario Outline", "Eating", "", [], ⟨2, 3⟩, [],
      [⟨"Given", "a table", [], ⟨3, 5⟩,
          some (.table [⟨⟨4, 7⟩, ["dish", "count"]⟩, ⟨⟨5, 7⟩, ["<dish>", "1"]⟩] ⟨4, 7⟩)⟩,
        ⟨"When", "I say", [], ⟨6, 5⟩, some (.docString "<dish>, please" ⟨7, 7⟩)⟩],
      [⟨"Examples", "", [], ⟨10, 5⟩, some ⟨⟨11, 7⟩, ["dish"]⟩,
          [⟨⟨12, 7⟩, ["soup"]⟩, ⟨⟨13, 7⟩, ["salad"]⟩]⟩,
        ⟨"Examples", "", [], ⟨15, 5⟩, some ⟨⟨16, 7⟩, ["dish"]⟩, rows⟩]⟩]

/-- A document that is added, and one that fails between its two examples blocks. What the second
leaves is an outline with one block and two instances. -/
theorem Atlas.isRegular_brunch :
    let sound : Document := ⟨⟨"brunch.feature"⟩, some (.brunch [⟨⟨17, 7⟩, ["cake"]⟩])⟩
    let ragged : Document := ⟨⟨"late.feature"⟩, some (.brunch [⟨⟨17, 7⟩, ["cake", "tea"]⟩])⟩
    let first := Atlas.empty.addDocument sound .keepAll
    let second := first.atlas.addDocument ragged .keepAll
    first.outcome = .ok (some ⟨0⟩) ∧
      second.outcome = .error (.examples ⟨⟨"late.feature"⟩, 17, 0, 1, 2⟩) ∧
      second.atlas.Delivered ∧ second.atlas.IsRegular ∧
      (second.atlas.scenario? ⟨4⟩).map (fun o => o.examples.map fun e => (e.rows, e.instances)) =
        some [([["soup"], ["salad"]], [⟨5⟩, ⟨6⟩])] ∧
      (second.atlas.stepsIn ⟨6⟩).map (fun s => (s.table.map (·.widths), s.docString.isSome)) =
        [(some [2, 2], false), (none, true)] := by
  intro sound ragged first second
  have hdelivered : second.atlas.Delivered :=
    (Delivered.empty.addDocument sound .keepAll).addDocument ragged .keepAll
  exact ⟨by decide, by decide, hdelivered, hdelivered.isRegular, by decide, by decide⟩

end FeatureAtlas
