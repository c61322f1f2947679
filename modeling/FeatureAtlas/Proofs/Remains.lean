import FeatureAtlas.Proofs.Contents
import FeatureAtlas.Proofs.Failure

/-!
# What a failed addition leaves

A document that cannot be added leaves an atlas like that of a shorter document that can. If the
first ragged row is in an examples block, the shorter document ends before this block; if it is in
the table of a step, it ends before this step, and only the feature of the failed addition does not
list the last node. `Document.BreaksAt` names the place of the first ragged row and
`Document.cutAt` is the document that ends there. The plans of the two documents differ in nothing
but the extent of their last block, so everything here is read off the plans.
-/

namespace FeatureAtlas

/-! ## Where a document breaks -/

/-- A block breaks with an error in its step, or in its examples block, with this number: there is
the first ragged row, and all steps and examples before are sound. -/
def Block.BreaksAt (document : Path) (kind : ScenarioKind) (b : Block) :
    RaggedError → Nat → Prop
  | .table r, n =>
    (∀ s ∈ b.steps.take n, s.IsSound) ∧
      ∃ s, b.steps[n]? = some s ∧ (s.ragged document).head? = some (.table r)
  | .examples r, n =>
    kind = .outline ∧ (∀ s ∈ b.steps, s.IsSound) ∧ (∀ e ∈ b.examples.take n, e.IsSound) ∧
      ∃ e, b.examples[n]? = some e ∧ (e.ragged document).head? = some (.examples r)

/-- A document breaks with an error in the child with number `m`, and there in the step or the
examples block with number `n`; the children before are left out or sound. -/
def Document.BreaksAt (filter : TagFilter) (d : Document) (e : RaggedError) (m n : Nat) : Prop :=
  ∃ f c, d.feature? = some f ∧ filter.excludes (tagTexts f.tags) = false ∧
    (∀ c ∈ f.children.take m, ChildPlan.leavesOut filter c = false → c.block.IsSound c.kind) ∧
    f.children[m]? = some c ∧ ChildPlan.leavesOut filter c = false ∧
    c.block.BreaksAt d.path c.kind e n

/-- A block up to the place of an error: its steps before a ragged table and no examples, or all
steps and its examples before a ragged block. -/
def Block.cutAt (e : RaggedError) (n : Nat) (b : Block) : Block :=
  match e with
  | .table _ => { b with steps := b.steps.take n, examples := [] }
  | .examples _ => { b with examples := b.examples.take n }

/-- A child with its block changed. -/
def Child.mapBlock (change : Block → Block) : Child → Child
  | .background b => .background (change b)
  | .scenario b => .scenario (change b)
  | .outline b => .outline (change b)

/-- A document with its children changed. -/
def Document.mapChildren (change : List Child → List Child) (d : Document) : Document :=
  { d with feature? := d.feature?.map fun f => { f with children := change f.children } }

/-- A document up to the place of an error in the child with number `m`, which is its last. -/
def Document.cutAt (d : Document) (e : RaggedError) (m n : Nat) : Document :=
  d.mapChildren fun cs => (cs.take (m + 1)).modify m (·.mapBlock (·.cutAt e n))

/-- A document up to the child with number `m`, which it does not have. -/
def Document.upTo (d : Document) (m : Nat) : Document :=
  d.mapChildren (·.take m)

/-- An atlas without the link from a feature to a node; the feature has the given background. -/
def Atlas.unlist (a : Atlas) (feature : FeatureId) (node : ScenarioId)
    (background : Option ScenarioId) : Atlas :=
  { a with features := a.features.modify feature fun f =>
      { f with children := f.children.filter (· ≠ node), background := background } }

/-! ## Every document that fails breaks somewhere -/

section

variable {document : Path}

theorem StepLine.head?_ragged_eq_none_iff {s : StepLine} :
    (s.ragged document).head? = none ↔ s.IsSound := by
  rw [← StepPlan.failure_ofLine]
  exact Progress.failure_ofExcept_eq_none_iff (fun _ _ => StepPlan.ofLine_eq_ok_iff) s

theorem ExamplesBlock.head?_ragged_eq_none_iff {e : ExamplesBlock} :
    (e.ragged document).head? = none ↔ e.IsSound := by
  rw [← ExamplesPlan.failure_ofBlock]
  exact Progress.failure_ofExcept_eq_none_iff (fun _ _ => ExamplesPlan.ofBlock_eq_ok_iff) e

/-- The first error among those of items is that of an item before which there are none. -/
theorem exists_of_head?_flatMap {α β : Type} {f : α → List β} {as : List α} {b : β}
    (h : (as.flatMap f).head? = some b) :
    ∃ n a, as[n]? = some a ∧ (f a).head? = some b ∧ ∀ x ∈ as.take n, (f x).head? = none := by
  rw [List.head?_flatMap, List.findSome?_eq_some_iff] at h
  obtain ⟨before, a, after, rfl, ha, hbefore⟩ := h
  exact ⟨before.length, a, by simp, ha, by simpa using hbefore⟩

theorem Child.exists_breaksAt {c : Child} {e : RaggedError}
    (h : (c.ragged document).head? = some e) : ∃ n, c.block.BreaksAt document c.kind e n := by
  rw [ragged, List.head?_append, Option.or_eq_some_iff] at h
  rcases h with hsteps | ⟨hsound, hexamples⟩
  · obtain ⟨n, s, hs, he, hbefore⟩ := exists_of_head?_flatMap hsteps
    have hkind : ∃ r, e = .table r := by
      unfold StepLine.ragged at he
      split at he
      · rw [List.head?_map, Option.map_eq_some_iff] at he
        obtain ⟨r, -, rfl⟩ := he
        exact ⟨r, rfl⟩
      · cases he
    obtain ⟨r, rfl⟩ := hkind
    exact ⟨n, fun x hx => StepLine.head?_ragged_eq_none_iff.1 (hbefore x hx), s, hs, he⟩
  · by_cases houtline : c.kind = .outline
    · rw [if_pos houtline] at hexamples
      obtain ⟨n, x, hx, he, hbefore⟩ := exists_of_head?_flatMap hexamples
      rw [ExamplesBlock.ragged, List.head?_map, Option.map_eq_some_iff] at he
      obtain ⟨r, hr, rfl⟩ := he
      rw [← Block.failure_checkedSteps, Block.failure_checkedSteps_eq_none_iff] at hsound
      refine ⟨n, houtline, hsound, ?_, x, hx, ?_⟩
      · exact fun x hx => ExamplesBlock.head?_ragged_eq_none_iff.1 (hbefore x hx)
      · rw [ExamplesBlock.ragged, List.head?_map, hr]
        rfl
    · rw [if_neg houtline] at hexamples
      cases hexamples

end

theorem Document.exists_breaksAt {d : Document} {filter : TagFilter} {e : RaggedError}
    (h : (d.ragged filter).head? = some e) : ∃ m n, d.BreaksAt filter e m n := by
  unfold ragged at h
  split at h
  · cases h
  · next f hfeature =>
    split at h
    · cases h
    · next hkept =>
      obtain ⟨m, c, hc, he, hbefore⟩ := exists_of_head?_flatMap h
      cases hleft : ChildPlan.leavesOut filter c with
      | true => simp [hleft] at he
      | false =>
        rw [hleft, if_neg (by simp)] at he
        obtain ⟨n, hn⟩ := Child.exists_breaksAt he
        refine ⟨m, n, f, c, hfeature, by simpa using hkept, ?_, hc, hleft, hn⟩
        intro x hx hxkept
        have hx := hbefore x hx
        rw [hxkept, if_neg (by simp), ← BlockPlan.failure_ofBlock] at hx
        exact BlockPlan.ofBlock_failure_eq_none_iff.1 hx

/-! ## The plans of the whole and of the cut document -/

/-- How much of a block is in its plan if it ends with an error. -/
def RaggedError.extent : RaggedError → Extent
  | .table _ => .upToStep
  | .examples _ => .upToExamples

/-- Checked items up to the first that fails. -/
theorem Progress.collect_of_first {ε α β : Type} {check : α → Except ε β} {sound : α → Prop}
    {plan : α → β} (hcheck : ∀ a b, check a = .ok b ↔ sound a ∧ b = plan a) {as : List α} {n : Nat}
    {a : α} {e : ε} (ha : as[n]? = some a) (hbefore : ∀ x ∈ as.take n, sound x)
    (he : (ofExcept (check a)).failure = some e) :
    collect (fun a => ofExcept (check a)) as = ⟨(as.take n).map plan, some e⟩ := by
  have hnone := (failure_collect_eq_none_iff hcheck (as.take n)).2 hbefore
  have hdone : (ofExcept (check a)).done = [] := by
    cases h : check a with
    | ok b => simp [ofExcept, h] at he
    | error e => rfl
  conv_lhs => rw [eq_take_append_cons_drop ha]
  rw [collect_append hnone, collect_cons, he, done_collect_of_sound hcheck hbefore]
  simp only [hdone, List.append_nil]

namespace Block

variable {document : Path} {kind : ScenarioKind} {b : Block} {e : RaggedError} {n : Nat}

theorem BreaksAt.isSound_cutAt (h : b.BreaksAt document kind e n) :
    (b.cutAt e n).IsSound kind := by
  cases e with
  | table r => exact ⟨h.1, fun _ => by simp [cutAt]⟩
  | examples r => exact ⟨h.2.1, fun _ => h.2.2.1⟩

/-- The plan of a block that breaks is the plan of what comes before, apart from its extent. -/
theorem BreaksAt.ofBlock_eq (h : b.BreaksAt document kind e n) :
    BlockPlan.ofBlock document kind b =
      ({ (b.cutAt e n).plan kind with extent := e.extent }, some e) := by
  cases e with
  | table r =>
    obtain ⟨hbefore, s, hs, he⟩ := h
    rw [← StepPlan.failure_ofLine] at he
    have hchecked : b.checkedSteps document = ⟨(b.steps.take n).map (·.plan), some (.table r)⟩ :=
      Progress.collect_of_first (fun _ _ => StepPlan.ofLine_eq_ok_iff) hs hbefore he
    rw [Building.ofBlock_of_step_failure (e := .table r) (by rw [hchecked]), planWith, hchecked]
    cases kind <;> rfl
  | examples r =>
    obtain ⟨rfl, hsteps, hbefore, x, hx, he⟩ := h
    rw [← ExamplesPlan.failure_ofBlock] at he
    have hchecked : b.checkedExamples document .outline =
        ⟨(b.examples.take n).map (·.plan), some (.examples r)⟩ :=
      Progress.collect_of_first (fun _ _ => ExamplesPlan.ofBlock_eq_ok_iff) hx hbefore he
    have hnone : (b.checkedSteps document).failure = none :=
      failure_checkedSteps_eq_none_iff.2 hsteps
    simp only [BlockPlan.ofBlock, hnone, hchecked, planWith, done_checkedSteps_of_sound hsteps]
    rfl

end Block

namespace Child

@[simp] theorem kind_mapBlock (change : Block → Block) (c : Child) :
    (c.mapBlock change).kind = c.kind := by
  cases c <;> rfl

@[simp] theorem block_mapBlock (change : Block → Block) (c : Child) :
    (c.mapBlock change).block = change c.block := by
  cases c <;> rfl

/-- Whether a child is left out depends on its tags, which a cut keeps. -/
theorem leavesOut_cutAt (filter : TagFilter) (e : RaggedError) (n : Nat) (c : Child) :
    ChildPlan.leavesOut filter (c.mapBlock (·.cutAt e n)) = ChildPlan.leavesOut filter c := by
  cases c <;> cases e <;> rfl

end Child

/-- The plan of a feature with these plans of its children. -/
def FeatureBlock.planWith (f : FeatureBlock) (children : List ChildPlan) : FeaturePlan :=
  ⟨f.keyword, f.title, f.description, commentText f.comments, f.position.line, tagTexts f.tags,
    children⟩

namespace Document

variable {d : Document} {filter : TagFilter} {f : FeatureBlock}

theorem plan_of_kept (hfeature : d.feature? = some f)
    (hkept : filter.excludes (tagTexts f.tags) = false) :
    let children := Progress.collect (ChildPlan.ofChild d.path filter) f.children
    d.plan filter = .feature (f.planWith children.done) children.failure := by
  simp only [plan, hfeature, hkept, Bool.false_eq_true, if_false]
  rfl

/-- The plan of a document that breaks, of the cut document, and of the document up to the child in
which it breaks. -/
theorem BreaksAt.plan_eq {e : RaggedError} {m n : Nat} (h : d.BreaksAt filter e m n) :
    ∃ (f : FeatureBlock) (before : List ChildPlan) (b : BlockPlan),
      d.plan filter =
        .feature (f.planWith (before ++ [.kept { b with extent := e.extent }])) (some e) ∧
      (d.cutAt e m n).plan filter = .feature (f.planWith (before ++ [.kept b])) none ∧
      (d.upTo m).plan filter = .feature (f.planWith before) none ∧
      b.extent = .whole ∧ ∀ r, e = .table r → b.examples = [] := by
  obtain ⟨f, c, hfeature, hkept, hbefore, hc, hleft, hbreak⟩ := h
  let work := ChildPlan.ofChild d.path filter
  have hnone : (Progress.collect work (f.children.take m)).failure = none := by
    rw [Progress.failure_collect, List.findSome?_eq_none_iff]
    intro x hx
    simp only [work, ChildPlan.ofChild]
    split
    · rfl
    · next hxkept =>
      exact BlockPlan.ofBlock_failure_eq_none_iff.2 (hbefore x hx (by simpa using hxkept))
  have hwhole : Progress.collect work f.children =
      ⟨(Progress.collect work (f.children.take m)).done ++
        [.kept { (c.block.cutAt e n).plan c.kind with extent := e.extent }], some e⟩ := by
    conv_lhs => rw [eq_take_append_cons_drop hc]
    rw [Progress.collect_append hnone, Progress.collect_cons]
    simp only [work, ChildPlan.ofChild, hleft, Bool.false_eq_true, if_false, hbreak.ofBlock_eq]
  have hcut : Progress.collect work (f.children.take m ++ [c.mapBlock (·.cutAt e n)]) =
      ⟨(Progress.collect work (f.children.take m)).done ++
        [.kept ((c.block.cutAt e n).plan c.kind)], none⟩ := by
    have hsound : BlockPlan.ofBlock d.path c.kind (c.block.cutAt e n) = _ :=
      BlockPlan.ofBlock_of_isSound hbreak.isSound_cutAt
    rw [Progress.collect_append hnone, Progress.collect_cons]
    simp only [work, ChildPlan.ofChild, Child.leavesOut_cutAt, hleft, Bool.false_eq_true, if_false,
      Child.kind_mapBlock, Child.block_mapBlock, hsound]
    rfl
  have hchildren : (f.children.take (m + 1)).modify m (·.mapBlock (·.cutAt e n)) =
      f.children.take m ++ [c.mapBlock (·.cutAt e n)] := by
    have hm : (f.children.take m).length = m :=
      List.length_take_of_le (Nat.le_of_lt (List.getElem?_eq_some_iff.1 hc).1)
    rw [List.take_add_one, hc, List.modify_eq_take_drop]
    simp [hm]
  have hmap (change : List Child → List Child) : (d.mapChildren change).feature? =
      some { f with children := change f.children } := by
    simp [mapChildren, hfeature]
  refine ⟨f, (Progress.collect work (f.children.take m)).done,
    (c.block.cutAt e n).plan c.kind, ?_, ?_, ?_, rfl, ?_⟩
  · rw [plan_of_kept hfeature hkept]
    exact congrArg (fun p => DocumentPlan.feature (f.planWith p.done) p.failure) hwhole
  · rw [cutAt, plan_of_kept (hmap _) hkept]
    dsimp only
    rw [hchildren]
    exact congrArg (fun p => DocumentPlan.feature (f.planWith p.done) p.failure) hcut
  · rw [upTo, plan_of_kept (hmap _) hkept]
    exact congrArg (DocumentPlan.feature _) hnone
  · rintro r rfl
    cases c <;> rfl

end Document

/-! ## The atlas after the whole and after the cut document -/

namespace Growth

variable {g : Growth} (f : Feature) (document : Path)

/-- The children of a feature are nodes that its blocks have added. -/
theorem lt_of_mem_children_addAll (cs : List ChildPlan)
    (h : ∀ id ∈ g.children, id.index < g.atlas.scenarios.size) :
    ∀ id ∈ (g.addAll document cs).children,
      id.index < (g.addAll document cs).atlas.scenarios.size := by
  induction cs generalizing g with
  | nil => exact h
  | cons c cs ih =>
    refine ih ?_
    cases c with
    | excluded kind title line => exact h
    | kept b =>
      have hsize : (g.addBlock document b).atlas.scenarios.size =
          g.atlas.scenarios.size + (b.bindings.length + 1) := by
        simp [addBlock, Atlas.place]
      intro id hid
      have hid' : id ∈ g.children ∨ id = g.atlas.scenarios.nextId := by
        simp only [add, addBlock] at hid
        split at hid
        · exact (List.mem_append.1 hid).imp_right List.mem_singleton.1
        · exact Or.inl hid
      change id.index < (g.addBlock document b).atlas.scenarios.size
      rw [hsize]
      rcases hid' with hid | rfl
      · exact Nat.lt_add_right _ (h id hid)
      · simp

/-- A block that ends at a ragged examples block is added like a whole one. -/
theorem addBlock_upToExamples {b : BlockPlan} (hwhole : b.extent = .whole) :
    g.addBlock document { b with extent := .upToExamples } = g.addBlock document b := by
  have hlisted : BlockPlan.isListed { b with extent := .upToExamples } = b.isListed := by
    simp [BlockPlan.isListed, hwhole]
  simp only [addBlock, hlisted]
  rfl

/-- A block that ends at a ragged table of a step is added like a whole one, but not listed. -/
theorem close_addBlock_upToStep (b : BlockPlan)
    (h : ∀ id ∈ g.children, id.index < g.atlas.scenarios.size) :
    (g.addBlock document { b with extent := .upToStep }).close f =
      ((g.addBlock document b).close f).unlist g.atlas.features.nextId g.atlas.scenarios.nextId
        g.background := by
  let node := g.atlas.scenarios.nextId
  let cut := { b with extent := .upToStep }
  have hnode : node ∉ g.children := fun hmem => Nat.lt_irrefl _ (h node hmem)
  have hold : g.children.filter (· ≠ node) = g.children := by
    rw [List.filter_eq_self]
    intro id hid
    rw [decide_eq_true_eq]
    rintro rfl
    exact hnode hid
  have hchildren : (g.addBlock document cut).children =
      (g.addBlock document b).children.filter (· ≠ node) := by
    have hcut : (g.addBlock document cut).children = g.children := by
      simp [addBlock, BlockPlan.isListed, cut]
    rw [hcut]
    simp only [addBlock]
    split
    · rw [List.filter_append, hold]
      simp [node, nextSite, Atlas.nextSite]
    · exact hold.symm
  have hbackground : (g.addBlock document cut).background = g.background := by
    simp [addBlock, BlockPlan.isListed, cut]
  have hfeatures : (g.addBlock document b).atlas.features = g.atlas.features := rfl
  have hatlas : (g.addBlock document cut).atlas = (g.addBlock document b).atlas := rfl
  change (g.addBlock document cut).close f = _
  rw [close, hatlas, hchildren, hbackground]
  simp only [Atlas.unlist, close, hfeatures, Arena.modify_push]
  rfl

end Growth

namespace Atlas

theorem addFeature_planWith_append (a : Atlas) (document : Path) (f : FeatureBlock)
    (children : List ChildPlan) (b : BlockPlan) :
    let start := (f.planWith []).start a document
    a.addFeature document (f.planWith (children ++ [.kept b])) =
      ((start.1.addAll document children).addBlock document b).close
        ⟨(f.planWith []).heading document, start.2, [], none⟩ := by
  intro start
  change (start.1.addAll document (children ++ [.kept b])).close _ = _
  rw [Growth.addAll_append]
  rfl

/-- Adding a document fails just if it breaks somewhere. Then the document that is cut at this place
is added without an error. If an examples block is to blame, both leave the same atlas. If the table
of a step is to blame, the failed addition leaves the atlas of the cut document, except that the
feature does not list its last node, and has the background it had before that child. -/
theorem addDocument_breaksAt (a : Atlas) (d : Document) (filter : TagFilter) (e : RaggedError) :
    let feature := a.features.nextId
    let failed := a.addDocument d filter
    (failed.outcome = .error e ↔ ∃ m n, d.BreaksAt filter e m n) ∧
      ∀ m n, d.BreaksAt filter e m n →
        let cut := a.addDocument (d.cutAt e m n) filter
        cut.outcome = .ok (some feature) ∧
          match e with
          | .examples _ => failed.atlas = cut.atlas
          | .table _ =>
            let before := a.addDocument (d.upTo m) filter
            let node := before.atlas.scenarios.nextId
            before.outcome = .ok (some feature) ∧
              cut.atlas.scenarios.nextId = node.shift 1 ∧
              failed.atlas = cut.atlas.unlist feature node
                ((before.atlas.feature? feature).bind (·.background)) := by
  intro feature failed
  constructor
  · constructor
    · intro h
      exact Document.exists_breaksAt ((a.outcome_addDocument_eq_error_iff d filter e).1 h)
    · rintro ⟨m, n, h⟩
      obtain ⟨f, before, b, hplan, -⟩ := h.plan_eq
      simp only [failed, addDocument_eq_carryOut, hplan, DocumentPlan.carryOut]
  · intro m n h cut
    obtain ⟨f, children, b, hplan, hcutPlan, hbeforePlan, hwhole, hexamples⟩ := h.plan_eq
    have hfailed : failed.atlas = a.addFeature d.path
        (f.planWith (children ++ [.kept { b with extent := e.extent }])) := by
      simp only [failed, addDocument_eq_carryOut, hplan, DocumentPlan.carryOut]
    have hcut : cut = ⟨a.addFeature d.path (f.planWith (children ++ [.kept b])),
        .ok (some feature)⟩ := by
      simp only [cut, addDocument_eq_carryOut, hcutPlan, DocumentPlan.carryOut]
      rfl
    have hbefore : a.addDocument (d.upTo m) filter =
        ⟨a.addFeature d.path (f.planWith children), .ok (some feature)⟩ := by
      simp only [addDocument_eq_carryOut, hbeforePlan, DocumentPlan.carryOut]
      rfl
    rw [hcut, hfailed]
    refine ⟨rfl, ?_⟩
    cases e with
    | examples r =>
      dsimp only
      rw [addFeature_planWith_append, addFeature_planWith_append]
      exact congrArg (Growth.close · _) (Growth.addBlock_upToExamples d.path hwhole)
    | table r =>
      let start := (f.planWith []).start a d.path
      let g := start.1.addAll d.path children
      let node : Feature := ⟨(f.planWith []).heading d.path, start.2, [], none⟩
      have hgrown : a.addFeature d.path (f.planWith children) = g.close node := rfl
      have hfeatures : g.atlas.features = a.features := Growth.features_addAll _ _ _
      have hbackground : ((g.close node).feature? feature).bind (·.background) = g.background := by
        simp [feature?, Growth.close, hfeatures, feature]
      have hlt : ∀ id ∈ g.children, id.index < g.atlas.scenarios.size :=
        Growth.lt_of_mem_children_addAll d.path children fun _ hid => by cases hid
      dsimp only
      rw [hbefore, hgrown, hbackground, addFeature_planWith_append, addFeature_planWith_append]
      refine ⟨rfl, ?_, ?_⟩
      · have hbindings : b.bindings = [] := by simp [BlockPlan.bindings, hexamples r rfl]
        change (g.atlas.scenarios.append _).nextId = _
        rw [Arena.nextId_append, BlockPlan.length_nodes, hbindings]
        rfl
      · have hfailed := g.close_addBlock_upToStep node d.path b hlt
        rwa [hfeatures] at hfailed

end Atlas

/-- A step with a table of two rows, of which the second lacks a cell. -/
def StepLine.spilt (line : Nat) : StepLine :=
  ⟨"Given", "a table", [], ⟨line, 5⟩,
    some (.table [⟨⟨line + 1, 7⟩, ["soup", "salad"]⟩, ⟨⟨line + 2, 7⟩, ["soup"]⟩] ⟨line + 1, 7⟩)⟩

/-- A feature with a background, an unfinished scenario with a ragged table, and another child. -/
def FeatureBlock.dinner (last : Child) : FeatureBlock where
  keyword := "Feature"
  title := "Dinner"
  description := ""
  comments := []
  position := ⟨1, 1⟩
  tags := []
  children :=
    [.background ⟨"Background", "", "", [], ⟨2, 3⟩, [], [], []⟩,
      .scenario ⟨"Scenario", "Later", "", [], ⟨4, 3⟩, [⟨"@wip", ⟨3, 3⟩⟩], [.spilt 5], []⟩, last]

/-- A background of which the second step has a ragged table. -/
def Child.spiltBackground : Child :=
  .background ⟨"Background", "", "", [], ⟨9, 3⟩, [],
    [⟨"Given", "a cook", [], ⟨10, 5⟩, none⟩, .spilt 11], []⟩

/-- An outline of which the second examples block has a row without cells. -/
def Child.spiltOutline : Child :=
  .outline ⟨"Scenario Outline", "Eating", "", [], ⟨9, 3⟩, [],
    [⟨"When", "I eat <n>", [], ⟨10, 5⟩, none⟩],
    [⟨"Examples", "", [], ⟨11, 5⟩, some ⟨⟨12, 7⟩, ["n"]⟩, [⟨⟨13, 7⟩, ["1"]⟩, ⟨⟨14, 7⟩, ["2"]⟩]⟩,
      ⟨"Examples", "", [], ⟨15, 5⟩, some ⟨⟨16, 7⟩, ["n"]⟩, [⟨⟨17, 7⟩, []⟩]⟩]⟩

/-- A dinner that fails in a second background, which then is not the feature's, and one that fails
in an outline, which then has its first two instances. -/
theorem Atlas.addDocument_breaksAt_dinner :
    let path : Path := ⟨"dinner.feature"⟩
    let wip := TagFilter.ofTags ["wip"]
    let tabled : Document := ⟨path, some (.dinner .spiltBackground)⟩
    let exemplified : Document := ⟨path, some (.dinner .spiltOutline)⟩
    let cutTable := Atlas.empty.addDocument (tabled.cutAt (.table ⟨path, 13, 1, 2, 1⟩) 2 1) wip
    let cutExamples :=
      Atlas.empty.addDocument (exemplified.cutAt (.examples ⟨path, 17, 0, 1, 0⟩) 2 1) wip
    tabled.BreaksAt wip (.table ⟨path, 13, 1, 2, 1⟩) 2 1 ∧
      exemplified.BreaksAt wip (.examples ⟨path, 17, 0, 1, 0⟩) 2 1 ∧
      (Atlas.empty.addDocument tabled wip).atlas =
        cutTable.atlas.unlist ⟨0⟩ ⟨1⟩ (some ⟨0⟩) ∧
      (Atlas.empty.addDocument exemplified wip).atlas = cutExamples.atlas ∧
      cutExamples.atlas.countOf .example = 2 := by
  intro path wip tabled exemplified cutTable cutExamples
  -- Of the first two children, one is without steps, and the other is left out.
  have hbefore (last : Child) : ∀ c ∈ (FeatureBlock.dinner last).children.take 2,
      ChildPlan.leavesOut wip c = false → c.block.IsSound c.kind := by
    intro c hc hkept
    simp only [FeatureBlock.dinner, List.take_succ_cons, List.take_zero, List.mem_cons,
      List.not_mem_nil, or_false] at hc
    rcases hc with rfl | rfl
    · exact ⟨fun s hs => absurd hs List.not_mem_nil, fun hkind => nomatch hkind⟩
    · exact absurd hkept (by decide)
  have hplain (keyword text : String) (line : Nat) :
      StepLine.IsSound ⟨keyword, text, [], ⟨line, 5⟩, none⟩ := by
    simp [StepLine.IsSound, StepLine.table?]
  have htable : tabled.BreaksAt wip (.table ⟨path, 13, 1, 2, 1⟩) 2 1 := by
    refine ⟨_, _, rfl, by decide, hbefore _, rfl, rfl, ?_, _, rfl, by decide⟩
    intro s hs
    rw [List.mem_singleton.1 hs]
    exact hplain _ _ _
  have hexamples : exemplified.BreaksAt wip (.examples ⟨path, 17, 0, 1, 0⟩) 2 1 := by
    refine ⟨_, _, rfl, by decide, hbefore _, rfl, by decide, rfl, ?_, ?_, _, rfl, by decide⟩
    · intro s hs
      rw [List.mem_singleton.1 hs]
      exact hplain _ _ _
    · intro e he
      rw [List.mem_singleton.1 he]
      simp [ExamplesBlock.IsSound, ExamplesBlock.columns]
  obtain ⟨-, htables⟩ := addDocument_breaksAt Atlas.empty tabled wip (.table ⟨path, 13, 1, 2, 1⟩)
  obtain ⟨-, hblocks⟩ :=
    addDocument_breaksAt Atlas.empty exemplified wip (.examples ⟨path, 17, 0, 1, 0⟩)
  refine ⟨htable, hexamples, ?_, (hblocks 2 1 hexamples).2, by decide⟩
  exact (htables 2 1 htable).2.2.2

end FeatureAtlas
