import FeatureAtlas.Atlas.Addition
import FeatureAtlas.Proofs.Placement

/-!
# Adding a document carries out its plan

`Atlas.addDocument` builds a document node by node; `DocumentPlan.carryOut` says what its plan
amounts to. The main statement, `addDocument_eq_carryOut`, is that the two agree on every atlas,
document and filter, in the atlas that is left as well as in the outcome. The feature's node is
opened before its children and appended after them, so the induction over the children relates an
atlas that holds the node to a `Growth` that does not yet.
-/

namespace FeatureAtlas

/-- What a plan amounts to: the atlas it leaves, and how the addition ends. -/
def DocumentPlan.carryOut (a : Atlas) (document : Path) : DocumentPlan → Addition
  | .noFeature => ⟨a, .ok none⟩
  | .excluded _ => ⟨a, .ok none⟩
  | .feature plan none => ⟨a.addFeature document plan, .ok (some a.features.nextId)⟩
  | .feature plan (some e) => ⟨a.addFeature document plan, .error e⟩

namespace Growth

variable (g : Growth) (f : Feature)

/-- A feature that is being built is known by its children so far. -/
theorem childName_close : (g.close f).childName g.atlas.features.nextId =
    "scenario_" ++ toString g.children.length := by
  simp [Atlas.childName, Atlas.feature?, close]

theorem addChild_close (id : ScenarioId) :
    (g.close f).addChild g.atlas.features.nextId id =
      { g with children := g.children ++ [id] }.close f := by
  simp only [Atlas.addChild, close, Arena.modify_push]

theorem setBackground_close (id : ScenarioId) :
    (g.close f).setBackground g.atlas.features.nextId id =
      { g with background := some id }.close f := by
  simp only [Atlas.setBackground, close, Arena.modify_push]

/-- A background is placed like any block, and then made the feature's if it is listed. -/
theorem addBlock_background (document : Path) {b : BlockPlan} (hkind : b.kind = .background) :
    let a := g.close f
    let placed := a.place (a.nextSite document g.atlas.features.nextId) "background" b
    (g.addBlock document b).close f =
      if b.isListed then placed.setBackground g.atlas.features.nextId a.scenarios.nextId
      else placed := by
  intro a placed
  let grown : Growth := { g with atlas := g.atlas.place (g.nextSite document) "background" b }
  have hplaced : placed = grown.close f := rfl
  rw [hplaced]
  split
  · next hlisted =>
    refine Eq.trans ?_ (grown.setBackground_close f a.scenarios.nextId).symm
    simp only [addBlock, hlisted, hkind, nextName]
    rfl
  · next hlisted =>
    simp only [addBlock, hlisted, hkind, nextName]
    rfl

/-- A child is placed under the next number, and then put among the feature's children if it is
listed. -/
theorem addBlock_child (document : Path) {b : BlockPlan} (hkind : b.kind ≠ .background) :
    let a := g.close f
    let name := a.childName g.atlas.features.nextId
    let placed := a.place (a.nextSite document g.atlas.features.nextId) name b
    (g.addBlock document b).close f =
      if b.isListed then placed.addChild g.atlas.features.nextId a.scenarios.nextId
      else placed := by
  intro a name placed
  have hname : g.nextName b.kind = name := by
    have hclose : name = "scenario_" ++ toString g.children.length := childName_close g f
    rw [hclose, g.nextName_of_ne hkind]
  let grown : Growth := { g with atlas := g.atlas.place (g.nextSite document) name b }
  have hplaced : placed = grown.close f := rfl
  rw [hplaced]
  split
  · next hlisted =>
    refine Eq.trans ?_ (grown.addChild_close f a.scenarios.nextId).symm
    simp only [addBlock, hlisted, hkind, hname, ne_eq, not_false_eq_true, and_self, and_false,
      if_true, if_false]
    rfl
  · next hlisted =>
    simp only [addBlock, hlisted, hname]
    rfl

end Growth

theorem BlockPlan.kind_ofBlock (document : Path) (kind : ScenarioKind) (b : Block) :
    (BlockPlan.ofBlock document kind b).1.kind = kind := by
  simp only [BlockPlan.ofBlock]
  split <;> rfl

namespace Building

variable {document : Path} {filter : TagFilter}

/-- A result put in place of another does not change how work ends. -/
theorem run_bind_pure {α β : Type} {x : Building α} {failure : Option RaggedError} {result : α}
    {a a' : Atlas} (h : EStateM.run x a = ended failure result a') (other : β) :
    EStateM.run (x >>= fun _ => pure other) a = ended failure other a' := by
  rw [EStateM.run_bind, h]
  cases failure <;> rfl

theorem run_discard {α : Type} {x : Building α} {failure : Option RaggedError} {result : α}
    {a a' : Atlas} (h : EStateM.run x a = ended failure result a') :
    EStateM.run (discard x) a = ended failure () a' := by
  simp only [discard, map_const, Function.comp_apply, map_eq_pure_bind]
  exact run_bind_pure h ()

/-- A child of the feature being built grows the atlas by its plan. -/
theorem run_child (g : Growth) (f : Feature) (c : Child) :
    let planned := ChildPlan.ofChild document filter c
    EStateM.run (child document filter g.atlas.features.nextId c) (g.close f) =
      ended planned.failure () ((g.addAll document planned.done).close f) := by
  cases c with
  | background b =>
    have hgrow := g.addBlock_background f document (BlockPlan.kind_ofBlock document .background b)
    rw [child, run_background]
    exact congrArg _ hgrow.symm
  | scenario b =>
    cases hkept : filter.excludes (tagTexts b.tags) with
    | true =>
      simp only [child, scenario, hkept, ChildPlan.ofChild, ChildPlan.leavesOut, if_true]
      rfl
    | false =>
      have hkind : (BlockPlan.ofBlock document .scenario b).1.kind ≠ .background := by
        simp [BlockPlan.kind_ofBlock]
      have hgrow := g.addBlock_child f document hkind
      simp only [child, ChildPlan.ofChild, ChildPlan.leavesOut, hkept, Bool.false_eq_true, if_false]
      exact (run_discard (run_scenario hkept (g.close f))).trans (congrArg _ hgrow.symm)
  | outline b =>
    cases hkept : filter.excludes (tagTexts b.tags) with
    | true =>
      simp only [child, outline, hkept, ChildPlan.ofChild, ChildPlan.leavesOut, if_true]
      rfl
    | false =>
      have hkind : (BlockPlan.ofBlock document .outline b).1.kind ≠ .background := by
        simp [BlockPlan.kind_ofBlock]
      have hgrow := g.addBlock_child f document hkind
      simp only [child, ChildPlan.ofChild, ChildPlan.leavesOut, hkept, Bool.false_eq_true, if_false]
      exact (run_discard (run_outline hkept (g.close f))).trans (congrArg _ hgrow.symm)

/-- The children are built in order, up to the one that a ragged table ends. -/
theorem run_children (g : Growth) (f : Feature) (cs : List Child) :
    let planned := Progress.collect (ChildPlan.ofChild document filter) cs
    EStateM.run (cs.forM (child document filter g.atlas.features.nextId)) (g.close f) =
      ended planned.failure () ((g.addAll document planned.done).close f) := by
  induction cs generalizing g with
  | nil => rfl
  | cons c cs ih =>
    simp only [List.forM_eq_forM, List.forM_cons, EStateM.run_bind, Progress.collect_cons] at ih ⊢
    rw [run_child]
    cases (ChildPlan.ofChild document filter c).failure with
    | some e => rfl
    | none =>
      have hrest := ih (g.addAll document (ChildPlan.ofChild document filter c).done)
      rw [Growth.features_addAll] at hrest
      simp only [ended, Growth.addAll_append]
      exact hrest

/-- Building a document does what its plan says. -/
theorem run_document (d : Document) (a : Atlas) :
    EStateM.run (Building.document filter d) a =
      match d.plan filter with
      | .noFeature | .excluded _ => .ok none a
      | .feature plan failure =>
        ended failure (some a.features.nextId) (a.addFeature d.path plan) := by
  cases hfeature : d.feature? with
  | none =>
    simp only [Building.document, Document.plan, hfeature]
    rfl
  | some f =>
    cases hkept : filter.excludes (tagTexts f.tags) with
    | true =>
      simp only [Building.document, Document.plan, hfeature, feature, hkept, if_true]
      rfl
    | false =>
      let children := Progress.collect (ChildPlan.ofChild d.path filter) f.children
      let plan : FeaturePlan :=
        ⟨f.keyword, f.title, f.description, commentText f.comments, f.position.line,
          tagTexts f.tags, children.done⟩
      let tags := (plan.start a d.path).2
      -- The node that is opened here before the children is the one that closes the plan.
      have hloop : EStateM.run (f.children.forM (child d.path filter a.features.nextId))
          ((plan.start a d.path).1.close ⟨f.heading d.path, tags, [], none⟩) =
            ended children.failure () (a.addFeature d.path plan) :=
        run_children (plan.start a d.path).1 ⟨f.heading d.path, tags, [], none⟩ f.children
      simp only [Building.document, Document.plan, hfeature, feature, hkept, Bool.false_eq_true,
        if_false, EStateM.run_bind, EStateM.run_get, EStateM.run_modify, EStateM.run_pure]
      rw [Atlas.addTags_openFeature]
      exact run_bind_pure hloop (some a.features.nextId)

end Building

/-- Adding a document carries out its plan, on any atlas and under any filter. -/
theorem Atlas.addDocument_eq_carryOut (a : Atlas) (d : Document) (filter : TagFilter) :
    a.addDocument d filter = (d.plan filter).carryOut a d.path := by
  simp only [addDocument, Building.run_document]
  cases d.plan filter with
  | noFeature => rfl
  | excluded title => rfl
  | feature plan failure => cases failure <;> rfl

end FeatureAtlas
