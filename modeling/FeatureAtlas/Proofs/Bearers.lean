import FeatureAtlas.Proofs.Addition
import FeatureAtlas.Proofs.Mentions

/-!
# Who carries tags

A `Bearer` is a node that carries tags, with its place and its raw tags. Adding a feature makes one
of the feature itself, and one of every child that is kept; instances of outlines come between them
and carry nothing. As ids are counted, the bearers of a feature are known before it is added, and
the index records what they mention in their order: `Atlas.tags_addFeature`.
-/

namespace FeatureAtlas

/-- A node that carries tags: its id, its place, and the tags as they are written. -/
structure Bearer where
  owner : TagOwner
  place : Occurrence
  tags : List String
deriving DecidableEq, Repr

namespace Bearer

/-- The mentions that a node makes, in the order of its tags. -/
def mentions (b : Bearer) : List Mention :=
  b.tags.map fun raw => ⟨raw, b.owner, b.place⟩

theorem mem_mentions {b : Bearer} {m : Mention} :
    m ∈ b.mentions ↔ m.raw ∈ b.tags ∧ m.owner = b.owner ∧ m.occurrence = b.place := by
  simp only [mentions, List.mem_map]
  constructor
  · rintro ⟨raw, hraw, rfl⟩
    exact ⟨hraw, rfl, rfl⟩
  · rintro ⟨hraw, howner, hplace⟩
    exact ⟨m.raw, hraw, by rw [← howner, ← hplace]⟩

end Bearer

/-- The node of a block as a bearer. -/
def BlockPlan.bearer (document : Path) (id : ScenarioId) (b : BlockPlan) : Bearer :=
  ⟨.scenario id, ⟨document, b.line⟩, b.tags⟩

/-- How many scenarios children add: their own nodes, and one for each instance. -/
def ChildPlan.nodeCount : List ChildPlan → Nat
  | [] => 0
  | .excluded .. :: cs => nodeCount cs
  | .kept b :: cs => b.bindings.length + 1 + nodeCount cs

/-- The bearers among children, of which the first node has the given id. -/
def ChildPlan.bearers (document : Path) : ScenarioId → List ChildPlan → List Bearer
  | _, [] => []
  | id, .excluded .. :: cs => bearers document id cs
  | id, .kept b :: cs =>
    b.bearer document id :: bearers document (id.shift (b.bindings.length + 1)) cs

/-- The node of a feature as a bearer. -/
def FeaturePlan.bearer (document : Path) (id : FeatureId) (p : FeaturePlan) : Bearer :=
  ⟨.feature id, ⟨document, p.line⟩, p.tags⟩

/-- How many scenarios a feature adds. -/
def FeaturePlan.nodeCount (p : FeaturePlan) : Nat := ChildPlan.nodeCount p.children

/-- The bearers of a feature with the given id, of whose scenarios the first has the other. -/
def FeaturePlan.bearers (document : Path) (feature : FeatureId) (scenario : ScenarioId)
    (p : FeaturePlan) : List Bearer :=
  p.bearer document feature :: ChildPlan.bearers document scenario p.children

theorem Growth.nextId_addBlock (g : Growth) (document : Path) (b : BlockPlan) :
    (g.addBlock document b).atlas.scenarios.nextId =
      g.atlas.scenarios.nextId.shift (b.bindings.length + 1) := by
  simp [addBlock, Atlas.place]

theorem Growth.nextId_addAll (document : Path) (g : Growth) (cs : List ChildPlan) :
    (g.addAll document cs).atlas.scenarios.nextId =
      g.atlas.scenarios.nextId.shift (ChildPlan.nodeCount cs) := by
  induction cs generalizing g with
  | nil => rfl
  | cons c cs ih =>
    cases c with
    | excluded kind title line => exact ih g
    | kept b =>
      rw [addAll_cons, add, ih, nextId_addBlock, NodeId.shift_shift]
      rfl

theorem Atlas.nextId_addFeature (a : Atlas) (document : Path) (p : FeaturePlan) :
    (a.addFeature document p).features.nextId = a.features.nextId.shift 1 ∧
      (a.addFeature document p).scenarios.nextId = a.scenarios.nextId.shift p.nodeCount := by
  let start := (p.start a document).1
  have hfeatures : (start.addAll document p.children).atlas.features = a.features :=
    Growth.features_addAll _ _ _
  refine ⟨?_, start.nextId_addAll document p.children⟩
  rw [← hfeatures]
  exact Arena.nextId_push _ _

/-! ## What the index records -/

theorem TagIndex.recordAll_eq_recordEach (ts : TagIndex) (b : Bearer) :
    ts.recordAll b.owner b.place b.tags = ts.recordEach b.mentions := by
  obtain ⟨owner, place, raws⟩ := b
  induction raws generalizing ts with
  | nil => rfl
  | cons raw raws ih =>
    have hrest := ih (ts.record raw owner place).1
    simp only [Bearer.mentions, recordAll, List.map_cons, recordEach_cons] at hrest ⊢
    rw [hrest]

theorem Atlas.recordBlock_eq (a : Atlas) (site : Site) (b : BlockPlan) :
    a.recordBlock site b =
      a.tags.recordEach (b.bearer site.file site.scenario).mentions :=
  a.tags.recordAll_eq_recordEach (b.bearer site.file site.scenario)

theorem FeaturePlan.start_eq (p : FeaturePlan) (a : Atlas) (document : Path) :
    let recorded := a.tags.recordEach (p.bearer document a.features.nextId).mentions
    p.start a document = (⟨{ a with tags := recorded.1 }, [], none⟩, recorded.2.eraseDups) := by
  intro recorded
  have hrecorded := a.tags.recordAll_eq_recordEach (p.bearer document a.features.nextId)
  simp only [start, recorded, ← hrecorded]
  rfl

/-- The children of a feature are recorded in their order. -/
theorem Growth.tags_addAll (document : Path) (g : Growth) (cs : List ChildPlan) :
    (g.addAll document cs).atlas.tags =
      (g.atlas.tags.recordEach
        ((ChildPlan.bearers document g.atlas.scenarios.nextId cs).flatMap Bearer.mentions)).1 := by
  induction cs generalizing g with
  | nil => rfl
  | cons c cs ih =>
    cases c with
    | excluded kind title line => exact ih g
    | kept b =>
      have htags : (g.addBlock document b).atlas.tags =
          (g.atlas.tags.recordEach
            (b.bearer document g.atlas.scenarios.nextId).mentions).1 :=
        congrArg Prod.fst (g.atlas.recordBlock_eq (g.nextSite document) b)
      rw [addAll_cons, add, ih, nextId_addBlock, htags, ChildPlan.bearers, List.flatMap_cons,
        TagIndex.recordEach_append]

/-- A feature is recorded before its children. -/
theorem Atlas.tags_addFeature (a : Atlas) (document : Path) (p : FeaturePlan) :
    (a.addFeature document p).tags =
      (a.tags.recordEach
        ((p.bearers document a.features.nextId a.scenarios.nextId).flatMap
          Bearer.mentions)).1 := by
  have hadded : (a.addFeature document p).tags =
      ((p.start a document).1.addAll document p.children).atlas.tags := rfl
  rw [hadded, Growth.tags_addAll, p.start_eq, FeaturePlan.bearers, List.flatMap_cons,
    TagIndex.recordEach_append]

end FeatureAtlas
