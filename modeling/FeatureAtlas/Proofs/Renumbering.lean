import FeatureAtlas.Proofs.Bearers
import FeatureAtlas.Proofs.Transcript
import Mathlib.Logic.Equiv.Defs

/-!
# Renumbering

Ids say in which order things were added, and nothing else. A `Renumbering` gives every id another
one. What a document adds depends on the atlas by the ids alone: if a renumbering carries the ids
from which one atlas goes on to those from which another does, and the ids of tags by their names,
then the same document adds the same nodes to both, up to the renumbering. This is shown block by
block; `Growth.IsAlike` is what all blocks of a feature keep.
-/

namespace FeatureAtlas

/-- Other ids for those of all kinds. -/
structure Renumbering where
  feature : Equiv.Perm FeatureId
  scenario : Equiv.Perm ScenarioId
  step : Equiv.Perm StepId
  tag : Equiv.Perm TagId

section

variable (ρ : Renumbering)

/-- A feature with other ids in its links. -/
def Feature.renumber (n : Feature) : Feature :=
  { n with
    tags := n.tags.map ρ.tag
    children := n.children.map ρ.scenario
    background := n.background.map ρ.scenario }

/-- An examples block with other ids for its instances. -/
def Examples.renumber (e : Examples) : Examples :=
  { e with instances := e.instances.map ρ.scenario }

/-- A scenario with other ids in its links. -/
def Scenario.renumber (n : Scenario) : Scenario :=
  { n with
    tags := n.tags.map ρ.tag
    steps := n.steps.map ρ.step
    instances := n.instances.map ρ.scenario
    examples := n.examples.map (·.renumber ρ)
    feature := ρ.feature n.feature
    outline := n.outline.map ρ.scenario }

/-- A step with another id for its scenario. -/
def Step.renumber (s : Step) : Step :=
  { s with scenario := ρ.scenario s.scenario }

/-- The other id of a node that carries tags. -/
def TagOwner.renumber : TagOwner → TagOwner
  | .feature id => .feature (ρ.feature id)
  | .scenario id => .scenario (ρ.scenario id)

theorem TagOwner.renumber_inj {n n' : TagOwner} : n.renumber ρ = n'.renumber ρ ↔ n = n' := by
  cases n <;> cases n' <;> simp [renumber]

/-- A bearer with another id. -/
def Bearer.renumber (b : Bearer) : Bearer :=
  { b with owner := b.owner.renumber ρ }

/-- A mention with another id for its node. -/
def Mention.renumber (m : Mention) : Mention :=
  { m with owner := m.owner.renumber ρ }

theorem Bearer.mentions_renumber (b : Bearer) :
    (b.renumber ρ).mentions = b.mentions.map (·.renumber ρ) := by
  rw [mentions, mentions, List.map_map]
  rfl

end

/-! ## Ids in a row -/

/-- A map takes as many ids from one on to those from another on. -/
def NodeId.Carries {kind : NodeKind} (f : NodeId kind → NodeId kind) (id id' : NodeId kind)
    (n : Nat) : Prop :=
  ∀ k < n, f (id.shift k) = id'.shift k

namespace NodeId.Carries

variable {kind : NodeKind} {f : NodeId kind → NodeId kind} {id id' : NodeId kind} {m n : Nat}

theorem mono (h : Carries f id id' n) (hmn : m ≤ n) : Carries f id id' m :=
  fun k hk => h k (Nat.lt_of_lt_of_le hk hmn)

theorem shift (h : Carries f id id' (m + n)) : Carries f (id.shift m) (id'.shift m) n := by
  intro k hk
  rw [shift_shift, shift_shift]
  exact h (m + k) (Nat.add_lt_add_left hk m)

theorem map_run (h : Carries f id id' n) : (id.run n).map f = id'.run n := by
  rw [run, run, List.map_map]
  exact List.map_congr_left fun k hk => h k (List.mem_range.1 hk)

end NodeId.Carries

/-! ## Nodes in a row -/

/-- The same nodes were added to two arenas, up to a map. -/
def Arena.AddAlike {kind : NodeKind} {α : Type} (f : α → α)
    (before after before' after' : Arena kind α) : Prop :=
  ∃ nodes, after = before.append nodes ∧ after' = before'.append (nodes.map f)

namespace Arena.AddAlike

variable {kind : NodeKind} {α : Type} {f : α → α}
  {before between after before' between' after' : Arena kind α}

theorem refl (a a' : Arena kind α) : AddAlike f a a a' a' :=
  ⟨[], a.append_nil.symm, a'.append_nil.symm⟩

theorem append (h : AddAlike f before after before' after') (nodes : List α) :
    AddAlike f before (after.append nodes) before' (after'.append (nodes.map f)) := by
  obtain ⟨earlier, rfl, rfl⟩ := h
  exact ⟨earlier ++ nodes, Arena.append_append _ _ _, by rw [Arena.append_append, List.map_append]⟩

theorem push (a a' : Arena kind α) (node : α) :
    AddAlike f a (a.push node) a' (a'.push (f node)) := by
  refine ⟨[node], ?_, ?_⟩
  · rw [← push_append, append_nil]
  · rw [List.map_singleton, ← push_append, append_nil]

end Arena.AddAlike

/-! ## One block -/

/-- Two places for a block, of which a renumbering carries one to the other. -/
structure Site.IsCarried (ρ : Renumbering) (b : BlockPlan) (site site' : Site) : Prop where
  file : site'.file = site.file
  feature : ρ.feature site.feature = site'.feature
  scenario : NodeId.Carries ρ.scenario site.scenario site'.scenario (b.bindings.length + 1)
  step : NodeId.Carries ρ.step site.step site'.step ((b.bindings.length + 1) * b.steps.length)

theorem placeExamples_renumber {ρ : Renumbering} {first first' : ScenarioId}
    {es : List ExamplesPlan}
    (h : NodeId.Carries ρ.scenario first first' (es.flatMap (·.rows)).length) :
    placeExamples first' es = (placeExamples first es).map (·.renumber ρ) := by
  induction es generalizing first first' with
  | nil => rfl
  | cons e es ih =>
    rw [List.flatMap_cons, List.length_append] at h
    have hinstances := (h.mono (Nat.le_add_right _ _)).map_run
    rw [placeExamples, placeExamples, List.map_cons, ih h.shift]
    simp only [Examples.renumber, hinstances]

namespace Site.IsCarried

variable {ρ : Renumbering} {b : BlockPlan} {site site' : Site}

theorem instanceId (h : site.IsCarried ρ b site') {number : Nat}
    (hnumber : number < b.bindings.length) :
    ρ.scenario (site.instanceId number) = site'.instanceId number :=
  h.scenario (number + 1) (Nat.succ_lt_succ hnumber)

theorem scenario_eq (h : site.IsCarried ρ b site') : ρ.scenario site.scenario = site'.scenario :=
  h.scenario 0 (Nat.succ_pos _)

/-- The steps of the block itself, and of each instance, are ids in a row. -/
theorem map_run_step (h : site.IsCarried ρ b site') {number : Nat}
    (hnumber : number ≤ b.bindings.length) :
    ((site.step.shift (number * b.steps.length)).run b.steps.length).map ρ.step =
      (site'.step.shift (number * b.steps.length)).run b.steps.length := by
  refine (h.step.mono ?_).shift.map_run
  rw [← Nat.succ_mul]
  exact Nat.mul_le_mul_right _ (Nat.succ_le_succ hnumber)

theorem node (h : site.IsCarried ρ b site') (name : String) (tags : List TagId) :
    b.node site' name (tags.map ρ.tag) = (b.node site name tags).renumber ρ := by
  have htags : (tags.map ρ.tag).eraseDups = tags.eraseDups.map ρ.tag :=
    eraseDups_map_of_injOn fun _ _ _ _ hxy => ρ.tag.injective hxy
  have hsteps := h.map_run_step (Nat.zero_le _)
  rw [Nat.zero_mul, NodeId.shift_zero, NodeId.shift_zero] at hsteps
  have hfrom : NodeId.Carries ρ.scenario (site.instanceId 0) (site'.instanceId 0)
      b.bindings.length := by
    have hscenario := h.scenario
    rw [Nat.add_comm] at hscenario
    exact hscenario.shift
  have hexamples : placeExamples (site'.instanceId 0) b.examples =
      (placeExamples (site.instanceId 0) b.examples).map (·.renumber ρ) := by
    rw [b.length_bindings] at hfrom
    exact placeExamples_renumber hfrom
  simp only [BlockPlan.node, Scenario.renumber, h.file, htags, hsteps, hfrom.map_run, hexamples,
    h.feature, Option.map_none]

theorem instanceNode (h : site.IsCarried ρ b site') {number : Nat}
    (hnumber : number < b.bindings.length) :
    b.instanceNode site' number = (b.instanceNode site number).renumber ρ := by
  simp only [BlockPlan.instanceNode, Scenario.renumber, h.file, h.feature, h.scenario_eq,
    h.map_run_step (Nat.succ_le_of_lt hnumber), List.map_nil, Option.map_some]

/-- A block has the same nodes in both places. -/
theorem nodes (h : site.IsCarried ρ b site') (name : String) (tags : List TagId) :
    b.nodes site' name (tags.map ρ.tag) = (b.nodes site name tags).map (·.renumber ρ) := by
  rw [BlockPlan.nodes, BlockPlan.nodes, List.map_cons, h.node, List.map_map]
  congr 1
  exact List.map_congr_left fun number hnumber => h.instanceNode (List.mem_range.1 hnumber)

theorem ownSteps (h : site.IsCarried ρ b site') :
    b.ownSteps site' = (b.ownSteps site).map (·.renumber ρ) := by
  rw [BlockPlan.ownSteps, BlockPlan.ownSteps, List.map_map, h.file, ← h.scenario_eq]
  rfl

theorem instanceSteps (h : site.IsCarried ρ b site') {number : Nat}
    (hnumber : number < b.bindings.length) (cells : Binding) :
    b.instanceSteps site' number cells =
      (b.instanceSteps site number cells).map (·.renumber ρ) := by
  rw [BlockPlan.instanceSteps, BlockPlan.instanceSteps, List.map_map, h.file,
    ← h.instanceId hnumber]
  rfl

/-- A block has the same steps in both places. -/
theorem stepNodes (h : site.IsCarried ρ b site') :
    b.stepNodes site' = (b.stepNodes site).map (·.renumber ρ) := by
  rw [BlockPlan.stepNodes, BlockPlan.stepNodes, List.map_append, h.ownSteps, BlockPlan.rowSteps,
    BlockPlan.rowSteps, List.map_flatMap]
  congr 1
  refine List.flatMap_congr fun c hc => ?_
  have hnumber : c.2 < b.bindings.length := by
    simpa using List.snd_lt_add_of_mem_zipIdx hc
  exact h.instanceSteps hnumber c.1

end Site.IsCarried

/-! ## Tags -/

namespace TagIndex

/-- Names are found in two indexes under ids of which a map takes one to the other. -/
def IsCarried (f : TagId → TagId) (ts ts' : TagIndex) : Prop :=
  ∀ raw id, ts.idOf? raw = some id → ts'.idOf? raw = some (f id)

variable {owner owner' : TagOwner} {occurrence occurrence' : Occurrence} {raws : List String}

/-- Recorded tags are found under the same ids when more names have come after them. -/
theorem map_idOf?_later {ts later : TagIndex}
    (h : (ts.recordAll owner occurrence raws).1.names <+: later.names) :
    raws.map later.idOf? = (ts.recordAll owner occurrence raws).2.map some :=
  map_eq_of_found (map_idOf?_recordAll _ _ _ _) fun _ _ hid => idNamed?_of_prefix h hid

/-- The same tags get ids of which the map takes one to the other, whenever they are recorded. -/
theorem IsCarried.ids {f : TagId → TagId} {later later' : TagIndex} (h : IsCarried f later later')
    {ts ts' : TagIndex} (hts : (ts.recordAll owner occurrence raws).1.names <+: later.names)
    (hts' : (ts'.recordAll owner' occurrence' raws).1.names <+: later'.names) :
    (ts'.recordAll owner' occurrence' raws).2 =
      (ts.recordAll owner occurrence raws).2.map f := by
  refine (List.map_inj_right fun _ _ => Option.some.inj).1 ?_
  rw [← map_idOf?_later hts', List.map_map]
  exact map_eq_of_found (map_idOf?_later hts) h

end TagIndex

/-! ## All blocks of a feature -/

/-- How many steps children add: their own, and as many for each instance. -/
def ChildPlan.stepCount : List ChildPlan → Nat
  | [] => 0
  | .excluded .. :: cs => stepCount cs
  | .kept b :: cs => (b.bindings.length + 1) * b.steps.length + stepCount cs

theorem Growth.nextStepId_addBlock (g : Growth) (document : Path) (b : BlockPlan) :
    (g.addBlock document b).atlas.steps.nextId =
      g.atlas.steps.nextId.shift ((b.bindings.length + 1) * b.steps.length) := by
  simp [addBlock, Atlas.place, b.length_stepNodes]

theorem Growth.nextStepId_addAll (document : Path) (g : Growth) (cs : List ChildPlan) :
    (g.addAll document cs).atlas.steps.nextId =
      g.atlas.steps.nextId.shift (ChildPlan.stepCount cs) := by
  induction cs generalizing g with
  | nil => rfl
  | cons c cs ih =>
    cases c with
    | excluded kind title line => exact ih g
    | kept b =>
      rw [addAll_cons, add, ih, nextStepId_addBlock, NodeId.shift_shift]
      rfl

/-- A renumbering takes as many scenarios and steps from where one atlas goes on to where another
does. -/
structure Renumbering.CarriesNodes (ρ : Renumbering) (scenarios steps : Nat) (a a' : Atlas) :
    Prop where
  scenario : NodeId.Carries ρ.scenario a.scenarios.nextId a'.scenarios.nextId scenarios
  step : NodeId.Carries ρ.step a.steps.nextId a'.steps.nextId steps

/-- The blocks of a feature so far are the same on two atlases, up to a renumbering. -/
structure Growth.IsAlike (ρ : Renumbering) (a a' : Atlas) (g g' : Growth) : Prop where
  feature : ρ.feature g.atlas.features.nextId = g'.atlas.features.nextId
  scenarios : Arena.AddAlike (·.renumber ρ) a.scenarios g.atlas.scenarios
    a'.scenarios g'.atlas.scenarios
  steps : Arena.AddAlike (·.renumber ρ) a.steps g.atlas.steps a'.steps g'.atlas.steps
  children : g'.children = g.children.map ρ.scenario
  background : g'.background = g.background.map ρ.scenario

namespace Growth.IsAlike

variable {ρ : Renumbering} {a a' : Atlas} {g g' : Growth}

/-- Blocks are named alike, as there are as many children so far. -/
theorem nextName (h : IsAlike ρ a a' g g') (kind : ScenarioKind) :
    g'.nextName kind = g.nextName kind := by
  cases kind <;> simp only [Growth.nextName, h.children, List.length_map]

/-- One more block. -/
theorem addBlock (h : IsAlike ρ a a' g g') (document : Path) {b : BlockPlan}
    (hsite : (g.nextSite document).IsCarried ρ b (g'.nextSite document))
    (htags : (g'.atlas.recordBlock (g'.nextSite document) b).2 =
      (g.atlas.recordBlock (g.nextSite document) b).2.map ρ.tag) :
    IsAlike ρ a a' (g.addBlock document b) (g'.addBlock document b) := by
  constructor
  case feature => exact h.feature
  case scenarios =>
    have hnodes := h.scenarios.append
      (b.nodes (g.nextSite document) (g.nextName b.kind)
        (g.atlas.recordBlock (g.nextSite document) b).2)
    rw [← hsite.nodes, ← h.nextName, ← htags] at hnodes
    rw [h.nextName] at hnodes
    simpa only [Growth.addBlock, Atlas.place, h.nextName] using hnodes
  case steps =>
    have hsteps := h.steps.append (b.stepNodes (g.nextSite document))
    rw [← hsite.stepNodes] at hsteps
    exact hsteps
  case children =>
    simp only [Growth.addBlock]
    split
    · rw [h.children, List.map_append, List.map_singleton, hsite.scenario_eq]
    · exact h.children
  case background =>
    simp only [Growth.addBlock]
    split
    · rw [Option.map_some, hsite.scenario_eq]
    · exact h.background

/-- All children of a feature, where two indexes say in the end which tags they got. -/
theorem addAll (h : IsAlike ρ a a' g g') (document : Path) {cs : List ChildPlan}
    (hnodes : ρ.CarriesNodes (ChildPlan.nodeCount cs) (ChildPlan.stepCount cs)
      g.atlas g'.atlas)
    {ts ts' : TagIndex} (hcarried : ts.IsCarried ρ.tag ts')
    (hts : (g.addAll document cs).atlas.tags.names <+: ts.names)
    (hts' : (g'.addAll document cs).atlas.tags.names <+: ts'.names) :
    IsAlike ρ a a' (g.addAll document cs) (g'.addAll document cs) := by
  induction cs generalizing g g' with
  | nil => exact h
  | cons c cs ih =>
    cases c with
    | excluded kind title line => exact ih h hnodes hts hts'
    | kept b =>
      rw [ChildPlan.nodeCount, ChildPlan.stepCount] at hnodes
      have hsite : (g.nextSite document).IsCarried ρ b (g'.nextSite document) :=
        ⟨rfl, h.feature, hnodes.scenario.mono (Nat.le_add_right _ _),
          hnodes.step.mono (Nat.le_add_right _ _)⟩
      have htags := hcarried.ids
        (((g.addBlock document b).extends_addAll document cs).names.trans hts)
        (((g'.addBlock document b).extends_addAll document cs).names.trans hts')
      have hrest : ρ.CarriesNodes (ChildPlan.nodeCount cs) (ChildPlan.stepCount cs)
          (g.addBlock document b).atlas (g'.addBlock document b).atlas := by
        constructor
        · rw [nextId_addBlock, nextId_addBlock]
          exact hnodes.scenario.shift
        · rw [nextStepId_addBlock, nextStepId_addBlock]
          exact hnodes.step.shift
      exact ih (h.addBlock document hsite htags) hrest hts hts'

end Growth.IsAlike

/-! ## Documents -/

/-- The same nodes were added to two atlases, up to a renumbering. -/
structure Atlas.GrowAlike (ρ : Renumbering) (before after before' after' : Atlas) : Prop where
  features : Arena.AddAlike (·.renumber ρ) before.features after.features
    before'.features after'.features
  scenarios : Arena.AddAlike (·.renumber ρ) before.scenarios after.scenarios
    before'.scenarios after'.scenarios
  steps : Arena.AddAlike (·.renumber ρ) before.steps after.steps before'.steps after'.steps

/-- How many steps a feature adds. -/
def FeaturePlan.stepCount (p : FeaturePlan) : Nat := ChildPlan.stepCount p.children

/-- A feature with all its blocks is the same on two atlases. -/
theorem Atlas.growAlike_addFeature {ρ : Renumbering} {a a' : Atlas} (document : Path)
    (p : FeaturePlan) (hfeature : ρ.feature a.features.nextId = a'.features.nextId)
    (hnodes : ρ.CarriesNodes p.nodeCount p.stepCount a a') {ts ts' : TagIndex}
    (hcarried : ts.IsCarried ρ.tag ts')
    (hts : (a.addFeature document p).tags.names <+: ts.names)
    (hts' : (a'.addFeature document p).tags.names <+: ts'.names) :
    Atlas.GrowAlike ρ a (a.addFeature document p) a' (a'.addFeature document p) := by
  let start := (p.start a document).1
  let start' := (p.start a' document).1
  let g := start.addAll document p.children
  let g' := start'.addAll document p.children
  have hstart : Growth.IsAlike ρ a a' start start' :=
    ⟨hfeature, .refl _ _, .refl _ _, rfl, rfl⟩
  have hgrown : Growth.IsAlike ρ a a' g g' :=
    hstart.addAll document ⟨hnodes.scenario, hnodes.step⟩ hcarried hts hts'
  have htags : (p.start a' document).2 = (p.start a document).2.map ρ.tag := by
    have hids := hcarried.ids ((start.extends_addAll document p.children).names.trans hts)
      ((start'.extends_addAll document p.children).names.trans hts')
    simp only [FeaturePlan.start]
    rw [hids]
    exact eraseDups_map_of_injOn fun _ _ _ _ hxy => ρ.tag.injective hxy
  constructor
  case features =>
    let n : Feature := ⟨p.heading document, (p.start a document).2, g.children, g.background⟩
    have hnode : (⟨p.heading document, (p.start a' document).2, g'.children, g'.background⟩ :
        Feature) = n.renumber ρ := by
      rw [htags, hgrown.children, hgrown.background]
      rfl
    have hfeatures : g.atlas.features = a.features := Growth.features_addAll _ _ _
    have hfeatures' : g'.atlas.features = a'.features := Growth.features_addAll _ _ _
    have hpush := Arena.AddAlike.push (f := (·.renumber ρ)) a.features a'.features n
    rw [← hnode, ← hfeatures, ← hfeatures'] at hpush
    rw [← hfeatures, ← hfeatures']
    exact hpush
  case scenarios => exact hgrown.scenarios
  case steps => exact hgrown.steps

theorem ChildPlan.bearers_renumber {ρ : Renumbering} (document : Path) {id id' : ScenarioId}
    {cs : List ChildPlan}
    (h : NodeId.Carries ρ.scenario id id' (ChildPlan.nodeCount cs)) :
    bearers document id' cs = (bearers document id cs).map (·.renumber ρ) := by
  induction cs generalizing id id' with
  | nil => rfl
  | cons c cs ih =>
    cases c with
    | excluded kind title line => exact ih h
    | kept b =>
      rw [nodeCount] at h
      have hfirst : ρ.scenario id = id' := h 0 (by omega)
      rw [bearers, bearers, List.map_cons, ih h.shift, ← hfirst]
      rfl

namespace DocumentPlan

/-- How many features a document adds. -/
def featureCount : DocumentPlan → Nat
  | .feature .. => 1
  | _ => 0

/-- How many scenarios a document adds. -/
def nodeCount : DocumentPlan → Nat
  | .feature p _ => p.nodeCount
  | _ => 0

/-- How many steps a document adds. -/
def stepCount : DocumentPlan → Nat
  | .feature p _ => p.stepCount
  | _ => 0

/-- The bearers of a document, of whose nodes the first have the given ids. -/
def bearers (document : Path) (feature : FeatureId) (scenario : ScenarioId) :
    DocumentPlan → List Bearer
  | .feature p _ => p.bearers document feature scenario
  | _ => []

/-- The atlas to which a document was added. -/
def grow (a : Atlas) (document : Path) : DocumentPlan → Atlas
  | .feature p _ => a.addFeature document p
  | _ => a

theorem atlas_carryOut (a : Atlas) (document : Path) (plan : DocumentPlan) :
    (plan.carryOut a document).atlas = plan.grow a document := by
  cases plan with
  | feature p failure => cases failure <;> rfl
  | _ => rfl

variable {ρ : Renumbering} {a a' : Atlas} (document : Path) (plan : DocumentPlan)

/-- How far the ids of an atlas go on with a document. -/
theorem nextId_grow (a : Atlas) : (plan.grow a document).features.nextId =
      a.features.nextId.shift plan.featureCount ∧
    (plan.grow a document).scenarios.nextId = a.scenarios.nextId.shift plan.nodeCount ∧
    (plan.grow a document).steps.nextId = a.steps.nextId.shift plan.stepCount := by
  cases plan with
  | feature p failure =>
    obtain ⟨hfeatures, hscenarios⟩ := a.nextId_addFeature document p
    exact ⟨hfeatures, hscenarios, (p.start a document).1.nextStepId_addAll document p.children⟩
  | _ => exact ⟨rfl, rfl, rfl⟩

/-- What the bearers of a document mention when it is added to an atlas. -/
def mentions (a : Atlas) : List Mention :=
  (plan.bearers document a.features.nextId a.scenarios.nextId).flatMap Bearer.mentions

theorem tags_grow (a : Atlas) :
    (plan.grow a document).tags = (a.tags.recordEach (plan.mentions document a)).1 := by
  cases plan with
  | feature p failure => exact a.tags_addFeature document p
  | _ => rfl

theorem names_prefix_grow (a : Atlas) : a.tags.names <+: (plan.grow a document).tags.names := by
  rw [tags_grow]
  exact a.tags.names_prefix_recordEach _

theorem holds_grow {ms : List Mention} (h : a.tags.Holds ms) :
    (plan.grow a document).tags.Holds (ms ++ plan.mentions document a) := by
  rw [tags_grow]
  exact h.recordEach _

theorem holds_grow_empty :
    (plan.grow .empty document).tags.Holds (plan.mentions document .empty) := by
  rw [tags_grow]
  exact TagIndex.holds_recordEach _

/-- A renumbering takes what a document adds to one atlas to where another atlas goes on. -/
structure IsCarried (ρ : Renumbering) (a a' : Atlas) : Prop where
  feature : NodeId.Carries ρ.feature a.features.nextId a'.features.nextId plan.featureCount
  scenario : NodeId.Carries ρ.scenario a.scenarios.nextId a'.scenarios.nextId plan.nodeCount
  step : NodeId.Carries ρ.step a.steps.nextId a'.steps.nextId plan.stepCount

/-- A document adds the same nodes to two atlases. -/
theorem IsCarried.growAlike {plan : DocumentPlan} (h : plan.IsCarried ρ a a') {ts ts' : TagIndex}
    (hcarried : ts.IsCarried ρ.tag ts') (hts : (plan.grow a document).tags.names <+: ts.names)
    (hts' : (plan.grow a' document).tags.names <+: ts'.names) :
    Atlas.GrowAlike ρ a (plan.grow a document) a' (plan.grow a' document) := by
  cases plan with
  | feature p failure =>
    exact Atlas.growAlike_addFeature document p (h.feature 0 (Nat.succ_pos 0))
      ⟨h.scenario, h.step⟩ hcarried hts hts'
  | _ => exact ⟨.refl _ _, .refl _ _, .refl _ _⟩

/-- The bearers of a document mention the same in two atlases. -/
theorem IsCarried.mentions {plan : DocumentPlan} (h : plan.IsCarried ρ a a') :
    plan.mentions document a' = (plan.mentions document a).map (·.renumber ρ) := by
  have hbearers : plan.bearers document a'.features.nextId a'.scenarios.nextId =
      (plan.bearers document a.features.nextId a.scenarios.nextId).map (·.renumber ρ) := by
    cases plan with
    | feature p failure =>
      have hfeature : ρ.feature a.features.nextId = a'.features.nextId :=
        h.feature 0 (Nat.succ_pos 0)
      rw [DocumentPlan.bearers, DocumentPlan.bearers, FeaturePlan.bearers, FeaturePlan.bearers,
        List.map_cons, ← hfeature, ← ChildPlan.bearers_renumber document h.scenario]
      rfl
    | _ => rfl
  rw [DocumentPlan.mentions, DocumentPlan.mentions, hbearers, List.flatMap_map, List.map_flatMap]
  exact List.flatMap_congr fun b _ => b.mentions_renumber ρ

end DocumentPlan

end FeatureAtlas
