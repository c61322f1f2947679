import FeatureAtlas.Proofs.Expansion
import FeatureAtlas.Proofs.Lists
import FeatureAtlas.Proofs.Runs

/-!
# Ownership is a forest

Scenarios list their steps, outlines their instances, and features their children; what is listed
names its owner. `Atlas.IsForest` says that the lists and the names agree. Two invariants carry it
through a run: `Atlas.HasOwnNodes` is about scenarios and steps, which come block by block, and
`Atlas.HasOwnChildren` about features, whose lists grow while their blocks are added. A feature does
not list a block that ends at a ragged table, so that all children are listed is kept only while no
document fails.
-/

namespace FeatureAtlas

/-! ## The nodes of a block -/

/-- What the kind of a node says about its links: only an instance names an outline, only an outline
has instances, and these are those of its examples blocks. -/
structure Scenario.IsOfKind (n : Scenario) : Prop where
  example_iff : n.kind = .example ↔ ∃ o, n.outline = some o
  eq_nil : n.kind ≠ .outline → n.instances = [] ∧ n.examples = []
  blocks : n.examples.flatMap (·.instances) = n.instances

theorem Site.mem_run_instanceId {site : Site} {n : Nat} {id : ScenarioId} :
    id ∈ (site.instanceId 0).run n ↔ ∃ number < n, id = site.instanceId number := by
  simp [NodeId.run, instanceId, Nat.add_comm, eq_comm]

/-- The steps of a block and of its instances are numbered without a gap. -/
theorem BlockPlan.flatMap_steps_nodes (b : BlockPlan) (site : Site) (name : String)
    (tags : List TagId) :
    (b.nodes site name tags).flatMap (·.steps) = site.step.run (b.stepNodes site).length := by
  have hinstances (n : Nat) :
      ((List.range n).map (b.instanceNode site)).flatMap (·.steps) =
        (site.step.shift b.steps.length).run (n * b.steps.length) := by
    induction n with
    | zero => simp
    | succ n ih =>
      have hoffset : (n + 1) * b.steps.length = b.steps.length + n * b.steps.length := by
        rw [Nat.succ_mul, Nat.add_comm]
      rw [List.range_succ, List.map_append, List.flatMap_append, ih, Nat.succ_mul, NodeId.run_add,
        NodeId.shift_shift]
      simp [instanceNode, hoffset]
  rw [nodes, List.flatMap_cons, hinstances, length_stepNodes, Nat.succ_mul, Nat.add_comm,
    NodeId.run_add]
  rfl

theorem BlockPlan.IsOfChild.kind_eq {b : BlockPlan} (hb : b.IsOfChild)
    (hkind : b.kind ≠ .background) : b.kind = .scenario ∨ b.kind = .outline := by
  have hne := hb.kind_ne
  cases hcase : b.kind <;> simp_all

/-- The node of a block has examples and instances only if it is an outline. -/
theorem BlockPlan.IsOfChild.isOfKind_node {b : BlockPlan} (hb : b.IsOfChild) (site : Site)
    (name : String) (tags : List TagId) : (b.node site name tags).IsOfKind := by
  constructor
  case example_iff =>
    constructor
    · exact fun hkind => absurd hkind hb.kind_ne
    · rintro ⟨o, ho⟩
      cases ho
  case eq_nil =>
    intro hkind
    have hnone : b.examples = [] := hb.examples_eq hkind
    simp [BlockPlan.node, BlockPlan.bindings, hnone, placeExamples]
  case blocks =>
    refine (flatten_instances_placeExamples _ _).trans ?_
    rw [← b.length_bindings]
    rfl

namespace Atlas

/-! ## Owners -/

/-- The scenario that a step names. -/
def stepOwner? (a : Atlas) (id : StepId) : Option ScenarioId :=
  (a.step? id).map (·.scenario)

/-- The outline that an instance names. -/
def outlineOf? (a : Atlas) (id : ScenarioId) : Option ScenarioId :=
  (a.scenario? id).bind (·.outline)

/-- The feature that a scenario or an outline names. -/
def parentOf? (a : Atlas) (id : ScenarioId) : Option FeatureId :=
  (a.scenario? id).bind fun n =>
    if n.kind = .scenario ∨ n.kind = .outline then some n.feature else none

/-- The steps that scenarios list. -/
def listedSteps (a : Atlas) : List StepId :=
  a.scenarios.toList.flatMap (·.steps)

/-- The instances that outlines list. -/
def listedInstances (a : Atlas) : List ScenarioId :=
  a.scenarios.toList.flatMap (·.instances)

/-- The instances that the examples blocks of outlines list. -/
def blockInstances (a : Atlas) : List ScenarioId :=
  a.scenarios.toList.flatMap fun n => n.examples.flatMap (·.instances)

/-- The children that features list. -/
def listedChildren (a : Atlas) : List ScenarioId :=
  a.features.toList.flatMap (·.children)

/-- Scenarios list their own steps and instances, and all of them. -/
structure HasOwnNodes (a : Atlas) : Prop where
  steps : a.scenarios.Lists (·.steps) a.stepOwner?
  allSteps : a.scenarios.ListsAll (·.steps) a.stepOwner?
  instances : a.scenarios.Lists (·.instances) a.outlineOf?
  allInstances : a.scenarios.ListsAll (·.instances) a.outlineOf?
  isOfKind : ∀ id n, a.scenario? id = some n → n.IsOfKind
  outline : ∀ id n o, a.scenario? id = some n → n.outline = some o →
    ∃ m, a.scenario? o = some m ∧ m.kind = .outline ∧ m.feature = n.feature

/-- Features list their own children, and have a background of their own. -/
structure HasOwnChildren (a : Atlas) : Prop where
  children : a.features.Lists (·.children) a.parentOf?
  background : ∀ id f, a.feature? id = some f → ∀ b, f.background = some b →
    ∃ n, a.scenario? b = some n ∧ n.kind = .background ∧ n.feature = id

/-! ## A placed block -/

section

variable {a : Atlas} {site : Site} {name : String} {b : BlockPlan}

theorem stepOwner?_eq_some_iff {id : StepId} {owner : ScenarioId} :
    a.stepOwner? id = some owner ↔ ∃ s, a.step? id = some s ∧ s.scenario = owner :=
  Option.map_eq_some_iff

theorem outlineOf?_eq_some_iff {id outline : ScenarioId} :
    a.outlineOf? id = some outline ↔ ∃ n, a.scenario? id = some n ∧ n.outline = some outline :=
  Option.bind_eq_some_iff

theorem parentOf?_eq_some_iff {id : ScenarioId} {feature : FeatureId} :
    a.parentOf? id = some feature ↔ ∃ n, a.scenario? id = some n ∧
      (n.kind = .scenario ∨ n.kind = .outline) ∧ n.feature = feature := by
  simp [parentOf?, Option.bind_eq_some_iff]

/-- Steps that are found where they are listed have the owner that they name. -/
theorem stepOwner?_of_map_eq {ids : List StepId} {steps : List Step} {owner : ScenarioId}
    (h : ids.map a.step? = steps.map some) (howner : ∀ s ∈ steps, s.scenario = owner) :
    ∀ id ∈ ids, a.stepOwner? id = some owner := by
  intro id hid
  have hmem : a.step? id ∈ steps.map some := h ▸ List.mem_map_of_mem hid
  obtain ⟨s, hs, hstep⟩ := List.mem_map.1 hmem
  exact stepOwner?_eq_some_iff.2 ⟨s, hstep.symm, howner s hs⟩

/-- What scenarios list is theirs after a block was placed. -/
theorem HasOwnNodes.steps_place (h : a.HasOwnNodes) (hsite : site.scenario = a.scenarios.nextId)
    (hstep : site.step = a.steps.nextId) :
    (a.place site name b).scenarios.Lists (·.steps) (a.place site name b).stepOwner? := by
  refine Arena.lists_append_iff.2 ⟨h.steps.mono ?_, ?_⟩
  · intro id owner howner
    obtain ⟨s, hs, rfl⟩ := stepOwner?_eq_some_iff.1 howner
    exact stepOwner?_eq_some_iff.2 ⟨s, step?_place_of_some hs, rfl⟩
  · intro k n hn
    rw [← hsite]
    rcases b.cases_nodes hn with ⟨rfl, rfl⟩ | ⟨number, hnumber, rfl, rfl⟩
    · refine ⟨NodeId.nodup_run _ _, stepOwner?_of_map_eq (map_step?_place_own hstep _) ?_⟩
      intro s hs
      obtain ⟨p, -, rfl⟩ := List.mem_map.1 hs
      rfl
    · have hcells := List.getElem?_eq_getElem hnumber
      refine ⟨NodeId.nodup_run _ _,
        stepOwner?_of_map_eq (map_step?_place_instance hstep hcells) ?_⟩
      intro s hs
      obtain ⟨p, -, rfl⟩ := List.mem_map.1 hs
      rfl

/-- All steps are listed after a block was placed. -/
theorem HasOwnNodes.allSteps_place (h : a.HasOwnNodes) (hstep : site.step = a.steps.nextId) :
    (a.place site name b).scenarios.ListsAll (·.steps) (a.place site name b).stepOwner? := by
  refine h.allSteps.append fun id owner howner => ?_
  obtain ⟨s, hs, rfl⟩ := stepOwner?_eq_some_iff.1 howner
  rcases Arena.cases_get?_append hs with hold | ⟨k, hk, rfl⟩
  · exact Or.inl (stepOwner?_eq_some_iff.2 ⟨s, hold, rfl⟩)
  · have hlt : k < (b.stepNodes site).length := (List.getElem?_eq_some_iff.1 hk).1
    right
    rw [b.flatMap_steps_nodes, hstep, NodeId.mem_run]
    simpa using hlt

/-- What names an outline after a block was placed did so before, or is an instance of the block. -/
theorem cases_outlineOf?_place (hsite : site.scenario = a.scenarios.nextId) {id o : ScenarioId}
    (ho : (a.place site name b).outlineOf? id = some o) :
    a.outlineOf? id = some o ∨ id ∈ (site.instanceId 0).run b.bindings.length := by
  obtain ⟨n, hn, houtline⟩ := outlineOf?_eq_some_iff.1 ho
  rcases cases_scenario?_place hsite hn with hold | ⟨rfl, rfl⟩ | ⟨number, hnumber, rfl, rfl⟩
  · exact Or.inl (outlineOf?_eq_some_iff.2 ⟨n, hold, houtline⟩)
  · cases houtline
  · exact Or.inr (Site.mem_run_instanceId.2 ⟨number, hnumber, rfl⟩)

/-- The instances that outlines list are theirs after a block was placed. -/
theorem HasOwnNodes.instances_place (h : a.HasOwnNodes)
    (hsite : site.scenario = a.scenarios.nextId) :
    (a.place site name b).scenarios.Lists (·.instances) (a.place site name b).outlineOf? := by
  refine Arena.lists_append_iff.2 ⟨h.instances.mono ?_, ?_⟩
  · intro id o ho
    obtain ⟨n, hn, houtline⟩ := outlineOf?_eq_some_iff.1 ho
    exact outlineOf?_eq_some_iff.2 ⟨n, scenario?_place_of_some hn, houtline⟩
  · intro k n hn
    rw [← hsite]
    rcases b.cases_nodes hn with ⟨rfl, rfl⟩ | ⟨number, hnumber, rfl, rfl⟩
    · refine ⟨NodeId.nodup_run _ _, fun id hid => ?_⟩
      obtain ⟨number, hnumber, rfl⟩ := Site.mem_run_instanceId.1 hid
      exact outlineOf?_eq_some_iff.2 ⟨_, scenario?_place_instance hsite hnumber, rfl⟩
    · exact ⟨List.nodup_nil, fun id hid => by cases hid⟩

theorem HasOwnNodes.allInstances_place (h : a.HasOwnNodes)
    (hsite : site.scenario = a.scenarios.nextId) :
    (a.place site name b).scenarios.ListsAll (·.instances) (a.place site name b).outlineOf? := by
  refine h.allInstances.append fun id o ho => ?_
  refine (cases_outlineOf?_place hsite ho).imp_right fun hid => ?_
  exact List.mem_flatMap.2 ⟨_, List.mem_cons_self, hid⟩

/-- Placing a block keeps what scenarios own. -/
theorem HasOwnNodes.place (h : a.HasOwnNodes) (hb : b.IsOfChild)
    (hsite : site.scenario = a.scenarios.nextId) (hstep : site.step = a.steps.nextId) :
    (a.place site name b).HasOwnNodes := by
  constructor
  case steps => exact h.steps_place hsite hstep
  case allSteps => exact h.allSteps_place hstep
  case instances => exact h.instances_place hsite
  case allInstances => exact h.allInstances_place hsite
  case isOfKind =>
    intro id n hn
    rcases cases_scenario?_place hsite hn with hold | ⟨-, rfl⟩ | ⟨number, -, -, rfl⟩
    · exact h.isOfKind id n hold
    · exact hb.isOfKind_node site name _
    · exact ⟨by simp [BlockPlan.instanceNode], fun _ => ⟨rfl, rfl⟩, rfl⟩
  case outline =>
    intro id n o hn ho
    rcases cases_scenario?_place hsite hn with hold | ⟨-, rfl⟩ | ⟨number, hnumber, -, rfl⟩
    · obtain ⟨m, hm, hkind, hfeature⟩ := h.outline id n o hold ho
      exact ⟨m, scenario?_place_of_some hm, hkind, hfeature⟩
    · cases ho
    · cases ho
      refine ⟨_, scenario?_place hsite, ?_, rfl⟩
      by_contra hkind
      have hnone : b.bindings = [] := by
        rw [BlockPlan.bindings, hb.examples_eq hkind]
        rfl
      rw [hnone] at hnumber
      cases hnumber

end

/-! ## A feature and its blocks -/

section

variable {g : Growth} {f : Feature} {document : Path} {b : BlockPlan}

theorem feature?_close (g : Growth) (f : Feature) (id : FeatureId) :
    (g.close f).feature? id =
      if id = g.atlas.features.nextId then
        some { f with children := g.children, background := g.background }
      else g.atlas.features.get? id :=
  Arena.get?_push _ _ id

theorem scenario?_addBlock_of_some {id : ScenarioId} {n : Scenario}
    (h : (g.close f).scenario? id = some n) :
    ((g.addBlock document b).close f).scenario? id = some n :=
  scenario?_place_of_some (a := g.atlas) h

/-- The own node of a block. -/
theorem scenario?_addBlock_nextId (g : Growth) (f : Feature) (document : Path) (b : BlockPlan) :
    ∃ n, ((g.addBlock document b).close f).scenario? g.atlas.scenarios.nextId = some n ∧
      n.kind = b.kind ∧ n.feature = g.atlas.features.nextId := by
  have hnode : (g.addBlock document b).atlas.scenario? g.atlas.scenarios.nextId = some _ :=
    scenario?_place rfl
  exact ⟨_, hnode, rfl, rfl⟩

/-- Every child is there before the block, or is its own node; instances are nobody's children. -/
theorem cases_parentOf?_addBlock {id : ScenarioId} {feature : FeatureId}
    (h : ((g.addBlock document b).close f).parentOf? id = some feature) :
    (g.close f).parentOf? id = some feature ∨
      id = g.atlas.scenarios.nextId ∧ feature = g.atlas.features.nextId ∧ b.kind ≠ .background := by
  obtain ⟨n, hn, hkind, rfl⟩ := parentOf?_eq_some_iff.1 h
  rcases cases_scenario?_place (a := g.atlas) rfl hn with hold | ⟨rfl, rfl⟩ | ⟨number, -, -, rfl⟩
  · exact Or.inl (parentOf?_eq_some_iff.2 ⟨n, hold, hkind, rfl⟩)
  · refine Or.inr ⟨rfl, rfl, fun hback => ?_⟩
    have hback' : b.kind = .scenario ∨ b.kind = .outline := hkind
    simp [hback] at hback'
  · simp [BlockPlan.instanceNode] at hkind

/-- Children keep their feature when a block is added. -/
theorem parentOf?_addBlock_of_some {id : ScenarioId} {feature : FeatureId}
    (h : (g.close f).parentOf? id = some feature) :
    ((g.addBlock document b).close f).parentOf? id = some feature := by
  obtain ⟨n, hn, hkind, hfeature⟩ := parentOf?_eq_some_iff.1 h
  exact parentOf?_eq_some_iff.2 ⟨n, scenario?_addBlock_of_some hn, hkind, hfeature⟩

theorem children_addBlock_of_listed (hlisted : b.isListed = true) (hkind : b.kind ≠ .background) :
    (g.addBlock document b).children = g.children ++ [g.atlas.scenarios.nextId] :=
  if_pos ⟨hlisted, hkind⟩

/-- What a feature lists is its own after a block was added. -/
theorem HasOwnChildren.lists_addBlock (h : (g.close f).HasOwnChildren) (hb : b.IsOfChild) :
    let a := (g.addBlock document b).close f
    a.features.Lists (·.children) a.parentOf? := by
  obtain ⟨hold, hnodup, howner⟩ := Arena.lists_push_iff.1 h.children
  refine Arena.lists_push_iff.2 ⟨hold.mono fun _ _ => parentOf?_addBlock_of_some, ?_⟩
  change (g.addBlock document b).children.Nodup ∧ ∀ id ∈ (g.addBlock document b).children, _
  by_cases hlisted : b.isListed = true ∧ b.kind ≠ .background
  · have hnew : g.atlas.scenarios.nextId ∉ g.children := by
      intro hmem
      obtain ⟨n, hn, -⟩ := parentOf?_eq_some_iff.1 (howner _ hmem)
      cases hn.symm.trans g.atlas.scenario?_nextId
    rw [children_addBlock_of_listed hlisted.1 hlisted.2]
    refine ⟨hnodup.append (List.nodup_singleton _) (by simpa using hnew), fun id hid => ?_⟩
    rcases List.mem_append.1 hid with hearlier | hlast
    · exact parentOf?_addBlock_of_some (howner id hearlier)
    · obtain ⟨n, hn, hkind, hfeature⟩ := scenario?_addBlock_nextId g f document b
      rw [List.mem_singleton.1 hlast]
      exact parentOf?_eq_some_iff.2 ⟨n, hn, hkind ▸ hb.kind_eq hlisted.2, hfeature⟩
  · have hsame : (g.addBlock document b).children = g.children := if_neg hlisted
    rw [hsame]
    exact ⟨hnodup, fun id hid => parentOf?_addBlock_of_some (howner id hid)⟩

/-- Adding a block keeps what features own. -/
theorem HasOwnChildren.addBlock (h : (g.close f).HasOwnChildren) (hb : b.IsOfChild) :
    ((g.addBlock document b).close f).HasOwnChildren := by
  constructor
  case children => exact h.lists_addBlock hb
  case background =>
    intro id feature hfeature back hback
    have hold {feature : Feature} (hf : (g.close f).feature? id = some feature)
        (hback : feature.background = some back) :
        ∃ n, ((g.addBlock document b).close f).scenario? back = some n ∧
          n.kind = .background ∧ n.feature = id := by
      obtain ⟨n, hn, hn'⟩ := h.background id feature hf back hback
      exact ⟨n, scenario?_addBlock_of_some hn, hn'⟩
    have hfeatures : (g.addBlock document b).atlas.features = g.atlas.features := rfl
    rw [feature?_close, hfeatures] at hfeature
    by_cases hid : id = g.atlas.features.nextId
    · rw [if_pos hid, Option.some.injEq] at hfeature
      subst hfeature hid
      by_cases hlisted : b.isListed = true ∧ b.kind = .background
      · have hnew : (g.addBlock document b).background = some g.atlas.scenarios.nextId :=
          if_pos hlisted
        cases hnew.symm.trans hback
        obtain ⟨n, hn, hkind, hn'⟩ := scenario?_addBlock_nextId g f document b
        exact ⟨n, hn, hkind.trans hlisted.2, hn'⟩
      · have hsame : (g.addBlock document b).background = g.background := if_neg hlisted
        exact hold ((feature?_close g f _).trans (if_pos rfl)) (hsame.symm.trans hback)
    · rw [if_neg hid] at hfeature
      exact hold ((feature?_close g f id).trans ((if_neg hid).trans hfeature)) hback

/-- A listed block keeps all children listed. -/
theorem listsAll_addBlock
    (h : (g.close f).features.ListsAll (·.children) (g.close f).parentOf?)
    (hlisted : b.isListed = true) :
    let a := (g.addBlock document b).close f
    a.features.ListsAll (·.children) a.parentOf? := by
  intro a id feature hid
  have hlists (g : Growth) : (g.close f).listedChildren =
      g.atlas.features.toList.flatMap (·.children) ++ g.children := by
    simp [listedChildren, Growth.close]
  change id ∈ a.listedChildren
  rw [hlists, List.mem_append]
  rcases cases_parentOf?_addBlock hid with hold | ⟨rfl, rfl, hkind⟩
  · have hmem : id ∈ (g.close f).listedChildren := h id feature hold
    rw [hlists, List.mem_append] at hmem
    refine hmem.imp_right fun hchild => ?_
    by_cases hkind : b.kind = .background
    · have hsame : (g.addBlock document b).children = g.children := by
        simp [Growth.addBlock, hkind]
      rwa [hsame]
    · rw [children_addBlock_of_listed hlisted hkind]
      exact List.mem_append_left _ hchild
  · rw [children_addBlock_of_listed hlisted hkind]
    exact Or.inr (List.mem_append_right _ (List.mem_singleton_self _))

end

/-! ## A run -/

/-- Nodes own what they list whatever features and tags there are. -/
theorem HasOwnNodes.withOthers {a : Atlas} (h : a.HasOwnNodes)
    (features : Arena .feature Feature) (tags : TagIndex) :
    HasOwnNodes ⟨features, a.scenarios, a.steps, tags⟩ :=
  ⟨h.steps, h.allSteps, h.instances, h.allInstances, h.isOfKind, h.outline⟩

theorem HasOwnNodes.addBlock {g : Growth} {f : Feature} (h : (g.close f).HasOwnNodes)
    (document : Path) {b : BlockPlan} (hb : b.IsOfChild) :
    ((g.addBlock document b).close f).HasOwnNodes := by
  have hplaced : ((g.close f).place (g.nextSite document) (g.nextName b.kind) b).HasOwnNodes :=
    h.place hb rfl rfl
  exact hplaced.withOthers _ _

/-- An edited step still names its scenario. -/
theorem stepOwner?_edit (a : Atlas) (id : StepId) {change : Step → Step}
    (hchange : Step.IsEdit change) :
    stepOwner? { a with steps := a.steps.modify id change } = a.stepOwner? := by
  funext other
  simp only [stepOwner?, step?, Arena.get?_modify]
  split
  · rw [Option.map_map]
    refine congrArg (Option.map · (a.steps.get? other)) (funext fun s => ?_)
    obtain ⟨text, docString, table, hs⟩ := hchange s
    rw [Function.comp_apply, hs]
  · rfl

theorem HasOwnNodes.edit {a : Atlas} (h : a.HasOwnNodes) (id : StepId) {change : Step → Step}
    (hchange : Step.IsEdit change) :
    HasOwnNodes { a with steps := a.steps.modify id change } := by
  have howner := stepOwner?_edit a id hchange
  exact ⟨howner ▸ h.steps, howner ▸ h.allSteps, h.instances, h.allInstances, h.isOfKind, h.outline⟩

/-- A new feature has no children and no background. -/
theorem HasOwnChildren.opened {a : Atlas} (h : a.HasOwnChildren) (document : Path)
    (f : FeaturePlan) : (a.opened document f).HasOwnChildren := by
  constructor
  case children =>
    exact Arena.lists_push_iff.2 ⟨h.children, List.nodup_nil, fun id hid => by cases hid⟩
  case background =>
    intro id feature hfeature back hback
    have hget := (Arena.get?_push _ _ id).symm.trans hfeature
    split at hget
    · cases hget
      cases hback
    · exact h.background id feature hget back hback

theorem hasOwnNodes_empty : Atlas.empty.HasOwnNodes where
  steps := Arena.lists_empty
  allSteps := fun _ _ h => by cases h
  instances := Arena.lists_empty
  allInstances := fun _ _ h => by cases h
  isOfKind := fun _ _ h => by cases h
  outline := fun _ _ _ h => by cases h

theorem hasOwnChildren_empty : Atlas.empty.HasOwnChildren where
  children := Arena.lists_empty
  background := fun _ _ h => by cases h

theorem Reachable.hasOwnNodes {a : Atlas} (h : a.Reachable) : a.HasOwnNodes :=
  h.invariant_of_isOfChild (Q := BlockPlan.IsOfChild)
    (fun _ _ _ ha => ha.withOthers _ _)
    (fun _ _ document _ hb hg => hg.addBlock document hb)
    hasOwnNodes_empty (fun _ id _ hchange ha => ha.edit id hchange) fun _ hb => hb

theorem Reachable.hasOwnChildren {a : Atlas} (h : a.Reachable) : a.HasOwnChildren :=
  h.invariant_of_isOfChild (Q := BlockPlan.IsOfChild)
    (fun _ document f ha => ha.opened document f) (fun _ _ _ _ hb hg => hg.addBlock hb)
    hasOwnChildren_empty (fun _ _ _ _ ha => ⟨ha.children, ha.background⟩) fun _ hb => hb

/-- While no document fails, every scenario and every outline is a child of a feature. -/
theorem ReachableCleanly.listsAll_children {a : Atlas} (h : a.ReachableCleanly) :
    a.features.ListsAll (·.children) a.parentOf? := by
  refine h.invariant (P := fun a => a.features.ListsAll (·.children) a.parentOf?)
    (Q := fun b => b.isListed = true) ?_ ?_ ?_ ?_ fun _ _ hlisted => hlisted
  · intro a document f ha id feature hid
    have hpush : (a.opened document f).features = a.features.push _ := rfl
    rw [hpush, Arena.toList_push, List.flatMap_append]
    exact List.mem_append_left _ (ha id feature hid)
  · exact fun g f document b hlisted hg => listsAll_addBlock hg hlisted
  · exact fun _ _ h => by cases h
  · exact fun _ _ _ _ ha => ha

/-! ## The forest -/

/-- Who owns what. A step is on the list of its scenario. An instance is on the list of its outline,
and of one of the outline's examples blocks. A scenario or an outline is at most on the list of its
feature, and a background on none. Nothing is listed twice. -/
structure IsForest (a : Atlas) : Prop where
  steps : ∀ id s, a.step? id = some s →
    a.listedSteps.count id = 1 ∧ ∃ n, a.scenario? s.scenario = some n ∧ id ∈ n.steps
  disjoint_steps : ∀ id other n m, a.scenario? id = some n → a.scenario? other = some m →
    id ≠ other → n.steps.Disjoint m.steps
  examples : ∀ id n, a.scenario? id = some n → n.kind = .example →
    a.listedInstances.count id = 1 ∧ a.blockInstances.count id = 1 ∧ id ∉ a.listedChildren ∧
      ∃ outline o, n.outline = some outline ∧ a.scenario? outline = some o ∧ o.kind = .outline ∧
        o.feature = n.feature ∧ id ∈ o.instances ∧ ∃ e ∈ o.examples, id ∈ e.instances
  children : ∀ id n, a.scenario? id = some n → n.kind = .scenario ∨ n.kind = .outline →
    n.outline = none ∧ id ∉ a.listedInstances ∧ id ∉ a.blockInstances ∧
      a.listedChildren.count id ≤ 1 ∧
      ∀ feature f, a.feature? feature = some f → id ∈ f.children → feature = n.feature
  backgrounds : ∀ id n, a.scenario? id = some n → n.kind = .background →
    id ∉ a.listedInstances ∧ id ∉ a.blockInstances ∧ id ∉ a.listedChildren
  background_of_feature : ∀ feature f, a.feature? feature = some f →
    ∀ id, f.background = some id →
      ∃ n, a.scenario? id = some n ∧ n.kind = .background ∧ n.feature = feature
  only_outlines : ∀ id n, a.scenario? id = some n → n.kind ≠ .outline →
    n.instances = [] ∧ n.examples = []
  only_steps : ∀ id ∈ a.listedSteps, ∃ s, a.step? id = some s
  only_examples : ∀ id ∈ a.listedInstances, ∃ n, a.scenario? id = some n ∧ n.kind = .example
  only_children : ∀ id ∈ a.listedChildren,
    ∃ n, a.scenario? id = some n ∧ (n.kind = .scenario ∨ n.kind = .outline)

namespace HasOwnNodes

variable {a : Atlas} {id : ScenarioId} {n : Scenario}

/-- The instances of all outlines are those of all examples blocks, in the same order. -/
theorem blockInstances_eq (h : a.HasOwnNodes) : a.blockInstances = a.listedInstances :=
  Arena.flatMap_toList_congr fun id n hn => (h.isOfKind id n hn).blocks

/-- Only instances are listed by outlines. -/
theorem not_mem_listedInstances (h : a.HasOwnNodes) (hn : a.scenario? id = some n)
    (hkind : n.kind ≠ .example) : n.outline = none ∧ id ∉ a.listedInstances := by
  have hnone : n.outline = none :=
    Option.eq_none_iff_forall_ne_some.2 fun o ho =>
      hkind ((h.isOfKind id n hn).example_iff.2 ⟨o, ho⟩)
  refine ⟨hnone, h.instances.not_mem_flatMap ?_⟩
  rw [outlineOf?, hn]
  exact hnone

/-- An instance is in one examples block of its outline. -/
theorem exists_block (h : a.HasOwnNodes) (hn : a.scenario? id = some n)
    (hkind : n.kind = .example) :
    ∃ outline o, n.outline = some outline ∧ a.scenario? outline = some o ∧ o.kind = .outline ∧
      o.feature = n.feature ∧ id ∈ o.instances ∧ ∃ e ∈ o.examples, id ∈ e.instances := by
  obtain ⟨outline, houtline⟩ := (h.isOfKind id n hn).example_iff.1 hkind
  have howner : a.outlineOf? id = some outline := outlineOf?_eq_some_iff.2 ⟨n, hn, houtline⟩
  obtain ⟨o, ho, hid⟩ := h.instances.exists_of_owner h.allInstances howner
  obtain ⟨m, hm, hoKind, hfeature⟩ := h.outline id n outline hn houtline
  cases ho.symm.trans hm
  have hblock : id ∈ o.examples.flatMap (·.instances) := by
    rw [(h.isOfKind outline o ho).blocks]
    exact hid
  exact ⟨outline, o, houtline, ho, hoKind, hfeature, hid, List.mem_flatMap.1 hblock⟩

end HasOwnNodes

/-- Features list nothing but scenarios and outlines. -/
theorem HasOwnChildren.not_mem_listedChildren {a : Atlas} (h : a.HasOwnChildren) {id : ScenarioId}
    {n : Scenario} (hn : a.scenario? id = some n) (hscenario : n.kind ≠ .scenario)
    (houtline : n.kind ≠ .outline) : id ∉ a.listedChildren := by
  refine h.children.not_mem_flatMap ?_
  simp [parentOf?, hn, hscenario, houtline]

/-- Whatever documents a run adds under whatever filters, whether they fail or not, and whichever
steps it edits, everything has one owner at most, and is listed there and nowhere else. If no
document fails, every scenario and every outline is listed. -/
theorem Reachable.isForest {a : Atlas} (h : a.Reachable) :
    a.IsForest ∧
      (a.ReachableCleanly → ∀ id n, a.scenario? id = some n →
        n.kind = .scenario ∨ n.kind = .outline → a.listedChildren.count id = 1) := by
  have hnodes := h.hasOwnNodes
  have hchildren := h.hasOwnChildren
  refine ⟨?_, fun hclean id n hn hkind =>
    hchildren.children.count_eq_one hclean.listsAll_children
      (parentOf?_eq_some_iff.2 ⟨n, hn, hkind, rfl⟩)⟩
  constructor
  case steps =>
    intro id s hs
    have howner : a.stepOwner? id = some s.scenario := stepOwner?_eq_some_iff.2 ⟨s, hs, rfl⟩
    exact ⟨hnodes.steps.count_eq_one hnodes.allSteps howner,
      hnodes.steps.exists_of_owner hnodes.allSteps howner⟩
  case disjoint_steps =>
    intro id other n m hn hm hne s hs hs'
    have hsame := (hnodes.steps.owner_eq id n hn s hs).symm.trans
      (hnodes.steps.owner_eq other m hm s hs')
    exact hne (Option.some.inj hsame)
  case examples =>
    intro id n hn hkind
    obtain ⟨outline, o, hblock⟩ := hnodes.exists_block hn hkind
    have howner : a.outlineOf? id = some outline := outlineOf?_eq_some_iff.2 ⟨n, hn, hblock.1⟩
    have hcount : a.listedInstances.count id = 1 :=
      hnodes.instances.count_eq_one hnodes.allInstances howner
    exact ⟨hcount, hnodes.blockInstances_eq ▸ hcount,
      hchildren.not_mem_listedChildren hn (by simp [hkind]) (by simp [hkind]), outline, o, hblock⟩
  case children =>
    intro id n hn hkind
    have hne : n.kind ≠ .example := by
      rcases hkind with hkind | hkind <;> simp [hkind]
    obtain ⟨hnone, hinstances⟩ := hnodes.not_mem_listedInstances hn hne
    refine ⟨hnone, hinstances, hnodes.blockInstances_eq ▸ hinstances,
      hchildren.children.count_le_one id, fun feature f hf hid => ?_⟩
    have hparent : a.parentOf? id = some n.feature := parentOf?_eq_some_iff.2 ⟨n, hn, hkind, rfl⟩
    exact Option.some.inj ((hchildren.children.owner_eq feature f hf id hid).symm.trans hparent)
  case backgrounds =>
    intro id n hn hkind
    obtain ⟨-, hinstances⟩ := hnodes.not_mem_listedInstances hn (by simp [hkind])
    exact ⟨hinstances, hnodes.blockInstances_eq ▸ hinstances,
      hchildren.not_mem_listedChildren hn (by simp [hkind]) (by simp [hkind])⟩
  case background_of_feature => exact hchildren.background
  case only_outlines => exact fun id n hn hkind => (hnodes.isOfKind id n hn).eq_nil hkind
  case only_steps =>
    intro id hid
    obtain ⟨owner, howner⟩ := hnodes.steps.exists_owner hid
    obtain ⟨s, hs, -⟩ := stepOwner?_eq_some_iff.1 howner
    exact ⟨s, hs⟩
  case only_examples =>
    intro id hid
    obtain ⟨outline, houtline⟩ := hnodes.instances.exists_owner hid
    obtain ⟨n, hn, ho⟩ := outlineOf?_eq_some_iff.1 houtline
    exact ⟨n, hn, (hnodes.isOfKind id n hn).example_iff.2 ⟨outline, ho⟩⟩
  case only_children =>
    intro id hid
    obtain ⟨feature, hfeature⟩ := hchildren.children.exists_owner hid
    obtain ⟨n, hn, hkind, -⟩ := parentOf?_eq_some_iff.1 hfeature
    exact ⟨n, hn, hkind⟩

/-- A feature with a background, an outline with two instances, and a scenario with a table. -/
def supper (rows : List Row) : FeatureBlock where
  keyword := "Feature"
  title := "Supper"
  description := ""
  comments := []
  position := ⟨1, 1⟩
  tags := []
  children :=
    [.background
        ⟨"Background", "", "", [], ⟨2, 3⟩, [], [⟨"Given", "a cook", [], ⟨3, 5⟩, none⟩], []⟩,
      .outline ⟨"Scenario Outline", "Eating", "", [], ⟨5, 3⟩, [],
        [⟨"When", "I eat <n>", [], ⟨6, 5⟩, none⟩],
        [⟨"Examples", "", [], ⟨7, 5⟩, some ⟨⟨8, 7⟩, ["n"]⟩, [⟨⟨9, 7⟩, ["1"]⟩, ⟨⟨10, 7⟩, ["2"]⟩]⟩]⟩,
      .scenario ⟨"Scenario", "Soup", "", [], ⟨12, 3⟩, [],
        [⟨"Given", "bowls", [], ⟨13, 5⟩, none⟩,
          ⟨"And", "a table", [], ⟨14, 5⟩, some (.table rows ⟨15, 7⟩)⟩], []⟩]

/-- A document, then one that fails in its scenario, and an edit. The scenario of the first is
listed, that of the second is not, while its step is. -/
theorem isForest_supper :
    let sound : Document := ⟨⟨"supper.feature"⟩, some (supper [⟨⟨15, 7⟩, ["soup"]⟩])⟩
    let ragged : Document :=
      ⟨⟨"late.feature"⟩, some (supper [⟨⟨15, 7⟩, ["soup"]⟩, ⟨⟨16, 7⟩, []⟩])⟩
    let first := (Atlas.empty.addDocument sound .keepAll).atlas
    let second := (first.addDocument ragged .keepAll).atlas.editStep ⟨0⟩ (.appendText " for ten")
    first.ReachableCleanly ∧ first.listedChildren.count ⟨4⟩ = 1 ∧
      second.Reachable ∧ second.IsForest ∧
      second.listedChildren = [⟨1⟩, ⟨4⟩, ⟨6⟩] ∧
      second.listedInstances = [⟨2⟩, ⟨3⟩, ⟨7⟩, ⟨8⟩] ∧
      (second.scenario? ⟨9⟩).map (fun n => (n.kind, n.steps.length)) = some (.scenario, 1) := by
  intro sound ragged first second
  have hok : (Atlas.empty.addDocument sound .keepAll).outcome = .ok (some ⟨0⟩) := by decide
  have hfirst : first.ReachableCleanly := ReachableCleanly.empty.addDocument hok
  have hsecond : second.Reachable :=
    (hfirst.reachable.addDocument ragged .keepAll).editStep ⟨0⟩ (.appendText " for ten")
  obtain ⟨n, hn, hkind⟩ : ∃ n, first.scenario? ⟨4⟩ = some n ∧ n.kind = .scenario :=
    Option.map_eq_some_iff.1 (by decide)
  exact ⟨hfirst, hfirst.reachable.isForest.2 hfirst ⟨4⟩ n hn (Or.inl hkind), hsecond,
    hsecond.isForest.1, by decide, by decide, by decide⟩

end Atlas

end FeatureAtlas
