import FeatureAtlas.Proofs.Expansion
import FeatureAtlas.Proofs.Permanence
import FeatureAtlas.Proofs.TagLinks

/-!
# The tags of a run

The documents of a run say beforehand what its index will hold. Going through them in order, and
leaving out what the filters exclude, every feature and every child is a bearer, and what the
bearers mention is what the index records. `Atlas.Indexes` puts this together: the tags with their
occurrences and owners, the nodes of the bearers, and the nodes that carry nothing.
-/

namespace FeatureAtlas

/-! ## Bearers in documents -/

namespace Child

/-- How many instances a child has: one for each row of an outline. -/
def instanceCount : Child → Nat
  | .outline b => (b.examples.flatMap (·.body)).length
  | _ => 0

/-- How many scenarios children become: their own nodes, and the instances. -/
def nodeCount : List Child → Nat
  | [] => 0
  | c :: cs => c.instanceCount + 1 + nodeCount cs

/-- Every child is a bearer; the node of the first has the given id, and instances come after the
node of their outline. -/
def bearers (document : Path) : ScenarioId → List Child → List Bearer
  | _, [] => []
  | id, c :: cs =>
    ⟨.scenario id, ⟨document, c.block.position.line⟩, tagTexts c.block.tags⟩
      :: bearers document (id.shift (c.instanceCount + 1)) cs

end Child

namespace FeatureBlock

/-- The bearers of a feature: itself, and then its children. -/
def bearers (document : Path) (feature : FeatureId) (scenario : ScenarioId) (f : FeatureBlock) :
    List Bearer :=
  ⟨.feature feature, ⟨document, f.position.line⟩, tagTexts f.tags⟩
    :: Child.bearers document scenario f.children

/-- How many scenarios a feature has. -/
def nodeCount (f : FeatureBlock) : Nat := Child.nodeCount f.children

end FeatureBlock

/-- What a filter keeps of the feature of a document: nothing if it excludes the feature, and
otherwise all but the scenarios and outlines that it excludes. -/
def Document.kept? (filter : TagFilter) (d : Document) : Option FeatureBlock :=
  d.feature?.bind fun f =>
    if filter.excludes (tagTexts f.tags) then none else some (f.keptBy filter)

/-- The bearers of documents under their filters, where the next nodes have the given ids. -/
def bearersOf : FeatureId → ScenarioId → List (Document × TagFilter) → List Bearer
  | _, _, [] => []
  | feature, scenario, (d, filter) :: ds =>
    match d.kept? filter with
    | none => bearersOf feature scenario ds
    | some f =>
      f.bearers d.path feature scenario
        ++ bearersOf (feature.shift 1) (scenario.shift f.nodeCount) ds

/-! ## One document -/

variable {a a' : Atlas} {d : Document} {filter : TagFilter} {ds : List (Document × TagFilter)}

theorem Child.length_bindings_plan (c : Child) :
    (c.block.plan c.kind).bindings.length = c.instanceCount := by
  cases c with
  | outline b =>
    simp [instanceCount, BlockPlan.length_bindings, block, kind, Block.plan, Block.examplesPlans,
      List.length_flatMap, List.map_map, Function.comp_def, ExamplesBlock.plan]
  | _ => rfl

theorem FeatureBlock.nodeCount_plan (f : FeatureBlock) : f.plan.nodeCount = f.nodeCount := by
  have hchildren (cs : List Child) :
      ChildPlan.nodeCount (cs.map fun c => .kept (c.block.plan c.kind)) = Child.nodeCount cs := by
    induction cs with
    | nil => rfl
    | cons c cs ih =>
      rw [List.map_cons, ChildPlan.nodeCount, ih, c.length_bindings_plan]
      rfl
  exact hchildren f.children

theorem FeatureBlock.bearers_plan (document : Path) (feature : FeatureId) (scenario : ScenarioId)
    (f : FeatureBlock) :
    f.plan.bearers document feature scenario = f.bearers document feature scenario := by
  have hchildren (cs : List Child) (id : ScenarioId) :
      ChildPlan.bearers document id (cs.map fun c => .kept (c.block.plan c.kind)) =
        Child.bearers document id cs := by
    induction cs generalizing id with
    | nil => rfl
    | cons c cs ih =>
      rw [List.map_cons, ChildPlan.bearers, ih, c.length_bindings_plan]
      rfl
  rw [FeaturePlan.bearers, bearers, ← hchildren]
  rfl

namespace Atlas

/-- A document that is added without an error adds what the filter keeps of its feature. -/
theorem atlas_addDocument_of_ok {result : Option FeatureId}
    (hok : (a.addDocument d filter).outcome = .ok result) :
    (a.addDocument d filter).atlas =
      match d.kept? filter with
      | none => a
      | some f => a.addFeature d.path f.plan := by
  cases hfeature : d.feature? with
  | none =>
    have hplan : d.plan filter = .noFeature := by simp [Document.plan, hfeature]
    rw [addDocument_eq_carryOut, hplan]
    simp [Document.kept?, hfeature, DocumentPlan.carryOut]
  | some f =>
    cases hkept : filter.excludes (tagTexts f.tags) with
    | true =>
      rw [addDocument_of_excluded hfeature hkept]
      simp [Document.kept?, hfeature, hkept]
    | false =>
      have hfeature' : (d.keptBy filter).feature? = some (f.keptBy filter) := by
        simp [Document.keptBy, hfeature]
      have hkept? : d.kept? filter = some (f.keptBy filter) := by
        simp [Document.kept?, hfeature, hkept]
      rw [addDocument_of_kept hfeature hkept, addDocument_eq_carryOut] at hok ⊢
      rw [hkept?]
      cases hplan : (d.keptBy filter).plan .keepAll with
      | noFeature => simp [Document.plan, hfeature'] at hplan
      | excluded title => simp [Document.plan, hfeature'] at hplan
      | feature plan failure =>
        rw [hplan] at hok
        cases failure with
        | some e => cases hok
        | none =>
          rw [Document.plan_keepAll_of_sound hfeature' hplan]
          rfl

/-- The index of a run records the mentions of the bearers in their order. -/
theorem tags_addDocuments (hrun : a.addDocuments ds = .ok a') :
    a'.tags = (a.tags.recordEach
      ((bearersOf a.features.nextId a.scenarios.nextId ds).flatMap Bearer.mentions)).1 := by
  induction ds generalizing a with
  | nil =>
    cases hrun
    rfl
  | cons p ds ih =>
    obtain ⟨d, filter⟩ := p
    obtain ⟨⟨result, hok⟩, hrest⟩ := addDocuments_cons_eq_ok_iff.1 hrun
    have hatlas := atlas_addDocument_of_ok hok
    rw [ih hrest, hatlas, bearersOf]
    cases d.kept? filter with
    | none => rfl
    | some f =>
      obtain ⟨hfeature, hscenario⟩ := a.nextId_addFeature d.path f.plan
      dsimp only
      rw [hfeature, hscenario, f.nodeCount_plan, tags_addFeature, f.bearers_plan,
        List.flatMap_append, TagIndex.recordEach_append]

/-! ## The nodes of the bearers -/

/-- A bearer is a node of the atlas, at its place and with its tags, each once. -/
def Carries (a : Atlas) (b : Bearer) : Prop :=
  ∃ c, a.carrier? b.owner = some c ∧ c.occurrence = b.place ∧
    c.tags.mapM a.viewTag? = some (b.tags.map tagName).eraseDups

theorem GrowsIn.carrier? {document : Path} (h : a.GrowsIn document a') {n : TagOwner} {c : Carrier}
    (hc : a.carrier? n = some c) : a'.carrier? n = some c := by
  cases n with
  | feature id =>
    obtain ⟨f, hf, rfl⟩ := Option.map_eq_some_iff.1 hc
    exact Option.map_eq_some_iff.2 ⟨f, h.feature id f hf, rfl⟩
  | scenario id =>
    obtain ⟨n, hn, rfl⟩ := Option.map_eq_some_iff.1 hc
    exact Option.map_eq_some_iff.2 ⟨n, h.scenario id n hn, rfl⟩

theorem GrowsIn.carries {document : Path} (h : a.GrowsIn document a') {b : Bearer}
    (hb : a.Carries b) : a'.Carries b := by
  have hview (id : TagId) (name : String) (hname : a.viewTag? id = some name) :
      a'.viewTag? id = some name := by
    obtain ⟨t, ht, rfl⟩ := Option.map_eq_some_iff.1 hname
    obtain ⟨t', ht', hcontinues⟩ := h.tags.tag id t ht
    exact Option.map_eq_some_iff.2 ⟨t', ht', hcontinues.name_eq⟩
  obtain ⟨c, hc, hplace, htags⟩ := hb
  exact ⟨c, h.carrier? hc, hplace, mapM_mono hview htags⟩

end Atlas

theorem Growth.carries_addBlock (g : Growth) (document : Path) (b : BlockPlan) :
    (g.addBlock document b).atlas.Carries (b.bearer document g.atlas.scenarios.nextId) := by
  have hnode : (g.addBlock document b).atlas.scenario? g.atlas.scenarios.nextId = some _ :=
    Atlas.scenario?_place rfl
  refine ⟨_, Option.map_eq_some_iff.2 ⟨_, hnode, rfl⟩, rfl, ?_⟩
  exact Atlas.mapM_viewTag?_recordAll g.atlas.tags _ _ b.tags rfl

theorem Growth.carries_addAll (g : Growth) (document : Path) (cs : List ChildPlan) :
    ∀ b ∈ ChildPlan.bearers document g.atlas.scenarios.nextId cs,
      (g.addAll document cs).atlas.Carries b := by
  induction cs generalizing g with
  | nil => simp [ChildPlan.bearers]
  | cons c cs ih =>
    cases c with
    | excluded kind title line => exact ih g
    | kept b =>
      have hgrows := (g.addBlock document b).growsIn_addAll document cs
      have hrest := ih (g.addBlock document b)
      rw [nextId_addBlock] at hrest
      exact List.forall_mem_cons.2 ⟨hgrows.carries (g.carries_addBlock document b), hrest⟩

namespace Atlas

theorem carries_addFeature (a : Atlas) (document : Path) (p : FeaturePlan) :
    ∀ b ∈ p.bearers document a.features.nextId a.scenarios.nextId,
      (a.addFeature document p).Carries b := by
  let start := (p.start a document).1
  let g := start.addAll document p.children
  have hfeatures : g.atlas.features = a.features := Growth.features_addAll _ _ _
  refine List.forall_mem_cons.2 ⟨?_, fun b hb => ?_⟩
  · have hnode : (a.addFeature document p).feature? a.features.nextId =
        some ⟨p.heading document, (p.start a document).2, g.children, g.background⟩ := by
      rw [← hfeatures]
      exact Arena.get?_push_nextId _ _
    have hnames : start.atlas.Extends g.atlas := start.extends_addAll document p.children
    refine ⟨_, Option.map_eq_some_iff.2 ⟨_, hnode, rfl⟩, rfl, ?_⟩
    exact mapM_mono hnames.viewTag? (mapM_viewTag?_recordAll a.tags _ _ p.tags rfl)
  · have hclose : g.atlas.GrowsIn document (a.addFeature document p) := growsIn_close g _
    exact hclose.carries (start.carries_addAll document p.children b hb)

/-- All bearers of a run are nodes in the end. -/
theorem carries_addDocuments (hrun : a.addDocuments ds = .ok a') :
    (∀ b, a.Carries b → a'.Carries b) ∧
      ∀ b ∈ bearersOf a.features.nextId a.scenarios.nextId ds, a'.Carries b := by
  induction ds generalizing a with
  | nil =>
    cases hrun
    exact ⟨fun _ hb => hb, by simp [bearersOf]⟩
  | cons p ds ih =>
    obtain ⟨d, filter⟩ := p
    obtain ⟨⟨result, hok⟩, hrest⟩ := addDocuments_cons_eq_ok_iff.1 hrun
    obtain ⟨hkept, hbearers⟩ := ih hrest
    refine ⟨fun b hb => hkept b ((a.growsIn_addDocument d filter).carries hb), ?_⟩
    rw [atlas_addDocument_of_ok hok] at hkept hbearers
    rw [bearersOf]
    cases hfeature : d.kept? filter with
    | none =>
      rw [hfeature] at hbearers
      exact hbearers
    | some f =>
      rw [hfeature] at hkept hbearers
      obtain ⟨hfeatureId, hscenarioId⟩ := a.nextId_addFeature d.path f.plan
      dsimp only at hkept hbearers ⊢
      rw [hfeatureId, hscenarioId, f.nodeCount_plan] at hbearers
      refine List.forall_mem_append.2 ⟨fun b hb => hkept b ?_, hbearers⟩
      rw [← f.bearers_plan] at hb
      exact a.carries_addFeature d.path f.plan b hb

end Atlas

/-! ## Owners are counted -/

/-- An owner for which the given ids are not taken yet. -/
def TagOwner.IsFrom (feature : FeatureId) (scenario : ScenarioId) : TagOwner → Prop
  | .feature id => feature.index ≤ id.index
  | .scenario id => scenario.index ≤ id.index

theorem TagOwner.IsFrom.mono {feature feature' : FeatureId} {scenario scenario' : ScenarioId}
    (hfeature : feature'.index ≤ feature.index) (hscenario : scenario'.index ≤ scenario.index)
    {n : TagOwner} (h : n.IsFrom feature scenario) : n.IsFrom feature' scenario' := by
  cases n with
  | feature id => exact hfeature.trans h
  | scenario id => exact hscenario.trans h

/-- The scenarios among children are counted without taking an id twice. -/
theorem Child.owners_bearers (document : Path) (id : ScenarioId) (cs : List Child) :
    ((bearers document id cs).map (·.owner)).Nodup ∧
      ∀ b ∈ bearers document id cs, ∃ i : ScenarioId, b.owner = .scenario i ∧
        id.index ≤ i.index ∧ i.index < id.index + nodeCount cs := by
  induction cs generalizing id with
  | nil => simp [bearers]
  | cons c cs ih =>
    obtain ⟨hnodup, hrange⟩ := ih (id.shift (c.instanceCount + 1))
    simp only [NodeId.index_shift] at hrange
    rw [nodeCount]
    refine ⟨List.nodup_cons.2 ⟨fun hmem => ?_, hnodup⟩, List.forall_mem_cons.2 ⟨?_, ?_⟩⟩
    · obtain ⟨b, hb, howner⟩ := List.mem_map.1 hmem
      obtain ⟨i, hi, hle, -⟩ := hrange b hb
      have hid : i = id := TagOwner.scenario.inj (hi.symm.trans howner)
      rw [hid] at hle
      omega
    · exact ⟨id, rfl, Nat.le_refl _, by omega⟩
    · intro b hb
      obtain ⟨i, hi, hle, hlt⟩ := hrange b hb
      exact ⟨i, hi, by omega, by omega⟩

/-- No two bearers of a run are the same node. -/
theorem nodup_owners_bearersOf (feature : FeatureId) (scenario : ScenarioId)
    (ds : List (Document × TagFilter)) :
    ((bearersOf feature scenario ds).map (·.owner)).Nodup ∧
      ∀ b ∈ bearersOf feature scenario ds, b.owner.IsFrom feature scenario := by
  induction ds generalizing feature scenario with
  | nil => simp [bearersOf]
  | cons p ds ih =>
    obtain ⟨d, filter⟩ := p
    rw [bearersOf]
    cases d.kept? filter with
    | none => exact ih feature scenario
    | some f =>
      obtain ⟨hnodup, hfrom⟩ := ih (feature.shift 1) (scenario.shift f.nodeCount)
      obtain ⟨hchildren, hrange⟩ := Child.owners_bearers d.path scenario f.children
      have hown : ((f.bearers d.path feature scenario).map (·.owner)).Nodup := by
        refine List.nodup_cons.2 ⟨fun hmem => ?_, hchildren⟩
        obtain ⟨b, hb, howner⟩ := List.mem_map.1 hmem
        obtain ⟨i, hi, -⟩ := hrange b hb
        cases hi.symm.trans howner
      dsimp only
      rw [List.map_append]
      refine ⟨hown.append hnodup fun n hn hn' => ?_, List.forall_mem_append.2 ⟨?_, ?_⟩⟩
      · obtain ⟨b, hb, rfl⟩ := List.mem_map.1 hn
        obtain ⟨b', hb', howner⟩ := List.mem_map.1 hn'
        have hlater := hfrom b' hb'
        rw [howner] at hlater
        rcases List.mem_cons.1 hb with rfl | hb
        · exact Nat.not_succ_le_self _ hlater
        · obtain ⟨i, hi, -, hlt⟩ := hrange b hb
          rw [hi] at hlater
          exact Nat.not_le_of_lt hlt hlater
      · refine List.forall_mem_cons.2 ⟨Nat.le_refl _, fun b hb => ?_⟩
        obtain ⟨i, hi, hle, -⟩ := hrange b hb
        rw [hi]
        exact hle
      · exact fun b hb => (hfrom b hb).mono (Nat.le_add_right _ _) (Nat.le_add_right _ _)

namespace Atlas

/-! ## Instances -/

/-- Instances of outlines have no tags. -/
theorem Reachable.tags_instance (h : a.Reachable) : ∀ id n, a.scenario? id = some n →
    n.kind = .example → n.tags = [] := by
  refine h.invariant_of_isOfChild
    (P := fun a => ∀ id n, a.scenario? id = some n → n.kind = .example → n.tags = [])
    (Q := BlockPlan.IsOfChild) ?_ ?_ ?_ ?_ fun _ hb => hb
  · exact fun a document f ha => ha
  · intro g f document b hb hg id n hn hkind
    rcases cases_scenario?_place rfl hn with hold | ⟨-, rfl⟩ | ⟨number, -, -, rfl⟩
    · exact hg id n hold hkind
    · exact absurd hkind hb.kind_ne
    · rfl
  · intro id n hn
    cases hn
  · exact fun a id change _ ha => ha

/-- Instances of outlines own no tags. -/
theorem Reachable.not_mem_owners_instance (h : a.Reachable) {id : ScenarioId} {n : Scenario}
    (hn : a.scenario? id = some n) (hkind : n.kind = .example) {tag : TagId} {t : Tag}
    (ht : a.tag? tag = some t) : .scenario id ∉ t.owners := by
  intro howner
  obtain ⟨c, hc, hmem⟩ := ((h.isLinked.tag tag t ht).owner_iff _).1 howner
  rw [carrier?, hn, Option.map_some, Option.some.injEq] at hc
  rw [← hc, h.tags_instance id n hn hkind] at hmem
  cases hmem

/-! ## The index of a run -/

/-- The tags of an atlas are what the bearers mention, and nothing else. -/
structure Indexes (a : Atlas) (bs : List Bearer) : Prop where
  /-- Tags come in the order in which their names are first mentioned. -/
  names_eq : a.tags.names = ((bs.flatMap Bearer.mentions).map Mention.name).eraseDups
  occurrences_eq : ∀ id t, a.tag? id = some t → t.occurrences =
    ((bs.flatMap Bearer.mentions).filter (·.name = t.name)).map (·.occurrence)
  owners_eq : ∀ id t, a.tag? id = some t → t.owners =
    (((bs.flatMap Bearer.mentions).filter (·.name = t.name)).map (·.owner)).eraseDups
  /-- The bearers are different nodes, at their places and with their tags. -/
  carries : ∀ b ∈ bs, a.Carries b
  nodup_owners : (bs.map (·.owner)).Nodup
  /-- Instances of outlines have no tags and own none. -/
  instances : ∀ id n, a.scenario? id = some n → n.kind = .example →
    n.tags = [] ∧ ∀ tag t, a.tag? tag = some t → .scenario id ∉ t.owners
  byName_perm : a.tags.byName.Perm a.tags.tags.toList
  byName_increasing : a.tags.byName.Pairwise (·.name < ·.name)

theorem holds_addDocuments (hrun : Atlas.empty.addDocuments ds = .ok a) :
    a.tags.Holds ((bearersOf ⟨0⟩ ⟨0⟩ ds).flatMap Bearer.mentions) := by
  rw [tags_addDocuments hrun]
  exact TagIndex.holds_recordEach _

/-- After any documents under any filters the tags are exactly what their features and children
mention, as far as the filters keep them. -/
theorem indexes_addDocuments (hrun : Atlas.empty.addDocuments ds = .ok a) :
    a.Indexes (bearersOf ⟨0⟩ ⟨0⟩ ds) := by
  have hreachable : a.Reachable := Reachable.empty.addDocuments hrun
  have hholds := holds_addDocuments hrun
  constructor
  case names_eq => exact hholds.names
  case occurrences_eq => exact fun id t ht => congrArg Tag.occurrences (hholds.tag id t ht)
  case owners_eq => exact fun id t ht => congrArg Tag.owners (hholds.tag id t ht)
  case carries => exact (carries_addDocuments hrun).2
  case nodup_owners => exact (nodup_owners_bearersOf _ _ ds).1
  case instances =>
    exact fun id n hn hkind => ⟨hreachable.tags_instance id n hn hkind,
      fun tag t ht => hreachable.not_mem_owners_instance hn hkind ht⟩
  case byName_perm => exact a.tags.perm_byName
  case byName_increasing => exact TagIndex.pairwise_byName hholds.nodup_names

end Atlas

/-- A feature with an unfinished scenario, and with an outline that has three instances. -/
def FeatureBlock.tasting (tags : List TagMark) : FeatureBlock where
  keyword := "Feature"
  title := "Tasting"
  description := ""
  comments := []
  position := ⟨2, 1⟩
  tags := tags
  children :=
    [.background (.bare "Background" 4 []),
      .scenario (.bare "Scenario" 6 [⟨"@wip", ⟨5, 3⟩⟩, ⟨"@full", ⟨5, 8⟩⟩]),
      .outline .eating,
      .scenario (.bare "Scenario" 20 [⟨"@full", ⟨19, 3⟩⟩, ⟨"full", ⟨19, 9⟩⟩])]

/-- Four documents: one without its unfinished scenario, one that is left out, one without a
feature, and one with everything. The first tag is mentioned by both outlines, and by one of the
features. -/
theorem Atlas.indexes_tastings :
    let wip := TagFilter.ofTags ["wip"]
    let ds : List (Document × TagFilter) :=
      [(⟨⟨"a.feature"⟩, some (.tasting [⟨"slow", ⟨1, 1⟩⟩])⟩, wip),
        (⟨⟨"b.feature"⟩, some (.tasting [⟨"@wip", ⟨1, 1⟩⟩])⟩, wip),
        (⟨⟨"c.feature"⟩, none⟩, wip),
        (⟨⟨"d.feature"⟩, some (.tasting [])⟩, .keepAll)]
    let bs := bearersOf ⟨0⟩ ⟨0⟩ ds
    ∃ a, Atlas.empty.addDocuments ds = .ok a ∧ a.Indexes bs ∧ bs.length = 9 ∧
      a.tags.names = ["slow", "full", "wip"] ∧
      (a.tag? ⟨0⟩).map (·.owners) =
        some [.feature ⟨0⟩, .scenario ⟨1⟩, .scenario ⟨8⟩] ∧
      (a.tag? ⟨1⟩).map (·.occurrences) =
        some [⟨⟨"a.feature"⟩, 20⟩, ⟨⟨"a.feature"⟩, 20⟩, ⟨⟨"d.feature"⟩, 6⟩, ⟨⟨"d.feature"⟩, 20⟩,
          ⟨⟨"d.feature"⟩, 20⟩] := by
  intro wip ds bs
  have hrun : Atlas.empty.addDocuments ds = .ok _ := rfl
  exact ⟨_, hrun, indexes_addDocuments hrun, by decide, by decide, by decide, by decide⟩

end FeatureAtlas
