import FeatureAtlas.Proofs.Loading
import FeatureAtlas.Proofs.Ownership
import FeatureAtlas.Proofs.TagHistory
import Mathlib.Data.List.Perm.Basic

/-!
# Counting what can be reached

A report counts the nodes of a kind wherever they are, while a reader of an atlas follows links from
the features: to their backgrounds and children, and from outlines to their instances. As long as no
document fails, the two agree for all kinds but one. The background of a feature is replaced by a
later one, and the node of the earlier one stays: it is counted, and has its tags, and nothing leads
to it. `Atlas.IsNavigable` says that nothing else is out of reach, and
`Atlas.ReachableCleanly.isNavigable_except_replaced` counts what is replaced in the documents.
-/

namespace FeatureAtlas

/-! ## Entries of an arena -/

namespace Arena

variable {kind : NodeKind} {α : Type} {nodes : Arena kind α}

theorem mem_entries_iff {id : NodeId kind} {node : α} :
    (id, node) ∈ nodes.entries ↔ nodes.get? id = some node := by
  obtain ⟨i⟩ := id
  rw [get?_eq_toList, entries, List.mem_map]
  constructor
  · rintro ⟨⟨other, j⟩, hmem, heq⟩
    cases heq
    exact List.mem_zipIdx_iff_getElem?.1 hmem
  · exact fun h => ⟨(node, i), List.mem_zipIdx_iff_getElem?.2 h, rfl⟩

theorem map_snd_entries (nodes : Arena kind α) : nodes.entries.map (·.2) = nodes.toList := by
  rw [entries, List.map_map]
  exact List.zipIdx_map_fst 0 nodes.toList

theorem nodup_entries (nodes : Arena kind α) : (nodes.entries.map (·.1)).Nodup := by
  have hindices : (nodes.entries.map (·.1)).map (·.index) =
      List.range' 0 nodes.toList.length := by
    rw [entries, List.map_map, List.map_map]
    exact List.zipIdx_map_snd 0 nodes.toList
  exact List.Nodup.of_map _ (hindices ▸ List.nodup_range')

end Arena

/-! ## What is reached -/

namespace Atlas

/-- The ids of all nodes of a kind. -/
def idsOf (a : Atlas) (kind : ScenarioKind) : List ScenarioId :=
  (a.scenarios.entries.filter (·.2.kind = kind)).map (·.1)

/-- The children of features that are of a kind. -/
def childrenOf (a : Atlas) (kind : ScenarioKind) : List ScenarioId :=
  a.listedChildren.filter fun id => (a.scenario? id).any (·.kind = kind)

/-- The instances that a node lists. -/
def instancesOf (a : Atlas) (id : ScenarioId) : List ScenarioId :=
  ((a.scenario? id).map (·.instances)).getD []

/-- The nodes of a kind that links lead to, from all features on. -/
def reached (a : Atlas) : ScenarioKind → List ScenarioId
  | .background => a.features.toList.flatMap (·.background.toList)
  | .scenario => a.childrenOf .scenario
  | .outline => a.childrenOf .outline
  | .example => (a.childrenOf .outline).flatMap a.instancesOf

/-- The backgrounds that no feature has. -/
def replaced (a : Atlas) : List ScenarioId :=
  (a.idsOf .background).filter (· ∉ a.reached .background)

/-- The features and the scenarios that links lead to. -/
def IsReached (a : Atlas) : TagOwner → Prop
  | .feature id => ∃ f, a.feature? id = some f
  | .scenario id => ∃ kind, id ∈ a.reached kind

/-- What is counted and what is reached. -/
structure IsNavigable (a : Atlas) : Prop where
  /-- No node is reached twice, and all are of the kind they are reached as. -/
  nodup : ∀ kind, (a.reached kind).Nodup
  isOfKind : ∀ kind, ∀ id ∈ a.reached kind, ∃ n, a.scenario? id = some n ∧ n.kind = kind
  /-- All nodes are reached except replaced backgrounds. -/
  count : ∀ kind, kind ≠ .background → a.countOf kind = (a.reached kind).length
  count_background :
    a.countOf .background = (a.reached .background).length + a.replaced.length
  /-- A background is replaced by a later one of its feature. -/
  mem_replaced_iff : ∀ id, id ∈ a.replaced ↔
    ∃ n later m, a.scenario? id = some n ∧ a.scenario? later = some m ∧
      n.kind = .background ∧ m.kind = .background ∧ n.feature = m.feature ∧
        id.index < later.index
  /-- Tags are owned by what is reached and by replaced backgrounds. -/
  owner : ∀ tag t, a.tag? tag = some t → ∀ n ∈ t.owners,
    a.IsReached n ∨ ∃ id ∈ a.replaced, n = .scenario id

section

variable {a : Atlas} {id : ScenarioId} {kind : ScenarioKind}

theorem mem_idsOf_iff : id ∈ a.idsOf kind ↔ ∃ n, a.scenario? id = some n ∧ n.kind = kind := by
  simp [idsOf, scenario?, Arena.mem_entries_iff]

theorem nodup_idsOf (a : Atlas) (kind : ScenarioKind) : (a.idsOf kind).Nodup :=
  a.scenarios.nodup_entries.sublist (List.filter_sublist.map _)

theorem length_idsOf (a : Atlas) (kind : ScenarioKind) :
    (a.idsOf kind).length = a.countOf kind := by
  rw [idsOf, countOf, List.length_map, ← List.countP_eq_length_filter,
    ← a.scenarios.map_snd_entries, List.countP_map]
  rfl

theorem mem_childrenOf_iff : id ∈ a.childrenOf kind ↔
    id ∈ a.listedChildren ∧ ∃ n, a.scenario? id = some n ∧ n.kind = kind := by
  simp [childrenOf, Option.any_eq_true]

theorem mem_instancesOf_iff {outline : ScenarioId} : id ∈ a.instancesOf outline ↔
    ∃ o, a.scenario? outline = some o ∧ id ∈ o.instances := by
  rw [instancesOf]
  cases a.scenario? outline <;> simp

end

/-! ## Owners are reached -/

/-- The feature that a background names. -/
def backgroundOwner? (a : Atlas) (id : ScenarioId) : Option FeatureId :=
  (a.scenario? id).bind fun n => if n.kind = .background then some n.feature else none

section

variable {a : Atlas} {id : ScenarioId} {kind : ScenarioKind}

theorem backgroundOwner?_eq_some_iff {feature : FeatureId} :
    a.backgroundOwner? id = some feature ↔
      ∃ n, a.scenario? id = some n ∧ n.kind = .background ∧ n.feature = feature := by
  simp [backgroundOwner?, Option.bind_eq_some_iff]

theorem HasOwnChildren.lists_background (h : a.HasOwnChildren) :
    a.features.Lists (·.background.toList) a.backgroundOwner? where
  nodup id f hf := by cases f.background <;> simp
  owner_eq id f hf b hb :=
    backgroundOwner?_eq_some_iff.2 (h.background id f hf b (Option.mem_toList.1 hb))

theorem HasOwnChildren.nodup_childrenOf (h : a.HasOwnChildren) (kind : ScenarioKind) :
    (a.childrenOf kind).Nodup :=
  h.children.nodup_flatMap.filter _

/-- No node is reached on two ways. -/
theorem nodup_reached (hnodes : a.HasOwnNodes) (hchildren : a.HasOwnChildren)
    (kind : ScenarioKind) : (a.reached kind).Nodup := by
  cases kind with
  | background => exact hchildren.lists_background.nodup_flatMap
  | scenario => exact hchildren.nodup_childrenOf .scenario
  | outline => exact hchildren.nodup_childrenOf .outline
  | «example» =>
    refine List.nodup_flatMap.2 ⟨fun outline _ => ?_, ?_⟩
    · rw [instancesOf]
      cases ho : a.scenario? outline with
      | none => exact List.nodup_nil
      | some o => exact hnodes.instances.nodup outline o ho
    · refine (hchildren.nodup_childrenOf .outline).pairwise_of_forall_ne ?_
      intro outline _ other _ hne i hi hi'
      obtain ⟨o, ho, hio⟩ := mem_instancesOf_iff.1 hi
      obtain ⟨o', ho', hio'⟩ := mem_instancesOf_iff.1 hi'
      have hsame := (hnodes.instances.owner_eq outline o ho i hio).symm.trans
        (hnodes.instances.owner_eq other o' ho' i hio')
      exact hne (Option.some.inj hsame)

/-- What is reached as a node of a kind is one. -/
theorem exists_of_mem_reached (hnodes : a.HasOwnNodes) (hchildren : a.HasOwnChildren)
    (h : id ∈ a.reached kind) : ∃ n, a.scenario? id = some n ∧ n.kind = kind := by
  cases kind with
  | background =>
    obtain ⟨feature, howner⟩ := hchildren.lists_background.exists_owner h
    obtain ⟨n, hn, hkind, -⟩ := backgroundOwner?_eq_some_iff.1 howner
    exact ⟨n, hn, hkind⟩
  | scenario => exact (mem_childrenOf_iff.1 h).2
  | outline => exact (mem_childrenOf_iff.1 h).2
  | «example» =>
    obtain ⟨outline, -, hid⟩ := List.mem_flatMap.1 h
    obtain ⟨o, ho, hmem⟩ := mem_instancesOf_iff.1 hid
    have howner := hnodes.instances.owner_eq outline o ho id hmem
    obtain ⟨n, hn, houtline⟩ := outlineOf?_eq_some_iff.1 howner
    exact ⟨n, hn, (hnodes.isOfKind id n hn).example_iff.2 ⟨outline, houtline⟩⟩

/-- As long as no document fails, all scenarios and outlines are children. -/
theorem ReachableCleanly.mem_childrenOf (h : a.ReachableCleanly) {n : Scenario}
    (hn : a.scenario? id = some n) (hkind : n.kind = .scenario ∨ n.kind = .outline) :
    id ∈ a.childrenOf n.kind :=
  mem_childrenOf_iff.2
    ⟨h.listsAll_children id n.feature (parentOf?_eq_some_iff.2 ⟨n, hn, hkind, rfl⟩), n, hn, rfl⟩

/-- As long as no document fails, all nodes are reached except backgrounds. -/
theorem ReachableCleanly.mem_reached (h : a.ReachableCleanly) {n : Scenario}
    (hn : a.scenario? id = some n) (hkind : n.kind ≠ .background) : id ∈ a.reached n.kind := by
  have hchild (kind : n.kind = .scenario ∨ n.kind = .outline) := h.mem_childrenOf hn kind
  cases hcase : n.kind with
  | background => exact absurd hcase hkind
  | scenario =>
    rw [hcase] at hchild
    exact hchild (Or.inl rfl)
  | outline =>
    rw [hcase] at hchild
    exact hchild (Or.inr rfl)
  | «example» =>
    obtain ⟨outline, o, -, ho, hoKind, -, hid, -⟩ :=
      h.reachable.hasOwnNodes.exists_block hn hcase
    refine List.mem_flatMap.2 ⟨outline, ?_, mem_instancesOf_iff.2 ⟨o, ho, hid⟩⟩
    exact hoKind ▸ h.mem_childrenOf ho (Or.inr hoKind)

end

/-! ## The last background -/

/-- The feature that a background names has a background, and no earlier one. -/
def HasLastBackgrounds (a : Atlas) : Prop :=
  ∀ id n, a.scenario? id = some n → n.kind = .background →
    ∃ f b, a.feature? n.feature = some f ∧ f.background = some b ∧ id.index ≤ b.index

/-- A new feature changes no earlier one. -/
theorem HasLastBackgrounds.opened {a : Atlas} (h : a.HasLastBackgrounds) (document : Path)
    (p : FeaturePlan) : (a.opened document p).HasLastBackgrounds := by
  intro id n hn hkind
  obtain ⟨f, b, hf, hb⟩ := h id n hn hkind
  have hne : n.feature ≠ a.features.nextId := by
    intro hnew
    have hlt := Arena.lt_size_of_get? hf
    rw [hnew] at hlt
    exact Nat.lt_irrefl _ hlt
  exact ⟨f, b, (Arena.get?_push _ _ _).trans ((if_neg hne).trans hf), hb⟩

/-- A listed block is the background of its feature if it is one. -/
theorem HasLastBackgrounds.addBlock {g : Growth} {f : Feature} (h : (g.close f).HasLastBackgrounds)
    (document : Path) {b : BlockPlan} (hlisted : b.isListed = true) :
    ((g.addBlock document b).close f).HasLastBackgrounds := by
  let grown := g.addBlock document b
  have hopen : (grown.close f).feature? g.atlas.features.nextId =
      some { f with children := grown.children, background := grown.background } :=
    (feature?_close grown f _).trans (if_pos rfl)
  intro id n hn hkind
  rcases cases_scenario?_place (a := g.atlas) rfl hn with hold | ⟨rfl, rfl⟩ | ⟨number, -, -, rfl⟩
  · -- An earlier background names an earlier feature or the open one, whose background moves on.
    obtain ⟨feature, back, hfeature, hback, hle⟩ := h id n hold hkind
    rw [feature?_close] at hfeature
    split at hfeature
    · next hid =>
      cases hfeature
      rw [hid]
      by_cases hnew : b.kind = .background
      · exact ⟨_, _, hopen, if_pos ⟨hlisted, hnew⟩, (Arena.lt_size_of_get? hold).le⟩
      · exact ⟨_, back, hopen, (g.background_addBlock_of_ne document hnew).trans hback, hle⟩
    · next hid =>
      exact ⟨feature, back, (feature?_close grown f _).trans ((if_neg hid).trans hfeature), hback,
        hle⟩
  · exact ⟨_, _, hopen, if_pos ⟨hlisted, hkind⟩, Nat.le_refl _⟩
  · cases hkind

theorem ReachableCleanly.hasLastBackgrounds {a : Atlas} (h : a.ReachableCleanly) :
    a.HasLastBackgrounds := by
  refine h.invariant (P := HasLastBackgrounds) (Q := fun b => b.isListed = true)
    ?_ ?_ ?_ ?_ fun _ _ hlisted => hlisted
  · exact fun a document f ha => ha.opened document f
  · exact fun g f document b hb hg => hg.addBlock document hb
  · exact fun _ _ h => by cases h
  · exact fun _ _ _ _ ha => ha

section

variable {a : Atlas} {id : ScenarioId}

theorem mem_reached_background_iff : id ∈ a.reached .background ↔
    ∃ feature f, a.feature? feature = some f ∧ f.background = some id := by
  constructor
  · intro h
    obtain ⟨feature, f, hf, hid⟩ := Arena.exists_of_mem_flatMap h
    exact ⟨feature, f, hf, Option.mem_toList.1 hid⟩
  · rintro ⟨feature, f, hf, hid⟩
    have hmem : f ∈ a.features.toList := by
      rw [feature?, Arena.get?_eq_toList] at hf
      exact List.mem_of_getElem? hf
    exact List.mem_flatMap.2 ⟨f, hmem, Option.mem_toList.2 hid⟩

theorem mem_replaced_iff : id ∈ a.replaced ↔
    (∃ n, a.scenario? id = some n ∧ n.kind = .background) ∧ id ∉ a.reached .background := by
  simp [replaced, mem_idsOf_iff]

/-- A background is not that of its feature just if a later one is. -/
theorem mem_replaced_iff_later (hlast : a.HasLastBackgrounds) (hchildren : a.HasOwnChildren) :
    id ∈ a.replaced ↔ ∃ n later m, a.scenario? id = some n ∧ a.scenario? later = some m ∧
      n.kind = .background ∧ m.kind = .background ∧ n.feature = m.feature ∧
        id.index < later.index := by
  rw [mem_replaced_iff]
  constructor
  · rintro ⟨⟨n, hn, hkind⟩, hnot⟩
    obtain ⟨f, b, hf, hb, hle⟩ := hlast id n hn hkind
    obtain ⟨m, hm, hkind', hfeature⟩ := hchildren.background n.feature f hf b hb
    have hne : id.index ≠ b.index := by
      intro hsame
      rw [NodeId.ext hsame] at hnot
      exact hnot (mem_reached_background_iff.2 ⟨n.feature, f, hf, hb⟩)
    exact ⟨n, b, m, hn, hm, hkind, hkind', hfeature.symm, Nat.lt_of_le_of_ne hle hne⟩
  · rintro ⟨n, later, m, hn, hm, hkind, hkind', hfeature, hlt⟩
    refine ⟨⟨n, hn, hkind⟩, fun hmem => ?_⟩
    obtain ⟨f, b, hf, hb, hle⟩ := hlast later m hm hkind'
    obtain ⟨owner, f', hf', hid⟩ := mem_reached_background_iff.1 hmem
    obtain ⟨n', hn', -, hown⟩ := hchildren.background owner f' hf' id hid
    -- Both are the background of the one feature that they name.
    have hsame : id = b := by
      cases hn.symm.trans hn'
      rw [← hown, hfeature, hf, Option.some.injEq] at hf'
      rw [← hf', hb, Option.some.injEq] at hid
      exact hid.symm
    rw [hsame] at hlt
    exact absurd hle (Nat.not_le_of_lt hlt)

/-- Backgrounds are reached or replaced. -/
theorem countOf_background_eq (hnodes : a.HasOwnNodes) (hchildren : a.HasOwnChildren) :
    a.countOf .background = (a.reached .background).length + a.replaced.length := by
  have hreached : ((a.idsOf .background).filter (· ∈ a.reached .background)).Perm
      (a.reached .background) := by
    refine (List.perm_ext_iff_of_nodup ((a.nodup_idsOf _).filter _)
      (nodup_reached hnodes hchildren _)).2 fun id => ?_
    rw [List.mem_filter, decide_eq_true_iff, and_iff_right_iff_imp]
    exact fun h => mem_idsOf_iff.2 (exists_of_mem_reached hnodes hchildren h)
  rw [← a.length_idsOf, ← hreached.length_eq, replaced,
    List.length_eq_length_filter_add (· ∈ a.reached .background)]
  simp

/-- While no document fails, nothing but replaced backgrounds is out of reach. -/
theorem ReachableCleanly.isReached_or_replaced (h : a.ReachableCleanly) {n : Scenario}
    (hn : a.scenario? id = some n) : a.IsReached (.scenario id) ∨ id ∈ a.replaced := by
  by_cases hkind : n.kind = .background
  · by_cases hmem : id ∈ a.reached .background
    · exact Or.inl ⟨_, hmem⟩
    · exact Or.inr (mem_replaced_iff.2 ⟨⟨n, hn, hkind⟩, hmem⟩)
  · exact Or.inl ⟨_, h.mem_reached hn hkind⟩

/-- As long as no document fails, nothing but replaced backgrounds is lost. -/
theorem ReachableCleanly.isNavigable (h : a.ReachableCleanly) : a.IsNavigable := by
  have hnodes := h.reachable.hasOwnNodes
  have hchildren := h.reachable.hasOwnChildren
  constructor
  case nodup => exact nodup_reached hnodes hchildren
  case isOfKind => exact fun kind id hid => exists_of_mem_reached hnodes hchildren hid
  case count =>
    intro kind hkind
    rw [← a.length_idsOf]
    refine ((List.perm_ext_iff_of_nodup (a.nodup_idsOf kind)
      (nodup_reached hnodes hchildren kind)).2 fun id => ⟨fun hid => ?_, fun hid => ?_⟩).length_eq
    · obtain ⟨n, hn, rfl⟩ := mem_idsOf_iff.1 hid
      exact h.mem_reached hn hkind
    · exact mem_idsOf_iff.2 (exists_of_mem_reached hnodes hchildren hid)
  case count_background => exact countOf_background_eq hnodes hchildren
  case mem_replaced_iff =>
    exact fun id => mem_replaced_iff_later h.hasLastBackgrounds hchildren
  case owner =>
    intro tag t ht n hn
    obtain ⟨c, hc, -⟩ := ((h.reachable.isLinked.tag tag t ht).owner_iff n).1 hn
    cases n with
    | feature id =>
      obtain ⟨f, hf, -⟩ := Option.map_eq_some_iff.1 hc
      exact Or.inl ⟨f, hf⟩
    | scenario id =>
      obtain ⟨n, hn, -⟩ := Option.map_eq_some_iff.1 hc
      exact (h.isReached_or_replaced hn).imp_right fun hid => ⟨id, hid, rfl⟩

end

end Atlas

/-! ## Backgrounds of documents -/

/-- What filters keep of the features of documents. -/
def keptFeatures (ds : List (Document × TagFilter)) : List FeatureBlock :=
  ds.filterMap fun (d, filter) => d.kept? filter

theorem keptFeatures_cons (d : Document) (filter : TagFilter) (ds : List (Document × TagFilter)) :
    keptFeatures ((d, filter) :: ds) = (d.kept? filter).toList ++ keptFeatures ds := by
  cases hkept : d.kept? filter <;> simp [keptFeatures, hkept]

theorem Atlas.countOf_background_place (a : Atlas) (site : Site) (name : String) (b : BlockPlan) :
    (a.place site name b).countOf .background =
      a.countOf .background + if b.kind = .background then 1 else 0 := by
  have hinstances : ((List.range b.bindings.length).map (b.instanceNode site)).countP
      (·.kind = .background) = 0 := by
    rw [List.countP_map, List.countP_eq_zero]
    simp [BlockPlan.instanceNode]
  simp [countOf, place, BlockPlan.nodes, List.countP_cons, hinstances, BlockPlan.node]

namespace Growth

variable (g : Growth) (document : Path)

/-- Every background among the children of a feature is counted. -/
theorem countOf_background_addAll (cs : List Child) :
    (g.addAll document (cs.map fun c => .kept (c.block.plan c.kind))).atlas.countOf .background =
      g.atlas.countOf .background + (backgroundsOf cs).length := by
  induction cs generalizing g with
  | nil => rfl
  | cons c cs ih =>
    rw [List.map_cons, addAll_cons, ih]
    have hplace : (g.add document (.kept (c.block.plan c.kind))).atlas.countOf .background =
        g.atlas.countOf .background + if c.kind = .background then 1 else 0 :=
      g.atlas.countOf_background_place _ _ _
    rw [hplace]
    cases c with
    | background b =>
      simp only [Child.kind, if_true, backgroundsOf, List.filterMap_cons, List.length_cons]
      omega
    | _ => simp [backgroundsOf, Child.kind]

end Growth

/-- A feature has the last of its backgrounds. -/
theorem length_backgroundView (document : Path) (cs : List Child) :
    (backgroundView document cs).toList.length = min 1 (backgroundsOf cs).length := by
  rw [backgroundView]
  cases backgroundsOf cs using List.reverseRecOn <;> simp

namespace Atlas

/-- All backgrounds of a feature are counted, and one is reached. -/
theorem background_addFeature (a : Atlas) (document : Path) (f : FeatureBlock) :
    (a.addFeature document f.plan).countOf .background =
        a.countOf .background + (backgroundsOf f.children).length ∧
      ((a.addFeature document f.plan).reached .background).length =
        (a.reached .background).length + min 1 (backgroundsOf f.children).length := by
  let start := (f.plan.start a document).1
  let grown := start.addAll document f.plan.children
  have hshows : grown.Shows document f.children :=
    Growth.shows_addAll start rfl rfl document f.children
  have hfeatures : grown.atlas.features = a.features := Growth.features_addAll _ _ _
  have hreached : (a.addFeature document f.plan).reached .background =
      a.reached .background ++ grown.background.toList := by
    change (grown.atlas.features.push _).toList.flatMap _ = _
    rw [hfeatures, Arena.toList_push, List.flatMap_append, List.flatMap_singleton]
    rfl
  refine ⟨start.countOf_background_addAll document f.children, ?_⟩
  rw [hreached, List.length_append, hshows.background.length_eq, length_backgroundView]

/-- Of the backgrounds of documents one is reached for each feature that has any. -/
theorem background_addDocuments {a a' : Atlas} {ds : List (Document × TagFilter)}
    (hrun : a.addDocuments ds = .ok a') :
    a'.countOf .background + (a.reached .background).length =
      a.countOf .background + (a'.reached .background).length +
        ((keptFeatures ds).flatMap fun f => (backgroundsOf f.children).dropLast).length := by
  induction ds generalizing a with
  | nil =>
    cases hrun
    simp [keptFeatures]
  | cons p ds ih =>
    obtain ⟨d, filter⟩ := p
    obtain ⟨⟨result, hok⟩, hrest⟩ := addDocuments_cons_eq_ok_iff.1 hrun
    have hsum := ih hrest
    rw [atlas_addDocument_of_ok hok] at hsum
    rw [keptFeatures_cons]
    cases hkept : d.kept? filter with
    | none =>
      rw [hkept] at hsum
      exact hsum
    | some f =>
      obtain ⟨hcount, hreached⟩ := a.background_addFeature d.path f
      rw [hkept] at hsum
      dsimp only at hsum
      rw [hcount, hreached] at hsum
      rw [Option.toList_some, List.singleton_append, List.flatMap_cons, List.length_append,
        List.length_dropLast]
      omega

end Atlas

/-! ## Documents that are read -/

namespace Document

/-- A scenario never becomes a background. -/
theorem backgroundsOf_map_scenarioChild (s : Source) (ofRule : List String)
    (scenarios : List ParseTree.Scenario) :
    backgroundsOf (scenarios.map (scenarioChild s ofRule)) = [] := by
  rw [backgroundsOf, List.filterMap_map, List.filterMap_eq_nil_iff]
  intro scenario _
  rw [Function.comp_apply, scenarioChild]
  cases readsAsOutline scenario <;> rfl

/-- A feature that is read has one background at most; those of rules are dropped. -/
theorem length_backgroundsOf_orderedChildren_le (s : Source) (f : ParseTree.Feature) :
    (backgroundsOf (orderedChildren s f)).length ≤ 1 := by
  have hsorted : (backgroundsOf (orderedChildren s f)).Perm
      (backgroundsOf (unorderedChildren s f)) :=
    (List.mergeSort_perm _ _).filterMap _
  have hrules : backgroundsOf (f.rules.flatMap fun rule =>
      rule.scenarios.map (scenarioChild s rule.tags)) = [] := by
    rw [backgroundsOf, List.filterMap_flatMap, List.flatMap_eq_nil_iff]
    exact fun rule _ => backgroundsOf_map_scenarioChild s rule.tags rule.scenarios
  have hscenarios := backgroundsOf_map_scenarioChild s [] f.scenarios
  rw [hsorted.length_eq]
  rw [backgroundsOf] at hscenarios hrules ⊢
  rw [unorderedChildren, List.filterMap_append, List.filterMap_append, hscenarios, hrules]
  cases f.background <;> simp

theorem exists_featureBlock {grammar : Grammar} {p : Path} {text : String} {f : FeatureBlock}
    (h : (read grammar p text).document.feature? = some f) :
    ∃ s tree, f = featureBlock s tree := by
  simp only [read] at h
  split at h
  · cases h
  · split at h
    · next tree _ =>
      cases h
      exact ⟨_, tree, rfl⟩
    · cases h

/-- What is kept of a document that was read has one background at most. -/
theorem length_backgroundsOf_le_of_mem {grammar : Grammar} {filter : TagFilter}
    {texts : List (Path × String)} {f : FeatureBlock}
    (h : f ∈ keptFeatures (readEach grammar filter texts)) :
    (backgroundsOf f.children).length ≤ 1 := by
  obtain ⟨⟨d, _⟩, hd, hkept⟩ := List.mem_filterMap.1 h
  obtain ⟨⟨p, text⟩, -, heq⟩ := List.mem_map.1 hd
  cases heq
  obtain ⟨whole, hwhole, hf⟩ := Option.bind_eq_some_iff.1 hkept
  obtain ⟨s, tree, rfl⟩ := exists_featureBlock hwhole
  have hchildren : (backgroundsOf f.children).Sublist (backgroundsOf (orderedChildren s tree)) := by
    split at hf
    · cases hf
    · cases hf
      exact List.filter_sublist.filterMap _
  exact hchildren.length_le.trans (length_backgroundsOf_orderedChildren_le s tree)

end Document

namespace Atlas

/-- As long as no document fails, counts agree with what is reached, except for backgrounds that a
later one replaced. After documents were added these are all but the last background of every
feature, and there are none if the documents were read from texts. -/
theorem ReachableCleanly.isNavigable_except_replaced {a : Atlas} (h : a.ReachableCleanly) :
    a.IsNavigable ∧
      (∀ ds, Atlas.empty.addDocuments ds = .ok a → a.replaced.length =
        ((keptFeatures ds).flatMap fun f => (backgroundsOf f.children).dropLast).length) ∧
      ∀ grammar filter texts,
        Atlas.empty.addDocuments (Document.readEach grammar filter texts) = .ok a →
          a.replaced = [] := by
  have hnavigable := h.isNavigable
  have hlength (ds) (hrun : Atlas.empty.addDocuments ds = .ok a) : a.replaced.length =
      ((keptFeatures ds).flatMap fun f => (backgroundsOf f.children).dropLast).length := by
    have hsum := background_addDocuments hrun
    rw [hnavigable.count_background] at hsum
    have hempty : Atlas.empty.countOf .background = 0 := rfl
    have hnone : (Atlas.empty.reached .background).length = 0 := rfl
    omega
  refine ⟨hnavigable, hlength, fun grammar filter texts hrun => ?_⟩
  rw [← List.length_eq_zero_iff, hlength _ hrun, List.length_eq_zero_iff, List.flatMap_eq_nil_iff]
  intro f hf
  have hone := Document.length_backgroundsOf_le_of_mem hf
  rw [← List.length_eq_zero_iff, List.length_dropLast]
  omega

/-- A document with a background, an outline with two instances, and another background. -/
def breakfast : Document where
  path := ⟨"breakfast.feature"⟩
  feature? := some
    { keyword := "Feature"
      title := "Breakfast"
      description := ""
      comments := []
      position := ⟨1, 1⟩
      tags := []
      children :=
        [.background ⟨"Background", "Tea", "", [], ⟨2, 3⟩, [], [], []⟩,
          .outline ⟨"Scenario Outline", "Eating", "", [], ⟨4, 3⟩, [⟨"@slow", ⟨3, 3⟩⟩], [],
            [⟨"Examples", "", [], ⟨5, 5⟩, some ⟨⟨6, 7⟩, ["n"]⟩,
              [⟨⟨7, 7⟩, ["1"]⟩, ⟨⟨8, 7⟩, ["2"]⟩]⟩]⟩,
          .background ⟨"Background", "Coffee", "", [], ⟨10, 3⟩, [], [], []⟩] }

/-- The first background is replaced, and everything else is reached. In the atlas of a text nothing
is replaced. -/
theorem isNavigable_breakfast :
    let a := (Atlas.empty.addDocument breakfast .keepAll).atlas
    (a.ReachableCleanly ∧ a.IsNavigable ∧ a.replaced.length = 1 ∧ a.replaced = [⟨0⟩] ∧
      a.reached .outline = [⟨1⟩] ∧ a.reached .example = [⟨2⟩, ⟨3⟩]) ∧
    ∃ b, Atlas.empty.addDocuments (Document.readEach mealGrammar .keepAll [(⟨"b"⟩, "f")]) = .ok b ∧
      b.ReachableCleanly ∧ b.replaced = [] := by
  intro a
  have hok : (Atlas.empty.addDocument breakfast .keepAll).outcome = .ok (some ⟨0⟩) := by decide
  have hrun : Atlas.empty.addDocuments [(breakfast, .keepAll)] = .ok a := by
    rw [addDocuments, hok]
    rfl
  have hclean : a.ReachableCleanly := ReachableCleanly.empty.addDocument hok
  obtain ⟨hnavigable, hlength, -⟩ := hclean.isNavigable_except_replaced
  let fast : FeatureBlock := ⟨"Feature", "Meals", "", [], ⟨1, 1⟩, [⟨"@fast", ⟨1, 1⟩⟩], []⟩
  have hread : Document.readEach mealGrammar .keepAll [(⟨"b"⟩, "f")] =
      [(⟨⟨"b"⟩, some fast⟩, .keepAll)] := by
    decide +kernel
  obtain ⟨b, hb⟩ : ∃ b, Atlas.empty.addDocuments
      (Document.readEach mealGrammar .keepAll [(⟨"b"⟩, "f")]) = .ok b := by
    rw [hread]
    exact ⟨_, rfl⟩
  have hcleanText : b.ReachableCleanly := ReachableCleanly.empty.addDocuments hb
  exact ⟨⟨hclean, hnavigable, hlength _ hrun, by decide, by decide, by decide⟩, b, hb, hcleanText,
    hcleanText.isNavigable_except_replaced.2.2 _ _ _ hb⟩

/-- Two backgrounds are counted where one is reached. -/
theorem countOf_background_breakfast :
    let a := (Atlas.empty.addDocument breakfast .keepAll).atlas
    (Atlas.empty.addDocument breakfast .keepAll).outcome = .ok (some ⟨0⟩) ∧
      a.countOf .background = 2 ∧ a.reached .background = [⟨4⟩] := by
  decide

end Atlas

end FeatureAtlas
