import FeatureAtlas.Proofs.Addition
import FeatureAtlas.Proofs.Contents
import FeatureAtlas.Proofs.Filtering
import FeatureAtlas.Proofs.TagNames
import Mathlib.Data.List.Forall2

/-!
# Reading a document back

A view is what can be read off a feature without knowing any ids. `Atlas.viewFeature?` reads it back
from an atlas by following ids, and fails where one leads nowhere; `FeatureBlock.view` reads it off
the document. The two agree for every document that was added: nothing is lost, moved to another
owner or put in another order. The induction is over the children, and rests on `Atlas.Extends`:
what was read once is still read after more was added.
-/

namespace FeatureAtlas

/-! ## Views -/

/-- A step as it is read. -/
structure StepView where
  name : String
  keyword : String
  text : String
  comments : String
  file : Path
  line : Nat
  docString : Option String
  table : Option DataTable
deriving DecidableEq, Repr

/-- A background, scenario or outline as it is read, with its tags by name. -/
structure BlockView where
  heading : Heading
  kind : ScenarioKind
  tags : List String
  steps : List StepView
deriving DecidableEq, Repr

/-- A feature as it is read, with its background apart from its other children. -/
structure FeatureView where
  heading : Heading
  tags : List String
  background : Option BlockView
  children : List BlockView
deriving DecidableEq, Repr

/-- A step without the link to its scenario. -/
def Step.view (s : Step) : StepView :=
  ⟨s.name, s.keyword, s.text, s.comments, s.file, s.line, s.docString, s.table⟩

namespace Atlas

/-- Read the name of a tag. -/
def viewTag? (a : Atlas) (id : TagId) : Option String := (a.tag? id).map (·.name)

/-- Read a step. -/
def viewStep? (a : Atlas) (id : StepId) : Option StepView := (a.step? id).map (·.view)

/-- Read a block with its tags and steps. -/
def viewBlock? (a : Atlas) (id : ScenarioId) : Option BlockView := do
  let n ← a.scenario? id
  let tags ← n.tags.mapM a.viewTag?
  let steps ← n.steps.mapM a.viewStep?
  return ⟨n.heading, n.kind, tags, steps⟩

/-- Read a feature with its tags, its background and its children. -/
def viewFeature? (a : Atlas) (id : FeatureId) : Option FeatureView := do
  let n ← a.feature? id
  let tags ← n.tags.mapM a.viewTag?
  let background ← n.background.mapM a.viewBlock?
  let children ← n.children.mapM a.viewBlock?
  return ⟨n.heading, tags, background, children⟩

end Atlas

/-- The canonical names of tags, each once, in the order in which they first appear. -/
def tagNames (marks : List TagMark) : List String :=
  (marks.map fun mark => tagName mark.text).eraseDups

/-- A step as the document has it. Only a doc string and a table are read as such. -/
def StepLine.view (document : Path) (s : StepLine) : StepView where
  name := "step_" ++ toString s.position.line
  keyword := s.keyword
  text := s.text
  comments := "\n".intercalate s.comments
  file := document
  line := s.position.line
  docString :=
    match s.argument with
    | some (.docString content _) => some content
    | _ => none
  table :=
    match s.argument with
    | some (.table rows _) => some ⟨rows.map (·.cells)⟩
    | _ => none

/-- A block as the document has it, under a name. -/
def Block.view (document : Path) (kind : ScenarioKind) (name : String) (b : Block) : BlockView where
  heading :=
    { name
      keyword := b.keyword
      title := b.title
      description := b.description
      comments := "\n".intercalate b.comments
      file := document
      line := b.position.line }
  kind := kind
  tags := tagNames b.tags
  steps := b.steps.map (·.view document)

/-- A child as the document has it, under a name. -/
def Child.view (document : Path) (name : String) : Child → BlockView
  | .background b => b.view document .background name
  | .scenario b => b.view document .scenario name
  | .outline b => b.view document .outline name

/-- The backgrounds among children. -/
def backgroundsOf (cs : List Child) : List Block :=
  cs.filterMap fun
    | .background b => some b
    | _ => none

/-- The children that are listed: all but backgrounds. -/
def listedOf (cs : List Child) : List Child :=
  cs.filter fun
    | .background _ => false
    | _ => true

/-- The background that counts among children, which is the last. -/
def backgroundView (document : Path) (cs : List Child) : Option BlockView :=
  (backgroundsOf cs).getLast?.map (·.view document .background "background")

/-- The listed children, each under its number. -/
def childViews (document : Path) (cs : List Child) : List BlockView :=
  (listedOf cs).zipIdx.map fun (c, number) => c.view document ("scenario_" ++ toString number)

/-- A feature as the document has it, named for its file. -/
def FeatureBlock.view (document : Path) (f : FeatureBlock) : FeatureView where
  heading :=
    { name := document.stem?.getD ""
      keyword := f.keyword
      title := f.title
      description := f.description
      comments := "\n".intercalate f.comments
      file := document
      line := f.position.line }
  tags := tagNames f.tags
  background := backgroundView document f.children
  children := childViews document f.children

theorem tagNames_eq (marks : List TagMark) :
    tagNames marks = ((tagTexts marks).map tagName).eraseDups := by
  rw [tagTexts, List.map_map]
  rfl

theorem Child.view_eq (document : Path) (name : String) (c : Child) :
    c.view document name = c.block.view document c.kind name := by
  cases c <;> rfl

/-! ## Reading lists -/

/-- Reading a list succeeds where reading each of its items does. -/
theorem mapM_of_map_eq {α β : Type} {look : α → Option β} {xs : List α} {ys : List β}
    (h : xs.map look = ys.map some) : xs.mapM look = some ys := by
  induction xs generalizing ys with
  | nil =>
    cases ys with
    | nil => rfl
    | cons y ys => cases h
  | cons x xs ih =>
    cases ys with
    | nil => cases h
    | cons y ys =>
      rw [List.map_cons, List.map_cons, List.cons.injEq] at h
      rw [List.mapM_cons, h.1, ih h.2]
      rfl

/-- What is read from one source is read from any that agrees with it. -/
theorem mapM_mono {α β : Type} {look more : α → Option β}
    (hmore : ∀ x y, look x = some y → more x = some y) {xs : List α} {ys : List β}
    (h : xs.mapM look = some ys) : xs.mapM more = some ys := by
  induction xs generalizing ys with
  | nil => exact h
  | cons x xs ih =>
    simp only [List.mapM_cons, Option.bind_eq_bind, Option.bind_eq_some_iff, Option.pure_def,
      Option.some.injEq] at h ⊢
    obtain ⟨y, hy, ys, hys, rfl⟩ := h
    exact ⟨y, hmore x y hy, ys, ih hys, rfl⟩

/-! ## Adding more -/

namespace Atlas

/-- More was added to an atlas: its nodes are still there, and its tags have kept their names. -/
structure Extends (a a' : Atlas) : Prop where
  scenario : ∀ id n, a.scenario? id = some n → a'.scenario? id = some n
  step : ∀ id s, a.step? id = some s → a'.step? id = some s
  names : a.tags.names <+: a'.tags.names

namespace Extends

variable {a a' a'' : Atlas}

theorem refl (a : Atlas) : a.Extends a :=
  ⟨fun _ _ h => h, fun _ _ h => h, List.prefix_rfl⟩

theorem trans (h : a.Extends a') (h' : a'.Extends a'') : a.Extends a'' := by
  constructor
  · exact fun id n hn => h'.scenario id n (h.scenario id n hn)
  · exact fun id s hs => h'.step id s (h.step id s hs)
  · exact h.names.trans h'.names

theorem place (a : Atlas) (site : Site) (name : String) (b : BlockPlan) :
    a.Extends (a.place site name b) := by
  constructor
  · exact fun id n hn => scenario?_place_of_some hn
  · exact fun id s hs => step?_place_of_some hs
  · exact a.tags.names_prefix_recordAll _ _ _

theorem viewTag? (h : a.Extends a') (id : TagId) (name : String)
    (hname : a.viewTag? id = some name) : a'.viewTag? id = some name := by
  have hlookup (c : Atlas) : c.viewTag? id = c.tags.names[id.index]? := c.tags.map_name_get? id
  rw [hlookup] at hname ⊢
  obtain ⟨more, hmore⟩ := h.names
  obtain ⟨hlt, -⟩ := List.getElem?_eq_some_iff.1 hname
  rw [← hmore, List.getElem?_append_left hlt, hname]

theorem viewStep? (h : a.Extends a') (id : StepId) (v : StepView)
    (hv : a.viewStep? id = some v) : a'.viewStep? id = some v := by
  simp only [Atlas.viewStep?, Option.map_eq_some_iff] at hv ⊢
  obtain ⟨s, hs, rfl⟩ := hv
  exact ⟨s, h.step id s hs, rfl⟩

/-- What was read of a block is still read. -/
theorem viewBlock? (h : a.Extends a') (id : ScenarioId) (v : BlockView)
    (hv : a.viewBlock? id = some v) : a'.viewBlock? id = some v := by
  simp only [Atlas.viewBlock?, Option.bind_eq_bind, Option.bind_eq_some_iff, Option.pure_def,
    Option.some.injEq] at hv ⊢
  obtain ⟨n, hn, tags, htags, steps, hsteps, rfl⟩ := hv
  exact ⟨n, h.scenario id n hn, tags, mapM_mono h.viewTag? htags, steps,
    mapM_mono h.viewStep? hsteps, rfl⟩

end Extends

/-! ## One block -/

/-- The tags that recording put on a node are read as the names that were recorded. -/
theorem mapM_viewTag?_recordAll (ts : TagIndex) (owner : TagOwner) (occurrence : Occurrence)
    (raws : List String) {a : Atlas} (ha : a.tags = (ts.recordAll owner occurrence raws).1) :
    (ts.recordAll owner occurrence raws).2.eraseDups.mapM a.viewTag? =
      some (raws.map tagName).eraseDups := by
  refine mapM_of_map_eq ?_
  rw [← ts.map_names_recordAll owner occurrence raws, ← ha]
  exact List.map_congr_left fun id _ => a.tags.map_name_get? id

/-- A node names its feature, and its steps name it. -/
def IsLinkedBack (a : Atlas) (feature : FeatureId) (id : ScenarioId) : Prop :=
  ∃ n, a.scenario? id = some n ∧ n.feature = feature ∧
    ∀ i ∈ n.steps, ∃ s, a.step? i = some s ∧ s.scenario = id

theorem Extends.isLinkedBack {a a' : Atlas} (h : a.Extends a') {feature : FeatureId}
    {id : ScenarioId} (hback : a.IsLinkedBack feature id) : a'.IsLinkedBack feature id := by
  obtain ⟨n, hn, hfeature, hsteps⟩ := hback
  refine ⟨n, h.scenario id n hn, hfeature, fun i hi => ?_⟩
  obtain ⟨s, hs, howner⟩ := hsteps i hi
  exact ⟨s, h.step i s hs, howner⟩

section

variable {a : Atlas} {site : Site} (name : String) (kind : ScenarioKind) (b : Block)

/-- A placed block is read as the document has it. -/
theorem viewBlock?_place (hsite : site.scenario = a.scenarios.nextId)
    (hstep : site.step = a.steps.nextId) :
    (a.place site name (b.plan kind)).viewBlock? site.scenario =
      some (b.view site.file kind name) := by
  let placed := a.place site name (b.plan kind)
  let n := (b.plan kind).node site name (a.recordBlock site (b.plan kind)).2
  have hnode : placed.scenario? site.scenario = some n := scenario?_place hsite
  have htags : n.tags.mapM placed.viewTag? = some (tagNames b.tags) := by
    rw [tagNames_eq]
    exact mapM_viewTag?_recordAll a.tags _ _ (tagTexts b.tags) rfl
  have hsteps : n.steps.mapM placed.viewStep? = some (b.steps.map (·.view site.file)) := by
    refine mapM_of_map_eq ?_
    have hviews : n.steps.map placed.viewStep? =
        (n.steps.map placed.step?).map (Option.map Step.view) := by
      rw [List.map_map]
      rfl
    rw [hviews, map_step?_place_own hstep, Block.ownSteps_plan, List.map_map, List.map_map,
      List.map_map]
    rfl
  simp only [viewBlock?, Option.bind_eq_bind]
  rw [hnode, Option.bind_some, htags, Option.bind_some, hsteps]
  rfl

theorem isLinkedBack_place (hsite : site.scenario = a.scenarios.nextId)
    (hstep : site.step = a.steps.nextId) :
    (a.place site name (b.plan kind)).IsLinkedBack site.feature site.scenario := by
  refine ⟨_, scenario?_place hsite, rfl, fun i hi => ?_⟩
  have hmem := List.mem_map_of_mem (f := (a.place site name (b.plan kind)).step?) hi
  rw [map_step?_place_own hstep, Block.ownSteps_plan, List.map_map] at hmem
  obtain ⟨s, -, hs⟩ := List.mem_map.1 hmem
  exact ⟨s.node site.file site.scenario, hs.symm, rfl⟩

end

end Atlas

/-! ## All children -/

theorem childViews_append_background (document : Path) (cs : List Child) (b : Block) :
    childViews document (cs ++ [.background b]) = childViews document cs := by
  simp [childViews, listedOf]

theorem listedOf_append_listed (cs : List Child) {c : Child} (hc : c.kind ≠ .background) :
    listedOf (cs ++ [c]) = listedOf cs ++ [c] := by
  cases c with
  | background b => exact absurd rfl hc
  | _ => simp [listedOf]

theorem childViews_append_listed (document : Path) (cs : List Child) {c : Child}
    (hc : c.kind ≠ .background) :
    childViews document (cs ++ [c]) = childViews document cs ++
      [c.block.view document c.kind ("scenario_" ++ toString (listedOf cs).length)] := by
  simp [childViews, listedOf_append_listed cs hc, List.zipIdx_append, Child.view_eq]

theorem backgroundView_append_background (document : Path) (cs : List Child) (b : Block) :
    backgroundView document (cs ++ [.background b]) =
      some (b.view document .background "background") := by
  simp [backgroundView, backgroundsOf]

theorem backgroundView_append_listed (document : Path) (cs : List Child) {c : Child}
    (hc : c.kind ≠ .background) :
    backgroundView document (cs ++ [c]) = backgroundView document cs := by
  cases c with
  | background b => exact absurd rfl hc
  | _ => simp [backgroundView, backgroundsOf]

/-- A block is read from its node, which is linked back to a feature. -/
def Atlas.Reads (a : Atlas) (feature : FeatureId) (id : ScenarioId) (v : BlockView) : Prop :=
  a.viewBlock? id = some v ∧ a.IsLinkedBack feature id

theorem Atlas.Extends.reads {a a' : Atlas} (h : a.Extends a') {feature : FeatureId}
    {id : ScenarioId} {v : BlockView} (hv : a.Reads feature id v) : a'.Reads feature id v :=
  ⟨h.viewBlock? id v hv.1, h.isLinkedBack hv.2⟩

namespace Growth

/-- The children and the background so far are read as the document has them. -/
structure Shows (g : Growth) (document : Path) (cs : List Child) : Prop where
  children : List.Forall₂ (g.atlas.Reads g.atlas.features.nextId) g.children
    (childViews document cs)
  background : List.Forall₂ (g.atlas.Reads g.atlas.features.nextId) g.background.toList
    (backgroundView document cs).toList

variable {g : Growth} {document : Path} {cs : List Child}

theorem extends_addBlock (g : Growth) (document : Path) (b : BlockPlan) :
    g.atlas.Extends (g.addBlock document b).atlas :=
  Atlas.Extends.place _ _ _ _

/-- A block that was just added is read. -/
theorem reads_addBlock (g : Growth) (document : Path) (kind : ScenarioKind) (b : Block) :
    (g.addBlock document (b.plan kind)).atlas.Reads g.atlas.features.nextId
      g.atlas.scenarios.nextId (b.view document kind (g.nextName kind)) :=
  ⟨Atlas.viewBlock?_place _ kind b rfl rfl, Atlas.isLinkedBack_place _ kind b rfl rfl⟩

/-- One more child is read, and so is what was read before. -/
theorem Shows.addBlock (h : g.Shows document cs) (c : Child) :
    (g.addBlock document (c.block.plan c.kind)).Shows document (cs ++ [c]) := by
  have hextends := g.extends_addBlock document (c.block.plan c.kind)
  -- What was read before is not touched, so only the list with the new id needs a look.
  have hchildren := h.children.imp fun _ _ hv => hextends.reads hv
  have hbackground := h.background.imp fun _ _ hv => hextends.reads hv
  have hnew := g.reads_addBlock document c.kind c.block
  by_cases hkind : c.kind = .background
  · cases c with
    | background b =>
      constructor
      · rw [childViews_append_background]
        exact hchildren
      · rw [backgroundView_append_background]
        exact .cons hnew .nil
    | scenario b => cases hkind
    | outline b => cases hkind
  · have hlisted : (c.block.plan c.kind).isListed = true := rfl
    have hkind' : (c.block.plan c.kind).kind ≠ .background := hkind
    have hlength : g.children.length = (listedOf cs).length := by
      rw [h.children.length_eq, childViews, List.length_map, List.length_zipIdx]
    have hname : g.nextName c.kind = "scenario_" ++ toString (listedOf cs).length := by
      rw [g.nextName_of_ne hkind, hlength]
    constructor
    · rw [childViews_append_listed document cs hkind, ← hname,
        g.children_addBlock_of_ne document hkind', if_pos hlisted]
      exact List.rel_append hchildren (.cons hnew .nil)
    · rw [backgroundView_append_listed document cs hkind,
        g.background_addBlock_of_ne document hkind']
      exact hbackground

/-- All children of a feature are read, in their order. -/
theorem shows_addAll (start : Growth) (hchildren : start.children = [])
    (hbackground : start.background = none) (document : Path) (cs : List Child) :
    (start.addAll document (cs.map fun c => .kept (c.block.plan c.kind))).Shows document cs := by
  induction cs using List.reverseRecOn with
  | nil =>
    rw [List.map_nil, addAll_nil]
    constructor
    · rw [hchildren]
      exact .nil
    · rw [hbackground]
      exact .nil
  | append_singleton cs c ih =>
    rw [List.map_append, addAll_append]
    exact ih.addBlock c

theorem extends_addAll (g : Growth) (document : Path) (ds : List ChildPlan) :
    g.atlas.Extends (g.addAll document ds).atlas := by
  induction ds generalizing g with
  | nil => exact .refl _
  | cons d ds ih =>
    cases d with
    | excluded kind title line => exact ih g
    | kept b => exact (g.extends_addBlock document b).trans (ih _)

end Growth

/-! ## The feature -/

theorem mapM_of_forall₂ {α β : Type} {look : α → Option β} {xs : List α} {ys : List β}
    (h : List.Forall₂ (fun x y => look x = some y) xs ys) : xs.mapM look = some ys := by
  refine mapM_of_map_eq ?_
  rw [← List.forall₂_eq_eq_eq, List.forall₂_map_left_iff, List.forall₂_map_right_iff]
  exact h

theorem option_mapM_of_forall₂ {α β : Type} {look : α → Option β} {x? : Option α} {y? : Option β}
    (h : List.Forall₂ (fun x y => look x = some y) x?.toList y?.toList) :
    x?.mapM look = some y? := by
  cases x? with
  | none =>
    cases y? with
    | none => rfl
    | some y => cases h
  | some x =>
    cases y? with
    | none => cases h
    | some y =>
      rcases h with - | ⟨hxy, -⟩
      rw [Option.mapM_some, hxy]
      rfl

/-- A feature whose blocks are all kept and sound is read as the document has it, and everything
in it is linked back. -/
theorem reads_addFeature (a : Atlas) (document : Path) (f : FeatureBlock) :
    let a' := a.addFeature document f.plan
    a'.viewFeature? a.features.nextId = some (f.view document) ∧
      ∀ n, a'.feature? a.features.nextId = some n → ∀ i ∈ n.background.toList ++ n.children,
        a'.IsLinkedBack a.features.nextId i := by
  intro a'
  let start := (f.plan.start a document).1
  let tags := (f.plan.start a document).2
  let g := start.addAll document f.plan.children
  have hshows : g.Shows document f.children := Growth.shows_addAll start rfl rfl document f.children
  have hextends : start.atlas.Extends g.atlas := start.extends_addAll document f.plan.children
  have hfeatures : g.atlas.features = a.features := Growth.features_addAll _ _ _
  have hid : g.atlas.features.nextId = a.features.nextId := by rw [hfeatures]
  have hnode : a'.feature? a.features.nextId =
      some ⟨f.heading document, tags, g.children, g.background⟩ := by
    rw [← hid]
    exact Arena.get?_push_nextId _ _
  have htags : tags.mapM a'.viewTag? = some (tagNames f.tags) := by
    rw [tagNames_eq]
    exact mapM_mono hextends.viewTag?
      (Atlas.mapM_viewTag?_recordAll a.tags _ _ (tagTexts f.tags) rfl)
  have hbackground : g.background.mapM a'.viewBlock? = some (backgroundView document f.children) :=
    option_mapM_of_forall₂ (hshows.background.imp fun _ _ hv => hv.1)
  have hchildren : g.children.mapM a'.viewBlock? = some (childViews document f.children) :=
    mapM_of_forall₂ (hshows.children.imp fun _ _ hv => hv.1)
  constructor
  · simp only [Atlas.viewFeature?, Option.bind_eq_bind]
    rw [hnode, Option.bind_some, htags, Option.bind_some, hbackground, Option.bind_some, hchildren]
    rfl
  · intro n hn i hi
    rw [hnode, Option.some.injEq] at hn
    subst hn
    have hall := List.rel_append hshows.background hshows.children
    have hback := (List.forall₂_and_left _ _).1 (hall.imp fun _ _ hv => ⟨hv.2, hv.1⟩)
    rw [← hid]
    exact hback.1 i hi

/-- A document that was added is read back from the atlas as it stands, but for the scenarios and
outlines that the filter excludes. Every block of the feature names it, and every step its block. -/
theorem Atlas.reads_addDocument {d : Document} {f : FeatureBlock} (hfeature : d.feature? = some f)
    {filter : TagFilter} {a : Atlas} {id : FeatureId}
    (hadded : (a.addDocument d filter).outcome = .ok (some id)) :
    let a' := (a.addDocument d filter).atlas
    a.feature? id = none ∧ a'.viewFeature? id = some ((f.keptBy filter).view d.path) ∧
      ∀ n, a'.feature? id = some n → ∀ i ∈ n.background.toList ++ n.children,
        a'.IsLinkedBack id i := by
  have hkept : filter.excludes (tagTexts f.tags) = false := by
    cases hexcluded : filter.excludes (tagTexts f.tags) with
    | false => rfl
    | true =>
      rw [addDocument_of_excluded hfeature hexcluded] at hadded
      cases hadded
  have hfeature' : (d.keptBy filter).feature? = some (f.keptBy filter) := by
    simp [Document.keptBy, hfeature]
  rw [addDocument_of_kept hfeature hkept, addDocument_eq_carryOut] at hadded ⊢
  cases hplan : (d.keptBy filter).plan .keepAll with
  | noFeature =>
    rw [hplan] at hadded
    cases hadded
  | excluded title =>
    rw [hplan] at hadded
    cases hadded
  | feature plan failure =>
    rw [hplan] at hadded
    cases failure with
    | some e => cases hadded
    | none =>
      cases hadded
      have hnew : a.feature? a.features.nextId = none :=
        (Arena.get?_eq_none_iff _ _).2 (Nat.le_refl _)
      rw [Document.plan_keepAll_of_sound hfeature' hplan]
      exact ⟨hnew, reads_addFeature a d.path (f.keptBy filter)⟩

/-- A feature with two backgrounds, a scenario with a doc string and a table, an outline, and a
scenario that is not finished. -/
def FeatureBlock.lunch : FeatureBlock where
  keyword := "Feature"
  title := "Lunch"
  description := "At noon"
  comments := ["# hungry", "# thirsty"]
  position := ⟨4, 1⟩
  tags := [⟨"@meals", ⟨3, 1⟩⟩, ⟨"@fast", ⟨3, 8⟩⟩, ⟨"meals", ⟨3, 14⟩⟩]
  children :=
    [.background (.bare "Background" 6 []),
      .scenario
        ⟨"Scenario", "Soup", "With bread", ["# hot", "# or cold"], ⟨8, 3⟩, [⟨"@fast", ⟨7, 3⟩⟩],
          [⟨"Given", "a menu", [], ⟨9, 5⟩, some (.docString "soup" ⟨10, 7⟩)⟩,
            ⟨"When", "I eat", ["# all", "# of it"], ⟨14, 5⟩,
              some (.table [⟨⟨15, 7⟩, ["soup", "bread"]⟩, ⟨⟨16, 7⟩, ["1", "2"]⟩] ⟨15, 7⟩)⟩,
            ⟨"And", "I pay", [], ⟨17, 5⟩, some (.other "Receipt")⟩], []⟩,
      .scenario (.bare "Scenario" 19 [⟨"@wip", ⟨18, 3⟩⟩]),
      .outline
        ⟨"Scenario Outline", "Tea", "", [], ⟨21, 3⟩, [], [⟨"Given", "<n> cups", [], ⟨22, 5⟩, none⟩],
          [⟨"Examples", "", [], ⟨23, 5⟩, some ⟨⟨24, 7⟩, ["n"]⟩, [⟨⟨25, 7⟩, ["2"]⟩]⟩]⟩,
      .background
        ⟨"Background", "Table", "Laid", ["# for two"], ⟨27, 3⟩, [],
          [⟨"Given", "a table", [], ⟨28, 5⟩, none⟩], []⟩]

/-- The feature is read back with its last background, its first scenario and its outline. -/
theorem Atlas.reads_lunch :
    let file : Path := ⟨"lunch.feature"⟩
    let added := Atlas.empty.addDocument ⟨file, some .lunch⟩ (.ofTags ["wip"])
    added.outcome = .ok (some ⟨0⟩) ∧
      added.atlas.viewFeature? ⟨0⟩ = some
        { heading :=
            ⟨"lunch", "Feature", "Lunch", "At noon", "# hungry\n# thirsty", file, 4⟩
          tags := ["meals", "fast"]
          background := some
            ⟨⟨"background", "Background", "Table", "Laid", "# for two", file, 27⟩, .background, [],
              [⟨"step_28", "Given", "a table", "", file, 28, none, none⟩]⟩
          children :=
            [⟨⟨"scenario_0", "Scenario", "Soup", "With bread", "# hot\n# or cold", file, 8⟩,
                .scenario, ["fast"],
                [⟨"step_9", "Given", "a menu", "", file, 9, some "soup", none⟩,
                  ⟨"step_14", "When", "I eat", "# all\n# of it", file, 14, none,
                    some ⟨[["soup", "bread"], ["1", "2"]]⟩⟩,
                  ⟨"step_17", "And", "I pay", "", file, 17, none, none⟩]⟩,
              ⟨⟨"scenario_1", "Scenario Outline", "Tea", "", "", file, 21⟩, .outline, [],
                [⟨"step_22", "Given", "<n> cups", "", file, 22, none, none⟩]⟩] } ∧
      (added.atlas.feature? ⟨0⟩).map (fun n => (n.background, n.children)) =
        some (some ⟨4⟩, [⟨1⟩, ⟨2⟩]) ∧
      ∀ id ∈ [⟨4⟩, ⟨1⟩, ⟨2⟩], added.atlas.IsLinkedBack ⟨0⟩ id := by
  intro file added
  have hadded : added.outcome = .ok (some ⟨0⟩) := by rfl
  obtain ⟨-, hview, hback⟩ := reads_addDocument rfl hadded
  have hnode : (added.atlas.feature? ⟨0⟩).map (fun n => (n.background, n.children)) =
      some (some ⟨4⟩, [⟨1⟩, ⟨2⟩]) := by decide +kernel
  refine ⟨hadded, ?_, hnode, ?_⟩
  · rw [hview]
    decide +kernel
  obtain ⟨n, hn, hlists⟩ := Option.map_eq_some_iff.1 hnode
  obtain ⟨hbackground, hchildren⟩ := Prod.mk.inj hlists
  have hall := hback n hn
  rw [hbackground, hchildren] at hall
  exact hall

end FeatureAtlas
