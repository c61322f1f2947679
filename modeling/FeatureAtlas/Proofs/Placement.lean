import FeatureAtlas.Atlas.Building
import FeatureAtlas.Atlas.Growth
import Mathlib.Data.List.Induction

/-!
# Building a block places its plan

`Building` opens nodes and links them one after the other, reading the atlas back on the way;
`Atlas.place` appends the finished nodes. Here the two are shown to be the same, bottom up: tags
and steps of a fresh node, the rows of an examples block, all blocks of an outline, and then a block
of any kind, whether it ends at a ragged table or not.
-/

namespace FeatureAtlas

/-! ## Tags of a fresh node -/

/-- Tags put on one by one give each tag once, in the order of first appearance. -/
theorem foldl_withTag (ids : List TagId) : ids.foldl withTag [] = ids.eraseDups := by
  induction ids using List.reverseRecOn with
  | nil => rfl
  | append_singleton ids id ih =>
    rw [List.foldl_append, ih, List.eraseDups_append]
    by_cases h : id ∈ ids
    · simp [withTag, List.removeAll, h, List.mem_eraseDups]
    · simp [withTag, List.removeAll, h, List.mem_eraseDups, List.eraseDups_cons]

namespace Atlas

@[simp] theorem addTags_nil (a : Atlas) (document : Path) (owner : TagOwner) :
    a.addTags document owner [] = a := rfl

theorem addTags_cons (a : Atlas) (document : Path) (owner : TagOwner) (raw : String)
    (raws : List String) : a.addTags document owner (raw :: raws) =
      (a.addTag document owner raw).addTags document owner raws := rfl

/-- Tagging a node, whatever its kind. `seat` is the atlas by the index and the tags on the node;
a tag is recorded with the node's line and then put on the node. -/
theorem addTags_seat (document : Path) (owner : TagOwner) (line : Nat)
    (seat : TagIndex → List TagId → Atlas)
    (hindex : ∀ ts tags, (seat ts tags).tags = ts)
    (hline : ∀ ts tags, (seat ts tags).lineOf owner = line)
    (hlink : ∀ ts ts' tags id,
      { seat ts tags with tags := ts' }.linkTag id owner = seat ts' (withTag tags id))
    (ts : TagIndex) (tags : List TagId) (raws : List String) :
    (seat ts tags).addTags document owner raws =
      seat (ts.recordAll owner ⟨document, line⟩ raws).1
        ((ts.recordAll owner ⟨document, line⟩ raws).2.foldl withTag tags) := by
  induction raws generalizing ts tags with
  | nil => rfl
  | cons raw raws ih =>
    have hadd : (seat ts tags).addTag document owner raw =
        seat (ts.record raw owner ⟨document, line⟩).1
          (withTag tags (ts.record raw owner ⟨document, line⟩).2) := by
      simp only [addTag, hindex, hline, hlink]
    rw [addTags_cons, hadd, ih]
    rfl

/-- A new scenario with its tags. -/
theorem addTags_openScenario (a : Atlas) (heading : Heading) (kind : ScenarioKind)
    (feature : FeatureId) (document : Path) (raws : List String) :
    let recorded := a.tags.recordAll (.scenario a.scenarios.nextId) ⟨document, heading.line⟩ raws
    (a.openScenario heading kind feature).addTags document (.scenario a.scenarios.nextId) raws =
      { a with
        scenarios :=
          a.scenarios.push ⟨heading, kind, recorded.2.eraseDups, [], [], [], feature, none⟩
        tags := recorded.1 } := by
  have h := addTags_seat document (.scenario a.scenarios.nextId) heading.line
    (fun ts tags =>
      { a with scenarios := a.scenarios.push ⟨heading, kind, tags, [], [], [], feature, none⟩
               tags := ts })
    (fun _ _ => rfl) (fun _ _ => by simp [lineOf, scenario?])
    (fun _ _ _ _ => by simp only [linkTag, Arena.modify_push]) a.tags [] raws
  rw [foldl_withTag] at h
  exact h

/-- A new feature with its tags. -/
theorem addTags_openFeature (a : Atlas) (heading : Heading) (document : Path)
    (raws : List String) :
    let recorded := a.tags.recordAll (.feature a.features.nextId) ⟨document, heading.line⟩ raws
    (a.openFeature heading).addTags document (.feature a.features.nextId) raws =
      { a with
        features := a.features.push ⟨heading, recorded.2.eraseDups, [], none⟩
        tags := recorded.1 } := by
  have h := addTags_seat document (.feature a.features.nextId) heading.line
    (fun ts tags =>
      { a with features := a.features.push ⟨heading, tags, [], none⟩, tags := ts })
    (fun _ _ => rfl) (fun _ _ => by simp [lineOf, feature?])
    (fun _ _ _ _ => by simp only [linkTag, Arena.modify_push]) a.tags [] raws
  rw [foldl_withTag] at h
  exact h

/-! ## Steps of the last scenario -/

/-- Attaching steps to the last scenario appends them and lists their ids. -/
theorem foldl_attach {a : Atlas} {before : Arena .scenario Scenario} {n : Scenario}
    (ha : a.scenarios = before.push n) (steps : List Step)
    (howner : ∀ s ∈ steps, s.scenario = before.nextId) :
    steps.foldl attach a =
      { a with
        scenarios := before.push { n with steps := n.steps ++ a.steps.nextId.run steps.length }
        steps := a.steps.append steps } := by
  induction steps generalizing a n with
  | nil => simp [← ha]
  | cons s steps ih =>
    have hs : s.scenario = before.nextId := howner s List.mem_cons_self
    have hattach : (a.attach s).scenarios =
        before.push { n with steps := n.steps ++ [a.steps.nextId] } := by
      simp only [attach, ha, hs, Arena.modify_push]
    have hsteps : (a.attach s).steps = a.steps.push s := rfl
    rw [List.foldl_cons, ih hattach fun t ht => howner t (List.mem_cons_of_mem s ht)]
    simp only [attach, Arena.push_append, Arena.nextId_push, List.append_assoc,
      List.singleton_append, List.length_cons, ← NodeId.run_succ]

/-- A block without examples adds its own node and steps only. -/
theorem place_planWith_nil (a : Atlas) (document : Path) (feature : FeatureId)
    (kind : ScenarioKind) (name : String) (b : Block) (extent : Extent) :
    let plans := (b.checkedSteps document).done
    let recorded := a.tags.recordAll (.scenario a.scenarios.nextId)
      ⟨document, b.position.line⟩ (tagTexts b.tags)
    a.place (a.nextSite document feature) name (b.planWith document kind [] extent) =
      { a with
        scenarios := a.scenarios.push
          ⟨b.heading document name, kind, recorded.2.eraseDups,
            a.steps.nextId.run plans.length, [], [], feature, none⟩
        steps := a.steps.append (plans.map (·.toStep document a.scenarios.nextId))
        tags := recorded.1 } := by
  simp only [place, BlockPlan.nodes, BlockPlan.stepNodes, BlockPlan.bindings, Block.planWith,
    List.flatMap_nil, List.length_nil, List.range_zero, List.map_nil, BlockPlan.rowSteps_nil,
    List.append_nil, ← Arena.push_append, Arena.append_nil]
  rfl

end Atlas

/-! ## Loops that may end early -/

namespace Building

/-- The end of work that may have met a failure. -/
def ended {α : Type} (failure : Option RaggedError) (result : α) (a : Atlas) :
    EStateM.Result RaggedError Atlas α :=
  match failure with
  | none => .ok result a
  | some e => .error e a

theorem run_ofExcept {α : Type} (x : Except RaggedError α) (a : Atlas) :
    EStateM.run (MonadExcept.ofExcept x : Building α) a =
      match x with
      | .ok b => .ok b a
      | .error e => .error e a := by
  cases x <;> rfl

/-- A loop that checks each item and then changes the atlas makes the changes of the items before
the first failure. -/
theorem run_forM_checked {α β : Type} (check : α → Except RaggedError β)
    (change : Atlas → β → Atlas) (xs : List α) (a : Atlas) :
    let checked := Progress.collect (fun x => .ofExcept (check x)) xs
    EStateM.run (xs.forM fun x => do
        let b ← MonadExcept.ofExcept (check x)
        modify fun a => change a b) a =
      ended checked.failure () (checked.done.foldl change a) := by
  induction xs generalizing a with
  | nil => rfl
  | cons x xs ih =>
    simp only [List.forM_eq_forM, List.forM_cons, EStateM.run_bind, run_ofExcept,
      Progress.collect_cons] at ih ⊢
    cases check x with
    | error e => rfl
    | ok b => exact ih (change a b)

/-- The node of a block with its tags and steps is its plan without examples. -/
theorem run_block (document : Path) (feature : FeatureId) (kind : ScenarioKind) (name : String)
    (b : Block) (extent : Extent) (a : Atlas) :
    EStateM.run (block document feature kind name b) a =
      ended (b.checkedSteps document).failure a.scenarios.nextId
        (a.place (a.nextSite document feature) name (b.planWith document kind [] extent)) := by
  have hloop := run_forM_checked (StepPlan.ofLine document)
    (fun a' p => a'.attach (p.toStep document a.scenarios.nextId)) b.steps
  simp only [block, EStateM.run_bind, EStateM.run_get, EStateM.run_modify, EStateM.run_pure]
  rw [Atlas.addTags_openScenario]
  unfold step
  rw [hloop, ← Block.checkedSteps, ← List.foldl_map, Atlas.foldl_attach rfl,
    Atlas.place_planWith_nil]
  · rw [List.length_map, List.nil_append]
    cases (b.checkedSteps document).failure <;> rfl
  · intro s hs
    obtain ⟨p, -, rfl⟩ := List.mem_map.mp hs
    rfl

end Building

/-! ## The rows of an examples block -/

theorem Scenario.enlist_nil (o : Scenario) (block : Nat) : o.enlist block [] = o := by
  have h : (fun e : Examples => { e with instances := e.instances ++ [] }) = id := by
    funext e
    simp
  rw [enlist, h, List.modify_id, List.append_nil]

theorem Scenario.enlist_enlist (o : Scenario) (block : Nat) (ids more : List ScenarioId) :
    (o.enlist block ids).enlist block more = o.enlist block (ids ++ more) := by
  simp [enlist, List.modify_modify_eq, Function.comp_def]

namespace Atlas

variable {site : Site} {b : BlockPlan} {template : Scenario} {name : String}

/-- One row adds the node and the steps of its instance, and lists the instance. -/
theorem addInstance_eq {a : Atlas} (hheading : template.heading = b.heading site.file name)
    (hfeature : template.feature = site.feature) {number : Nat}
    (houtline : site.scenario.index < a.scenarios.size)
    (hscenario : a.scenarios.nextId = site.instanceId number)
    (hstep : a.steps.nextId = site.step.shift ((number + 1) * b.steps.length)) (block : Nat)
    (cells : Binding) :
    a.addInstance site.scenario template (b.ownSteps site) block number cells =
      { a with
        scenarios :=
          (a.scenarios.modify site.scenario (·.enlist block [site.instanceId number])).push
            (b.instanceNode site number)
        steps := a.steps.append (b.instanceSteps site number cells) } := by
  have hsteps : (b.ownSteps site).map (·.bind cells a.scenarios.nextId) =
      b.instanceSteps site number cells := by
    simp only [BlockPlan.ownSteps, BlockPlan.instanceSteps, List.map_map, hscenario]
    rfl
  simp only [addInstance, ← List.foldl_map, hsteps]
  rw [foldl_attach rfl]
  · simp only [openScenario, linkInstance, Arena.modify_push, Arena.modify_push_of_lt houtline]
    simp only [hheading, hfeature, hscenario, hstep, BlockPlan.length_instanceSteps]
    rfl
  · intro s hs
    obtain ⟨p, -, rfl⟩ := List.mem_map.mp hs
    exact hscenario.symm

/-- The rows of a block add the nodes and steps of their instances in order. Both arenas have to
end just where the instance of the first row goes. -/
theorem foldl_addInstance {a : Atlas} (hheading : template.heading = b.heading site.file name)
    (hfeature : template.feature = site.feature) {number : Nat}
    (houtline : site.scenario.index < a.scenarios.size)
    (hscenario : a.scenarios.nextId = site.instanceId number)
    (hstep : a.steps.nextId = site.step.shift ((number + 1) * b.steps.length)) (block : Nat)
    (rows : List Binding) :
    (rows.zipIdx number).foldl
        (fun a (cells, number) =>
          a.addInstance site.scenario template (b.ownSteps site) block number cells) a =
      { a with
        scenarios :=
          (a.scenarios.modify site.scenario
            (·.enlist block ((site.instanceId number).run rows.length))).append
              ((List.range' number rows.length).map (b.instanceNode site))
        steps := a.steps.append (b.rowSteps site number rows) } := by
  induction rows generalizing a number with
  | nil => simp [Scenario.enlist_nil]
  | cons cells rows ih =>
    have hfirst := addInstance_eq hheading hfeature houtline hscenario hstep block cells
    rw [List.zipIdx_cons, List.foldl_cons]
    dsimp only
    rw [hfirst, ih]
    · have hmodify (o : Scenario) (ids : List ScenarioId) :
          (o.enlist block [site.instanceId number]).enlist block ids =
            o.enlist block (site.instanceId number :: ids) := o.enlist_enlist block _ ids
      have houtline' : site.scenario.index <
          (a.scenarios.modify site.scenario
            (·.enlist block [site.instanceId number])).size := by simpa using houtline
      have hnext : site.instanceId (number + 1) = (site.instanceId number).shift 1 := rfl
      simp only [Arena.modify_push_of_lt houtline', Arena.modify_modify, Function.comp_def,
        hmodify, Arena.push_append, Arena.append_append, List.length_cons, NodeId.run_succ,
        List.range'_succ, List.map_cons, BlockPlan.rowSteps_cons, hnext]
    · simpa using Nat.lt_succ_of_lt houtline
    · simp only [Arena.nextId_push, Arena.nextId_modify, hscenario]
      rfl
    · simp only [Arena.nextId_append, hstep, BlockPlan.length_instanceSteps, NodeId.shift_shift,
        Nat.succ_mul]

end Atlas

/-! ## The blocks of an outline -/

theorem placeExamples_append (first : ScenarioId) (es : List ExamplesPlan) (e : ExamplesPlan) :
    placeExamples first (es ++ [e]) = placeExamples first es ++
      [{ e.toExamples with
          instances := (first.shift (es.flatMap (·.rows)).length).run e.rows.length }] := by
  induction es generalizing first with
  | nil => rfl
  | cons e' es ih =>
    rw [List.cons_append, placeExamples, placeExamples, ih, List.cons_append, NodeId.shift_shift,
      List.flatMap_cons, List.length_append]

theorem length_placeExamples (first : ScenarioId) (es : List ExamplesPlan) :
    (placeExamples first es).length = es.length := by
  induction es generalizing first with
  | nil => rfl
  | cons e es ih => rw [placeExamples, List.length_cons, List.length_cons, ih]

namespace BlockPlan

/-- A block with other examples. -/
def withExamples (b : BlockPlan) (es : List ExamplesPlan) : BlockPlan :=
  { b with examples := es }

theorem length_bindings (b : BlockPlan) :
    b.bindings.length = (b.examples.flatMap (·.rows)).length := by
  simp [bindings, List.length_flatMap, ExamplesPlan.bindings]

theorem bindings_withExamples_append (b : BlockPlan) (es : List ExamplesPlan) (e : ExamplesPlan) :
    (b.withExamples (es ++ [e])).bindings = (b.withExamples es).bindings ++ e.bindings := by
  simp [bindings, withExamples]

/-- One more examples block puts it on the outline's node with the ids of its instances. -/
theorem node_withExamples_append (b : BlockPlan) (site : Site) (name : String) (tags : List TagId)
    (es : List ExamplesPlan) (e : ExamplesPlan) :
    let o := (b.withExamples es).node site name tags
    let number := (b.withExamples es).bindings.length
    (b.withExamples (es ++ [e])).node site name tags =
      { o with examples := o.examples ++ [e.toExamples] }.enlist es.length
        ((site.instanceId number).run e.bindings.length) := by
  have hfirst : (site.instanceId 0).shift (es.flatMap (·.rows)).length =
      site.instanceId (es.flatMap (·.rows)).length := by
    simp [Site.instanceId, Nat.add_comm]
  have hrows : e.bindings.length = e.rows.length := by simp [ExamplesPlan.bindings]
  have hlast (change : Examples → Examples) :
      (placeExamples (site.instanceId 0) es ++ [e.toExamples]).modify es.length change =
        placeExamples (site.instanceId 0) es ++ [change e.toExamples] := by
    rw [← length_placeExamples (site.instanceId 0) es, List.modify_eq_take_drop]
    simp
  simp only [node, withExamples, Scenario.enlist, length_bindings, placeExamples_append, hfirst,
    hlast, hrows, List.flatMap_append, List.flatMap_singleton, List.length_append,
    NodeId.run_add]
  rfl

/-- One more examples block leaves the earlier nodes but the outline's alone. -/
theorem nodes_withExamples_append (b : BlockPlan) (site : Site) (name : String)
    (tags : List TagId) (es : List ExamplesPlan) (e : ExamplesPlan) :
    let number := (b.withExamples es).bindings.length
    (b.withExamples (es ++ [e])).nodes site name tags =
      (b.withExamples (es ++ [e])).node site name tags ::
        ((List.range number).map ((b.withExamples es).instanceNode site) ++
          (List.range' number e.bindings.length).map ((b.withExamples es).instanceNode site)) := by
  have hrange (m n : Nat) : List.range (m + n) = List.range m ++ List.range' m n := by
    simp [List.range_eq_range', ← List.range'_append]
  simp only [nodes, bindings_withExamples_append, List.length_append, hrange, List.map_append]
  rfl

/-- One more examples block leaves the earlier steps alone. -/
theorem stepNodes_withExamples_append (b : BlockPlan) (site : Site) (es : List ExamplesPlan)
    (e : ExamplesPlan) :
    (b.withExamples (es ++ [e])).stepNodes site = (b.withExamples es).stepNodes site ++
      (b.withExamples es).rowSteps site (b.withExamples es).bindings.length e.bindings := by
  rw [stepNodes, bindings_withExamples_append, rowSteps_append, stepNodes, List.append_assoc,
    Nat.zero_add]
  rfl

end BlockPlan

namespace Atlas

variable {a : Atlas} {site : Site} {name : String} {b : BlockPlan}

/-- The node of a block, where it was placed. -/
theorem scenario?_place (hsite : site.scenario = a.scenarios.nextId) :
    (a.place site name b).scenario? site.scenario =
      some (b.node site name (a.recordBlock site b).2) := by
  simp [scenario?, place, BlockPlan.nodes, Arena.get?_append, hsite]

/-- The steps of a block's own node, where it was placed. -/
theorem stepsIn_place (hsite : site.scenario = a.scenarios.nextId)
    (hstep : site.step = a.steps.nextId) :
    (a.place site name b).stepsIn site.scenario = b.ownSteps site := by
  have h := a.steps.filterMap_get?_run (b.ownSteps site) (b.rowSteps site 0 b.bindings)
  rw [stepsIn, scenario?_place hsite]
  change (site.step.run b.steps.length).filterMap (a.place site name b).step? = _
  rw [hstep, ← b.length_ownSteps site]
  exact h

/-- Expanding one more examples block on a placed outline places that block as well. -/
theorem expand_place (hsite : site.scenario = a.scenarios.nextId)
    (hstep : site.step = a.steps.nextId) (es : List ExamplesPlan) (e : ExamplesPlan) :
    (a.place site name (b.withExamples es)).expand site.scenario e =
      a.place site name (b.withExamples (es ++ [e])) := by
  let b' := b.withExamples es
  let tags := (a.recordBlock site b').2
  let o := b'.node site name tags
  let opened := (a.place site name b').openExamples site.scenario e
  have hnumber : o.instances.length = b'.bindings.length := by simp [o, BlockPlan.node]
  have hblock : o.examples.length = es.length := length_placeExamples _ _
  have houtline : site.scenario.index < opened.scenarios.size := by
    simp [opened, openExamples, place, hsite]
  have hscenario : opened.scenarios.nextId = site.instanceId b'.bindings.length := by
    simp [opened, openExamples, place, hsite, Site.instanceId]
  have hnext : opened.steps.nextId =
      site.step.shift ((b'.bindings.length + 1) * b'.steps.length) := by
    simp [opened, openExamples, place, hstep, BlockPlan.length_stepNodes]
  have hheading : o.heading = b'.heading site.file name := rfl
  have hrows := foldl_addInstance hheading rfl houtline hscenario hnext es.length e.bindings
  rw [expand, scenario?_place hsite]
  dsimp only
  -- What the expansion reads back is what the plan says: the own steps, and how many instances and
  -- blocks there are by now.
  rw [stepsIn_place hsite hstep, hnumber, hblock, hrows]
  simp only [place, opened, openExamples, Arena.append_append]
  congr 1
  · have hnodes := b.nodes_withExamples_append site name tags es e
    have hnode := b.node_withExamples_append site name tags es e
    change _ = a.scenarios.append ((b.withExamples (es ++ [e])).nodes site name tags)
    rw [hnodes, hnode]
    simp only [BlockPlan.nodes, hsite, Arena.modify_append_cons, Arena.append_append]
    rfl
  · rw [BlockPlan.stepNodes_withExamples_append]

theorem foldl_expand_place (name : String) (b : BlockPlan)
    (hsite : site.scenario = a.scenarios.nextId) (hstep : site.step = a.steps.nextId)
    (es more : List ExamplesPlan) :
    more.foldl (·.expand site.scenario) (a.place site name (b.withExamples es)) =
      a.place site name (b.withExamples (es ++ more)) := by
  induction more generalizing es with
  | nil => rw [List.foldl_nil, List.append_nil]
  | cons e more ih =>
    rw [List.foldl_cons, expand_place hsite hstep, ih, List.append_assoc, List.singleton_append]

end Atlas

/-! ## Blocks of each kind -/

namespace Building

variable {document : Path} {filter : TagFilter} {feature : FeatureId}

theorem ofBlock_of_step_failure {kind : ScenarioKind} {b : Block} {e : RaggedError}
    (h : (b.checkedSteps document).failure = some e) :
    BlockPlan.ofBlock document kind b = (b.planWith document kind [] .upToStep, some e) := by
  simp only [BlockPlan.ofBlock, h]

/-- The examples of a placed outline are placed block by block, up to the first ragged one. -/
theorem run_forM_examples (document : Path) {a : Atlas} {site : Site} {id : ScenarioId}
    (hid : site.scenario = id) (hsite : id = a.scenarios.nextId)
    (hstep : site.step = a.steps.nextId) (name : String) (b : Block) (extent : Extent) :
    let checked := b.checkedExamples document .outline
    EStateM.run (b.examples.forM (examples document id))
        (a.place site name (b.planWith document .outline [] extent)) =
      ended checked.failure ()
        (a.place site name (b.planWith document .outline checked.done extent)) := by
  subst hid
  have hloop := run_forM_checked (ExamplesPlan.ofBlock document)
    (fun a e => a.expand site.scenario e) b.examples
    (a.place site name (b.planWith document .outline [] extent))
  have hplace := Atlas.foldl_expand_place name (b.planWith document .outline [] extent) hsite hstep
    [] (b.checkedExamples document .outline).done
  unfold examples
  rw [hloop]
  exact congrArg _ hplace

/-- An outline that is kept is placed as far as it is sound, and listed by its feature unless one
of its steps is not. -/
theorem run_outline {b : Block} (hkept : filter.excludes (tagTexts b.tags) = false) (a : Atlas) :
    let planned := BlockPlan.ofBlock document .outline b
    let placed := a.place (a.nextSite document feature) (a.childName feature) planned.1
    EStateM.run (outline document filter feature b) a =
      ended planned.2 (some a.scenarios.nextId)
        (if planned.1.isListed then placed.addChild feature a.scenarios.nextId else placed) := by
  have hblock := run_block document feature .outline (a.childName feature) b .whole a
  simp only [outline, hkept, Bool.false_eq_true, if_false, EStateM.run_bind, EStateM.run_get,
    EStateM.run_modify, EStateM.run_pure, hblock]
  cases hs : (b.checkedSteps document).failure with
  | some e =>
    rw [ofBlock_of_step_failure hs]
    rfl
  | none =>
    -- Listing the outline touches its feature only, so it may as well come first.
    have hlist : (a.place (a.nextSite document feature) (a.childName feature)
        (b.planWith document .outline [] .whole)).addChild feature a.scenarios.nextId =
          (a.addChild feature a.scenarios.nextId).place (a.nextSite document feature)
            (a.childName feature) (b.planWith document .outline [] .whole) := rfl
    have hid : (a.nextSite document feature).scenario = a.scenarios.nextId := rfl
    have hsite : a.scenarios.nextId =
        (a.addChild feature a.scenarios.nextId).scenarios.nextId := rfl
    have hexamples := run_forM_examples document hid hsite rfl (a.childName feature) b .whole
    simp only [ended, hlist, hexamples]
    simp only [BlockPlan.ofBlock, hs]
    cases (b.checkedExamples document .outline).failure <;> rfl

/-- A scenario that is kept is placed with its sound steps, and listed if all of them are. -/
theorem run_scenario {b : Block} (hkept : filter.excludes (tagTexts b.tags) = false) (a : Atlas) :
    let planned := BlockPlan.ofBlock document .scenario b
    let placed := a.place (a.nextSite document feature) (a.childName feature) planned.1
    EStateM.run (scenario document filter feature b) a =
      ended planned.2 (some a.scenarios.nextId)
        (if planned.1.isListed then placed.addChild feature a.scenarios.nextId else placed) := by
  have hblock := run_block document feature .scenario (a.childName feature) b .whole a
  simp only [scenario, hkept, Bool.false_eq_true, if_false, EStateM.run_bind, EStateM.run_get,
    EStateM.run_modify, EStateM.run_pure, hblock]
  cases hs : (b.checkedSteps document).failure with
  | some e =>
    rw [ofBlock_of_step_failure hs]
    rfl
  | none =>
    simp only [BlockPlan.ofBlock, hs]
    rfl

/-- A background is placed with its sound steps, and becomes the feature's if all of them are. -/
theorem run_background (b : Block) (a : Atlas) :
    let planned := BlockPlan.ofBlock document .background b
    let placed := a.place (a.nextSite document feature) "background" planned.1
    EStateM.run (background document feature b) a =
      ended planned.2 ()
        (if planned.1.isListed then placed.setBackground feature a.scenarios.nextId
          else placed) := by
  have hblock := run_block document feature .background "background" b .whole a
  simp only [background, EStateM.run_bind, EStateM.run_modify, hblock]
  cases hs : (b.checkedSteps document).failure with
  | some e =>
    rw [ofBlock_of_step_failure hs]
    rfl
  | none =>
    simp only [BlockPlan.ofBlock, hs]
    rfl

end Building

end FeatureAtlas
