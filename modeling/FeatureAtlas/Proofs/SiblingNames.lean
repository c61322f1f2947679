import FeatureAtlas.Proofs.Permanence
import FeatureAtlas.Proofs.Remains
import FeatureAtlas.Proofs.Shapes
import FeatureAtlas.Proofs.Transcript
import Mathlib.Data.Option.Basic

/-!
# Names tell siblings apart

Children of a feature, instances of an outline and steps are named by numbers: how many children the
feature lists already, how many instances come before, and the line of the step. A child that is
left out or fails is not listed, so the next one gets the number that was not used up.
`Atlas.HasNumberedNames` says which name stands where, and is kept by whatever a run does; that the
names differ follows because no two numbers are printed alike. Main statement:
`Atlas.Reachable.names_distinct`.
-/

namespace FeatureAtlas

/-! ## Numbered names -/

/-- No two numbers are printed alike. -/
theorem numbered_injective (before : String) :
    Function.Injective fun n : Nat => before ++ toString n := by
  intro m n h
  have hprinted : toString m = toString n := (String.append_right_inj _).1 h
  rw [Nat.toString_eq_ofList_toDigits, Nat.toString_eq_ofList_toDigits] at hprinted
  have hdigits : Nat.toDigits 10 m = Nat.toDigits 10 n := String.ofList_injective hprinted
  rw [← Nat.ofDigitChars_toDigits (n := m) (by decide) (Nat.le_refl 10), hdigits,
    Nat.ofDigitChars_toDigits (by decide) (Nat.le_refl 10)]

theorem numberedTitle_injective (title : String) :
    Function.Injective fun n : Nat => title ++ " (" ++ toString (n + 1) ++ ")" := by
  intro m n h
  exact Nat.succ.inj (numbered_injective (title ++ " (") ((String.append_left_inj _).1 h))

section

variable {α β : Type} {look : α → β} {name : Nat → β} {ids : List α}

/-- Names that differ from place to place are distinct. -/
theorem nodup_map_of_numbered (hname : Function.Injective name)
    (h : ∀ (k : Nat) id, ids[k]? = some id → look id = name k) : (ids.map look).Nodup := by
  have hrange : ids.map look = (List.range ids.length).map name := by
    refine List.ext_getElem (by simp) fun k hk _ => ?_
    rw [List.length_map] at hk
    simpa using h k ids[k] (List.getElem?_eq_getElem hk)
  rw [hrange]
  exact List.nodup_range.map hname

theorem exists_of_mem_map_of_numbered (h : ∀ (k : Nat) id, ids[k]? = some id → look id = name k)
    {x : β} (hx : x ∈ ids.map look) : ∃ k, x = name k := by
  obtain ⟨id, hid, rfl⟩ := List.mem_map.1 hx
  obtain ⟨k, hk⟩ := List.getElem?_of_mem hid
  exact ⟨k, h k id hk⟩

end

namespace Atlas

/-- The names of scenarios. -/
def namesOf (a : Atlas) (ids : List ScenarioId) : List (Option String) :=
  ids.map fun id => (a.scenario? id).map (·.heading.name)

/-- The titles of scenarios. -/
def titlesOf (a : Atlas) (ids : List ScenarioId) : List (Option String) :=
  ids.map fun id => (a.scenario? id).map (·.heading.title)

/-- The names of a scenario's steps. -/
def stepNames (a : Atlas) (n : Scenario) : List (Option String) :=
  n.steps.map fun id => (a.step? id).map (·.name)

/-- Which names stand where: those of children and instances count from zero, the title of an
instance has its number in brackets, counted from one, and a step is named for its line. -/
structure HasNumberedNames (a : Atlas) : Prop where
  child : ∀ id f, a.feature? id = some f → ∀ (i : Nat) child, f.children[i]? = some child →
    ∃ n, a.scenario? child = some n ∧ n.heading.name = "scenario_" ++ toString i
  background : ∀ id f, a.feature? id = some f → ∀ b, f.background = some b →
    ∃ n, a.scenario? b = some n ∧ n.heading.name = "background"
  numbered : ∀ id o, a.scenario? id = some o → ∀ (k : Nat) i, o.instances[k]? = some i →
    ∃ n, a.scenario? i = some n ∧ n.heading.name = "example_" ++ toString k ∧
      n.heading.title = o.heading.title ++ " (" ++ toString (k + 1) ++ ")"
  step : ∀ id s, a.step? id = some s → s.name = "step_" ++ toString s.line

/-- No two siblings share a name, no two instances of an outline share a title, and neither a child
nor an instance is called `background`. -/
structure HasDistinctNames (a : Atlas) : Prop where
  siblings : ∀ id f, a.feature? id = some f →
    (a.namesOf (f.background.toList ++ f.children)).Nodup ∧
      some "background" ∉ a.namesOf f.children
  instances : ∀ id o, a.scenario? id = some o →
    (a.namesOf o.instances).Nodup ∧ some "background" ∉ a.namesOf o.instances
  titles : ∀ id o, a.scenario? id = some o →
    (a.titlesOf o.instances).Nodup ∧ some "background" ∉ a.titlesOf o.instances

theorem HasNumberedNames.hasDistinctNames {a : Atlas} (h : a.HasNumberedNames) :
    a.HasDistinctNames := by
  have hprinted (before : String) :
      Function.Injective fun n : Nat => some (before ++ toString n) :=
    (Option.some_injective String).comp (numbered_injective before)
  constructor
  case siblings =>
    intro id f hf
    have hlook (i : Nat) (child : ScenarioId) (hi : f.children[i]? = some child) :
        (a.scenario? child).map (·.heading.name) = some ("scenario_" ++ toString i) := by
      obtain ⟨n, hn, hname⟩ := h.child id f hf i child hi
      rw [hn, Option.map_some, hname]
    have hnodup : (a.namesOf f.children).Nodup := nodup_map_of_numbered (hprinted _) hlook
    have hne : some "background" ∉ a.namesOf f.children := by
      intro hmem
      obtain ⟨i, hi⟩ := exists_of_mem_map_of_numbered hlook hmem
      have hhead := congrArg (fun s : String => s.toList.head?) (Option.some.inj hi)
      simp at hhead
    refine ⟨?_, hne⟩
    cases hback : f.background with
    | none => exact hnodup
    | some b =>
      obtain ⟨n, hn, hname⟩ := h.background id f hf b hback
      have hcons : a.namesOf ((some b).toList ++ f.children) =
          some "background" :: a.namesOf f.children := by
        simp [namesOf, hn, hname]
      rw [hcons]
      exact List.nodup_cons.2 ⟨hne, hnodup⟩
  case instances =>
    intro id o ho
    have hlook (k : Nat) (i : ScenarioId) (hi : o.instances[k]? = some i) :
        (a.scenario? i).map (·.heading.name) = some ("example_" ++ toString k) := by
      obtain ⟨n, hn, hname, -⟩ := h.numbered id o ho k i hi
      rw [hn, Option.map_some, hname]
    refine ⟨nodup_map_of_numbered (hprinted _) hlook, fun hmem => ?_⟩
    obtain ⟨k, hk⟩ := exists_of_mem_map_of_numbered hlook hmem
    have hhead := congrArg (fun s : String => s.toList.head?) (Option.some.inj hk)
    simp at hhead
  case titles =>
    intro id o ho
    have hlook (k : Nat) (i : ScenarioId) (hi : o.instances[k]? = some i) :
        (a.scenario? i).map (·.heading.title) =
          some (o.heading.title ++ " (" ++ toString (k + 1) ++ ")") := by
      obtain ⟨n, hn, -, htitle⟩ := h.numbered id o ho k i hi
      rw [hn, Option.map_some, htitle]
    refine ⟨nodup_map_of_numbered ((Option.some_injective String).comp
      (numberedTitle_injective o.heading.title)) hlook, fun hmem => ?_⟩
    obtain ⟨k, hk⟩ := exists_of_mem_map_of_numbered hlook hmem
    have hlast : "background".toList.getLast? = some ')' := by
      rw [Option.some.inj hk, String.toList_append]
      exact List.getLast?_concat
    exact absurd hlast (by decide)

/-! ## What a run keeps -/

section

variable {g : Growth} {f : Feature} {document : Path} {b : BlockPlan}

theorem getElem?_run_instanceId {site : Site} {n k : Nat} {id : ScenarioId}
    (h : ((site.instanceId 0).run n)[k]? = some id) : k < n ∧ id = site.instanceId k := by
  obtain ⟨hk, rfl⟩ := List.getElem?_eq_some_iff.1 h
  rw [NodeId.length_run] at hk
  exact ⟨hk, by simp [NodeId.run, Site.instanceId, Nat.add_comm]⟩

theorem exists_name_addBlock_nextId (g : Growth) (f : Feature) (document : Path) (b : BlockPlan) :
    ∃ n, ((g.addBlock document b).close f).scenario? g.atlas.scenarios.nextId = some n ∧
      n.heading.name = g.nextName b.kind := by
  have hnode : (g.addBlock document b).atlas.scenario? g.atlas.scenarios.nextId = some _ :=
    scenario?_place rfl
  exact ⟨_, hnode, rfl⟩

/-- The children that a feature has with one more block are named by their places. -/
theorem HasNumberedNames.child_addBlock (h : (g.close f).HasNumberedNames) {i : Nat}
    {child : ScenarioId} (hi : (g.addBlock document b).children[i]? = some child) :
    ∃ n, ((g.addBlock document b).close f).scenario? child = some n ∧
      n.heading.name = "scenario_" ++ toString i := by
  have hold (hi : g.children[i]? = some child) :
      ∃ n, ((g.addBlock document b).close f).scenario? child = some n ∧
        n.heading.name = "scenario_" ++ toString i := by
    have hf := (feature?_close g f g.atlas.features.nextId).trans (if_pos rfl)
    obtain ⟨n, hn, hname⟩ := h.child _ _ hf i child hi
    exact ⟨n, scenario?_addBlock_of_some hn, hname⟩
  by_cases hlisted : b.isListed = true ∧ b.kind ≠ .background
  · rw [children_addBlock_of_listed hlisted.1 hlisted.2] at hi
    rcases Nat.lt_or_ge i g.children.length with hlt | hge
    · exact hold ((List.getElem?_append_left hlt).symm.trans hi)
    · rw [List.getElem?_append_right hge, List.getElem?_singleton] at hi
      split at hi
      · next hzero =>
        obtain rfl : i = g.children.length := by omega
        cases hi
        rw [← g.nextName_of_ne hlisted.2]
        exact exists_name_addBlock_nextId g f document b
      · cases hi
  · have hsame : (g.addBlock document b).children = g.children := if_neg hlisted
    exact hold (hsame ▸ hi)

theorem HasNumberedNames.background_addBlock (h : (g.close f).HasNumberedNames)
    {back : ScenarioId} (hback : (g.addBlock document b).background = some back) :
    ∃ n, ((g.addBlock document b).close f).scenario? back = some n ∧
      n.heading.name = "background" := by
  by_cases hlisted : b.isListed = true ∧ b.kind = .background
  · have hnew : (g.addBlock document b).background = some g.atlas.scenarios.nextId := if_pos hlisted
    cases hnew.symm.trans hback
    obtain ⟨n, hn, hname⟩ := exists_name_addBlock_nextId g f document b
    exact ⟨n, hn, by rw [hname, hlisted.2]; rfl⟩
  · have hsame : (g.addBlock document b).background = g.background := if_neg hlisted
    have hf := (feature?_close g f g.atlas.features.nextId).trans (if_pos rfl)
    obtain ⟨n, hn, hname⟩ := h.background _ _ hf back (hsame ▸ hback)
    exact ⟨n, scenario?_addBlock_of_some hn, hname⟩

/-- The instances of a placed block are numbered from its own heading. -/
theorem numbered_place {a : Atlas} {site : Site} {name : String}
    (hsite : site.scenario = a.scenarios.nextId) (tags : List TagId) {k : Nat} {i : ScenarioId}
    (hi : (b.node site name tags).instances[k]? = some i) :
    ∃ n, (a.place site name b).scenario? i = some n ∧
      n.heading.name = "example_" ++ toString k ∧
      n.heading.title = b.title ++ " (" ++ toString (k + 1) ++ ")" := by
  obtain ⟨hk, rfl⟩ := getElem?_run_instanceId hi
  exact ⟨_, scenario?_place_instance hsite hk, rfl, rfl⟩

theorem HasNumberedNames.addBlock (h : (g.close f).HasNumberedNames) (document : Path)
    (b : BlockPlan) : ((g.addBlock document b).close f).HasNumberedNames := by
  have hfeatures : (g.addBlock document b).atlas.features = g.atlas.features := rfl
  have hfeature {id : FeatureId} {feature : Feature}
      (hf : ((g.addBlock document b).close f).feature? id = some feature) :
      (feature.children = (g.addBlock document b).children ∧
          feature.background = (g.addBlock document b).background) ∨
        (g.close f).feature? id = some feature := by
    rw [feature?_close, hfeatures] at hf
    split at hf
    · cases hf
      exact .inl ⟨rfl, rfl⟩
    · next hid => exact .inr ((feature?_close g f id).trans ((if_neg hid).trans hf))
  constructor
  case child =>
    intro id feature hf i child hi
    rcases hfeature hf with ⟨hchildren, -⟩ | hold
    · exact h.child_addBlock (hchildren ▸ hi)
    · obtain ⟨n, hn, hname⟩ := h.child id feature hold i child hi
      exact ⟨n, scenario?_addBlock_of_some hn, hname⟩
  case background =>
    intro id feature hf back hback
    rcases hfeature hf with ⟨-, hbackground⟩ | hold
    · exact h.background_addBlock (hbackground ▸ hback)
    · obtain ⟨n, hn, hname⟩ := h.background id feature hold back hback
      exact ⟨n, scenario?_addBlock_of_some hn, hname⟩
  case numbered =>
    intro id o ho k i hi
    rcases cases_scenario?_place (a := g.atlas) rfl ho with hold | ⟨-, rfl⟩ | ⟨number, -, -, rfl⟩
    · obtain ⟨n, hn, hheading⟩ := h.numbered id o hold k i hi
      exact ⟨n, scenario?_addBlock_of_some hn, hheading⟩
    · exact numbered_place (a := g.atlas) rfl _ hi
    · cases hi
  case step =>
    intro id s hs
    rcases Arena.cases_get?_append hs with hold | ⟨k, hk, -⟩
    · exact h.step id s hold
    · obtain ⟨p, -, owner, rfl | ⟨cells, rfl⟩⟩ :=
        BlockPlan.cases_stepNodes (List.mem_of_getElem? hk)
      · rfl
      · rfl

end

theorem HasNumberedNames.opened {a : Atlas} (h : a.HasNumberedNames) (document : Path)
    (f : FeaturePlan) : (a.opened document f).HasNumberedNames := by
  have hfeature {id : FeatureId} {feature : Feature}
      (hf : (a.opened document f).feature? id = some feature) :
      (feature.children = [] ∧ feature.background = none) ∨ a.feature? id = some feature := by
    have hget := (Arena.get?_push _ _ id).symm.trans hf
    split at hget
    · cases hget
      exact .inl ⟨rfl, rfl⟩
    · exact .inr hget
  constructor
  case child =>
    intro id feature hf i child hi
    rcases hfeature hf with ⟨hnil, -⟩ | hold
    · simp [hnil] at hi
    · exact h.child id feature hold i child hi
  case background =>
    intro id feature hf back hback
    rcases hfeature hf with ⟨-, hnone⟩ | hold
    · cases hnone.symm.trans hback
    · exact h.background id feature hold back hback
  case numbered => exact h.numbered
  case step => exact h.step

/-- An edited step has its name and its line. -/
theorem step?_edit (a : Atlas) (edited : StepId) {change : Step → Step}
    (hchange : Step.IsEdit change) (id : StepId) :
    (step? { a with steps := a.steps.modify edited change } id).map (fun s => (s.name, s.line)) =
      (a.step? id).map fun s => (s.name, s.line) := by
  simp only [step?, Arena.get?_modify]
  split
  · rw [Option.map_map]
    refine congrArg (Option.map · (a.steps.get? id)) (funext fun s => ?_)
    obtain ⟨text, docString, table, hs⟩ := hchange s
    rw [Function.comp_apply, hs]
  · rfl

theorem HasNumberedNames.edit {a : Atlas} (h : a.HasNumberedNames) (edited : StepId)
    {change : Step → Step} (hchange : Step.IsEdit change) :
    HasNumberedNames { a with steps := a.steps.modify edited change } := by
  refine ⟨h.child, h.background, h.numbered, fun id s hs => ?_⟩
  have hsame := step?_edit a edited hchange id
  rw [hs] at hsame
  obtain ⟨old, hold, heq⟩ := Option.map_eq_some_iff.1 hsame.symm
  obtain ⟨hname, hline⟩ := Prod.mk.inj heq
  rw [← hname, ← hline]
  exact h.step id old hold

theorem hasNumberedNames_empty : Atlas.empty.HasNumberedNames where
  child := fun _ _ h => by cases h
  background := fun _ _ h => by cases h
  numbered := fun _ _ h => by cases h
  step := fun _ _ h => by cases h

theorem Reachable.hasNumberedNames {a : Atlas} (h : a.Reachable) : a.HasNumberedNames :=
  h.invariant (fun _ document f ha => ha.opened document f)
    (fun _ _ document b hg => hg.addBlock document b) hasNumberedNames_empty
    fun _ id _ hchange ha => ha.edit id hchange

/-! ## What is kept of a node -/

/-- The scenarios of an atlas are kept, and its steps keep their names. -/
structure KeepsNames (a a' : Atlas) : Prop where
  scenario : ∀ id n, a.scenario? id = some n → a'.scenario? id = some n
  step : ∀ id s, a.step? id = some s → (a'.step? id).map (·.name) = some s.name

namespace KeepsNames

variable {a a' a'' : Atlas}

theorem refl (a : Atlas) : a.KeepsNames a :=
  ⟨fun _ _ hn => hn, fun id s hs => by rw [hs]; rfl⟩

theorem trans (h : a.KeepsNames a') (h' : a'.KeepsNames a'') : a.KeepsNames a'' := by
  refine ⟨fun id n hn => h'.scenario id n (h.scenario id n hn), fun id s hs => ?_⟩
  obtain ⟨t, ht, hname⟩ := Option.map_eq_some_iff.1 (h.step id s hs)
  rw [← hname]
  exact h'.step id t ht

theorem of_growsIn {document : Path} (h : a.GrowsIn document a') : a.KeepsNames a' :=
  ⟨h.scenario, fun id s hs => by rw [h.step id s hs]; rfl⟩

theorem edit (a : Atlas) (id : StepId) {change : Step → Step} (hchange : Step.IsEdit change) :
    a.KeepsNames { a with steps := a.steps.modify id change } := by
  refine ⟨fun _ _ hn => hn, fun other s hs => ?_⟩
  have hsame := congrArg (Option.map Prod.fst) (step?_edit a id hchange other)
  rw [Option.map_map, Option.map_map, hs] at hsame
  exact hsame

/-- Steps that were there have the same names. -/
theorem stepNames (h : a.KeepsNames a') {n : Scenario} {names : List String}
    (hnames : a.stepNames n = names.map some) : a'.stepNames n = names.map some := by
  rw [← hnames]
  refine List.map_congr_left fun id hid => ?_
  have hmem : (a.step? id).map (·.name) ∈ names.map some := hnames ▸ List.mem_map_of_mem hid
  obtain ⟨name, -, hname⟩ := List.mem_map.1 hmem
  obtain ⟨s, hs, -⟩ := Option.map_eq_some_iff.1 hname.symm
  rw [h.step id s hs, hs]
  rfl

end KeepsNames

theorem LeadsTo.keepsNames {a a' : Atlas} (h : a.LeadsTo a') : a.KeepsNames a' := by
  induction h with
  | refl => exact .refl a
  | @deliver b _ d ih => exact ih.trans (.of_growsIn (d.growsIn_perform b))
  | @edit b _ id change hchange ih => exact ih.trans (.edit b id hchange)

/-! ## The nodes of a child -/

/-- Adding a document gets as far as its child with the number `m`, and does not leave it out. -/
structure BuildsChild (a : Atlas) (d : Document) (filter : TagFilter) (m : Nat) (c : Child) :
    Prop where
  child : ∃ f, d.feature? = some f ∧ f.children[m]? = some c
  kept : ChildPlan.leavesOut filter c = false
  before : ∃ id, (a.addDocument (d.upTo m) filter).outcome = .ok (some id)

/-- The id of the child with that number: the first one after the children before it. -/
def childId (a : Atlas) (d : Document) (filter : TagFilter) (m : Nat) : ScenarioId :=
  (a.addDocument (d.upTo m) filter).atlas.scenarios.nextId

/-- The node of a child with its instances: the steps, as far as there are any, are named for the
lines of the child's steps. -/
structure IsBuiltFrom (a : Atlas) (document : Path) (c : Child) (id : ScenarioId) (n : Scenario) :
    Prop where
  node : a.scenario? id = some n
  kind : n.kind = c.kind
  heading : n.heading = c.block.heading document n.heading.name
  steps : a.stepNames n <+: c.block.steps.map fun s => some ("step_" ++ toString s.position.line)
  instances : ∀ i ∈ n.instances, ∃ k, a.scenario? i = some k ∧ k.kind = .example ∧
    k.outline = some id ∧ a.stepNames k = a.stepNames n

end Atlas

/-- The steps of a block that come to be planned are its first ones. -/
theorem Block.map_line_checkedSteps (document : Path) (b : Block) :
    (b.checkedSteps document).done.map (·.line) <+: b.steps.map (·.position.line) := by
  unfold checkedSteps
  induction b.steps with
  | nil => exact List.prefix_rfl
  | cons s steps ih =>
    rw [Progress.collect_cons]
    cases h : StepPlan.ofLine document s with
    | error e => exact List.nil_prefix
    | ok p =>
      obtain ⟨-, rfl⟩ := StepPlan.ofLine_eq_ok_iff.1 h
      exact (List.prefix_cons_inj _).2 ih

namespace BlockPlan

theorem steps_ofBlock (document : Path) (kind : ScenarioKind) (b : Block) :
    (ofBlock document kind b).1.steps = (b.checkedSteps document).done := by
  simp only [ofBlock]
  split <;> rfl

theorem heading_ofBlock (document file : Path) (kind : ScenarioKind) (b : Block) (name : String) :
    (ofBlock document kind b).1.heading file name = b.heading file name := by
  simp only [ofBlock]
  split <;> rfl

/-- The names of the steps of a block, which those of its instances have as well. -/
def stepNames (b : BlockPlan) : List String :=
  b.steps.map fun s => "step_" ++ toString s.line

end BlockPlan

/-- The plans of children go on from those before one that is kept with the plan of its block. -/
theorem ChildPlan.exists_done_collect {document : Path} {filter : TagFilter} {cs : List Child}
    {m : Nat} {c : Child} (hc : cs[m]? = some c) (hkept : leavesOut filter c = false)
    (hbefore : (Progress.collect (ofChild document filter) (cs.take m)).failure = none) :
    ∃ after, (Progress.collect (ofChild document filter) cs).done =
      (Progress.collect (ofChild document filter) (cs.take m)).done ++
        .kept (BlockPlan.ofBlock document c.kind c.block).1 :: after := by
  have hchild : ofChild document filter c =
      ⟨[.kept (BlockPlan.ofBlock document c.kind c.block).1],
        (BlockPlan.ofBlock document c.kind c.block).2⟩ := by
    simp only [ofChild, hkept, Bool.false_eq_true, if_false]
  have hcut : Progress.collect (ofChild document filter) cs =
      Progress.collect (ofChild document filter) (cs.take m ++ c :: cs.drop (m + 1)) :=
    congrArg _ (eq_take_append_cons_drop hc)
  rw [hcut, Progress.collect_append hbefore, Progress.collect_cons, hchild]
  cases (BlockPlan.ofBlock document c.kind c.block).2 with
  | some e => exact ⟨[], rfl⟩
  | none => exact ⟨_, rfl⟩

namespace Atlas

section

variable {a : Atlas} {site : Site} {name : String} {b : BlockPlan}

theorem stepNames_place_own (hstep : site.step = a.steps.nextId) (tags : List TagId) :
    (a.place site name b).stepNames (b.node site name tags) = b.stepNames.map some := by
  have hplaced : (b.node site name tags).steps.map (a.place site name b).step? =
      (b.ownSteps site).map some := map_step?_place_own hstep tags
  have hsteps := congrArg (List.map (Option.map Step.name)) hplaced
  rw [List.map_map, List.map_map, BlockPlan.ownSteps, List.map_map] at hsteps
  rw [BlockPlan.stepNames, List.map_map]
  exact hsteps

theorem stepNames_place_instance (hstep : site.step = a.steps.nextId) {number : Nat}
    (hnumber : number < b.bindings.length) :
    (a.place site name b).stepNames (b.instanceNode site number) = b.stepNames.map some := by
  have hplaced : (b.instanceNode site number).steps.map (a.place site name b).step? =
      (b.instanceSteps site number b.bindings[number]).map some :=
    map_step?_place_instance hstep (List.getElem?_eq_getElem hnumber)
  have hsteps := congrArg (List.map (Option.map Step.name)) hplaced
  rw [List.map_map, List.map_map, BlockPlan.instanceSteps, List.map_map] at hsteps
  rw [BlockPlan.stepNames, List.map_map]
  exact hsteps

/-- A placed block is built from its child, and stays so. -/
theorem isBuiltFrom_place (hsite : site.scenario = a.scenarios.nextId)
    (hstep : site.step = a.steps.nextId) (c : Child) {a' : Atlas}
    (h : (a.place site name (BlockPlan.ofBlock site.file c.kind c.block).1).KeepsNames a') :
    ∃ n, a'.IsBuiltFrom site.file c site.scenario n := by
  let b := (BlockPlan.ofBlock site.file c.kind c.block).1
  let tags := (a.recordBlock site b).2
  have hown : a'.stepNames (b.node site name tags) = b.stepNames.map some :=
    h.stepNames (stepNames_place_own hstep tags)
  refine ⟨b.node site name tags, h.scenario _ _ (scenario?_place hsite), ?_, ?_, ?_, ?_⟩
  · exact BlockPlan.kind_ofBlock site.file c.kind c.block
  · exact BlockPlan.heading_ofBlock site.file site.file c.kind c.block name
  · obtain ⟨rest, hrest⟩ := c.block.map_line_checkedSteps site.file
    have hsteps := congrArg (List.map fun line : Nat => some ("step_" ++ toString line)) hrest
    rw [hown, BlockPlan.stepNames, BlockPlan.steps_ofBlock]
    refine ⟨rest.map fun line => some ("step_" ++ toString line), ?_⟩
    simpa only [List.map_append, List.map_map, Function.comp_def] using hsteps
  · intro i hi
    obtain ⟨number, hnumber, rfl⟩ := Site.mem_run_instanceId.1 hi
    refine ⟨_, h.scenario _ _ (scenario?_place_instance hsite hnumber), rfl, rfl, ?_⟩
    rw [hown]
    exact h.stepNames (stepNames_place_instance hstep hnumber)

end

/-- A document that adds a feature has a plan without a failure. -/
theorem exists_plan_of_outcome {a : Atlas} {d : Document} {filter : TagFilter} {id : FeatureId}
    (h : (a.addDocument d filter).outcome = .ok (some id)) :
    ∃ plan, d.plan filter = .feature plan none := by
  rw [addDocument_eq_carryOut] at h
  cases hplan : d.plan filter with
  | noFeature => simp [hplan, DocumentPlan.carryOut] at h
  | excluded title => simp [hplan, DocumentPlan.carryOut] at h
  | feature plan failure =>
    cases failure with
    | none => exact ⟨plan, rfl⟩
    | some e => simp [hplan, DocumentPlan.carryOut] at h

/-- The plans of the document and of what comes before the child differ in the child's block and in
what comes after it. -/
theorem BuildsChild.exists_plan {a : Atlas} {d : Document} {filter : TagFilter} {m : Nat}
    {c : Child} (h : a.BuildsChild d filter m c) :
    ∃ (f : FeatureBlock) (before after : List ChildPlan) (failure : Option RaggedError),
      (d.upTo m).plan filter = .feature (f.planWith before) none ∧
        d.plan filter = .feature (f.planWith
          (before ++ .kept (BlockPlan.ofBlock d.path c.kind c.block).1 :: after)) failure := by
  obtain ⟨⟨f, hfeature, hc⟩, hleft, id, houtcome⟩ := h
  obtain ⟨plan, hplan⟩ := exists_plan_of_outcome houtcome
  have hupTo : (d.upTo m).feature? = some { f with children := f.children.take m } := by
    simp [Document.upTo, Document.mapChildren, hfeature]
  have hkept : filter.excludes (tagTexts f.tags) = false := by
    by_contra hexcluded
    rw [Bool.not_eq_false] at hexcluded
    simp [Document.plan, hupTo, hexcluded] at hplan
  let work := ChildPlan.ofChild d.path filter
  have hbefore : (d.upTo m).plan filter =
      .feature (f.planWith (Progress.collect work (f.children.take m)).done)
        (Progress.collect work (f.children.take m)).failure :=
    Document.plan_of_kept hupTo hkept
  have hnone : (Progress.collect work (f.children.take m)).failure = none :=
    (DocumentPlan.feature.inj (hbefore.symm.trans hplan)).2
  obtain ⟨after, hdone⟩ := ChildPlan.exists_done_collect hc hleft hnone
  refine ⟨f, _, after, (Progress.collect work f.children).failure, hnone ▸ hbefore, ?_⟩
  rw [← hdone]
  exact Document.plan_of_kept hfeature hkept

/-- Adding a document gets to a child with a growth, and goes on from what the block adds. -/
theorem BuildsChild.exists_growth {a : Atlas} {d : Document} {filter : TagFilter} {m : Nat}
    {c : Child} (h : a.BuildsChild d filter m c) :
    ∃ (g : Growth) (n : Feature) (after : List ChildPlan),
      (a.addDocument (d.upTo m) filter).atlas = g.close n ∧
        (a.addDocument d filter).atlas =
          ((g.addBlock d.path (BlockPlan.ofBlock d.path c.kind c.block).1).addAll d.path
            after).close n := by
  obtain ⟨f, before, after, failure, hbefore, hplan⟩ := h.exists_plan
  let start := (f.planWith []).start a d.path
  refine ⟨start.1.addAll d.path before, ⟨(f.planWith []).heading d.path, start.2, [], none⟩, after,
    ?_, ?_⟩
  · rw [addDocument_eq_carryOut, hbefore]
    rfl
  · have hadded : (a.addDocument d filter).atlas = a.addFeature d.path (f.planWith
        (before ++ .kept (BlockPlan.ofBlock d.path c.kind c.block).1 :: after)) := by
      rw [addDocument_eq_carryOut, hplan]
      cases failure <;> rfl
    have hall := start.1.addAll_append d.path before
      (.kept (BlockPlan.ofBlock d.path c.kind c.block).1 :: after)
    rw [hadded]
    exact congrArg (Growth.close · _) hall

/-- Whatever a run does afterwards, a child that was built has its node. -/
theorem BuildsChild.exists_isBuiltFrom {a a' : Atlas} {d : Document} {filter : TagFilter} {m : Nat}
    {c : Child} (h : a.BuildsChild d filter m c)
    (hlater : (a.addDocument d filter).atlas.LeadsTo a') :
    ∃ n, a'.IsBuiltFrom d.path c (a.childId d filter m) n := by
  obtain ⟨g, f, after, hbefore, hadded⟩ := h.exists_growth
  let b := (BlockPlan.ofBlock d.path c.kind c.block).1
  have hid : a.childId d filter m = (g.nextSite d.path).scenario := by
    rw [childId, hbefore]
    rfl
  have hgrows : (g.addBlock d.path b).atlas.GrowsIn d.path (a.addDocument d filter).atlas := by
    rw [hadded]
    exact ((g.addBlock d.path b).growsIn_addAll d.path after).trans (growsIn_close _ _)
  have hkeeps : (g.atlas.place (g.nextSite d.path) (g.nextName b.kind) b).KeepsNames a' :=
    (KeepsNames.of_growsIn hgrows).trans hlater.keepsNames
  rw [hid]
  exact isBuiltFrom_place rfl rfl c hkeeps

/-- Names tell siblings apart in every atlas that a run reaches. A feature lists its children under
`scenario_0`, `scenario_1` and so on, an outline its instances under `example_0`, `example_1` and so
on with titles that end in a number, and no two of these are equal. If the steps of a child are on
lines of their own, then so far as they were built they have names of their own, in its node and in
each instance, whatever the run does after adding it. -/
theorem Reachable.names_distinct {a : Atlas} (h : a.Reachable) :
    a.HasNumberedNames ∧ a.HasDistinctNames ∧
      ∀ d filter m c, a.BuildsChild d filter m c →
        (c.block.steps.map (·.position.line)).Nodup →
          ∀ a', (a.addDocument d filter).atlas.LeadsTo a' →
            ∃ n, a'.IsBuiltFrom d.path c (a.childId d filter m) n ∧ (a'.stepNames n).Nodup ∧
              ∀ i ∈ n.instances, ∃ k, a'.scenario? i = some k ∧ (a'.stepNames k).Nodup := by
  refine ⟨h.hasNumberedNames, h.hasNumberedNames.hasDistinctNames, ?_⟩
  intro d filter m c hbuilds hlines a' hlater
  obtain ⟨n, hbuilt⟩ := hbuilds.exists_isBuiltFrom hlater
  have hnames : (c.block.steps.map fun s =>
      some ("step_" ++ toString s.position.line)).Nodup := by
    have hinjective : Function.Injective fun line : Nat => some ("step_" ++ toString line) :=
      (Option.some_injective String).comp (numbered_injective "step_")
    simpa only [List.map_map, Function.comp_def] using hlines.map hinjective
  have hnodup : (a'.stepNames n).Nodup := hnames.sublist hbuilt.steps.sublist
  refine ⟨n, hbuilt, hnodup, fun i hi => ?_⟩
  obtain ⟨k, hk, -, -, hsame⟩ := hbuilt.instances i hi
  exact ⟨k, hk, hsame ▸ hnodup⟩

/-- A dinner that fails, one with an outline behind a child that is left out, and the first again.
The outline is the first child, and the two steps of its node and of its instances keep their
names. -/
theorem Reachable.names_distinct_dinner :
    let wip := TagFilter.ofTags ["wip"]
    let spilt : Document := ⟨⟨"late.feature"⟩, some (.dinner .spiltBackground)⟩
    let meals : Document := ⟨⟨"dinner.feature"⟩, some (.dinner (.outline .eating))⟩
    let first := (Atlas.empty.addDocument spilt wip).atlas
    let second := (first.addDocument meals wip).atlas
    let third := (second.addDocument spilt wip).atlas
    first.Reachable ∧ first.BuildsChild meals wip 2 (.outline .eating) ∧ second.LeadsTo third ∧
      first.HasDistinctNames ∧
      ∃ n, third.IsBuiltFrom ⟨"dinner.feature"⟩ (.outline .eating) ⟨3⟩ n ∧
        (third.stepNames n).Nodup ∧ n.heading.name = "scenario_0" ∧ n.steps.length = 2 ∧
        n.instances = [⟨4⟩, ⟨5⟩, ⟨6⟩] := by
  intro wip spilt meals first second third
  have hfirst : first.Reachable := Reachable.empty.addDocument spilt wip
  have hbuilds : first.BuildsChild meals wip 2 (.outline .eating) :=
    ⟨⟨_, rfl, rfl⟩, by decide, ⟨1⟩, by decide⟩
  have hthird : second.LeadsTo third := LeadsTo.refl.addDocument spilt wip
  obtain ⟨-, hdistinct, hsteps⟩ := hfirst.names_distinct
  obtain ⟨n, hbuilt, hnodup, -⟩ :=
    hsteps meals wip 2 (.outline .eating) hbuilds (by decide) third hthird
  have hid : first.childId meals wip 2 = ⟨3⟩ := by decide
  rw [hid] at hbuilt
  have hnode : (third.scenario? ⟨3⟩).map (fun n => (n.heading.name, n.steps.length, n.instances)) =
      some ("scenario_0", 2, [⟨4⟩, ⟨5⟩, ⟨6⟩]) := by decide
  rw [hbuilt.node, Option.map_some, Option.some.injEq] at hnode
  obtain ⟨hname, hlength, hinstances⟩ := by simpa only [Prod.mk.injEq] using hnode
  exact ⟨hfirst, hbuilds, hthird, hdistinct, n, hbuilt, hnodup, hname, hlength, hinstances⟩

end Atlas

end FeatureAtlas
