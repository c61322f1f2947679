import FeatureAtlas.Proofs.Placement
import FeatureAtlas.Proofs.Sound
import Mathlib.Data.List.Nodup

/-!
# What a placed block holds

Following the ids of a placed block leads to the nodes of its plan: from the block's node to its
steps, from there to its instances, and from these to theirs. What the atlas held before is found
as before.
-/

namespace FeatureAtlas

theorem NodeId.nodup_run {kind : NodeKind} (id : NodeId kind) (n : Nat) : (id.run n).Nodup := by
  refine List.Nodup.map (fun i j h => ?_) List.nodup_range
  have hindex : id.index + i = id.index + j := congrArg NodeId.index h
  omega

theorem eq_take_append_cons_drop {α : Type} {as : List α} {n : Nat} {a : α} (h : as[n]? = some a) :
    as = as.take n ++ a :: as.drop (n + 1) := by
  obtain ⟨hn, rfl⟩ := List.getElem?_eq_some_iff.1 h
  rw [← List.drop_eq_getElem_cons hn, List.take_append_drop]

/-! ## The steps of a sound block -/

/-- The node that a step of a document becomes. -/
def StepLine.node (document : Path) (owner : ScenarioId) (s : StepLine) : Step where
  name := "step_" ++ toString s.position.line
  keyword := s.keyword
  text := s.text
  comments := "\n".intercalate s.comments
  file := document
  line := s.position.line
  docString := s.docString?
  table := s.table?
  scenario := owner

theorem Block.ownSteps_plan (kind : ScenarioKind) (b : Block) (site : Site) :
    (b.plan kind).ownSteps site = b.steps.map (·.node site.file site.scenario) := by
  simp only [BlockPlan.ownSteps, plan, List.map_map]
  rfl

namespace BlockPlan

/-- The steps of a block, cut at one of its instances. -/
theorem stepNodes_eq_append (b : BlockPlan) (site : Site) {number : Nat} {cells : Binding}
    (hcells : b.bindings[number]? = some cells) :
    ∃ before after, b.stepNodes site = before ++ (b.instanceSteps site number cells ++ after) ∧
      before.length = (number + 1) * b.steps.length := by
  have hlength : (b.bindings.take number).length = number :=
    List.length_take_of_le (Nat.le_of_lt (List.getElem?_eq_some_iff.1 hcells).1)
  refine ⟨b.ownSteps site ++ b.rowSteps site 0 (b.bindings.take number),
    b.rowSteps site (number + 1) (b.bindings.drop (number + 1)), ?_, ?_⟩
  · rw [stepNodes]
    conv_lhs => rw [eq_take_append_cons_drop hcells]
    rw [rowSteps_append, rowSteps_cons, hlength, Nat.zero_add, List.append_assoc]
  · rw [List.length_append, length_ownSteps, length_rowSteps, hlength, Nat.succ_mul, Nat.add_comm]

/-- The nodes of a block are its own and those of its instances. -/
theorem cases_nodes (b : BlockPlan) {site : Site} {name : String} {tags : List TagId} {k : Nat}
    {n : Scenario} (h : (b.nodes site name tags)[k]? = some n) :
    (k = 0 ∧ n = b.node site name tags) ∨
      ∃ number < b.bindings.length, k = number + 1 ∧ n = b.instanceNode site number := by
  cases k with
  | zero =>
    rw [nodes, List.getElem?_cons_zero, Option.some.injEq] at h
    exact Or.inl ⟨rfl, h.symm⟩
  | succ number =>
    rw [nodes, List.getElem?_cons_succ, List.getElem?_map, Option.map_eq_some_iff] at h
    obtain ⟨k, hk, rfl⟩ := h
    obtain ⟨hlength, hk⟩ := List.getElem?_eq_some_iff.1 hk
    rw [List.getElem_range] at hk
    subst hk
    exact Or.inr ⟨number, by simpa using hlength, rfl, rfl⟩

end BlockPlan

namespace Atlas

variable {a : Atlas} {site : Site} {name : String} {b : BlockPlan}

/-! ## What was there before -/

theorem scenario?_nextId (a : Atlas) : a.scenario? a.scenarios.nextId = none :=
  (Arena.get?_eq_none_iff _ _).2 (Nat.le_refl _)

theorem scenario?_place_of_some {id : ScenarioId} {n : Scenario} (h : a.scenario? id = some n) :
    (a.place site name b).scenario? id = some n :=
  Arena.get?_append_of_some h _

theorem step?_place_of_some {id : StepId} {s : Step} (h : a.step? id = some s) :
    (a.place site name b).step? id = some s :=
  Arena.get?_append_of_some h _

/-! ## Steps and instances -/

/-- The node of a block lists the block's steps. -/
theorem map_step?_place_own (hstep : site.step = a.steps.nextId) (tags : List TagId) :
    (b.node site name tags).steps.map (a.place site name b).step? =
      (b.ownSteps site).map some := by
  have h := a.steps.map_get?_run (b.ownSteps site) (b.rowSteps site 0 b.bindings)
  rw [← hstep, b.length_ownSteps] at h
  exact h

/-- The node of an instance, where its block was placed. -/
theorem scenario?_place_instance (hsite : site.scenario = a.scenarios.nextId) {number : Nat}
    (hnumber : number < b.bindings.length) :
    (a.place site name b).scenario? (site.instanceId number) =
      some (b.instanceNode site number) := by
  have hnode : (b.nodes site name (a.recordBlock site b).2)[number + 1]? =
      some (b.instanceNode site number) := by
    simp [BlockPlan.nodes, hnumber]
  rw [Site.instanceId, hsite]
  exact Arena.get?_append_shift hnode

/-- Every node of an atlas in which a block was placed was there before, or is the block's own, or
that of an instance. -/
theorem cases_scenario?_place (hsite : site.scenario = a.scenarios.nextId) {id : ScenarioId}
    {n : Scenario} (h : (a.place site name b).scenario? id = some n) :
    a.scenario? id = some n ∨
      (id = site.scenario ∧ n = b.node site name (a.recordBlock site b).2) ∨
      ∃ number < b.bindings.length,
        id = site.instanceId number ∧ n = b.instanceNode site number := by
  rcases Arena.cases_get?_append h with hold | ⟨k, hk, rfl⟩
  · exact Or.inl hold
  · rw [← hsite]
    rcases b.cases_nodes hk with ⟨rfl, rfl⟩ | ⟨number, hnumber, rfl, rfl⟩
    · exact Or.inr (Or.inl ⟨rfl, rfl⟩)
    · exact Or.inr (Or.inr ⟨number, hnumber, rfl, rfl⟩)

/-- The node of an instance lists copies of the block's steps. -/
theorem map_step?_place_instance (hstep : site.step = a.steps.nextId) {number : Nat}
    {cells : Binding} (hcells : b.bindings[number]? = some cells) :
    (b.instanceNode site number).steps.map (a.place site name b).step? =
      (b.instanceSteps site number cells).map some := by
  obtain ⟨before, after, hsplit, hlength⟩ := b.stepNodes_eq_append site hcells
  have h := (a.steps.append before).map_get?_run (b.instanceSteps site number cells) after
  rw [Arena.append_append, Arena.nextId_append, ← hsplit, hlength, ← hstep,
    b.length_instanceSteps] at h
  exact h

end Atlas

end FeatureAtlas
