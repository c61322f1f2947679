import FeatureAtlas.Proofs.Contents
import FeatureAtlas.Proofs.Runs
import FeatureAtlas.Proofs.TagNames
import Mathlib.Data.List.Nodup
import Mathlib.Logic.Function.Basic

/-!
# Tag links are symmetric

A tag lists the nodes that carry it, and a node lists its tags. The two lists are kept in different
places; `TagIndex.IsLinked` says that they agree, and that the occurrences of a tag are the places
of its owners. The index sees only a part of a node, its `Carrier`: all steps of a run are described
by what they do to the index and to the carriers.
-/

namespace FeatureAtlas

/-- What the tag index has to do with a node: its file, its line and its tags. -/
structure Carrier where
  file : Path
  line : Nat
  tags : List TagId

/-- The place of a node that carries tags. -/
def Carrier.occurrence (c : Carrier) : Occurrence := ⟨c.file, c.line⟩

/-- The node that can carry tags, if it exists. -/
def Atlas.carrier? (a : Atlas) : TagOwner → Option Carrier
  | .feature id => (a.feature? id).map fun n => ⟨n.heading.file, n.heading.line, n.tags⟩
  | .scenario id => (a.scenario? id).map fun n => ⟨n.heading.file, n.heading.line, n.tags⟩

/-- A tag agrees with the nodes on which of them carry it, and where. -/
structure Tag.IsLinked (t : Tag) (id : TagId) (carrier? : TagOwner → Option Carrier) : Prop where
  owner_iff : ∀ n, n ∈ t.owners ↔ ∃ c, carrier? n = some c ∧ id ∈ c.tags
  nodup : t.owners.Nodup
  owner_of_occurrence : ∀ o ∈ t.occurrences,
    ∃ n ∈ t.owners, ∃ c, carrier? n = some c ∧ c.occurrence = o
  occurrence_of_owner : ∀ n ∈ t.owners,
    ∃ c, carrier? n = some c ∧ c.occurrence ∈ t.occurrences

/-- All tags of an index agree with the nodes, and the nodes have no others. -/
structure TagIndex.IsLinked (ts : TagIndex) (carrier? : TagOwner → Option Carrier) : Prop where
  tag : ∀ id t, ts.get? id = some t → t.IsLinked id carrier?
  used : ∀ id t, ts.get? id = some t → t.owners ≠ [] ∧ t.occurrences ≠ []
  known : ∀ n c, carrier? n = some c → ∀ id ∈ c.tags, ∃ t, ts.get? id = some t
  nodup : ∀ n c, carrier? n = some c → c.tags.Nodup

/-! ## Tags on a node -/

theorem mem_withTag {tags : List TagId} {tag other : TagId} :
    other ∈ withTag tags tag ↔ other ∈ tags ∨ other = tag := by
  by_cases h : tag ∈ tags
  · rw [withTag, if_pos h]
    constructor
    · exact Or.inl
    · rintro (hother | rfl)
      · exact hother
      · exact h
  · simp [withTag, h]

theorem nodup_withTag {tags : List TagId} (h : tags.Nodup) (tag : TagId) :
    (withTag tags tag).Nodup := by
  by_cases htag : tag ∈ tags
  · rwa [withTag, if_pos htag]
  · rw [withTag, if_neg htag]
    refine h.append (List.nodup_singleton tag) ?_
    intro other hother hsingle
    exact htag (List.mem_singleton.1 hsingle ▸ hother)

/-! ## One tag -/

namespace Tag.IsLinked

variable {t : Tag} {id : TagId} {carrier? : TagOwner → Option Carrier}

/-- More nodes without tags do not matter. -/
theorem extend (h : t.IsLinked id carrier?) {wider? : TagOwner → Option Carrier}
    (hold : ∀ n c, carrier? n = some c → wider? n = some c)
    (hnew : ∀ n c, wider? n = some c → carrier? n = some c ∨ c.tags = []) :
    t.IsLinked id wider? := by
  constructor
  case owner_iff =>
    intro n
    rw [h.owner_iff]
    constructor
    · rintro ⟨c, hc, hid⟩
      exact ⟨c, hold n c hc, hid⟩
    · rintro ⟨c, hc, hid⟩
      rcases hnew n c hc with hc' | hnone
      · exact ⟨c, hc', hid⟩
      · rw [hnone] at hid
        cases hid
  case nodup => exact h.nodup
  case owner_of_occurrence =>
    intro o ho
    obtain ⟨n, hn, c, hc, hco⟩ := h.owner_of_occurrence o ho
    exact ⟨n, hn, c, hold n c hc, hco⟩
  case occurrence_of_owner =>
    intro n hn
    obtain ⟨c, hc, hco⟩ := h.occurrence_of_owner n hn
    exact ⟨c, hold n c hc, hco⟩

variable {owner : TagOwner} {c : Carrier}

/-- The places of the nodes stay the same when a node gets other tags. -/
theorem occurrence_update (hc : carrier? owner = some c) (tags : List TagId) {n : TagOwner}
    {d : Carrier} (hd : carrier? n = some d) :
    ∃ d', Function.update carrier? owner (some { c with tags := tags }) n = some d' ∧
      d'.occurrence = d.occurrence := by
  by_cases hn : n = owner
  · subst hn
    rw [hc, Option.some.injEq] at hd
    subst hd
    exact ⟨_, Function.update_self .., rfl⟩
  · exact ⟨d, (Function.update_of_ne hn ..).trans hd, rfl⟩

/-- A tag that a node gets does not concern the others. -/
theorem update_of_ne (h : t.IsLinked id carrier?) (hc : carrier? owner = some c) {tag : TagId}
    (hne : id ≠ tag) :
    t.IsLinked id
      (Function.update carrier? owner (some { c with tags := withTag c.tags tag })) := by
  constructor
  case owner_iff =>
    intro n
    rw [h.owner_iff]
    by_cases hn : n = owner
    · subst hn
      simp [hc, mem_withTag, hne]
    · rw [Function.update_of_ne hn]
  case nodup => exact h.nodup
  case owner_of_occurrence =>
    intro o ho
    obtain ⟨n, hn, d, hd, rfl⟩ := h.owner_of_occurrence o ho
    exact ⟨n, hn, occurrence_update hc _ hd⟩
  case occurrence_of_owner =>
    intro n hn
    obtain ⟨d, hd, ho⟩ := h.occurrence_of_owner n hn
    obtain ⟨d', hd', hdd'⟩ := occurrence_update hc (withTag c.tags tag) hd
    exact ⟨d', hd', hdd' ▸ ho⟩

/-- A node gets a tag, and the tag notes the node with its place. -/
theorem record (h : t.IsLinked id carrier?) (hc : carrier? owner = some c) :
    (t.record owner c.occurrence).IsLinked id
      (Function.update carrier? owner (some { c with tags := withTag c.tags id })) := by
  constructor
  case owner_iff =>
    intro n
    rw [mem_owners_record, h.owner_iff]
    by_cases hn : n = owner
    · subst hn
      simp [mem_withTag]
    · rw [Function.update_of_ne hn, or_iff_left hn]
  case nodup => exact nodup_owners_record h.nodup owner c.occurrence
  case owner_of_occurrence =>
    intro o ho
    rw [occurrences_record, List.mem_append, List.mem_singleton] at ho
    rcases ho with ho | rfl
    · obtain ⟨n, hn, d, hd, rfl⟩ := h.owner_of_occurrence o ho
      exact ⟨n, mem_owners_record.2 (Or.inl hn), occurrence_update hc _ hd⟩
    · exact ⟨owner, mem_owners_record.2 (Or.inr rfl), occurrence_update hc _ hc⟩
  case occurrence_of_owner =>
    intro n hn
    rcases mem_owners_record.1 hn with hn | rfl
    · obtain ⟨d, hd, ho⟩ := h.occurrence_of_owner n hn
      obtain ⟨d', hd', hdd'⟩ := occurrence_update hc (withTag c.tags id) hd
      exact ⟨d', hd', hdd' ▸ List.mem_append_left _ ho⟩
    · obtain ⟨d', hd', hdd'⟩ := occurrence_update hc (withTag c.tags id) hc
      exact ⟨d', hd', hdd' ▸ List.mem_append_right _ (List.mem_singleton_self _)⟩

end Tag.IsLinked

/-! ## The index -/

namespace TagIndex

namespace IsLinked

variable {ts : TagIndex} {carrier? : TagOwner → Option Carrier}

/-- More nodes without tags do not matter. -/
theorem extend (h : ts.IsLinked carrier?) {wider? : TagOwner → Option Carrier}
    (hold : ∀ n c, carrier? n = some c → wider? n = some c)
    (hnew : ∀ n c, wider? n = some c → carrier? n = some c ∨ c.tags = []) :
    ts.IsLinked wider? := by
  constructor
  case tag => exact fun id t ht => (h.tag id t ht).extend hold hnew
  case used => exact h.used
  case known =>
    intro n c hc id hid
    rcases hnew n c hc with hc' | hnone
    · exact h.known n c hc' id hid
    · rw [hnone] at hid
      cases hid
  case nodup =>
    intro n c hc
    rcases hnew n c hc with hc' | hnone
    · exact h.nodup n c hc'
    · rw [hnone]
      exact List.nodup_nil

/-- A tag that the index does not have agrees with the nodes while it has no owners. -/
theorem isLinked_of_get?_eq_none (h : ts.IsLinked carrier?) {id : TagId}
    (hid : ts.get? id = none) {t : Tag} (howners : t.owners = [])
    (hoccurrences : t.occurrences = []) : t.IsLinked id carrier? := by
  constructor
  case owner_iff =>
    intro n
    rw [howners]
    constructor
    · intro hn
      cases hn
    · rintro ⟨c, hc, hmem⟩
      obtain ⟨t', ht'⟩ := h.known n c hc id hmem
      rw [hid] at ht'
      cases ht'
  case nodup => simp [howners]
  case owner_of_occurrence => simp [hoccurrences]
  case occurrence_of_owner => simp [howners]

/-- Recording a tag of a node in the index and putting it on the node keeps both sides in step. -/
theorem record (h : ts.IsLinked carrier?) {owner : TagOwner} {c : Carrier}
    (hc : carrier? owner = some c) (raw : String) :
    let recorded := ts.record raw owner c.occurrence
    recorded.1.IsLinked
      (Function.update carrier? owner (some { c with tags := withTag c.tags recorded.2 })) := by
  intro recorded
  obtain ⟨before, -, hbefore, hget⟩ := ts.exists_record raw owner c.occurrence
  have hlinked : before.IsLinked recorded.2 carrier? := by
    rcases hbefore with hsome | ⟨hnone, -, rfl⟩
    · exact h.tag _ before hsome
    · exact h.isLinked_of_get?_eq_none hnone rfl rfl
  constructor
  case tag =>
    intro id t ht
    rw [hget] at ht
    by_cases hid : id = recorded.2
    · rw [if_pos hid, Option.some.injEq] at ht
      subst ht hid
      exact hlinked.record hc
    · rw [if_neg hid] at ht
      exact (h.tag id t ht).update_of_ne hc hid
  case used =>
    intro id t ht
    rw [hget] at ht
    by_cases hid : id = recorded.2
    · rw [if_pos hid, Option.some.injEq] at ht
      subst ht
      exact ⟨List.ne_nil_of_mem (Tag.mem_owners_record.2 (Or.inr rfl)), by simp⟩
    · rw [if_neg hid] at ht
      exact h.used id t ht
  case known =>
    intro n d hd id hmem
    rw [hget]
    by_cases hid : id = recorded.2
    · exact ⟨_, if_pos hid⟩
    · rw [if_neg hid]
      by_cases hn : n = owner
      · subst hn
        rw [Function.update_self, Option.some.injEq] at hd
        subst hd
        exact h.known n c hc id ((mem_withTag.1 hmem).resolve_right hid)
      · rw [Function.update_of_ne hn] at hd
        exact h.known n d hd id hmem
  case nodup =>
    intro n d hd
    by_cases hn : n = owner
    · subst hn
      rw [Function.update_self, Option.some.injEq] at hd
      subst hd
      exact nodup_withTag (h.nodup n c hc) _
    · rw [Function.update_of_ne hn] at hd
      exact h.nodup n d hd

/-- Recording the tags of a node one after the other. -/
theorem recordAll (h : ts.IsLinked carrier?) {owner : TagOwner} {c : Carrier}
    (hc : carrier? owner = some c) (raws : List String) :
    let recorded := ts.recordAll owner c.occurrence raws
    recorded.1.IsLinked
      (Function.update carrier? owner
        (some { c with tags := recorded.2.foldl withTag c.tags })) := by
  induction raws generalizing ts carrier? c with
  | nil =>
    have hsame : Function.update carrier? owner (some c) = carrier? := by
      rw [← hc, Function.update_eq_self]
    change ts.IsLinked (Function.update carrier? owner (some c))
    rw [hsame]
    exact h
  | cons raw raws ih =>
    have hrest := ih (h.record hc raw) (Function.update_self ..)
    dsimp only at hrest
    rw [Function.update_idem] at hrest
    exact hrest

/-- A new node with its tags. -/
theorem tagged (h : ts.IsLinked carrier?) {owner : TagOwner} (hnew : carrier? owner = none)
    (file : Path) (line : Nat) (raws : List String) :
    let recorded := ts.recordAll owner ⟨file, line⟩ raws
    recorded.1.IsLinked
      (Function.update carrier? owner (some ⟨file, line, recorded.2.eraseDups⟩)) := by
  intro recorded
  let bare : Carrier := ⟨file, line, []⟩
  have hbare : ts.IsLinked (Function.update carrier? owner (some bare)) := by
    refine h.extend ?_ ?_
    · intro n c hc
      have hn : n ≠ owner := by
        rintro rfl
        rw [hnew] at hc
        cases hc
      rw [Function.update_of_ne hn, hc]
    · intro n c hc
      by_cases hn : n = owner
      · subst hn
        rw [Function.update_self, Option.some.injEq] at hc
        exact Or.inr (hc ▸ rfl)
      · rw [Function.update_of_ne hn] at hc
        exact Or.inl hc
  have htagged := hbare.recordAll (c := bare) (Function.update_self ..) raws
  dsimp only at htagged
  rw [Function.update_idem, foldl_withTag] at htagged
  exact htagged

end IsLinked

end TagIndex

/-! ## A run -/

namespace Atlas

theorem isLinked_empty : Atlas.empty.tags.IsLinked Atlas.empty.carrier? := by
  have htags (id : TagId) : Atlas.empty.tags.get? id = none := rfl
  have hcarrier (n : TagOwner) : Atlas.empty.carrier? n = none := by
    cases n <;> rfl
  constructor <;> simp [htags, hcarrier]

theorem carrier?_opened (a : Atlas) (document : Path) (f : FeaturePlan) :
    (a.opened document f).carrier? =
      Function.update a.carrier? (.feature a.features.nextId)
        (some ⟨document, f.line, (f.start a document).2⟩) := by
  funext n
  cases n with
  | feature id =>
    by_cases hid : id = a.features.nextId
    · subst hid
      simp [carrier?, feature?, opened, Growth.close, FeaturePlan.start, FeaturePlan.heading]
    · simp [carrier?, feature?, opened, Growth.close, FeaturePlan.start, Arena.get?_push, hid]
  | scenario id => simp [carrier?, scenario?, opened, Growth.close, FeaturePlan.start]

/-- Opening a feature keeps tags linked. -/
theorem isLinked_opened {a : Atlas} (h : a.tags.IsLinked a.carrier?) (document : Path)
    (f : FeaturePlan) : (a.opened document f).tags.IsLinked (a.opened document f).carrier? := by
  have hnew : a.carrier? (.feature a.features.nextId) = none := by
    have hnone : a.features.get? a.features.nextId = none :=
      (Arena.get?_eq_none_iff _ _).2 (Nat.le_refl _)
    simp [carrier?, feature?, hnone]
  rw [carrier?_opened]
  exact h.tagged hnew document f.line f.tags

theorem carrier?_addBlock_feature (g : Growth) (f : Feature) (document : Path) (b : BlockPlan)
    (id : FeatureId) : ((g.addBlock document b).close f).carrier? (.feature id) =
      (g.close f).carrier? (.feature id) := by
  by_cases hid : id = g.atlas.features.nextId <;>
    simp [carrier?, feature?, Growth.close, Growth.addBlock, place, Arena.get?_push, hid]

/-- The carriers once the own node of a block was added and tagged, but none of its instances. -/
def carrierWith? (g : Growth) (f : Feature) (document : Path) (b : BlockPlan) :
    TagOwner → Option Carrier :=
  let recorded := g.atlas.recordBlock (g.nextSite document) b
  Function.update (g.close f).carrier? (.scenario g.atlas.scenarios.nextId)
    (some ⟨document, b.line, recorded.2.eraseDups⟩)

section

variable {g : Growth} {f : Feature} {document : Path} {b : BlockPlan}

theorem carrier?_close_scenario (g : Growth) (f : Feature) (id : ScenarioId) :
    (g.close f).carrier? (.scenario id) =
      (g.atlas.scenario? id).map fun n => ⟨n.heading.file, n.heading.line, n.tags⟩ := rfl

/-- The block's own node and all earlier nodes are there once the whole block is. -/
theorem carrier?_addBlock_of_some {n : TagOwner} {c : Carrier}
    (hc : carrierWith? g f document b n = some c) :
    ((g.addBlock document b).close f).carrier? n = some c := by
  cases n with
  | feature id =>
    rw [carrier?_addBlock_feature]
    exact hc
  | scenario id =>
    rw [carrier?_close_scenario]
    by_cases hid : id = g.atlas.scenarios.nextId
    · subst hid
      rw [carrierWith?, Function.update_self, Option.some.injEq] at hc
      have hnode : (g.addBlock document b).atlas.scenario? g.atlas.scenarios.nextId = some _ :=
        scenario?_place rfl
      rw [hnode, ← hc]
      rfl
    · have hne : TagOwner.scenario id ≠ .scenario g.atlas.scenarios.nextId := by
        simpa using hid
      rw [carrierWith?, Function.update_of_ne hne, carrier?_close_scenario,
        Option.map_eq_some_iff] at hc
      obtain ⟨n, hn, rfl⟩ := hc
      have hkept : (g.addBlock document b).atlas.scenario? id = some n :=
        scenario?_place_of_some hn
      rw [hkept]
      rfl

/-- All else that a block adds are instances, which have no tags. -/
theorem cases_carrier?_addBlock {n : TagOwner} {c : Carrier}
    (hc : ((g.addBlock document b).close f).carrier? n = some c) :
    carrierWith? g f document b n = some c ∨ c.tags = [] := by
  cases n with
  | feature id =>
    rw [carrier?_addBlock_feature] at hc
    exact Or.inl hc
  | scenario id =>
    rw [carrier?_close_scenario, Option.map_eq_some_iff] at hc
    obtain ⟨n, hn, rfl⟩ := hc
    have hplaced : (g.atlas.place (g.nextSite document) (g.nextName b.kind) b).scenario? id =
        some n := hn
    rcases cases_scenario?_place rfl hplaced with hold | ⟨rfl, rfl⟩ | ⟨number, -, rfl, rfl⟩
    · left
      have hne : TagOwner.scenario id ≠ .scenario g.atlas.scenarios.nextId := by
        intro heq
        rw [TagOwner.scenario.injEq] at heq
        rw [heq, scenario?_nextId] at hold
        cases hold
      rw [carrierWith?, Function.update_of_ne hne, carrier?_close_scenario, hold]
      rfl
    · left
      exact Function.update_self ..
    · exact Or.inr rfl

/-- Adding a block keeps tags linked. -/
theorem isLinked_addBlock (h : (g.close f).tags.IsLinked (g.close f).carrier?) (document : Path)
    (b : BlockPlan) :
    let a := (g.addBlock document b).close f
    a.tags.IsLinked a.carrier? := by
  have hnew : (g.close f).carrier? (.scenario g.atlas.scenarios.nextId) = none := by
    rw [carrier?_close_scenario, scenario?_nextId]
    rfl
  -- The own node is tagged while it is the last one; the instances come after it.
  have howned : (g.atlas.recordBlock (g.nextSite document) b).1.IsLinked
      (carrierWith? g f document b) := h.tagged hnew document b.line b.tags
  exact howned.extend (fun _ _ => carrier?_addBlock_of_some) fun _ _ => cases_carrier?_addBlock

end

/-- In every atlas that a run reaches, tags and nodes agree on who carries which tag. -/
theorem Reachable.isLinked {a : Atlas} (h : a.Reachable) : a.tags.IsLinked a.carrier? := by
  refine h.invariant (P := fun a => a.tags.IsLinked a.carrier?) ?_ ?_ isLinked_empty ?_
  · exact fun a document f ha => isLinked_opened ha document f
  · exact fun g f document b hg => isLinked_addBlock hg document b
  · exact fun a id change _ ha => ha

/-- Tags list exactly the nodes that list them, each once, and their occurrences are exactly the
places of these nodes. -/
structure HasSymmetricTags (a : Atlas) : Prop where
  owner_iff : ∀ id n,
    (∃ t, a.tag? id = some t ∧ n ∈ t.owners) ↔ ∃ c, a.carrier? n = some c ∧ id ∈ c.tags
  nodup_owners : ∀ id t, a.tag? id = some t → t.owners.Nodup
  nodup_tags : ∀ n c, a.carrier? n = some c → c.tags.Nodup
  owned : ∀ id t, a.tag? id = some t → t.owners ≠ []
  seen : ∀ id t, a.tag? id = some t → t.occurrences ≠ []
  owner_of_occurrence : ∀ id t, a.tag? id = some t → ∀ o ∈ t.occurrences,
    ∃ n ∈ t.owners, ∃ c, a.carrier? n = some c ∧ o = ⟨c.file, c.line⟩
  occurrence_of_owner : ∀ id t, a.tag? id = some t → ∀ n ∈ t.owners,
    ∃ c, a.carrier? n = some c ∧ ⟨c.file, c.line⟩ ∈ t.occurrences

/-- Whatever documents a run adds under whatever filters, whether they fail or not, and whichever
steps it edits, tags and nodes stay symmetric. -/
theorem Reachable.hasSymmetricTags {a : Atlas} (h : a.Reachable) : a.HasSymmetricTags := by
  have hlinked := h.isLinked
  constructor
  case owner_iff =>
    intro id n
    constructor
    · rintro ⟨t, ht, hn⟩
      exact ((hlinked.tag id t ht).owner_iff n).1 hn
    · rintro ⟨c, hc, hid⟩
      obtain ⟨t, ht⟩ := hlinked.known n c hc id hid
      exact ⟨t, ht, ((hlinked.tag id t ht).owner_iff n).2 ⟨c, hc, hid⟩⟩
  case nodup_owners => exact fun id t ht => (hlinked.tag id t ht).nodup
  case nodup_tags => exact hlinked.nodup
  case owned => exact fun id t ht => (hlinked.used id t ht).1
  case seen => exact fun id t ht => (hlinked.used id t ht).2
  case owner_of_occurrence =>
    intro id t ht o ho
    obtain ⟨n, hn, c, hc, rfl⟩ := (hlinked.tag id t ht).owner_of_occurrence o ho
    exact ⟨n, hn, c, hc, rfl⟩
  case occurrence_of_owner => exact fun id t ht => (hlinked.tag id t ht).occurrence_of_owner

/-- A feature that is tagged twice in the same way, like its background, which has a table. -/
def retagged (rows : List Row) : FeatureBlock where
  keyword := "Feature"
  title := "Meals"
  description := ""
  comments := []
  position := ⟨2, 1⟩
  tags := [⟨"@slow", ⟨1, 1⟩⟩, ⟨"slow", ⟨1, 7⟩⟩]
  children :=
    [.background ⟨"Background", "", "", [], ⟨4, 3⟩, [⟨"@slow", ⟨3, 3⟩⟩],
      [⟨"Given", "a table", [], ⟨5, 5⟩, some (.table rows ⟨6, 7⟩)⟩], []⟩]

/-- A run of two documents with one tag, of which the second fails at a ragged table, and an edit:
the tag has all four nodes, one of them without a place in its feature. -/
theorem hasSymmetricTags_retagged :
    let sound : Document := ⟨⟨"meals.feature"⟩, some (retagged [⟨⟨6, 7⟩, ["cukes"]⟩])⟩
    let ragged : Document :=
      ⟨⟨"more.feature"⟩, some (retagged [⟨⟨6, 7⟩, ["cukes"]⟩, ⟨⟨7, 7⟩, []⟩])⟩
    let first := Atlas.empty.addDocument sound .keepAll
    let second := first.atlas.addDocument ragged .keepAll
    let a := second.atlas.editStep ⟨0⟩ (.setCell 0 0 "beans")
    a.Reachable ∧ (a.tag? ⟨0⟩).map (·.owners.length) = some 4 ∧ a.HasSymmetricTags := by
  intro sound ragged first second a
  have hfirst : first.atlas.Reachable := Reachable.empty.addDocument sound .keepAll
  have hsecond : second.atlas.Reachable := hfirst.addDocument ragged .keepAll
  have ha : a.Reachable := hsecond.editStep ⟨0⟩ (.setCell 0 0 "beans")
  exact ⟨ha, by decide, ha.hasSymmetricTags⟩

end Atlas

end FeatureAtlas
