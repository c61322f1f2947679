import FeatureAtlas.Proofs.Renumbering

/-!
# The order of documents

Two documents can be added in either order: the atlases differ by a renumbering, and by the order in
which tags list their owners and occurrences. The nodes of the first document come before those of
the second in one atlas, and after them in the other, so `NodeId.exchange` is the renumbering of
nodes. Tags are found again by their names, whichever document has mentioned these first.
-/

namespace FeatureAtlas

/-! ## Exchanged rows of ids -/

namespace NodeId

variable {kind : NodeKind}

/-- The first `m` ids are put after the `n` ids that follow on them. -/
def putLater (m n : Nat) (id : NodeId kind) : NodeId kind :=
  if id.index < m then id.shift n
  else if id.index < m + n then ⟨id.index - m⟩
  else id

variable {m n : Nat} {id : NodeId kind}

theorem putLater_of_lt (h : id.index < m) : putLater m n id = id.shift n :=
  if_pos h

theorem putLater_of_between (h : m ≤ id.index) (h' : id.index < m + n) :
    putLater m n id = ⟨id.index - m⟩ := by
  rw [putLater, if_neg (Nat.not_lt_of_le h), if_pos h']

theorem putLater_of_le (h : m + n ≤ id.index) : putLater m n id = id := by
  rw [putLater, if_neg (by omega), if_neg (by omega)]

theorem putLater_putLater (m n : Nat) (id : NodeId kind) :
    putLater n m (putLater m n id) = id := by
  refine NodeId.ext ?_
  by_cases hfirst : id.index < m
  · rw [putLater_of_lt hfirst, putLater_of_between] <;> simp only [index_shift] <;> omega
  · by_cases hlast : id.index < m + n
    · rw [putLater_of_between (by omega) hlast, putLater_of_lt] <;>
        simp only [index_shift] <;> omega
    · have hid : putLater m n id = id := putLater_of_le (by omega)
      rw [hid, putLater_of_le (by omega)]

/-- The first `m` ids and the `n` ids that follow on them change places. -/
def exchange (m n : Nat) : Equiv.Perm (NodeId kind) where
  toFun := putLater m n
  invFun := putLater n m
  left_inv := putLater_putLater m n
  right_inv := putLater_putLater n m

theorem carries_exchange_first (m n : Nat) :
    Carries (exchange m n) (⟨0⟩ : NodeId kind) ⟨n⟩ m := by
  intro k hk
  have hlt : ((⟨0⟩ : NodeId kind).shift k).index < m := by
    simpa using hk
  refine (putLater_of_lt hlt).trans (NodeId.ext ?_)
  simp [Nat.add_comm]

theorem carries_exchange_last (m n : Nat) :
    Carries (exchange m n) (⟨m⟩ : NodeId kind) ⟨0⟩ n := by
  intro k hk
  refine (putLater_of_between (Nat.le_add_right m k) (Nat.add_lt_add_left hk m)).trans ?_
  exact NodeId.ext (by simp)

/-- What comes first in one list and last in another is found at exchanged places. -/
theorem getElem?_exchange {α : Type} (xs ys : List α) (id : NodeId kind) :
    (ys ++ xs)[(exchange xs.length ys.length id).index]? = (xs ++ ys)[id.index]? := by
  by_cases hfirst : id.index < xs.length
  · have hid : exchange xs.length ys.length id = id.shift ys.length := putLater_of_lt hfirst
    rw [hid, List.getElem?_append_left hfirst, index_shift, Nat.add_comm,
      List.getElem?_append_right (Nat.le_add_right _ _), Nat.add_sub_cancel_left]
  · have hle : xs.length ≤ id.index := Nat.le_of_not_lt hfirst
    rw [List.getElem?_append_right hle]
    by_cases hlast : id.index < xs.length + ys.length
    · have hid : exchange xs.length ys.length id = ⟨id.index - xs.length⟩ :=
        putLater_of_between hle hlast
      rw [hid, List.getElem?_append_left (by dsimp only; omega)]
    · have hid : exchange xs.length ys.length id = id := putLater_of_le (by omega)
      rw [hid, List.getElem?_eq_none (by simp; omega), List.getElem?_eq_none (by omega)]

end NodeId

/-- Of two rows of nodes, one was added first in one arena, and the other in another. -/
theorem Arena.AddAlike.get?_exchange {kind : NodeKind} {α : Type} {f : α → α}
    {first second both swapped : Arena kind α} (h : AddAlike f .empty first second swapped)
    (h' : AddAlike f first both .empty second) (id : NodeId kind) :
    swapped.get? (NodeId.exchange first.size second.size id) = (both.get? id).map f := by
  obtain ⟨xs, rfl, rfl⟩ := h
  obtain ⟨ys, rfl, rfl⟩ := h'
  have hexchange := NodeId.getElem?_exchange (xs.map f) (ys.map f) id
  simp only [List.length_map, ← List.map_append] at hexchange
  simp only [append_append, get?_eq_toList, toList_append, toList_empty, List.nil_append,
    size_append, size_empty, Nat.zero_add, List.length_map, ← List.map_append]
  rw [hexchange, List.getElem?_map]

/-! ## Tags found by name -/

namespace TagIndex

/-- The place in other names of the name at a place; there are no tags elsewhere. -/
def placeIn (names names' : List String) (id : TagId) : TagId :=
  match names[id.index]? with
  | some name => ⟨names'.idxOf name⟩
  | none => id

section

variable {names names' : List String}

theorem placeIn_of_some {id : TagId} {name : String} (h : names[id.index]? = some name) :
    placeIn names names' id = ⟨names'.idxOf name⟩ := by
  rw [placeIn, h]

/-- The name stays the same. -/
theorem getElem?_placeIn (hperm : names.Perm names') (id : TagId) :
    names'[(placeIn names names' id).index]? = names[id.index]? := by
  cases hname : names[id.index]? with
  | some name =>
    have hmem : name ∈ names' := hperm.subset (List.mem_of_getElem? hname)
    rw [placeIn_of_some hname]
    exact List.getElem?_idxOf hmem
  | none =>
    rw [placeIn, hname]
    rw [List.getElem?_eq_none_iff] at hname ⊢
    exact hperm.length_eq ▸ hname

theorem placeIn_placeIn (hperm : names.Perm names') (hnodup : names.Nodup) (id : TagId) :
    placeIn names' names (placeIn names names' id) = id := by
  have hplace := getElem?_placeIn hperm id
  cases hname : names[id.index]? with
  | some name =>
    rw [hname] at hplace
    rw [placeIn_of_some hplace]
    obtain ⟨hlt, rfl⟩ := List.getElem?_eq_some_iff.1 hname
    exact NodeId.ext (hnodup.idxOf_getElem _ hlt)
  | none =>
    have hsame : placeIn names names' id = id := by rw [placeIn, hname]
    rw [hsame, hname] at hplace
    rw [hsame, placeIn, hplace]

/-- The ids of the same names in another order. -/
def placesIn (hperm : names.Perm names') (hnodup : names.Nodup) : Equiv.Perm TagId where
  toFun := placeIn names names'
  invFun := placeIn names' names
  left_inv := placeIn_placeIn hperm hnodup
  right_inv := placeIn_placeIn hperm.symm (hperm.nodup_iff.1 hnodup)

end

/-- Tags of the same names are found under the ids of these names. -/
theorem isCarried_placesIn {ts ts' : TagIndex} (hperm : ts.names.Perm ts'.names)
    (hnodup : ts.names.Nodup) : ts.IsCarried (placesIn hperm hnodup) ts' := by
  intro raw id hid
  refine (idNamed?_eq_some_iff (hperm.nodup_iff.1 hnodup)).2 ?_
  exact (getElem?_placeIn hperm id).trans (names_getElem?_of_idNamed? hid)

end TagIndex

/-! ## Mentions in another order -/

namespace Mention

theorem occurrences_tag_append (ms more : List Mention) (name : String) :
    (tag (ms ++ more) name).occurrences =
      (tag ms name).occurrences ++ (tag more name).occurrences := by
  simp [tag, named]

theorem occurrences_tag_renumber (ρ : Renumbering) (ms : List Mention) (name : String) :
    (tag (ms.map (·.renumber ρ)) name).occurrences = (tag ms name).occurrences := by
  simp only [tag, named, List.filter_map, List.map_map]
  rfl

theorem mem_owners_tag {ms : List Mention} {name : String} {n : TagOwner} :
    n ∈ (tag ms name).owners ↔ ∃ m ∈ ms, m.name = name ∧ m.owner = n := by
  simp [tag, named, and_assoc]

theorem mem_owners_tag_append {ms more : List Mention} {name : String} {n : TagOwner} :
    n ∈ (tag (ms ++ more) name).owners ↔
      n ∈ (tag ms name).owners ∨ n ∈ (tag more name).owners := by
  simp only [mem_owners_tag, List.mem_append, or_and_right, exists_or]

theorem mem_owners_tag_renumber {ρ : Renumbering} {ms : List Mention} {name : String}
    {n : TagOwner} :
    n.renumber ρ ∈ (tag (ms.map (·.renumber ρ)) name).owners ↔ n ∈ (tag ms name).owners := by
  rw [mem_owners_tag, mem_owners_tag]
  constructor
  · rintro ⟨_, hmem, hname, howner⟩
    obtain ⟨m, hm, rfl⟩ := List.mem_map.1 hmem
    exact ⟨m, hm, hname, (TagOwner.renumber_inj ρ).1 howner⟩
  · rintro ⟨m, hm, hname, rfl⟩
    exact ⟨m.renumber ρ, List.mem_map_of_mem hm, hname, rfl⟩

theorem perm_names {ms ms' : List Mention} (h : (ms.map name).Perm (ms'.map name)) :
    (names ms).Perm (names ms') := by
  refine (List.perm_ext_iff_of_nodup (nodup_names ms) (nodup_names ms')).2 fun x => ?_
  rw [names, names, List.mem_eraseDups, List.mem_eraseDups]
  exact h.mem_iff

end Mention

namespace TagIndex

/-- The occurrences of the tag with exactly this name; none if there is no such tag. -/
def occurrencesNamed (ts : TagIndex) (name : String) : List Occurrence :=
  (((ts.idNamed? name).bind ts.get?).map (·.occurrences)).getD []

theorem Holds.occurrencesNamed_eq {ts : TagIndex} {ms : List Mention} (h : ts.Holds ms)
    (name : String) : ts.occurrencesNamed name = (Mention.tag ms name).occurrences := by
  cases hid : ts.idNamed? name with
  | none =>
    have hnone : name ∉ Mention.names ms := h.names ▸ idNamed?_eq_none_iff.1 hid
    simp [occurrencesNamed, hid, Mention.tag, Mention.named_eq_nil hnone]
  | some id =>
    obtain ⟨t, ht, rfl⟩ := exists_of_idNamed? hid
    rw [occurrencesNamed, hid, Option.bind_some, ht]
    exact congrArg Tag.occurrences (h.tag id t ht)

end TagIndex

/-! ## Two documents -/

/-- A tag in two atlases to which two documents were added in different order: they differ by a
renumbering of the owners, and by which document's occurrences come first. -/
structure Tag.IsExchanged (ρ : Renumbering) (first second : List Occurrence) (t t' : Tag) :
    Prop where
  name_eq : t'.name = t.name
  value_eq : t'.value = t.value
  owner_iff : ∀ n : TagOwner, n.renumber ρ ∈ t'.owners ↔ n ∈ t.owners
  occurrences_eq : t.occurrences = first ++ second
  swapped_eq : t'.occurrences = second ++ first

/-- Two atlases to which the same two documents were added in different order. `first` and `second`
are the atlases of one document each. -/
structure Atlas.IsExchanged (ρ : Renumbering) (first second both swapped : Atlas) : Prop where
  feature : ∀ id, swapped.feature? (ρ.feature id) = (both.feature? id).map (·.renumber ρ)
  scenario : ∀ id, swapped.scenario? (ρ.scenario id) = (both.scenario? id).map (·.renumber ρ)
  step : ∀ id, swapped.step? (ρ.step id) = (both.step? id).map (·.renumber ρ)
  tag : ∀ id t, both.tag? id = some t → ∃ t', swapped.tag? (ρ.tag id) = some t' ∧
    t.IsExchanged ρ (first.tags.occurrencesNamed t.name) (second.tags.occurrencesNamed t.name) t'
  noTag : ∀ id, both.tag? id = none → swapped.tag? (ρ.tag id) = none

/-- Indexes that hold the same mentions in different order. -/
theorem TagIndex.Holds.isExchanged {ρ : Renumbering} {first second both swapped : TagIndex}
    {ms more : List Mention} (hfirst : first.Holds ms)
    (hsecond : second.Holds (more.map (·.renumber ρ))) (hboth : both.Holds (ms ++ more))
    (hswapped : swapped.Holds (more.map (·.renumber ρ) ++ ms.map (·.renumber ρ)))
    {id id' : TagId} {t t' : Tag} (ht : both.get? id = some t) (ht' : swapped.get? id' = some t')
    (hname : t'.name = t.name) :
    t.IsExchanged ρ (first.occurrencesNamed t.name) (second.occurrencesNamed t.name) t' := by
  have htag := hboth.tag id t ht
  have htag' := hswapped.tag id' t' ht'
  rw [hname] at htag'
  constructor
  case name_eq => exact hname
  case value_eq =>
    rw [htag, htag']
    rfl
  case owner_iff =>
    intro n
    rw [htag, htag', Mention.mem_owners_tag_append, Mention.mem_owners_tag_append,
      Mention.mem_owners_tag_renumber, Mention.mem_owners_tag_renumber]
    exact or_comm
  case occurrences_eq =>
    rw [hfirst.occurrencesNamed_eq, hsecond.occurrencesNamed_eq, htag,
      Mention.occurrences_tag_append, Mention.occurrences_tag_renumber]
    rfl
  case swapped_eq =>
    rw [hfirst.occurrencesNamed_eq, hsecond.occurrencesNamed_eq, htag',
      Mention.occurrences_tag_append]
    simp only [Mention.occurrences_tag_renumber]

/-- Two atlases of one document each change places. -/
def Renumbering.exchange (first second : Atlas) (tag : Equiv.Perm TagId) : Renumbering where
  feature := NodeId.exchange first.features.size second.features.size
  scenario := NodeId.exchange first.scenarios.size second.scenarios.size
  step := NodeId.exchange first.steps.size second.steps.size
  tag := tag

namespace DocumentPlan

theorem size_grow_empty (document : Path) (plan : DocumentPlan) :
    (plan.grow .empty document).features.size = plan.featureCount ∧
      (plan.grow .empty document).scenarios.size = plan.nodeCount ∧
      (plan.grow .empty document).steps.size = plan.stepCount := by
  have hsize {kind : NodeKind} {α : Type} {nodes : Arena kind α} {n : Nat}
      (h : nodes.nextId = NodeId.shift ⟨0⟩ n) : nodes.size = n :=
    (congrArg NodeId.index h).trans (Nat.zero_add n)
  obtain ⟨hfeature, hscenario, hstep⟩ := plan.nextId_grow document .empty
  exact ⟨hsize hfeature, hsize hscenario, hsize hstep⟩

section

variable (document document' : Path) (plan plan' : DocumentPlan) (tag : Equiv.Perm TagId)

/-- A document that comes first goes after the other. -/
theorem isCarried_first (second : Atlas) :
    plan.IsCarried (.exchange (plan.grow .empty document) second tag) .empty second := by
  obtain ⟨hfeature, hscenario, hstep⟩ := plan.size_grow_empty document
  constructor
  case feature =>
    rw [← hfeature]
    exact NodeId.carries_exchange_first _ _
  case scenario =>
    rw [← hscenario]
    exact NodeId.carries_exchange_first _ _
  case step =>
    rw [← hstep]
    exact NodeId.carries_exchange_first _ _

/-- A document that comes second goes to the front. -/
theorem isCarried_second (first : Atlas) :
    plan.IsCarried (.exchange first (plan.grow .empty document) tag) first .empty := by
  obtain ⟨hfeature, hscenario, hstep⟩ := plan.size_grow_empty document
  constructor
  case feature =>
    rw [← hfeature]
    exact NodeId.carries_exchange_last _ _
  case scenario =>
    rw [← hscenario]
    exact NodeId.carries_exchange_last _ _
  case step =>
    rw [← hstep]
    exact NodeId.carries_exchange_last _ _

theorem holds_grow_grow :
    let first := plan.grow .empty document
    (plan'.grow first document').tags.Holds
      (plan.mentions document .empty ++ plan'.mentions document' first) :=
  plan'.holds_grow document' (plan.holds_grow_empty document)

/-- In the other order the same is mentioned, by the nodes with the other ids. -/
theorem holds_grow_swapped :
    let first := plan.grow .empty document
    let second := plan'.grow .empty document'
    let ρ := Renumbering.exchange first second tag
    second.tags.Holds ((plan'.mentions document' first).map (·.renumber ρ)) ∧
      (plan.grow second document).tags.Holds
        ((plan'.mentions document' first).map (·.renumber ρ) ++
          (plan.mentions document .empty).map (·.renumber ρ)) := by
  intro first second ρ
  have hfirst := (plan.isCarried_first document tag second).mentions document
  have hsecond := (plan'.isCarried_second document' tag first).mentions document'
  rw [← hfirst, ← hsecond]
  exact ⟨plan'.holds_grow_empty document', plan'.holds_grow_grow document' document plan⟩

/-- The tags have the same names in either order. -/
theorem perm_names_grow :
    let first := plan.grow .empty document
    let second := plan'.grow .empty document'
    (plan'.grow first document').tags.names.Perm (plan.grow second document).tags.names := by
  intro first second
  have hboth := plan.holds_grow_grow document document' plan'
  -- Names do not depend on ids, so it does not matter which ids the tags would get.
  have hswapped := (plan.holds_grow_swapped document document' plan' (Equiv.refl TagId)).2
  rw [hboth.names, hswapped.names]
  refine Mention.perm_names ?_
  rw [List.map_append, List.map_append, List.map_map, List.map_map]
  exact List.perm_append_comm

end

/-- The plans of two documents can be carried out in either order. -/
theorem isExchanged_grow (document document' : Path) (plan plan' : DocumentPlan) :
    let first := plan.grow .empty document
    let second := plan'.grow .empty document'
    ∃ ρ, Atlas.IsExchanged ρ first second (plan'.grow first document')
      (plan.grow second document) := by
  intro first second
  let both := plan'.grow first document'
  let swapped := plan.grow second document
  have hboth := plan.holds_grow_grow document document' plan'
  have hperm : both.tags.names.Perm swapped.tags.names :=
    plan.perm_names_grow document document' plan'
  let tag := TagIndex.placesIn hperm hboth.nodup_names
  obtain ⟨hsecond, hswapped⟩ := plan.holds_grow_swapped document document' plan' tag
  have hfound : both.tags.IsCarried tag swapped.tags := TagIndex.isCarried_placesIn hperm _
  have hgrow := (plan.isCarried_first document tag second).growAlike document hfound
    (plan'.names_prefix_grow document' first) List.prefix_rfl
  have hgrow' := (plan'.isCarried_second document' tag first).growAlike document' hfound
    List.prefix_rfl (plan.names_prefix_grow document second)
  have hname (id : TagId) :
      (swapped.tag? (tag id)).map (·.name) = (both.tag? id).map (·.name) :=
    (swapped.tags.map_name_get? _).trans
      ((TagIndex.getElem?_placeIn hperm id).trans (both.tags.map_name_get? id).symm)
  refine ⟨.exchange first second tag, ?_⟩
  constructor
  case feature => exact hgrow.features.get?_exchange hgrow'.features
  case scenario => exact hgrow.scenarios.get?_exchange hgrow'.scenarios
  case step => exact hgrow.steps.get?_exchange hgrow'.steps
  case tag =>
    intro id t ht
    have hid := hname id
    rw [ht] at hid
    obtain ⟨t', ht', hsame⟩ := Option.map_eq_some_iff.1 hid
    have hfirst := plan.holds_grow_empty document
    exact ⟨t', ht', hfirst.isExchanged hsecond hboth hswapped ht ht' hsame⟩
  case noTag =>
    intro id hid
    have hnone := hname id
    rw [hid] at hnone
    exact Option.map_eq_none_iff.1 hnone

end DocumentPlan

/-- Two documents can be added in either order: ids, and the order in which tags list their
occurrences, are all that tells which came first. Neither has to be added without an error. -/
theorem Atlas.isExchanged_addDocument (d d' : Document) (filter filter' : TagFilter) :
    let first := (Atlas.empty.addDocument d filter).atlas
    let second := (Atlas.empty.addDocument d' filter').atlas
    ∃ ρ, IsExchanged ρ first second (first.addDocument d' filter').atlas
      (second.addDocument d filter).atlas := by
  intro first second
  have hgrow (a : Atlas) (d : Document) (filter : TagFilter) :
      (a.addDocument d filter).atlas = (d.plan filter).grow a d.path := by
    rw [addDocument_eq_carryOut, DocumentPlan.atlas_carryOut]
  simp only [first, second, hgrow]
  exact DocumentPlan.isExchanged_grow d.path d'.path (d.plan filter) (d'.plan filter')

end FeatureAtlas
