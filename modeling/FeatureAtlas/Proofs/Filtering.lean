import FeatureAtlas.Atlas.Addition

/-!
# Filtering is deletion

Adding a document under a filter gives the same atlas and the same outcome as adding it without a
filter after the scenarios and outlines that the filter excludes were deleted from it. `keptBy`
does the deletion. Each builder tests its tags before it touches the atlas, so building an excluded
child is no work at all, and building one that is kept does not depend on the filter.
-/

namespace FeatureAtlas

/-- A feature without the scenarios and outlines that a filter excludes. -/
def FeatureBlock.keptBy (filter : TagFilter) (f : FeatureBlock) : FeatureBlock :=
  { f with children := f.children.filter fun c => !ChildPlan.leavesOut filter c }

/-- A document without the scenarios and outlines that a filter excludes. -/
def Document.keptBy (filter : TagFilter) (d : Document) : Document :=
  { d with feature? := d.feature?.map (·.keptBy filter) }

namespace Building

variable {document : Path} {filter : TagFilter} {id : FeatureId}

/-- An excluded child does nothing. -/
theorem child_of_leavesOut {c : Child} (h : ChildPlan.leavesOut filter c = true) :
    child document filter id c = pure () := by
  cases c with
  | background b => cases h
  | scenario b =>
    have hexcluded : filter.excludes (tagTexts b.tags) = true := h
    rw [child, scenario, if_pos hexcluded]
    rfl
  | outline b =>
    have hexcluded : filter.excludes (tagTexts b.tags) = true := h
    rw [child, outline, if_pos hexcluded]
    rfl

/-- A child that is kept is built as without a filter. -/
theorem child_of_not_leavesOut {c : Child} (h : ChildPlan.leavesOut filter c = false) :
    child document filter id c = child document .keepAll id c := by
  cases c with
  | background b => rfl
  | scenario b =>
    have hkept : filter.excludes (tagTexts b.tags) = false := h
    simp only [child, scenario, hkept, TagFilter.excludes_keepAll]
  | outline b =>
    have hkept : filter.excludes (tagTexts b.tags) = false := h
    simp only [child, outline, hkept, TagFilter.excludes_keepAll]

/-- Children under a filter are built like those it keeps without one. -/
theorem forM_child (cs : List Child) :
    cs.forM (child document filter id) =
      (cs.filter fun c => !ChildPlan.leavesOut filter c).forM (child document .keepAll id) := by
  simp only [List.forM_eq_forM]
  induction cs with
  | nil => rfl
  | cons c cs ih =>
    by_cases h : ChildPlan.leavesOut filter c = true
    · rw [List.forM_cons, child_of_leavesOut h, pure_bind, ih, List.filter_cons_of_neg]
      simp [h]
    · have hkept : ChildPlan.leavesOut filter c = false := by simpa using h
      rw [List.forM_cons, child_of_not_leavesOut hkept, ih, List.filter_cons_of_pos, List.forM_cons]
      simp [hkept]

/-- A feature that is kept is built like what its filter keeps of it. -/
theorem feature_keptBy {f : FeatureBlock} (hkept : filter.excludes (tagTexts f.tags) = false) :
    feature document filter f = feature document .keepAll (f.keptBy filter) := by
  have hchildren (id : FeatureId) : f.children.forM (child document filter id) =
      (f.keptBy filter).children.forM (child document .keepAll id) := forM_child f.children
  simp only [feature, hkept, TagFilter.excludes_keepAll, hchildren]
  rfl

/-- A document whose feature is kept is built like what its filter keeps of it. -/
theorem document_keptBy {d : Document} {f : FeatureBlock} (hfeature : d.feature? = some f)
    (hkept : filter.excludes (tagTexts f.tags) = false) :
    Building.document filter d = Building.document .keepAll (d.keptBy filter) := by
  have hkeptBy : (d.keptBy filter).feature? = some (f.keptBy filter) := by
    simp [Document.keptBy, hfeature]
  simp only [Building.document, hfeature, hkeptBy]
  exact feature_keptBy hkept

/-- A document whose feature is excluded adds nothing. -/
theorem document_of_excluded {d : Document} {f : FeatureBlock} (hfeature : d.feature? = some f)
    (hexcluded : filter.excludes (tagTexts f.tags) = true) :
    Building.document filter d = pure none := by
  simp only [Building.document, hfeature, feature, hexcluded, if_true]

end Building

namespace Atlas

variable {d : Document} {f : FeatureBlock} {filter : TagFilter}

theorem addDocument_of_excluded (hfeature : d.feature? = some f)
    (hexcluded : filter.excludes (tagTexts f.tags) = true) (a : Atlas) :
    a.addDocument d filter = ⟨a, .ok none⟩ := by
  rw [addDocument, Building.document_of_excluded hfeature hexcluded]
  rfl

theorem addDocument_of_kept (hfeature : d.feature? = some f)
    (hkept : filter.excludes (tagTexts f.tags) = false) (a : Atlas) :
    a.addDocument d filter = a.addDocument (d.keptBy filter) .keepAll := by
  rw [addDocument, addDocument, Building.document_keptBy hfeature hkept]

/-- Adding a document under a filter: an excluded feature leaves the atlas alone, and any other is
added just as if what the filter excludes had never been written. -/
theorem addDocument_keptBy (hfeature : d.feature? = some f) (filter : TagFilter) (a : Atlas) :
    (filter.excludes (tagTexts f.tags) = true → a.addDocument d filter = ⟨a, .ok none⟩) ∧
      (filter.excludes (tagTexts f.tags) = false →
        a.addDocument d filter = a.addDocument (d.keptBy filter) .keepAll) := by
  constructor
  · intro hexcluded
    exact addDocument_of_excluded hfeature hexcluded a
  · intro hkept
    exact addDocument_of_kept hfeature hkept a

end Atlas

/-- A block without steps. -/
def Block.bare (keyword : String) (line : Nat) (tags : List TagMark) : Block :=
  ⟨keyword, "", "", [], ⟨line, 3⟩, tags, [], []⟩

/-- A feature in which a background, a scenario and an outline are marked as unfinished, and one
scenario is not. -/
def FeatureBlock.unfinished : FeatureBlock where
  keyword := "Feature"
  title := "Meals"
  description := ""
  comments := []
  position := ⟨2, 1⟩
  tags := [⟨"@meals", ⟨1, 1⟩⟩]
  children :=
    [.background (.bare "Background" 4 [⟨"@wip", ⟨3, 3⟩⟩]),
      .scenario (.bare "Scenario" 6 [⟨"@wip", ⟨5, 3⟩⟩]),
      .scenario (.bare "Scenario" 8 [⟨"@fast", ⟨7, 3⟩⟩]),
      .outline (.bare "Scenario Outline" 10 [⟨"@fast", ⟨9, 3⟩⟩, ⟨"@wip", ⟨9, 9⟩⟩])]

/-- The feature under two filters: one excludes it, the other all but two of its children. -/
theorem Atlas.addDocument_unfinished :
    let f := FeatureBlock.unfinished
    let d : Document := ⟨⟨"meals.feature"⟩, some f⟩
    let wip := TagFilter.ofTags ["wip"]
    (f.keptBy wip).children.length = 2 ∧
      Atlas.empty.addDocument d wip = Atlas.empty.addDocument (d.keptBy wip) .keepAll ∧
      Atlas.empty.addDocument d (.ofTags ["@meals"]) = ⟨Atlas.empty, .ok none⟩ := by
  intro f d wip
  refine ⟨by decide, ?_, ?_⟩
  · exact (addDocument_keptBy rfl wip Atlas.empty).2 (by decide)
  · exact (addDocument_keptBy rfl (.ofTags ["@meals"]) Atlas.empty).1 (by decide)

end FeatureAtlas
