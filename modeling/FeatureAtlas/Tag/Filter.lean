import FeatureAtlas.NameSet
import FeatureAtlas.Tag

/-!
# Excluding by tag

A `TagFilter` names the tags whose features and scenarios are left out. Names and tags are
compared by canonical name, so a marker or blanks around a name make no difference; a name that is
empty then excludes nothing.
-/

namespace FeatureAtlas

/-- The canonical names of raw tags, without the empty ones. -/
def usableNames (raws : List String) : List String :=
  (raws.map tagName).filter (· ≠ "")

/-- The names of the tags that exclude a node. -/
structure TagFilter where
  excluded : NameSet
deriving DecidableEq, Repr

namespace TagFilter

/-- The filter that excludes nothing. -/
def keepAll : TagFilter := ⟨NameSet.empty⟩

instance : Inhabited TagFilter := ⟨keepAll⟩

/-- The filter that excludes the given tags, written with or without the marker. -/
def ofTags (raws : List String) : TagFilter :=
  ⟨NameSet.ofList (usableNames raws)⟩

/-- Whether one of the raw tags is excluded. -/
def excludes (f : TagFilter) (raws : List String) : Bool :=
  raws.any fun raw => f.excluded.contains (tagName raw)

@[simp] theorem excludes_keepAll (raws : List String) : keepAll.excludes raws = false := by
  simp [excludes, keepAll, NameSet.contains, NameSet.empty]

theorem excludes_iff {f : TagFilter} {raws : List String} :
    f.excludes raws = true ↔ ∃ raw ∈ raws, tagName raw ∈ f.excluded := by
  simp [excludes]

theorem mem_excluded_ofTags {raws : List String} {name : String} :
    name ∈ (ofTags raws).excluded ↔ name ≠ "" ∧ ∃ raw ∈ raws, tagName raw = name := by
  simp only [ofTags, usableNames, NameSet.mem_ofList, List.mem_filter, List.mem_map,
    decide_eq_true_eq]
  grind

end TagFilter

end FeatureAtlas
