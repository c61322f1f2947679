import FeatureAtlas.Proofs.Exclusion
import FeatureAtlas.Proofs.Loading
import FeatureAtlas.Proofs.Repeats
import FeatureAtlas.Proofs.TagHistory
import FeatureAtlas.Proofs.Transcript

/-!
# Rules are dissolved

A feature has a background, scenarios, and rules with scenarios of their own: its parts. Reading a
document makes one child of each part and puts the children in the order of their lines.
`ParseTree.IsByLine` says what that order is, and `Document.IsBlockOf` what a scenario becomes, the
tags of its rule included. As these are on the child when a filter sees it, a filter leaves out a
scenario for its own tags or for those of its rule.
-/

namespace FeatureAtlas

/-! ## Sorting by a key -/

section

variable {α : Type} (key : α → Nat) (l : List α)

theorem pairwise_mergeSort_key :
    (l.mergeSort fun x y => decide (key x ≤ key y)).Pairwise fun x y => key x ≤ key y := by
  have hsorted : (l.mergeSort fun x y => decide (key x ≤ key y)).Pairwise
      fun x y => decide (key x ≤ key y) = true := by
    apply List.pairwise_mergeSort
    · simpa using fun x y z => Nat.le_trans
    · simpa using fun x y => Nat.le_total (key x) (key y)
  exact hsorted.imp of_decide_eq_true

/-- Sorting keeps the order of what has the same key. -/
theorem filter_mergeSort_key (k : Nat) :
    ((l.mergeSort fun x y => decide (key x ≤ key y)).filter fun x => key x = k) =
      l.filter fun x => key x = k := by
  have hequal : (l.filter fun x => key x = k).Pairwise
      fun x y => decide (key x ≤ key y) = true := by
    refine List.pairwise_of_forall_mem_list fun x hx y hy => ?_
    have hx := (List.mem_filter.1 hx).2
    have hy := (List.mem_filter.1 hy).2
    simp only [decide_eq_true_eq] at hx hy ⊢
    omega
  have hwithin : (l.filter fun x => key x = k).Sublist
      (l.mergeSort fun x y => decide (key x ≤ key y)) := by
    refine List.sublist_mergeSort ?_ ?_ hequal List.filter_sublist
    · simpa using fun x y z => Nat.le_trans
    · simpa using fun x y => Nat.le_total (key x) (key y)
  have hkept := hwithin.filter fun x => key x = k
  simp only [List.filter_filter, Bool.and_self] at hkept
  have hlength := ((List.mergeSort_perm l fun x y => decide (key x ≤ key y)).filter
    fun x => key x = k).length_eq
  exact (hkept.eq_of_length hlength.symm).symm

end

/-! ## The parts of a feature -/

namespace ParseTree

/-- A scenario with examples, or with a keyword that asks for some. -/
def Scenario.IsOutline (sc : Scenario) : Prop :=
  sc.examples ≠ [] ∨ Text.trim sc.keyword = "Scenario Outline" ∨
    Text.trim sc.keyword = "Scenario Template"

/-- What a child is made of: a background, or a scenario with the tags of the rule it is in. -/
inductive Part where
  | background (b : Background)
  | scenario (ofRule : List String) (scenario : Scenario)
deriving DecidableEq, Repr

namespace Part

/-- The line of the keyword. -/
def line : Part → Nat
  | .background b => b.position.line
  | .scenario _ sc => sc.position.line

/-- Whether a filter leaves the part out, for a tag of its rule or one of its own. -/
def isExcluded (filter : TagFilter) : Part → Bool
  | .background _ => false
  | .scenario ofRule sc =>
    filter.excludes (ofRule.map Document.markTag) || filter.excludes (sc.tags.map Document.markTag)

/-- The child that the part becomes. -/
def child (s : Source) : Part → Child
  | .background b => .background (Document.backgroundBlock s b)
  | .scenario ofRule sc => Document.scenarioChild s ofRule sc

end Part

/-- The parts of a feature: its background, the scenarios outside of rules, which inherit no tags,
and those in rules. The background of a rule is none of them. -/
def Feature.parts (f : Feature) : List Part :=
  (f.background.map Part.background).toList ++ f.scenarios.map (Part.scenario []) ++
    f.rules.flatMap fun rule => rule.scenarios.map (Part.scenario rule.tags)

/-- The same parts by increasing line, where those on one line keep their order. -/
structure IsByLine (parts order : List Part) : Prop where
  perm : order.Perm parts
  sorted : order.Pairwise fun p q => p.line ≤ q.line
  stable : ∀ line, (order.filter fun p => p.line = line) = parts.filter fun p => p.line = line

theorem isByLine_mergeSort (parts : List Part) :
    IsByLine parts (parts.mergeSort fun p q => decide (p.line ≤ q.line)) where
  perm := List.mergeSort_perm _ _
  sorted := pairwise_mergeSort_key Part.line parts
  stable := filter_mergeSort_key Part.line parts

end ParseTree

namespace Document

open ParseTree (Part)

/-! ## Blocks -/

/-- A scenario as a block. Its tags are those of its rule and then its own, each text once where it
is first seen, and then marked. -/
structure IsBlockOf (s : Source) (ofRule : List String) (sc : ParseTree.Scenario) (b : Block) :
    Prop where
  keyword : b.keyword = sc.keyword
  title : b.title = sc.title
  description : b.description = sc.description
  comments : b.comments = s.commentsAbove sc.position.line
  position : b.position = sc.position
  tags : ∃ tags, IsFirsts (ofRule ++ sc.tags) tags ∧
    b.tags = tags.map fun tag => ⟨markTag tag, sc.position⟩
  steps : b.steps = sc.steps.map (stepLine s)
  examples : b.examples = sc.examples.map (examplesBlock s)

theorem isBlockOf_scenarioBlock (s : Source) (ofRule : List String) (sc : ParseTree.Scenario) :
    IsBlockOf s ofRule sc (scenarioBlock s (inheritTags ofRule sc.tags) sc) := by
  constructor
  case tags => exact ⟨_, isFirsts_eraseDups (ofRule ++ sc.tags), rfl⟩
  all_goals rfl

theorem readsAsOutline_iff {sc : ParseTree.Scenario} : readsAsOutline sc = true ↔ sc.IsOutline := by
  simp [readsAsOutline, ParseTree.Scenario.IsOutline]

theorem block_scenarioChild (s : Source) (ofRule : List String) (sc : ParseTree.Scenario) :
    (scenarioChild s ofRule sc).block = scenarioBlock s (inheritTags ofRule sc.tags) sc := by
  rw [scenarioChild]
  split <;> rfl

theorem line_child (s : Source) (p : Part) : (p.child s).block.position.line = p.line := by
  cases p with
  | background b => rfl
  | scenario ofRule sc =>
    rw [Part.child, block_scenarioChild]
    rfl

/-! ## The order of the children -/

theorem unorderedChildren_eq (s : Source) (f : ParseTree.Feature) :
    unorderedChildren s f = f.parts.map (·.child s) := by
  rw [unorderedChildren, ParseTree.Feature.parts]
  cases f.background <;> simp [List.map_flatMap, Part.child, Function.comp_def]

theorem orderedChildren_eq (s : Source) (f : ParseTree.Feature) :
    orderedChildren s f =
      (f.parts.mergeSort fun p q => decide (p.line ≤ q.line)).map (·.child s) := by
  rw [orderedChildren, unorderedChildren_eq]
  refine (List.map_mergeSort fun p _ q _ => ?_).symm
  rw [line_child, line_child]

/-- Only the background of the feature becomes a background. -/
theorem background_mem_orderedChildren_iff {s : Source} {f : ParseTree.Feature} {b : Block} :
    .background b ∈ orderedChildren s f ↔
      ∃ background, f.background = some background ∧ b = backgroundBlock s background := by
  rw [orderedChildren, List.mem_mergeSort, unorderedChildren_eq, List.mem_map]
  constructor
  · rintro ⟨p, hp, hchild⟩
    cases p with
    | background background =>
      cases hchild
      exact ⟨background, by simpa [ParseTree.Feature.parts] using hp, rfl⟩
    | scenario ofRule sc =>
      rw [Part.child, scenarioChild] at hchild
      split at hchild <;> cases hchild
  · rintro ⟨background, hbackground, rfl⟩
    exact ⟨.background background, by simp [ParseTree.Feature.parts, hbackground], rfl⟩

/-! ## Filters -/

/-- A tag that does not begin with a blank has the same name with the marker. -/
theorem tagName_markTag {tag : String} (h : ∀ c ∈ tag.toList.head?, Text.isBlank c = false) :
    tagName (markTag tag) = tagName tag := by
  rw [markTag]
  split
  · rfl
  · next hmarker =>
    have hhead : (Text.dropBlanksEnd tag.toList).head? = tag.toList.head? := by
      cases hchars : tag.toList with
      | nil => rfl
      | cons c cs =>
        rw [hchars] at h
        rw [Text.dropBlanksEnd_cons (h c rfl), List.head?_cons, List.head?_cons]
    have hname : dropMarker (Text.dropBlanksEnd tag.toList) = Text.dropBlanksEnd tag.toList :=
      dropMarker_eq_self_iff.2 (hhead ▸ hmarker)
    refine String.toList_injective ?_
    rw [toList_tagName, toList_tagName, String.toList_ofList, Text.trimChars, Text.trimChars,
      Text.dropBlanks_eq_self_iff.2 h, hname, Text.dropBlanks_cons, isBlank_markerChar,
      if_neg Bool.false_ne_true, Text.dropBlanksEnd_cons isBlank_markerChar]
    rfl

theorem excludes_map_markTag_iff {filter : TagFilter} {tags : List String} :
    filter.excludes (tags.map markTag) = true ↔
      ∃ tag ∈ tags, tagName (markTag tag) ∈ filter.excluded := by
  simp [TagFilter.excludes_iff]

/-- So a filter may as well look at the tags as the parse tree has them. -/
theorem excludes_map_markTag (filter : TagFilter) {tags : List String}
    (h : ∀ tag ∈ tags, ∀ c ∈ tag.toList.head?, Text.isBlank c = false) :
    filter.excludes (tags.map markTag) = filter.excludes tags := by
  rw [Bool.eq_iff_iff, excludes_map_markTag_iff, TagFilter.excludes_iff]
  refine exists_congr fun tag => and_congr_right fun htag => ?_
  rw [tagName_markTag (h tag htag)]

/-- A filter leaves out a child just if it excludes a tag of the rule or one of the scenario. -/
theorem leavesOut_child (filter : TagFilter) (s : Source) (p : Part) :
    ChildPlan.leavesOut filter (p.child s) = p.isExcluded filter := by
  cases p with
  | background b => rfl
  | scenario ofRule sc =>
    have hblock : ChildPlan.leavesOut filter (scenarioChild s ofRule sc) =
        filter.excludes ((inheritTags ofRule sc.tags).map markTag) := by
      rw [scenarioChild, ← tagTexts_tagMarks _ sc.position]
      split <;> rfl
    have hmem (tag : String) : tag ∈ inheritTags ofRule sc.tags ↔ tag ∈ ofRule ∨ tag ∈ sc.tags := by
      rw [inheritTags, List.mem_eraseDups, List.mem_append]
    rw [Part.child, hblock, Part.isExcluded, Bool.eq_iff_iff, Bool.or_eq_true]
    simp only [excludes_map_markTag_iff, hmem, or_and_right, exists_or]

/-- What is read of a feature, but for the parts that a filter leaves out. -/
def keptBlock (s : Source) (f : ParseTree.Feature) (order : List Part) (filter : TagFilter) :
    FeatureBlock :=
  { featureBlock s f with
    children := (order.filter fun p => !p.isExcluded filter).map (·.child s) }

theorem keptBy_featureBlock {s : Source} {f : ParseTree.Feature} {order : List Part}
    (h : orderedChildren s f = order.map (·.child s)) (filter : TagFilter) :
    (featureBlock s f).keptBy filter = keptBlock s f order filter := by
  have hchildren : (orderedChildren s f).filter (fun c => !ChildPlan.leavesOut filter c) =
      (order.filter fun p => !p.isExcluded filter).map (·.child s) := by
    rw [h, List.filter_map]
    simp only [Function.comp_def, leavesOut_child]
  rw [FeatureBlock.keptBy, keptBlock, ← hchildren]
  rfl

theorem tagTexts_featureBlock (s : Source) (f : ParseTree.Feature) :
    tagTexts (featureBlock s f).tags = f.tags.map markTag :=
  tagTexts_tagMarks f.tags f.position

section

variable {s : Source} {f : ParseTree.Feature} {order : List Part} {filter : TagFilter}

/-- A feature that a filter keeps is added without the parts that the filter leaves out. -/
theorem addDocument_featureBlock (h : orderedChildren s f = order.map (·.child s))
    (hkept : filter.excludes (f.tags.map markTag) = false) (a : Atlas) (path : Path) :
    a.addDocument ⟨path, some (featureBlock s f)⟩ filter =
      a.addDocument ⟨path, some (keptBlock s f order filter)⟩ .keepAll := by
  have htags : filter.excludes (tagTexts (featureBlock s f).tags) = false := by
    rwa [tagTexts_featureBlock]
  have hdocument : Document.keptBy filter ⟨path, some (featureBlock s f)⟩ =
      ⟨path, some (keptBlock s f order filter)⟩ := by
    rw [Document.keptBy, Option.map_some, keptBy_featureBlock h]
  rw [← hdocument]
  exact Atlas.addDocument_of_kept rfl htags a

/-- If it is added without an error, all other parts can be read back. -/
theorem viewFeature?_addDocument_featureBlock (h : orderedChildren s f = order.map (·.child s))
    (hkept : filter.excludes (f.tags.map markTag) = false) {a : Atlas} {path : Path}
    {result : Option FeatureId}
    (hok : (a.addDocument ⟨path, some (featureBlock s f)⟩ filter).outcome = .ok result) :
    (a.addDocument ⟨path, some (featureBlock s f)⟩ filter).atlas.viewFeature? a.features.nextId =
      some ((keptBlock s f order filter).view path) := by
  have htags : filter.excludes (tagTexts (featureBlock s f).tags) = false := by
    rwa [tagTexts_featureBlock]
  have hkept? : Document.kept? filter ⟨path, some (featureBlock s f)⟩ =
      some (keptBlock s f order filter) := by
    rw [Document.kept?, Option.bind_some, htags, if_neg Bool.false_ne_true, keptBy_featureBlock h]
  have hatlas := Atlas.atlas_addDocument_of_ok hok
  rw [hkept?] at hatlas
  rw [hatlas]
  exact (reads_addFeature a path _).1

end

/-- A feature is read without loss. Its children are its parts in the order of their lines, each
scenario an outline or not and with the tags of its rule in front of its own. So a filter that keeps
the feature adds all parts but the scenarios of which it excludes a tag or a tag of the rule. -/
theorem orderedChildren_exact (s : Source) (f : ParseTree.Feature) :
    ∃ order, ParseTree.IsByLine f.parts order ∧ orderedChildren s f = order.map (·.child s) ∧
      (∀ b, .background b ∈ orderedChildren s f ↔
        ∃ background, f.background = some background ∧ b = backgroundBlock s background) ∧
      (∀ ofRule sc, ∃ b, IsBlockOf s ofRule sc b ∧
        (sc.IsOutline → (Part.scenario ofRule sc).child s = .outline b) ∧
        (¬sc.IsOutline → (Part.scenario ofRule sc).child s = .scenario b)) ∧
      (∀ (a : Atlas) (path : Path) (filter : TagFilter),
        filter.excludes (f.tags.map markTag) = false →
        let added := a.addDocument ⟨path, some (featureBlock s f)⟩ filter
        let kept := keptBlock s f order filter
        added = a.addDocument ⟨path, some kept⟩ .keepAll ∧
          ∀ result, added.outcome = .ok result →
            added.atlas.viewFeature? a.features.nextId = some (kept.view path)) ∧
      ∀ (filter : TagFilter) (tags : List String),
        (∀ tag ∈ tags, ∀ c ∈ tag.toList.head?, Text.isBlank c = false) →
          filter.excludes (tags.map markTag) = filter.excludes tags := by
  have hchildren := orderedChildren_eq s f
  refine ⟨_, ParseTree.isByLine_mergeSort f.parts, hchildren,
    fun b => background_mem_orderedChildren_iff, fun ofRule sc => ?_, fun a path filter hkept => ?_,
    fun filter tags => excludes_map_markTag filter⟩
  · refine ⟨_, isBlockOf_scenarioBlock s ofRule sc, fun houtline => ?_, fun hplain => ?_⟩
    · rw [Part.child, scenarioChild, if_pos (readsAsOutline_iff.2 houtline)]
    · rw [Part.child, scenarioChild, if_neg (mt readsAsOutline_iff.1 hplain)]
  · exact ⟨addDocument_featureBlock hchildren hkept a path,
      fun result hok => viewFeature?_addDocument_featureBlock hchildren hkept hok⟩

end Document

namespace ParseTree

/-- A scenario without steps. -/
def Scenario.dish (keyword title : String) (tags : List String) (position : Position) : Scenario :=
  ⟨keyword, title, "", tags, [], [], position⟩

/-- A feature with two rules, of which the first has a background. The scenario outside of them is
on one line with a scenario of the second rule, and has a tag in two spellings. -/
def Feature.banquet : Feature where
  keyword := "Feature"
  title := "Banquet"
  description := ""
  tags := ["feast"]
  background := some ⟨"Background", "", "", [], ⟨3, 3⟩⟩
  scenarios := [.dish "Scenario" "Soup" ["hot", "@hot", "hot"] ⟨12, 3⟩]
  rules :=
    [⟨["slow"], some ⟨"Background", "", "", [], ⟨6, 5⟩⟩,
        [.dish "Scenario Outline " "Roast" ["hot", "slow"] ⟨8, 5⟩]⟩,
      ⟨["cold"], none,
        [.dish "Example" "Ice" [] ⟨12, 30⟩, .dish "Scenario Template" "Cake" ["slow"] ⟨10, 5⟩]⟩]
  position := ⟨1, 1⟩

end ParseTree

/-- The feature under a filter that excludes the tag of its first rule. -/
theorem Document.orderedChildren_exact_banquet :
    let s := Source.ofChars []
    let f := ParseTree.Feature.banquet
    let filter := TagFilter.ofTags ["slow"]
    let path : Path := ⟨"banquet.feature"⟩
    let added := Atlas.empty.addDocument ⟨path, some (featureBlock s f)⟩ filter
    (orderedChildren s f).map (fun c => (c.kind, c.block.title, tagTexts c.block.tags)) =
        [(.background, "", []), (.outline, "Roast", ["@slow", "@hot"]),
          (.outline, "Cake", ["@cold", "@slow"]), (.scenario, "Soup", ["@hot", "@hot"]),
          (.scenario, "Ice", ["@cold"])] ∧
      filter.excludes (f.tags.map markTag) = false ∧ added.outcome = .ok (some ⟨0⟩) ∧
      ∃ order, ParseTree.IsByLine f.parts order ∧
        added = Atlas.empty.addDocument ⟨path, some (keptBlock s f order filter)⟩ .keepAll ∧
        added.atlas.viewFeature? ⟨0⟩ = some ((keptBlock s f order filter).view path) ∧
        (keptBlock s f order filter).children.map (·.block.title) = ["", "Soup", "Ice"] := by
  intro s f filter path added
  have hsorted : (f.parts.mergeSort fun p q => decide (p.line ≤ q.line)) =
      [.background ⟨"Background", "", "", [], ⟨3, 3⟩⟩,
        .scenario ["slow"] (.dish "Scenario Outline " "Roast" ["hot", "slow"] ⟨8, 5⟩),
        .scenario ["cold"] (.dish "Scenario Template" "Cake" ["slow"] ⟨10, 5⟩),
        .scenario [] (.dish "Scenario" "Soup" ["hot", "@hot", "hot"] ⟨12, 3⟩),
        .scenario ["cold"] (.dish "Example" "Ice" [] ⟨12, 30⟩)] := by
    simp [f, ParseTree.Feature.banquet, ParseTree.Feature.parts, ParseTree.Part.line,
      ParseTree.Scenario.dish, List.mergeSort, List.MergeSort.Internal.splitInTwo]
  have hsame := orderedChildren_eq s f
  rw [hsorted] at hsame
  have hkept : filter.excludes (f.tags.map markTag) = false := by decide +kernel
  have hok : added.outcome = .ok (some ⟨0⟩) := by
    simp only [added, featureBlock, hsame]
    decide +kernel
  obtain ⟨order, horder, hchildren, -, -, hadded, -⟩ := orderedChildren_exact s f
  obtain ⟨hdeletion, hview⟩ := hadded .empty path filter hkept
  refine ⟨?_, hkept, hok, order, horder, hdeletion, hview _ hok, ?_⟩
  · rw [hsame]
    decide +kernel
  · rw [← keptBy_featureBlock hchildren, FeatureBlock.keptBy, featureBlock, hsame]
    decide +kernel

end FeatureAtlas
