import FeatureAtlas.Settings
import Mathlib.Data.Finset.Dedup
import Mathlib.Data.Finset.Max

/-!
# From the settings to the filter

The settings hold the canonical names of the excluded tags, and the filter of the settings makes
these names canonical once more. That changes nothing just for bare names, which neither start with
a marker nor have blanks around them. `excluded_filter_of_changes` says what the settings and
their filter exclude after any changes, and that the two agree exactly if all names are bare; the
tag `@@x` shows what happens otherwise.
-/

namespace FeatureAtlas

/-! ## Bare names -/

/-- A name without blanks around it that does not start with a marker. -/
def IsBareName (name : String) : Prop :=
  Text.trim name = name ∧ name.toList.head? ≠ some markerChar

instance (name : String) : Decidable (IsBareName name) :=
  inferInstanceAs (Decidable (_ ∧ _))

theorem dropMarker_sublist (cs : List Char) : (dropMarker cs).Sublist cs := by
  unfold dropMarker
  split
  · exact List.sublist_cons_self _ _
  · exact List.Sublist.refl _

theorem dropMarker_eq_self_iff {cs : List Char} :
    dropMarker cs = cs ↔ cs.head? ≠ some markerChar := by
  unfold dropMarker
  split
  · simp [markerChar]
  · next hne =>
    refine iff_of_true rfl fun hhead => ?_
    obtain ⟨rest, rfl⟩ := List.head?_eq_some_iff.1 hhead
    exact hne rest rfl

/-- A canonical name is a part of the raw tag. -/
theorem toList_tagName_sublist (raw : String) : (tagName raw).toList.Sublist raw.toList := by
  rw [toList_tagName]
  exact (dropMarker_sublist _).trans (Text.trimChars_sublist _)

/-- Making a name canonical leaves it alone just if it is bare. -/
theorem tagName_eq_self_iff {name : String} : tagName name = name ↔ IsBareName name := by
  constructor
  · intro h
    have hchars : dropMarker (Text.trimChars name.toList) = name.toList := by
      rw [← toList_tagName, h]
    -- Neither of the two steps can have removed a character.
    have htrim : Text.trimChars name.toList = name.toList := by
      refine (Text.trimChars_sublist _).eq_of_length_le ?_
      conv_lhs => rw [← hchars]
      exact (dropMarker_sublist _).length_le
    rw [htrim] at hchars
    exact ⟨String.toList_injective (by rw [Text.toList_trim, htrim]),
      dropMarker_eq_self_iff.1 hchars⟩
  · rintro ⟨htrim, hhead⟩
    have hchars : Text.trimChars name.toList = name.toList := by
      rw [← Text.toList_trim, htrim]
    refine String.toList_injective ?_
    rw [toList_tagName, hchars, dropMarker_eq_self_iff.2 hhead]

/-- Names that are all canonical names of names among them are canonical themselves: a longest one
that is not would be the canonical name of a longer one. -/
theorem tagName_eq_self_of_surjective {names : List String}
    (hsurj : ∀ name ∈ names, ∃ longer ∈ names, tagName longer = name) :
    ∀ name ∈ names, tagName name = name := by
  by_contra hnot
  push Not at hnot
  obtain ⟨name, hname, hne⟩ := hnot
  let unsteady := names.toFinset.filter fun name => tagName name ≠ name
  have hmem (name : String) : name ∈ unsteady ↔ name ∈ names ∧ tagName name ≠ name := by
    simp [unsteady]
  obtain ⟨longest, hlongest, hmax⟩ :=
    unsteady.exists_max_image (fun name => name.toList.length)
      ⟨name, (hmem name).2 ⟨hname, hne⟩⟩
  obtain ⟨hin, hchanged⟩ := (hmem longest).1 hlongest
  obtain ⟨source, hsource, rfl⟩ := hsurj longest hin
  have hsourceNe : tagName source ≠ source := by
    intro h
    rw [h] at hchanged
    exact hchanged h
  have hlength := hmax source ((hmem source).2 ⟨hsource, hsourceNe⟩)
  exact hsourceNe
    (String.toList_injective ((toList_tagName_sublist source).eq_of_length_le hlength))

theorem mem_usableNames {raws : List String} {name : String} :
    name ∈ usableNames raws ↔ name ≠ "" ∧ ∃ raw ∈ raws, tagName raw = name := by
  simp only [usableNames, List.mem_filter, List.mem_map, decide_eq_true_eq]
  exact and_comm

/-! ## Changes of the settings -/

/-- What may happen to settings once the variables were read. -/
inductive SettingsChange where
  | override (level : Option LogLevel) (tags : List String)
  | setLevel (level : LogLevel)
deriving DecidableEq, Repr

/-- The raw tags that a change gives. -/
def SettingsChange.tags : SettingsChange → List String
  | .override _ tags => tags
  | .setLevel _ => []

namespace Settings

/-- The settings after a change. -/
def apply (s : Settings) : SettingsChange → Settings
  | .override level tags => s.override level tags
  | .setLevel level => s.setLevel level

/-- The raw tags that the variables give. -/
def variableTags (lookup : String → Option String) : List String :=
  ((lookup excludedTagsVariable).map splitTags).getD []

theorem excludedTags_ofVariables {lookup : String → Option String} {s : Settings}
    (h : ofVariables lookup = .ok s) :
    s.excludedTags = NameSet.ofList (usableNames (variableTags lookup)) := by
  have hbind {level : Except SettingsError LogLevel} {tags : List String}
      (hs : (level >>= fun l => pure ⟨l, NameSet.ofList tags⟩) = Except.ok s) :
      s.excludedTags = NameSet.ofList tags := by
    cases level with
    | ok l => cases hs; rfl
    | error e => cases hs
  rw [variableTags]
  cases htags : lookup excludedTagsVariable <;> cases hlevel : lookup logLevelVariable <;>
    rw [ofVariables, hlevel, htags] at h <;> exact hbind h

theorem mem_excludedTags_apply {s : Settings} {change : SettingsChange} {name : String} :
    name ∈ (s.apply change).excludedTags ↔
      name ∈ s.excludedTags ∨ name ∈ usableNames change.tags := by
  cases change with
  | override level tags =>
    rw [or_comm]
    exact NameSet.mem_insertAll
  | setLevel level => simp [apply, setLevel, SettingsChange.tags, usableNames]

/-- Changes only add excluded tags: those that they give. -/
theorem mem_excludedTags_changes {s : Settings} (changes : List SettingsChange) {name : String} :
    name ∈ (changes.foldl apply s).excludedTags ↔
      name ∈ s.excludedTags ∨ name ∈ usableNames (changes.flatMap (·.tags)) := by
  induction changes generalizing s with
  | nil => simp [usableNames]
  | cons change changes ih =>
    rw [List.foldl_cons, ih, mem_excludedTags_apply, or_assoc]
    simp only [mem_usableNames, List.flatMap_cons, List.mem_append]
    grind

/-- The filter takes the settings' names for raw tags. -/
theorem mem_excluded_filter {s : Settings} {name : String} :
    name ∈ s.filter.excluded ↔ name ≠ "" ∧ ∃ kept ∈ s.excludedTags, tagName kept = name :=
  TagFilter.mem_excluded_ofTags

/-- The filter excludes the settings' own names just if all of these are bare. -/
theorem excluded_filter_eq_iff {s : Settings} (hused : ∀ name ∈ s.excludedTags, name ≠ "") :
    s.filter.excluded = s.excludedTags ↔ ∀ name ∈ s.excludedTags, IsBareName name := by
  simp only [← tagName_eq_self_iff]
  constructor
  · intro heq
    refine tagName_eq_self_of_surjective fun name hname => ?_
    have hmem : name ∈ s.filter.excluded := heq ▸ hname
    exact (mem_excluded_filter.1 hmem).2
  · intro hbare
    refine NameSet.eq_of_mem_iff fun name => ?_
    rw [mem_excluded_filter]
    constructor
    · rintro ⟨-, kept, hkept, rfl⟩
      rwa [hbare kept hkept]
    · intro hname
      exact ⟨hused name hname, name, hname, hbare name hname⟩

/-- Settings that start from the variables and change in any way hold the canonical names of all
tags that were given, except empty ones. Their filter excludes the canonical names of those names:
these are the same just if all of them are bare, and a tag with a bare name does exclude what is
tagged with it. -/
theorem excluded_filter_of_changes {lookup : String → Option String} {start : Settings}
    (hstart : ofVariables lookup = .ok start) (changes : List SettingsChange) :
    let s := changes.foldl apply start
    let raws := variableTags lookup ++ changes.flatMap (·.tags)
    s.excludedTags = NameSet.ofList (usableNames raws) ∧
      (∀ name, name ∈ s.filter.excluded ↔
        name ≠ "" ∧ ∃ raw ∈ raws, tagName (tagName raw) = name) ∧
      (s.filter.excluded = s.excludedTags ↔
        ∀ raw ∈ raws, tagName raw ≠ "" → IsBareName (tagName raw)) ∧
      ∀ raw ∈ raws, tagName raw ≠ "" → IsBareName (tagName raw) →
        ∀ tags, raw ∈ tags → s.filter.excludes tags = true := by
  intro s raws
  have hexcluded : s.excludedTags = NameSet.ofList (usableNames raws) := by
    refine NameSet.eq_of_mem_iff fun name => ?_
    rw [mem_excludedTags_changes, excludedTags_ofVariables hstart]
    simp only [NameSet.mem_ofList, mem_usableNames, raws, List.mem_append]
    grind
  have hmem (name : String) :
      name ∈ s.excludedTags ↔ name ≠ "" ∧ ∃ raw ∈ raws, tagName raw = name := by
    rw [hexcluded, NameSet.mem_ofList, mem_usableNames]
  have hfilter (name : String) : name ∈ s.filter.excluded ↔
      name ≠ "" ∧ ∃ raw ∈ raws, tagName (tagName raw) = name := by
    rw [mem_excluded_filter]
    refine and_congr_right fun hname => ?_
    constructor
    · rintro ⟨kept, hkept, rfl⟩
      obtain ⟨-, raw, hraw, rfl⟩ := (hmem kept).1 hkept
      exact ⟨raw, hraw, rfl⟩
    · rintro ⟨raw, hraw, rfl⟩
      have hraw' : tagName raw ≠ "" := fun hempty => hname (by rw [hempty]; rfl)
      exact ⟨tagName raw, (hmem _).2 ⟨hraw', raw, hraw, rfl⟩, rfl⟩
  refine ⟨hexcluded, hfilter, ?_, ?_⟩
  · rw [excluded_filter_eq_iff fun name hname => ((hmem name).1 hname).1]
    constructor
    · exact fun hbare raw hraw hne => hbare _ ((hmem _).2 ⟨hne, raw, hraw, rfl⟩)
    · intro hbare name hname
      obtain ⟨hne, raw, hraw, rfl⟩ := (hmem name).1 hname
      exact hbare raw hraw hne
  · intro raw hraw hne hbare tags htags
    refine TagFilter.excludes_iff.2 ⟨raw, htags, (hfilter _).2 ⟨hne, raw, hraw, ?_⟩⟩
    exact tagName_eq_self_iff.2 hbare

/-- A log level and tags in the variables, more tags and another level afterwards. -/
theorem excluded_filter_of_late :
    let lookup (name : String) : Option String :=
      if name = excludedTagsVariable then some " @wip, slow,, @" else
        if name = logLevelVariable then some "Info" else none
    let changes : List SettingsChange := [.override none ["@@x", " @late"], .setLevel .error]
    ∃ start, ofVariables lookup = .ok start ∧
      (changes.foldl apply start).excludedTags.names = ["@x", "late", "slow", "wip"] ∧
      (changes.foldl apply start).filter.excludes ["@smoke", " @late"] = true := by
  intro lookup changes
  have hstart : ofVariables lookup = .ok ⟨.info, .ofList ["wip", "slow"]⟩ := by decide
  obtain ⟨hexcluded, -, -, hexcludes⟩ := excluded_filter_of_changes hstart changes
  refine ⟨_, hstart, ?_, ?_⟩
  · rw [hexcluded]
    decide
  · exact hexcludes " @late" (by decide) (by decide) (by decide) _ (by decide)

/-- A tag with two markers has a canonical name, and is not excluded by itself. -/
theorem not_excludes_doubleMarker :
    let lookup (name : String) : Option String :=
      if name = excludedTagsVariable then some "@@x" else none
    ∃ s, ofVariables lookup = .ok s ∧ tagName "@@x" ≠ "" ∧
      s.filter.excluded ≠ s.excludedTags ∧ s.filter.excludes ["@@x"] = false := by
  exact ⟨⟨.warn, .ofList ["@x"]⟩, by decide, by decide, by decide, by decide⟩

end Settings

end FeatureAtlas
