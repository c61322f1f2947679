import FeatureAtlas.Proofs.Exclusion

/-!
# Overrides compose

An override replaces the log level if it gives one, and adds tags. Two in a row are a single one
with the tags of both and the last level that was given, and so are any changes in a row. Of a list
of tags only its members count, not their order. The variable for the excluded tags holds such a
list too: once the commas are undone, its entries go the same way as tags that are given one by one,
blank ones and lone markers included.
-/

namespace FeatureAtlas

theorem usableNames_append (raws more : List String) :
    usableNames (raws ++ more) = usableNames raws ++ usableNames more := by
  simp [usableNames]

theorem NameSet.insertAll_append (s : NameSet) (names more : List String) :
    s.insertAll (names ++ more) = (s.insertAll names).insertAll more :=
  List.foldl_append

namespace Settings

/-! ## Changes in a row -/

/-- The second override wins with its level, and the tags of both are added. -/
theorem override_override (s : Settings) (level later : Option LogLevel)
    (tags more : List String) :
    (s.override level tags).override later more = s.override (later.or level) (tags ++ more) := by
  apply Settings.ext
  · cases later <;> rfl
  · change (s.excludedTags.insertAll (usableNames tags)).insertAll (usableNames more) =
      s.excludedTags.insertAll (usableNames (tags ++ more))
    rw [usableNames_append, NameSet.insertAll_append]

/-- Of the tags only the set of them counts. -/
theorem override_congr (s : Settings) (level : Option LogLevel) {tags others : List String}
    (h : ∀ tag, tag ∈ tags ↔ tag ∈ others) : s.override level tags = s.override level others := by
  apply Settings.ext
  · rfl
  · refine NameSet.eq_of_mem_iff fun name => ?_
    change name ∈ s.excludedTags.insertAll (usableNames tags) ↔
      name ∈ s.excludedTags.insertAll (usableNames others)
    simp only [NameSet.mem_insertAll, mem_usableNames, h]

end Settings

/-- The log level that a change gives. -/
def SettingsChange.level? : SettingsChange → Option LogLevel
  | .override level _ => level
  | .setLevel level => some level

namespace Settings

theorem apply_eq_override (s : Settings) (change : SettingsChange) :
    s.apply change = s.override change.level? change.tags := by
  cases change <;> rfl

/-- Any changes in a row are one override, with the last level that is given and with all tags. -/
theorem foldl_apply_eq_override (s : Settings) (changes : List SettingsChange) :
    changes.foldl apply s =
      s.override (changes.foldl (fun level change => change.level?.or level) none)
        (changes.flatMap (·.tags)) := by
  induction changes using List.reverseRecOn with
  | nil => rfl
  | append_singleton changes change ih =>
    rw [List.foldl_append, ih, List.foldl_append, List.flatMap_append, List.foldl_cons,
      List.foldl_nil, apply_eq_override, override_override]
    simp

/-! ## The variable -/

/-- Commas between tags that have none are undone, except that no tags leave an empty entry. -/
theorem usableNames_splitTags_intercalate {tags : List String}
    (h : ∀ tag ∈ tags, ',' ∉ tag.toList) :
    usableNames (splitTags (",".intercalate tags)) = usableNames tags := by
  by_cases hempty : tags = []
  · subst hempty
    decide
  · have hchars : ∀ cs ∈ tags.map String.toList, ',' ∉ cs := by simpa using h
    have hsplit : splitTags (",".intercalate tags) = tags := by
      have hcomma : ",".toList = [','] := by decide
      rw [splitTags, String.toList_intercalate, hcomma,
        List.splitOn_intercalate ',' hchars (by simpa using hempty), List.map_map]
      simp
    rw [hsplit]

/-- Without a level the variables are an override of the default settings. -/
theorem ofVariables_eq_override {lookup : String → Option String} {text : String}
    (hlevel : lookup logLevelVariable = none) (htags : lookup excludedTagsVariable = some text) :
    ofVariables lookup = .ok (default.override none (splitTags text)) := by
  rw [ofVariables, hlevel, htags]
  rfl

/-- Two overrides are one, an override depends on its tags as a set, and the variable for the
excluded tags, set to tags joined by commas, has the effect of an override with these tags. -/
theorem override_composes (s : Settings) (level later : Option LogLevel)
    (tags more : List String) :
    (s.override level tags).override later more = s.override (later.or level) (tags ++ more) ∧
      (∀ others, (∀ tag, tag ∈ tags ↔ tag ∈ others) →
        s.override level tags = s.override level others) ∧
      ((∀ tag ∈ tags, ',' ∉ tag.toList) →
        ∀ lookup : String → Option String, lookup logLevelVariable = none →
          lookup excludedTagsVariable = some (",".intercalate tags) →
            ofVariables lookup = .ok (default.override none tags)) := by
  refine ⟨s.override_override level later tags more, fun others h => s.override_congr level h, ?_⟩
  intro hcomma lookup hlevel htags
  rw [ofVariables_eq_override hlevel htags, override, override,
    usableNames_splitTags_intercalate hcomma]

/-- A level that is kept, tags in another order, and a variable with a blank entry and a marker. -/
theorem override_composes_late :
    let s : Settings := ⟨.info, .ofList ["wip"]⟩
    let tags := ["@slow", " ", "@", "late"]
    let lookup (name : String) : Option String :=
      if name = excludedTagsVariable then some "@slow, ,@,late" else none
    (s.override (some .error) tags).override none ["@smoke"] =
        s.override (some .error) (tags ++ ["@smoke"]) ∧
      s.override (some .error) tags = s.override (some .error) ["late", "@slow", "@", " ", "late"] ∧
      ofVariables lookup = .ok (default.override none tags) ∧
      (default.override none tags).excludedTags.names = ["late", "slow"] := by
  intro s tags lookup
  obtain ⟨htwice, hset, hvariable⟩ :=
    override_composes s (some .error) none tags ["@smoke"]
  refine ⟨htwice, hset _ fun tag => ?_, hvariable (by decide) lookup rfl ?_, by decide⟩
  · simp only [tags, List.mem_cons, List.not_mem_nil, or_false]
    tauto
  · decide

end Settings

end FeatureAtlas
