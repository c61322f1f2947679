import FeatureAtlas.Proofs.Exclusion
import FeatureAtlas.Proofs.Mentions

/-!
# Finding a tag by its name

The index makes a name canonical before it looks it up, also a name that is canonical already. A tag
is therefore found by its own name just if the name is bare; with the marker in front it is found
whatever its name is. `tagOf?_name_recordEach` says so of every index, and the tag `@@x` is one
that cannot be found by its name `@x`.
-/

namespace FeatureAtlas

/-- A canonical name is bare unless it starts with a marker or a blank, as its end has no blanks. -/
theorem isBareName_tagName_iff {raw : String} :
    IsBareName (tagName raw) ↔
      ∀ c ∈ (tagName raw).toList.head?, c ≠ markerChar ∧ Text.isBlank c = false := by
  have htrim : Text.trim (tagName raw) = tagName raw ↔
      ∀ c ∈ (tagName raw).toList.head?, Text.isBlank c = false := by
    rw [← Text.dropBlanks_eq_self_iff, ← String.toList_inj, Text.toList_trim, Text.trimChars]
    constructor
    · intro h
      refine (List.dropWhile_sublist _).eq_of_length_le ?_
      conv_lhs => rw [← h]
      exact (Text.dropBlanksEnd_sublist _).length_le
    · intro h
      rw [h, dropBlanksEnd_toList_tagName]
  have hmarker : (tagName raw).toList.head? ≠ some markerChar ↔
      ∀ c ∈ (tagName raw).toList.head?, c ≠ markerChar := by
    cases (tagName raw).toList.head? <;> simp
  rw [IsBareName, htrim, hmarker]
  grind

namespace TagIndex

/-- While no two tags have the same name, what is found is the tag of the canonical name. -/
theorem tagOf?_eq_some_iff {ts : TagIndex} (hnodup : ts.names.Nodup) {id : TagId} {t : Tag}
    (ht : ts.get? id = some t) {raw : String} :
    ts.tagOf? raw = some t ↔ t.name = tagName raw := by
  have hname : ts.names[id.index]? = some t.name := by
    rw [← map_name_get?, ht]
    rfl
  constructor
  · intro hfound
    obtain ⟨other, hother, hget⟩ := Option.bind_eq_some_iff.1 hfound
    have hothername := names_getElem?_of_idNamed? hother
    rw [← map_name_get?, hget] at hothername
    exact Option.some.inj hothername
  · intro hsame
    have hid : ts.idOf? raw = some id :=
      (idNamed?_eq_some_iff hnodup).2 (hname.trans (congrArg some hsame))
    rw [tagOf?, hid]
    exact ht

/-- Every tag has the canonical name of some mention. -/
theorem Holds.exists_tagName {ts : TagIndex} {ms : List Mention} (h : ts.Holds ms) {id : TagId}
    {t : Tag} (ht : ts.get? id = some t) : ∃ raw, t.name = tagName raw := by
  have hmem : t.name ∈ ts.names := by
    refine List.mem_of_getElem? (i := id.index) ?_
    rw [← map_name_get?, ht]
    rfl
  rw [h.names] at hmem
  obtain ⟨m, -, hm⟩ := Mention.mem_names.1 hmem
  exact ⟨m.raw, hm.symm⟩

/-- Whatever is mentioned, a tag is found by its name with the marker in front. By its name alone it
is found just if the name starts neither with a marker nor with a blank; otherwise another tag is
found, or none. -/
theorem tagOf?_name_recordEach (ms : List Mention) :
    let ts := (empty.recordEach ms).1
    ∀ id t, ts.get? id = some t →
      ts.tagOf? ("@" ++ t.name) = some t ∧
        (ts.tagOf? t.name = some t ↔
          ∀ c ∈ t.name.toList.head?, c ≠ markerChar ∧ Text.isBlank c = false) := by
  intro ts id t ht
  have hholds : ts.Holds ms := holds_recordEach ms
  have hnodup := hholds.nodup_names
  obtain ⟨raw, hraw⟩ := hholds.exists_tagName ht
  constructor
  · rw [tagOf?_eq_some_iff hnodup ht, hraw, tagName_marked]
  · rw [tagOf?_eq_some_iff hnodup ht, eq_comm, tagName_eq_self_iff, hraw]
    exact isBareName_tagName_iff

/-- Two tags of which one has the other's name with a marker in front. -/
theorem tagOf?_name_fast :
    let place : Occurrence := ⟨⟨"meals.feature"⟩, 1⟩
    let mention (raw : String) : Mention := ⟨raw, .feature ⟨0⟩, place⟩
    let ts := (empty.recordEach ([" fast ", "@@fast"].map mention)).1
    let fast : Tag := ⟨"fast", "@fast", [.feature ⟨0⟩], [place]⟩
    let marked : Tag := ⟨"@fast", "@@fast", [.feature ⟨0⟩], [place]⟩
    ts.get? ⟨0⟩ = some fast ∧ ts.get? ⟨1⟩ = some marked ∧
      ts.tagOf? "fast" = some fast ∧ ts.tagOf? "@@fast" = some marked ∧
      ts.tagOf? "@fast" ≠ some marked := by
  intro place mention ts fast marked
  have hfast : ts.get? ⟨0⟩ = some fast := by decide
  have hmarked : ts.get? ⟨1⟩ = some marked := by decide
  obtain ⟨-, hname⟩ := tagOf?_name_recordEach ([" fast ", "@@fast"].map mention) ⟨0⟩ fast hfast
  obtain ⟨hvalue, hname'⟩ :=
    tagOf?_name_recordEach ([" fast ", "@@fast"].map mention) ⟨1⟩ marked hmarked
  have hplain : ∀ c ∈ fast.name.toList.head?, c ≠ markerChar ∧ Text.isBlank c = false := by
    have hhead : fast.name.toList.head? = some 'f' := by decide
    rw [hhead]
    rintro c ⟨⟩
    exact ⟨by decide, by decide⟩
  have hstart : '@' ∈ marked.name.toList.head? := by decide
  exact ⟨hfast, hmarked, hname.2 hplain, hvalue, fun h => (hname'.1 h '@' hstart).1 rfl⟩

/-- A tag written with two markers is in the index, and is not found by its name. -/
theorem tagOf?_doubleMarker :
    let ts := (empty.recordEach [⟨"@@x", .feature ⟨0⟩, ⟨⟨"a.feature"⟩, 1⟩⟩]).1
    ∃ t, ts.get? ⟨0⟩ = some t ∧ t.name = "@x" ∧ ts.tagOf? t.name = none := by
  exact ⟨_, rfl, by decide, by decide⟩

end TagIndex

end FeatureAtlas
