import FeatureAtlas.Proofs.Mentions
import FeatureAtlas.Tag.Filter

/-!
# Which tags are the same

The filter and the index decide on their own whether two raw tags are the same one: the filter has a
set of names, without the empty one, and the index answers with ids, which depend on all that was
recorded before. `TagFilter.excludes_exact` says that they agree. A filter excludes a node just if
recording the tags of both, among any others and in any order, gives one of its tags and one of the
node's the same id, and the tag of this id has a name.
-/

namespace FeatureAtlas

namespace TagIndex

/-- The mentions that are recorded, each with the id that it gets. -/
def answers (ts : TagIndex) (ms : List Mention) : List (Mention × TagId) :=
  ms.zip (ts.recordEach ms).2

/-- Two mentions got the same id, that of a tag whose name is not empty. -/
def IsOneTag (ts : TagIndex) (c c' : Mention × TagId) : Prop :=
  c.2 = c'.2 ∧ ∃ t, ts.get? c.2 = some t ∧ t.name ≠ ""

variable {ts : TagIndex} {ms : List Mention}

/-- Every mention is answered. -/
theorem exists_mem_answers {m : Mention} (h : m ∈ ms) : ∃ id, (m, id) ∈ ts.answers ms := by
  have hlength := (ts.forall₂_recordEach ms).length_eq
  rw [← List.map_fst_zip (Nat.le_of_eq hlength)] at h
  obtain ⟨⟨_, id⟩, hc, rfl⟩ := List.mem_map.1 h
  exact ⟨id, hc⟩

/-- An answer is what is found by the raw tag when all is recorded. -/
theorem idOf?_of_mem_answers {c : Mention × TagId} (h : c ∈ ts.answers ms) :
    (ts.recordEach ms).1.idOf? c.1.raw = some c.2 :=
  (List.forall₂_iff_zip.1 (ts.forall₂_recordEach ms)).2 h

/-- Mentions get one id just if they have one canonical name. -/
theorem isOneTag_iff {c c' : Mention × TagId} (h : c ∈ ts.answers ms) (h' : c' ∈ ts.answers ms) :
    (ts.recordEach ms).1.IsOneTag c c' ↔
      tagName c.1.raw = tagName c'.1.raw ∧ tagName c.1.raw ≠ "" := by
  have hid := idOf?_of_mem_answers h
  have hid' := idOf?_of_mem_answers h'
  obtain ⟨t, ht, hname⟩ := exists_of_idNamed? hid
  obtain ⟨t', ht', hname'⟩ := exists_of_idNamed? hid'
  constructor
  · rintro ⟨hsame, named, hnamed, hne⟩
    rw [hsame, ht', Option.some.injEq] at ht
    rw [hsame, ht', Option.some.injEq] at hnamed
    subst ht hnamed
    exact ⟨hname.symm.trans hname', hname ▸ hne⟩
  · rintro ⟨hsame, hne⟩
    refine ⟨?_, t, ht, hname ▸ hne⟩
    rw [idOf?, hsame, ← idOf?, hid', Option.some.injEq] at hid
    exact hid.symm

end TagIndex

namespace TagFilter

/-- A filter excludes what has a canonical name in common with it, unless that name is empty. -/
theorem excludes_ofTags_iff {excluded raws : List String} :
    (ofTags excluded).excludes raws = true ↔
      ∃ x ∈ excluded, ∃ raw ∈ raws, tagName x = tagName raw ∧ tagName x ≠ "" := by
  rw [excludes_iff]
  constructor
  · rintro ⟨raw, hraw, hname⟩
    obtain ⟨hne, x, hx, hsame⟩ := mem_excluded_ofTags.1 hname
    exact ⟨x, hx, raw, hraw, hsame, hsame ▸ hne⟩
  · rintro ⟨x, hx, raw, hraw, hsame, hne⟩
    exact ⟨raw, hraw, mem_excluded_ofTags.2 ⟨hsame ▸ hne, x, hx, hsame⟩⟩

/-- Order and repeats do not matter. -/
theorem excludes_congr {excluded excluded' raws raws' : List String}
    (hexcluded : ∀ x, x ∈ excluded' ↔ x ∈ excluded) (hraws : ∀ raw, raw ∈ raws' ↔ raw ∈ raws) :
    (ofTags excluded').excludes raws' = (ofTags excluded).excludes raws := by
  rw [Bool.eq_iff_iff, excludes_ofTags_iff, excludes_ofTags_iff]
  simp only [hexcluded, hraws]

/-- A filter excludes a node just if one of its tags and one of the node's have the same canonical
name, which is not empty. In whatever index they are recorded, in whatever order and whatever is
recorded besides, this means that they get the same id, and that the tag of this id has a name. -/
theorem excludes_exact (excluded raws : List String) :
    ((ofTags excluded).excludes raws = true ↔
        ∃ x ∈ excluded, ∃ raw ∈ raws, tagName x = tagName raw ∧ tagName x ≠ "") ∧
      (∀ (ts : TagIndex) (ms : List Mention),
        (∀ c ∈ ts.answers ms, ∀ c' ∈ ts.answers ms, (ts.recordEach ms).1.IsOneTag c c' ↔
          tagName c.1.raw = tagName c'.1.raw ∧ tagName c.1.raw ≠ "") ∧
        ((∀ raw ∈ excluded ++ raws, ∃ m ∈ ms, m.raw = raw) →
          ((ofTags excluded).excludes raws = true ↔
            ∃ c ∈ ts.answers ms, ∃ c' ∈ ts.answers ms, c.1.raw ∈ excluded ∧ c'.1.raw ∈ raws ∧
              (ts.recordEach ms).1.IsOneTag c c'))) ∧
      ∀ excluded' raws' : List String, (∀ x, x ∈ excluded' ↔ x ∈ excluded) →
        (∀ raw, raw ∈ raws' ↔ raw ∈ raws) →
          (ofTags excluded').excludes raws' = (ofTags excluded).excludes raws := by
  refine ⟨excludes_ofTags_iff, fun ts ms => ⟨?_, fun hmentioned => ?_⟩, ?_⟩
  · exact fun c hc c' hc' => TagIndex.isOneTag_iff hc hc'
  · have hanswer : ∀ raw ∈ excluded ++ raws, ∃ c ∈ ts.answers ms, c.1.raw = raw := by
      intro raw hraw
      obtain ⟨m, hm, hmraw⟩ := hmentioned raw hraw
      obtain ⟨id, hid⟩ : ∃ id, (m, id) ∈ ts.answers ms := TagIndex.exists_mem_answers hm
      exact ⟨(m, id), hid, hmraw⟩
    rw [excludes_ofTags_iff]
    constructor
    · rintro ⟨x, hx, raw, hraw, hname⟩
      obtain ⟨c, hc, rfl⟩ := hanswer x (List.mem_append_left _ hx)
      obtain ⟨c', hc', rfl⟩ := hanswer raw (List.mem_append_right _ hraw)
      exact ⟨c, hc, c', hc', hx, hraw, (TagIndex.isOneTag_iff hc hc').2 hname⟩
    · rintro ⟨c, hc, c', hc', hx, hraw, hone⟩
      exact ⟨c.1.raw, hx, c'.1.raw, hraw, (TagIndex.isOneTag_iff hc hc').1 hone⟩
  · exact fun excluded' raws' hexcluded hraws => excludes_congr hexcluded hraws

/-- Two spellings of a tag are one tag in an index that has another one already. A marker and a
blank get the same id too, but that of the empty name. -/
theorem excludes_exact_slow :
    let mention (raw : String) : Mention := ⟨raw, .feature ⟨0⟩, ⟨⟨"meals.feature"⟩, 1⟩⟩
    let ts := (TagIndex.empty.recordEach [mention "@@slow"]).1
    let ms := ["slow", "@", " @slow ", " "].map mention
    (ofTags ["@", " @slow "]).excludes ["slow", " "] = true ∧
      (ts.recordEach ms).1.IsOneTag (mention " @slow ", ⟨1⟩) (mention "slow", ⟨1⟩) ∧
      (mention "@", ⟨2⟩) ∈ ts.answers ms ∧ (mention " ", ⟨2⟩) ∈ ts.answers ms ∧
      ¬(ts.recordEach ms).1.IsOneTag (mention "@", ⟨2⟩) (mention " ", ⟨2⟩) ∧
      (ofTags [" @slow ", "@", "@"]).excludes [" ", "slow"] = true := by
  intro mention ts ms
  obtain ⟨-, hindex, hlists⟩ := excludes_exact ["@", " @slow "] ["slow", " "]
  obtain ⟨hone, hexcludes⟩ := hindex ts ms
  have hfirst : (mention " @slow ", ⟨1⟩) ∈ ts.answers ms := by decide
  have hsecond : (mention "slow", ⟨1⟩) ∈ ts.answers ms := by decide
  have hmarker : (mention "@", ⟨2⟩) ∈ ts.answers ms := by decide
  have hblank : (mention " ", ⟨2⟩) ∈ ts.answers ms := by decide
  have hslow := (hone _ hfirst _ hsecond).2 ⟨by decide, by decide⟩
  have hexcluded : (ofTags ["@", " @slow "]).excludes ["slow", " "] = true :=
    (hexcludes (by decide)).2 ⟨_, hfirst, _, hsecond, by decide, by decide, hslow⟩
  have hempty := fun h => ((hone _ hmarker _ hblank).1 h).2 (by decide)
  refine ⟨hexcluded, hslow, hmarker, hblank, hempty, ?_⟩
  rw [hlists [" @slow ", "@", "@"] [" ", "slow"] (by simp [or_comm]) (by simp [or_comm])]
  exact hexcluded

end TagFilter

end FeatureAtlas
