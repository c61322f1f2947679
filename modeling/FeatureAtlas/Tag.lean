import FeatureAtlas.Arena
import FeatureAtlas.Path
import FeatureAtlas.Text.Blank

/-!
# Tags

A tag is written with a marker, `@`, and known by its canonical name, which has neither the marker
nor the blanks around it. `Tag` is what is known of one tag over all documents.
-/

namespace FeatureAtlas

/-- The character that introduces a tag. -/
def markerChar : Char := '@'

/-- The characters without one marker at the start. -/
def dropMarker : List Char → List Char
  | '@' :: cs => cs
  | cs => cs

/-- The name by which a tag is known: without blanks around it, then without one marker. -/
def tagName (raw : String) : String :=
  String.ofList (dropMarker (Text.trimChars raw.toList))

@[simp] theorem toList_tagName (raw : String) :
    (tagName raw).toList = dropMarker (Text.trimChars raw.toList) := by
  simp [tagName]

theorem isBlank_markerChar : Text.isBlank markerChar = false := by decide

/-- A canonical name has no blanks at its end. -/
theorem dropBlanksEnd_toList_tagName (raw : String) :
    Text.dropBlanksEnd (tagName raw).toList = (tagName raw).toList := by
  have htrim : Text.dropBlanksEnd (Text.trimChars raw.toList) = Text.trimChars raw.toList :=
    Text.dropBlanksEnd_dropBlanksEnd _
  rw [toList_tagName]
  unfold dropMarker
  split
  · next cs hcs =>
    have hcons := Text.dropBlanksEnd_cons isBlank_markerChar cs
    rw [hcs] at htrim
    exact (List.cons.inj (hcons.symm.trans htrim)).2
  · exact htrim

/-- A canonical name with the marker in front has itself as its canonical name. -/
theorem tagName_marked (raw : String) : tagName ("@" ++ tagName raw) = tagName raw := by
  have hchars : ("@" ++ tagName raw).toList = markerChar :: (tagName raw).toList := by
    simp [markerChar]
  have htrim : Text.trimChars (markerChar :: (tagName raw).toList) =
      markerChar :: (tagName raw).toList := by
    rw [Text.trimChars, Text.dropBlanks_cons, isBlank_markerChar, if_neg Bool.false_ne_true,
      Text.dropBlanksEnd_cons isBlank_markerChar, dropBlanksEnd_toList_tagName]
  refine String.toList_injective ?_
  rw [toList_tagName, hchars, htrim]
  rfl

/-- The nodes that can carry tags. -/
inductive TagOwner where
  | feature (id : FeatureId)
  | scenario (id : ScenarioId)
deriving DecidableEq, Repr

/-- A place where a tag was seen: the document, and the line of the node that carries it. -/
structure Occurrence where
  document : Path
  line : Nat
deriving DecidableEq, Repr

/-- A tag with the nodes that carry it, each once, and all its occurrences. -/
structure Tag where
  name : String
  value : String
  owners : List TagOwner
  occurrences : List Occurrence
deriving DecidableEq, Repr

namespace Tag

/-- The spelling of a tag: as it was first written, with the marker in front if it lacked it. -/
def spelling (raw : String) : String :=
  if (Text.dropBlanks raw.toList).head? = some markerChar then Text.trim raw
  else String.ofList (markerChar :: (tagName raw).toList)

/-- However a tag was first written, its spelling is its canonical name with the marker in front. -/
theorem spelling_eq (raw : String) : spelling raw = "@" ++ tagName raw := by
  refine String.toList_injective ?_
  rw [String.toList_append, toList_tagName]
  unfold spelling
  split
  · next hmarked =>
    obtain ⟨cs, hcs⟩ := List.head?_eq_some_iff.1 hmarked
    rw [Text.toList_trim, Text.trimChars, hcs, Text.dropBlanksEnd_cons isBlank_markerChar]
    rfl
  · simp [markerChar]

/-- A tag that was not seen before. -/
def fresh (raw : String) : Tag :=
  ⟨tagName raw, spelling raw, [], []⟩

/-- Note one more occurrence; an owner is listed once. -/
def record (t : Tag) (owner : TagOwner) (occurrence : Occurrence) : Tag :=
  { t with
    owners := if owner ∈ t.owners then t.owners else t.owners ++ [owner]
    occurrences := t.occurrences ++ [occurrence] }

@[simp] theorem name_record (t : Tag) (owner : TagOwner) (occurrence : Occurrence) :
    (t.record owner occurrence).name = t.name := rfl

@[simp] theorem value_record (t : Tag) (owner : TagOwner) (occurrence : Occurrence) :
    (t.record owner occurrence).value = t.value := rfl

@[simp] theorem occurrences_record (t : Tag) (owner : TagOwner) (occurrence : Occurrence) :
    (t.record owner occurrence).occurrences = t.occurrences ++ [occurrence] := rfl

theorem mem_owners_record {t : Tag} {owner other : TagOwner} {occurrence : Occurrence} :
    other ∈ (t.record owner occurrence).owners ↔ other ∈ t.owners ∨ other = owner := by
  simp only [record]
  split <;> grind

theorem nodup_owners_record {t : Tag} (h : t.owners.Nodup) (owner : TagOwner)
    (occurrence : Occurrence) : (t.record owner occurrence).owners.Nodup := by
  by_cases howner : owner ∈ t.owners
  · simpa [record, howner] using h
  · simp only [record, if_neg howner, List.nodup_append, List.mem_singleton]
    refine ⟨h, List.pairwise_singleton _ owner, ?_⟩
    rintro n hn m rfl rfl
    exact howner hn

end Tag

end FeatureAtlas
