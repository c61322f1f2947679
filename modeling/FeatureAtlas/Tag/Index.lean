import FeatureAtlas.Tag

/-!
# The tag index

All documents of a run share one index, which has one `Tag` for every canonical name. Recording a
raw tag finds its entry, or makes it, and notes who carries it and where. Tags are found through a
table of ids by name, which is kept beside the tags.
-/

namespace FeatureAtlas

/-- The tags seen so far, in the order in which their names first appeared, with their ids by name.
The table of ids leads to where the tags have the name, and nowhere else. -/
structure TagIndex where
  tags : Arena .tag Tag
  ids : List (String × TagId)
  lookup_ids : ∀ name, ids.lookup name =
    ((tags.toList.map (·.name)).findIdx? (· == name)).map NodeId.mk
deriving DecidableEq, Repr

namespace TagIndex

/-- The index without tags. -/
def empty : TagIndex := ⟨Arena.empty, [], fun _ => rfl⟩

instance : Inhabited TagIndex := ⟨empty⟩

/-- How many tags there are. -/
def size (ts : TagIndex) : Nat := ts.tags.size

/-- The tag of an id. -/
def get? (ts : TagIndex) (id : TagId) : Option Tag := ts.tags.get? id

/-- The id of the tag with exactly this canonical name. -/
def idNamed? (ts : TagIndex) (name : String) : Option TagId := ts.ids.lookup name

/-- The id of a tag, by its name with or without the marker. -/
def idOf? (ts : TagIndex) (raw : String) : Option TagId :=
  ts.idNamed? (tagName raw)

/-- A tag, by its name with or without the marker. -/
def tagOf? (ts : TagIndex) (raw : String) : Option Tag :=
  (ts.idOf? raw).bind ts.get?

theorem map_name_modify (tags : Arena .tag Tag) (id : TagId) {change : Tag → Tag}
    (hname : ∀ t, (change t).name = t.name) :
    (tags.modify id change).toList.map (·.name) = tags.toList.map (·.name) := by
  refine List.ext_getElem? fun i => ?_
  rw [Arena.toList_modify, List.getElem?_map, List.getElem?_map, List.getElem?_modify]
  cases tags.toList[i]? with
  | none => rfl
  | some t => by_cases hi : id.index = i <;> simp [hi, hname]

/-- Change the tag of an id, but for its name. -/
def modify (ts : TagIndex) (id : TagId) (change : Tag → Tag)
    (hname : ∀ t, (change t).name = t.name) : TagIndex where
  tags := ts.tags.modify id change
  ids := ts.ids
  lookup_ids name := by rw [map_name_modify ts.tags id hname, ts.lookup_ids]

/-- Add a tag; its id is found by its name if no earlier tag has that name. -/
def push (ts : TagIndex) (t : Tag) : TagIndex where
  tags := ts.tags.push t
  ids := ts.ids ++ [(t.name, ts.tags.nextId)]
  lookup_ids name := by
    have hlast : [(t.name, ts.tags.nextId)].lookup name =
        ([t.name].findIdx? (· == name)).map fun i => ⟨i + ts.tags.size⟩ := by
      by_cases hname : name = t.name
      · simp [hname, Arena.nextId]
      · have hlookup : (name == t.name) = false := by simpa using hname
        simp [List.lookup_cons, hlookup, Ne.symm hname]
    rw [List.lookup_append, ts.lookup_ids, hlast, Arena.toList_push, List.map_append,
      List.findIdx?_append, List.length_map, Arena.length_toList]
    cases (ts.tags.toList.map (·.name)).findIdx? (· == name) <;> simp

/-- Find or make the tag of a raw text, and note an occurrence with its owner. -/
def record (ts : TagIndex) (raw : String) (owner : TagOwner) (occurrence : Occurrence) :
    TagIndex × TagId :=
  match ts.idOf? raw with
  | some id => (ts.modify id (·.record owner occurrence) fun _ => rfl, id)
  | none => (ts.push ((Tag.fresh raw).record owner occurrence), ts.tags.nextId)

/-- Record the raw tags of one owner in order. The ids are in the same order, repeats included. -/
def recordAll (ts : TagIndex) (owner : TagOwner) (occurrence : Occurrence) :
    List String → TagIndex × List TagId
  | [] => (ts, [])
  | raw :: raws =>
    let (ts, id) := ts.record raw owner occurrence
    let (ts, ids) := ts.recordAll owner occurrence raws
    (ts, id :: ids)

/-- The tags by increasing name. -/
def byName (ts : TagIndex) : List Tag :=
  ts.tags.toList.mergeSort fun s t => decide (s.name ≤ t.name)

/-- The names among raw tags that the index does not have yet, each once, in the order in which
recording the tags adds them. -/
def newNames (ts : TagIndex) (raws : List String) : List String :=
  ((raws.map tagName).filter fun name => (ts.idNamed? name).isNone).eraseDups

end TagIndex

end FeatureAtlas
