import FeatureAtlas.Proofs.TagNames
import Mathlib.Data.List.Forall2

/-!
# The index as a record of mentions

A `Mention` is one call to the index: a raw tag, who carries it, and where. After any number of them
the index is a map from canonical names to mentions. `TagIndex.Holds` says what it holds then: the
names in the order in which they were first mentioned, and under each name just what its mentions
say. The order of the names gives the ids, and so the answers to the calls can be told from the
mentions alone.
-/

namespace FeatureAtlas

/-- A raw tag with the node that carries it and the place of that node. -/
structure Mention where
  raw : String
  owner : TagOwner
  occurrence : Occurrence
deriving DecidableEq, Repr

namespace Mention

/-- The canonical name of the tag that is mentioned. -/
def name (m : Mention) : String := tagName m.raw

/-- The names that are mentioned, each once, in the order in which they first are. -/
def names (ms : List Mention) : List String := (ms.map name).eraseDups

/-- The mentions of one name. -/
def named (ms : List Mention) (name : String) : List Mention := ms.filter (·.name = name)

/-- What the mentions of a name say of its tag. -/
def tag (ms : List Mention) (name : String) : Tag where
  name := name
  value := "@" ++ name
  owners := ((named ms name).map (·.owner)).eraseDups
  occurrences := (named ms name).map (·.occurrence)

theorem mem_names {ms : List Mention} {name : String} :
    name ∈ names ms ↔ ∃ m ∈ ms, m.name = name := by
  rw [names, List.mem_eraseDups, List.mem_map]

theorem nodup_names (ms : List Mention) : (names ms).Nodup := nodup_eraseDups _

theorem names_append_singleton (ms : List Mention) (m : Mention) :
    names (ms ++ [m]) = if m.name ∈ names ms then names ms else names ms ++ [m.name] := by
  simp only [names, List.map_append, List.map_singleton, eraseDups_append_singleton,
    List.mem_eraseDups]

/-- One more mention of a name is recorded with its tag. -/
theorem tag_append_singleton (ms : List Mention) (m : Mention) :
    tag (ms ++ [m]) m.name = (tag ms m.name).record m.owner m.occurrence := by
  have hnamed : named (ms ++ [m]) m.name = named ms m.name ++ [m] := by
    simp [named]
  simp only [tag, hnamed, List.map_append, List.map_singleton, eraseDups_append_singleton,
    Tag.record, List.mem_eraseDups]

theorem tag_append_singleton_of_ne (ms : List Mention) {m : Mention} {name : String}
    (hne : m.name ≠ name) : tag (ms ++ [m]) name = tag ms name := by
  have hnamed : named (ms ++ [m]) name = named ms name := by
    simp [named, hne]
  simp only [tag, hnamed]

theorem named_eq_nil {ms : List Mention} {name : String} (h : name ∉ names ms) :
    named ms name = [] := by
  rw [named, List.filter_eq_nil_iff]
  intro m hm hname
  exact h (mem_names.2 ⟨m, hm, by simpa using hname⟩)

/-- A name that was not mentioned has a fresh tag. -/
theorem tag_of_not_mem {ms : List Mention} {raw : String} (h : tagName raw ∉ names ms) :
    tag ms (tagName raw) = Tag.fresh raw := by
  simp [tag, named_eq_nil h, Tag.fresh, Tag.spelling_eq]

end Mention

namespace TagIndex

/-- Record mentions in order. The ids are in the same order, repeats included. -/
def recordEach (ts : TagIndex) : List Mention → TagIndex × List TagId
  | [] => (ts, [])
  | m :: ms =>
    let (ts, id) := ts.record m.raw m.owner m.occurrence
    let (ts, ids) := ts.recordEach ms
    (ts, id :: ids)

theorem recordEach_cons (ts : TagIndex) (m : Mention) (ms : List Mention) :
    ts.recordEach (m :: ms) =
      let first := ts.record m.raw m.owner m.occurrence
      ((first.1.recordEach ms).1, first.2 :: (first.1.recordEach ms).2) := rfl

theorem recordEach_append (ts : TagIndex) (ms more : List Mention) :
    ts.recordEach (ms ++ more) =
      (((ts.recordEach ms).1.recordEach more).1,
        (ts.recordEach ms).2 ++ ((ts.recordEach ms).1.recordEach more).2) := by
  induction ms generalizing ts with
  | nil => rfl
  | cons m ms ih =>
    simp only [List.cons_append, recordEach_cons, ih]

theorem names_prefix_recordEach (ts : TagIndex) (ms : List Mention) :
    ts.names <+: (ts.recordEach ms).1.names := by
  induction ms generalizing ts with
  | nil => exact List.prefix_rfl
  | cons m ms ih => exact (ts.names_prefix_record _ _ _).trans (ih _)

/-- Mentions are found under the ids that recording them returned. -/
theorem forall₂_recordEach (ts : TagIndex) (ms : List Mention) :
    List.Forall₂ (fun m id => (ts.recordEach ms).1.idOf? m.raw = some id) ms
      (ts.recordEach ms).2 := by
  induction ms generalizing ts with
  | nil => exact .nil
  | cons m ms ih =>
    have hfirst := idNamed?_of_prefix
      ((ts.record m.raw m.owner m.occurrence).1.names_prefix_recordEach ms)
      (ts.idOf?_record m.raw m.owner m.occurrence)
    exact .cons hfirst (ih _)

/-! ## What the index holds -/

/-- The index holds what mentions say, and nothing else. -/
structure Holds (ts : TagIndex) (ms : List Mention) : Prop where
  names : ts.names = Mention.names ms
  tag : ∀ id t, ts.get? id = some t → t = Mention.tag ms t.name

namespace Holds

variable {ts : TagIndex} {ms : List Mention}

theorem size_eq (h : ts.Holds ms) : ts.size = (Mention.names ms).length := by
  rw [← h.names, TagIndex.names, List.length_map, Arena.length_toList]
  rfl

theorem nodup_names (h : ts.Holds ms) : ts.names.Nodup := by
  rw [h.names]
  exact Mention.nodup_names ms

/-- One more mention. -/
theorem record (h : ts.Holds ms) (m : Mention) :
    (ts.record m.raw m.owner m.occurrence).1.Holds (ms ++ [m]) := by
  let recorded := ts.record m.raw m.owner m.occurrence
  obtain ⟨before, hname, hbefore, hget⟩ := ts.exists_record m.raw m.owner m.occurrence
  have hnames : recorded.1.names = Mention.names (ms ++ [m]) := by
    rw [names_record, Mention.names_append_singleton, h.names]
    rfl
  refine ⟨hnames, fun id t ht => ?_⟩
  by_cases hid : id = recorded.2
  · rw [hget, if_pos hid, Option.some.injEq] at ht
    have hbefore' : before = Mention.tag ms m.name := by
      rcases hbefore with hsome | ⟨-, hnew, hfresh⟩
      · exact (h.tag _ before hsome).trans (congrArg _ hname)
      · rw [h.names] at hnew
        exact hfresh.trans (Mention.tag_of_not_mem hnew).symm
    rw [← ht, Tag.name_record, hbefore']
    exact (Mention.tag_append_singleton ms m).symm
  · have hne : m.name ≠ t.name := by
      intro hsame
      have hnodup : recorded.1.names.Nodup := by
        rw [hnames]
        exact Mention.nodup_names _
      have hfound : recorded.1.idOf? m.raw = some id := by
        refine (idNamed?_eq_some_iff hnodup).2 ?_
        rw [← map_name_get?, ht]
        exact congrArg some hsame.symm
      exact hid (Option.some.inj (hfound.symm.trans (ts.idOf?_record _ _ _)))
    rw [hget, if_neg hid] at ht
    rw [Mention.tag_append_singleton_of_ne ms hne]
    exact h.tag id t ht

end Holds

theorem holds_empty : TagIndex.empty.Holds [] :=
  ⟨rfl, fun _ _ ht => by cases ht⟩

/-- Whatever is recorded is held with what was held before. -/
theorem Holds.recordEach {ts : TagIndex} {ms : List Mention} (h : ts.Holds ms)
    (more : List Mention) : (ts.recordEach more).1.Holds (ms ++ more) := by
  induction more generalizing ts ms with
  | nil => rwa [List.append_nil]
  | cons m more ih =>
    have hrest := ih (h.record m)
    rwa [List.append_assoc] at hrest

/-- After mentions are recorded in the empty index, it holds them. -/
theorem holds_recordEach (ms : List Mention) : (TagIndex.empty.recordEach ms).1.Holds ms :=
  holds_empty.recordEach ms

/-! ## The tags by name -/

theorem perm_byName (ts : TagIndex) : ts.byName.Perm ts.tags.toList :=
  List.mergeSort_perm _ _

/-- Tags of different names are in strictly increasing order. -/
theorem pairwise_byName {ts : TagIndex} (hnodup : ts.names.Nodup) :
    ts.byName.Pairwise (·.name < ·.name) := by
  have htrans (s t u : Tag) (hst : decide (s.name ≤ t.name) = true)
      (htu : decide (t.name ≤ u.name) = true) : decide (s.name ≤ u.name) = true := by
    rw [decide_eq_true_eq] at hst htu ⊢
    exact String.le_trans hst htu
  have htotal (s t : Tag) : (decide (s.name ≤ t.name) || decide (t.name ≤ s.name)) = true := by
    simpa using String.le_total s.name t.name
  have hsorted : ts.byName.Pairwise (·.name ≤ ·.name) :=
    (List.pairwise_mergeSort htrans htotal ts.tags.toList).imp fun hle => by simpa using hle
  have hne : ts.byName.Pairwise (·.name ≠ ·.name) := by
    have hnames : (ts.byName.map Tag.name).Nodup := (ts.perm_byName.map Tag.name).nodup_iff.2 hnodup
    exact List.pairwise_map.1 hnames
  refine (hsorted.and hne).imp fun {s t} hst => ?_
  exact Decidable.byContradiction fun hlt =>
    hst.2 (String.le_antisymm hst.1 (String.not_lt.1 hlt))

/-! ## Answers -/

/-- The mentions that an id answers. -/
def mentionsOf (ms : List Mention) (ids : List TagId) (id : TagId) : List Mention :=
  ((ms.zip ids).filter (·.2 = id)).map (·.1)

/-- What the index answers to mentions, and to questions after them. -/
structure Answers (ts : TagIndex) (ms : List Mention) (ids : List TagId) : Prop where
  length_eq : ids.length = ms.length
  /-- Mentions get the same id just if they have the same canonical name. -/
  eq_iff : ∀ c ∈ ms.zip ids, ∀ c' ∈ ms.zip ids, c.2 = c'.2 ↔ c.1.name = c'.1.name
  /-- New ids are counted from zero. -/
  eraseDups_eq : ids.eraseDups = (List.range ts.size).map NodeId.mk
  /-- What is found by a name is the id that mentions of that name got. -/
  found_iff : ∀ raw id, ts.idOf? raw = some id ↔ ∃ m, (m, id) ∈ ms.zip ids ∧ m.name = tagName raw
  nodup_names : ts.names.Nodup
  /-- Every id is that of a tag with the name that was mentioned. -/
  named : ∀ c ∈ ms.zip ids, (ts.get? c.2).map (·.name) = some c.1.name
  occurrences_eq : ∀ id t, ts.get? id = some t →
    t.occurrences = (mentionsOf ms ids id).map (·.occurrence)
  owners_eq : ∀ id t, ts.get? id = some t →
    t.owners = ((mentionsOf ms ids id).map (·.owner)).eraseDups
  /-- However a tag was first written, it is found by its value. -/
  value_eq : ∀ id t, ts.get? id = some t → t.value = "@" ++ t.name ∧ ts.idOf? t.value = some id
  byName_perm : ts.byName.Perm ts.tags.toList
  byName_increasing : ts.byName.Pairwise (·.name < ·.name)
  /-- The tags alone say what is found. -/
  determined : ∀ other : TagIndex, other.tags = ts.tags → ∀ raw, other.idOf? raw = ts.idOf? raw

section

variable {ms : List Mention} {ids : List TagId}

/-- Mentions that get their ids by name are told apart by these as by their names. -/
theorem mentionsOf_eq_named (hlength : ids.length = ms.length) {id : TagId} {name : String}
    (h : ∀ c ∈ ms.zip ids, c.2 = id ↔ c.1.name = name) :
    mentionsOf ms ids id = Mention.named ms name := by
  have hfilter : (ms.zip ids).filter (·.2 = id) = (ms.zip ids).filter (·.1.name = name) :=
    List.filter_congr fun c hc => by simp only [h c hc]
  calc
    mentionsOf ms ids id = ((ms.zip ids).filter (·.1.name = name)).map (·.1) := by
      rw [mentionsOf, hfilter]
    _ = ((ms.zip ids).map (·.1)).filter (·.name = name) := by
      rw [List.filter_map]
      rfl
    _ = Mention.named ms name := by
      rw [List.map_fst_zip (Nat.le_of_eq hlength.symm)]
      rfl

/-- Ids that say where the names stand among all names are counted from zero. -/
theorem eraseDups_eq_range (hlength : ids.length = ms.length)
    (h : ∀ c ∈ ms.zip ids, (Mention.names ms)[c.2.index]? = some c.1.name) :
    ids.eraseDups = (List.range (Mention.names ms).length).map NodeId.mk := by
  let place (name : String) : TagId := ⟨(Mention.names ms).idxOf name⟩
  have hnodup := Mention.nodup_names ms
  have hids : ids = (ms.map Mention.name).map place := by
    have hzip : ∀ c ∈ ms.zip ids, c.2 = place c.1.name := by
      intro c hc
      obtain ⟨hlt, hname⟩ := List.getElem?_eq_some_iff.1 (h c hc)
      refine NodeId.ext ?_
      rw [← hname]
      exact (hnodup.idxOf_getElem _ hlt).symm
    calc
      ids = (ms.zip ids).map (·.2) := (List.map_snd_zip (Nat.le_of_eq hlength)).symm
      _ = (ms.zip ids).map (fun c => place c.1.name) := List.map_congr_left hzip
      _ = ((ms.zip ids).map (·.1)).map (fun m => place m.name) := by rw [List.map_map]; rfl
      _ = (ms.map Mention.name).map place := by
        rw [List.map_fst_zip (Nat.le_of_eq hlength.symm), List.map_map]
        rfl
  have hplace : ∀ x ∈ ms.map Mention.name, ∀ y ∈ ms.map Mention.name,
      place x = place y → x = y := by
    intro x hx y hy hxy
    exact (List.idxOf_inj (List.mem_eraseDups.2 hx)).1 (congrArg NodeId.index hxy)
  have hrange : (Mention.names ms).map place =
      (List.range (Mention.names ms).length).map NodeId.mk := by
    refine List.ext_getElem (by simp) fun i hi _ => ?_
    have hi' : i < (Mention.names ms).length := by simpa using hi
    rw [List.getElem_map, List.getElem_map, List.getElem_range]
    exact NodeId.ext (hnodup.idxOf_getElem i hi')
  calc
    ids.eraseDups = (ms.map Mention.name).eraseDups.map place := by
      rw [hids, eraseDups_map_of_injOn hplace]
    _ = _ := hrange

end

/-- Whatever is mentioned, the index is a map from canonical names to mentions. -/
theorem answers_recordEach (ms : List Mention) :
    (empty.recordEach ms).1.Answers ms (empty.recordEach ms).2 := by
  let ts := (empty.recordEach ms).1
  let ids := (empty.recordEach ms).2
  have hholds : ts.Holds ms := holds_recordEach ms
  have hnodup : ts.names.Nodup := hholds.nodup_names
  obtain ⟨hlength, hfound⟩ := List.forall₂_iff_zip.1 (empty.forall₂_recordEach ms)
  have hnamed : ∀ c ∈ ms.zip ids, ts.names[c.2.index]? = some c.1.name := fun c hc =>
    names_getElem?_of_idNamed? (hfound hc)
  have hiff {id : TagId} {name : String} (hid : ts.names[id.index]? = some name) :
      ∀ c ∈ ms.zip ids, c.2 = id ↔ c.1.name = name := by
    intro c hc
    have hc' := hnamed c hc
    constructor
    · rintro rfl
      rw [hid, Option.some.injEq] at hc'
      exact hc'.symm
    · rintro rfl
      have h := (idNamed?_eq_some_iff hnodup).2 hid
      rw [(idNamed?_eq_some_iff hnodup).2 hc', Option.some.injEq] at h
      exact h
  have hmentioned {id : TagId} {name : String} (hid : ts.names[id.index]? = some name) :
      ∃ m ∈ ms, m.name = name := by
    refine Mention.mem_names.1 ?_
    rw [← hholds.names]
    exact List.mem_of_getElem? hid
  have hname {id : TagId} {t : Tag} (ht : ts.get? id = some t) :
      ts.names[id.index]? = some t.name := by
    rw [← map_name_get?, ht]
    rfl
  have hcalls {id : TagId} {t : Tag} (ht : ts.get? id = some t) :
      mentionsOf ms ids id = Mention.named ms t.name :=
    mentionsOf_eq_named hlength.symm (hiff (hname ht))
  constructor
  case length_eq => exact hlength.symm
  case eq_iff => exact fun c hc c' hc' => hiff (hnamed c' hc') c hc
  case eraseDups_eq =>
    rw [hholds.size_eq]
    refine eraseDups_eq_range hlength.symm fun c hc => ?_
    rw [← hholds.names]
    exact hnamed c hc
  case found_iff =>
    intro raw id
    have hlookup : ts.idOf? raw = some id ↔ ts.names[id.index]? = some (tagName raw) :=
      idNamed?_eq_some_iff hnodup
    rw [hlookup]
    constructor
    · intro hid
      obtain ⟨m, hm, hmname⟩ := hmentioned hid
      rw [← List.map_fst_zip (Nat.le_of_eq hlength)] at hm
      obtain ⟨c, hc, rfl⟩ := List.mem_map.1 hm
      exact ⟨c.1, (hiff hid c hc).2 hmname ▸ hc, hmname⟩
    · rintro ⟨m, hm, hmname⟩
      rw [← hmname]
      exact hnamed _ hm
  case nodup_names => exact hnodup
  case named =>
    intro c hc
    rw [map_name_get?]
    exact hnamed c hc
  case occurrences_eq =>
    intro id t ht
    rw [hcalls ht]
    exact congrArg Tag.occurrences (hholds.tag id t ht)
  case owners_eq =>
    intro id t ht
    rw [hcalls ht]
    exact congrArg Tag.owners (hholds.tag id t ht)
  case value_eq =>
    intro id t ht
    have hvalue : t.value = "@" ++ t.name := congrArg Tag.value (hholds.tag id t ht)
    refine ⟨hvalue, (idNamed?_eq_some_iff hnodup).2 ?_⟩
    obtain ⟨m, -, hm⟩ := hmentioned (hname ht)
    rw [hname ht, hvalue, ← hm]
    exact congrArg some (tagName_marked m.raw).symm
  case byName_perm => exact ts.perm_byName
  case byName_increasing => exact pairwise_byName hnodup
  case determined =>
    intro other hother raw
    rw [idOf?, idOf?, idNamed?_eq_names, idNamed?_eq_names, names, names, hother]

/-- Two spellings of one tag, and a tag whose name starts with the marker. -/
example :
    let place : Occurrence := ⟨⟨"meals.feature"⟩, 1⟩
    let mention (raw : String) : Mention := ⟨raw, .feature ⟨0⟩, place⟩
    (empty.recordEach (["fast", "@@fast", " @fast"].map mention)).2 = [⟨0⟩, ⟨1⟩, ⟨0⟩] := by
  decide

end TagIndex

end FeatureAtlas
