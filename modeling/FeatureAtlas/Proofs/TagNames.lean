import FeatureAtlas.Proofs.Repeats
import FeatureAtlas.Tag.Index
import Mathlib.Data.List.Basic
import Mathlib.Data.List.Infix

/-!
# Names in the tag index

Recording tags only ever adds names at the end, so a name that was found is found under the same id
for good. The ids that recording returns are those under which the names are found afterwards, and
so repeated ids are repeated names.
-/

namespace FeatureAtlas

/-- Where everything on a list is found, a map of the list is a map of what is found. -/
theorem map_eq_of_found {α β γ : Type} {look : α → Option β} {f : α → γ} {g : β → γ}
    {xs : List α} {ys : List β} (hfound : xs.map look = ys.map some)
    (hfg : ∀ x y, look x = some y → f x = g y) : xs.map f = ys.map g := by
  induction xs generalizing ys with
  | nil =>
    cases ys with
    | nil => rfl
    | cons y ys => cases hfound
  | cons x xs ih =>
    cases ys with
    | nil => cases hfound
    | cons y ys =>
      rw [List.map_cons, List.map_cons, List.cons.injEq] at hfound
      rw [List.map_cons, List.map_cons, hfg x y hfound.1, ih hfound.2]

namespace TagIndex

/-- The canonical names of the tags, in the order of their ids. -/
def names (ts : TagIndex) : List String :=
  ts.tags.toList.map (·.name)

theorem idNamed?_eq_names (ts : TagIndex) (name : String) :
    ts.idNamed? name = (ts.names.findIdx? (· == name)).map NodeId.mk :=
  ts.lookup_ids name

/-- The name of a tag, read off the names. -/
theorem map_name_get? (ts : TagIndex) (id : TagId) :
    (ts.get? id).map (·.name) = ts.names[id.index]? := by
  rw [names, List.getElem?_map, get?, Arena.get?_eq_toList]

theorem idNamed?_eq_none_iff {ts : TagIndex} {name : String} :
    ts.idNamed? name = none ↔ name ∉ ts.names := by
  rw [idNamed?_eq_names, Option.map_eq_none_iff, List.findIdx?_eq_none_iff]
  simp only [beq_eq_false_iff_ne, ne_eq]
  exact ⟨fun h hname => h name hname rfl, fun h other hother he => h (he ▸ hother)⟩

theorem names_getElem?_of_idNamed? {ts : TagIndex} {name : String} {id : TagId}
    (h : ts.idNamed? name = some id) : ts.names[id.index]? = some name := by
  rw [idNamed?_eq_names, Option.map_eq_some_iff] at h
  obtain ⟨i, hi, rfl⟩ := h
  obtain ⟨hlt, hname, -⟩ := List.findIdx?_eq_some_iff_getElem.1 hi
  rw [List.getElem?_eq_getElem hlt, beq_iff_eq.1 hname]

/-- While no two tags have the same name, a tag is found by name just where it has that name. -/
theorem idNamed?_eq_some_iff {ts : TagIndex} (hnodup : ts.names.Nodup) {name : String}
    {id : TagId} : ts.idNamed? name = some id ↔ ts.names[id.index]? = some name := by
  refine ⟨names_getElem?_of_idNamed?, fun hname => ?_⟩
  cases hfound : ts.idNamed? name with
  | none => exact absurd (List.mem_of_getElem? hname) (idNamed?_eq_none_iff.1 hfound)
  | some other =>
    have hother := names_getElem?_of_idNamed? hfound
    obtain ⟨hlt, -⟩ := List.getElem?_eq_some_iff.1 hother
    have hindex := (List.getElem?_inj hlt hnodup).1 (hother.trans hname.symm)
    rw [NodeId.ext hindex]

theorem exists_of_idNamed? {ts : TagIndex} {name : String} {id : TagId}
    (h : ts.idNamed? name = some id) : ∃ t, ts.get? id = some t ∧ t.name = name := by
  have hname := names_getElem?_of_idNamed? h
  rwa [← map_name_get?, Option.map_eq_some_iff] at hname

/-- A name is found under the same id when more names come after it. -/
theorem idNamed?_of_prefix {ts ts' : TagIndex} (h : ts.names <+: ts'.names) {name : String}
    {id : TagId} (hid : ts.idNamed? name = some id) : ts'.idNamed? name = some id := by
  obtain ⟨more, hmore⟩ := h
  rw [idNamed?_eq_names, Option.map_eq_some_iff] at hid ⊢
  obtain ⟨i, hi, rfl⟩ := hid
  refine ⟨i, ?_, rfl⟩
  rw [← hmore, List.findIdx?_append, hi, Option.some_or]

variable (ts : TagIndex) (raw : String) (owner : TagOwner) (occurrence : Occurrence)

/-- A name that the index does not have yet comes after the others. -/
theorem names_record : (ts.record raw owner occurrence).1.names =
    if tagName raw ∈ ts.names then ts.names else ts.names ++ [tagName raw] := by
  cases hid : ts.idOf? raw with
  | some id =>
    have hmem : tagName raw ∈ ts.names :=
      List.mem_of_getElem? (names_getElem?_of_idNamed? hid)
    simp only [record, hid]
    rw [if_pos hmem]
    exact map_name_modify ts.tags id fun _ => rfl
  | none =>
    have hnot : tagName raw ∉ ts.names := idNamed?_eq_none_iff.1 hid
    simp only [record, hid]
    rw [if_neg hnot]
    simp only [names, push, Arena.toList_push, List.map_append]
    rfl

theorem names_prefix_record : ts.names <+: (ts.record raw owner occurrence).1.names := by
  rw [names_record]
  split
  · exact List.prefix_rfl
  · exact List.prefix_append _ _

/-- A tag is found under the id that recording it returned. -/
theorem idOf?_record :
    (ts.record raw owner occurrence).1.idOf? raw = some (ts.record raw owner occurrence).2 := by
  cases hid : ts.idOf? raw with
  | some id =>
    have hsame : (ts.record raw owner occurrence).2 = id := by
      simp only [record, hid]
    rw [hsame]
    exact idNamed?_of_prefix (ts.names_prefix_record raw owner occurrence) hid
  | none =>
    have hfresh : (ts.record raw owner occurrence) =
        (ts.push ((Tag.fresh raw).record owner occurrence), ts.tags.nextId) := by
      simp only [record, hid]
    have hnone : ts.names.findIdx? (· == tagName raw) = none := by
      rw [idOf?, idNamed?_eq_names, Option.map_eq_none_iff] at hid
      exact hid
    rw [hfresh, idOf?, idNamed?_eq_names]
    simp only [names, push, Arena.toList_push, List.map_append]
    rw [List.findIdx?_append, ← names, hnone]
    simp [Tag.fresh, names, Arena.nextId]

/-- Recording changes one tag: one that is there already, or a new one. -/
theorem exists_record :
    let recorded := ts.record raw owner occurrence
    ∃ before : Tag, before.name = tagName raw ∧
      (ts.get? recorded.2 = some before ∨
        ts.get? recorded.2 = none ∧ tagName raw ∉ ts.names ∧ before = Tag.fresh raw) ∧
      ∀ id, recorded.1.get? id =
        if id = recorded.2 then some (before.record owner occurrence) else ts.get? id := by
  intro recorded
  cases hid : ts.idOf? raw with
  | some id =>
    have hrecorded :
        recorded = (ts.modify id (·.record owner occurrence) fun _ => rfl, id) := by
      simp only [recorded, record, hid]
    obtain ⟨before, hbefore, hname⟩ := exists_of_idNamed? hid
    refine ⟨before, hname, Or.inl ?_, fun other => ?_⟩
    · rw [hrecorded, hbefore]
    · rw [hrecorded]
      by_cases hother : other = id
      · subst hother
        have hbefore' : ts.tags.get? other = some before := hbefore
        simp [get?, modify, Arena.get?_modify, hbefore']
      · simp [get?, modify, Arena.get?_modify, hother, Ne.symm hother]
  | none =>
    have hrecorded : recorded =
        (ts.push ((Tag.fresh raw).record owner occurrence), ts.tags.nextId) := by
      simp only [recorded, record, hid]
    refine ⟨Tag.fresh raw, rfl, Or.inr ⟨?_, idNamed?_eq_none_iff.1 hid, rfl⟩, fun other => ?_⟩
    · rw [hrecorded]
      exact (Arena.get?_eq_none_iff _ _).2 (Nat.le_refl _)
    · rw [hrecorded]
      exact Arena.get?_push _ _ _

theorem names_prefix_recordAll (raws : List String) :
    ts.names <+: (ts.recordAll owner occurrence raws).1.names := by
  induction raws generalizing ts with
  | nil => exact List.prefix_rfl
  | cons raw raws ih => exact (ts.names_prefix_record raw owner occurrence).trans (ih _)

/-- The tags of one owner are found under the ids that recording them returned. -/
theorem map_idOf?_recordAll (raws : List String) :
    raws.map (ts.recordAll owner occurrence raws).1.idOf? =
      (ts.recordAll owner occurrence raws).2.map some := by
  induction raws generalizing ts with
  | nil => rfl
  | cons raw raws ih =>
    have hfirst := idNamed?_of_prefix
      ((ts.record raw owner occurrence).1.names_prefix_recordAll owner occurrence raws)
      (ts.idOf?_record raw owner occurrence)
    have hrest := ih (ts.record raw owner occurrence).1
    simp only [recordAll, List.map_cons]
    rw [← hrest, ← hfirst]
    rfl

/-- Every id that recording returned is that of a recorded name. -/
theorem exists_of_mem_recordAll {raws : List String} {id : TagId}
    (hid : id ∈ (ts.recordAll owner occurrence raws).2) :
    ∃ raw ∈ raws, (ts.recordAll owner occurrence raws).1.idOf? raw = some id := by
  have hmem := List.mem_map_of_mem (f := some) hid
  rw [← map_idOf?_recordAll] at hmem
  exact List.mem_map.1 hmem

/-- The tags that a node gets carry the names that were recorded for it, each once and in the
order in which they first appear. -/
theorem map_names_recordAll (raws : List String) :
    let recorded := ts.recordAll owner occurrence raws
    recorded.2.eraseDups.map (fun id => recorded.1.names[id.index]?) =
      (raws.map tagName).eraseDups.map some := by
  intro recorded
  let name? (id : TagId) : Option String := recorded.1.names[id.index]?
  have hname (raw : String) (id : TagId) (h : recorded.1.idOf? raw = some id) :
      name? id = some (tagName raw) := names_getElem?_of_idNamed? h
  have hinj : ∀ x ∈ recorded.2, ∀ y ∈ recorded.2, name? x = name? y → x = y := by
    intro x hx y hy hxy
    obtain ⟨r, -, hr⟩ := ts.exists_of_mem_recordAll owner occurrence hx
    obtain ⟨q, -, hq⟩ := ts.exists_of_mem_recordAll owner occurrence hy
    rw [hname r x hr, hname q y hq, Option.some.injEq] at hxy
    have hsame : recorded.1.idOf? r = recorded.1.idOf? q := by
      rw [idOf?, idOf?, hxy]
    rw [← Option.some.injEq, ← hr, ← hq, hsame]
  have hids : recorded.2.map name? = (raws.map tagName).map some := by
    rw [List.map_map]
    refine (map_eq_of_found (ts.map_idOf?_recordAll owner occurrence raws) ?_).symm
    exact fun raw id hid => (hname raw id hid).symm
  calc
    recorded.2.eraseDups.map name? = (recorded.2.map name?).eraseDups :=
      (eraseDups_map_of_injOn hinj).symm
    _ = ((raws.map tagName).map some).eraseDups := by rw [hids]
    _ = (raws.map tagName).eraseDups.map some :=
      eraseDups_map_of_injOn fun _ _ _ _ h => Option.some.inj h

end TagIndex

end FeatureAtlas
