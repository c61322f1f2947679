import FeatureAtlas.Proofs.Bearers
import FeatureAtlas.Proofs.Runs
import FeatureAtlas.Proofs.Transcript

/-!
# Nothing is lost

Whatever becomes of a delivery, the atlas keeps what it had: every node under its id and just as it
was, and every tag under its id and its name, with its owners and occurrences in front of those that
were added. All that was added to a tag is in the document that was delivered. `Atlas.GrowsIn` says
this of two atlases; the index grows mention by mention, and the nodes block by block.
-/

namespace FeatureAtlas

/-- A tag that may have been noted more often, each further time in the given document. -/
structure Tag.ContinuesIn (document : Path) (t t' : Tag) : Prop where
  name_eq : t'.name = t.name
  value_eq : t'.value = t.value
  owners : t.owners <+: t'.owners
  occurrences : ∃ more, t'.occurrences = t.occurrences ++ more ∧ ∀ o ∈ more, o.document = document

/-- An index to which mentions in the given document may have been added. -/
structure TagIndex.GrowsIn (document : Path) (ts ts' : TagIndex) : Prop where
  tag : ∀ id t, ts.get? id = some t → ∃ t', ts'.get? id = some t' ∧ t.ContinuesIn document t'
  newTag : ∀ id t', ts.get? id = none → ts'.get? id = some t' →
    ∀ o ∈ t'.occurrences, o.document = document
  found : ∀ raw id, ts.idOf? raw = some id → ts'.idOf? raw = some id

/-- An atlas to which nodes and tags of the given document may have been added. -/
structure Atlas.GrowsIn (document : Path) (a a' : Atlas) : Prop where
  feature : ∀ id n, a.feature? id = some n → a'.feature? id = some n
  scenario : ∀ id n, a.scenario? id = some n → a'.scenario? id = some n
  step : ∀ id s, a.step? id = some s → a'.step? id = some s
  tags : a.tags.GrowsIn document a'.tags

/-! ## Tags -/

variable {document : Path}

namespace Tag.ContinuesIn

theorem refl (t : Tag) : t.ContinuesIn document t :=
  ⟨rfl, rfl, List.prefix_rfl, [], by simp, by simp⟩

theorem trans {t t' t'' : Tag} (h : t.ContinuesIn document t') (h' : t'.ContinuesIn document t'') :
    t.ContinuesIn document t'' := by
  obtain ⟨more, hmore, hdocument⟩ := h.occurrences
  obtain ⟨more', hmore', hdocument'⟩ := h'.occurrences
  refine ⟨h'.name_eq.trans h.name_eq, h'.value_eq.trans h.value_eq, h.owners.trans h'.owners,
    more ++ more', by rw [hmore', hmore, List.append_assoc], fun o ho => ?_⟩
  exact (List.mem_append.1 ho).elim (hdocument o) (hdocument' o)

theorem record (t : Tag) (owner : TagOwner) {occurrence : Occurrence}
    (h : occurrence.document = document) :
    t.ContinuesIn document (t.record owner occurrence) := by
  refine ⟨rfl, rfl, ?_, [occurrence], rfl, by simpa using h⟩
  simp only [Tag.record]
  split
  · exact List.prefix_rfl
  · exact List.prefix_append _ _

end Tag.ContinuesIn

namespace TagIndex.GrowsIn

theorem refl (ts : TagIndex) : ts.GrowsIn document ts := by
  constructor
  case tag => exact fun id t ht => ⟨t, ht, .refl t⟩
  case newTag =>
    intro id t hnone ht
    rw [hnone] at ht
    cases ht
  case found => exact fun _ _ h => h

theorem trans {ts ts' ts'' : TagIndex} (h : ts.GrowsIn document ts')
    (h' : ts'.GrowsIn document ts'') : ts.GrowsIn document ts'' := by
  constructor
  case tag =>
    intro id t ht
    obtain ⟨t', ht', hcontinues⟩ := h.tag id t ht
    obtain ⟨t'', ht'', hcontinues'⟩ := h'.tag id t' ht'
    exact ⟨t'', ht'', hcontinues.trans hcontinues'⟩
  case newTag =>
    intro id t'' hnone ht'' o ho
    cases hbetween : ts'.get? id with
    | none => exact h'.newTag id t'' hbetween ht'' o ho
    | some t' =>
      obtain ⟨_, hsame, hcontinues⟩ := h'.tag id t' hbetween
      obtain rfl := Option.some.inj (hsame.symm.trans ht'')
      obtain ⟨more, hmore, hdocument⟩ := hcontinues.occurrences
      rw [hmore, List.mem_append] at ho
      exact ho.elim (h.newTag id t' hnone hbetween o) (hdocument o)
  case found => exact fun raw id hid => h'.found raw id (h.found raw id hid)

/-- One more mention in the document. -/
theorem record (ts : TagIndex) (raw : String) (owner : TagOwner) {occurrence : Occurrence}
    (h : occurrence.document = document) :
    ts.GrowsIn document (ts.record raw owner occurrence).1 := by
  obtain ⟨before, -, hbefore, hget⟩ := ts.exists_record raw owner occurrence
  constructor
  case tag =>
    intro id t ht
    by_cases hid : id = (ts.record raw owner occurrence).2
    · have hsame : before = t := by
        subst hid
        rcases hbefore with hsome | ⟨hnone, -, -⟩
        · exact Option.some.inj (hsome.symm.trans ht)
        · cases hnone.symm.trans ht
      refine ⟨before.record owner occurrence, by rw [hget, if_pos hid], ?_⟩
      exact hsame ▸ .record before owner h
    · exact ⟨t, by rw [hget, if_neg hid, ht], .refl t⟩
  case newTag =>
    intro id t' hnone ht' o ho
    by_cases hid : id = (ts.record raw owner occurrence).2
    · rw [hget, if_pos hid, Option.some.injEq] at ht'
      have hfresh : before = Tag.fresh raw := by
        subst hid
        rcases hbefore with hsome | ⟨-, -, hfresh⟩
        · cases hnone.symm.trans hsome
        · exact hfresh
      rw [← ht', hfresh, Tag.occurrences_record, List.mem_append, List.mem_singleton] at ho
      rcases ho with hold | rfl
      · cases hold
      · exact h
    · rw [hget, if_neg hid, hnone] at ht'
      cases ht'
  case found =>
    exact fun _ _ hid => idNamed?_of_prefix (ts.names_prefix_record raw owner occurrence) hid

/-- Any number of mentions in the document. -/
theorem recordEach (ts : TagIndex) {ms : List Mention}
    (h : ∀ m ∈ ms, m.occurrence.document = document) :
    ts.GrowsIn document (ts.recordEach ms).1 := by
  induction ms generalizing ts with
  | nil => exact .refl ts
  | cons m ms ih =>
    have hfirst := record ts m.raw m.owner (h m List.mem_cons_self)
    exact hfirst.trans (ih _ fun m' hm' => h m' (List.mem_cons_of_mem m hm'))

end TagIndex.GrowsIn

/-! ## Features and documents -/

theorem ChildPlan.document_of_mem_bearers (document : Path) (id : ScenarioId)
    (cs : List ChildPlan) : ∀ b ∈ bearers document id cs, b.place.document = document := by
  induction cs generalizing id with
  | nil => simp [bearers]
  | cons c cs ih =>
    cases c with
    | excluded kind title line => exact ih id
    | kept b =>
      exact List.forall_mem_cons.2 ⟨rfl, ih _⟩

/-- Mentions of nodes in the document. -/
theorem TagIndex.growsIn_recordEach_mentions (ts : TagIndex) {bs : List Bearer}
    (h : ∀ b ∈ bs, b.place.document = document) :
    ts.GrowsIn document (ts.recordEach (bs.flatMap Bearer.mentions)).1 := by
  refine .recordEach ts fun m hm => ?_
  obtain ⟨b, hb, hmb⟩ := List.mem_flatMap.1 hm
  rw [(Bearer.mem_mentions.1 hmb).2.2]
  exact h b hb

/-- Blocks are added to what is there. -/
theorem Growth.growsIn_addAll (g : Growth) (document : Path) (cs : List ChildPlan) :
    g.atlas.GrowsIn document (g.addAll document cs).atlas := by
  have hextends := g.extends_addAll document cs
  constructor
  case feature =>
    intro id n hn
    rw [Atlas.feature?, features_addAll]
    exact hn
  case scenario => exact hextends.scenario
  case step => exact hextends.step
  case tags =>
    rw [tags_addAll]
    exact g.atlas.tags.growsIn_recordEach_mentions (ChildPlan.document_of_mem_bearers document _ cs)

namespace Atlas

namespace GrowsIn

theorem refl (a : Atlas) : a.GrowsIn document a :=
  ⟨fun _ _ h => h, fun _ _ h => h, fun _ _ h => h, .refl a.tags⟩

theorem trans {a a' a'' : Atlas} (h : a.GrowsIn document a') (h' : a'.GrowsIn document a'') :
    a.GrowsIn document a'' := by
  constructor
  case feature => exact fun id n hn => h'.feature id n (h.feature id n hn)
  case scenario => exact fun id n hn => h'.scenario id n (h.scenario id n hn)
  case step => exact fun id s hs => h'.step id s (h.step id s hs)
  case tags => exact h.tags.trans h'.tags

end GrowsIn

/-- The node of a feature is added to what is there. -/
theorem growsIn_close (g : Growth) (f : Feature) : g.atlas.GrowsIn document (g.close f) := by
  constructor
  case feature =>
    intro id n hn
    have hne : id ≠ g.atlas.features.nextId := by
      rintro rfl
      exact Nat.lt_irrefl _ (Arena.lt_size_of_get? hn)
    exact (Arena.get?_push _ _ id).trans ((if_neg hne).trans hn)
  case scenario => exact fun _ _ hn => hn
  case step => exact fun _ _ hs => hs
  case tags => exact .refl g.atlas.tags

/-- The tags of a feature, its blocks and its own node are added in this order. -/
theorem growsIn_addFeature (a : Atlas) (document : Path) (p : FeaturePlan) :
    a.GrowsIn document (a.addFeature document p) := by
  let start := (p.start a document).1
  have hstart : a.GrowsIn document start.atlas := by
    refine ⟨fun _ _ h => h, fun _ _ h => h, fun _ _ h => h, ?_⟩
    simp only [start, p.start_eq]
    exact .recordEach a.tags fun m hm => by rw [(Bearer.mem_mentions.1 hm).2.2]; rfl
  exact (hstart.trans (start.growsIn_addAll document p.children)).trans (growsIn_close _ _)

theorem growsIn_addDocument (a : Atlas) (d : Document) (filter : TagFilter) :
    a.GrowsIn d.path (a.addDocument d filter).atlas := by
  rw [addDocument_eq_carryOut]
  cases d.plan filter with
  | noFeature => exact .refl a
  | excluded title => exact .refl a
  | feature plan failure =>
    cases failure <;> exact a.growsIn_addFeature d.path plan

end Atlas

/-- A delivery only adds to the atlas, whether it is made or was made before, and whether its
document is added, left out, or ends at a ragged table. -/
theorem Delivery.growsIn_perform (d : Delivery) (a : Atlas) :
    a.GrowsIn d.document.path (d.perform a).2.atlas := by
  rcases d.cases_perform a with hsame | hadd
  · rw [hsame]
    exact .refl a
  · rw [hadd]
    exact a.growsIn_addDocument d.document d.filter

end FeatureAtlas
