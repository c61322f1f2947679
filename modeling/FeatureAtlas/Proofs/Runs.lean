import FeatureAtlas.Proofs.Addition

/-!
# Runs

A run starts with the atlas of no documents. It delivers documents under any filters, whether they
are added or fail half way, and edits steps in between. `Reachable.invariant` is how a property is
shown of every atlas on the way: it holds at the start, an edit keeps it, and so do the two things
that adding a document does, to open a feature and to add one block to it. Blocks are not arbitrary
then: they come from children of documents, and are listed by their feature as long as no document
fails; `Reachable.invariant_of_isOfChild` and `ReachableCleanly.invariant` are for what only such
blocks keep. `LeadsTo` is a run from any atlas on.
-/

namespace FeatureAtlas

/-- A change of steps that touches nothing but their texts, doc strings and tables. -/
def Step.IsEdit (change : Step → Step) : Prop :=
  ∀ s, ∃ text docString table,
    change s = { s with text := text, docString := docString, table := table }

theorem Step.isEdit_apply (change : StepChange) : Step.IsEdit (·.apply change) := by
  intro s
  cases change <;> exact ⟨_, _, _, rfl⟩

namespace Atlas

/-- An atlas that some run reaches. -/
inductive Reachable : Atlas → Prop where
  | empty : Reachable .empty
  | deliver {a : Atlas} (h : Reachable a) (d : Delivery) : Reachable (d.perform a).2.atlas
  | edit {a : Atlas} (h : Reachable a) (id : StepId) {change : Step → Step}
      (hedit : Step.IsEdit change) : Reachable { a with steps := a.steps.modify id change }

theorem Reachable.addDocument {a : Atlas} (h : Reachable a) (d : Document) (filter : TagFilter) :
    Reachable (a.addDocument d filter).atlas := by
  have hdeliver := h.deliver (Delivery.new d filter)
  rwa [Delivery.perform_new] at hdeliver

theorem Reachable.editStep {a : Atlas} (h : Reachable a) (id : StepId) (change : StepChange) :
    Reachable (a.editStep id change) :=
  h.edit id (Step.isEdit_apply change)

/-- An atlas that some run reaches by deliveries alone, whether documents fail or not. -/
inductive Delivered : Atlas → Prop where
  | empty : Delivered .empty
  | deliver {a : Atlas} (h : Delivered a) (d : Delivery) : Delivered (d.perform a).2.atlas

theorem Delivered.addDocument {a : Atlas} (h : Delivered a) (d : Document) (filter : TagFilter) :
    Delivered (a.addDocument d filter).atlas := by
  have hdeliver := h.deliver (Delivery.new d filter)
  rwa [Delivery.perform_new] at hdeliver

/-- An atlas that some run reaches in which no document fails. -/
inductive ReachableCleanly : Atlas → Prop where
  | empty : ReachableCleanly .empty
  | deliver {a : Atlas} (h : ReachableCleanly a) (d : Delivery) {result : Option FeatureId}
      (hok : (d.perform a).2.outcome = .ok result) : ReachableCleanly (d.perform a).2.atlas
  | edit {a : Atlas} (h : ReachableCleanly a) (id : StepId) {change : Step → Step}
      (hedit : Step.IsEdit change) : ReachableCleanly { a with steps := a.steps.modify id change }

theorem ReachableCleanly.addDocument {a : Atlas} (h : ReachableCleanly a) {d : Document}
    {filter : TagFilter} {result : Option FeatureId}
    (hok : (a.addDocument d filter).outcome = .ok result) :
    ReachableCleanly (a.addDocument d filter).atlas := by
  rw [← Delivery.perform_new] at hok ⊢
  exact h.deliver _ hok

theorem ReachableCleanly.reachable {a : Atlas} (h : ReachableCleanly a) : a.Reachable := by
  induction h with
  | empty => exact .empty
  | deliver _ d _ ih => exact ih.deliver d
  | edit _ id hedit ih => exact ih.edit id hedit

/-- What becomes of an atlas in a run: documents are delivered to it, and its steps are edited. -/
inductive LeadsTo (a : Atlas) : Atlas → Prop where
  | refl : LeadsTo a a
  | deliver {b : Atlas} (h : LeadsTo a b) (d : Delivery) : LeadsTo a (d.perform b).2.atlas
  | edit {b : Atlas} (h : LeadsTo a b) (id : StepId) {change : Step → Step}
      (hedit : Step.IsEdit change) : LeadsTo a { b with steps := b.steps.modify id change }

theorem LeadsTo.addDocument {a b : Atlas} (h : a.LeadsTo b) (d : Document) (filter : TagFilter) :
    a.LeadsTo (b.addDocument d filter).atlas := by
  have hdeliver := h.deliver (Delivery.new d filter)
  rwa [Delivery.perform_new] at hdeliver

end Atlas

/-- Add documents under their filters in order, up to the first that fails. -/
def Atlas.addDocuments (a : Atlas) : List (Document × TagFilter) → Except RaggedError Atlas
  | [] => .ok a
  | (d, filter) :: ds =>
    match (a.addDocument d filter).outcome with
    | .error e => .error e
    | .ok _ => (a.addDocument d filter).atlas.addDocuments ds

theorem Atlas.addDocuments_cons_eq_ok_iff {a a' : Atlas} {d : Document} {filter : TagFilter}
    {ds : List (Document × TagFilter)} :
    a.addDocuments ((d, filter) :: ds) = .ok a' ↔
      (∃ result, (a.addDocument d filter).outcome = .ok result) ∧
        (a.addDocument d filter).atlas.addDocuments ds = .ok a' := by
  rw [addDocuments]
  cases (a.addDocument d filter).outcome <;> simp

theorem Atlas.Reachable.addDocuments {a a' : Atlas} (h : a.Reachable)
    {ds : List (Document × TagFilter)} (hrun : a.addDocuments ds = .ok a') : a'.Reachable := by
  induction ds generalizing a with
  | nil =>
    cases hrun
    exact h
  | cons d ds ih =>
    exact ih (h.addDocument d.1 d.2) (addDocuments_cons_eq_ok_iff.1 hrun).2

theorem Atlas.ReachableCleanly.addDocuments {a a' : Atlas} (h : a.ReachableCleanly)
    {ds : List (Document × TagFilter)} (hrun : a.addDocuments ds = .ok a') :
    a'.ReachableCleanly := by
  induction ds generalizing a with
  | nil =>
    cases hrun
    exact h
  | cons d ds ih =>
    obtain ⟨⟨result, hok⟩, hrest⟩ := addDocuments_cons_eq_ok_iff.1 hrun
    exact ih (h.addDocument hok) hrest

/-- A delivery leaves the atlas as it is, or adds its document to it. -/
theorem Delivery.cases_perform (d : Delivery) (a : Atlas) :
    (d.perform a).2.atlas = a ∨ (d.perform a).2 = a.addDocument d.document d.filter := by
  unfold perform
  split
  · exact Or.inl rfl
  · right
    dsimp only
    split <;> rfl

/-! ## The blocks of documents -/

/-- What a plan ends with, if it does not reach the end of its document. -/
def DocumentPlan.failure : DocumentPlan → Option RaggedError
  | .feature _ failure => failure
  | _ => none

/-- A plan keeps a block of its document. -/
def DocumentPlan.Keeps (b : BlockPlan) : DocumentPlan → Prop
  | .feature plan _ => .kept b ∈ plan.children
  | _ => False

/-- A block that a child of a feature can be: not an instance, and with examples only if it is an
outline. -/
structure BlockPlan.IsOfChild (b : BlockPlan) : Prop where
  kind_ne : b.kind ≠ .example
  examples_eq : b.kind ≠ .outline → b.examples = []

namespace BlockPlan

theorem isOfChild_ofBlock (document : Path) (c : Child) :
    (ofBlock document c.kind c.block).1.IsOfChild := by
  constructor
  case kind_ne =>
    rw [kind_ofBlock]
    cases c <;> simp [Child.kind]
  case examples_eq =>
    rw [kind_ofBlock]
    intro hkind
    cases c with
    | outline b => exact absurd rfl hkind
    | _ =>
      simp only [ofBlock]
      split <;> rfl

theorem isListed_ofBlock {document : Path} {kind : ScenarioKind} {b : Block}
    (h : (ofBlock document kind b).2 = none) : (ofBlock document kind b).1.isListed = true := by
  simp only [ofBlock] at h ⊢
  split at h
  · cases h
  · cases h
  · rfl

end BlockPlan

namespace Document

variable {d : Document} {filter : TagFilter} {b : BlockPlan}

/-- A block that is kept is the plan of a child, which does not fail if the document does not. -/
theorem exists_child_of_keeps (h : (d.plan filter).Keeps b) :
    ∃ c : Child, b = (BlockPlan.ofBlock d.path c.kind c.block).1 ∧
      ((d.plan filter).failure = none → (BlockPlan.ofBlock d.path c.kind c.block).2 = none) := by
  cases hfeature : d.feature? with
  | none => simp [plan, hfeature, DocumentPlan.Keeps] at h
  | some f =>
    cases hkept : filter.excludes (tagTexts f.tags) with
    | true => simp [plan, hfeature, hkept, DocumentPlan.Keeps] at h
    | false =>
      simp only [plan, hfeature, hkept, Bool.false_eq_true, if_false, DocumentPlan.Keeps,
        DocumentPlan.failure] at h ⊢
      obtain ⟨c, -, hb, hnone⟩ := Progress.exists_of_mem_done_collect h
      rw [ChildPlan.ofChild] at hb hnone
      cases hleft : ChildPlan.leavesOut filter c with
      | true => simp [hleft] at hb
      | false =>
        simp only [hleft, Bool.false_eq_true, if_false, List.mem_singleton,
          ChildPlan.kept.injEq] at hb hnone
        exact ⟨c, hb, hnone⟩

theorem isOfChild_of_keeps (h : (d.plan filter).Keeps b) : b.IsOfChild := by
  obtain ⟨c, rfl, -⟩ := exists_child_of_keeps h
  exact BlockPlan.isOfChild_ofBlock d.path c

/-- A document that is added without an error has all its blocks listed. -/
theorem isListed_of_keeps (h : (d.plan filter).Keeps b) {a : Atlas} {result : Option FeatureId}
    (hok : (a.addDocument d filter).outcome = .ok result) : b.isListed = true := by
  have hnone : (d.plan filter).failure = none := by
    rw [Atlas.addDocument_eq_carryOut] at hok
    cases hplan : d.plan filter with
    | feature plan failure =>
      cases failure with
      | none => rfl
      | some e => simp [hplan, DocumentPlan.carryOut] at hok
    | _ => rfl
  obtain ⟨c, rfl, hsound⟩ := exists_child_of_keeps h
  exact BlockPlan.isListed_ofBlock (hsound hnone)

end Document

/-! ## Invariants -/

namespace Atlas

/-- The atlas in which a feature was opened and tagged, before its first block. -/
def opened (a : Atlas) (document : Path) (f : FeaturePlan) : Atlas :=
  (f.start a document).1.close ⟨f.heading document, (f.start a document).2, [], none⟩

section

variable {P : Atlas → Prop} {Q : BlockPlan → Prop}
  (hfeature : ∀ (a : Atlas) (document : Path) (f : FeaturePlan), P a → P (a.opened document f))
  (hblock : ∀ (g : Growth) (f : Feature) (document : Path) (b : BlockPlan), Q b →
    P (g.close f) → P ((g.addBlock document b).close f))
  (hempty : P .empty)
  (hedit : ∀ (a : Atlas) (id : StepId) (change : Step → Step), Step.IsEdit change → P a →
    P { a with steps := a.steps.modify id change })

include hblock in
/-- What these blocks keep is kept by all children of a feature. -/
theorem addAll_invariant {g : Growth} {f : Feature} (h : P (g.close f)) (document : Path)
    {cs : List ChildPlan} (hcs : ∀ b, .kept b ∈ cs → Q b) :
    P ((g.addAll document cs).close f) := by
  induction cs generalizing g with
  | nil => exact h
  | cons c cs ih =>
    have hrest : ∀ b, .kept b ∈ cs → Q b := fun b hb => hcs b (List.mem_cons_of_mem c hb)
    cases c with
    | excluded kind title line => exact ih h hrest
    | kept b => exact ih (hblock g f document b (hcs b List.mem_cons_self) h) hrest

include hfeature hblock in
/-- What opening a feature and adding a block keep is kept by adding a document, even where that
fails. -/
theorem addDocument_invariant {a : Atlas} (h : P a) {d : Document} {filter : TagFilter}
    (hd : ∀ b, (d.plan filter).Keeps b → Q b) : P (a.addDocument d filter).atlas := by
  rw [addDocument_eq_carryOut]
  cases hplan : d.plan filter with
  | noFeature => exact h
  | excluded title => exact h
  | feature plan failure =>
    rw [hplan] at hd
    have hadded : P (a.addFeature d.path plan) :=
      addAll_invariant hblock (hfeature a d.path plan h) d.path hd
    cases failure <;> exact hadded

include hfeature hblock hempty in
/-- What holds at the start and is kept by opened features and the blocks of documents holds as long
as no step is edited. -/
theorem Delivered.invariant
    (hkept : ∀ (d : Document) (filter : TagFilter) (b : BlockPlan), (d.plan filter).Keeps b → Q b)
    {a : Atlas} (h : Delivered a) : P a := by
  induction h with
  | empty => exact hempty
  | @deliver a _ d ih =>
    rcases d.cases_perform a with hsame | hadd
    · rwa [hsame]
    · rw [hadd]
      exact addDocument_invariant hfeature hblock ih (hkept d.document d.filter)

include hfeature hblock hempty hedit in
/-- What holds at the start and is kept by edits, opened features and the blocks of documents holds
all along. -/
theorem Reachable.invariant_of_isOfChild (hchild : ∀ b : BlockPlan, b.IsOfChild → Q b) {a : Atlas}
    (h : Reachable a) : P a := by
  induction h with
  | empty => exact hempty
  | @deliver a _ d ih =>
    have hadded : P (a.addDocument d.document d.filter).atlas :=
      addDocument_invariant hfeature hblock ih fun b hb =>
        hchild b (Document.isOfChild_of_keeps hb)
    rcases d.cases_perform a with hsame | hadd
    · rwa [hsame]
    · rwa [hadd]
  | @edit a _ id change hchange ih => exact hedit a id change hchange ih

include hfeature hblock hempty hedit in
/-- What listed blocks keep holds as long as no document fails. -/
theorem ReachableCleanly.invariant
    (hlisted : ∀ b : BlockPlan, b.IsOfChild → b.isListed = true → Q b) {a : Atlas}
    (h : ReachableCleanly a) : P a := by
  induction h with
  | empty => exact hempty
  | @deliver a _ d result hok ih =>
    rcases d.cases_perform a with hsame | hadd
    · rwa [hsame]
    · rw [hadd] at hok ⊢
      exact addDocument_invariant hfeature hblock ih fun b hb =>
        hlisted b (Document.isOfChild_of_keeps hb) (Document.isListed_of_keeps hb hok)
  | @edit a _ id change hchange ih => exact hedit a id change hchange ih

end

/-- What every block keeps, whether a document can have it or not. -/
theorem Reachable.invariant {P : Atlas → Prop}
    (hfeature : ∀ (a : Atlas) (document : Path) (f : FeaturePlan), P a → P (a.opened document f))
    (hblock : ∀ (g : Growth) (f : Feature) (document : Path) (b : BlockPlan),
      P (g.close f) → P ((g.addBlock document b).close f))
    (hempty : P .empty)
    (hedit : ∀ (a : Atlas) (id : StepId) (change : Step → Step), Step.IsEdit change → P a →
      P { a with steps := a.steps.modify id change })
    {a : Atlas} (h : Reachable a) : P a :=
  h.invariant_of_isOfChild (Q := fun _ => True) hfeature
    (fun g f document b _ => hblock g f document b) hempty hedit fun _ _ => trivial

end Atlas

end FeatureAtlas
