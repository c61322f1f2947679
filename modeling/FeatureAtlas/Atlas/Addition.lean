import FeatureAtlas.Atlas.Building

/-!
# Adding documents

`Atlas.addDocument` adds a document under a filter. If a table is ragged, the atlas keeps what comes
before it and the error is returned. A `Delivery` adds its document only once, however often it
is asked to.
-/

namespace FeatureAtlas

/-- The atlas after an attempt to add a document, and how the attempt ended: with an error, with
nothing added, or with the feature added. -/
structure Addition where
  atlas : Atlas
  outcome : Except RaggedError (Option FeatureId)

/-- Add a document under a filter. -/
def Atlas.addDocument (a : Atlas) (d : Document) (filter : TagFilter) : Addition :=
  match (Building.document filter d).run a with
  | .ok result a => ⟨a, .ok result⟩
  | .error e a => ⟨a, .error e⟩

/-- A document to be added under a filter, with the result once that has succeeded. A delivery is
meant for one atlas. -/
structure Delivery where
  document : Document
  filter : TagFilter
  result? : Option (Option FeatureId)
deriving DecidableEq, Repr

namespace Delivery

/-- A delivery that was not made yet. -/
def new (document : Document) (filter : TagFilter) : Delivery :=
  ⟨document, filter, none⟩

/-- Whether the document was added. -/
def isDone (d : Delivery) : Bool := d.result?.isSome

/-- Add the document, unless that was done before: then the atlas stays and the result is the
same. A failed attempt does not count. -/
def perform (d : Delivery) (a : Atlas) : Delivery × Addition :=
  match d.result? with
  | some result => (d, ⟨a, .ok result⟩)
  | none =>
    let addition := a.addDocument d.document d.filter
    match addition.outcome with
    | .ok result => ({ d with result? := some result }, addition)
    | .error _ => (d, addition)

theorem perform_new (document : Document) (filter : TagFilter) (a : Atlas) :
    ((new document filter).perform a).2 = a.addDocument document filter := by
  simp only [new, perform]
  split <;> rfl

end Delivery

end FeatureAtlas
