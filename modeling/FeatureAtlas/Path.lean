/-!
# Paths

A path is kept as it was written. Its components decide which paths are the same and how paths are
ordered: a repeated or final separator adds no component, nor does a `.` that is not the first.
A file's name, stem and extension are read off its last component.
-/

namespace FeatureAtlas

/-- A path as it was written. -/
structure Path where
  text : String
deriving DecidableEq, Repr, Inhabited

namespace Path

/-- The parts of a path. -/
inductive Component where
  | root
  | here
  | up
  | name (text : String)
deriving DecidableEq, Repr

namespace Component

/-- The order of the kinds of components. -/
def rank : Component → Nat
  | .root => 0
  | .here => 1
  | .up => 2
  | .name _ => 3

/-- The text of a name; the other kinds have none. -/
def label : Component → String
  | .name text => text
  | _ => ""

instance : Ord Component := ⟨compareLex (compareOn rank) (compareOn label)⟩

instance : Std.TransOrd Component :=
  inferInstanceAs (Std.TransCmp (compareLex (compareOn rank) (compareOn label)))

instance : Std.LawfulEqOrd Component where
  eq_of_compare {a b} h := by
    have h : (compare a.rank b.rank).then (compare a.label b.label) = .eq := h
    rw [Ordering.then_eq_eq, Std.compare_eq_iff_eq, Std.compare_eq_iff_eq] at h
    cases a <;> cases b <;> simp_all [rank, label]

/-- The component that a piece between separators stands for, when it is not the first. -/
def ofPiece? : List Char → Option Component
  | [] => none
  | ['.'] => none
  | ['.', '.'] => some .up
  | piece => some (.name (String.ofList piece))

end Component

/-- The component of the first piece: an empty one in front of a separator is the root. -/
def firstComponent? (piece : List Char) (rest : List (List Char)) : Option Component :=
  if piece = [] then (if rest = [] then none else some .root)
  else if piece = ['.'] then some .here
  else Component.ofPiece? piece

/-- The components of a path. -/
def components (p : Path) : List Component :=
  match p.text.toList.splitOn '/' with
  | [] => []
  | piece :: rest => (firstComponent? piece rest).toList ++ rest.filterMap Component.ofPiece?

/-- Whether two paths have the same components. -/
def same (p q : Path) : Bool :=
  p.components == q.components

/-- Paths are ordered by their components. -/
def le (p q : Path) : Bool :=
  (compare p.components q.components).isLE

theorem le_trans {p q r : Path} (h₁ : p.le q = true) (h₂ : q.le r = true) : p.le r = true :=
  Std.TransCmp.isLE_trans h₁ h₂

theorem le_total (p q : Path) : (p.le q || q.le p) = true := by
  simp only [le, Bool.or_eq_true]
  have h : compare q.components p.components = (compare p.components q.components).swap :=
    Std.OrientedCmp.eq_swap
  rw [h]
  cases compare p.components q.components <;> decide

@[simp] theorem same_self (p : Path) : p.same p = true :=
  beq_self_eq_true p.components

/-- Two paths are the same when neither comes before the other. -/
theorem same_iff {p q : Path} : p.same q = true ↔ p.le q = true ∧ q.le p = true := by
  constructor
  · intro h
    have h : p.components = q.components := by simpa [same] using h
    simp [le, h]
  · intro ⟨h₁, h₂⟩
    have := Std.OrientedCmp.isLE_antisymm h₁ h₂
    simpa [same] using this

/-- The last component, if it is a name. -/
def fileName? (p : Path) : Option String :=
  match p.components.getLast? with
  | some (.name text) => some text
  | _ => none

/-- A name cut at its last dot, unless the only dot is its first character. -/
def cutAtDot (name : List Char) : List Char × Option (List Char) :=
  let ending := (name.reverse.takeWhile (· ≠ '.')).reverse
  let start := name.take (name.length - ending.length - 1)
  if start = [] then (name, none) else (start, some ending)

/-- The file's name up to its last dot. -/
def stem? (p : Path) : Option String :=
  p.fileName?.map fun name => String.ofList (cutAtDot name.toList).1

/-- What follows the last dot of the file's name. -/
def extension? (p : Path) : Option String :=
  p.fileName?.bind fun name => (cutAtDot name.toList).2.map String.ofList

/-- Whether the extension is `feature`, in any ASCII case. -/
def hasFeatureExtension (p : Path) : Bool :=
  match p.extension? with
  | some ending => ending.toList.map Char.toLower == "feature".toList
  | none => false

/-- The path of an entry of a directory. -/
def entry (p : Path) (name : String) : Path :=
  if p.text = "" then ⟨name⟩
  else if p.text.toList.getLast? = some '/' then ⟨p.text ++ name⟩
  else ⟨p.text ++ "/" ++ name⟩

end Path

end FeatureAtlas
