/-!
# Sets of names

A `NameSet` lists its members in increasing order, each once, so two sets with the same members
are equal and the list is the order in which a set is shown.
-/

namespace FeatureAtlas

/-- A finite set of texts, kept as a strictly increasing list. -/
@[ext] structure NameSet where
  names : List String
  increasing : names.Pairwise (· < ·)
deriving DecidableEq, Repr

namespace NameSet

/-- Put a name at its place in an increasing list, unless it is there. -/
def place (a : String) : List String → List String
  | [] => [a]
  | b :: bs => if a < b then a :: b :: bs else if a = b then b :: bs else b :: place a bs

theorem mem_place {a b : String} {l : List String} : b ∈ place a l ↔ b = a ∨ b ∈ l := by
  induction l with
  | nil => simp [place]
  | cons c l ih => grind [place]

theorem pairwise_place {a : String} {l : List String} (h : l.Pairwise (· < ·)) :
    (place a l).Pairwise (· < ·) := by
  induction l with
  | nil => simp [place]
  | cons b l ih =>
    obtain ⟨hb, hl⟩ := List.pairwise_cons.1 h
    unfold place
    split
    · next hab =>
      refine List.pairwise_cons.2 ⟨fun c hc => ?_, h⟩
      rcases List.mem_cons.1 hc with rfl | hc
      · exact hab
      · exact String.lt_trans hab (hb c hc)
    · split
      · exact h
      · next hab hne =>
        have hba : b < a := by
          rcases Decidable.em (b < a) with h | h
          · exact h
          · exact absurd (String.le_antisymm (String.not_lt.1 h) (String.not_lt.1 hab)) hne
        refine List.pairwise_cons.2 ⟨fun c hc => ?_, ih hl⟩
        rcases mem_place.1 hc with rfl | hc
        · exact hba
        · exact hb c hc

/-- The set without members. -/
def empty : NameSet := ⟨[], List.Pairwise.nil⟩

/-- The set with one more member. -/
def insert (s : NameSet) (a : String) : NameSet :=
  ⟨place a s.names, pairwise_place s.increasing⟩

/-- The set with all names of a list added. -/
def insertAll (s : NameSet) (names : List String) : NameSet :=
  names.foldl insert s

/-- The set of the names in a list. -/
def ofList (names : List String) : NameSet :=
  empty.insertAll names

/-- Whether a name is a member. -/
def contains (s : NameSet) (a : String) : Bool :=
  s.names.contains a

/-- Whether there is no member. -/
def isEmpty (s : NameSet) : Bool :=
  s.names.isEmpty

instance : EmptyCollection NameSet := ⟨empty⟩

instance : Inhabited NameSet := ⟨empty⟩

instance : Membership String NameSet := ⟨fun s a => a ∈ s.names⟩

theorem mem_def {s : NameSet} {a : String} : a ∈ s ↔ a ∈ s.names := Iff.rfl

@[simp] theorem contains_iff_mem {s : NameSet} {a : String} : s.contains a = true ↔ a ∈ s := by
  simp [contains, mem_def]

@[simp] theorem not_mem_empty {a : String} : a ∉ empty := by
  simp [mem_def, empty]

@[simp] theorem mem_insert {s : NameSet} {a b : String} : b ∈ s.insert a ↔ b = a ∨ b ∈ s :=
  mem_place

@[simp] theorem mem_insertAll {s : NameSet} {l : List String} {b : String} :
    b ∈ s.insertAll l ↔ b ∈ l ∨ b ∈ s := by
  induction l generalizing s with
  | nil => simp [insertAll]
  | cons a l ih =>
    have h : s.insertAll (a :: l) = (s.insert a).insertAll l := rfl
    rw [h, ih]
    simp only [mem_insert, List.mem_cons]
    grind

@[simp] theorem mem_ofList {l : List String} {b : String} : b ∈ ofList l ↔ b ∈ l := by
  simp [ofList]

/-- Sets with the same members are equal. -/
theorem eq_of_mem_iff {s t : NameSet} (h : ∀ a, a ∈ s ↔ a ∈ t) : s = t := by
  have hn (s : NameSet) : s.names.Nodup :=
    s.increasing.imp fun {a b} (hlt : a < b) (he : a = b) =>
      String.lt_irrefl b (he ▸ hlt)
  have hp : List.Perm s.names t.names := (List.perm_ext_iff_of_nodup (hn s) (hn t)).2 h
  refine NameSet.ext (hp.eq_of_pairwise ?_ s.increasing t.increasing)
  intro a b _ _ hab hba
  exact absurd (String.lt_trans hab hba) (String.lt_irrefl a)

end NameSet

end FeatureAtlas
