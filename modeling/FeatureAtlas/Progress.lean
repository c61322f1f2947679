/-!
# Work that a failure cuts short

A `Progress` holds the results reached so far and, if the work could not go on, why. Items are
worked through in order up to the first failure, and what came before it is kept.
-/

namespace FeatureAtlas

/-- Results in order, and the failure that came after them, if there was one. -/
structure Progress (ε α : Type) where
  done : List α
  failure : Option ε
deriving DecidableEq, Repr

namespace Progress

variable {ε α β : Type}

/-- One result, or one failure. -/
def ofExcept : Except ε α → Progress ε α
  | .ok a => ⟨[a], none⟩
  | .error e => ⟨[], some e⟩

/-- Work through items up to the first that fails; what that item still yielded is kept too. -/
def collect (work : α → Progress ε β) : List α → Progress ε β
  | [] => ⟨[], none⟩
  | a :: as =>
    match work a with
    | ⟨done, some e⟩ => ⟨done, some e⟩
    | ⟨done, none⟩ =>
      let rest := collect work as
      ⟨done ++ rest.done, rest.failure⟩

@[simp] theorem collect_nil (work : α → Progress ε β) : collect work [] = ⟨[], none⟩ := rfl

theorem collect_cons (work : α → Progress ε β) (a : α) (as : List α) :
    collect work (a :: as) =
      match (work a).failure with
      | some e => ⟨(work a).done, some e⟩
      | none => ⟨(work a).done ++ (collect work as).done, (collect work as).failure⟩ := by
  rw [collect]
  rcases work a with ⟨done, _ | e⟩ <;> rfl

/-- Items that do not fail leave the rest of the work as it would be alone. -/
theorem collect_append {work : α → Progress ε β} {as : List α}
    (h : (collect work as).failure = none) (bs : List α) :
    collect work (as ++ bs) =
      ⟨(collect work as).done ++ (collect work bs).done, (collect work bs).failure⟩ := by
  induction as with
  | nil => rfl
  | cons a as ih =>
    rw [collect_cons] at h
    rw [List.cons_append, collect_cons, collect_cons]
    cases hf : (work a).failure with
    | some e => simp [hf] at h
    | none =>
      simp only [hf] at h ⊢
      rw [ih h, List.append_assoc]

/-- The failure is that of the first item that fails. -/
theorem failure_collect (work : α → Progress ε β) (as : List α) :
    (collect work as).failure = as.findSome? fun a => (work a).failure := by
  induction as with
  | nil => rfl
  | cons a as ih =>
    rw [collect_cons, List.findSome?_cons]
    cases (work a).failure <;> simp [ih]

/-- Every result is that of an item; if nothing failed, this item did not fail. -/
theorem exists_of_mem_done_collect {work : α → Progress ε β} {as : List α} {b : β}
    (h : b ∈ (collect work as).done) :
    ∃ a ∈ as, b ∈ (work a).done ∧ ((collect work as).failure = none → (work a).failure = none) := by
  induction as with
  | nil => cases h
  | cons a as ih =>
    rw [collect_cons] at h ⊢
    cases hf : (work a).failure with
    | some e =>
      rw [hf] at h
      exact ⟨a, List.mem_cons_self, h, fun hnone => by cases hnone⟩
    | none =>
      rw [hf] at h
      rcases List.mem_append.1 h with hfirst | hrest
      · exact ⟨a, List.mem_cons_self, hfirst, fun _ => hf⟩
      · obtain ⟨x, hx, hb, hnone⟩ := ih hrest
        exact ⟨x, List.mem_cons_of_mem a hx, hb, hnone⟩

/-- Without a failure every item yielded its results. -/
theorem done_collect_of_failure_eq_none {work : α → Progress ε β} {as : List α}
    (h : (collect work as).failure = none) :
    (collect work as).done = as.flatMap fun a => (work a).done := by
  induction as with
  | nil => rfl
  | cons a as ih =>
    rw [collect_cons] at h ⊢
    cases hf : (work a).failure with
    | some e => simp [hf] at h
    | none => simp_all

end Progress

end FeatureAtlas
