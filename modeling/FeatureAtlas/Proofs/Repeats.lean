import Mathlib.Data.List.Induction
import Mathlib.Data.List.Nodup

/-!
# Lists without their repeats

Dropping the repeats of a list keeps of each element the place where it is first seen. `IsFirsts`
says so of any two lists. Places are looked up in parts of a list: in what a filter keeps, and in
lists that are put together.
-/

namespace FeatureAtlas

section

variable {α : Type} {l : List α} {x y : α}

/-- `x` has a place in the list in front of which there is no `y`. -/
def SeenBefore (l : List α) (x y : α) : Prop :=
  ∃ before after, l = before ++ x :: after ∧ y ∉ before

/-- The elements of a list, each once, in the order in which they are first seen. -/
structure IsFirsts (l firsts : List α) : Prop where
  nodup : firsts.Nodup
  mem_iff : ∀ x, x ∈ firsts ↔ x ∈ l
  order : firsts.Pairwise (SeenBefore l)

theorem SeenBefore.append (h : SeenBefore l x y) (more : List α) : SeenBefore (l ++ more) x y := by
  obtain ⟨before, after, rfl, hy⟩ := h
  exact ⟨before, after ++ more, by simp, hy⟩

/-- What is not in the list at all is seen after everything in it. -/
theorem seenBefore_of_notMem (hx : x ∈ l) (hy : y ∉ l) : SeenBefore l x y := by
  obtain ⟨before, after, rfl⟩ := List.append_of_mem hx
  exact ⟨before, after, rfl, fun hbefore => hy (List.mem_append_left _ hbefore)⟩

/-- What a filter drops was not in front of what it keeps. -/
theorem SeenBefore.of_filter {p : α → Bool} (h : SeenBefore (l.filter p) x y) (hy : p y = true) :
    SeenBefore l x y := by
  obtain ⟨before, after, heq, hnot⟩ := h
  obtain ⟨before', rest, rfl, rfl, hrest⟩ := List.filter_eq_append_iff.1 heq
  obtain ⟨dropped, after', rfl, hdropped, -, -⟩ := List.filter_eq_cons_iff.1 hrest
  refine ⟨before' ++ dropped, after', by simp, fun hmem => ?_⟩
  rcases List.mem_append.1 hmem with hbefore | hlate
  · exact hnot (List.mem_filter.2 ⟨hbefore, hy⟩)
  · exact hdropped y hlate hy

/-- In lists that are put together, the place is in one of them, and none of those before it has
`y`. -/
theorem SeenBefore.exists_of_flatMap {β : Type} {f : β → List α} {bs : List β}
    (h : SeenBefore (bs.flatMap f) x y) :
    ∃ before b after, bs = before ++ b :: after ∧ (∀ b' ∈ before, y ∉ f b') ∧
      SeenBefore (f b) x y := by
  induction bs with
  | nil =>
    obtain ⟨before, after, heq, -⟩ := h
    simp at heq
  | cons b bs ih =>
    obtain ⟨before, after, heq, hy⟩ := h
    rw [List.flatMap_cons] at heq
    -- Either the place is in the first list, or this has no `y` and the place is further on.
    obtain ⟨skipped, rfl, hrest⟩ | ⟨more, hfirst, hrest⟩ := List.append_eq_append_iff.1 heq
    · rw [List.mem_append, not_or] at hy
      obtain ⟨before', b', after', rfl, hbefore, hseen⟩ := ih ⟨skipped, after, hrest, hy.2⟩
      exact ⟨b :: before', b', after', rfl, List.forall_mem_cons.2 ⟨hy.1, hbefore⟩, hseen⟩
    · cases more with
      | nil =>
        rw [List.append_nil] at hfirst
        obtain ⟨before', b', after', rfl, hbefore, hseen⟩ :=
          ih ⟨[], after, hrest.symm, List.not_mem_nil⟩
        exact ⟨b :: before', b', after', rfl,
          List.forall_mem_cons.2 ⟨hfirst ▸ hy, hbefore⟩, hseen⟩
      | cons x' more =>
        rw [List.cons_append, List.cons.injEq] at hrest
        exact ⟨[], b, bs, rfl, fun b' hb' => (by cases hb'), before, more, hrest.1 ▸ hfirst, hy⟩

end

theorem eraseDups_append_singleton {α : Type} [BEq α] [LawfulBEq α] (l : List α) (x : α) :
    (l ++ [x]).eraseDups = if x ∈ l then l.eraseDups else l.eraseDups ++ [x] := by
  rw [List.eraseDups_append]
  by_cases hx : x ∈ l
  · simp [List.removeAll, hx]
  · simp [List.removeAll, hx, List.eraseDups_cons]

theorem nodup_eraseDups {α : Type} [BEq α] [LawfulBEq α] (l : List α) : l.eraseDups.Nodup := by
  induction l using List.reverseRecOn with
  | nil => exact List.nodup_nil
  | append_singleton l x ih =>
    rw [eraseDups_append_singleton]
    split
    · exact ih
    · next hnew =>
      refine ih.append (List.nodup_singleton x) fun y hy hlast => hnew ?_
      rw [List.mem_singleton.1 hlast] at hy
      exact List.mem_eraseDups.1 hy

/-- Repeats are the same before and after a map that tells the elements of a list apart. -/
theorem eraseDups_map_of_injOn {α β : Type} [BEq α] [LawfulBEq α] [BEq β] [LawfulBEq β]
    {f : α → β} {l : List α} (hf : ∀ x ∈ l, ∀ y ∈ l, f x = f y → x = y) :
    (l.map f).eraseDups = l.eraseDups.map f := by
  induction l using List.reverseRecOn with
  | nil => rfl
  | append_singleton l x ih =>
    have hl : ∀ y ∈ l, ∀ z ∈ l, f y = f z → y = z := fun y hy z hz =>
      hf y (List.mem_append_left _ hy) z (List.mem_append_left _ hz)
    have hmem : f x ∈ l.map f ↔ x ∈ l := by
      constructor
      · intro h
        obtain ⟨y, hy, hfy⟩ := List.mem_map.1 h
        have hyx := hf y (List.mem_append_left _ hy) x (by simp) hfy
        exact hyx ▸ hy
      · exact List.mem_map_of_mem
    rw [List.map_append, List.map_singleton, eraseDups_append_singleton, eraseDups_append_singleton,
      ih hl]
    by_cases hx : x ∈ l
    · rw [if_pos (hmem.2 hx), if_pos hx]
    · rw [if_neg (hmem.not.2 hx), if_neg hx, List.map_append, List.map_singleton]

/-- What is left of a list without its repeats are the firsts. -/
theorem isFirsts_eraseDups {α : Type} [BEq α] [LawfulBEq α] (l : List α) :
    IsFirsts l l.eraseDups where
  nodup := nodup_eraseDups l
  mem_iff _ := List.mem_eraseDups
  order := by
    induction l using List.reverseRecOn with
    | nil => exact .nil
    | append_singleton l x ih =>
      have hold : l.eraseDups.Pairwise (SeenBefore (l ++ [x])) := ih.imp fun h => h.append [x]
      rw [eraseDups_append_singleton]
      split
      · exact hold
      · next hnew =>
        refine List.pairwise_append.2 ⟨hold, List.pairwise_singleton _ x, fun y hy z hz => ?_⟩
        rw [List.mem_singleton.1 hz]
        exact (seenBefore_of_notMem (List.mem_eraseDups.1 hy) hnew).append [x]

end FeatureAtlas
