import FeatureAtlas.Proofs.Finding
import Mathlib.Data.List.Forall2

/-!
# The order of given paths

A run is given paths in some order, perhaps several times and in several spellings, and directories
among them may overlap. What is found is put in order and each path is kept once, so the result is
an increasing list of those paths that the given ones stand for. Only their set decides which these
are: `FileSystem.findDocuments_exact` says so, and that two listings of the same paths have results
that are the same path by path.
-/

namespace FeatureAtlas

namespace Path

/-- Increasing lists of the same paths, in whatever spelling, are the same path by path. -/
theorem forall₂_same_of_precedes {paths others : List Path} (h : paths.Pairwise Precedes)
    (h' : others.Pairwise Precedes) (hpaths : ∀ p ∈ paths, ∃ q ∈ others, q.same p = true)
    (hothers : ∀ q ∈ others, ∃ p ∈ paths, p.same q = true) :
    List.Forall₂ (fun p q => p.same q = true) paths others := by
  have hincreasing {ps : List Path} (hps : ps.Pairwise Precedes) :
      (ps.map components).Pairwise fun c d => compare c d = .lt := List.pairwise_map.2 hps
  have hnodup {ps : List Path} (hps : ps.Pairwise Precedes) : (ps.map components).Nodup := by
    refine (hincreasing hps).imp fun {c d} hlt heq => ?_
    simp [heq] at hlt
  have hmem (c : List Component) : c ∈ paths.map components ↔ c ∈ others.map components := by
    simp only [same, beq_iff_eq] at hpaths hothers
    simp only [List.mem_map]
    constructor
    · rintro ⟨p, hp, rfl⟩
      exact hpaths p hp
    · rintro ⟨q, hq, rfl⟩
      exact hothers q hq
  have hperm : (paths.map components).Perm (others.map components) :=
    (List.perm_ext_iff_of_nodup (hnodup h) (hnodup h')).2 hmem
  have heq : paths.map components = others.map components := by
    refine hperm.eq_of_pairwise ?_ (hincreasing h) (hincreasing h')
    intro c d _ _ hlt hgt
    have hswap : compare c d = (compare d c).swap := Std.OrientedCmp.eq_swap
    rw [hlt, hgt] at hswap
    cases hswap
  have hcomponents : List.Forall₂ Eq (paths.map components) (others.map components) := by
    rw [heq, List.forall₂_eq_eq_eq]
  rw [List.forall₂_map_left_iff, List.forall₂_map_right_iff] at hcomponents
  exact hcomponents.imp fun p q hpq => beq_iff_eq.2 hpq

end Path

namespace FileSystem

variable {fs : FileSystem} {paths : List Path}

/-- A path that given ones stand for: one of them that is no directory, whether or not anything is
there, or a feature file of a directory among them. -/
def IsGiven (fs : FileSystem) (paths : List Path) (q : Path) : Prop :=
  (q ∈ paths ∧ fs.isDirectory q = false) ∨
    ∃ p ∈ paths, fs.isDirectory p = true ∧ ∃ files, fs.featureFiles p = .ok files ∧ q ∈ files

/-- All directories among the paths can be searched. -/
def AreSearchable (fs : FileSystem) (paths : List Path) : Prop :=
  ∀ p ∈ paths, fs.isDirectory p = true → ∃ files, fs.featureFiles p = .ok files

theorem IsGiven.congr {others : List Path} (h : ∀ p, p ∈ others ↔ p ∈ paths) {q : Path} :
    fs.IsGiven others q ↔ fs.IsGiven paths q := by
  simp only [IsGiven, h]

theorem AreSearchable.congr {others : List Path} (h : ∀ p, p ∈ others ↔ p ∈ paths) :
    fs.AreSearchable others ↔ fs.AreSearchable paths := by
  simp only [AreSearchable, h]

/-! ## One path -/

theorem findDocumentsAt_eq_ok_iff {p : Path} {here : List Path} :
    fs.findDocumentsAt p = .ok here ↔
      (fs.isDirectory p = true ∧ fs.featureFiles p = .ok here) ∨
        fs.isDirectory p = false ∧ here = [p] := by
  rw [findDocumentsAt]
  cases hdirectory : fs.isDirectory p with
  | true => cases fs.featureFiles p <;> simp
  | false => simp [eq_comm]

theorem exists_findDocumentsAt_iff {p : Path} :
    (∃ here, fs.findDocumentsAt p = .ok here) ↔
      (fs.isDirectory p = true → ∃ files, fs.featureFiles p = .ok files) := by
  simp only [findDocumentsAt_eq_ok_iff]
  cases fs.isDirectory p <;> simp

theorem exists_mem_findDocumentsAt_iff {q : Path} :
    (∃ p ∈ paths, ∃ here, fs.findDocumentsAt p = .ok here ∧ q ∈ here) ↔ fs.IsGiven paths q := by
  simp only [findDocumentsAt_eq_ok_iff]
  constructor
  · rintro ⟨p, hp, here, ⟨hdirectory, hfiles⟩ | ⟨hother, rfl⟩, hq⟩
    · exact .inr ⟨p, hp, hdirectory, here, hfiles, hq⟩
    · obtain rfl := List.mem_singleton.1 hq
      exact .inl ⟨hp, hother⟩
  · rintro (⟨hq, hother⟩ | ⟨p, hp, hdirectory, files, hfiles, hq⟩)
    · exact ⟨q, hq, [q], .inr ⟨hother, rfl⟩, List.mem_singleton_self q⟩
    · exact ⟨p, hp, files, .inl ⟨hdirectory, hfiles⟩, hq⟩

/-! ## Each once -/

/-- A path is dropped only if one that is the same is kept. -/
theorem exists_same_of_mem_dropSameAs {last p : Path} (h : p ∈ last :: paths) :
    ∃ q ∈ last :: dropSame.dropSameAs last paths, q.same p = true := by
  induction paths generalizing last with
  | nil =>
    obtain rfl := List.mem_singleton.1 h
    exact ⟨p, List.mem_cons_self, p.same_self⟩
  | cons next paths ih =>
    rw [dropSame.dropSameAs]
    rcases List.mem_cons.1 h with rfl | hmem
    · exact ⟨p, List.mem_cons_self, p.same_self⟩
    · split
      · next hsame =>
        rcases List.mem_cons.1 hmem with rfl | hrest
        · exact ⟨last, List.mem_cons_self, hsame⟩
        · exact ih (List.mem_cons_of_mem last hrest)
      · obtain ⟨q, hq, hsame⟩ := ih hmem
        exact ⟨q, List.mem_cons_of_mem last hq, hsame⟩

theorem exists_same_of_mem_dropSame {p : Path} (h : p ∈ paths) :
    ∃ q ∈ dropSame paths, q.same p = true := by
  cases paths with
  | nil => cases h
  | cons first paths => exact exists_same_of_mem_dropSameAs h

theorem pairwise_precedes_dropSame_sortPaths (paths : List Path) :
    (dropSame (sortPaths paths)).Pairwise Path.Precedes := by
  have hsorted := (pairwise_sortPaths paths).sublist (dropSame_sublist _)
  exact (hsorted.and (pairwise_dropSame_sortPaths paths)).imp Path.precedes_iff.2

/-! ## All paths -/

theorem exists_findDocuments_iff :
    (∃ found, fs.findDocuments paths = .ok found) ↔ fs.AreSearchable paths := by
  have hgather : (∃ found, fs.findDocuments paths = .ok found) ↔
      ∃ all, gather fs.findDocumentsAt paths = .ok all := by
    rw [findDocuments_eq]
    cases gather fs.findDocumentsAt paths <;> simp [Except.map]
  rw [hgather, exists_gather_iff]
  exact forall₂_congr fun p _ => exists_findDocumentsAt_iff

theorem exists_findDocuments_error (h : ¬fs.AreSearchable paths) :
    ∃ e, fs.findDocuments paths = .error e := by
  cases hfound : fs.findDocuments paths with
  | error e => exact ⟨e, rfl⟩
  | ok found => exact absurd (exists_findDocuments_iff.1 ⟨found, hfound⟩) h

/-- What is found is in order, and is what the given paths stand for, in one of its spellings. -/
structure IsListingOf (fs : FileSystem) (paths found : List Path) : Prop where
  increasing : found.Pairwise Path.Precedes
  complete : ∀ q, fs.IsGiven paths q → ∃ p ∈ found, p.same q = true
  sound : ∀ q ∈ found, fs.IsGiven paths q

theorem isListingOf_of_findDocuments {found : List Path} (h : fs.findDocuments paths = .ok found) :
    fs.IsListingOf paths found := by
  rw [findDocuments_eq] at h
  cases hgather : gather fs.findDocumentsAt paths with
  | error e =>
    rw [hgather] at h
    cases h
  | ok all =>
    rw [hgather] at h
    cases h
    have hall (q : Path) : q ∈ all ↔ fs.IsGiven paths q := by
      rw [mem_gather_iff hgather, exists_mem_findDocumentsAt_iff]
    constructor
    case increasing => exact pairwise_precedes_dropSame_sortPaths all
    case complete =>
      intro q hq
      exact exists_same_of_mem_dropSame (List.mem_mergeSort.2 ((hall q).2 hq))
    case sound =>
      intro q hq
      exact (hall q).1 (List.mem_mergeSort.1 ((dropSame_sublist _).subset hq))

/-- Two listings of the same paths are the same path by path. -/
theorem IsListingOf.forall₂_same {others found found' : List Path}
    (h : fs.IsListingOf paths found) (h' : fs.IsListingOf others found')
    (hpaths : ∀ p, p ∈ others ↔ p ∈ paths) :
    List.Forall₂ (fun p q => p.same q = true) found found' := by
  refine Path.forall₂_same_of_precedes h.increasing h'.increasing ?_ ?_
  · exact fun p hp => h'.complete p ((IsGiven.congr hpaths).2 (h.sound p hp))
  · exact fun q hq => h.complete q ((IsGiven.congr hpaths).1 (h'.sound q hq))

/-- However given paths are listed, either no run finds anything, as a directory cannot be searched,
or all find the same paths. These are in strictly increasing order, and are the given paths that are
no directories with the feature files of those that are. -/
theorem findDocuments_exact (fs : FileSystem) (paths : List Path) :
    (∀ others : List Path, (∀ p, p ∈ others ↔ p ∈ paths) →
      ((∃ e, fs.findDocuments paths = .error e) ∧ ∃ e, fs.findDocuments others = .error e) ∨
        ∃ found found', fs.findDocuments paths = .ok found ∧
          fs.findDocuments others = .ok found' ∧
            List.Forall₂ (fun p q => p.same q = true) found found') ∧
      ((∃ found, fs.findDocuments paths = .ok found) ↔ fs.AreSearchable paths) ∧
      ∀ found, fs.findDocuments paths = .ok found → fs.IsListingOf paths found := by
  refine ⟨fun others hpaths => ?_, exists_findDocuments_iff, fun found =>
    isListingOf_of_findDocuments⟩
  by_cases hsearch : fs.AreSearchable paths
  · right
    obtain ⟨found, hfound⟩ := exists_findDocuments_iff.2 hsearch
    obtain ⟨found', hfound'⟩ :=
      exists_findDocuments_iff.2 ((AreSearchable.congr hpaths).2 hsearch)
    refine ⟨found, found', hfound, hfound', ?_⟩
    exact (isListingOf_of_findDocuments hfound).forall₂_same
      (isListingOf_of_findDocuments hfound') hpaths
  · left
    exact ⟨exists_findDocuments_error hsearch,
      exists_findDocuments_error (mt (AreSearchable.congr hpaths).1 hsearch)⟩

/-! ## Paths into a directory with links -/

theorem isDirectory_pantry : pantry.isDirectory ⟨"start//best"⟩ = false ∧
    pantry.isDirectory ⟨"missing"⟩ = false := by
  have hpieces : pathPieces "start//best" = ["start", "", "best"] ∧
      pathPieces "missing" = ["missing"] ∧ pathPieces "shelf" = ["shelf"] ∧
      pathPieces "old/B.FEATURE" = ["old", "B.FEATURE"] := by decide
  have hhere : pantry.land ["shelf"] "" = .ok (.place ["shelf"]) := rfl
  have hmissing : pantry.land [] "missing" = .error .notFound := rfl
  have hresolve : pantry.resolve ⟨"start//best"⟩ = .ok ["shelf", "old", "B.FEATURE"] ∧
      pantry.resolve ⟨"missing"⟩ = .error .notFound := by
    simp [resolve_eq, startOf_pantry, hpieces, follow_cons, land_pantry, hhere, hmissing,
      targetStart, isAbsolute, maxLinks]
  constructor
  · refine isDirectory_eq_false fun place entries hplace hentries => ?_
    cases hresolve.1.symm.trans hplace
    cases hentries
  · refine isDirectory_eq_false fun place entries hplace => ?_
    cases hresolve.2.symm.trans hplace

/-- A link to a directory, a file in it and a path that leads nowhere, in two orders. The file has
two spellings and is found once. -/
theorem findDocuments_exact_pantry :
    let paths : List Path := [⟨"start"⟩, ⟨"missing"⟩, ⟨"start//best"⟩]
    let others : List Path := [⟨"start//best"⟩, ⟨"start"⟩, ⟨"missing"⟩, ⟨"start"⟩]
    ∃ found found', pantry.findDocuments paths = .ok found ∧
      pantry.findDocuments others = .ok found' ∧
        List.Forall₂ (fun p q => p.same q = true) found found' ∧ found.Pairwise Path.Precedes ∧
          (∃ p ∈ found, p.same ⟨"missing"⟩ = true) ∧
            ∃ p ∈ found, p.same ⟨"start/best"⟩ = true := by
  intro paths others
  obtain ⟨hfile, hmissing⟩ := isDirectory_pantry
  have hsearch : pantry.AreSearchable paths := by
    intro p hp hdirectory
    simp only [paths, List.mem_cons, List.not_mem_nil, or_false] at hp
    rcases hp with rfl | rfl | rfl
    · exact ⟨_, isSearchable_pantry.featureFiles_of_linksResolve linksResolve_pantry rfl⟩
    · cases hmissing.symm.trans hdirectory
    · cases hfile.symm.trans hdirectory
  obtain ⟨hsame, hiff, hlisting⟩ := findDocuments_exact pantry paths
  rcases hsame others (by simp [paths, others]; tauto) with
    ⟨⟨e, he⟩, -⟩ | ⟨found, found', hfound, hfound', hequal⟩
  · obtain ⟨found, hfound⟩ := hiff.2 hsearch
    cases he.symm.trans hfound
  · have hlist := hlisting found hfound
    refine ⟨found, found', hfound, hfound', hequal, hlist.increasing, ?_, ?_⟩
    · exact hlist.complete _ (.inl ⟨by simp [paths], hmissing⟩)
    · exact hlist.complete ⟨"start//best"⟩ (.inl ⟨by simp [paths], hfile⟩)

end FileSystem

end FeatureAtlas
