import FeatureAtlas.Proofs.Loops
import FeatureAtlas.Proofs.Spellings
import Mathlib.Data.List.Nodup

/-!
# What a search finds

A search of a directory keeps the leaves below it that lead to feature files, each under the path
that spells the way to it. Different ways are spelled differently, so the paths that are found are
strictly increasing, and the search is determined by which leaves it keeps:
`FileSystem.featureFiles_exact` says which these are.
-/

namespace FeatureAtlas

/-! ## The order of paths -/

namespace Path

/-- A path comes before another and is not the same. -/
def Precedes (p q : Path) : Prop :=
  compare p.components q.components = .lt

theorem precedes_iff {p q : Path} : p.Precedes q ↔ p.le q = true ∧ p.same q = false := by
  rw [Precedes, le, same]
  cases hcompare : compare p.components q.components with
  | lt =>
    have hne : p.components ≠ q.components := fun heq => by simp [heq] at hcompare
    simpa using hne
  | eq => simp [Std.LawfulEqCmp.eq_of_compare hcompare]
  | gt => simp

/-- The path of what is some names below has these names at its end. -/
theorem components_below {p : Path} (hne : p.text ≠ "") {names : List String}
    (hnames : ∀ name ∈ names, IsEntryName name) :
    (p.below names).components = p.components ++ names.map .name := by
  induction names generalizing p with
  | nil => simp [below]
  | cons name names ih =>
    have hname := hnames name List.mem_cons_self
    have hrest := ih (FileSystem.text_entry_ne hne hname) fun other hother =>
      hnames other (List.mem_cons_of_mem _ hother)
    have hbelow : p.below (name :: names) = (p.entry name).below names := rfl
    rw [hbelow, hrest, components_entry hne hname, List.append_assoc]
    rfl

end Path

/-! ## Leaves -/

namespace FileTree

/-- The names on the way to a node are names of entries. -/
theorem IsProper.isEntryName_of_mem {t node : FileTree} (h : t.IsProper) {names : List String}
    (hnode : t.get? names = some node) : ∀ name ∈ names, IsEntryName name := by
  induction names generalizing t with
  | nil => simp
  | cons name names ih =>
    rw [get?_cons] at hnode
    obtain ⟨child, hchild, hrest⟩ := Option.bind_eq_some_iff.1 hnode
    obtain ⟨entries, rfl, hmem⟩ := exists_of_child? hchild
    exact List.forall_mem_cons.2 ⟨(h [] entries rfl).2 _ hmem, ih (h.child hmem) hrest⟩

/-- No leaf is met twice. -/
theorem IsProper.nodup_leaves {t : FileTree} (h : t.IsProper) : t.leaves.Nodup := by
  induction t using FileTree.induction with
  | file content => exact List.nodup_singleton _
  | link target => exact List.nodup_singleton _
  | directory entries ih =>
    rw [leaves_directory, List.nodup_flatMap]
    refine ⟨fun e he => (ih e he (h.child he)).map (List.cons_injective), ?_⟩
    have hnames := (h [] entries rfl).1
    rw [List.Nodup, List.pairwise_map] at hnames
    refine hnames.imp fun {e f} hne => ?_
    intro names he hf
    obtain ⟨_, -, rfl⟩ := List.mem_map.1 he
    obtain ⟨_, -, heq⟩ := List.mem_map.1 hf
    exact hne (List.cons.inj heq).1.symm

end FileTree

namespace FileSystem

variable {fs : FileSystem} {base : Path} {place : List String}

/-! ## What is kept -/

/-- A place is named like a feature file. -/
def HasFeatureName (place : List String) : Prop :=
  ∃ name ∈ place.getLast?, (Path.mk name).hasFeatureExtension = true

/-- Names that lead from a directory to a feature file. The way goes through directories only, and
ends at a regular file or at a link to one. A link is judged by the place to which it leads, and not
by its own name. -/
structure IsFoundBelow (fs : FileSystem) (base : Path) (place names : List String) : Prop where
  ne_nil : names ≠ []
  directories : ∀ above below, names = above ++ below → below ≠ [] →
    ∃ entries, fs.root.get? (place ++ above) = some (.directory entries)
  leaf : (∃ content, fs.root.get? (place ++ names) = some (.file content) ∧
      HasFeatureName (place ++ names)) ∨
    ∃ target next content, fs.root.get? (place ++ names) = some (.link target) ∧
      fs.resolve (base.below names) = .ok next ∧ fs.root.get? next = some (.file content) ∧
      HasFeatureName next

/-- All links below a directory resolve. -/
def LinksResolve (fs : FileSystem) (base : Path) (place : List String) : Prop :=
  ∀ names target, fs.root.get? (place ++ names) = some (.link target) →
    ∃ next, fs.resolve (base.below names) = .ok next

theorem hasDocument_iff {next : List String} : fs.hasDocument next = true ↔
    (∃ content, fs.root.get? next = some (.file content)) ∧ HasFeatureName next := by
  rw [hasDocument, HasFeatureName, Bool.and_eq_true]
  refine and_congr ?_ ?_
  · cases fs.root.get? next with
    | none => simp
    | some node => cases node <;> simp [FileTree.isFile]
  · cases next.getLast? <;> simp

/-- Whether a path is kept by a search. -/
def keeps (fs : FileSystem) (p : Path) : Bool :=
  match fs.resolve p with
  | .ok next => fs.hasDocument next
  | .error _ => false

theorem kept_eq (fs : FileSystem) (p : Path) : fs.kept p = if fs.keeps p then [p] else [] := by
  rw [kept, keeps]
  cases fs.resolve p <;> rfl

theorem flatMap_kept (fs : FileSystem) (base : Path) (leaves : List (List String)) :
    leaves.flatMap (fun names => fs.kept (base.below names)) =
      (leaves.filter fun names => fs.keeps (base.below names)).map base.below := by
  induction leaves with
  | nil => rfl
  | cons names leaves ih =>
    rw [List.flatMap_cons, ih, kept_eq]
    cases hkeeps : fs.keeps (base.below names) <;> simp [hkeeps]

namespace IsSearchable

/-- The names on the way to what is below are names of entries. -/
theorem isEntryName_of_mem (h : fs.IsSearchable base place) {names : List String} {node : FileTree}
    (hnode : fs.root.get? (place ++ names) = some node) : ∀ name ∈ names, IsEntryName name := by
  have hall := h.proper.isEntryName_of_mem hnode
  exact fun name hname => hall name (List.mem_append_right place hname)

/-- A leaf is kept if it is a feature file, or a link to one. -/
theorem keeps_iff (h : fs.IsSearchable base place) {t : FileTree}
    (ht : fs.root.get? place = some t) {names : List String} :
    names ∈ t.leaves ∧ fs.keeps (base.below names) = true ↔ fs.IsFoundBelow base place names := by
  have hget : fs.root.get? (place ++ names) = t.get? names := by
    rw [FileTree.get?_append, ht]
    rfl
  rw [FileTree.mem_leaves_iff (h.proper.get? ht), ← hget, keeps]
  constructor
  · rintro ⟨⟨node, hnode, hleaf⟩, hkeeps⟩
    refine ⟨?_, ?_, ?_⟩
    · rintro rfl
      obtain ⟨entries, hdirectory⟩ := h.exists_directory
      rw [List.append_nil, hdirectory] at hnode
      cases hnode
      cases hleaf
    · rintro above below rfl hbelow
      rw [← List.append_assoc] at hnode
      exact FileTree.exists_of_get?_append hbelow hnode
    · cases node with
      | directory entries => cases hleaf
      | file content =>
        rw [h.resolve_file hnode] at hkeeps
        exact .inl ⟨content, hnode, (hasDocument_iff.1 hkeeps).2⟩
      | link target =>
        cases hresolve : fs.resolve (base.below names) with
        | error e =>
          rw [hresolve] at hkeeps
          cases hkeeps
        | ok next =>
          rw [hresolve] at hkeeps
          obtain ⟨⟨content, hfile⟩, hname⟩ := hasDocument_iff.1 hkeeps
          exact .inr ⟨target, next, content, hnode, rfl, hfile, hname⟩
  · intro hfound
    rcases hfound.leaf with
      ⟨content, hfile, hname⟩ | ⟨target, next, content, hlink, hnext, hfile, hname⟩
    · refine ⟨⟨_, hfile, rfl⟩, ?_⟩
      rw [h.resolve_file hfile]
      exact hasDocument_iff.2 ⟨⟨content, hfile⟩, hname⟩
    · refine ⟨⟨_, hlink, rfl⟩, ?_⟩
      rw [hnext]
      exact hasDocument_iff.2 ⟨⟨content, hfile⟩, hname⟩

/-- Where all links resolve, the search keeps the leaves that lead to feature files. -/
theorem featureFiles_of_linksResolve (h : fs.IsSearchable base place)
    (hlinks : fs.LinksResolve base place) {t : FileTree} (ht : fs.root.get? place = some t) :
    fs.featureFiles base = .ok (sortPaths
      ((t.leaves.filter fun names => fs.keeps (base.below names)).map base.below)) := by
  rw [h.featureFiles_eq ht, ← flatMap_kept,
    gather_eq_ok (g := fun names => fs.kept (base.below names))]
  · rfl
  · intro names hmem
    obtain ⟨node, hnode, hleaf⟩ := (FileTree.mem_leaves_iff (h.proper.get? ht)).1 hmem
    have hplace : fs.root.get? (place ++ names) = some node := by
      rw [FileTree.get?_append, ht]
      exact hnode
    cases node with
    | directory entries => cases hleaf
    | file content => exact keepEntry_of_resolve (h.resolve_file hplace)
    | link target =>
      obtain ⟨next, hnext⟩ := hlinks names target hplace
      exact keepEntry_of_resolve hnext

/-- Different ways down are spelled by different paths. -/
theorem eq_of_same (h : fs.IsSearchable base place) {names others : List String}
    {node other : FileTree} (hnode : fs.root.get? (place ++ names) = some node)
    (hother : fs.root.get? (place ++ others) = some other)
    (hsame : (base.below names).same (base.below others) = true) : names = others := by
  rw [Path.same, beq_iff_eq, Path.components_below h.text_ne_empty (h.isEntryName_of_mem hnode),
    Path.components_below h.text_ne_empty (h.isEntryName_of_mem hother)] at hsame
  exact List.map_injective_iff.2 (fun _ _ => Path.Component.name.inj)
    (List.append_cancel_left hsame)

/-- The paths that are found are in order, and no two are the same. -/
theorem pairwise_precedes (h : fs.IsSearchable base place) {t : FileTree}
    (ht : fs.root.get? place = some t) (keep : List String → Bool) :
    (sortPaths ((t.leaves.filter keep).map base.below)).Pairwise Path.Precedes := by
  have hproper := h.proper.get? ht
  have hnode {names : List String} (hmem : names ∈ t.leaves.filter keep) :
      ∃ node, fs.root.get? (place ++ names) = some node := by
    obtain ⟨node, hnode, -⟩ := (FileTree.mem_leaves_iff hproper).1 (List.mem_of_mem_filter hmem)
    refine ⟨node, ?_⟩
    rw [FileTree.get?_append, ht]
    exact hnode
  have hdistinct : ((t.leaves.filter keep).map base.below).Pairwise
      fun p q => p.same q = false := by
    rw [List.pairwise_map]
    refine (hproper.nodup_leaves.filter keep).imp_of_mem fun {names others} hmem hother hne => ?_
    obtain ⟨node, hnode₁⟩ := hnode hmem
    obtain ⟨other, hnode₂⟩ := hnode hother
    exact Bool.eq_false_iff.2 fun hsame => hne (h.eq_of_same hnode₁ hnode₂ hsame)
  have hsymm {p q : Path} (hsame : p.same q = false) : q.same p = false := by
    rw [Path.same, beq_eq_false_iff_ne] at hsame ⊢
    exact hsame.symm
  have hsorted := (List.mergeSort_perm _ Path.le).symm.pairwise hdistinct hsymm
  exact ((pairwise_sortPaths _).and hsorted).imp Path.precedes_iff.2

/-- What leads to a link does not go on behind it. -/
theorem not_prefix_of_link (h : fs.IsSearchable base place) {names found : List String}
    {target : String} {next : List String} {entries : List (String × FileTree)}
    (hlink : fs.root.get? (place ++ names) = some (.link target))
    (hnext : fs.resolve (base.below names) = .ok next)
    (hdirectory : fs.root.get? next = some (.directory entries))
    (hfound : fs.IsFoundBelow base place found) :
    ¬(base.below names).components <+: (base.below found).components := by
  have hnames : ∀ name ∈ found, IsEntryName name := by
    rcases hfound.leaf with ⟨_, hnode, -⟩ | ⟨_, _, _, hnode, -⟩
    · exact h.isEntryName_of_mem hnode
    · exact h.isEntryName_of_mem hnode
  rw [Path.components_below h.text_ne_empty (h.isEntryName_of_mem hlink),
    Path.components_below h.text_ne_empty hnames, List.prefix_append_right_inj,
    List.prefix_map_iff_of_injective fun _ _ => Path.Component.name.inj]
  rintro ⟨below, rfl⟩
  cases below with
  | nil =>
    rw [List.append_nil] at hfound
    rcases hfound.leaf with ⟨_, hfile, -⟩ | ⟨_, _, _, -, hother, hfile, -⟩
    · cases hlink.symm.trans hfile
    · cases hnext.symm.trans hother
      cases hdirectory.symm.trans hfile
  | cons name below =>
    obtain ⟨inner, hinner⟩ := hfound.directories names _ rfl (List.cons_ne_nil name below)
    cases hlink.symm.trans hinner

end IsSearchable

/-- Where all links below a directory resolve, the search succeeds, and finds in strictly increasing
order the paths of just those names below that lead through directories to a feature file or to a
link to one. A link to a directory is not found, nor is anything behind it. -/
theorem featureFiles_exact (h : fs.IsSearchable base place) (hlinks : fs.LinksResolve base place) :
    ∃ found, fs.featureFiles base = .ok found ∧ found.Pairwise Path.Precedes ∧
      (∀ p, p ∈ found ↔ ∃ names, fs.IsFoundBelow base place names ∧ p = base.below names) ∧
      ∀ names target next entries, fs.root.get? (place ++ names) = some (.link target) →
        fs.resolve (base.below names) = .ok next →
        fs.root.get? next = some (.directory entries) →
        ∀ p ∈ found, ¬(base.below names).components <+: p.components := by
  obtain ⟨entries, ht⟩ := h.exists_directory
  have hmem (p : Path) : p ∈ sortPaths (((FileTree.directory entries).leaves.filter fun names =>
      fs.keeps (base.below names)).map base.below) ↔
        ∃ names, fs.IsFoundBelow base place names ∧ p = base.below names := by
    rw [sortPaths, List.mem_mergeSort, List.mem_map]
    refine exists_congr fun names => ?_
    rw [List.mem_filter, h.keeps_iff ht, eq_comm]
  refine ⟨_, h.featureFiles_of_linksResolve hlinks ht, h.pairwise_precedes ht _, hmem, ?_⟩
  intro names target next inner hlink hnext hdirectory p hp
  obtain ⟨found, hfound, rfl⟩ := (hmem p).1 hp
  exact h.not_prefix_of_link hlink hnext hdirectory hfound

/-! ## A directory with links -/

/-- A feature file, and links to a feature file below, to a file that is none and to a directory. -/
def pantryEntries : List (String × FileTree) :=
  [("a.feature", .file ⟨#[]⟩), ("best", .link "old/B.FEATURE"), ("notes", .file ⟨#[]⟩),
    ("notes.feature", .link "notes"), ("old", .directory [("B.FEATURE", .file ⟨#[]⟩)]),
    ("older", .link "old")]

/-- A directory with links, and a link that leads to it. -/
def pantry : FileSystem where
  root := .directory [("shelf", .directory pantryEntries), ("start", .link "shelf")]
  workingDirectory := []

theorem isProper_pantry : pantry.root.IsProper := by
  have hold : (FileTree.directory [("B.FEATURE", .file ⟨#[]⟩)]).IsProper :=
    FileTree.isProper_of_flat (by decide) (by decide)
  have hleaf {node : FileTree} (h : node.isDirectory = false) : node.IsProper :=
    FileTree.isProper_of_not_isDirectory h
  refine FileTree.isProper_directory (by decide) ?_
  simp only [List.forall_mem_cons]
  refine ⟨⟨by decide, FileTree.isProper_directory (by decide) ?_⟩,
    ⟨by decide, hleaf rfl⟩, by simp⟩
  simp only [pantryEntries, List.forall_mem_cons]
  exact ⟨⟨by decide, hleaf rfl⟩, ⟨by decide, hleaf rfl⟩, ⟨by decide, hleaf rfl⟩,
    ⟨by decide, hleaf rfl⟩, ⟨by decide, hold⟩, ⟨by decide, hleaf rfl⟩, by simp⟩

theorem startOf_pantry (p : Path) : pantry.startOf p = [] := by
  simp [startOf, pantry]

/-- The pieces on the way to the feature file below, by both links. -/
theorem land_pantry : pantry.land [] "start" = .ok (.link "shelf") ∧
    pantry.land [] "shelf" = .ok (.place ["shelf"]) ∧
    pantry.land ["shelf"] "best" = .ok (.link "old/B.FEATURE") ∧
    pantry.land ["shelf"] "old" = .ok (.place ["shelf", "old"]) ∧
    pantry.land ["shelf", "old"] "B.FEATURE" = .ok (.place ["shelf", "old", "B.FEATURE"]) :=
  ⟨rfl, rfl, rfl, rfl, rfl⟩

theorem resolve_pantry : pantry.resolve ⟨"start"⟩ = .ok ["shelf"] ∧
    pantry.resolve ⟨"start/best"⟩ = .ok ["shelf", "old", "B.FEATURE"] ∧
    pantry.resolve ⟨"start/notes.feature"⟩ = .ok ["shelf", "notes"] ∧
    pantry.resolve ⟨"start/older"⟩ = .ok ["shelf", "old"] := by
  have hpieces : pathPieces "start" = ["start"] ∧ pathPieces "start/best" = ["start", "best"] ∧
      pathPieces "start/notes.feature" = ["start", "notes.feature"] ∧
      pathPieces "start/older" = ["start", "older"] ∧ pathPieces "shelf" = ["shelf"] ∧
      pathPieces "old/B.FEATURE" = ["old", "B.FEATURE"] ∧ pathPieces "notes" = ["notes"] ∧
      pathPieces "old" = ["old"] := by decide
  have hfeature : pantry.land ["shelf"] "notes.feature" = .ok (.link "notes") := rfl
  have hnotes : pantry.land ["shelf"] "notes" = .ok (.place ["shelf", "notes"]) := rfl
  have holder : pantry.land ["shelf"] "older" = .ok (.link "old") := rfl
  simp [resolve_eq, startOf_pantry, hpieces, follow_cons, land_pantry, hfeature, hnotes, holder,
    targetStart, isAbsolute, maxLinks]

theorem below_pantry : Path.below ⟨"start"⟩ ["best"] = ⟨"start/best"⟩ ∧
    Path.below ⟨"start"⟩ ["notes.feature"] = ⟨"start/notes.feature"⟩ ∧
    Path.below ⟨"start"⟩ ["older"] = ⟨"start/older"⟩ := by decide

theorem isSearchable_pantry : pantry.IsSearchable ⟨"start"⟩ ["shelf"] := by
  obtain ⟨hresolve, -⟩ := resolve_pantry
  refine ⟨isProper_pantry, isDirectory_iff.2 ⟨by decide, ["shelf"], _, hresolve, rfl⟩, hresolve, ?_⟩
  intro names entries hentries
  have hbelow : (FileTree.directory pantryEntries).get? names = some (.directory entries) :=
    hentries
  cases names with
  | nil => decide
  | cons name names =>
    -- Only one of the entries is a directory, and it holds no other.
    rw [FileTree.get?_cons] at hbelow
    obtain ⟨child, hchild, hinner⟩ := Option.bind_eq_some_iff.1 hbelow
    obtain ⟨_, heq, hmem⟩ := FileTree.exists_of_child? hchild
    cases heq
    have honly : ∀ e ∈ pantryEntries, e.2.isDirectory = true →
        e = ("old", .directory [("B.FEATURE", .file ⟨#[]⟩)]) := by
      simp [pantryEntries, FileTree.isDirectory]
    cases hchildDirectory : child.isDirectory with
    | false => exact absurd hinner (FileTree.get?_ne_directory hchildDirectory names entries)
    | true =>
      cases honly _ hmem hchildDirectory
      obtain rfl := FileTree.eq_nil_of_get?_directory (by decide) hinner
      decide

theorem linksResolve_pantry : pantry.LinksResolve ⟨"start"⟩ ["shelf"] := by
  obtain ⟨-, hbest, hfeature, holder⟩ := resolve_pantry
  obtain ⟨hbelow, hbelowFeature, hbelowOlder⟩ := below_pantry
  intro names target h
  have hmem := (FileTree.mem_leaves_iff isProper_pantry).2 ⟨_, h, rfl⟩
  have hleaves : pantry.root.leaves = [["shelf", "a.feature"], ["shelf", "best"],
    ["shelf", "notes"], ["shelf", "notes.feature"], ["shelf", "old", "B.FEATURE"],
    ["shelf", "older"], ["start"]] := rfl
  simp only [hleaves, List.cons_append, List.nil_append, List.mem_cons, List.cons.injEq, true_and,
    List.not_mem_nil, or_false] at hmem
  rcases hmem with rfl | rfl | rfl | rfl | rfl | rfl | ⟨hne, -⟩
  · cases h
  · exact ⟨_, hbelow ▸ hbest⟩
  · cases h
  · exact ⟨_, hbelowFeature ▸ hfeature⟩
  · cases h
  · exact ⟨_, hbelowOlder ▸ holder⟩
  · exact absurd hne (by decide)

theorem keeps_pantry : pantry.keeps ⟨"start/best"⟩ = true ∧
    pantry.keeps ⟨"start/notes.feature"⟩ = false := by
  obtain ⟨-, hbest, hfeature, -⟩ := resolve_pantry
  rw [keeps, keeps, hbest, hfeature]
  decide

/-- From the link to the directory, the link to a feature file is found. The link that is only named
like one is not, and nothing at or behind the link to a directory is. -/
theorem featureFiles_exact_pantry :
    pantry.IsSearchable ⟨"start"⟩ ["shelf"] ∧ pantry.LinksResolve ⟨"start"⟩ ["shelf"] ∧
      ∃ found, pantry.featureFiles ⟨"start"⟩ = .ok found ∧ found.Pairwise Path.Precedes ∧
        ⟨"start/best"⟩ ∈ found ∧ ⟨"start/notes.feature"⟩ ∉ found ∧
        ∀ p ∈ found, ¬(Path.mk "start/older").components <+: p.components := by
  obtain ⟨hbest, hfeature⟩ := keeps_pantry
  obtain ⟨hbelow, hbelowFeature, hbelowOlder⟩ := below_pantry
  obtain ⟨found, hfound, hsorted, hmem, hlinks⟩ :=
    featureFiles_exact isSearchable_pantry linksResolve_pantry
  have hiff (names : List String) : _ ↔ pantry.IsFoundBelow ⟨"start"⟩ ["shelf"] names :=
    isSearchable_pantry.keeps_iff rfl
  refine ⟨isSearchable_pantry, linksResolve_pantry, found, hfound, hsorted, ?_, ?_, ?_⟩
  · exact (hmem _).2 ⟨["best"], (hiff _).1 ⟨by decide, hbelow ▸ hbest⟩, hbelow.symm⟩
  · intro hp
    obtain ⟨names, hnames, heq⟩ := (hmem _).1 hp
    rw [heq, ((hiff names).2 hnames).2] at hfeature
    cases hfeature
  · intro p hp
    rw [← hbelowOlder]
    exact hlinks ["older"] "old" ["shelf", "old"] _ rfl
      (hbelowOlder ▸ resolve_pantry.2.2.2) rfl p hp

end FileSystem

end FeatureAtlas
