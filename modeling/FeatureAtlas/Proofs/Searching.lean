import FeatureAtlas.FileTree.Search
import FeatureAtlas.Proofs.Following

/-!
# Searching directories

A directory is searched entry by entry, and a directory among the entries in the same way. What is
searched in the end are the leaves of the tree, all that is no directory, in the order of the tree:
`FileSystem.featureFiles_eq` says that the search keeps or refuses them one by one. A leaf that
resolves is kept if it leads to a feature file, and the first one that does not resolve is the error
of the search.
-/

namespace FeatureAtlas

/-! ## Lists from elements that may fail -/

section

variable {α β γ ε : Type} {f : α → Except ε (List β)}

/-- What the elements of a list give, joined, or the first error. -/
def gather (f : α → Except ε (List β)) : List α → Except ε (List β)
  | [] => .ok []
  | x :: xs => do
    let here ← f x
    let rest ← gather f xs
    return here ++ rest

theorem gather_append (xs ys : List α) :
    gather f (xs ++ ys) = do
      let here ← gather f xs
      let rest ← gather f ys
      return here ++ rest := by
  induction xs with
  | nil =>
    rw [List.nil_append, gather]
    cases gather f ys <;> rfl
  | cons x xs ih =>
    rw [List.cons_append, gather, ih, gather]
    cases f x with
    | error e => rfl
    | ok here =>
      cases gather f xs with
      | error e => rfl
      | ok rest =>
        cases gather f ys with
        | error e => rfl
        | ok more => exact congrArg Except.ok (List.append_assoc here rest more).symm

theorem gather_map (g : γ → α) (xs : List γ) : gather f (xs.map g) = gather (f ∘ g) xs := by
  induction xs with
  | nil => rfl
  | cons x xs ih =>
    rw [List.map_cons, gather, gather, ih]
    rfl

theorem gather_flatMap (g : γ → List α) (xs : List γ) :
    gather f (xs.flatMap g) = gather (fun x => gather f (g x)) xs := by
  induction xs with
  | nil => rfl
  | cons x xs ih => rw [List.flatMap_cons, gather_append, gather, ih]

theorem gather_congr {g : α → Except ε (List β)} {xs : List α} (h : ∀ x ∈ xs, f x = g x) :
    gather f xs = gather g xs := by
  induction xs with
  | nil => rfl
  | cons x xs ih =>
    rw [gather, gather, h x List.mem_cons_self, ih fun y hy => h y (List.mem_cons_of_mem x hy)]

theorem gather_eq_ok {g : α → List β} {xs : List α} (h : ∀ x ∈ xs, f x = .ok (g x)) :
    gather f xs = .ok (xs.flatMap g) := by
  induction xs with
  | nil => rfl
  | cons x xs ih =>
    rw [gather, h x List.mem_cons_self, ih fun y hy => h y (List.mem_cons_of_mem x hy)]
    rfl

theorem gather_cons_eq_ok_iff {x : α} {xs : List α} {found : List β} :
    gather f (x :: xs) = .ok found ↔
      ∃ here rest, f x = .ok here ∧ gather f xs = .ok rest ∧ found = here ++ rest := by
  rw [gather]
  constructor
  · intro h
    cases hx : f x with
    | error e =>
      rw [hx] at h
      cases h
    | ok here =>
      cases hxs : gather f xs with
      | error e =>
        rw [hx, hxs] at h
        cases h
      | ok rest =>
        rw [hx, hxs] at h
        cases h
        exact ⟨here, rest, rfl, rfl, rfl⟩
  · rintro ⟨here, rest, hx, hxs, rfl⟩
    rw [hx, hxs]
    rfl

/-- There is a result just if every element gives something. -/
theorem exists_gather_iff {xs : List α} :
    (∃ found, gather f xs = .ok found) ↔ ∀ x ∈ xs, ∃ here, f x = .ok here := by
  induction xs with
  | nil => exact iff_of_true ⟨[], rfl⟩ (by simp)
  | cons x xs ih =>
    rw [List.forall_mem_cons, ← ih]
    constructor
    · rintro ⟨found, h⟩
      obtain ⟨here, rest, hx, hxs, -⟩ := gather_cons_eq_ok_iff.1 h
      exact ⟨⟨here, hx⟩, rest, hxs⟩
    · rintro ⟨⟨here, hx⟩, rest, hxs⟩
      exact ⟨here ++ rest, gather_cons_eq_ok_iff.2 ⟨here, rest, hx, hxs, rfl⟩⟩

/-- The result holds what the elements give, and nothing else. -/
theorem mem_gather_iff {xs : List α} {found : List β} (h : gather f xs = .ok found) {y : β} :
    y ∈ found ↔ ∃ x ∈ xs, ∃ here, f x = .ok here ∧ y ∈ here := by
  induction xs generalizing found with
  | nil =>
    cases h
    simp
  | cons x xs ih =>
    obtain ⟨here, rest, hx, hxs, rfl⟩ := gather_cons_eq_ok_iff.1 h
    simp only [List.mem_append, ih hxs, List.mem_cons, exists_eq_or_imp, hx, Except.ok.injEq,
      exists_eq_left']

/-- Each element of the result is what one element gave. -/
theorem exists_of_mem_gather {xs : List α} {found : List β} (h : gather f xs = .ok found) {y : β}
    (hy : y ∈ found) : ∃ x ∈ xs, ∃ here, f x = .ok here ∧ y ∈ here :=
  (mem_gather_iff h).1 hy

/-- Joining the results of all elements is the same. -/
theorem mapM_flatten_eq_gather (xs : List α) :
    (do let found ← xs.mapM f; return found.flatten) = gather f xs := by
  induction xs with
  | nil => rfl
  | cons x xs ih =>
    rw [List.mapM_cons, gather, ← ih]
    cases f x with
    | error e => rfl
    | ok here => cases xs.mapM f <;> rfl

/-- If all elements fail in the same way that do fail, and one does, then so does the list. -/
theorem gather_eq_error {e : ε} {xs : List α} (hfail : ∃ x ∈ xs, f x = .error e)
    (h : ∀ x ∈ xs, f x = .error e ∨ ∃ found, f x = .ok found) : gather f xs = .error e := by
  induction xs with
  | nil =>
    obtain ⟨x, hx, -⟩ := hfail
    cases hx
  | cons x xs ih =>
    rw [gather]
    rcases h x List.mem_cons_self with hx | ⟨found, hx⟩
    · rw [hx]
      rfl
    · have hrest : ∃ y ∈ xs, f y = .error e := by
        obtain ⟨y, hy, hfy⟩ := hfail
        rcases List.mem_cons.1 hy with rfl | hmem
        · cases hx.symm.trans hfy
        · exact ⟨y, hmem, hfy⟩
      rw [hx, ih hrest fun y hy => h y (List.mem_cons_of_mem x hy)]
      rfl

end

/-! ## Leaves -/

namespace FileTree

/-- What holds of files and links, and of a directory if it holds of its entries, holds of all
trees. -/
theorem induction {motive : FileTree → Prop}
    (directory : ∀ entries : List (String × FileTree), (∀ e ∈ entries, motive e.2) →
      motive (.directory entries))
    (file : ∀ content, motive (.file content)) (link : ∀ target, motive (.link target))
    (t : FileTree) : motive t :=
  match t with
  | .directory entries => directory entries fun e _ => induction directory file link e.2
  | .file content => file content
  | .link target => link target
termination_by sizeOf t
decreasing_by
  have hsize := List.sizeOf_lt_of_mem ‹e ∈ entries›
  have hnode : sizeOf e.2 < sizeOf e := by
    cases e
    simp only [Prod.mk.sizeOf_spec]
    omega
  simp only [FileTree.directory.sizeOf_spec]
  omega

mutual

/-- The places of all that is no directory, in the order of the tree. -/
def leaves : FileTree → List (List String)
  | .directory entries => leavesAmong entries
  | .file _ => [[]]
  | .link _ => [[]]

/-- The places of all that is no directory among and below entries. -/
def leavesAmong : List (String × FileTree) → List (List String)
  | [] => []
  | (name, node) :: entries => node.leaves.map (name :: ·) ++ leavesAmong entries

end

theorem leaves_directory (entries : List (String × FileTree)) :
    (directory entries).leaves = entries.flatMap fun e => e.2.leaves.map (e.1 :: ·) := by
  rw [leaves]
  induction entries with
  | nil => rfl
  | cons e entries ih =>
    obtain ⟨name, node⟩ := e
    rw [leavesAmong, ih, List.flatMap_cons]

/-- The leaves of a proper tree are the places of what is no directory. -/
theorem mem_leaves_iff {t : FileTree} (h : t.IsProper) {names : List String} :
    names ∈ t.leaves ↔ ∃ node, t.get? names = some node ∧ node.isDirectory = false := by
  induction t using FileTree.induction generalizing names with
  | directory entries ih =>
    rw [leaves_directory, List.mem_flatMap]
    constructor
    · rintro ⟨e, he, hmem⟩
      obtain ⟨rest, hrest, rfl⟩ := List.mem_map.1 hmem
      obtain ⟨node, hnode, hleaf⟩ := (ih e he (h.child he)).1 hrest
      refine ⟨node, ?_, hleaf⟩
      rw [get?_cons, child?_of_mem (h [] entries rfl).1 he]
      exact hnode
    · rintro ⟨node, hnode, hleaf⟩
      cases names with
      | nil =>
        cases hnode
        cases hleaf
      | cons name rest =>
        rw [get?_cons] at hnode
        obtain ⟨child, hchild, hrest⟩ := Option.bind_eq_some_iff.1 hnode
        obtain ⟨_, heq, he⟩ := exists_of_child? hchild
        cases heq
        exact ⟨_, he, List.mem_map_of_mem ((ih _ he (h.child he)).2 ⟨node, hrest, hleaf⟩)⟩
  | file content =>
    cases names <;> simp [leaves, get?_cons, child?, isDirectory]
  | link target =>
    cases names <;> simp [leaves, get?_cons, child?, isDirectory]

end FileTree

namespace FileSystem

/-! ## The search -/

theorem searchEntries_eq (fs : FileSystem) (p : Path) (entries : List (String × FileTree)) :
    fs.searchEntries p entries = gather (fun e => fs.searchNode (p.entry e.1) e.2) entries := by
  induction entries with
  | nil => rw [searchEntries, gather]
  | cons e entries ih =>
    obtain ⟨name, node⟩ := e
    rw [searchEntries, gather, ih]

/-- Where all directories can be opened, their leaves are searched one by one. -/
theorem searchNode_eq (fs : FileSystem) {p : Path} {t : FileTree} (hproper : t.IsProper)
    (hopens : ∀ names entries, t.get? names = some (.directory entries) →
      pathFault? (p.below names) = none) :
    fs.searchNode p t = gather (fun names => fs.keepEntry (p.below names)) t.leaves := by
  have hsingle (result : Except FileError (List Path)) :
      (do let here ← result; let rest ← Except.ok []; return here ++ rest) = result := by
    cases result with
    | error e => rfl
    | ok found => exact congrArg Except.ok (List.append_nil found)
  induction t using FileTree.induction generalizing p with
  | directory entries ih =>
    have hopen : pathFault? p = none := hopens [] entries rfl
    rw [searchNode, hopen, FileTree.leaves_directory, gather_flatMap]
    dsimp only
    rw [searchEntries_eq]
    refine gather_congr fun e he => ?_
    rw [gather_map]
    refine ih e he (hproper.child he) fun names inner hinner => ?_
    refine hopens (e.1 :: names) inner ?_
    rw [FileTree.get?_cons, FileTree.child?_of_mem (hproper [] entries rfl).1 he]
    exact hinner
  | file content =>
    rw [searchNode, FileTree.leaves, gather, gather]
    exact (hsingle _).symm
  | link target =>
    rw [searchNode, FileTree.leaves, gather, gather]
    exact (hsingle _).symm

/-- Whether a feature file stands at a place. -/
def hasDocument (fs : FileSystem) (place : List String) : Bool :=
  ((fs.root.get? place).map FileTree.isFile).getD false &&
    ((place.getLast?.map Path.mk).map Path.hasFeatureExtension).getD false

theorem keepEntry_eq (fs : FileSystem) (p : Path) :
    fs.keepEntry p = (fs.resolve p).map fun place => if fs.hasDocument place then [p] else [] := by
  rw [keepEntry]
  cases fs.resolve p <;> rfl

/-- Something is found at a path if its writing is right and something stands where it leads. -/
theorem lookup_eq_ok_iff {fs : FileSystem} {followLast : Bool} {p : Path} {node : FileTree} :
    fs.lookup followLast p = .ok node ↔ pathFault? p = none ∧
      ∃ place, fs.locate followLast p = .ok place ∧ fs.root.get? place = some node := by
  rw [lookup]
  cases pathFault? p with
  | some e => simp
  | none =>
    cases fs.locate followLast p with
    | error e => simp
    | ok place => cases hnode : fs.root.get? place <;> simp [hnode]

theorem isDirectory_iff {fs : FileSystem} {p : Path} :
    fs.isDirectory p = true ↔ pathFault? p = none ∧
      ∃ place entries, fs.resolve p = .ok place ∧
        fs.root.get? place = some (.directory entries) := by
  have hlookup : fs.isDirectory p = true ↔
      ∃ entries, fs.lookup true p = .ok (.directory entries) := by
    rw [isDirectory]
    cases fs.lookup true p with
    | error e => simp
    | ok node => cases node <;> simp [FileTree.isDirectory]
  simp only [hlookup, lookup_eq_ok_iff]
  constructor
  · rintro ⟨entries, hfault, place, hplace, hnode⟩
    exact ⟨hfault, place, entries, hplace, hnode⟩
  · rintro ⟨hfault, place, entries, hplace, hnode⟩
    exact ⟨entries, hfault, place, hplace, hnode⟩

/-- A path that leads to something else, or nowhere, is no directory. -/
theorem isDirectory_eq_false {fs : FileSystem} {p : Path}
    (h : ∀ place entries, fs.resolve p = .ok place →
      fs.root.get? place ≠ some (.directory entries)) : fs.isDirectory p = false := by
  rw [Bool.eq_false_iff]
  intro hdirectory
  obtain ⟨-, place, entries, hplace, hentries⟩ := isDirectory_iff.1 hdirectory
  exact h place entries hplace hentries

/-- A path that leads to a directory is searched from that directory, also if it is a link. -/
theorem featureFiles_eq_searchNode {fs : FileSystem} {p : Path} {node : FileTree}
    (h : fs.lookup true p = .ok node) :
    fs.featureFiles p = (fs.searchNode p node).map sortPaths := by
  have hstart : ∃ start, fs.lookup false p = .ok start ∧
      (start = node ∨ ∃ target, start = .link target) := by
    obtain ⟨hfault, place, hplace, hnode⟩ := lookup_eq_ok_iff.1 h
    rcases follow_false_of_ok hplace with hsame | ⟨last, target, hlast, hlink⟩
    · exact ⟨node, lookup_eq_ok_iff.2 ⟨hfault, place, hsame, hnode⟩, .inl rfl⟩
    · exact ⟨_, lookup_eq_ok_iff.2 ⟨hfault, last, hlast, hlink⟩, .inr ⟨target, rfl⟩⟩
  have hmap (t : FileTree) : (do let found ← fs.searchNode p t; return sortPaths found) =
      (fs.searchNode p t).map sortPaths := by
    cases fs.searchNode p t <;> rfl
  obtain ⟨start, hlookup, hsame⟩ := hstart
  rw [featureFiles, hlookup]
  dsimp only [bind, Except.bind]
  rcases hsame with rfl | ⟨target, rfl⟩
  · cases start with
    | link target =>
      simp only [h]
      exact hmap _
    | directory entries => exact hmap _
    | file content => exact hmap _
  · simp only [h]
    exact hmap _

/-- A directory at a place of a proper tree, below which all directories can be opened. -/
structure IsSearchable (fs : FileSystem) (base : Path) (place : List String) : Prop where
  proper : fs.root.IsProper
  isDirectory : fs.isDirectory base = true
  resolve_eq : fs.resolve base = .ok place
  opens : ∀ names entries, fs.root.get? (place ++ names) = some (.directory entries) →
    pathFault? (base.below names) = none

namespace IsSearchable

variable {fs : FileSystem} {base : Path} {place : List String}

theorem exists_directory (h : fs.IsSearchable base place) :
    ∃ entries, fs.root.get? place = some (.directory entries) := by
  obtain ⟨-, other, entries, hother, hdirectory⟩ := isDirectory_iff.1 h.isDirectory
  cases h.resolve_eq.symm.trans hother
  exact ⟨entries, hdirectory⟩

theorem text_ne_empty (h : fs.IsSearchable base place) : base.text ≠ "" := by
  intro hempty
  have hfault := (isDirectory_iff.1 h.isDirectory).1
  simp [pathFault?, hempty] at hfault

theorem exists_leadsTo (h : fs.IsSearchable base place) :
    ∃ links, fs.LeadsTo base place links :=
  FileSystem.exists_leadsTo h.text_ne_empty h.resolve_eq

/-- The files of a directory are what its leaves give, in the order of their paths. -/
theorem featureFiles_eq (h : fs.IsSearchable base place) {t : FileTree}
    (ht : fs.root.get? place = some t) :
    fs.featureFiles base =
      (gather (fun names => fs.keepEntry (base.below names)) t.leaves).map sortPaths := by
  have hlookup : fs.lookup true base = .ok t :=
    lookup_eq_ok_iff.2 ⟨(isDirectory_iff.1 h.isDirectory).1, place, h.resolve_eq, ht⟩
  rw [featureFiles_eq_searchNode hlookup, fs.searchNode_eq (h.proper.get? ht)]
  intro names entries hdirectory
  refine h.opens names entries ?_
  rw [FileTree.get?_append, ht]
  exact hdirectory

/-- What is found below is found by its path from the directory that holds it. -/
theorem resolve_below (h : fs.IsSearchable base place) : ∃ links, ∀ names name node,
    fs.root.get? (place ++ (names ++ [name])) = some node →
      fs.resolve (base.below (names ++ [name])) =
        fs.follow true links (place ++ names) [name] := by
  obtain ⟨links, hleads⟩ := h.exists_leadsTo
  refine ⟨links, fun names name node hnode => ?_⟩
  rw [← List.append_assoc] at hnode
  obtain ⟨entries, hdirectory⟩ := FileTree.exists_of_get?_append (List.cons_ne_nil _ _) hnode
  rw [Path.below_append_singleton]
  exact (hleads.below h.proper hdirectory).resolve_entry (h.proper.isEntryName hnode)

/-- A regular file below is found at its place. -/
theorem resolve_file (h : fs.IsSearchable base place) {names : List String} {content : ByteArray}
    (hfile : fs.root.get? (place ++ names) = some (.file content)) :
    fs.resolve (base.below names) = .ok (place ++ names) := by
  rcases List.eq_nil_or_concat names with rfl | ⟨above, name, rfl⟩
  · -- The directory itself is no file.
    obtain ⟨entries, hdirectory⟩ := h.exists_directory
    rw [List.append_nil, hdirectory] at hfile
    cases hfile
  · obtain ⟨links, hresolve⟩ := h.resolve_below
    rw [List.concat_eq_append] at hfile ⊢
    rw [hresolve above name _ hfile]
    rw [← List.append_assoc] at hfile ⊢
    rw [follow_cons, fs.land_of_get? (h.proper.isEntryName hfile) hfile]
    simp [Landing.at]

end IsSearchable

end FileSystem

end FeatureAtlas
