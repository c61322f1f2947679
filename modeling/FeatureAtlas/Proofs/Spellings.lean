import FeatureAtlas.Proofs.Searching

/-!
# Spellings of a file

Found paths are kept apart by their components. In a tree without links, a path that does not go up
leads to the place that its names spell, from the root or from the working directory. So two paths
that begin alike lead to the same file only if they have the same components, and
`FileSystem.findDocuments_pairwise` says which files may be found twice.
-/

namespace FeatureAtlas

open FileSystem (pathPieces isAbsolute entryPieces)

/-! ## Pieces -/

theorem FileSystem.pathPieces_ne_nil (text : String) : pathPieces text ≠ [] := by
  rw [pathPieces, List.splitOn_eq_splitOnP]
  simp

/-- A text is empty, starts with a separator, or starts with a piece. -/
theorem FileSystem.pathPieces_cases (text : String) :
    text = "" ∨ (isAbsolute text = true ∧ ∃ rest, rest ≠ [] ∧ pathPieces text = "" :: rest) ∨
      isAbsolute text = false ∧ ∃ piece rest, piece ≠ "" ∧ pathPieces text = piece :: rest := by
  rw [isAbsolute, pathPieces]
  cases hchars : text.toList with
  | nil => exact .inl (by simpa using hchars)
  | cons c chars =>
    right
    have hne := List.splitOnP_ne_nil (· == '/') chars
    rw [List.splitOn_eq_splitOnP, List.splitOnP_cons_eq_if_modifyHead]
    by_cases hc : c = '/'
    · subst hc
      exact .inl ⟨rfl, _, by simp, rfl⟩
    · obtain ⟨piece, rest, hsplit⟩ := List.exists_cons_of_ne_nil hne
      rw [hsplit]
      refine .inr ⟨by simpa using hc, String.ofList (c :: piece), rest.map String.ofList, ?_, ?_⟩
      · simp
      · simp [hc]

theorem FileSystem.eq_empty_of_pathPieces {text : String} (h : pathPieces text = [""]) :
    text = "" := by
  rcases pathPieces_cases text with
    hempty | ⟨-, rest, hrest, hpieces⟩ | ⟨-, piece, rest, hpiece, hpieces⟩
  · exact hempty
  · rw [hpieces] at h
    exact absurd (List.cons.inj h).2 hrest
  · rw [hpieces] at h
    exact absurd (List.cons.inj h).1 hpiece

namespace Path

/-- What a piece that is not the first stands for. -/
def Component.ofText? (piece : String) : Option Component := ofPiece? piece.toList

/-- A piece stands for nothing, for the way up, or for the name that it is. -/
theorem Component.ofText?_cases (piece : String) :
    (piece = "" ∨ piece = ".") ∧ ofText? piece = none ∨
      piece = ".." ∧ ofText? piece = some .up ∨
        (piece ≠ "" ∧ piece ≠ "." ∧ piece ≠ "..") ∧ ofText? piece = some (.name piece) := by
  obtain ⟨chars, rfl⟩ : ∃ chars, piece = String.ofList chars := ⟨piece.toList, by simp⟩
  rw [ofText?, String.toList_ofList]
  unfold ofPiece?
  split
  · exact .inl ⟨.inl rfl, rfl⟩
  · exact .inl ⟨.inr rfl, rfl⟩
  · exact .inr (.inl ⟨rfl, rfl⟩)
  · next hempty hdot hup =>
    refine .inr (.inr ⟨⟨?_, ?_, ?_⟩, rfl⟩)
    · exact fun h => hempty (by simpa using congrArg String.toList h)
    · exact fun h => hdot (by simpa using congrArg String.toList h)
    · exact fun h => hup (by simpa using congrArg String.toList h)

/-- How a path begins: at the root, with a dot, or in neither way. -/
def lead (p : Path) : Option Component :=
  p.components.head?.filter fun c => c = .root ∨ c = .here

/-- Whether a component leads up. -/
def goesUp (p : Path) : Bool :=
  p.components.contains .up

/-- The pieces that are followed by name, unless they lead up. -/
def names (p : Path) : List String :=
  (pathPieces p.text).filter fun piece => piece ≠ "" ∧ piece ≠ "."

/-- What the first piece says about the beginning. -/
def leadOf (piece : String) (rest : List String) : Option Component :=
  if piece = "" ∧ rest ≠ [] then some .root else if piece = "." then some .here else none

/-- All pieces are read alike, but the first one also says how the path begins. -/
theorem components_of_pieces {p : Path} {piece : String} {rest : List String}
    (h : pathPieces p.text = piece :: rest) :
    p.components = (leadOf piece rest).toList ++
      (piece :: rest).filterMap Component.ofText? := by
  obtain ⟨chars, others, hsplit, rfl, rfl⟩ := List.map_eq_cons_iff.1 h
  have hof (chars : List Char) :
      Component.ofText? (String.ofList chars) = Component.ofPiece? chars := by
    rw [Component.ofText?, String.toList_ofList]
  have hrest : (others.map String.ofList).filterMap Component.ofText? =
      others.filterMap Component.ofPiece? := by
    simp only [List.filterMap_map, Function.comp_def, hof]
  rw [components, hsplit, List.filterMap_cons, hrest, hof]
  dsimp only
  by_cases hempty : chars = []
  · subst hempty
    cases others <;> simp [leadOf, firstComponent?, Component.ofPiece?]
  by_cases hdot : chars = ['.']
  · subst hdot
    simp [leadOf, firstComponent?, Component.ofPiece?]
  · have hnone : leadOf (String.ofList chars) (others.map String.ofList) = none := by
      have hdot' : String.ofList chars ≠ "." := fun heq =>
        hdot (by simpa using congrArg String.toList heq)
      simp [leadOf, hempty, hdot']
    rw [firstComponent?, if_neg hempty, if_neg hdot, hnone]
    cases Component.ofPiece? chars <;> rfl

theorem lead_eq {p : Path} {piece : String} {rest : List String}
    (h : pathPieces p.text = piece :: rest) : p.lead = leadOf piece rest := by
  rw [lead, components_of_pieces h, List.filterMap_cons]
  rcases Component.ofText?_cases piece with ⟨rfl | rfl, hof⟩ | ⟨rfl, hof⟩ | ⟨⟨hempty, hdot, -⟩, hof⟩
  · rw [hof]
    cases rest <;> simp [leadOf, Option.filter_some]
  · rw [hof]
    simp [leadOf, Option.filter_some]
  · rw [hof]
    simp [leadOf, Option.filter_some]
  · rw [hof]
    simp [leadOf, hempty, hdot, Option.filter_some]

/-- All pieces are read alike, but the first one also says how the path begins. -/
theorem components_eq (p : Path) :
    p.components = p.lead.toList ++
      (pathPieces p.text).filterMap Component.ofText? := by
  obtain ⟨piece, rest, hpieces⟩ := List.exists_cons_of_ne_nil (FileSystem.pathPieces_ne_nil p.text)
  rw [lead_eq hpieces, hpieces]
  exact components_of_pieces hpieces

/-- A path begins at the root if its text does. -/
theorem isAbsolute_iff (p : Path) : isAbsolute p.text = true ↔ p.lead = some .root := by
  rcases FileSystem.pathPieces_cases p.text with
    hempty | ⟨habsolute, rest, hrest, hpieces⟩ | ⟨hrelative, piece, rest, hpiece, hpieces⟩
  · have hpieces : pathPieces p.text = ["" ] := by
      rw [hempty]
      decide
    rw [lead_eq hpieces, hempty]
    decide
  · simp [lead_eq hpieces, leadOf, hrest, habsolute]
  · rw [lead_eq hpieces, leadOf, hrelative]
    simp [hpiece]

theorem goesUp_eq_false_iff {p : Path} : p.goesUp = false ↔ ".." ∉ pathPieces p.text := by
  have hlead : Component.up ∉ p.lead.toList := by
    intro h
    obtain ⟨-, hkind⟩ := Option.filter_eq_some_iff.1 (Option.mem_toList.1 h)
    simp at hkind
  rw [goesUp, ← Bool.not_eq_true, List.contains_iff_mem, not_iff_not, components_eq,
    List.mem_append, or_iff_right hlead, List.mem_filterMap]
  constructor
  · rintro ⟨piece, hmem, hpiece⟩
    rcases Component.ofText?_cases piece with ⟨-, h⟩ | ⟨rfl, -⟩ | ⟨-, h⟩
    · cases h.symm.trans hpiece
    · exact hmem
    · cases h.symm.trans hpiece
  · exact fun h => ⟨_, h, rfl⟩

/-- A path that does not go up is its beginning and its names. -/
theorem components_eq_of_not_goesUp {p : Path} (h : p.goesUp = false) :
    p.components = p.lead.toList ++ p.names.map .name := by
  have hpieces {pieces : List String} (hup : ".." ∉ pieces) :
      pieces.filterMap Component.ofText? =
        (pieces.filter fun piece => piece ≠ "" ∧ piece ≠ ".").map .name := by
    induction pieces with
    | nil => rfl
    | cons piece pieces ih =>
      rw [List.mem_cons, not_or] at hup
      rcases Component.ofText?_cases piece with ⟨hnone, hof⟩ | ⟨rfl, -⟩ | ⟨⟨hempty, hdot, -⟩, hof⟩
      · rw [List.filterMap_cons_none hof, ih hup.2, List.filter_cons_of_neg]
        rcases hnone with rfl | rfl <;> simp
      · exact absurd rfl hup.1
      · rw [List.filterMap_cons_some hof, ih hup.2,
          List.filter_cons_of_pos (by simp [hempty, hdot]), List.map_cons]
  rw [components_eq, hpieces (goesUp_eq_false_iff.1 h)]
  rfl

/-- Paths that do not go up are the same if they begin alike and have the same names. -/
theorem same_of_names {p q : Path} (hp : p.goesUp = false) (hq : q.goesUp = false)
    (hlead : p.lead = q.lead) (hnames : p.names = q.names) : p.same q = true := by
  rw [same, beq_iff_eq, components_eq_of_not_goesUp hp, components_eq_of_not_goesUp hq, hlead,
    hnames]

/-! ## Entries of directories -/

theorem lead_entry {p : Path} (hne : p.text ≠ "") {name : String} (hname : IsEntryName name) :
    (p.entry name).lead = p.lead := by
  have hpieces := FileSystem.pathPieces_entry hne hname.separator_notMem
  have hnotEmpty : pathPieces p.text ≠ [""] := fun h => hne (FileSystem.eq_empty_of_pathPieces h)
  by_cases hlast : p.text.toList.getLast? = some '/'
  · have hself := FileSystem.pathPieces_of_getLast? hlast
    cases hentry : entryPieces p with
    | nil =>
      rw [hentry, List.nil_append] at hself
      exact absurd hself hnotEmpty
    | cons piece rest =>
      rw [hentry, List.cons_append] at hself hpieces
      rw [lead_eq hself, lead_eq hpieces, leadOf, leadOf]
      simp
  · have hself := FileSystem.pathPieces_of_getLast?_ne hlast
    rw [← hself] at hpieces
    obtain ⟨piece, rest, hcons⟩ :=
      List.exists_cons_of_ne_nil (FileSystem.pathPieces_ne_nil p.text)
    rw [hcons] at hpieces hnotEmpty
    rw [lead_eq hcons, lead_eq hpieces, leadOf, leadOf]
    cases rest with
    | nil =>
      have hpiece : piece ≠ "" := fun h => hnotEmpty (by rw [h])
      simp [hpiece]
    | cons other rest => simp

/-- The path of an entry has one more name. -/
theorem components_entry {p : Path} (hne : p.text ≠ "") {name : String} (hname : IsEntryName name) :
    (p.entry name).components = p.components ++ [.name name] := by
  have hentry : (pathPieces p.text).filterMap Component.ofText? =
      (entryPieces p).filterMap Component.ofText? := by
    by_cases hlast : p.text.toList.getLast? = some '/'
    · rw [FileSystem.pathPieces_of_getLast? hlast, List.filterMap_append]
      exact List.append_nil _
    · rw [FileSystem.pathPieces_of_getLast?_ne hlast]
  have hof : Component.ofText? name = some (.name name) := by
    rcases Component.ofText?_cases name with ⟨hempty | hdot, -⟩ | ⟨hup, -⟩ | ⟨-, hof⟩
    · exact absurd hempty hname.ne_empty
    · exact absurd hdot hname.ne_here
    · exact absurd hup hname.ne_up
    · exact hof
  rw [components_eq, lead_entry hne hname, FileSystem.pathPieces_entry hne hname.separator_notMem,
    List.filterMap_append, ← hentry, ← List.append_assoc, ← components_eq,
    List.filterMap_cons_some hof, List.filterMap_nil]

/-- What is below a path begins as the path does, and goes up only if the path does. -/
theorem lead_below {p : Path} (hne : p.text ≠ "") {names : List String}
    (hnames : ∀ name ∈ names, IsEntryName name) :
    (p.below names).lead = p.lead ∧ (p.below names).goesUp = p.goesUp := by
  induction names generalizing p with
  | nil => exact ⟨rfl, rfl⟩
  | cons name names ih =>
    have hname := hnames name List.mem_cons_self
    obtain ⟨hlead, hup⟩ := ih (FileSystem.text_entry_ne hne hname) fun other hother =>
      hnames other (List.mem_cons_of_mem _ hother)
    refine ⟨hlead.trans (lead_entry hne hname), hup.trans ?_⟩
    simp [goesUp, components_entry hne hname]

end Path

/-! ## Trees without links -/

/-- There is no link in the tree. -/
def FileTree.HasNoLinks (t : FileTree) : Prop :=
  ∀ place target, t.get? place ≠ some (.link target)

namespace FileSystem

variable {fs : FileSystem}

/-- Without links and ways up, a path is followed name by name. -/
theorem follow_of_hasNoLinks (hlinks : fs.root.HasNoLinks) {links : Nat}
    {place pieces next : List String} (hup : ".." ∉ pieces)
    (h : fs.follow true links place pieces = .ok next) :
    next = place ++ pieces.filter fun piece => piece ≠ "" ∧ piece ≠ "." := by
  induction links, place, pieces using fs.follow_induction with
  | nil links place =>
    rw [follow_nil] at h
    cases h
    simp
  | lost links place piece pieces e hland =>
    rw [follow_cons, hland] at h
    cases h
  | step links place piece pieces stop hland ih =>
    rw [List.mem_cons, not_or] at hup
    rw [follow_cons, hland] at h
    rw [ih hup.2 h]
    obtain ⟨-, ⟨hhere, hstop⟩ | ⟨rfl, -⟩ | ⟨⟨hempty, hdot, -⟩, node, -, hstop⟩⟩ :=
      land_eq_ok_iff.1 hland
    · cases hstop
      rw [List.filter_cons_of_neg]
      rcases hhere with rfl | rfl <;> simp
    · exact absurd rfl hup.1
    · cases node with
      | link target => cases hstop
      | directory entries =>
        cases hstop
        simp [hempty, hdot]
      | file content =>
        cases hstop
        simp [hempty, hdot]
  | spent place piece pieces target hland => exact absurd (get?_of_land_eq_link hland) (hlinks _ _)
  | link links place piece pieces target hland =>
    exact absurd (get?_of_land_eq_link hland) (hlinks _ _)

theorem startOf_eq (fs : FileSystem) (p : Path) :
    fs.startOf p = if p.lead = some .root then [] else fs.workingDirectory := by
  simp only [startOf, p.isAbsolute_iff]

/-- Paths that begin alike, do not go up and lead to the same place are the same. -/
theorem same_of_resolve (hlinks : fs.root.HasNoLinks) {p q : Path} {place : List String}
    (hp : p.goesUp = false) (hq : q.goesUp = false) (hlead : p.lead = q.lead)
    (hresolveP : fs.resolve p = .ok place) (hresolveQ : fs.resolve q = .ok place) :
    p.same q = true := by
  have hplaceP := follow_of_hasNoLinks hlinks (Path.goesUp_eq_false_iff.1 hp) hresolveP
  have hplaceQ := follow_of_hasNoLinks hlinks (Path.goesUp_eq_false_iff.1 hq) hresolveQ
  have hstart : fs.startOf p = fs.startOf q := by rw [startOf_eq, startOf_eq, hlead]
  have hboth : fs.startOf p ++ p.names = fs.startOf p ++ q.names :=
    hplaceP.symm.trans (hstart ▸ hplaceQ)
  exact Path.same_of_names hp hq hlead (List.append_cancel_left hboth)

/-! ## What is found -/

theorem exists_of_mem_keepEntry {p q : Path} {found : List Path} (h : fs.keepEntry p = .ok found)
    (hq : q ∈ found) : q = p := by
  rw [keepEntry_eq] at h
  cases hresolve : fs.resolve p with
  | error e =>
    rw [hresolve] at h
    cases h
  | ok place =>
    rw [hresolve] at h
    cases h
    dsimp only at hq
    split at hq
    · exact List.mem_singleton.1 hq
    · cases hq

/-- The paths found at a node are below its path. -/
theorem exists_of_mem_searchNode {p q : Path} {t : FileTree} (hproper : t.IsProper)
    {found : List Path} (h : fs.searchNode p t = .ok found) (hq : q ∈ found) :
    ∃ names, (∀ name ∈ names, IsEntryName name) ∧ q = p.below names := by
  have hself {p : Path} (hq : q = p) :
      ∃ names, (∀ name ∈ names, IsEntryName name) ∧ q = p.below names :=
    ⟨[], by simp, hq⟩
  induction t using FileTree.induction generalizing p found with
  | file content => exact hself (exists_of_mem_keepEntry h hq)
  | link target => exact hself (exists_of_mem_keepEntry h hq)
  | directory entries ih =>
    rw [searchNode] at h
    cases hfault : pathFault? p with
    | some e =>
      rw [hfault] at h
      cases h
    | none =>
      rw [hfault] at h
      dsimp only at h
      rw [searchEntries_eq] at h
      obtain ⟨e, he, here, hhere, hmem⟩ := exists_of_mem_gather h hq
      obtain ⟨names, hnames, rfl⟩ := ih e he (hproper.child he) hhere hmem
      refine ⟨e.1 :: names, ?_, rfl⟩
      exact List.forall_mem_cons.2 ⟨(hproper [] entries rfl).2 e he, hnames⟩

theorem exists_of_mem_findDocumentsAt (hproper : fs.root.IsProper) {p q : Path} {found : List Path}
    (h : fs.findDocumentsAt p = .ok found) (hq : q ∈ found) :
    q = p ∨ p.text ≠ "" ∧ ∃ names, (∀ name ∈ names, IsEntryName name) ∧ q = p.below names := by
  rw [findDocumentsAt] at h
  split at h
  · next hdirectory =>
    right
    obtain ⟨hfault, place, entries, hplace, hentries⟩ := isDirectory_iff.1 hdirectory
    have hlookup : fs.lookup true p = .ok (.directory entries) :=
      lookup_eq_ok_iff.2 ⟨hfault, place, hplace, hentries⟩
    rw [featureFiles_eq_searchNode hlookup] at h
    cases hsearch : fs.searchNode p (.directory entries) with
    | error e =>
      rw [hsearch] at h
      cases h
    | ok files =>
      rw [hsearch] at h
      cases h
      constructor
      · intro hempty
        simp [pathFault?, hempty] at hfault
      · exact exists_of_mem_searchNode (hproper.get? hentries) hsearch (List.mem_mergeSort.1 hq)
  · cases h
    exact .inl (List.mem_singleton.1 hq)

/-- A file stands for itself. -/
theorem findDocumentsAt_of_file {p : Path} {place : List String} {content : ByteArray}
    (h : fs.resolve p = .ok place) (hfile : fs.root.get? place = some (.file content)) :
    fs.findDocumentsAt p = .ok [p] := by
  have hnot : fs.isDirectory p = false := by
    refine isDirectory_eq_false fun other entries hother hentries => ?_
    cases h.symm.trans hother
    cases hfile.symm.trans hentries
  simp [findDocumentsAt, hnot]

theorem findDocuments_eq (fs : FileSystem) (paths : List Path) :
    fs.findDocuments paths =
      (gather fs.findDocumentsAt paths).map fun found => dropSame (sortPaths found) := by
  rw [findDocuments, ← mapM_flatten_eq_gather]
  cases paths.mapM fs.findDocumentsAt <;> rfl

theorem findDocuments_of_sorted {paths all : List Path}
    (h : gather fs.findDocumentsAt paths = .ok all)
    (hsorted : all.Pairwise fun p q => p.le q = true) :
    fs.findDocuments paths = .ok (dropSame all) := by
  have hsort : sortPaths all = all := List.mergeSort_of_pairwise hsorted
  rw [findDocuments_eq, h]
  exact congrArg (fun found => Except.ok (dropSame found)) hsort

/-! ## Each once -/

theorem dropSameAs_sublist (last : Path) (paths : List Path) :
    (dropSame.dropSameAs last paths).Sublist paths := by
  induction paths generalizing last with
  | nil => exact List.Sublist.refl _
  | cons p paths ih =>
    rw [dropSame.dropSameAs]
    split
    · exact (ih last).cons p
    · exact (ih p).cons_cons p

theorem dropSame_sublist (paths : List Path) : (dropSame paths).Sublist paths := by
  cases paths with
  | nil => exact List.Sublist.refl _
  | cons p paths => exact (dropSameAs_sublist p paths).cons_cons p

/-- In ordered paths, those that are the same stand side by side. -/
theorem pairwise_dropSameAs {last : Path} {paths : List Path}
    (h : (last :: paths).Pairwise fun p q => p.le q = true) :
    (last :: dropSame.dropSameAs last paths).Pairwise fun p q => p.same q = false := by
  induction paths generalizing last with
  | nil => exact List.pairwise_singleton _ _
  | cons p paths ih =>
    obtain ⟨hlast, hrest⟩ := List.pairwise_cons.1 h
    rw [dropSame.dropSameAs]
    split
    · next hsame =>
      refine ih (List.pairwise_cons.2 ⟨fun q hq => hlast q (List.mem_cons_of_mem p hq), ?_⟩)
      exact (List.pairwise_cons.1 hrest).2
    · next hother =>
      refine List.pairwise_cons.2 ⟨fun q hq => ?_, ih hrest⟩
      have hp : last.same p = false := by simpa using hother
      rcases List.mem_cons.1 hq with rfl | hmem
      · exact hp
      · -- What comes after `p` is not the same as `last`, or `p` would be, which is in between.
        have hpq := (List.pairwise_cons.1 hrest).1 q ((dropSameAs_sublist p paths).subset hmem)
        rw [Bool.eq_false_iff]
        intro hsame
        obtain ⟨-, hqlast⟩ := Path.same_iff.1 hsame
        have hplast := Path.same_iff.2 ⟨hlast p List.mem_cons_self, Path.le_trans hpq hqlast⟩
        rw [hp] at hplast
        cases hplast

theorem pairwise_sortPaths (paths : List Path) :
    (sortPaths paths).Pairwise fun p q => p.le q = true := by
  rw [sortPaths]
  refine List.pairwise_mergeSort ?_ ?_ paths
  · exact fun p q r => Path.le_trans
  · exact fun p q => p.le_total q

theorem pairwise_dropSame_sortPaths (paths : List Path) :
    (dropSame (sortPaths paths)).Pairwise fun p q => p.same q = false := by
  have hsorted := pairwise_sortPaths paths
  cases hpaths : sortPaths paths with
  | nil => exact List.Pairwise.nil
  | cons p rest =>
    rw [hpaths] at hsorted
    exact pairwise_dropSameAs hsorted

/-- Two paths lead to the same file. -/
def NameSameFile (fs : FileSystem) (p q : Path) : Prop :=
  ∃ place content, fs.resolve p = .ok place ∧ fs.resolve q = .ok place ∧
    fs.root.get? place = some (.file content)

/-- In a tree without links, no two documents that are found have the same components, and two that
are the same file are spelled in different ways: one goes up, or they begin differently. So no file
is found twice if the given paths do not go up and all begin alike. -/
theorem findDocuments_pairwise (hlinks : fs.root.HasNoLinks) {paths found : List Path}
    (h : fs.findDocuments paths = .ok found) :
    found.Pairwise (fun p q => p.same q = false) ∧
      found.Pairwise (fun p q => fs.NameSameFile p q →
        p.goesUp = true ∨ q.goesUp = true ∨ p.lead ≠ q.lead) ∧
      (fs.root.IsProper → ∀ lead, (∀ p ∈ paths, p.goesUp = false ∧ p.lead = lead) →
        found.Pairwise fun p q => ¬fs.NameSameFile p q) := by
  rw [findDocuments_eq] at h
  cases hgather : gather fs.findDocumentsAt paths with
  | error e =>
    rw [hgather] at h
    cases h
  | ok all =>
    rw [hgather] at h
    cases h
    have hpairwise := pairwise_dropSame_sortPaths all
    have hspelled : (dropSame (sortPaths all)).Pairwise fun p q => fs.NameSameFile p q →
        p.goesUp = true ∨ q.goesUp = true ∨ p.lead ≠ q.lead := by
      refine hpairwise.imp fun {p q} hsame => ?_
      rintro ⟨place, content, hp, hq, -⟩
      by_contra hspelling
      simp only [not_or, Bool.not_eq_true, not_not] at hspelling
      obtain ⟨hupP, hupQ, hlead⟩ := hspelling
      rw [same_of_resolve hlinks hupP hupQ hlead hp hq] at hsame
      cases hsame
    refine ⟨hpairwise, hspelled, fun hproper lead hpaths => ?_⟩
    have hfound : ∀ q ∈ dropSame (sortPaths all), q.goesUp = false ∧ q.lead = lead := by
      intro q hq
      have hmem : q ∈ all := List.mem_mergeSort.1 ((dropSame_sublist _).subset hq)
      obtain ⟨p, hp, here, hhere, hqhere⟩ := exists_of_mem_gather hgather hmem
      obtain ⟨hup, hlead⟩ := hpaths p hp
      rcases exists_of_mem_findDocumentsAt hproper hhere hqhere with
        rfl | ⟨hne, names, hnames, rfl⟩
      · exact ⟨hup, hlead⟩
      · obtain ⟨hbelow, hupBelow⟩ := Path.lead_below hne hnames
        exact ⟨hupBelow.trans hup, hbelow.trans hlead⟩
    refine List.Pairwise.imp_of_mem (fun {p q} hp hq hspell hname => ?_) hspelled
    obtain ⟨hupP, hleadP⟩ := hfound p hp
    obtain ⟨hupQ, hleadQ⟩ := hfound q hq
    rcases hspell hname with h | h | h
    · rw [hupP] at h
      cases h
    · rw [hupQ] at h
      cases h
    · exact h (hleadP.trans hleadQ.symm)

/-- A directory with two feature files. -/
def shelf : FileSystem where
  root := .directory
    [("d", .directory [("a.feature", .file ⟨#[]⟩), ("b.feature", .file ⟨#[]⟩)])]
  workingDirectory := []

theorem isProper_shelf : shelf.root.IsProper :=
  FileTree.isProper_directory (by decide)
    (List.forall_mem_singleton.2 ⟨by decide, FileTree.isProper_of_flat (by decide) (by decide)⟩)

theorem hasNoLinks_shelf : shelf.root.HasNoLinks := by
  intro place target h
  have hmem := (FileTree.mem_leaves_iff isProper_shelf).2 ⟨_, h, rfl⟩
  have hleaves : shelf.root.leaves = [["d", "a.feature"], ["d", "b.feature"]] := rfl
  simp only [hleaves, List.mem_cons, List.not_mem_nil, or_false] at hmem
  rcases hmem with rfl | rfl
  · cases h
  · cases h

theorem resolve_shelf :
    shelf.resolve ⟨"d"⟩ = .ok ["d"] ∧ shelf.resolve ⟨"d/a.feature"⟩ = .ok ["d", "a.feature"] ∧
      shelf.resolve ⟨"d/b.feature"⟩ = .ok ["d", "b.feature"] ∧
      shelf.resolve ⟨"./d/a.feature"⟩ = .ok ["d", "a.feature"] := by
  have hdot : shelf.land [] "." = .ok (.place []) := rfl
  have hd : shelf.land [] "d" = .ok (.place ["d"]) := rfl
  have ha : shelf.land ["d"] "a.feature" = .ok (.place ["d", "a.feature"]) := rfl
  have hb : shelf.land ["d"] "b.feature" = .ok (.place ["d", "b.feature"]) := rfl
  have hstart (p : Path) : shelf.startOf p = [] := by simp [startOf, shelf]
  have hpieces : pathPieces "d" = ["d"] ∧ pathPieces "d/a.feature" = ["d", "a.feature"] ∧
      pathPieces "d/b.feature" = ["d", "b.feature"] ∧
      pathPieces "./d/a.feature" = [".", "d", "a.feature"] := by decide
  simp [resolve_eq, hstart, hpieces, follow_cons, hdot, hd, ha, hb]

theorem findDocumentsAt_shelf :
    shelf.findDocumentsAt ⟨"d"⟩ = .ok [⟨"d/a.feature"⟩, ⟨"d/b.feature"⟩] := by
  obtain ⟨hd, ha, hb, -⟩ := resolve_shelf
  have hfault : pathFault? ⟨"d"⟩ = none := by decide
  have hdirectory : shelf.isDirectory ⟨"d"⟩ = true := isDirectory_iff.2 ⟨hfault, _, _, hd, rfl⟩
  have hlookup := lookup_eq_ok_iff.2 ⟨hfault, _, hd, rfl⟩
  have hkeepA : shelf.keepEntry (Path.entry ⟨"d"⟩ "a.feature") = .ok [⟨"d/a.feature"⟩] := by
    rw [show Path.entry ⟨"d"⟩ "a.feature" = ⟨"d/a.feature"⟩ by decide, keepEntry_eq, ha]
    rfl
  have hkeepB : shelf.keepEntry (Path.entry ⟨"d"⟩ "b.feature") = .ok [⟨"d/b.feature"⟩] := by
    rw [show Path.entry ⟨"d"⟩ "b.feature" = ⟨"d/b.feature"⟩ by decide, keepEntry_eq, hb]
    rfl
  have hsort : sortPaths [⟨"d/a.feature"⟩, ⟨"d/b.feature"⟩] = [⟨"d/a.feature"⟩, ⟨"d/b.feature"⟩] :=
    List.mergeSort_of_pairwise (by decide)
  rw [findDocumentsAt, if_pos hdirectory, featureFiles_eq_searchNode hlookup, searchNode, hfault]
  simp only [searchEntries, searchNode, hkeepA, hkeepB]
  exact congrArg Except.ok hsort

/-- A directory and a file in it, which is found once. -/
theorem findDocuments_pairwise_shelf :
    shelf.findDocuments [⟨"d/a.feature"⟩, ⟨"d"⟩] = .ok [⟨"d/a.feature"⟩, ⟨"d/b.feature"⟩] ∧
      List.Pairwise (fun p q => ¬shelf.NameSameFile p q) [⟨"d/a.feature"⟩, ⟨"d/b.feature"⟩] := by
  have hgather : gather shelf.findDocumentsAt [⟨"d/a.feature"⟩, ⟨"d"⟩] =
      .ok [⟨"d/a.feature"⟩, ⟨"d/a.feature"⟩, ⟨"d/b.feature"⟩] := by
    rw [gather, findDocumentsAt_of_file resolve_shelf.2.1 rfl, gather, findDocumentsAt_shelf]
    rfl
  have hfound : shelf.findDocuments [⟨"d/a.feature"⟩, ⟨"d"⟩] =
      .ok [⟨"d/a.feature"⟩, ⟨"d/b.feature"⟩] := findDocuments_of_sorted hgather (by decide)
  obtain ⟨-, -, hdistinct⟩ := findDocuments_pairwise hasNoLinks_shelf hfound
  exact ⟨hfound, hdistinct isProper_shelf none (by decide)⟩

/-- A file given with a dot in front and without is found twice. -/
theorem findDocuments_shelf :
    let p : Path := ⟨"./d/a.feature"⟩
    let q : Path := ⟨"d/a.feature"⟩
    shelf.root.HasNoLinks ∧ shelf.findDocuments [p, q] = .ok [p, q] ∧ shelf.NameSameFile p q := by
  intro p q
  obtain ⟨-, hq, -, hp⟩ := resolve_shelf
  have hgather : gather shelf.findDocumentsAt [p, q] = .ok [p, q] := by
    rw [gather, findDocumentsAt_of_file hp rfl, gather, findDocumentsAt_of_file hq rfl]
    rfl
  have hboth : dropSame [p, q] = [p, q] := by decide
  have hfound := findDocuments_of_sorted hgather (by decide)
  rw [hboth] at hfound
  exact ⟨hasNoLinks_shelf, hfound, _, _, hp, hq, rfl⟩

end FileSystem

end FeatureAtlas
