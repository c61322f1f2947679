import FeatureAtlas.Proofs.Searching

/-!
# Loops of links

A link that leads to no end makes a search fail wherever it is met, as every entry of a directory
that is no directory itself is resolved. `FileTree.without` takes places out of a tree; without its
loops a tree resolves all paths that lead to an end as it did before, since no such path goes
through a loop. `FileSystem.featureFiles_of_loops` compares the two searches.
-/

namespace FeatureAtlas

/-! ## Trees without some places -/

/-- What gives nothing on the one side may be left out on the other. -/
theorem flatMap_filter_eq {α β : Type} {p : α → Bool} {g h : α → List β} {xs : List α}
    (hkept : ∀ x ∈ xs, p x = true → g x = h x) (hgone : ∀ x ∈ xs, p x = false → h x = []) :
    (xs.filter p).flatMap g = xs.flatMap h := by
  induction xs with
  | nil => rfl
  | cons x xs ih =>
    have hrest := ih (fun y hy => hkept y (List.mem_cons_of_mem x hy))
      fun y hy => hgone y (List.mem_cons_of_mem x hy)
    cases hx : p x with
    | true => rw [List.filter_cons_of_pos hx, List.flatMap_cons, List.flatMap_cons, hrest,
        hkept x List.mem_cons_self hx]
    | false => rw [List.filter_cons_of_neg (by simpa using hx), List.flatMap_cons, hrest,
        hgone x List.mem_cons_self hx, List.nil_append]

namespace FileTree

mutual

/-- The tree without the entries at some places. -/
def without (gone : List String → Bool) : FileTree → FileTree
  | .directory entries => .directory (withoutAmong gone entries)
  | .file content => .file content
  | .link target => .link target

/-- The entries of a directory without those at some places. -/
def withoutAmong (gone : List String → Bool) : List (String × FileTree) → List (String × FileTree)
  | [] => []
  | (name, node) :: entries =>
    if gone [name] then withoutAmong gone entries
    else (name, node.without fun names => gone (name :: names)) :: withoutAmong gone entries

end

theorem without_directory (gone : List String → Bool) (entries : List (String × FileTree)) :
    (directory entries).without gone =
      .directory ((entries.filter fun e => !gone [e.1]).map fun e =>
        (e.1, e.2.without fun names => gone (e.1 :: names))) := by
  rw [without]
  congr 1
  induction entries with
  | nil => rfl
  | cons e entries ih =>
    obtain ⟨name, node⟩ := e
    rw [withoutAmong, ih]
    cases hgone : gone [name] <;> simp [hgone]

@[simp] theorem isFile_without (gone : List String → Bool) (t : FileTree) :
    (t.without gone).isFile = t.isFile := by
  cases t <;> rfl

theorem child?_without (gone : List String → Bool) (t : FileTree) (name : String) :
    (t.without gone).child? name =
      if gone [name] then none
      else (t.child? name).map fun node => node.without fun names => gone (name :: names) := by
  cases t with
  | file content => simp [without, child?]
  | link target => simp [without, child?]
  | directory entries =>
    rw [without_directory]
    simp only [child?, List.find?_map, Option.map_map]
    induction entries with
    | nil => simp
    | cons e entries ih =>
      by_cases hname : e.1 = name
      · cases hgone : gone [name] with
        | true => simpa [hname, hgone] using ih
        | false => simp [hname, hgone]
      · cases hgone : gone [e.1] <;> simpa [hgone, hname] using ih

variable {t : FileTree} {gone : List String → Bool}

/-- Taking out what has nothing below it leaves all other places as they were, but for what is taken
out below them. -/
theorem get?_without (hroot : gone [] = false)
    (hleaf : ∀ names, gone names = true → ∀ entries, t.get? names ≠ some (.directory entries))
    (names : List String) :
    (t.without gone).get? names =
      if gone names then none
      else (t.get? names).map fun node => node.without fun more => gone (names ++ more) := by
  induction names generalizing t gone with
  | nil => simp [hroot]
  | cons name names ih =>
    rw [get?_cons, get?_cons, child?_without]
    cases hchild : t.child? name with
    | none => simp
    | some node =>
      cases hgone : gone [name] with
      | false =>
        have hbelow : ∀ names, gone (name :: names) = true →
            ∀ entries, node.get? names ≠ some (.directory entries) := by
          intro names hnames entries hnode
          refine hleaf (name :: names) hnames entries ?_
          rw [get?_cons, hchild]
          exact hnode
        simpa using ih hgone hbelow
      | true =>
        -- There is nothing below the place that is gone, so `names` leads to nothing in the tree.
        cases names with
        | nil => simp [hgone]
        | cons inner names =>
          have hnone : node.child? inner = none := by
            refine Option.eq_none_iff_forall_ne_some.2 fun below hbelow => ?_
            obtain ⟨entries, rfl, -⟩ := exists_of_child? hbelow
            refine hleaf [name] hgone entries ?_
            rw [get?_cons, hchild]
            rfl
          simp [get?_cons, hnone]

/-- The leaves are then those that are not taken out. -/
theorem leaves_without (hproper : t.IsProper) (hroot : gone [] = false)
    (hleaf : ∀ names, gone names = true → ∀ entries, t.get? names ≠ some (.directory entries)) :
    (t.without gone).leaves = t.leaves.filter fun names => !gone names := by
  induction t using FileTree.induction generalizing gone with
  | file content => simp [without, leaves, hroot]
  | link target => simp [without, leaves, hroot]
  | directory entries ih =>
    have hnodup := (hproper [] entries rfl).1
    rw [without_directory, leaves_directory, leaves_directory, List.filter_flatMap,
      List.flatMap_map]
    have hentry : ∀ e ∈ entries, (!gone [e.1]) = true →
        (e.2.without fun names => gone (e.1 :: names)).leaves.map (e.1 :: ·) =
          (e.2.leaves.map (e.1 :: ·)).filter fun names => !gone names := by
      intro e he hkept
      rw [ih e he (hproper.child he) (by simpa using hkept), List.filter_map]
      · rfl
      · intro names hnames inner hinner
        refine hleaf (e.1 :: names) hnames inner ?_
        rw [get?_cons, child?_of_mem hnodup he]
        exact hinner
    have hgone : ∀ e ∈ entries, (!gone [e.1]) = false →
        (e.2.leaves.map (e.1 :: ·)).filter (fun names => !gone names) = [] := by
      intro e he hkept
      have hnot : ∀ inner, e.2 ≠ .directory inner := by
        rintro inner hinner
        refine hleaf [e.1] (by simpa using hkept) inner ?_
        rw [get?_cons, child?_of_mem hnodup he, hinner]
        rfl
      have hsingle : e.2.leaves = [[]] := by
        cases hnode : e.2 with
        | directory inner => exact absurd hnode (hnot inner)
        | file content => rfl
        | link target => rfl
      simpa [hsingle] using hkept
    refine flatMap_filter_eq (fun e he hkept => ?_) hgone
    exact hentry e he hkept

/-- The only directory in a directory without directories is that directory. -/
theorem eq_nil_of_get?_directory {entries inner : List (String × FileTree)} {names : List String}
    (hflat : ∀ e ∈ entries, e.2.isDirectory = false)
    (h : (directory entries).get? names = some (.directory inner)) : names = [] := by
  cases names with
  | nil => rfl
  | cons name names =>
    obtain ⟨child, hchild, hbelow⟩ := Option.bind_eq_some_iff.1 h
    obtain ⟨_, heq, hmem⟩ := exists_of_child? hchild
    cases heq
    exact absurd hbelow (get?_ne_directory (hflat _ hmem) names inner)

end FileTree

namespace FileSystem

/-! ## Without loops -/

open Classical in
/-- Whether a loop stands at a place. -/
noncomputable def hasLoop (fs : FileSystem) (place : List String) : Bool :=
  decide (fs.IsLoop place)

theorem hasLoop_iff {fs : FileSystem} {place : List String} :
    fs.hasLoop place = true ↔ fs.IsLoop place := by
  simp [hasLoop]

/-- The files without the links that lead to no end. -/
noncomputable def withoutLoops (fs : FileSystem) : FileSystem where
  root := fs.root.without fs.hasLoop
  workingDirectory := fs.workingDirectory

theorem hasLoop_nil (fs : FileSystem) : fs.hasLoop [] = false := by
  rw [Bool.eq_false_iff, ne_eq, hasLoop_iff]
  rintro ⟨directory, name, hplace, -⟩
  simp at hplace

variable {fs : FileSystem}

theorem ne_directory_of_hasLoop {place : List String} (h : fs.hasLoop place = true)
    (entries : List (String × FileTree)) : fs.root.get? place ≠ some (.directory entries) := by
  obtain ⟨target, htarget⟩ := (hasLoop_iff.1 h).exists_link
  simp [htarget]

/-- A loop is gone, and all else stands where it stood, itself without loops. -/
theorem get?_withoutLoops (fs : FileSystem) (place : List String) :
    fs.withoutLoops.root.get? place =
      if fs.hasLoop place then none
      else (fs.root.get? place).map (·.without fun more => fs.hasLoop (place ++ more)) :=
  FileTree.get?_without fs.hasLoop_nil (fun _ => ne_directory_of_hasLoop) place

theorem landing_at_without (place : List String) (gone : List String → Bool) (node : FileTree) :
    Landing.at place (node.without gone) = Landing.at place node := by
  cases node <;> rfl

/-- A piece that does not lead to a loop leads where it did. -/
theorem land_withoutLoops {place : List String} {piece : String} {landing : Landing}
    (h : fs.land place piece = .ok landing) (hloop : fs.hasLoop (place ++ [piece]) = false) :
    fs.withoutLoops.land place piece = .ok landing := by
  obtain ⟨⟨entries, hdirectory⟩, hcases⟩ := land_eq_ok_iff.1 h
  have hplace : ¬fs.hasLoop place = true := fun hplace =>
    ne_directory_of_hasLoop hplace entries hdirectory
  refine land_eq_ok_iff.2 ⟨⟨FileTree.withoutAmong (fun more => fs.hasLoop (place ++ more)) entries,
    ?_⟩, ?_⟩
  · rw [get?_withoutLoops, if_neg hplace, hdirectory]
    rfl
  · rcases hcases with hhere | hup | ⟨hname, node, hnode, rfl⟩
    · exact .inl hhere
    · exact .inr (.inl hup)
    · refine .inr (.inr ⟨hname, node.without fun more => fs.hasLoop (place ++ [piece] ++ more), ?_,
        (landing_at_without _ _ _).symm⟩)
      rw [get?_withoutLoops, hloop, hnode]
      rfl

/-- A path that leads to an end leads there without the loops, as it goes through none. -/
theorem follow_withoutLoops {links : Nat} {place pieces next : List String}
    (h : fs.follow true links place pieces = .ok next) :
    fs.withoutLoops.follow true links place pieces = .ok next := by
  have hloop {links : Nat} {place : List String} {piece : String} {pieces : List String}
      (h : fs.follow true links place (piece :: pieces) = .ok next) :
      fs.hasLoop (place ++ [piece]) = false := by
    rw [Bool.eq_false_iff, ne_eq, hasLoop_iff]
    intro hloop
    rw [hloop.follow_eq] at h
    cases h
  induction links, place, pieces using fs.follow_induction with
  | nil links place => simpa using h
  | lost links place piece pieces e hland =>
    rw [follow_cons, hland] at h
    cases h
  | step links place piece pieces _ hland ih =>
    have hland' := land_withoutLoops hland (hloop h)
    rw [follow_cons, hland] at h
    rw [follow_cons, hland']
    exact ih h
  | spent place piece pieces target hland =>
    rw [follow_cons, hland] at h
    simp at h
  | link links place piece pieces target hland ih =>
    have hland' := land_withoutLoops hland (hloop h)
    rw [follow_cons, hland] at h
    rw [follow_cons, hland']
    simp only [Bool.true_eq_false, and_false, if_false] at h ⊢
    exact ih h

theorem resolve_withoutLoops {p : Path} {place : List String} (h : fs.resolve p = .ok place) :
    fs.withoutLoops.resolve p = .ok place :=
  follow_withoutLoops h

/-- The same feature files are left. -/
theorem hasDocument_withoutLoops (fs : FileSystem) (place : List String) :
    fs.withoutLoops.hasDocument place = fs.hasDocument place := by
  have hfile : ((fs.withoutLoops.root.get? place).map FileTree.isFile).getD false =
      ((fs.root.get? place).map FileTree.isFile).getD false := by
    rw [get?_withoutLoops]
    cases hloop : fs.hasLoop place with
    | true =>
      obtain ⟨target, htarget⟩ := (hasLoop_iff.1 hloop).exists_link
      rw [htarget]
      rfl
    | false => cases fs.root.get? place <;> simp
  rw [hasDocument, hasDocument, hfile]

theorem isProper_withoutLoops (h : fs.root.IsProper) : fs.withoutLoops.root.IsProper := by
  intro place inner hinner
  rw [get?_withoutLoops] at hinner
  split at hinner
  · cases hinner
  · obtain ⟨node, hnode, hwithout⟩ := Option.map_eq_some_iff.1 hinner
    cases node with
    | file content => cases hwithout
    | link target => cases hwithout
    | directory entries =>
      obtain ⟨hnodup, hnames⟩ := h place entries hnode
      rw [FileTree.without_directory, FileTree.directory.injEq] at hwithout
      subst hwithout
      constructor
      · rw [List.map_map]
        exact (List.filter_sublist.map fun e : String × FileTree => e.1).nodup hnodup
      · intro e he
        obtain ⟨kept, hkept, rfl⟩ := List.mem_map.1 he
        exact hnames kept (List.mem_filter.1 hkept).1

theorem isDirectory_withoutLoops {p : Path} (h : fs.isDirectory p = true) :
    fs.withoutLoops.isDirectory p = true := by
  obtain ⟨hfault, place, entries, hplace, hdirectory⟩ := isDirectory_iff.1 h
  refine isDirectory_iff.2 ⟨hfault, place,
    FileTree.withoutAmong (fun more => fs.hasLoop (place ++ more)) entries,
    resolve_withoutLoops hplace, ?_⟩
  rw [get?_withoutLoops, if_neg fun hloop => ne_directory_of_hasLoop hloop entries hdirectory,
    hdirectory]
  rfl

/-! ## The two searches -/

/-- What is kept of an entry that resolves. -/
def kept (fs : FileSystem) (p : Path) : List Path :=
  match fs.resolve p with
  | .ok place => if fs.hasDocument place then [p] else []
  | .error _ => []

theorem keepEntry_of_resolve {p : Path} {place : List String} (h : fs.resolve p = .ok place) :
    fs.keepEntry p = .ok (fs.kept p) := by
  rw [keepEntry_eq, kept, h]
  rfl

theorem keepEntry_of_error {p : Path} {e : FileError} (h : fs.resolve p = .error e) :
    fs.keepEntry p = .error e := by
  rw [keepEntry_eq, h]
  rfl

theorem kept_withoutLoops {p : Path} {place : List String} (h : fs.resolve p = .ok place) :
    fs.withoutLoops.kept p = fs.kept p := by
  simp only [kept, h, resolve_withoutLoops h, hasDocument_withoutLoops]

/-- The links below a directory that do not resolve are loops. -/
def OnlyLoopsFail (fs : FileSystem) (base : Path) (place : List String) : Prop :=
  ∀ names target, fs.root.get? (place ++ names) = some (.link target) →
    (∃ next, fs.resolve (base.below names) = .ok next) ∨ fs.IsLoop (place ++ names)

namespace IsSearchable

variable {base : Path} {place : List String}

theorem withoutLoops (h : fs.IsSearchable base place) :
    fs.withoutLoops.IsSearchable base place := by
  refine ⟨isProper_withoutLoops h.proper, isDirectory_withoutLoops h.isDirectory,
    resolve_withoutLoops h.resolve_eq, fun names inner hinner => ?_⟩
  rw [get?_withoutLoops] at hinner
  split at hinner
  · cases hinner
  · obtain ⟨node, hnode, hwithout⟩ := Option.map_eq_some_iff.1 hinner
    cases node with
    | directory entries => exact h.opens names entries hnode
    | file content => cases hwithout
    | link target => cases hwithout

/-- Without the loops the other leaves are searched. -/
theorem featureFiles_withoutLoops (h : fs.IsSearchable base place) {t : FileTree}
    (ht : fs.root.get? place = some t) :
    fs.withoutLoops.featureFiles base =
      (gather (fun names => fs.withoutLoops.keepEntry (base.below names))
        (t.leaves.filter fun names => !fs.hasLoop (place ++ names))).map sortPaths := by
  have hnoLoop : fs.hasLoop place = false := by
    obtain ⟨entries, hdirectory⟩ := h.exists_directory
    exact Bool.eq_false_iff.2 fun hloop => ne_directory_of_hasLoop hloop entries hdirectory
  have hwithout : fs.withoutLoops.root.get? place =
      some (t.without fun names => fs.hasLoop (place ++ names)) := by
    rw [get?_withoutLoops, hnoLoop, ht]
    rfl
  have hroot : fs.hasLoop (place ++ []) = false := by
    rw [List.append_nil]
    exact hnoLoop
  have hleaf : ∀ names, fs.hasLoop (place ++ names) = true →
      ∀ entries, t.get? names ≠ some (.directory entries) := by
    intro names hloop entries hentries
    refine ne_directory_of_hasLoop hloop entries ?_
    rw [FileTree.get?_append, ht]
    exact hentries
  rw [h.withoutLoops.featureFiles_eq hwithout,
    FileTree.leaves_without (h.proper.get? ht) hroot hleaf]

/-- Every loop below the directory is one of its leaves. -/
theorem mem_leaves_of_isLoop (h : fs.IsSearchable base place) {t : FileTree}
    (ht : fs.root.get? place = some t) {names : List String} (hloop : fs.IsLoop (place ++ names)) :
    names ∈ t.leaves := by
  obtain ⟨target, htarget⟩ := hloop.exists_link
  rw [FileTree.get?_append, ht] at htarget
  exact (FileTree.mem_leaves_iff (h.proper.get? ht)).2 ⟨_, htarget, rfl⟩

/-- The path of a loop does not resolve, and all other leaves do if the links among them do. -/
theorem resolve_leaf (h : fs.IsSearchable base place) (hlinks : fs.OnlyLoopsFail base place)
    {t : FileTree} (ht : fs.root.get? place = some t) {names : List String}
    (hmem : names ∈ t.leaves) :
    if fs.hasLoop (place ++ names) then fs.resolve (base.below names) = .error .tooManyLinks
    else ∃ next, fs.resolve (base.below names) = .ok next := by
  obtain ⟨node, hnode, hleaf⟩ := (FileTree.mem_leaves_iff (h.proper.get? ht)).1 hmem
  obtain ⟨links, hresolve⟩ := h.resolve_below
  rcases List.eq_nil_or_concat names with rfl | ⟨above, name, rfl⟩
  · -- The directory itself is no leaf.
    obtain ⟨entries, hdirectory⟩ := h.exists_directory
    cases ht.symm.trans hdirectory
    cases hnode
    cases hleaf
  · rw [List.concat_eq_append] at hnode ⊢
    have hplace : fs.root.get? (place ++ (above ++ [name])) = some node := by
      rw [FileTree.get?_append, ht]
      exact hnode
    have heq := hresolve above name node hplace
    split
    · next hloop =>
      rw [← List.append_assoc] at hloop
      rw [heq]
      exact (hasLoop_iff.1 hloop).follow_eq links []
    · next hloop =>
      cases node with
      | directory inner => cases hleaf
      | file content => exact ⟨_, h.resolve_file hplace⟩
      | link target =>
        exact (hlinks _ target hplace).resolve_right fun h => hloop (hasLoop_iff.2 h)

/-- What the search makes of a leaf. -/
theorem keepEntry_leaf (h : fs.IsSearchable base place) (hlinks : fs.OnlyLoopsFail base place)
    {t : FileTree} (ht : fs.root.get? place = some t) {names : List String}
    (hmem : names ∈ t.leaves) :
    fs.keepEntry (base.below names) =
      if fs.hasLoop (place ++ names) then .error .tooManyLinks
      else .ok (fs.kept (base.below names)) := by
  have hleaf := h.resolve_leaf hlinks ht hmem
  split at hleaf
  · next hloop => rw [if_pos hloop, keepEntry_of_error hleaf]
  · next hloop =>
    obtain ⟨next, hnext⟩ := hleaf
    rw [if_neg hloop, keepEntry_of_resolve hnext]

/-- Without the loops the search does not fail, and keeps what the other leaves lead to. -/
theorem featureFiles_withoutLoops_eq_ok (h : fs.IsSearchable base place)
    (hlinks : fs.OnlyLoopsFail base place) {t : FileTree} (ht : fs.root.get? place = some t) :
    fs.withoutLoops.featureFiles base = .ok (sortPaths
      ((t.leaves.filter fun names => !fs.hasLoop (place ++ names)).flatMap
        fun names => fs.kept (base.below names))) := by
  rw [h.featureFiles_withoutLoops ht, gather_eq_ok (g := fun names => fs.kept (base.below names))]
  · rfl
  · intro names hnames
    obtain ⟨hmem, hkept⟩ := List.mem_filter.1 hnames
    have hresolve := h.resolve_leaf hlinks ht hmem
    rw [if_neg (by simpa using hkept)] at hresolve
    obtain ⟨next, hnext⟩ := hresolve
    rw [keepEntry_of_resolve (resolve_withoutLoops hnext), kept_withoutLoops hnext]

/-- A loop is the error of the search. -/
theorem featureFiles_of_isLoop (h : fs.IsSearchable base place)
    (hlinks : fs.OnlyLoopsFail base place) {names : List String}
    (hloop : fs.IsLoop (place ++ names)) :
    fs.featureFiles base = .error .tooManyLinks := by
  obtain ⟨entries, ht⟩ := h.exists_directory
  rw [h.featureFiles_eq ht, gather_eq_error (e := .tooManyLinks)]
  · rfl
  · have hmem := h.mem_leaves_of_isLoop ht hloop
    refine ⟨names, hmem, ?_⟩
    rw [h.keepEntry_leaf hlinks ht hmem, if_pos (hasLoop_iff.2 hloop)]
  · intro other hmem
    rw [h.keepEntry_leaf hlinks ht hmem]
    split
    · exact .inl rfl
    · exact .inr ⟨_, rfl⟩

end IsSearchable

/-- Where every link below a directory resolves or is a loop, the search without the loops finds the
feature files, and the search itself finds the same if there is no loop below the directory. If
there is one it fails, and for no other reason. -/
theorem featureFiles_of_loops {base : Path} {place : List String}
    (h : fs.IsSearchable base place) (hlinks : fs.OnlyLoopsFail base place) :
    ∃ found, fs.withoutLoops.featureFiles base = .ok found ∧
      ((¬∃ names, fs.IsLoop (place ++ names)) → fs.featureFiles base = .ok found) ∧
      ((∃ names, fs.IsLoop (place ++ names)) → fs.featureFiles base = .error .tooManyLinks) := by
  obtain ⟨entries, ht⟩ := h.exists_directory
  refine ⟨_, h.featureFiles_withoutLoops_eq_ok hlinks ht, fun hnone => ?_, ?_⟩
  · have hfree (names : List String) : fs.hasLoop (place ++ names) = false :=
      Bool.eq_false_iff.2 fun hloop => hnone ⟨names, hasLoop_iff.1 hloop⟩
    rw [h.featureFiles_eq ht, List.filter_eq_self.2 fun names _ => by simp [hfree],
      gather_eq_ok (g := fun names => fs.kept (base.below names))]
    · rfl
    · intro names hmem
      rw [h.keepEntry_leaf hlinks ht hmem, hfree]
      rfl
  · rintro ⟨names, hloop⟩
    exact h.featureFiles_of_isLoop hlinks hloop

/-! ## A loop beside a feature file -/

/-- A directory with a feature file, a link to the directory itself and a link to itself. -/
def looped : FileSystem where
  root := .directory [("d", .directory
    [("a.feature", .file ⟨#[]⟩), ("here", .link "."), ("loop", .link "loop")])]
  workingDirectory := []

theorem isProper_looped : looped.root.IsProper :=
  FileTree.isProper_directory (by decide)
    (List.forall_mem_singleton.2 ⟨by decide, FileTree.isProper_of_flat (by decide) (by decide)⟩)

theorem land_looped : looped.land [] "d" = .ok (.place ["d"]) := rfl

theorem isSearchable_looped : looped.IsSearchable ⟨"d"⟩ ["d"] := by
  have hresolve : looped.resolve ⟨"d"⟩ = .ok ["d"] := by
    have hstart : looped.startOf ⟨"d"⟩ = [] := rfl
    have hpieces : pathPieces "d" = ["d"] := by decide
    rw [resolve_eq, hstart, hpieces, follow_cons, land_looped]
    exact follow_nil ..
  refine ⟨isProper_looped, isDirectory_iff.2 ⟨by decide, ["d"], _, hresolve, rfl⟩, hresolve, ?_⟩
  intro names entries hentries
  obtain rfl : names = [] := FileTree.eq_nil_of_get?_directory (by decide) hentries
  decide

theorem isLoop_looped : looped.IsLoop ["d", "loop"] := by
  have hland : looped.land ["d"] "loop" = .ok (.link "loop") := rfl
  have hpieces : pathPieces "loop" = ["loop"] := by decide
  refine ⟨["d"], "loop", rfl, fun links => ?_⟩
  induction links with
  | zero =>
    rw [follow_cons, hland]
    rfl
  | succ links ih =>
    rw [follow_cons, hland]
    simpa [targetStart, isAbsolute, hpieces] using ih

/-- The link to the directory leads there. -/
theorem resolve_here_looped : looped.resolve ⟨"d/here"⟩ = .ok ["d"] := by
  have hstart : looped.startOf ⟨"d/here"⟩ = [] := rfl
  have hpieces : pathPieces "d/here" = ["d", "here"] := by decide
  have hlink : looped.land ["d"] "here" = .ok (.link ".") := rfl
  have hdot : pathPieces "." = ["."] := by decide
  have hhere : looped.land ["d"] "." = .ok (.place ["d"]) := rfl
  simp [resolve_eq, hstart, hpieces, follow_cons, land_looped, hlink, targetStart, isAbsolute, hdot,
    hhere, maxLinks]

theorem onlyLoopsFail_looped : looped.OnlyLoopsFail ⟨"d"⟩ ["d"] := by
  intro names target h
  have hmem := (FileTree.mem_leaves_iff isProper_looped).2 ⟨_, h, rfl⟩
  have hleaves : looped.root.leaves = [["d", "a.feature"], ["d", "here"], ["d", "loop"]] := rfl
  simp only [hleaves, List.cons_append, List.nil_append, List.mem_cons, List.cons.injEq, true_and,
    List.not_mem_nil, or_false] at hmem
  rcases hmem with rfl | rfl | rfl
  · cases h
  · have hbelow : Path.below ⟨"d"⟩ ["here"] = ⟨"d/here"⟩ := by decide
    exact .inl ⟨["d"], hbelow ▸ resolve_here_looped⟩
  · exact .inr isLoop_looped

theorem hasLoop_looped : looped.hasLoop ["d", "a.feature"] = false ∧
    looped.hasLoop ["d", "here"] = false ∧ looped.hasLoop ["d", "loop"] = true := by
  refine ⟨?_, ?_, hasLoop_iff.2 isLoop_looped⟩
  · refine Bool.eq_false_iff.2 fun hloop => ?_
    obtain ⟨target, htarget⟩ := (hasLoop_iff.1 hloop).exists_link
    cases htarget
  · refine Bool.eq_false_iff.2 fun hloop => ?_
    have hleaf := isSearchable_looped.resolve_leaf onlyLoopsFail_looped rfl
      (show ["here"] ∈ _ by decide)
    have hbelow : Path.below ⟨"d"⟩ ["here"] = ⟨"d/here"⟩ := by decide
    rw [List.singleton_append, if_pos hloop, hbelow, resolve_here_looped] at hleaf
    cases hleaf

/-- Without the loop the feature file is found. -/
theorem featureFiles_withoutLoops_looped :
    looped.withoutLoops.featureFiles ⟨"d"⟩ = .ok [⟨"d/a.feature"⟩] := by
  obtain ⟨hplain, hhere, hloop⟩ := hasLoop_looped
  have hbelow : Path.below ⟨"d"⟩ ["a.feature"] = ⟨"d/a.feature"⟩ ∧
      Path.below ⟨"d"⟩ ["here"] = ⟨"d/here"⟩ := by decide
  have hfile : looped.resolve ⟨"d/a.feature"⟩ = .ok ["d", "a.feature"] := by
    rw [← hbelow.1]
    exact isSearchable_looped.resolve_file rfl
  have hdocument : looped.hasDocument ["d", "a.feature"] = true ∧
      looped.hasDocument ["d"] = false := by decide
  rw [isSearchable_looped.featureFiles_withoutLoops_eq_ok onlyLoopsFail_looped rfl]
  simp [FileTree.leaves, FileTree.leavesAmong, hplain, hhere, hloop, hbelow, kept, hfile,
    resolve_here_looped, hdocument, sortPaths]

/-- Only without the loop is the feature file found. -/
theorem featureFiles_of_loops_looped :
    looped.IsSearchable ⟨"d"⟩ ["d"] ∧ looped.OnlyLoopsFail ⟨"d"⟩ ["d"] ∧
      looped.IsLoop ["d", "loop"] ∧
      looped.withoutLoops.featureFiles ⟨"d"⟩ = .ok [⟨"d/a.feature"⟩] ∧
      looped.featureFiles ⟨"d"⟩ = .error .tooManyLinks := by
  obtain ⟨found, hwithout, -, hfail⟩ :=
    featureFiles_of_loops isSearchable_looped onlyLoopsFail_looped
  obtain rfl : found = [⟨"d/a.feature"⟩] :=
    Except.ok.inj (hwithout.symm.trans featureFiles_withoutLoops_looped)
  exact ⟨isSearchable_looped, onlyLoopsFail_looped, isLoop_looped, hwithout,
    hfail ⟨["loop"], isLoop_looped⟩⟩

/-- Every link below the directory resolves or is a loop, and the search fails. -/
theorem featureFiles_looped :
    looped.IsSearchable ⟨"d"⟩ ["d"] ∧ looped.OnlyLoopsFail ⟨"d"⟩ ["d"] ∧
      looped.featureFiles ⟨"d"⟩ = .error .tooManyLinks :=
  ⟨isSearchable_looped, onlyLoopsFail_looped,
    isSearchable_looped.featureFiles_of_isLoop onlyLoopsFail_looped
      (show looped.IsLoop (["d"] ++ ["loop"]) from isLoop_looped)⟩

end FileSystem

end FeatureAtlas
