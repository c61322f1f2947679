import FeatureAtlas.FileTree
import Mathlib.Data.List.Induction
import Mathlib.Data.Nat.Init

/-!
# Following paths

`FileSystem.land` says where one piece of a path leads, whatever comes after it; `follow_cons` is
the whole of following a path in terms of it. What is followed first decides what is followed next:
`exists_follow_append` cuts a path in two. The path of an entry of a directory can so be followed
from the place of the directory (`LeadsTo`), with the links that the way to it has left over.
-/

namespace FeatureAtlas

/-! ## Places in a tree -/

namespace FileTree

@[simp] theorem get?_nil (t : FileTree) : t.get? [] = some t := rfl

theorem get?_cons (t : FileTree) (name : String) (names : List String) :
    t.get? (name :: names) = (t.child? name).bind (·.get? names) := rfl

theorem get?_append (t : FileTree) (names more : List String) :
    t.get? (names ++ more) = (t.get? names).bind (·.get? more) := by
  induction names generalizing t with
  | nil => rfl
  | cons name names ih =>
    rw [List.cons_append, get?_cons, get?_cons]
    cases t.child? name with
    | none => rfl
    | some node => exact ih node

theorem get?_append_singleton (t : FileTree) (names : List String) (name : String) :
    t.get? (names ++ [name]) = (t.get? names).bind (·.child? name) := by
  rw [get?_append]
  cases t.get? names with
  | none => rfl
  | some node => exact Option.bind_fun_some _

/-- Only directories have entries. -/
theorem exists_of_child? {t node : FileTree} {name : String} (h : t.child? name = some node) :
    ∃ entries, t = .directory entries ∧ (name, node) ∈ entries := by
  cases t with
  | directory entries =>
    obtain ⟨e, he, rfl⟩ := Option.map_eq_some_iff.1 h
    have hname : e.1 = name := by simpa using List.find?_some he
    exact ⟨entries, rfl, hname ▸ List.mem_of_find?_eq_some he⟩
  | file content => cases h
  | link target => cases h

/-- What stands above a place is a directory. -/
theorem exists_of_get?_append {t node : FileTree} {place names : List String} (hne : names ≠ [])
    (h : t.get? (place ++ names) = some node) :
    ∃ entries, t.get? place = some (.directory entries) := by
  rw [get?_append] at h
  obtain ⟨above, habove, hnode⟩ := Option.bind_eq_some_iff.1 h
  obtain ⟨name, names, rfl⟩ := List.exists_cons_of_ne_nil hne
  obtain ⟨child, hchild, -⟩ := Option.bind_eq_some_iff.1 hnode
  obtain ⟨entries, rfl, -⟩ := exists_of_child? hchild
  exact ⟨entries, habove⟩

end FileTree

/-- A name that an entry of a directory can have. -/
structure IsEntryName (name : String) : Prop where
  ne_empty : name ≠ ""
  ne_here : name ≠ "."
  ne_up : name ≠ ".."
  separator_notMem : '/' ∉ name.toList
  nul_notMem : '\x00' ∉ name.toList
  size_le : name.utf8ByteSize ≤ FileSystem.maxNameBytes

instance (name : String) : Decidable (IsEntryName name) :=
  decidable_of_iff
    (name ≠ "" ∧ name ≠ "." ∧ name ≠ ".." ∧ '/' ∉ name.toList ∧ '\x00' ∉ name.toList ∧
      name.utf8ByteSize ≤ FileSystem.maxNameBytes)
    ⟨fun ⟨hempty, hhere, hup, hseparator, hnul, hsize⟩ =>
        ⟨hempty, hhere, hup, hseparator, hnul, hsize⟩,
      fun h => ⟨h.ne_empty, h.ne_here, h.ne_up, h.separator_notMem, h.nul_notMem, h.size_le⟩⟩

/-- The entries of every directory have distinct names. -/
def FileTree.IsProper (t : FileTree) : Prop :=
  ∀ place entries, t.get? place = some (.directory entries) →
    (entries.map (·.1)).Nodup ∧ ∀ e ∈ entries, IsEntryName e.1

namespace FileTree

/-- In a directory with distinct names every entry is found by its name. -/
theorem child?_of_mem {entries : List (String × FileTree)} (hnodup : (entries.map (·.1)).Nodup)
    {name : String} {node : FileTree} (h : (name, node) ∈ entries) :
    (directory entries).child? name = some node := by
  induction entries with
  | nil => cases h
  | cons e entries ih =>
    rw [List.map_cons, List.nodup_cons] at hnodup
    rcases List.mem_cons.1 h with rfl | hmem
    · simp [child?]
    · have hne : e.1 ≠ name := fun heq =>
        hnodup.1 (heq ▸ List.mem_map_of_mem (f := (·.1)) hmem)
      have hrest := ih hnodup.2 hmem
      simp only [child?] at hrest ⊢
      rwa [List.find?_cons_of_neg (by simpa using hne)]

namespace IsProper

theorem child {entries : List (String × FileTree)} (h : (directory entries).IsProper)
    {name : String} {node : FileTree} (hmem : (name, node) ∈ entries) : node.IsProper := by
  intro place inner hplace
  refine h (name :: place) inner ?_
  rw [get?_cons, child?_of_mem (h [] entries rfl).1 hmem]
  exact hplace

theorem get? {t node : FileTree} (h : t.IsProper) {place : List String}
    (hnode : t.get? place = some node) : node.IsProper := by
  intro names entries hentries
  refine h (place ++ names) entries ?_
  rw [get?_append, hnode]
  exact hentries

/-- The last name on the way to a node is the name of an entry. -/
theorem isEntryName {t node : FileTree} (h : t.IsProper) {place : List String} {name : String}
    (hnode : t.get? (place ++ [name]) = some node) : IsEntryName name := by
  rw [get?_append_singleton] at hnode
  obtain ⟨above, habove, hchild⟩ := Option.bind_eq_some_iff.1 hnode
  obtain ⟨entries, rfl, hmem⟩ := exists_of_child? hchild
  exact (h place entries habove).2 _ hmem

end IsProper

/-- A directory is proper if its entries have distinct names and are proper. -/
theorem isProper_directory {entries : List (String × FileTree)}
    (hnodup : (entries.map (·.1)).Nodup)
    (hentries : ∀ e ∈ entries, IsEntryName e.1 ∧ e.2.IsProper) :
    (directory entries).IsProper := by
  intro place inner hplace
  cases place with
  | nil =>
    cases hplace
    exact ⟨hnodup, fun e he => (hentries e he).1⟩
  | cons name names =>
    rw [get?_cons] at hplace
    obtain ⟨child, hchild, hinner⟩ := Option.bind_eq_some_iff.1 hplace
    obtain ⟨_, heq, hmem⟩ := exists_of_child? hchild
    cases heq
    exact (hentries _ hmem).2 names inner hinner

/-- There is nothing below what is no directory. -/
theorem get?_ne_directory {t : FileTree} (h : t.isDirectory = false) (names : List String)
    (entries : List (String × FileTree)) : t.get? names ≠ some (.directory entries) := by
  intro hplace
  cases names with
  | nil =>
    cases hplace
    cases h
  | cons name names =>
    obtain ⟨child, hchild, -⟩ := Option.bind_eq_some_iff.1 hplace
    obtain ⟨_, rfl, -⟩ := exists_of_child? hchild
    cases h

/-- What has no entries is proper. -/
theorem isProper_of_not_isDirectory {t : FileTree} (h : t.isDirectory = false) : t.IsProper :=
  fun place entries hplace => absurd hplace (get?_ne_directory h place entries)

/-- A directory without directories is proper if its entries have distinct names. -/
theorem isProper_of_flat {entries : List (String × FileTree)} (hnodup : (entries.map (·.1)).Nodup)
    (hentries : ∀ e ∈ entries, IsEntryName e.1 ∧ e.2.isDirectory = false) :
    (directory entries).IsProper :=
  isProper_directory hnodup fun e he =>
    ⟨(hentries e he).1, isProper_of_not_isDirectory (hentries e he).2⟩

end FileTree

/-- The path of what is some names below. -/
def Path.below (p : Path) (names : List String) : Path :=
  names.foldl Path.entry p

@[simp] theorem Path.below_append_singleton (p : Path) (names : List String) (name : String) :
    p.below (names ++ [name]) = (p.below names).entry name := by
  simp [below]

namespace FileSystem

/-! ## One piece -/

/-- Where a piece leads: on to a place, or to a link whose target is to be followed. -/
inductive Landing where
  | place (names : List String)
  | link (target : String)

/-- Where a piece leads from a place. -/
def land (fs : FileSystem) (place : List String) (piece : String) : Except FileError Landing :=
  match fs.root.get? place with
  | none => .error .notFound
  | some node =>
    if !node.isDirectory then .error .notDirectory
    else if piece = "" ∨ piece = "." then .ok (.place place)
    else if piece = ".." then .ok (.place place.dropLast)
    else if maxNameBytes < piece.utf8ByteSize then .error .nameTooLong
    else
      match node.child? piece with
      | none => .error .notFound
      | some (.link target) => .ok (.link target)
      | some _ => .ok (.place (place ++ [piece]))

/-- Where the target of a link in a directory starts from. -/
def targetStart (place : List String) (target : String) : List String :=
  if isAbsolute target then [] else place

@[simp] theorem follow_nil (fs : FileSystem) (followLast : Bool) (links : Nat)
    (place : List String) : fs.follow followLast links place [] = .ok place := by
  rw [follow]

theorem follow_cons (fs : FileSystem) (followLast : Bool) (links : Nat) (place : List String)
    (piece : String) (pieces : List String) :
    fs.follow followLast links place (piece :: pieces) =
      match fs.land place piece with
      | .error e => .error e
      | .ok (.place next) => fs.follow followLast links next pieces
      | .ok (.link target) =>
        if pieces = [] ∧ followLast = false then .ok (place ++ [piece])
        else
          match links with
          | 0 => .error .tooManyLinks
          | links + 1 =>
            fs.follow followLast links (targetStart place target)
              (pathPieces target ++ pieces) := by
  rw [follow, land]
  cases fs.root.get? place with
  | none => rfl
  | some node =>
    by_cases hdirectory : node.isDirectory = true
    · by_cases hhere : piece = "" ∨ piece = "."
      · simp only [hdirectory, hhere, Bool.not_true, Bool.false_eq_true, if_false, if_true]
      by_cases hup : piece = ".."
      · simp only [hdirectory, hup, Bool.not_true, Bool.false_eq_true, if_false, if_true]
        rfl
      by_cases hsize : maxNameBytes < piece.utf8ByteSize
      · simp only [hdirectory, hhere, hup, hsize, Bool.not_true, Bool.false_eq_true, if_false,
          if_true]
      · simp only [hdirectory, hhere, hup, hsize, Bool.not_true, Bool.false_eq_true, if_false]
        cases node.child? piece with
        | none => rfl
        | some child => cases child <;> rfl
    · simp only [hdirectory, Bool.not_false, if_true]

/-- An entry of a directory is a place to go on from, unless it is a link. -/
def Landing.at (place : List String) : FileTree → Landing
  | .link target => .link target
  | _ => .place place

/-- Pieces lead on from directories only. -/
theorem land_eq_ok_iff {fs : FileSystem} {place : List String} {piece : String}
    {landing : Landing} :
    fs.land place piece = .ok landing ↔
      (∃ entries, fs.root.get? place = some (.directory entries)) ∧
        ((piece = "" ∨ piece = ".") ∧ landing = .place place ∨
          piece = ".." ∧ landing = .place place.dropLast ∨
          (piece ≠ "" ∧ piece ≠ "." ∧ piece ≠ ".." ∧ piece.utf8ByteSize ≤ maxNameBytes) ∧
            ∃ node, fs.root.get? (place ++ [piece]) = some node ∧
              landing = .at (place ++ [piece]) node) := by
  rw [land, FileTree.get?_append_singleton]
  cases fs.root.get? place with
  | none => simp
  | some node =>
    cases node with
    | file content => simp [FileTree.isDirectory]
    | link target => simp [FileTree.isDirectory]
    | directory entries =>
      by_cases hhere : piece = "" ∨ piece = "."
      · simp only [FileTree.isDirectory, hhere, Bool.not_true, Bool.false_eq_true, if_false,
          if_true]
        grind
      by_cases hup : piece = ".."
      · simp only [FileTree.isDirectory, hup, Bool.not_true, Bool.false_eq_true, if_false, if_true]
        grind
      by_cases hsize : maxNameBytes < piece.utf8ByteSize
      · simp only [FileTree.isDirectory, hhere, hup, hsize, Bool.not_true, Bool.false_eq_true,
          if_false, if_true]
        grind
      · simp only [FileTree.isDirectory, hhere, hup, hsize, Bool.not_true, Bool.false_eq_true,
          if_false]
        rw [Option.bind_some]
        cases (FileTree.directory entries).child? piece with
        | none => grind
        | some child => cases child <;> grind [Landing.at]

theorem get?_of_land_eq_link {fs : FileSystem} {place : List String} {piece target : String}
    (h : fs.land place piece = .ok (.link target)) :
    fs.root.get? (place ++ [piece]) = some (.link target) := by
  obtain ⟨-, ⟨-, hlink⟩ | ⟨-, hlink⟩ | ⟨-, node, hnode, hlink⟩⟩ := land_eq_ok_iff.1 h
  · cases hlink
  · cases hlink
  · cases node with
    | link other =>
      cases hlink
      exact hnode
    | directory entries => cases hlink
    | file content => cases hlink

/-- One piece by itself does not use up the links. -/
theorem land_ne_tooManyLinks (fs : FileSystem) (place : List String) (piece : String) :
    fs.land place piece ≠ .error .tooManyLinks := by
  unfold land
  grind

/-- A name leads to its entry. -/
theorem land_of_get? (fs : FileSystem) {place : List String} {name : String} {node : FileTree}
    (hname : IsEntryName name) (h : fs.root.get? (place ++ [name]) = some node) :
    fs.land place name = .ok (.at (place ++ [name]) node) :=
  land_eq_ok_iff.2 ⟨FileTree.exists_of_get?_append (List.cons_ne_nil _ _) h, .inr <| .inr
    ⟨⟨hname.ne_empty, hname.ne_here, hname.ne_up, hname.size_le⟩, node, h, rfl⟩⟩

/-! ## Piece by piece -/

/-- What holds at the end of a path, where a piece leads nowhere, and where the links are used up,
and is handed back over every other piece, holds of all paths. -/
theorem follow_induction (fs : FileSystem) {motive : Nat → List String → List String → Prop}
    (nil : ∀ links place, motive links place [])
    (lost : ∀ links place piece pieces e, fs.land place piece = .error e →
      motive links place (piece :: pieces))
    (step : ∀ links place piece pieces next, fs.land place piece = .ok (.place next) →
      motive links next pieces → motive links place (piece :: pieces))
    (spent : ∀ place piece pieces target, fs.land place piece = .ok (.link target) →
      motive 0 place (piece :: pieces))
    (link : ∀ links place piece pieces target, fs.land place piece = .ok (.link target) →
      motive links (targetStart place target) (pathPieces target ++ pieces) →
      motive (links + 1) place (piece :: pieces))
    (links : Nat) (place pieces : List String) : motive links place pieces := by
  -- A link may bring any number of pieces, but then one link less is left.
  induction links generalizing place pieces with
  | zero =>
    induction pieces generalizing place with
    | nil => exact nil 0 place
    | cons piece pieces ih =>
      cases hland : fs.land place piece with
      | error e => exact lost 0 place piece pieces e hland
      | ok landing =>
        cases landing with
        | place next => exact step 0 place piece pieces next hland (ih next)
        | link target => exact spent place piece pieces target hland
  | succ links ihLinks =>
    induction pieces generalizing place with
    | nil => exact nil (links + 1) place
    | cons piece pieces ih =>
      cases hland : fs.land place piece with
      | error e => exact lost (links + 1) place piece pieces e hland
      | ok landing =>
        cases landing with
        | place next => exact step (links + 1) place piece pieces next hland (ih next)
        | link target => exact link links place piece pieces target hland (ihLinks _ _)

/-- The first pieces either lead nowhere, whatever follows them, or to a place from where the others
are followed with the links that are left. -/
theorem exists_follow_append (fs : FileSystem) (links : Nat) (place pieces : List String) :
    (∃ e, ∀ rest, fs.follow true links place (pieces ++ rest) = .error e) ∨
      ∃ next left, ∀ rest,
        fs.follow true links place (pieces ++ rest) = fs.follow true left next rest := by
  induction links, place, pieces using fs.follow_induction with
  | nil links place => exact .inr ⟨place, links, fun _ => rfl⟩
  | lost links place piece pieces e hland =>
    refine .inl ⟨e, fun rest => ?_⟩
    rw [List.cons_append, follow_cons, hland]
  | step links place piece pieces next hland ih =>
    simp only [List.cons_append, follow_cons, hland]
    exact ih
  | spent place piece pieces target hland =>
    refine .inl ⟨.tooManyLinks, fun rest => ?_⟩
    rw [List.cons_append, follow_cons, hland]
    simp
  | link links place piece pieces target hland ih =>
    simp only [List.cons_append, follow_cons, hland, Bool.true_eq_false, and_false, if_false,
      ← List.append_assoc]
    exact ih

theorem follow_append_of_error {fs : FileSystem} {links : Nat} {place pieces : List String}
    {e : FileError} (h : fs.follow true links place pieces = .error e) (rest : List String) :
    fs.follow true links place (pieces ++ rest) = .error e := by
  rcases fs.exists_follow_append links place pieces with ⟨e', hall⟩ | ⟨next, left, hall⟩
  · have hself := hall []
    rw [List.append_nil, h] at hself
    rw [hall, hself]
  · have hself := hall []
    rw [List.append_nil, h, follow_nil] at hself
    cases hself

theorem follow_append_of_ok {fs : FileSystem} {links : Nat} {place pieces next : List String}
    (h : fs.follow true links place pieces = .ok next) :
    ∃ left, ∀ rest,
      fs.follow true links place (pieces ++ rest) = fs.follow true left next rest := by
  rcases fs.exists_follow_append links place pieces with ⟨e, hall⟩ | ⟨other, left, hall⟩
  · have hself := hall []
    rw [List.append_nil, h] at hself
    cases hself
  · have hself := hall []
    rw [List.append_nil, h, follow_nil] at hself
    cases hself
    exact ⟨left, hall⟩

/-- A path whose last piece is not followed ends where it does otherwise, or at a link. -/
theorem follow_false_of_ok {fs : FileSystem} {links : Nat} {place pieces next : List String}
    (h : fs.follow true links place pieces = .ok next) :
    fs.follow false links place pieces = .ok next ∨
      ∃ last target, fs.follow false links place pieces = .ok last ∧
        fs.root.get? last = some (.link target) := by
  induction links, place, pieces using fs.follow_induction with
  | nil links place =>
    rw [follow_nil] at h ⊢
    exact .inl h
  | lost links place piece pieces e hland =>
    rw [follow_cons, hland] at h
    cases h
  | step links place piece pieces _ hland ih =>
    rw [follow_cons, hland] at h ⊢
    exact ih h
  | spent place piece pieces target hland =>
    rw [follow_cons, hland] at h
    simp at h
  | link links place piece pieces target hland ih =>
    rw [follow_cons, hland] at h ⊢
    by_cases hlast : pieces = []
    · refine .inr ⟨place ++ [piece], target, by simp [hlast], ?_⟩
      exact get?_of_land_eq_link hland
    · simp only [hlast, false_and, if_false] at h ⊢
      exact ih h

/-! ## Loops -/

/-- A place with a link that leads to no end, however many links may be followed. -/
def IsLoop (fs : FileSystem) (place : List String) : Prop :=
  ∃ directory name, place = directory ++ [name] ∧
    ∀ links, fs.follow true links directory [name] = .error .tooManyLinks

theorem IsLoop.exists_link {fs : FileSystem} {place : List String} (h : fs.IsLoop place) :
    ∃ target, fs.root.get? place = some (.link target) := by
  obtain ⟨directory, name, rfl, hloop⟩ := h
  have hnone := hloop 0
  rw [follow_cons] at hnone
  cases hland : fs.land directory name with
  | error e =>
    rw [hland, Except.error.injEq] at hnone
    exact absurd hland (hnone ▸ land_ne_tooManyLinks fs directory name)
  | ok landing =>
    cases landing with
    | place next =>
      simp [hland] at hnone
    | link target => exact ⟨target, get?_of_land_eq_link hland⟩

/-- A way through a loop has no end either. -/
theorem IsLoop.follow_eq {fs : FileSystem} {place : List String} {piece : String}
    (h : fs.IsLoop (place ++ [piece])) (links : Nat) (pieces : List String) :
    fs.follow true links place (piece :: pieces) = .error .tooManyLinks := by
  obtain ⟨directory, name, hplace, hloop⟩ := h
  obtain ⟨rfl, hname⟩ := List.append_inj' hplace rfl
  cases hname
  exact follow_append_of_error (hloop links) pieces

/-! ## Entries of directories -/

theorem pathPieces_append (text rest : String) :
    pathPieces (text ++ "/" ++ rest) = pathPieces text ++ pathPieces rest := by
  have hchars : (text ++ "/" ++ rest).toList = text.toList ++ '/' :: rest.toList := by simp
  rw [pathPieces, hchars, List.splitOn_eq_splitOnP, List.splitOnP_append_cons _ _ (by simp),
    List.map_append]
  rfl

theorem pathPieces_of_notMem {text : String} (h : '/' ∉ text.toList) :
    pathPieces text = [text] := by
  rw [pathPieces, List.splitOn_eq_splitOnP, List.splitOnP_eq_singleton]
  · simp
  · intro c hc
    have hne : c ≠ '/' := fun heq => h (heq ▸ hc)
    simpa using hne

theorem pathPieces_append_separator (text : String) :
    pathPieces (text ++ "/") = pathPieces text ++ [""] := by
  have hempty : pathPieces "" = [""] := pathPieces_of_notMem (by simp)
  rw [← hempty, ← pathPieces_append, String.append_empty]

/-- The pieces of a path in front of those of an entry: all but an empty one at the end. -/
def entryPieces (p : Path) : List String :=
  if p.text.toList.getLast? = some '/' then (pathPieces p.text).dropLast else pathPieces p.text

/-- A text that ends with a separator, cut in front of it. -/
theorem exists_of_getLast?_eq_separator {text : String} (h : text.toList.getLast? = some '/') :
    ∃ start, text = start ++ "/" := by
  obtain ⟨chars, hchars⟩ := List.getLast?_eq_some_iff.1 h
  refine ⟨String.ofList chars, String.toList_injective ?_⟩
  rw [hchars]
  simp

theorem pathPieces_of_getLast? {p : Path} (h : p.text.toList.getLast? = some '/') :
    pathPieces p.text = entryPieces p ++ [""] := by
  obtain ⟨start, hstart⟩ := exists_of_getLast?_eq_separator h
  rw [entryPieces, if_pos h, hstart, pathPieces_append_separator, List.dropLast_concat]

theorem pathPieces_of_getLast?_ne {p : Path} (h : p.text.toList.getLast? ≠ some '/') :
    pathPieces p.text = entryPieces p := by
  rw [entryPieces, if_neg h]

theorem pathPieces_entry {p : Path} (hne : p.text ≠ "") {name : String}
    (hname : '/' ∉ name.toList) :
    pathPieces (p.entry name).text = entryPieces p ++ [name] := by
  rw [Path.entry, if_neg hne, entryPieces]
  split
  · next hlast =>
    obtain ⟨start, hstart⟩ := exists_of_getLast?_eq_separator hlast
    dsimp only
    rw [hstart, pathPieces_append, pathPieces_of_notMem hname, pathPieces_append_separator,
      List.dropLast_concat]
  · dsimp only
    rw [pathPieces_append, pathPieces_of_notMem hname]

theorem text_entry_ne {p : Path} (hne : p.text ≠ "") {name : String} (hname : IsEntryName name) :
    (p.entry name).text ≠ "" := by
  intro hempty
  have hpieces := pathPieces_entry hne hname.separator_notMem
  rw [hempty, pathPieces_of_notMem (by simp)] at hpieces
  have hsame := congrArg List.getLast? hpieces
  rw [List.getLast?_concat] at hsame
  exact hname.ne_empty (Option.some.inj hsame).symm

theorem entryPieces_entry {p : Path} (hne : p.text ≠ "") {name : String}
    (hname : IsEntryName name) :
    entryPieces (p.entry name) = entryPieces p ++ [name] := by
  have hlast : (p.entry name).text.toList.getLast? ≠ some '/' := by
    have hchars : name.toList ≠ [] := fun hnil => hname.ne_empty (by simpa using hnil)
    have hends : ∃ start, (p.entry name).text = start ++ name := by
      rw [Path.entry, if_neg hne]
      split
      · exact ⟨_, rfl⟩
      · exact ⟨_, rfl⟩
    obtain ⟨start, hstart⟩ := hends
    obtain ⟨last, hlast⟩ := Option.isSome_iff_exists.1 (List.getLast?_isSome.2 hchars)
    rw [hstart, String.toList_append, List.getLast?_append, hlast]
    intro hseparator
    cases hseparator
    exact hname.separator_notMem (List.mem_of_getLast? hlast)
  rw [entryPieces, if_neg hlast, pathPieces_entry hne hname.separator_notMem]

/-- Where a path starts from. -/
def startOf (fs : FileSystem) (p : Path) : List String :=
  if isAbsolute p.text then [] else fs.workingDirectory

theorem resolve_eq (fs : FileSystem) (p : Path) :
    fs.resolve p = fs.follow true maxLinks (fs.startOf p) (pathPieces p.text) := rfl

theorem startOf_entry (fs : FileSystem) {p : Path} (hne : p.text ≠ "") (name : String) :
    fs.startOf (p.entry name) = fs.startOf p := by
  have hchars : p.text.toList ≠ [] := fun hnil => hne (by simpa using hnil)
  have hhead : (p.entry name).text.toList.head? = p.text.toList.head? := by
    obtain ⟨c, cs, hcs⟩ := List.exists_cons_of_ne_nil hchars
    rw [Path.entry, if_neg hne]
    split <;> simp [hcs]
  rw [startOf, startOf, isAbsolute, isAbsolute, hhead]

/-- The entries below a path are followed from a place, with so many links left. -/
structure LeadsTo (fs : FileSystem) (p : Path) (place : List String) (links : Nat) : Prop where
  text_ne : p.text ≠ ""
  follow_eq : ∀ rest, fs.follow true maxLinks (fs.startOf p) (entryPieces p ++ rest) =
    fs.follow true links place rest

theorem exists_leadsTo {fs : FileSystem} {p : Path} {place : List String} (hne : p.text ≠ "")
    (h : fs.resolve p = .ok place) : ∃ links, fs.LeadsTo p place links := by
  rw [resolve_eq] at h
  by_cases hlast : p.text.toList.getLast? = some '/'
  · -- The empty piece at the end leads on to where the pieces in front of it led.
    rw [pathPieces_of_getLast? hlast] at h
    rcases fs.exists_follow_append maxLinks (fs.startOf p) (entryPieces p) with
      ⟨e, hall⟩ | ⟨next, left, hall⟩
    · rw [hall] at h
      cases h
    · refine ⟨left, hne, ?_⟩
      rw [hall, follow_cons] at h
      cases hland : fs.land next "" with
      | error e => simp [hland] at h
      | ok landing =>
        obtain ⟨-, ⟨-, rfl⟩ | ⟨hup, -⟩ | ⟨⟨hempty, -⟩, -⟩⟩ := land_eq_ok_iff.1 hland
        · simp only [hland, follow_nil, Except.ok.injEq] at h
          exact h ▸ hall
        · simp at hup
        · exact absurd rfl hempty
  · obtain ⟨left, hall⟩ := follow_append_of_ok h
    exact ⟨left, hne, pathPieces_of_getLast?_ne hlast ▸ hall⟩

namespace LeadsTo

variable {fs : FileSystem} {p : Path} {place : List String} {links : Nat}

theorem resolve_entry (h : fs.LeadsTo p place links) {name : String} (hname : IsEntryName name) :
    fs.resolve (p.entry name) = fs.follow true links place [name] := by
  rw [resolve_eq, fs.startOf_entry h.text_ne, pathPieces_entry h.text_ne hname.separator_notMem,
    h.follow_eq]

/-- From a directory on to one of its entries, unless that is a link. -/
theorem entry (h : fs.LeadsTo p place links) {name : String} (hname : IsEntryName name)
    {node : FileTree} (hnode : fs.root.get? (place ++ [name]) = some node)
    (hlink : ∀ target, node ≠ .link target) :
    fs.LeadsTo (p.entry name) (place ++ [name]) links := by
  constructor
  case text_ne => exact text_entry_ne h.text_ne hname
  case follow_eq =>
    intro rest
    have hland := fs.land_of_get? hname hnode
    rw [fs.startOf_entry h.text_ne, entryPieces_entry h.text_ne hname, List.append_assoc,
      h.follow_eq, List.singleton_append, follow_cons, hland]
    cases node with
    | link target => exact absurd rfl (hlink target)
    | directory entries => rfl
    | file content => rfl

/-- On to any directory below. -/
theorem below (h : fs.LeadsTo p place links) (hproper : fs.root.IsProper) {names : List String}
    {entries : List (String × FileTree)}
    (hdirectory : fs.root.get? (place ++ names) = some (.directory entries)) :
    fs.LeadsTo (p.below names) (place ++ names) links := by
  induction names using List.reverseRecOn generalizing entries with
  | nil => rwa [List.append_nil]
  | append_singleton names name ih =>
    rw [← List.append_assoc] at hdirectory ⊢
    obtain ⟨above, habove⟩ := FileTree.exists_of_get?_append (List.cons_ne_nil _ _) hdirectory
    rw [Path.below_append_singleton]
    exact (ih habove).entry (hproper.isEntryName hdirectory) hdirectory fun _ hlink => by
      cases hlink

end LeadsTo

end FileSystem

end FeatureAtlas
