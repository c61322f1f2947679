import FeatureAtlas.Proofs.Filtering
import FeatureAtlas.Proofs.Runs
import FeatureAtlas.Proofs.Spellings
import FeatureAtlas.Run

/-!
# Loading documents

A run reads its files one by one and adds every document as soon as it is read. If all files can be
read, this is the same as to read all texts first and to add their documents afterwards. A text that
is blank, that the grammar refuses, or whose feature is excluded gives a document that adds nothing,
wherever it stands: `Atlas.addDocuments_keepsFeature` says that without such texts the same atlas is
built, and that a report differs in the number of documents only.
-/

namespace FeatureAtlas

namespace Document

/-- The documents of texts, to be added under a filter. -/
def readEach (grammar : Grammar) (filter : TagFilter) (texts : List (Path × String)) :
    List (Document × TagFilter) :=
  texts.map fun (p, text) => ((read grammar p text).document, filter)

/-- Whether a text has a feature that the filter keeps: it is not blank, the grammar takes it, and
none of the feature's tags is excluded. -/
def keepsFeature (grammar : Grammar) (filter : TagFilter) (text : String) : Bool :=
  !isBlankText (endLine text) &&
    match grammar (endLine text) with
    | .ok feature => !filter.excludes (feature.tags.map markTag)
    | .error _ => false

theorem tagTexts_tagMarks (tags : List String) (position : Position) :
    tagTexts (tagMarks tags position) = tags.map markTag := by
  simp [tagTexts, tagMarks]

end Document

namespace Atlas

theorem addDocument_of_noFeature {d : Document} (h : d.feature? = none) (filter : TagFilter)
    (a : Atlas) : a.addDocument d filter = ⟨a, .ok none⟩ := by
  rw [addDocument, Building.document, h]
  rfl

/-- A text without a feature that is kept adds nothing. -/
theorem addDocument_read_of_not_keepsFeature {grammar : Grammar} {filter : TagFilter}
    {text : String} (h : Document.keepsFeature grammar filter text = false) (p : Path)
    (a : Atlas) :
    a.addDocument (Document.read grammar p text).document filter = ⟨a, .ok none⟩ := by
  rw [Document.keepsFeature] at h
  cases hblank : Document.isBlankText (Document.endLine text) with
  | true => exact addDocument_of_noFeature (by simp [Document.read, hblank]) filter a
  | false =>
    cases hparsed : grammar (Document.endLine text) with
    | error message =>
      exact addDocument_of_noFeature (by simp [Document.read, hblank, hparsed]) filter a
    | ok feature =>
      have hexcluded : filter.excludes (feature.tags.map Document.markTag) = true := by
        simpa [hblank, hparsed] using h
      refine addDocument_of_excluded
        (f := Document.featureBlock (.ofChars (Document.endLine text).toList) feature) ?_ ?_ a
      · simp [Document.read, hblank, hparsed]
      · rwa [Document.featureBlock, Document.tagTexts_tagMarks]

/-- Texts without a feature that is kept can be left out. -/
theorem addDocuments_filter_keepsFeature (grammar : Grammar) (filter : TagFilter) (a : Atlas)
    (texts : List (Path × String)) :
    a.addDocuments (Document.readEach grammar filter
        (texts.filter fun x => Document.keepsFeature grammar filter x.2)) =
      a.addDocuments (Document.readEach grammar filter texts) := by
  induction texts generalizing a with
  | nil => rfl
  | cons x texts ih =>
    cases hkeeps : Document.keepsFeature grammar filter x.2 with
    | true =>
      rw [List.filter_cons, if_pos hkeeps]
      simp only [Document.readEach, List.map_cons, addDocuments] at ih ⊢
      rw [ih]
    | false =>
      have hnothing := addDocument_read_of_not_keepsFeature hkeeps x.1 a
      rw [List.filter_cons, if_neg (by simp [hkeeps]), ih]
      simp only [Document.readEach, List.map_cons, addDocuments]
      rw [hnothing]

end Atlas

/-! ## Files by their paths -/

namespace FileSystem

variable {fs : FileSystem}

theorem readText_of_file {p : Path} {place : List String} {content : ByteArray} {text : String}
    (hfault : pathFault? p = none) (hresolve : fs.resolve p = .ok place)
    (hfile : fs.root.get? place = some (.file content))
    (htext : String.fromUTF8? content = some text) : fs.readText p = .ok text := by
  have hlookup : fs.lookup true p = .ok (.file content) :=
    lookup_eq_ok_iff.2 ⟨hfault, place, hresolve, hfile⟩
  rw [readText, hlookup]
  simp [htext]

/-- Files that are given in order stand for themselves. -/
theorem findDocuments_of_files {paths : List Path}
    (hfiles : ∀ p ∈ paths, ∃ place content,
      fs.resolve p = .ok place ∧ fs.root.get? place = some (.file content))
    (hsorted : paths.Pairwise fun p q => p.le q = true) :
    fs.findDocuments paths = .ok (dropSame paths) := by
  refine findDocuments_of_sorted ?_ hsorted
  have hself : ∀ p ∈ paths, fs.findDocumentsAt p = .ok [p] := by
    intro p hp
    obtain ⟨place, content, hresolve, hfile⟩ := hfiles p hp
    exact findDocumentsAt_of_file hresolve hfile
  rw [gather_eq_ok hself, List.flatMap_singleton']

end FileSystem

/-! ## A run -/

namespace Workspace

variable {w : Workspace} {paths : List Path} {texts : List (Path × String)}

/-- A run on these paths finds these files and reads these texts in them. -/
structure Loads (w : Workspace) (paths : List Path) (texts : List (Path × String)) : Prop where
  found : w.files.findDocuments paths = .ok (texts.map (·.1))
  read : ∀ x ∈ texts, w.files.readText x.1 = .ok x.2

theorem openDocument_eq {fs : FileSystem} {p : Path} {text : String}
    (h : fs.readText p = .ok text) (grammar : Grammar) :
    fs.openDocument grammar p = .ok (Document.read grammar p text) := by
  rw [FileSystem.openDocument, h]

/-- To read and add in turn is to read everything and add it then. -/
theorem addDocuments_eq (h : ∀ x ∈ texts, w.files.readText x.1 = .ok x.2) (a : Atlas) :
    w.addDocuments a (texts.map (·.1)) =
      (a.addDocuments (Document.readEach w.grammar w.filter texts)).mapError .ragged := by
  induction texts generalizing a with
  | nil => rfl
  | cons x texts ih =>
    have hrest := ih fun y hy => h y (List.mem_cons_of_mem x hy)
    rw [List.map_cons, addDocuments, openDocument_eq (h x List.mem_cons_self)]
    dsimp only
    simp only [Document.readEach, List.map_cons, Atlas.addDocuments] at hrest ⊢
    cases (a.addDocument (Document.read w.grammar x.1 x.2).document w.filter).outcome with
    | error e => rfl
    | ok result => exact hrest _

/-- The report of a run that can read all its files. -/
theorem report_of_loads (h : w.Loads paths texts) {a : Atlas}
    (ha : Atlas.empty.addDocuments (Document.readEach w.grammar w.filter texts) = .ok a) :
    w.report paths = .ok (a.report texts.length) := by
  rw [report, h.found]
  dsimp only
  rw [addDocuments_eq h.read, ha, List.length_map]
  rfl

end Workspace

/-- Leaving out all texts that are blank, that the grammar refuses or whose feature is excluded
gives the same atlas. So a run that loads just the others has the same report, but for the number
of documents, which is that of the loaded files. -/
theorem Atlas.addDocuments_keepsFeature {grammar : Grammar} {filter : TagFilter}
    {texts : List (Path × String)} {a : Atlas}
    (h : Atlas.empty.addDocuments (Document.readEach grammar filter texts) = .ok a) :
    let kept := texts.filter fun x => Document.keepsFeature grammar filter x.2
    Atlas.empty.addDocuments (Document.readEach grammar filter kept) = .ok a ∧
      ∀ (files filesOfKept : FileSystem) (paths pathsOfKept : List Path),
        let all : Workspace := ⟨files, grammar, filter⟩
        let fewer : Workspace := ⟨filesOfKept, grammar, filter⟩
        all.Loads paths texts → fewer.Loads pathsOfKept kept →
        ∃ r, all.report paths = .ok r ∧ r.documents = texts.length ∧
          fewer.report pathsOfKept = .ok { r with documents := kept.length } := by
  intro kept
  have hkept : Atlas.empty.addDocuments (Document.readEach grammar filter kept) = .ok a :=
    (Atlas.empty.addDocuments_filter_keepsFeature grammar filter texts).trans h
  refine ⟨hkept, ?_⟩
  intro files filesOfKept paths pathsOfKept all fewer hall hfewer
  exact ⟨_, Workspace.report_of_loads hall h, rfl, Workspace.report_of_loads hfewer hkept⟩

/-! ## Some files -/

/-- A feature without children and with these tags. -/
def ParseTree.Feature.bare (tags : List String) : ParseTree.Feature :=
  ⟨"Feature", "Meals", "", tags, none, [], [], ⟨1, 1⟩⟩

/-- A grammar that takes two texts, of which one is tagged as slow. -/
def mealGrammar : Grammar := fun text =>
  if text = "f\n" then .ok (.bare ["fast"])
  else if text = "s\n" then .ok (.bare ["slow"])
  else .error "Error at 1:1"

/-- A blank text, one with a feature, one that the grammar refuses, and one with a slow feature. -/
def mealTexts : List (Path × String) :=
  [(⟨"a"⟩, ""), (⟨"b"⟩, "f"), (⟨"c"⟩, "x"), (⟨"d"⟩, "s")]

/-- The files of these texts, and one whose bytes are no text. -/
def mealFiles : FileSystem where
  root := .directory
    [("a", .file ⟨#[]⟩), ("b", .file ⟨#[102]⟩), ("c", .file ⟨#[120]⟩), ("d", .file ⟨#[115]⟩),
      ("e", .file ⟨#[255]⟩)]
  workingDirectory := []

theorem resolve_mealFiles_of_land {name : String} (hpieces : FileSystem.pathPieces name = [name])
    (hland : mealFiles.land [] name = .ok (.place [name])) :
    mealFiles.resolve ⟨name⟩ = .ok [name] := by
  have hstart : mealFiles.startOf ⟨name⟩ = [] := by simp [FileSystem.startOf, mealFiles]
  simp [FileSystem.resolve_eq, hstart, hpieces, FileSystem.follow_cons, hland]

theorem resolve_mealFiles {x : Path × String} (h : x ∈ mealTexts) :
    ∃ content, mealFiles.resolve x.1 = .ok [x.1.text] ∧
      mealFiles.root.get? [x.1.text] = some (.file content) ∧
      String.fromUTF8? content = some x.2 ∧ FileSystem.pathFault? x.1 = none := by
  have hpieces : ∀ x ∈ mealTexts, FileSystem.pathPieces x.1.text = [x.1.text] := by decide
  have hland : ∀ x ∈ mealTexts, mealFiles.land [] x.1.text = .ok (.place [x.1.text]) := by
    simp only [mealTexts, List.forall_mem_cons]
    exact ⟨rfl, rfl, rfl, rfl, by simp⟩
  have hfile : ∀ x ∈ mealTexts, ∃ content,
      mealFiles.root.get? [x.1.text] = some (.file content) ∧
        String.fromUTF8? content = some x.2 ∧ FileSystem.pathFault? x.1 = none := by
    simp only [mealTexts, List.forall_mem_cons]
    exact ⟨⟨_, rfl, by decide, by decide⟩, ⟨_, rfl, by decide, by decide⟩,
      ⟨_, rfl, by decide, by decide⟩, ⟨_, rfl, by decide, by decide⟩, by simp⟩
  obtain ⟨content, hcontent, htext, hfault⟩ := hfile x h
  exact ⟨content, resolve_mealFiles_of_land (hpieces x h) (hland x h), hcontent, htext, hfault⟩

/-- Some of these files are loaded, in their order. -/
theorem loads_mealFiles (grammar : Grammar) (filter : TagFilter) (texts : List (Path × String))
    (htexts : ∀ x ∈ texts, x ∈ mealTexts)
    (hsorted : (texts.map (·.1)).Pairwise fun p q => p.le q = true)
    (hdistinct : FileSystem.dropSame (texts.map (·.1)) = texts.map (·.1)) :
    (Workspace.mk mealFiles grammar filter).Loads (texts.map (·.1)) texts := by
  constructor
  case found =>
    rw [FileSystem.findDocuments_of_files ?_ hsorted, hdistinct]
    intro p hp
    obtain ⟨x, hx, rfl⟩ := List.mem_map.1 hp
    obtain ⟨content, hresolve, hfile, -⟩ := resolve_mealFiles (htexts x hx)
    exact ⟨_, content, hresolve, hfile⟩
  case read =>
    intro x hx
    obtain ⟨content, hresolve, hfile, htext, hfault⟩ := resolve_mealFiles (htexts x hx)
    exact FileSystem.readText_of_file hfault hresolve hfile htext

/-- Of four files only one has a feature that is kept. -/
theorem Atlas.addDocuments_keepsFeature_meals :
    let filter := TagFilter.ofTags ["@slow"]
    let w : Workspace := ⟨mealFiles, mealGrammar, filter⟩
    let kept := mealTexts.filter fun x => Document.keepsFeature mealGrammar filter x.2
    kept = [(⟨"b"⟩, "f")] ∧
      (∃ a, Atlas.empty.addDocuments (Document.readEach mealGrammar filter mealTexts) = .ok a ∧
        Atlas.empty.addDocuments (Document.readEach mealGrammar filter kept) = .ok a) ∧
      ∃ r, w.report [⟨"a"⟩, ⟨"b"⟩, ⟨"c"⟩, ⟨"d"⟩] = .ok r ∧ r.documents = 4 ∧
        w.report [⟨"b"⟩] = .ok { r with documents := 1 } := by
  intro filter w kept
  have hkept : kept = [(⟨"b"⟩, "f")] := by decide
  let served (tag : String) : FeatureBlock :=
    ⟨"Feature", "Meals", "", [], ⟨1, 1⟩, [⟨tag, ⟨1, 1⟩⟩], []⟩
  have hread : Document.readEach mealGrammar filter mealTexts =
      [(⟨⟨"a"⟩, none⟩, filter), (⟨⟨"b"⟩, some (served "@fast")⟩, filter), (⟨⟨"c"⟩, none⟩, filter),
        (⟨⟨"d"⟩, some (served "@slow")⟩, filter)] := by decide +kernel
  obtain ⟨a, hrun⟩ : ∃ a, Atlas.empty.addDocuments
      (Document.readEach mealGrammar filter mealTexts) = .ok a := by
    rw [hread]
    exact ⟨_, rfl⟩
  have hall := loads_mealFiles mealGrammar filter mealTexts (fun x h => h) (by decide) (by decide)
  have hfewer := loads_mealFiles mealGrammar filter kept (fun x h => (List.mem_filter.1 h).1)
    (by decide) (by decide)
  obtain ⟨hsame, hreport⟩ := addDocuments_keepsFeature hrun
  obtain ⟨r, hr, hdocuments, hrest⟩ := hreport _ _ _ _ hall hfewer
  exact ⟨hkept, ⟨_, hrun, hsame⟩, r, hr, hdocuments, hrest⟩

end FeatureAtlas
