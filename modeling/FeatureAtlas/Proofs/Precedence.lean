import FeatureAtlas.Proofs.Endings
import FeatureAtlas.Proofs.Exclusion

/-!
# Levels given twice

A log level may stand both in the environment and among the arguments. The arguments win over any
level of the environment: then a run reads nothing else from the variable. They do not win over a
text that is no level. It is read before the arguments are looked at, and is refused all the same.
-/

namespace FeatureAtlas

/-! ## Refused levels -/

/-- What is refused is the text itself. -/
theorem LogLevel.eq_unknownLevel_of_parse {text : String} {e : SettingsError}
    (h : parse text = .error e) : e = .unknownLevel text := by
  unfold parse at h
  split at h <;> cases h
  rfl

namespace SettingsError

/-- The wording of an error names the refused text. -/
theorem message_injective : Function.Injective message := by
  rintro ⟨text⟩ ⟨text'⟩ h
  change "invalid configuration: unknown log level '" ++ text ++ _ = _ ++ text' ++ _ at h
  rw [String.append_left_inj, String.append_right_inj] at h
  rw [h]

/-- The event that ends a run whose configuration is refused. -/
def event (e : SettingsError) : LogEvent :=
  ⟨.error, "gherkin_graph", "invalid configuration", [("error", .plain e.message)]⟩

theorem line_event (e : SettingsError) :
    e.event.line = "ERROR gherkin_graph: invalid configuration" ++ (" error=" ++ e.message) := by
  simp [event, LogEvent.line, LogLevel.label, LogEvent.showField, LogValue.shown]

end SettingsError

namespace Settings

/-- The text in the variable for the log level, if it is no level. -/
def refusedLevel? (environment : String → Option String) : Option String :=
  (environment logLevelVariable).bind fun text =>
    match LogLevel.parse text with
    | .ok _ => none
    | .error _ => some text

variable {environment : String → Option String}

theorem ofVariables_of_refused {text : String} (h : refusedLevel? environment = some text) :
    ofVariables environment = .error (.unknownLevel text) := by
  obtain ⟨given, hgiven, hrefused⟩ := Option.bind_eq_some_iff.1 h
  cases hparsed : LogLevel.parse given with
  | ok level =>
    rw [hparsed] at hrefused
    cases hrefused
  | error e =>
    rw [hparsed] at hrefused
    cases hrefused
    rw [ofVariables, hgiven, ← LogLevel.eq_unknownLevel_of_parse hparsed]
    simp only [hparsed]
    rfl

/-- Settings can be read if the level is not refused. -/
theorem exists_ofVariables (h : refusedLevel? environment = none) :
    ∃ s, ofVariables environment = .ok s := by
  rw [ofVariables]
  cases hgiven : environment logLevelVariable with
  | none => exact ⟨_, rfl⟩
  | some text =>
    cases hparsed : LogLevel.parse text with
    | ok level =>
      simp only [hparsed]
      exact ⟨_, rfl⟩
    | error e => simp [refusedLevel?, hgiven, hparsed] at h

/-- Of settings with a level in its place only the excluded tags are left. -/
theorem override_some_eq {s t : Settings} (h : s.excludedTags = t.excludedTags) (level : LogLevel)
    (tags : List String) : s.override (some level) tags = t.override (some level) tags := by
  rw [override, override, h]
  rfl

end Settings

/-! ## Runs -/

namespace Output

variable {files : FileSystem} {grammar : Grammar} {environment other : String → Option String}
  {a : Arguments}

/-- What a run leaves behind that refuses this text as a log level. -/
def refusal (text : String) : Output :=
  ⟨2, "", (SettingsError.unknownLevel text).event.line ++ "\n"⟩

theorem refusal_injective : Function.Injective refusal := by
  intro text text' h
  have hlog : (refusal text).stderr = (refusal text').stderr := by rw [h]
  rw [refusal, refusal, SettingsError.line_event, SettingsError.line_event,
    String.append_left_inj, String.append_right_inj, String.append_right_inj] at hlog
  cases SettingsError.message_injective hlog
  rfl

theorem ofRun_of_refused {text : String} (h : Settings.refusedLevel? environment = some text) :
    ofRun files grammar environment a = refusal text := by
  have hshown : logText Settings.default.logLevel [(SettingsError.unknownLevel text).event] =
      (SettingsError.unknownLevel text).event.line ++ "\n" := by
    simp [logText, LogEvent.shownAt, SettingsError.event, LogLevel.isShownAt_error]
  rw [ofRun, Settings.ofVariables_of_refused h, refusal, ← hshown]
  rfl

/-- A run ends like this just if the environment has this text as the level. -/
theorem ofRun_eq_refusal_iff {text : String} :
    ofRun files grammar environment a = refusal text ↔
      Settings.refusedLevel? environment = some text := by
  refine ⟨fun h => ?_, ofRun_of_refused⟩
  cases hrefused : Settings.refusedLevel? environment with
  | some text' =>
    rw [ofRun_of_refused hrefused] at h
    rw [refusal_injective h]
  | none =>
    -- With settings that can be read the code is zero or one.
    obtain ⟨settings, hsettings⟩ := Settings.exists_ofVariables hrefused
    have hcode : (ofRun files grammar environment a).code = 2 := congrArg code h
    have hzero : (ofRun files grammar environment a).code ≠ 0 := by simp [hcode]
    rw [code_ofRun_of_ne_zero hsettings hzero] at hcode
    cases hcode

/-- Environments that agree on the excluded tags and have no refused level make no difference to a
run that is given a level. -/
theorem ofRun_congr {level : LogLevel} (hlevel : a.logLevel = some level)
    (hvalid : Settings.refusedLevel? environment = none)
    (hvalid' : Settings.refusedLevel? other = none)
    (htags : environment Settings.excludedTagsVariable = other Settings.excludedTagsVariable) :
    ofRun files grammar environment a = ofRun files grammar other a := by
  obtain ⟨s, hs⟩ := Settings.exists_ofVariables hvalid
  obtain ⟨t, ht⟩ := Settings.exists_ofVariables hvalid'
  have hsame : s.excludedTags = t.excludedTags := by
    rw [Settings.excludedTags_ofVariables hs, Settings.excludedTags_ofVariables ht,
      Settings.variableTags, Settings.variableTags, htags]
  have hoverride := Settings.override_some_eq hsame level a.excludedTags
  simp only [ofRun, hs, ht, hlevel, hoverride]

/-- Two environments that differ at most in the log level make no difference to a run that is given
a level, just if they have the same refused text as the level, or none. A refused text ends the run
whatever the arguments are. -/
theorem ofRun_eq_iff_of_logLevel {level : LogLevel} (hlevel : a.logLevel = some level)
    (hother : ∀ name ≠ Settings.logLevelVariable, environment name = other name)
    (files : FileSystem) (grammar : Grammar) :
    (ofRun files grammar environment a = ofRun files grammar other a ↔
      Settings.refusedLevel? environment = Settings.refusedLevel? other) ∧
    ∀ text, ofRun files grammar environment a = refusal text ↔
      Settings.refusedLevel? environment = some text := by
  refine ⟨⟨fun h => ?_, fun h => ?_⟩, fun text => ofRun_eq_refusal_iff⟩
  · refine Option.ext fun text => ?_
    rw [← ofRun_eq_refusal_iff, h, ofRun_eq_refusal_iff]
  · cases hrefused : Settings.refusedLevel? other with
    | some text => rw [ofRun_of_refused (h.trans hrefused), ofRun_of_refused hrefused]
    | none => exact ofRun_congr hlevel (h.trans hrefused) hrefused (hother _ (by decide))

/-- A level in the environment makes no difference to a run that is given another one. -/
theorem ofRun_eq_iff_of_logLevel_debug :
    let shouted : String → Option String := fun name =>
      if name = Settings.logLevelVariable then some " WARNING " else none
    let a : Arguments := ⟨[⟨"b"⟩, ⟨"e"⟩], [], some .debug, false⟩
    a.logLevel = some .debug ∧ (∀ name ≠ Settings.logLevelVariable, shouted name = none) ∧
      ofRun mealFiles mealGrammar shouted a = ofRun mealFiles mealGrammar (fun _ => none) a := by
  intro shouted a
  have hother : ∀ name ≠ Settings.logLevelVariable, shouted name = none := by
    intro name hname
    simp [shouted, hname]
  have hsame := (ofRun_eq_iff_of_logLevel (a := a) rfl hother mealFiles mealGrammar).1
  exact ⟨rfl, hother, hsame.2 (by decide)⟩

/-- What is no level ends a run that is given one, and that would have a report without it. -/
theorem ofRun_loud :
    let loud : String → Option String := fun name =>
      if name = Settings.logLevelVariable then some "loud" else none
    let a : Arguments := ⟨[⟨"a"⟩], [], some .error, false⟩
    (∀ name ≠ Settings.logLevelVariable, loud name = none) ∧
      (ofRun mealFiles mealGrammar loud a).code = 2 ∧
      (ofRun mealFiles mealGrammar (fun _ => none) a).code = 0 := by
  intro loud a
  have hrefused : Settings.refusedLevel? loud = some "loud" := by decide
  have hvalid : Settings.ofVariables (fun _ => none) = .ok .default := rfl
  refine ⟨fun name hname => by simp [loud, hname], by rw [ofRun_of_refused hrefused]; rfl, ?_⟩
  have hblank : (⟨"a"⟩, "") ∈ mealTexts := List.mem_cons_self
  have hloads := loads_mealFiles mealGrammar (a.workspace mealFiles mealGrammar .default).filter
    [(⟨"a"⟩, "")] (List.forall_mem_singleton.2 hblank) (by decide) (by decide)
  refine (code_ofRun_eq_zero_iff hvalid).2 ⟨_, hloads.found, ?_⟩
  exact List.forall_mem_singleton.2 (Workspace.passes_mealFiles hblank (by decide +kernel))

end Output

end FeatureAtlas
