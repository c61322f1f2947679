import FeatureAtlas.Atlas.Addition
import FeatureAtlas.Atlas.Growth
import FeatureAtlas.Log

/-!
# What adding a document reports

The log events of adding a document, in the order of the work: tags when they first appear, steps,
blocks, and the feature at the end. They depend on the atlas through the tags it has already.
-/

namespace FeatureAtlas

namespace AdditionEvents

/-- A field with a number. -/
def number (name : String) (n : Nat) : String × LogValue := (name, .plain (toString n))

/-- A field with a text as it is. -/
def plain (name : String) (text : String) : String × LogValue := (name, .plain text)

/-- The tags that were not seen before. -/
def registrations (ts : TagIndex) (raws : List String) : List LogEvent :=
  (ts.newNames raws).map fun name =>
    ⟨.trace, "gherkin_graph::tags", "registered tag", [("tag", .quoted name)]⟩

/-- A step, after a warning if its argument is ignored. -/
def step (document : Path) (s : StepPlan) : List LogEvent :=
  let target := "gherkin_graph::step"
  let warning :=
    match s.ignored with
    | some kind =>
      [⟨.warn, target, "ignoring unrecognised step argument",
        [plain "document" document.text, number "line" s.line, plain "kind" kind]⟩]
    | none => []
  warning ++ [⟨.trace, target, "built step", [number "line" s.line, plain "text" s.text]⟩]

/-- A child that is left out. -/
def excluded (kind : ScenarioKind) (title : String) (line : Nat) : LogEvent :=
  let fields := [number "line" line, plain "name" title]
  match kind with
  | .outline => ⟨.debug, "gherkin_graph::outline", "outline excluded by tag filter", fields⟩
  | _ => ⟨.debug, "gherkin_graph::scenario", "scenario excluded by tag filter", fields⟩

/-- An examples block, after the placeholders that none of its columns matches. -/
def examples (steps : List StepPlan) (e : ExamplesPlan) : List LogEvent :=
  let target := "gherkin_graph::outline"
  let unmatched := e.unmatched steps
  let left :=
    if unmatched.isEmpty then []
    else
      [⟨.debug, target, "template placeholders without an examples column are left verbatim",
        [number "line" e.line, plain "placeholders" (Text.quoteList unmatched)]⟩]
  left ++ [⟨.debug, target, "expanded examples",
    [number "line" e.line, number "rows" e.rows.length]⟩]

/-- The end of a background; a second one replaces the first. -/
def background (document : Path) (hasOther : Bool) (line : Nat) : List LogEvent :=
  let target := "gherkin_graph::scenario"
  let warning :=
    if hasOther then
      [⟨.warn, target, "feature declares more than one background; keeping the last",
        [plain "document" document.text, number "line" line]⟩]
    else []
  warning ++ [⟨.debug, target, "built background", [number "line" line]⟩]

/-- What comes after the steps of a block. -/
def ending (document : Path) (g : Growth) (b : BlockPlan) : List LogEvent :=
  match b.kind, b.extent with
  | _, .upToStep => []
  | .background, _ => background document g.background.isSome b.line
  | .outline, extent =>
    let built : LogEvent :=
      ⟨.debug, "gherkin_graph::outline", "built outline",
        [number "line" b.line, plain "name" b.title, number "instances" b.bindings.length]⟩
    b.examples.flatMap (examples b.steps) ++ if extent = .whole then [built] else []
  | _, _ =>
    [⟨.debug, "gherkin_graph::scenario", "built scenario",
      [number "line" b.line, plain "name" b.title]⟩]

/-- A child. -/
def child (document : Path) (g : Growth) : ChildPlan → List LogEvent
  | .excluded kind title line => [excluded kind title line]
  | .kept b =>
    registrations g.atlas.tags b.tags ++ b.steps.flatMap (step document) ++ ending document g b

/-- Children in order. -/
def children (document : Path) (g : Growth) : List ChildPlan → List LogEvent
  | [] => []
  | d :: ds => child document g d ++ children document (g.add document d) ds

end AdditionEvents

open AdditionEvents in
/-- The events of adding a document under a filter. -/
def Atlas.additionEvents (a : Atlas) (d : Document) (filter : TagFilter) : List LogEvent :=
  let target := "gherkin_graph::assembler"
  let document := plain "document" d.path.text
  match d.plan filter with
  | .noFeature => [⟨.debug, target, "document has no feature", [document]⟩]
  | .excluded title =>
    [⟨.info, target, "feature excluded by tag filter", [document, plain "feature" title]⟩]
  | .feature plan failure =>
    let start := (plan.start a d.path).1
    let finished : LogEvent :=
      ⟨.info, target, "assembled feature",
        [document, plain "feature" plan.title,
          number "children" (start.addAll d.path plan.children).children.length]⟩
    registrations a.tags plan.tags ++ children d.path start plan.children
      ++ if failure.isNone then [finished] else []

/-- The events of a delivery; there are none once its document was added. -/
def Delivery.events (d : Delivery) (a : Atlas) : List LogEvent :=
  if d.isDone then [] else a.additionEvents d.document d.filter

end FeatureAtlas
