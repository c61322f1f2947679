import FeatureAtlas.LogLevel
import FeatureAtlas.Text.Quoted

/-!
# Log events

What the library reports while it works. An event names the part of the library it comes from, its
target, and has fields in a fixed order. Events are values: the functions that build an atlas or
read a document have a companion that gives the events, and printing them is left to the program.
-/

namespace FeatureAtlas

/-- A field's value. In a log line, a text that the library did not word itself is quoted. -/
inductive LogValue where
  | plain (text : String)
  | quoted (text : String)
deriving DecidableEq, Repr

/-- The value without quotes. -/
def LogValue.text : LogValue → String
  | .plain text => text
  | .quoted text => text

/-- The value as a log line shows it. -/
def LogValue.shown : LogValue → String
  | .plain text => text
  | .quoted text => Text.quote text

/-- One entry of the log. -/
structure LogEvent where
  level : LogLevel
  target : String
  message : String
  fields : List (String × LogValue)
deriving DecidableEq, Repr

namespace LogEvent

/-- A field of a log line. The field `message` is shown without its name. -/
def showField (field : String × LogValue) : String :=
  if field.1 = "message" then " " ++ field.2.shown else " " ++ field.1 ++ "=" ++ field.2.shown

/-- The event as one line: level, target, message and fields. -/
def line (e : LogEvent) : String :=
  e.level.label ++ " " ++ e.target ++ ": " ++ e.message ++ String.join (e.fields.map showField)

/-- The events that a log at this level shows. -/
def shownAt (threshold : LogLevel) (events : List LogEvent) : List LogEvent :=
  events.filter (·.level.isShownAt threshold)

end LogEvent

end FeatureAtlas
