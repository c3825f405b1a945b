import CommentScope.Settings.Basic
import CommentScope.Text.Case

/-!
# What is logged

An event is written if its level is at least the level that was configured. The level and the form
are those that the caller asks for, or else those of the settings.
-/

namespace CommentScope

/-- How grave an event is. -/
inductive LogLevel where
  | debug
  | info
  | warning
  | error
  | critical
  deriving DecidableEq

namespace LogLevel

/-- The rank of a level; graver levels have a higher one. -/
def rank : LogLevel → Nat
  | .debug => 10
  | .info => 20
  | .warning => 30
  | .error => 40
  | .critical => 50

/-- The names of levels. -/
def names : List (String × LogLevel) :=
  [("DEBUG", .debug), ("INFO", .info), ("WARN", .warning), ("WARNING", .warning),
    ("ERROR", .error), ("CRITICAL", .critical)]

/-- The level of a name in any case; a name that is not known counts as `info`. -/
def ofName (name : String) : LogLevel := (names.lookup (Text.asciiUpper name)).getD .info

end LogLevel

/-- How events are written. -/
inductive LogForm where
  | json
  | console
  deriving DecidableEq

/-- What is logged and how. -/
structure LogConfig where
  level : LogLevel
  form : LogForm

namespace LogConfig

/-- The configuration for what a caller asks for; an empty name of a level asks for nothing. -/
def of (s : Settings) (level : Option String) (json : Option Bool) : LogConfig where
  level := .ofName (match level with
    | some name => if name.isEmpty then s.logLevel else name
    | none => s.logLevel)
  form := if json.getD s.logJson then .json else .console

/-- Whether an event of a level is written. -/
def writes (c : LogConfig) (event : LogLevel) : Bool := decide (c.level.rank ≤ event.rank)

end LogConfig

end CommentScope
