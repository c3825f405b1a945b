import CommentScope.Markers

/-!
# Settings

What a user can set. A `Settings.Field` names one setting; `Settings.Issue` says what is wrong with
the value of one, and `Settings.Fault` why no settings can be had at all.
-/

namespace CommentScope

/-- The settings of the program. -/
structure Settings where
  appName : String
  debug : Bool
  logLevel : String
  logJson : Bool
  host : String
  port : Int
  workerCount : Int
  maxFileSize : Int
  containsMarkers : List String
  suffixMarkers : List String
  deriving DecidableEq

namespace Settings

/-- The settings of a user who sets nothing. -/
def standard : Settings where
  appName := "todo-mapper"
  debug := false
  logLevel := "INFO"
  logJson := false
  host := "127.0.0.1"
  port := 8000
  workerCount := 4
  maxFileSize := 1000000
  containsMarkers := Markers.standard.contains
  suffixMarkers := Markers.standard.suffixes

/-- The markers of the comments that are wanted. -/
def markers? (s : Settings) : Except Markers.Fault Markers :=
  Markers.of? s.containsMarkers s.suffixMarkers

/-- One setting. -/
inductive Field where
  | appName
  | debug
  | logLevel
  | logJson
  | host
  | port
  | workerCount
  | maxFileSize
  | containsMarkers
  | suffixMarkers
  deriving DecidableEq

namespace Field

/-- All settings, in the order in which they are presented and checked. -/
def all : List Field :=
  [.appName, .debug, .logLevel, .logJson, .host, .port, .workerCount, .maxFileSize,
    .containsMarkers, .suffixMarkers]

theorem mem_all (f : Field) : f ∈ all := by
  cases f <;> decide

/-- The name by which a user sets it. -/
def name : Field → String
  | .appName => "app_name"
  | .debug => "debug"
  | .logLevel => "log_level"
  | .logJson => "log_json"
  | .host => "host"
  | .port => "port"
  | .workerCount => "worker_count"
  | .maxFileSize => "max_file_size_bytes"
  | .containsMarkers => "todo_contains_markers"
  | .suffixMarkers => "todo_suffix_markers"

/-- Whether the value is a list, which is written as JSON where only text can be written. -/
def isList : Field → Bool
  | .containsMarkers | .suffixMarkers => true
  | _ => false

end Field

/-- A step on the way to a value. -/
inductive Issue.Step where
  | name (name : String)
  | index (index : Nat)
  deriving DecidableEq

/-- What can be wrong with a value. -/
inductive Issue.Kind where
  | stringType
  | boolType
  | boolParsing
  | intType
  | intParsing
  | intParsingSize
  | intFromFloat
  | finiteNumber
  | listType
  /-- The value is of the right kind and not allowed. -/
  | notAllowed
  /-- There is no setting of this name. -/
  | unknownName
  deriving DecidableEq

/-- The name under which a kind of issue is reported. -/
def Issue.Kind.name : Issue.Kind → String
  | .stringType => "string_type"
  | .boolType => "bool_type"
  | .boolParsing => "bool_parsing"
  | .intType => "int_type"
  | .intParsing => "int_parsing"
  | .intParsingSize => "int_parsing_size"
  | .intFromFloat => "int_from_float"
  | .finiteNumber => "finite_number"
  | .listType => "list_type"
  | .notAllowed => "value_error"
  | .unknownName => "extra_forbidden"

/-- Something wrong with a value. -/
structure Issue where
  place : List Issue.Step
  kind : Issue.Kind
  deriving DecidableEq

/-- Where a user writes settings as text. -/
inductive Origin where
  | environment
  | envFile
  deriving DecidableEq

/-- The name under which an origin is reported. -/
def Origin.name : Origin → String
  | .environment => "EnvSettingsSource"
  | .envFile => "DotEnvSettingsSource"

/-- Why there are no settings. -/
inductive Fault where
  /-- A list that is not written as JSON. -/
  | unreadable (field : Field) (origin : Origin)
  /-- Values that are not allowed. -/
  | invalid (issues : List Issue)
  deriving DecidableEq

/-- The wording for a list that cannot be read. -/
def unreadableMessage (field : Field) (origin : Origin) : String :=
  s!"error parsing value for field \"{field.name}\" from source \"{origin.name}\""

end Settings

end CommentScope
