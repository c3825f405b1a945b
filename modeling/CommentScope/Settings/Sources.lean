import CommentScope.Json.Reader
import CommentScope.Settings.EnvFile
import CommentScope.Settings.Value

/-!
# Where settings come from

A setting has the value that the caller gives it; else that of the environment; else that of the
file of variables; else the standard one. Names of variables are matched in any case. The caller and
the file must not name settings that do not exist; the environment may.
-/

namespace CommentScope.Settings

/-- What is known when settings are asked for. -/
structure Sources where
  overrides : List (String × Json) := []
  environment : List (String × String) := []
  /-- The text of the file of variables, if there is one. -/
  envFile : Option String := none

/-- Variables with names in lower case; of two that become one, the later counts. -/
def lowerNames {α : Type} (bindings : List (String × α)) : List (String × α) :=
  Keyed.ofList (bindings.map fun (k, v) ↦ (Text.lower k, v))

/-- The value that a variable gives to a setting, if it gives one. -/
def valueOf (origin : Origin) (f : Field) (text : String) : Except Fault (Option Json) :=
  if f.isList then
    match Json.read? text.toList with
    | .error _ => .error (.unreadable f origin)
    | .ok .null => .ok none
    | .ok j => .ok (some j)
  else .ok (some (.str text))

/-- The values that variables give to settings, in the order of the settings. -/
def valuesOf (origin : Origin) (bindings : List (String × Option String)) :
    List Field → Except Fault (List (String × Json))
  | [] => .ok []
  | f :: fields => do
    let value ← match bindings.lookup f.name with
      | some (some text) => valueOf origin f text
      | _ => pure none
    let rest ← valuesOf origin bindings fields
    pure ((value.map fun v ↦ (f.name, v)).toList ++ rest)

/-- Whether a name is that of a setting. -/
def isKnown (name : String) : Bool := Field.all.any fun f ↦ f.name == name

/-- The variables of a file that name no setting; those with an empty value are not counted. -/
def unknownOf (bindings : List (String × Option String)) : List (String × Json) :=
  bindings.filterMap fun (k, v) ↦
    match v with
    | some text => if text.isEmpty || isKnown k then none else some (k, .str text)
    | none => none

/-- Puts values over those that are already there. -/
def putAll (above below : List (String × Json)) : List (String × Json) :=
  above.foldl (fun known (k, v) ↦ Keyed.put k v known) below

/-- The settings with given values, and everything that is wrong with the values. -/
def assignAll (values : List (String × Json)) : Settings × List Issue :=
  Field.all.foldl (fun (s, issues) f ↦
    match values.lookup f.name with
    | none => (s, issues)
    | some j =>
      match s.assign f j with
      | .ok s => (s, issues)
      | .error more => (s, issues ++ more)) (standard, [])

/-- The settings with given values. -/
def ofValues? (values : List (String × Json)) : Except Fault Settings :=
  let (s, issues) := assignAll values
  let unknown := values.filterMap fun (k, _) ↦
    if isKnown k then none else some ⟨[.name k], .unknownName⟩
  match issues ++ unknown with
  | [] => .ok s
  | issues => .error (.invalid issues)

/-- The settings that follow from what is known. -/
def load? (sources : Sources) : Except Fault Settings := do
  let fromEnvironment ← valuesOf .environment
    (lowerNames (sources.environment.map fun (k, v) ↦ (k, some v))) Field.all
  let bindings := match sources.envFile with
    | some text => lowerNames (EnvFile.read sources.environment text)
    | none => []
  let fromFile ← valuesOf .envFile bindings Field.all
  ofValues? (putAll sources.overrides (putAll fromEnvironment (fromFile ++ unknownOf bindings)))

end CommentScope.Settings
