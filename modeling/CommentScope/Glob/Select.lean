import CommentScope.Disk.Lookup
import CommentScope.Glob.Name

/-!
# Patterns for paths

A pattern for a path has a pattern for the name at each step. The step `**` stands for any number of
directories, without going through links. All steps but the last lead to directories, and so does the
last one if a slash follows it or if it is `**`.
-/

namespace CommentScope.Glob

/-- A step of a pattern. -/
inductive Step where
  | deep
  | named (pieces : List Piece)
  | exactly (name : String)
  deriving DecidableEq

/-- A pattern for paths. -/
structure Pattern where
  steps : List Step
  /-- Whether only directories are meant. -/
  directories : Bool

/-- What is wrong with a pattern. -/
inductive Fault where
  | absolute
  | deepWithinName
  deriving DecidableEq

/-- The wording of a fault. -/
def Fault.message : Fault → String
  | .absolute => "Non-relative patterns are unsupported"
  | .deepWithinName => "Invalid pattern: '**' can only be an entire path component"

/-- Whether `**` is within a text. -/
def hasDeep : List Char → Bool
  | '*' :: '*' :: _ => true
  | _ :: rest => hasDeep rest
  | [] => false

/-- Reads a step. -/
def Step.ofText? (s : String) : Except Fault Step :=
  if s = "**" then .ok .deep
  else if hasDeep s.toList then .error .deepWithinName
  else if s.toList.any fun c ↦ c == '*' || c == '?' || c == '[' then .ok (.named (piecesOf s))
  else .ok (.exactly s)

/-- Reads a pattern. -/
def Pattern.ofText? (s : String) : Except Fault Pattern := do
  let path := Path.ofText s
  if path.isAbsolute then throw .absolute
  let steps ← path.parts.mapM Step.ofText?
  pure ⟨steps, s.toList.getLast? == some '/'⟩

/-! ### Following a pattern

What is found comes one after the other, and a fault among it ends the search: whoever looks at what
is found stops there. The faults are those of paths that are too long. -/

/-- Something that is found: a path, or a fault instead. -/
abbrev Found := Except DiskFault Path

/-- What is found where a question is answered with yes. -/
def ifSo (answer : Except DiskFault Bool) (found : List Found) : List Found :=
  match answer with
  | .error fault => [.error fault]
  | .ok holds => if holds then found else []

/-- What is found in the directory at a path, unless the path is too long for it to be listed. -/
def listing (p : Path) (found : List Found) : List Found :=
  if Disk.maxPathSize ≤ p.text.utf8ByteSize then [.error ⟨.nameTooLong, p.text⟩] else found

mutual

/-- The directories that a thing at a path is and holds. Links are not followed. -/
def directoriesOf (p : Path) : FileTree → List Found
  | .file _ => []
  | .link _ => []
  | .dir entries => .ok p :: listing p (directoriesBelow p entries)

/-- The directories below a directory at a path with given entries. -/
def directoriesBelow (p : Path) : List (String × FileTree) → List Found
  | [] => []
  | entry :: rest => directoriesOfEntry p entry ++ directoriesBelow p rest

/-- The directories that an entry of a directory at a path is and holds. -/
def directoriesOfEntry (p : Path) : String × FileTree → List Found
  | (name, thing) => directoriesOf (p.child name) thing

end

variable (d : Disk)

/-- The entries of the directory at a path. -/
def entriesAt (p : Path) : Entries := (d.entries? p.text).getD []

/-- How the path of an entry is written when the directory at a path is listed. -/
def entryText (p : Path) (name : String) : String :=
  if p.text = "." then "./" ++ name else (p.child name).text

/-- Whether an entry of the directory at a path is a directory or a link to one. -/
def isFolder? (p : Path) (name : String) : FileTree → Except DiskFault Bool
  | .file _ => .ok false
  | .link _ => d.isDirectory? (entryText p name)
  | .dir _ => .ok true

/-- What is found by the steps of a pattern from a path on. -/
def follow (directories : Bool) : List Step → Path → List Found
  | [], p => [.ok p]
  | step :: rest, p =>
    let onlyDirectories := directories || !rest.isEmpty
    match step with
    | .exactly name =>
      let q := p.child name
      ifSo (if onlyDirectories then d.isDirectory? q.text else d.leads? q.text)
        (follow directories rest q)
    | .named pieces =>
      -- An entry is looked at before its name is.
      listing p ((entriesAt d p).flatMap fun (name, thing) ↦
        ifSo (if onlyDirectories then isFolder? d p name thing else .ok true)
          (if fits pieces name.toList then follow directories rest (p.child name) else []))
    | .deep =>
      (directoriesOf p (.dir (entriesAt d p))).flatMap fun
        | .error fault => [.error fault]
        | .ok q => follow directories rest q

/-- What is found below a directory by a pattern. -/
def Pattern.select (pattern : Pattern) (base : Path) : List Found :=
  ifSo (d.isDirectory? base.text) (follow d pattern.directories pattern.steps base)

end CommentScope.Glob
