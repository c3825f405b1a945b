import CommentScope.Sources.Project
import CommentScope.Sources.Solution

/-!
# Where sources may be

Which parts of a disk matter to a scan: the paths that are asked for, the projects of solutions among
them, and the directories in which projects look for sources. Faults do not matter here; they are
found again by the scan itself.
-/

namespace CommentScope.Reach

/-- The start of a path up to its first part that is a pattern; without its last part if no part
is. -/
def fixedStart (p : Path) : Path :=
  match p.parts.dropWhile fun part ↦ !Project.isPattern part with
  | [] => p.parent
  | _ => { p with parts := p.parts.takeWhile fun part ↦ !Project.isPattern part }

/-- The directories to which the specifications of an element lead. -/
def ofElement (directory : Path) (e : Xml.Element) : List Path :=
  ["Include", "Remove"].flatMap fun name ↦
    let parts := (e.attribute? name).toList.flatMap Project.partsOf
    parts.map fun part ↦ fixedStart (directory.join (.ofText part))

/-- The directories in which the project at a path looks for sources. -/
def ofProject (d : Disk) (path : String) : List Path :=
  let directory := (Path.ofText path).parent
  match Project.document? d path with
  | .ok document => directory :: document.elements.flatMap (ofElement directory)
  | .error _ => [directory]

/-- The projects of the solution at a path. -/
def ofSolution (d : Disk) (path : String) : List Path :=
  match Solution.projects? d path with
  | .ok projects => projects.map fun l ↦ ⟨"/", l⟩
  | .error _ => []

/-- The projects among paths, and those of the solutions among them. -/
def projects (d : Disk) (paths : List String) : List Path :=
  paths.flatMap fun path ↦
    match (Path.ofText path).suffix with
    | ".csproj" => [.ofText path]
    | ".sln" => ofSolution d path
    | _ => []

end CommentScope.Reach
