import CommentScope.Disk.Lookup

/-!
# Walking a directory

`Disk.filesBelow` lists everything below a directory that is no directory, by the way to it. It goes
into the directories whose names are wanted. A link is listed if it does not lead to a directory, and
never followed: what is behind a link to a directory does not belong to the walk.
-/

namespace CommentScope

namespace Disk

variable (d : Disk)

/-! ### The walk

`base` is the path at which the walk begins, `way` leads from there to what is looked at, and `enters`
says which directories are gone into. -/

mutual

/-- The ways to a thing and to what is below it, directories left out. -/
def waysOf (enters : String → Bool) (base : Path) (way : Location) : FileTree → List Location
  | .file _ => [way]
  | .link _ => if d.isDirectory (base.along way).text then [] else [way]
  | .dir entries => if enters (way.getLastD "") then waysBelow enters base way entries else []

/-- The ways to what is below a directory with given entries, directories left out. -/
def waysBelow (enters : String → Bool) (base : Path) (way : Location) :
    List (String × FileTree) → List Location
  | [] => []
  | entry :: rest => waysOfEntry enters base way entry ++ waysBelow enters base way rest

/-- The ways to an entry of a directory and to what is below it, directories left out. -/
def waysOfEntry (enters : String → Bool) (base : Path) (way : Location) :
    String × FileTree → List Location
  | (name, thing) => waysOf enters base (way ++ [name]) thing

end

theorem waysBelow_eq_flatMap (enters : String → Bool) (base : Path) (way : Location)
    (entries : Entries) : d.waysBelow enters base way entries =
      entries.flatMap fun e ↦ d.waysOf enters base (way ++ [e.1]) e.2 := by
  induction entries with
  | nil => rfl
  | cons e rest ih => rw [waysBelow, ih, List.flatMap_cons, waysOfEntry]

/-- The ways to everything below the directory at a path that is no directory itself. -/
def filesBelow (enters : String → Bool) (base : Path) : List Location :=
  d.waysBelow enters base [] ((d.entries? base.text).getD [])

/-- Whether one way comes before another, or is the same, if the files of a directory come before its
directories and both are sorted by name. -/
def filesFirst (a b : Location) : Bool :=
  if a.dropLast = b.dropLast then Location.le a b else Location.le a.dropLast b.dropLast

end Disk

end CommentScope
