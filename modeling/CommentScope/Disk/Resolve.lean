import CommentScope.Disk.Lookup

/-!
# Real locations

`Disk.resolve?` follows every link on a path and says at which location it ends, whether or not
anything is there. Behind a part that is not there, the path is taken as it is written. Links that
lead back to themselves have no real location.
-/

namespace CommentScope

namespace Disk

variable (d : Disk)

/-- A place and the rest of a path that is not followed from there. A rest that begins with a slash
begins at the root. -/
def leave (place : Location) : List String → Location
  | "" :: part :: rest => part :: rest
  | rest => place ++ rest

/-- Where a path ends that is followed from a real location, and whether it does: a path with a link
that leads back to itself is followed up to that link, and the rest of it is left as it is.
`followed` are the links that are being followed, `depth` is how many more may be. -/
def realPath (depth : Nat) (followed : List Location) (place : Location) :
    List String → Bool × Location
  | [] => (true, place)
  | part :: rest =>
    if part = "" ∨ part = "." then realPath depth followed place rest
    else if part = ".." then realPath depth followed place.dropLast rest
    else
      let next := place ++ [part]
      match d.at? next with
      | some (.link target) =>
        -- A link that is met again while it is being followed leads nowhere.
        if followed.contains next then (false, leave next rest)
        else
          match depth with
          | 0 => (false, leave next rest)
          | depth + 1 =>
            match realPath depth (next :: followed) (startOf place target) (Path.pieces target) with
            | (true, place) => realPath (depth + 1) followed place rest
            | (false, place) => (false, leave place rest)
      | _ => realPath depth followed next rest
termination_by parts => (depth, parts.length)

mutual

/-- The number of links that a thing is or holds. -/
def linksOf : FileTree → Nat
  | .file _ => 0
  | .link _ => 1
  | .dir entries => linkCount entries

/-- The number of links below a directory with given entries. -/
def linkCount : List (String × FileTree) → Nat
  | [] => 0
  | entry :: rest => linksOfEntry entry + linkCount rest

/-- The number of links that an entry of a directory is or holds. -/
def linksOfEntry : String × FileTree → Nat
  | (_, thing) => linksOf thing

end

/-- A path whose links lead back to themselves. -/
structure LinkLoop where
  path : String
  deriving DecidableEq

/-- The real location of a path. -/
def resolve? (path : Path) : Except LinkLoop Location :=
  let start := if path.isAbsolute then [] else d.here
  let (_, parts) := d.realPath (linkCount d.root) [] start path.parts
  let l := Location.follow [] parts
  match d.locate true l.text with
  | .error .tooManyLinks => .error ⟨path.text⟩
  | _ => .ok l

end Disk

end CommentScope
