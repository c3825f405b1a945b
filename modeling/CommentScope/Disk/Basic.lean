import CommentScope.Keyed
import CommentScope.Path

/-!
# File systems

A file system is a value: directories with named entries, which are files, directories or links to
some path. A `Disk` is a file system together with the directory that relative paths begin at. The
order of the entries of a directory is the order in which they are listed.
-/

namespace CommentScope

/-- What a name in a directory stands for. -/
inductive FileTree where
  | file (content : ByteArray)
  | link (target : String)
  | dir (entries : List (String × FileTree))
  deriving Inhabited

/-- The entries of a directory. -/
abbrev Entries := List (String × FileTree)

namespace Entries

/-- What is at a place below a directory. Links are not followed. -/
def at? (entries : Entries) : Location → Option FileTree
  | [] => some (.dir entries)
  | [name] => entries.lookup name
  | name :: rest =>
    match entries.lookup name with
    | some (.dir below) => at? below rest
    | _ => none

/-- Puts something at a place below a directory. Directories on the way are made if they are not
there; a file or link on the way gives way to a directory. -/
def put (entries : Entries) (thing : FileTree) : Location → Entries
  | [] => entries
  | [name] => Keyed.put name thing entries
  | name :: rest =>
    let below := match entries.lookup name with
      | some (.dir below) => below
      | _ => []
    Keyed.put name (.dir (put below thing rest)) entries

/-- Takes away what is at a place below a directory. -/
def remove (entries : Entries) : Location → Entries
  | [] => entries
  | [name] => entries.filter fun e ↦ e.1 != name
  | name :: rest =>
    match entries.lookup name with
    | some (.dir below) => Keyed.put name (.dir (remove below rest)) entries
    | _ => entries

/-- **What was put is there.** -/
theorem at?_put (entries : Entries) (thing : FileTree) {place : Location} (h : place ≠ []) :
    (entries.put thing place).at? place = some thing := by
  induction place generalizing entries with
  | nil => exact absurd rfl h
  | cons name rest ih =>
    cases rest with
    | nil => simp [put, at?, Keyed.lookup_put]
    | cons next rest => simp [put, at?, Keyed.lookup_put, ih]

end Entries

/-- A file system and the directory that relative paths begin at. -/
structure Disk where
  root : Entries
  here : Location

namespace Disk

/-- What is at a location. Links are not followed. -/
def at? (d : Disk) (l : Location) : Option FileTree := d.root.at? l

end Disk

end CommentScope
