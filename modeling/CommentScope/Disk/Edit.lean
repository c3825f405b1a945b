import CommentScope.Disk.Resolve

/-!
# Changing a disk

Things are written at the real location of a path, and the directories on the way to it are made. A
thing is deleted where its name stands, so deleting a link leaves what it leads to.
-/

namespace CommentScope

namespace Disk

variable (d : Disk)

/-- Where a path ends, with the links on the way followed. -/
def target (path : Path) : Location :=
  let start := if path.isAbsolute then [] else d.here
  Location.follow [] (d.realPath (linkCount d.root) [] start path.parts).2

/-- Where the name of a path stands: the links before it are followed. -/
def place (path : Path) : Location := d.target path.parent ++ [path.name]

/-- The disk with something at a location. -/
def put (thing : FileTree) (l : Location) : Disk := { d with root := d.root.put thing l }

/-- Writes a file. -/
def write (path : String) (content : ByteArray) : Except DiskFault Disk :=
  let l := d.target (.ofText path)
  match d.at? l with
  | some (.dir _) => .error ⟨.isDirectory, path⟩
  | _ => .ok (d.put (.file content) l)

/-- Makes a link. -/
def makeLink (path target : String) : Disk := d.put (.link target) (d.place (.ofText path))

/-- Makes a directory, unless it is there. -/
def makeDirectory (path : String) : Disk :=
  let l := d.target (.ofText path)
  match d.at? l with
  | some (.dir _) => d
  | _ => d.put (.dir []) l

/-- Deletes a file or a link. -/
def delete (path : String) : Except DiskFault Disk :=
  match d.locate false path with
  | .error cause => .error ⟨cause, path⟩
  | .ok l =>
    match d.at? l with
    | none => .error ⟨.notFound, path⟩
    | some (.dir _) => .error ⟨.isDirectory, path⟩
    | some _ => .ok { d with root := d.root.remove l }

end Disk

end CommentScope
