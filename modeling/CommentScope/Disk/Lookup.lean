import CommentScope.Disk.Basic
import CommentScope.Text.Quoted

/-!
# Finding things on a disk

`Disk.locate` follows a path as it is written, links included, and says where it leads or why it
leads nowhere. Every part of the path but the last must be a directory or lead to one.
-/

namespace CommentScope

/-- Why a path leads nowhere, or to nothing that can be used. -/
inductive DiskFault.Cause where
  | notFound
  | notDirectory
  | isDirectory
  | nameTooLong
  | tooManyLinks
  deriving DecidableEq

/-- The number of a cause. -/
def DiskFault.Cause.number : Cause → Nat
  | .notFound => 2
  | .notDirectory => 20
  | .isDirectory => 21
  | .nameTooLong => 36
  | .tooManyLinks => 40

/-- The wording of a cause. -/
def DiskFault.Cause.words : Cause → String
  | .notFound => "No such file or directory"
  | .notDirectory => "Not a directory"
  | .isDirectory => "Is a directory"
  | .nameTooLong => "File name too long"
  | .tooManyLinks => "Too many levels of symbolic links"

/-- A fault and the path that was asked for. -/
structure DiskFault where
  cause : DiskFault.Cause
  path : String
  deriving DecidableEq

/-- The wording of a fault. -/
def DiskFault.message (f : DiskFault) : String :=
  s!"[Errno {f.cause.number}] {f.cause.words}: {Text.Quoted.quote f.path}"

namespace Disk

/-- The largest number of links on a path. -/
def maxLinks : Nat := 40

/-- The most octets that a name may have. -/
def maxNameSize : Nat := 255

/-- The number of octets that a path must stay below. -/
def maxPathSize : Nat := 4096

/-- The parts that a path is followed by. A slash at the end asks for a directory, like a dot. -/
def stepsOf (path : String) : List String :=
  let steps := (Path.pieces path).filter (· != "")
  if path.toList.getLast? = some '/' then steps ++ ["."] else steps

/-- Where a path begins. -/
def startOf (here : Location) (path : String) : Location :=
  if path.toList.head? = some '/' then [] else here

variable (d : Disk)

/-- Follows the parts of a path from a place; `links` more links may be on the way. A link at the end
is followed if `through` says so. -/
def walk (through : Bool) (links : Nat) (place : Location) :
    List String → Except DiskFault.Cause Location
  | [] => .ok place
  | part :: rest =>
    match d.at? place with
    | some (.dir entries) =>
      if part = "." then walk through links place rest
      else if part = ".." then walk through links place.dropLast rest
      else if maxNameSize < part.utf8ByteSize then .error .nameTooLong
      else
        match entries.lookup part with
        | none => .error .notFound
        | some (.link target) =>
          -- Only the last part may stay a link.
          if rest.isEmpty && !through then .ok (place ++ [part])
          else
            match links with
            | 0 => .error .tooManyLinks
            | links + 1 => walk through links (startOf place target) (stepsOf target ++ rest)
        | some _ => walk through links (place ++ [part]) rest
    | some _ => .error .notDirectory
    | none => .error .notFound
termination_by parts => (links, parts.length)

/-- Where a path leads. -/
def locate (through : Bool) (path : String) : Except DiskFault.Cause Location :=
  if path.isEmpty then .error .notFound
  else if maxPathSize ≤ path.utf8ByteSize then .error .nameTooLong
  else d.walk through maxLinks (startOf d.here path) (stepsOf path)

/-- What a path leads to. -/
def find? (path : String) : Except DiskFault.Cause FileTree :=
  match d.locate true path with
  | .error cause => .error cause
  | .ok l =>
    match d.at? l with
    | some t => .ok t
    | none => .error .notFound

/-- Whether a path leads to something. -/
def leads (path : String) : Bool := (d.find? path).toOption.isSome

/-- Whether a path leads to something; a path that cannot be followed at all because of its length is
a fault. -/
def leads? (path : String) : Except DiskFault Bool :=
  match d.find? path with
  | .error .nameTooLong => .error ⟨.nameTooLong, path⟩
  | found => .ok found.toOption.isSome

/-- The entries of the directory that a path leads to. -/
def entries? (path : String) : Option Entries :=
  match d.find? path with
  | .ok (.dir entries) => some entries
  | _ => none

/-- Whether a path leads to a directory. -/
def isDirectory (path : String) : Bool := (d.entries? path).isSome

/-- Whether a path leads to a directory; a path that cannot be followed at all because of its length is
a fault. -/
def isDirectory? (path : String) : Except DiskFault Bool :=
  match d.find? path with
  | .error .nameTooLong => .error ⟨.nameTooLong, path⟩
  | .ok (.dir _) => .ok true
  | _ => .ok false

/-- The content of the file that a path leads to. -/
def read? (path : String) : Except DiskFault ByteArray :=
  match d.find? path with
  | .ok (.file content) => .ok content
  | .ok _ => .error ⟨.isDirectory, path⟩
  | .error cause => .error ⟨cause, path⟩

end Disk

end CommentScope
