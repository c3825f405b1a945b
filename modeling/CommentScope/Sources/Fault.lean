import CommentScope.Disk.Resolve
import CommentScope.Glob.Select
import CommentScope.Xml.Charsets

/-!
# Why sources cannot be found

A `SourceFault` says why it cannot be told which files to scan. A project whose own fault is
`isSkippable` does not keep the other projects of a solution from being scanned.
-/

namespace CommentScope

/-- A file to be scanned: the path it is reported under, where it is, and its size. -/
structure SourceFile where
  relative : String
  location : Location
  size : Nat
  deriving DecidableEq

/-- Why it cannot be told which files to scan. -/
inductive SourceFault where
  | disk (fault : DiskFault)
  | loop (loop : Disk.LinkLoop)
  | notDirectory (path : String)
  | noProject
  | noSolution
  | malformedProject (path : String)
  | nulInPath
  | unknownEncoding (name : String)
  | unusableEncoding (fault : Xml.CodecFault)
  | pattern (fault : Glob.Fault)
  | noWorkers
  deriving DecidableEq

namespace SourceFault

/-- The wording of a fault, if it has one. -/
def message : SourceFault → Option String
  | .disk fault => some fault.message
  | .loop _ => none
  | .notDirectory path => some s!"Root path is not a directory: {path}"
  | .noProject => some "project_path must not be None"
  | .noSolution => some "solution_path must not be None"
  | .malformedProject path => some s!"Invalid project file {path}"
  | .nulInPath => some "embedded null byte"
  | .unknownEncoding _ => none
  | .unusableEncoding fault => some fault.message
  | .pattern fault => some fault.message
  | .noWorkers => some "max_workers must be greater than 0"

/-- Whether a project with this fault is left out of its solution. -/
def isSkippable : SourceFault → Bool
  | .loop _ | .unknownEncoding _ | .pattern .absolute => false
  | _ => true

end SourceFault

end CommentScope
