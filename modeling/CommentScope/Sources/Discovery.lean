import CommentScope.Disk.Walk
import CommentScope.Registry
import CommentScope.Sources.Fault

/-!
# Sources below a directory

All files below a directory that can be scanned: their names have a known extension and they are not
too large. Directories that hold no sources of the project itself are not gone into. The files are
listed in the order of their relative paths.
-/

namespace CommentScope.Discovery

/-- The names of the directories that are not gone into. -/
def skippedNames : List String := [
  ".git", ".svn", ".hg", ".vs", "node_modules", "__pycache__", ".pytest_cache", ".mypy_cache",
  ".ruff_cache", "venv", ".venv", "env", ".env", "target", "build", "dist", "bin", "obj", ".idea",
  ".vscode"]

/-- Whether a directory is gone into. -/
def enters (name : String) : Bool := !skippedNames.contains name

variable {φ : Type} (registry : Registry φ) (sizeLimit : Int) (d : Disk)

/-- Whether a name has a known extension. -/
def isKnown (name : String) : Bool :=
  registry.knownExtensions.contains (Text.lower (Path.suffixOf name))

/-- The file on a way from a directory, if it can be scanned. -/
def fileAt? (root way : Location) : Option SourceFile :=
  let location := root ++ way
  match d.find? location.text with
  | .ok (.file content) =>
    if isKnown registry (way.getLastD "") && decide ((content.size : Int) ≤ sizeLimit) then
      some ⟨"/".intercalate way, location, content.size⟩
    else none
  | _ => none

/-- The files below a directory that can be scanned. -/
def files (root : Location) : List SourceFile :=
  ((d.filesBelow enters ⟨"/", root⟩).filterMap (fileAt? registry sizeLimit d root)).mergeSort
    fun a b ↦ decide (a.relative ≤ b.relative)

/-- The files that can be scanned below the directory at a path. -/
def run (path : String) : Except SourceFault (List SourceFile) := do
  let root ← (d.resolve? (.ofText path)).mapError .loop
  if !(← (d.isDirectory? root.text).mapError .disk) then throw (.notDirectory path)
  pure (files registry sizeLimit d root)

end CommentScope.Discovery
