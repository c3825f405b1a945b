import CommentScope.Cli.Run
import CommentScope.Disk.Edit
import CommentScope.Settings.Sources
import CommentScope.Sources.Reach

/-!
# The program

Reads the part of the disk that matters into a `Disk`, runs the command line on it, and prints what
comes of it. Everything that is decided is decided in the library; this module only looks and prints.
-/

namespace CommentScope.Main

/-- The suffixes of the files whose contents may matter. -/
def suffixes : List String := [".cs", ".java", ".py", ".sln", ".csproj"]

/-- Whether the content of a file may matter, going by its name. -/
def matters (name : String) : Bool :=
  name == ".env" || suffixes.contains (Text.lower (Path.suffixOf name))

/-- What has been read of the disk. -/
structure Snapshot where
  disk : Disk
  /-- The directories that have been read. -/
  done : List String

namespace Snapshot

/-- The location of an absolute path. -/
def locationOf (path : String) : Location := Location.follow [] (Path.pieces path)

/-- Puts something at an absolute path. -/
def put (s : Snapshot) (path : String) (thing : FileTree) : Snapshot :=
  { s with disk := s.disk.put thing (locationOf path) }

/-- Reads what is at absolute paths without links on the way to them. With each path comes whether
the content of a file matters whatever its name is. -/
partial def read (s : Snapshot) : List (String × Bool) → IO Snapshot
  | [] => pure s
  | (path, wanted) :: rest => do
    let place ← IO.FS.realPath "/"
    let place := place / path
    match ← (place.symlinkMetadata).toBaseIO with
    | .error _ => s.read rest
    | .ok data =>
      match data.type with
      | .dir =>
        if s.done.contains path then s.read rest
        else
          let names := (← place.readDir).toList.map fun e ↦ e.fileName
          let inner := names.map fun name ↦ (Location.text (locationOf path ++ [name]), matters name)
          let made := { s with disk := s.disk.makeDirectory path, done := path :: s.done }
          made.read (inner ++ rest)
      | .symlink =>
        match ← (IO.FS.realPath place).toBaseIO with
        | .error _ => (s.put path (.link "\x00")).read rest
        | .ok target => (s.put path (.link target.toString)).read ((target.toString, wanted) :: rest)
      | .file =>
        if wanted then do
          let content ← IO.FS.readBinFile place
          (s.put path (.file content)).read rest
        else (s.put path (.file .empty)).read rest
      | .other => s.read rest

/-- Reads what is at a path, and the links on the way to it. -/
def readPath (s : Snapshot) (path : Path) : IO Snapshot := do
  let here : Path := ⟨"/", s.disk.here⟩
  let whole := here.join path
  let starts := (List.range (whole.parts.length + 1)).map fun n ↦ whole.parts.take n
  starts.foldlM (fun s parts ↦ do
    let parent ← (IO.FS.realPath (Path.text ⟨"/", parts.dropLast⟩)).toBaseIO
    match parent, parts.getLast? with
    | .ok parent, some name =>
      if name == ".." then pure s
      else
        let place := parent / name
        let isLast := parts.length == whole.parts.length
        match ← (place.symlinkMetadata).toBaseIO with
        | .ok data =>
          if isLast || data.type == .symlink then s.read [(place.toString, true)] else pure s
        | .error _ => pure s
    | _, _ => pure s) s

/-- Reads what is at paths. -/
def readPaths (s : Snapshot) (paths : List Path) : IO Snapshot := paths.foldlM readPath s

end Snapshot

/-- The variables of the environment that are settings. -/
def environment : IO (List (String × String)) := do
  let names := Settings.Field.all.flatMap fun f ↦ [f.name, Text.asciiUpper f.name]
  let values ← names.mapM fun name ↦ do
    let value ← IO.getEnv name
    pure (value.map fun v ↦ (name, v))
  pure (values.filterMap id)

/-- Reads what matters to arguments. -/
def snapshot (args : List String) : IO Snapshot := do
  let here ← IO.currentDir
  let place := Snapshot.locationOf here.toString
  let start : Snapshot := ⟨⟨Entries.put [] (.dir []) place, place⟩, []⟩
  let asked ← start.readPaths (Path.ofText ".env" :: args.map Path.ofText)
  let withProjects ← asked.readPaths (Reach.projects asked.disk args)
  let projects := Reach.projects withProjects.disk args
  withProjects.readPaths (projects.flatMap fun p ↦ Reach.ofProject withProjects.disk p.text)

/-- The wording of a fault, as far as it has words. -/
def wording : Cli.Fault → String
  | .settings (.unreadable f o) => Settings.unreadableMessage f o
  | .settings (.invalid issues) =>
    let lines := issues.map fun i ↦
      let steps := i.place.map fun
        | .name name => name
        | .index n => toString n
      ".".intercalate steps ++ ": " ++ i.kind.name
    "\n".intercalate lines
  | .markers fault => fault.message
  | .sources fault => fault.message.getD "the project or its links cannot be read"
  | .report fault => fault.message.getD "the report cannot be written"

end CommentScope.Main

/-- Runs the program. -/
def main (args : List String) : IO UInt32 := do
  let s ← CommentScope.Main.snapshot args
  let bindings ← CommentScope.Main.environment
  let envFile := (s.disk.read? ".env").toOption.map CommentScope.Utf8.text
  let settings := CommentScope.Settings.load? ⟨[], bindings, envFile⟩
  let outcome := CommentScope.Cli.run s.disk settings args
  IO.print outcome.output
  IO.eprint outcome.errors
  match outcome.fault with
  | some fault => IO.eprintln (CommentScope.Main.wording fault)
  | none => pure ()
  pure outcome.exitCode.toUInt32
