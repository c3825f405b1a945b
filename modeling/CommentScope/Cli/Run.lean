import CommentScope.Api
import CommentScope.Cli.Report
import CommentScope.Cli.Usage
import CommentScope.Workspace

/-!
# Running the command line

`Cli.run` says what the program prints and with which status it exits, given its arguments, the
settings and the disk.
-/

namespace CommentScope.Cli

/-- Why the program cannot finish. -/
inductive Fault where
  | settings (fault : Settings.Fault)
  | markers (fault : Markers.Fault)
  | sources (fault : SourceFault)
  | report (fault : FileReport.Fault)
  deriving DecidableEq

/-- What the program prints, its exit status, and why it could not finish if it could not. -/
structure Outcome where
  exitCode : Nat
  output : String
  errors : String
  fault : Option Fault
  deriving DecidableEq

namespace Outcome

/-- The program prints something and is done. -/
def printed (output : String) : Outcome := ⟨0, output, "", none⟩

/-- A command is not called as it should be. -/
def misused (c : Command) (fault : UsageFault) : Outcome := ⟨2, "", c.complaint fault, none⟩

/-- The program cannot finish. -/
def failed (fault : Fault) : Outcome := ⟨1, "", "", some fault⟩

end Outcome

/-- What is printed for the first flag that asks for information, if one does. -/
def information? (c : Command) : List Flag → Option String
  | [] => none
  | .help :: _ => some c.help
  | .version :: _ => some (versionLine Api.version)
  | _ :: flags => information? c flags

/-- Reports on a scan that is done. -/
def report (flags : List Flag) (reports : List FileReport) : Outcome :=
  match items? reports with
  | .error fault => .failed (.report fault)
  | .ok items => {
      exitCode := if flags.contains .failOnMatch && !items.isEmpty then 1 else 0
      output := if flags.contains .json then jsonReport items else plainReport items
      errors := failureReport reports
      fault := none }

section

variable (registry : Registry FrontEnd) (disk : Disk)

/-- Scans what is at paths and reports on it. -/
def scanPaths (settings : Settings) (flags : List Flag) (paths : List String) : Outcome :=
  match Workspace.of? disk registry settings none 0 with
  | .error fault => .failed (.markers fault)
  | .ok w =>
    match w.scanPaths paths with
    | .error fault => .failed (.sources fault)
    | .ok reports => report flags reports

/-- Runs the command to scan. -/
def runScan (settings : Settings) (args : List String) : Outcome :=
  match separate? Command.scan.flags false args with
  | .error fault => .misused .scan fault
  | .ok (flags, paths) =>
    match information? .scan flags with
    | some text => .printed text
    | none =>
      if paths.isEmpty then .misused .scan .missingPaths
      else
        match paths.find? fun p ↦ !disk.leads p with
        | some path => .misused .scan (.noSuchPath path)
        | none => scanPaths registry disk settings flags paths

end

/-- Answers a command that does not exist, unless its name reads as a flag that can be answered. -/
def runUnknown (name : String) (args : List String) : Outcome :=
  match separate? Command.main.flags true (name :: args) with
  | .error fault => .misused .main fault
  | .ok (flags, _) =>
    match information? .main flags with
    | some text => .printed text
    | none => .misused .main (.noSuchCommand name (Text.near [scanName] name))

/-- Runs the program with given languages. -/
def runWith (registry : Registry FrontEnd) (disk : Disk)
    (settings : Except Settings.Fault Settings) (args : List String) : Outcome :=
  if args.isEmpty then ⟨2, "", Command.main.help, none⟩
  else
    match separate? Command.main.flags true args with
    | .error fault => .misused .main fault
    | .ok (flags, rest) =>
      match information? .main flags with
      | some text => .printed text
      | none =>
        match rest with
        | [] => .misused .main .missingCommand
        | name :: args =>
          -- The settings are not read for a command that does not exist.
          if name ≠ scanName then runUnknown name args
          else
            match settings with
            | .error fault => .failed (.settings fault)
            | .ok settings => runScan registry disk settings args

/-- Runs the program. -/
def run (disk : Disk) (settings : Except Settings.Fault Settings) (args : List String) : Outcome :=
  runWith .standard disk settings args

end CommentScope.Cli
