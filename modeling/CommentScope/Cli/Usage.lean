import CommentScope.Cli.Arguments

/-!
# Usage of the command line

How the commands are called and what they do, in the words of the program.
-/

namespace CommentScope.Cli

/-- The commands: the program itself and the one to scan. -/
inductive Command where
  | main
  | scan
  deriving DecidableEq

/-- The name of the command to scan. -/
def scanName : String := "scan"

/-- The name and version of the program. -/
def versionLine (version : String) : String := s!"todo-mapper, version {version}\n"

namespace Command

/-- How a command is called. -/
def call : Command → String
  | .main => "cli"
  | .scan => "cli scan"

/-- The flags of a command. -/
def flags : Command → List Flag
  | .main => [.version, .verbose, .help]
  | .scan => [.json, .failOnMatch, .help]

/-- The line about the use of a command. -/
def usage (c : Command) : String :=
  let arguments := match c with
    | .main => "COMMAND [ARGS]..."
    | .scan => "PATHS..."
  s!"Usage: {c.call} [OPTIONS] {arguments}\n"

/-- What a command does. -/
def summary : Command → String
  | .main => "Find TODO comments and report the member, type and namespace around each."
  | .scan => "Scan source files, directories, .sln solutions or .csproj projects."

/-- What the flags of a command do. -/
def options : Command → List (String × String)
  | .main => [("--version", "Show the version and exit."),
      ("-v, --verbose", "Enable debug logging"), ("--help", "Show this message and exit.")]
  | .scan => [("--json", "Print a JSON array instead of the report"),
      ("--fail-on-match", "Exit with status 1 when any TODO is found"),
      ("--help", "Show this message and exit.")]

/-- Rows of two columns, the second of which is aligned. -/
def table (rows : List (String × String)) : String :=
  let width := (rows.map fun r ↦ r.1.length).foldl max 0
  String.join (rows.map fun (name, what) ↦
    let gap := String.ofList (List.replicate (width - name.length) ' ')
    s!"  {name}{gap}  {what}\n")

/-- The help on a command. -/
def help (c : Command) : String :=
  let commands := match c with
    | .main => "\nCommands:\n" ++ table [(scanName, Command.scan.summary)]
    | .scan => ""
  let options := table c.options
  s!"{c.usage}\n  {c.summary}\n\nOptions:\n{options}{commands}"

/-- What is said when a command is not called as it should be. -/
def complaint (c : Command) (fault : UsageFault) : String :=
  s!"{c.usage}Try '{c.call} --help' for help.\n\nError: {fault.message}\n"

end Command

end CommentScope.Cli
