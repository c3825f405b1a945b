import CommentScope.Text.Similar
import CommentScope.Text.Quoted

/-!
# Arguments of the command line

A command has flags, which take no value. A flag has a long name with two hyphens and may have a
short one; short names can be written together behind one hyphen. Two hyphens end the flags. Flags may
stand anywhere among the other arguments, unless those are another command with arguments of its own.
-/

namespace CommentScope.Cli

/-- The flags of all commands. -/
inductive Flag where
  | version
  | verbose
  | json
  | failOnMatch
  | help
  deriving DecidableEq

namespace Flag

/-- The long name of a flag. -/
def long : Flag → String
  | .version => "--version"
  | .verbose => "--verbose"
  | .json => "--json"
  | .failOnMatch => "--fail-on-match"
  | .help => "--help"

/-- The short name of a flag, without its hyphen. -/
def short? : Flag → Option Char
  | .verbose => some 'v'
  | _ => none

end Flag

/-- What is wrong with the arguments of a command. -/
inductive UsageFault where
  | noSuchOption (name : String) (near : List String)
  | valueGiven (name : String)
  | missingCommand
  | noSuchCommand (name : String) (near : List String)
  | missingPaths
  | noSuchPath (path : String)
  deriving DecidableEq

namespace UsageFault

/-- The wording that points to names like the one that was given. -/
def hint : List String → String
  | [] => ""
  | [name] => s!" Did you mean {Text.Quoted.quote name}?"
  | names =>
    let list := ", ".intercalate (names.map Text.Quoted.quote)
    s!" (Did you mean one of: {list}?)"

/-- The wording of a fault. -/
def message : UsageFault → String
  | .noSuchOption name near => s!"No such option {Text.Quoted.quote name}.{hint near}"
  | .valueGiven name => s!"Option {Text.Quoted.quote name} does not take a value."
  | .missingCommand => "Missing command."
  | .noSuchCommand name near => s!"No such command {Text.Quoted.quote name}.{hint near}"
  | .missingPaths => "Missing argument 'PATHS...'."
  | .noSuchPath path =>
    s!"Invalid value for 'PATHS...': Path {Text.Quoted.quote path} does not exist."

end UsageFault

/-- The flags of short names. -/
def shortFlags? (flags : List Flag) : List Char → Except UsageFault (List Flag)
  | [] => .ok []
  | c :: cs =>
    match flags.find? fun f ↦ f.short? == some c with
    | none => .error (.noSuchOption (String.ofList ['-', c]) [])
    | some f => (f :: ·) <$> shortFlags? flags cs

/-- The flags of an argument that begins with a hyphen. -/
def flagsOf? (flags : List Flag) (arg : String) : Except UsageFault (List Flag) :=
  let name := String.ofList (arg.toList.takeWhile (· != '='))
  match flags.find? fun f ↦ f.long == name with
  | some f => if arg.contains '=' then .error (.valueGiven name) else .ok [f]
  | none =>
    if "--".toList.isPrefixOf arg.toList then
      .error (.noSuchOption name (Text.near (flags.map Flag.long) name))
    else shortFlags? flags (arg.toList.drop 1)

/-- Whether an argument is made of flags. -/
def isFlags (arg : String) : Bool := arg.startsWith "-" && arg != "-"

/-- Separates flags from other arguments. If flags must come first, everything from the first other
argument on is left as it is. -/
def separate? (flags : List Flag) (first : Bool) :
    List String → Except UsageFault (List Flag × List String)
  | [] => .ok ([], [])
  | arg :: args =>
    if arg = "--" then .ok ([], args)
    else if isFlags arg then do
      let found ← flagsOf? flags arg
      let (more, rest) ← separate? flags first args
      pure (found ++ more, rest)
    else if first then .ok ([], arg :: args)
    else do
      let (found, rest) ← separate? flags first args
      pure (found, arg :: rest)

end CommentScope.Cli
