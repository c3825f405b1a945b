import CommentScope.Finding
import CommentScope.Registry
import CommentScope.Sha256
import CommentScope.Tree.Lowering

/-!
# Scanning one source

A `Scanner` knows the languages and which comments are wanted. Scanning a source text gives a
`FileReport` with the findings, the tree they refer to and a digest of the text; a source that could
not be read at all has a report too, without tree and with the reason.
-/

namespace CommentScope

/-- A language that can be read: its tables, and a parser from text to concrete syntax. -/
structure FrontEnd where
  grammar : Grammar
  parse : String → Concrete

/-- What a scan says of one file. -/
structure FileReport where
  path : String
  language : Option Language
  hash : String
  tree : Option Tree
  findings : List Finding
  errors : List String

namespace FileReport

/-- Why a finding of a report cannot be described. -/
inductive Fault where
  | noTree (path : String)
  | search (fault : Tree.SearchFault)
  deriving DecidableEq

/-- The wording of a fault. -/
def Fault.message : Fault → Option String
  | .noTree path => some s!"No syntax tree for {path}"
  | .search fault => fault.message

/-- A finding with names in place of indices. -/
def describe? (r : FileReport) (f : Finding) : Except Fault Described :=
  match r.tree with
  | none => .error (.noTree r.path)
  | some t => (t.describe? f).mapError .search

/-- All findings with names. -/
def described? (r : FileReport) : Except Fault (List Described) :=
  r.findings.mapM r.describe?

end FileReport

/-- The warning about nodes that could not be read, if there are any. -/
def Tree.readingErrors (t : Tree) : List String :=
  let count := t.nodes.toList.countP fun n ↦
    n.type == Annotated.errorType || n.type == Annotated.missingType
  if count = 0 then []
  else [s!"source has {count} syntax error(s); scopes are best-effort"]

/-- Why a source cannot be scanned. -/
inductive ScanFault where
  | noSource
  | unsupportedFile (path : String)
  | unsupportedLanguage (language : Language)
  | unreadable (fault : Grammar.Fault)
  | search (fault : Tree.SearchFault)
  deriving DecidableEq

/-- The wording of a fault. -/
def ScanFault.message : ScanFault → Option String
  | .noSource => some "source_code must not be None"
  | .unsupportedFile path => some s!"Unsupported file type: {path}"
  | .unsupportedLanguage language => some s!"Unsupported language: {language.name}"
  | .unreadable fault => fault.message
  | .search fault => fault.message

/-- The tree of a source text. -/
def FrontEnd.tree? (f : FrontEnd) (source : String) : Except ScanFault Tree :=
  (f.grammar.tree? source.toUTF8 (f.parse source)).mapError .unreadable

/-- The languages that can be scanned and the rule for wanted comments. -/
structure Scanner where
  registry : Registry FrontEnd
  accepts : Matcher

namespace Scanner

variable (s : Scanner)

/-- The front end for a language that was asked for. -/
def frontEndOf (language : Language) : Except ScanFault FrontEnd :=
  match s.registry.frontEnd? language with
  | none => .error (.unsupportedLanguage language)
  | some f => .ok f

/-- The language of a source: the one asked for, or that of the path. -/
def languageOf (path : String) (language : Option Language) : Except ScanFault Language :=
  match language <|> s.registry.languageFor? path with
  | none => .error (.unsupportedFile path)
  | some l => .ok l

/-- Scans a source text. The digest of its UTF-8 is reported unless another one is given that is not
empty. -/
def scanSource (source : Option String) (path : String) (language : Option Language)
    (hash : Option String) : Except ScanFault FileReport := do
  let some source := source | throw .noSource
  let language ← s.languageOf path language
  let frontEnd ← s.frontEndOf language
  let tree ← frontEnd.tree? source
  let findings ← (tree.findings? s.accepts).mapError .search
  pure {
    path, language := some language
    hash := match hash with
      | some h => if h.isEmpty then Sha256.hex source.toUTF8 else h
      | none => Sha256.hex source.toUTF8
    tree := some tree, findings
    errors := tree.readingErrors }

/-- The tree of a source text in a given language. -/
def treeOf (source : Option String) (language : Language) : Except ScanFault Tree := do
  let some source := source | throw .noSource
  let frontEnd ← s.frontEndOf language
  frontEnd.tree? source

/-- The tree of a source text in a given language, and the wanted comments in it. -/
def scanText (source : Option String) (language : Language) :
    Except ScanFault (Tree × List Finding) := do
  let tree ← s.treeOf source language
  let findings ← (tree.findings? s.accepts).mapError .search
  pure (tree, findings)

end Scanner

end CommentScope
