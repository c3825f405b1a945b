import CommentScope.Annotated
import CommentScope.Api
import CommentScope.Block
import CommentScope.CSharp.Lexemes
import CommentScope.CSharp.Outline
import CommentScope.Cli.Arguments
import CommentScope.Cli.Report
import CommentScope.Cli.Run
import CommentScope.Cli.Usage
import CommentScope.Comment
import CommentScope.Concrete
import CommentScope.Disk.Basic
import CommentScope.Disk.Edit
import CommentScope.Disk.Lookup
import CommentScope.Disk.Resolve
import CommentScope.Disk.Walk
import CommentScope.FileReport
import CommentScope.Finding
import CommentScope.Glob.Name
import CommentScope.Glob.Select
import CommentScope.Grammar
import CommentScope.Java.Lexemes
import CommentScope.Java.Outline
import CommentScope.Json.Basic
import CommentScope.Json.Printer
import CommentScope.Json.Reader
import CommentScope.Keyed
import CommentScope.Language
import CommentScope.Languages
import CommentScope.Lexeme
import CommentScope.Logging
import CommentScope.Main
import CommentScope.Markers
import CommentScope.Outline
import CommentScope.Path
import CommentScope.Python.Lexemes
import CommentScope.Python.Outline
import CommentScope.Registry
import CommentScope.Role
import CommentScope.Settings.Basic
import CommentScope.Settings.EnvFile
import CommentScope.Settings.Sources
import CommentScope.Settings.Value
import CommentScope.Sha256
import CommentScope.Sources.Discovery
import CommentScope.Sources.Fault
import CommentScope.Sources.Project
import CommentScope.Sources.Reach
import CommentScope.Sources.Solution
import CommentScope.Span
import CommentScope.Text.Blank
import CommentScope.Text.Case
import CommentScope.Text.Hex
import CommentScope.Text.Newline
import CommentScope.Text.Printable
import CommentScope.Text.Quoted
import CommentScope.Text.Ranges
import CommentScope.Text.Search
import CommentScope.Text.Similar
import CommentScope.Text.Utf8
import CommentScope.Text.Word
import CommentScope.Tree.Basic
import CommentScope.Tree.Draft
import CommentScope.Tree.Enclosing
import CommentScope.Tree.Lowering
import CommentScope.Tree.Visitor
import CommentScope.Tree.Walk
import CommentScope.Trivia
import CommentScope.Workspace
import CommentScope.Xml.Charsets
import CommentScope.Xml.Content
import CommentScope.Xml.Declaration
import CommentScope.Xml.Doctype
import CommentScope.Xml.DoctypeReader
import CommentScope.Xml.Document
import CommentScope.Xml.Encoding
import CommentScope.Xml.Names
import CommentScope.Xml.Namespaces
import CommentScope.Xml.Scan
import CommentScope.Proofs.Addresses
import CommentScope.Proofs.Adoption
import CommentScope.Proofs.AgreeingLinks
import CommentScope.Proofs.Ancestry
import CommentScope.Proofs.Around
import CommentScope.Proofs.Arranged
import CommentScope.Proofs.Attachment
import CommentScope.Proofs.BlockOrder
import CommentScope.Proofs.BlockText
import CommentScope.Proofs.CodeTree
import CommentScope.Proofs.CommentLines
import CommentScope.Proofs.CommentParts
import CommentScope.Proofs.CompiledFiles
import CommentScope.Proofs.ConcreteOrder
import CommentScope.Proofs.DirectoryWalk
import CommentScope.Proofs.DiscoveredFiles
import CommentScope.Proofs.DiskPaths
import CommentScope.Proofs.DocRuns
import CommentScope.Proofs.DraftRuns
import CommentScope.Proofs.FindingLines
import CommentScope.Proofs.FrameRuns
import CommentScope.Proofs.Frames
import CommentScope.Proofs.Hosts
import CommentScope.Proofs.Interfaces
import CommentScope.Proofs.JoinedLines
import CommentScope.Proofs.Layout
import CommentScope.Proofs.LazyFindings
import CommentScope.Proofs.Malformed
import CommentScope.Proofs.Octets
import CommentScope.Proofs.Outcome
import CommentScope.Proofs.PartSpans
import CommentScope.Proofs.PartTexts
import CommentScope.Proofs.Placement
import CommentScope.Proofs.PlainDocuments
import CommentScope.Proofs.Preorder
import CommentScope.Proofs.PrintedText
import CommentScope.Proofs.ReadAlike
import CommentScope.Proofs.Readable
import CommentScope.Proofs.Reading
import CommentScope.Proofs.ReadingErrors
import CommentScope.Proofs.RealLocations
import CommentScope.Proofs.RecursiveWalk
import CommentScope.Proofs.Reordered
import CommentScope.Proofs.Reports
import CommentScope.Proofs.Scopes
import CommentScope.Proofs.SharedSources
import CommentScope.Proofs.SiblingRuns
import CommentScope.Proofs.SkippedProjects
import CommentScope.Proofs.SourceOrder
import CommentScope.Proofs.TodoFindings
import CommentScope.Proofs.Utf8
import CommentScope.Proofs.WalkOrder
import CommentScope.Proofs.WrittenSolutions
import CommentScope.Proofs.Extensions
import CommentScope.Proofs.SelectedFiles
import CommentScope.Proofs.Registrations
