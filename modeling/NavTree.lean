import NavTree.Code.Component
import NavTree.Code.Declaration
import NavTree.Code.Format
import NavTree.Code.Graph
import NavTree.Code.Rendering
import NavTree.Code.Routes
import NavTree.Code.Splice
import NavTree.Code.Template
import NavTree.CommandLine.Arguments
import NavTree.CommandLine.Session
import NavTree.Files.Access
import NavTree.Files.Digest
import NavTree.Files.Discovery
import NavTree.Files.Disk
import NavTree.Files.Fault
import NavTree.Files.Path
import NavTree.Json.Basic
import NavTree.Json.Parser
import NavTree.Json.Printer
import NavTree.Main
import NavTree.Number.Double
import NavTree.Number.Notation
import NavTree.Outline.Basic
import NavTree.Outline.Decode
import NavTree.Outline.Fault
import NavTree.Outline.Field
import NavTree.Outline.Value
import NavTree.Project.Compile
import NavTree.Project.Fault
import NavTree.Project.Install
import NavTree.Project.Job
import NavTree.Project.Run
import NavTree.Project.Scaffold
import NavTree.Proofs.Appearance
import NavTree.Proofs.Code.Builder
import NavTree.Proofs.Code.Collisions
import NavTree.Proofs.Code.Constants
import NavTree.Proofs.Code.Declared
import NavTree.Proofs.Code.Drawing
import NavTree.Proofs.Code.DrawnOnce
import NavTree.Proofs.Code.Dressed
import NavTree.Proofs.Code.Erased
import NavTree.Proofs.Code.Fragments
import NavTree.Proofs.Code.Imported
import NavTree.Proofs.Code.Label
import NavTree.Proofs.Code.Markup
import NavTree.Proofs.Code.Members
import NavTree.Proofs.Code.MergedImports
import NavTree.Proofs.Code.NamedImports
import NavTree.Proofs.Code.Order
import NavTree.Proofs.Code.ReadBack
import NavTree.Proofs.Code.Reference
import NavTree.Proofs.Code.Rendered
import NavTree.Proofs.Code.RouteInputs
import NavTree.Proofs.Code.SharedGroup
import NavTree.Proofs.Code.Stack
import NavTree.Proofs.Code.TemplatePaths
import NavTree.Proofs.Concur
import NavTree.Proofs.Files.Beside
import NavTree.Proofs.Files.Change
import NavTree.Proofs.Files.Departure
import NavTree.Proofs.Files.Edit
import NavTree.Proofs.Files.Gained
import NavTree.Proofs.Files.Grown
import NavTree.Proofs.Files.Looks
import NavTree.Proofs.Files.Order
import NavTree.Proofs.Files.Path
import NavTree.Proofs.Files.Place
import NavTree.Proofs.Files.Rewalk
import NavTree.Proofs.Files.Sought
import NavTree.Proofs.Files.Survey
import NavTree.Proofs.Files.Walk
import NavTree.Proofs.Files.Way
import NavTree.Proofs.Json.Distinct
import NavTree.Proofs.Keyed
import NavTree.Proofs.Number.Text
import NavTree.Proofs.Outline.Drafts
import NavTree.Proofs.Outline.Fields
import NavTree.Proofs.Outline.Fragment
import NavTree.Proofs.Outline.Lossless
import NavTree.Proofs.Project.Accounted
import NavTree.Proofs.Project.Again
import NavTree.Proofs.Project.Conclusion
import NavTree.Proofs.Project.Credited
import NavTree.Proofs.Project.Ends
import NavTree.Proofs.Project.Failed
import NavTree.Proofs.Project.Held
import NavTree.Proofs.Project.Installed
import NavTree.Proofs.Project.Isolated
import NavTree.Proofs.Project.Local
import NavTree.Proofs.Project.Making
import NavTree.Proofs.Project.MissingOnly
import NavTree.Proofs.Project.Persist
import NavTree.Proofs.Project.Places
import NavTree.Proofs.Project.Produced
import NavTree.Proofs.Project.Producers
import NavTree.Proofs.Project.Progress
import NavTree.Proofs.Project.Reaches
import NavTree.Proofs.Project.Repeatable
import NavTree.Proofs.Project.Replaced
import NavTree.Proofs.Project.Scaffolded
import NavTree.Proofs.Project.Settled
import NavTree.Proofs.Project.Spared
import NavTree.Proofs.Project.Staged
import NavTree.Proofs.Project.Stagewise
import NavTree.Proofs.Project.Summary
import NavTree.Proofs.Project.Together
import NavTree.Proofs.Project.Turns
import NavTree.Proofs.Project.Writing
import NavTree.Proofs.Result
import NavTree.Proofs.Script.ObjectLiteral
import NavTree.Proofs.Task.Always
import NavTree.Proofs.Task.Conversation
import NavTree.Proofs.Task.Invariant
import NavTree.Proofs.Task.Lost
import NavTree.Proofs.Task.Quiet
import NavTree.Proofs.Task.Schedule
import NavTree.Proofs.Text.Enclosed
import NavTree.Proofs.Text.Literal
import NavTree.Proofs.Text.Quoted
import NavTree.Proofs.Tree.Addresses
import NavTree.Proofs.Tree.Alike
import NavTree.Proofs.Tree.Bare
import NavTree.Proofs.Tree.Canonical
import NavTree.Proofs.Tree.Checked
import NavTree.Proofs.Tree.Dissolved
import NavTree.Proofs.Tree.FirstKept
import NavTree.Proofs.Tree.Linked
import NavTree.Proofs.Tree.Listed
import NavTree.Proofs.Tree.Masked
import NavTree.Proofs.Tree.Mentions
import NavTree.Proofs.Tree.Naming
import NavTree.Proofs.Tree.NestedFirst
import NavTree.Proofs.Tree.Nesting
import NavTree.Proofs.Tree.Nodes
import NavTree.Proofs.Tree.Parts
import NavTree.Proofs.Tree.Placed
import NavTree.Proofs.Tree.Position
import NavTree.Proofs.Tree.Record
import NavTree.Proofs.Tree.Restated
import NavTree.Proofs.Tree.RootNames
import NavTree.Proofs.Tree.Seen
import NavTree.Proofs.Tree.Segments
import NavTree.Proofs.Tree.Spelling
import NavTree.Proofs.Tree.Visitor
import NavTree.Script.Basic
import NavTree.Script.Grammar
import NavTree.Script.Literal
import NavTree.Script.Node
import NavTree.Script.Parser
import NavTree.Script.Parser.Function
import NavTree.Script.Parser.Markup
import NavTree.Script.Parser.Pattern
import NavTree.Script.Parser.Statement
import NavTree.Script.Parser.Term
import NavTree.Script.Parser.Type
import NavTree.Script.Printer
import NavTree.Script.Printer.Place
import NavTree.Script.Printer.Statement
import NavTree.Script.Printer.Term
import NavTree.Script.Printer.Type
import NavTree.Script.Token
import NavTree.Task.Basic
import NavTree.Task.Pool
import NavTree.Task.Run
import NavTree.Task.StandIn
import NavTree.Task.Tool
import NavTree.Text.Letter
import NavTree.Text.Literal
import NavTree.Text.Printable
import NavTree.Text.Ranges
import NavTree.Text.Replace
import NavTree.Text.Shown
import NavTree.Text.Utf8
import NavTree.Tree.Basic
import NavTree.Tree.Flat
import NavTree.Tree.Naming
import NavTree.Tree.Normal
import NavTree.Tree.Value
import NavTree.Tree.Walk
