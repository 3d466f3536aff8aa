import ModelGrid.AngularModule.ImportPath
import ModelGrid.AngularModule.Registration
import ModelGrid.AngularModule.Search
import ModelGrid.CommandLine
import ModelGrid.Component.Assembly
import ModelGrid.Component.Blueprint
import ModelGrid.Component.Contribution
import ModelGrid.Component.Generate
import ModelGrid.Component.Skeleton
import ModelGrid.Component.Template
import ModelGrid.Edit.Anchor
import ModelGrid.Edit.Session
import ModelGrid.Fault
import ModelGrid.Json.Reader
import ModelGrid.Json.Value
import ModelGrid.Main
import ModelGrid.Model.Reading
import ModelGrid.Model.Name
import ModelGrid.Model.Property
import ModelGrid.Naming
import ModelGrid.Project.Description
import ModelGrid.Project.Read
import ModelGrid.Proofs.Edit.Layout
import ModelGrid.Proofs.Edit.Splitting
import ModelGrid.Proofs.Model.Reading
import ModelGrid.Proofs.Text.Parts
import ModelGrid.Settings
import ModelGrid.Store.Difference
import ModelGrid.Store.Disk
import ModelGrid.Store.Path
import ModelGrid.Store.Workspace
import ModelGrid.Syntax.Comments
import ModelGrid.Syntax.Document
import ModelGrid.Syntax.Grammar
import ModelGrid.Syntax.Grammar.Binding
import ModelGrid.Syntax.Grammar.Class
import ModelGrid.Syntax.Grammar.Declaration
import ModelGrid.Syntax.Grammar.Expression
import ModelGrid.Syntax.Grammar.Goal
import ModelGrid.Syntax.Grammar.Phrase
import ModelGrid.Syntax.Grammar.Statement
import ModelGrid.Syntax.Grammar.Type
import ModelGrid.Syntax.Kind
import ModelGrid.Syntax.Node
import ModelGrid.Syntax.Place
import ModelGrid.Syntax.Token
import ModelGrid.Syntax.Token.Lexeme
import ModelGrid.Syntax.Token.Scan
import ModelGrid.Text.Blank
import ModelGrid.Text.Case
import ModelGrid.Text.CaseTable
import ModelGrid.Text.Grapheme
import ModelGrid.Text.GraphemeTable
import ModelGrid.Text.Offset
import ModelGrid.Text.Search
import ModelGrid.Proofs.Component.Layout
import ModelGrid.Proofs.Store.Disk
import ModelGrid.Proofs.Store.Workspace
import ModelGrid.Proofs.AngularModule.ImportPath
import ModelGrid.Proofs.AngularModule.Registration
import ModelGrid.Proofs.Component.Run
import ModelGrid.Proofs.Model.Declaration
import ModelGrid.Proofs.AngularModule.Position
import ModelGrid.Proofs.Component.Assembly
import ModelGrid.Proofs.Component.Generate
import ModelGrid.Proofs.Component.Rerun
import ModelGrid.Proofs.Model.Refusal
import ModelGrid.Proofs.Component.Lookup
import ModelGrid.Proofs.Store.Frame
import ModelGrid.Proofs.Component.Frame
import ModelGrid.Proofs.Store.Listing
import ModelGrid.Proofs.AngularModule.Search
import ModelGrid.Proofs.Component.Early
import ModelGrid.Proofs.Component.Contribution
import ModelGrid.Proofs.Store.Temporary
import ModelGrid.Proofs.Store.Area
import ModelGrid.Proofs.Store.Interleaving
import ModelGrid.Proofs.Store.Tree
import ModelGrid.Proofs.Store.Contents
import ModelGrid.Proofs.Store.Turns
import ModelGrid.Proofs.Component.Order
import ModelGrid.Proofs.Component.Column
import ModelGrid.Proofs.Component.Interface
import ModelGrid.Proofs.Component.Row
import ModelGrid.Proofs.Component.Repeat
import ModelGrid.Proofs.Edit.Attempt
import ModelGrid.Proofs.Store.Atomic
import ModelGrid.Proofs.Store.Failure
import ModelGrid.Proofs.Component.Anew
import ModelGrid.Proofs.Syntax.Head
import ModelGrid.Proofs.Syntax.ImportGrammar
import ModelGrid.Proofs.Syntax.Import
import ModelGrid.Proofs.Syntax.ImportHead
import ModelGrid.Proofs.AngularModule.Header
import ModelGrid.Proofs.Component.Binding
import ModelGrid.Proofs.AngularModule.Resolution
import ModelGrid.Proofs.Component.Once
import ModelGrid.Proofs.Component.Declared
import ModelGrid.Proofs.AngularModule.Shortest
import ModelGrid.Proofs.Model.Joining
import ModelGrid.Proofs.Model.Spacing
import ModelGrid.Proofs.Model.Title
import ModelGrid.Proofs.Component.Rendering
import ModelGrid.Proofs.Edit.First
import ModelGrid.Proofs.AngularModule.Chain
import ModelGrid.Proofs.Project.Entry
import ModelGrid.Proofs.Syntax.Preceding
import ModelGrid.Proofs.Component.Respelling
