import ProtoSchema.Build.Assembly
import ProtoSchema.Build.Checked
import ProtoSchema.Build.Draft
import ProtoSchema.Build.Enum
import ProtoSchema.Build.Extension
import ProtoSchema.Build.Field
import ProtoSchema.Build.File
import ProtoSchema.Build.Import
import ProtoSchema.Build.Message
import ProtoSchema.Build.Oneof
import ProtoSchema.Build.Option
import ProtoSchema.Build.Read
import ProtoSchema.Build.Refusal
import ProtoSchema.Build.Reservation
import ProtoSchema.Build.Service
import ProtoSchema.Layout.Cursor
import ProtoSchema.Layout.InOrder
import ProtoSchema.Layout.Margin
import ProtoSchema.Layout.Outcome
import ProtoSchema.Layout.Segment
import ProtoSchema.Layout.Style
import ProtoSchema.Layout.Writer
import ProtoSchema.Letter.Cased
import ProtoSchema.Letter.Lower
import ProtoSchema.Literal.Format
import ProtoSchema.Literal.Quoted
import ProtoSchema.Literal.Scalar
import ProtoSchema.Node.Basic
import ProtoSchema.Node.Capability
import ProtoSchema.Node.Equality
import ProtoSchema.Node.Parts
import ProtoSchema.Node.Render
import ProtoSchema.Node.Shown
import ProtoSchema.Node.Value
import ProtoSchema.Number.Binary64
import ProtoSchema.Number.FloatText
import ProtoSchema.Number.Quantity
import ProtoSchema.Number.Reading
import ProtoSchema.Number.Shortest
import ProtoSchema.Number.WholeText
import ProtoSchema.Print.Failing
import ProtoSchema.Print.Field
import ProtoSchema.Print.File
import ProtoSchema.Print.Message
import ProtoSchema.Print.Option
import ProtoSchema.Print.Scope
import ProtoSchema.Print.Script
import ProtoSchema.Proofs.Agreement
import ProtoSchema.Proofs.Balance
import ProtoSchema.Proofs.Checks
import ProtoSchema.Proofs.Column
import ProtoSchema.Proofs.Commentary
import ProtoSchema.Proofs.Composition
import ProtoSchema.Proofs.Constructible
import ProtoSchema.Proofs.Construction
import ProtoSchema.Proofs.Cut
import ProtoSchema.Proofs.Decoding
import ProtoSchema.Proofs.Document
import ProtoSchema.Proofs.Drafting
import ProtoSchema.Proofs.Fault
import ProtoSchema.Proofs.Hygiene
import ProtoSchema.Proofs.Idle
import ProtoSchema.Proofs.ImportList
import ProtoSchema.Proofs.Interchange
import ProtoSchema.Proofs.Keeping
import ProtoSchema.Proofs.Laid
import ProtoSchema.Proofs.Ledger
import ProtoSchema.Proofs.Levels
import ProtoSchema.Proofs.Line
import ProtoSchema.Proofs.LineWidth
import ProtoSchema.Proofs.Literals
import ProtoSchema.Proofs.Maintenance
import ProtoSchema.Proofs.Neat
import ProtoSchema.Proofs.Outline
import ProtoSchema.Proofs.Overflow
import ProtoSchema.Proofs.Phrase
import ProtoSchema.Proofs.Piece
import ProtoSchema.Proofs.Plan
import ProtoSchema.Proofs.Quoting
import ProtoSchema.Proofs.Reading
import ProtoSchema.Proofs.Registration
import ProtoSchema.Proofs.Reserving
import ProtoSchema.Proofs.Restoring
import ProtoSchema.Proofs.Rows
import ProtoSchema.Proofs.Scope
import ProtoSchema.Proofs.Shift
import ProtoSchema.Proofs.Stopping
import ProtoSchema.Proofs.Tidy
import ProtoSchema.Proofs.Tokens
import ProtoSchema.Proofs.Tree
import ProtoSchema.Proofs.Trimming
import ProtoSchema.Proofs.Uniqueness
import ProtoSchema.Proofs.WellFormed
import ProtoSchema.Proofs.Wording
import ProtoSchema.Report.Quoted
import ProtoSchema.Report.Unprintable
import ProtoSchema.Schema.Enum
import ProtoSchema.Schema.Enumeration
import ProtoSchema.Schema.Extension
import ProtoSchema.Schema.Field
import ProtoSchema.Schema.FieldType
import ProtoSchema.Schema.File
import ProtoSchema.Schema.Import
import ProtoSchema.Schema.Message
import ProtoSchema.Schema.OptionDecl
import ProtoSchema.Schema.OptionTarget
import ProtoSchema.Schema.Reservation
import ProtoSchema.Schema.Service
import ProtoSchema.Session.Action
import ProtoSchema.Session.Call
import ProtoSchema.Session.Eval
import ProtoSchema.Session.Expr
import ProtoSchema.Session.Failure
import ProtoSchema.Session.State
import ProtoSchema.Session.Writing
import ProtoSchema.Usage.Conflict
import ProtoSchema.Usage.FieldScope
import ProtoSchema.Usage.Request
import ProtoSchema.Usage.TypeScope
