import LsxKit.CharSet
import LsxKit.CharSet.Age
import LsxKit.CharSet.Break
import LsxKit.CharSet.Bytes
import LsxKit.CharSet.Category
import LsxKit.CharSet.Fold
import LsxKit.CharSet.Named
import LsxKit.CharSet.Property
import LsxKit.CharSet.Script
import LsxKit.CommandLine.Host
import LsxKit.CommandLine.Invocation
import LsxKit.CommandLine.Options
import LsxKit.CommandLine.Program
import LsxKit.CommandLine.Report
import LsxKit.Configuration
import LsxKit.Decimal.Binary64
import LsxKit.Decimal.Layout
import LsxKit.Decimal.Shortest
import LsxKit.Descriptor.Basic
import LsxKit.Descriptor.Field
import LsxKit.Descriptor.Node
import LsxKit.Diagnosis.Engine
import LsxKit.Diagnosis.Locate
import LsxKit.Diagnosis.Outline
import LsxKit.Diagnosis.Problem
import LsxKit.Diagnosis.Store
import LsxKit.Entries
import LsxKit.Error
import LsxKit.Files.System
import LsxKit.Files.Tree
import LsxKit.Identifier
import LsxKit.Json.Fault
import LsxKit.Json.Numeral
import LsxKit.Json.Path
import LsxKit.Json.Printer
import LsxKit.Json.Reader
import LsxKit.Json.Record
import LsxKit.Json.Scan
import LsxKit.Json.Shape
import LsxKit.Json.Term
import LsxKit.Json.Value
import LsxKit.Localization.Table
import LsxKit.Main
import LsxKit.Packaging
import LsxKit.Path
import LsxKit.Pattern.Basic
import LsxKit.Pattern.Build
import LsxKit.Pattern.Class
import LsxKit.Pattern.Escape
import LsxKit.Pattern.Match
import LsxKit.Pattern.Read
import LsxKit.Pattern.Size
import LsxKit.Schema.Basic
import LsxKit.Schema.Documents
import LsxKit.Schema.Json
import LsxKit.Schema.Partials
import LsxKit.Schema.Validate
import LsxKit.Schema.Violation
import LsxKit.Text.Blank
import LsxKit.Text.Digits
import LsxKit.Text.Lines
import LsxKit.Text.Lower
import LsxKit.Text.Lowercase
import LsxKit.Text.Position
import LsxKit.Text.Printable
import LsxKit.Text.Quoted
import LsxKit.Text.Word
import LsxKit.Tree.Options
import LsxKit.Tree.Place
import LsxKit.Tree.Read
import LsxKit.Tree.Scalar
import LsxKit.Tree.Write
import LsxKit.Version
import LsxKit.Version.Json
import LsxKit.Version.Line
import LsxKit.Workspace
import LsxKit.Xml.Attribute
import LsxKit.Xml.Document
import LsxKit.Xml.Event
import LsxKit.Xml.Fault
import LsxKit.Xml.Reference
import LsxKit.Xml.Token
import LsxKit.Xml.WellFormed
import LsxKit.Xml.Writer
import LsxKit.Proofs.Xml.Element
import LsxKit.Proofs.Xml.Spaced
import LsxKit.Proofs.Xml.Tag
import LsxKit.Proofs.Xml.Reading
import LsxKit.Proofs.Xml.Names
import LsxKit.Proofs.Entries
import LsxKit.Proofs.Tree.Shape
import LsxKit.Proofs.Tree.Elements
import LsxKit.Proofs.Tree.Reread
import LsxKit.Proofs.Tree.RoundTrip
import LsxKit.Proofs.Tree.Places
import LsxKit.Proofs.Descriptor.Sync
import LsxKit.Proofs.Tree.Change
import LsxKit.Proofs.Tree.Texts
import LsxKit.Proofs.Descriptor.LineEnds
import LsxKit.Proofs.Descriptor.Save
import LsxKit.Proofs.Schema.Satisfies
import LsxKit.Proofs.Schema.Verdict
import LsxKit.Proofs.Decimal.Rounding
import LsxKit.Proofs.Schema.Genuine
import LsxKit.Proofs.Schema.Members
import LsxKit.Proofs.Xml.Readable
import LsxKit.Proofs.Diagnosis.Syntax
import LsxKit.Proofs.Tree.Plain
import LsxKit.Proofs.Descriptor.Clean
import LsxKit.Proofs.Diagnosis.Outline
import LsxKit.Proofs.Xml.Occurrence
import LsxKit.Proofs.Tree.Address
import LsxKit.Proofs.Diagnosis.Search
import LsxKit.Proofs.Diagnosis.Locate
import LsxKit.Proofs.Version.Packing
import LsxKit.Proofs.Descriptor.Bump
import LsxKit.Proofs.Diagnosis.Arrival
import LsxKit.Proofs.Diagnosis.Tracking
import LsxKit.Proofs.Diagnosis.Agreement
import LsxKit.Proofs.Diagnosis.Ranges
import LsxKit.Proofs.Diagnosis.Reported
import LsxKit.Proofs.Text.Offset
import LsxKit.Proofs.Json.Scalar
import LsxKit.Proofs.Json.Path
import LsxKit.Proofs.Json.Compact
import LsxKit.Proofs.Json.Fields
import LsxKit.Proofs.Schema.Reread
import LsxKit.Proofs.Xml.Fragment
import LsxKit.Proofs.Xml.Rooted
import LsxKit.Proofs.Xml.Content
import LsxKit.Proofs.Tree.Determined
import LsxKit.Proofs.Text.Pieces
import LsxKit.Proofs.Tree.Wording
import LsxKit.Proofs.Descriptor.Frame
import LsxKit.Proofs.Descriptor.Canonical
import LsxKit.Proofs.Localization.Loading
import LsxKit.Proofs.Localization.Runs
import LsxKit.Proofs.Text.Lowercase
import LsxKit.Proofs.Path
import LsxKit.Proofs.Localization.Files
import LsxKit.Proofs.Version.Signed
import LsxKit.Proofs.Json.Same
import LsxKit.Proofs.Schema.Order
import LsxKit.Proofs.Version.Order
import LsxKit.Proofs.Xml.Tagged
import LsxKit.Proofs.Tree.Invariant
import LsxKit.Proofs.Tree.Conversion
import LsxKit.Proofs.Tree.Regular
import LsxKit.Proofs.Descriptor.Repeated
import LsxKit.Proofs.Version.Successor
import LsxKit.Proofs.Diagnosis.Columns
import LsxKit.Proofs.Diagnosis.Forward
import LsxKit.Proofs.Xml.Placed
import LsxKit.Proofs.Diagnosis.Siblings
import LsxKit.Proofs.Diagnosis.Attribute
import LsxKit.Proofs.Schema.Distinct
import LsxKit.Proofs.Version.Spelling
import LsxKit.Proofs.Identifier
import LsxKit.Proofs.Text.Lines
import LsxKit.Proofs.Version.Line
import LsxKit.Proofs.Xml.Shown
import LsxKit.Proofs.Tree.Written
import LsxKit.Proofs.Tree.Shown
import LsxKit.Proofs.Descriptor.Entry
import LsxKit.Proofs.Descriptor.Hover
