import SpecEngine.Assertion
import SpecEngine.Body.Error
import SpecEngine.Body.Evaluation
import SpecEngine.Body.Expr
import SpecEngine.Body.Lead
import SpecEngine.Body.Reader
import SpecEngine.Body.Shorthand
import SpecEngine.CommandLine
import SpecEngine.Config
import SpecEngine.Engine
import SpecEngine.Json.Reader
import SpecEngine.Json.Tree
import SpecEngine.Json.Writer
import SpecEngine.Main
import SpecEngine.Matcher.Definition
import SpecEngine.Matcher.Error
import SpecEngine.Matcher.Formula
import SpecEngine.Matcher.Formula.Reader
import SpecEngine.Matcher.Operator
import SpecEngine.Matcher.Registry
import SpecEngine.Matcher.Standard
import SpecEngine.Number.Display
import SpecEngine.Number.Numeral
import SpecEngine.Number.Rounding
import SpecEngine.Number.Shortest
import SpecEngine.Outline.Error
import SpecEngine.Outline.Keyword
import SpecEngine.Outline.Reader
import SpecEngine.Outline.Token
import SpecEngine.Pattern.Basic
import SpecEngine.Pattern.Bracket
import SpecEngine.Pattern.CharSet
import SpecEngine.Pattern.Escape
import SpecEngine.Pattern.Reader
import SpecEngine.Proofs.Acceptance
import SpecEngine.Proofs.Aliases
import SpecEngine.Proofs.Blame
import SpecEngine.Proofs.Building
import SpecEngine.Proofs.Comments
import SpecEngine.Proofs.Consistency
import SpecEngine.Proofs.Contents
import SpecEngine.Proofs.Continuation
import SpecEngine.Proofs.Counters
import SpecEngine.Proofs.Coverage
import SpecEngine.Proofs.Cutting
import SpecEngine.Proofs.Depth
import SpecEngine.Proofs.Effects
import SpecEngine.Proofs.Endings
import SpecEngine.Proofs.Equality
import SpecEngine.Proofs.Expansion
import SpecEngine.Proofs.Feeding
import SpecEngine.Proofs.Formulas
import SpecEngine.Proofs.Grammar
import SpecEngine.Proofs.Growth
import SpecEngine.Proofs.Halting
import SpecEngine.Proofs.Heap
import SpecEngine.Proofs.Histories
import SpecEngine.Proofs.Independence
import SpecEngine.Proofs.Joining
import SpecEngine.Proofs.Lexemes
import SpecEngine.Proofs.Lexis
import SpecEngine.Proofs.Lifecycle
import SpecEngine.Proofs.Likeness
import SpecEngine.Proofs.Listing
import SpecEngine.Proofs.Locality
import SpecEngine.Proofs.Lookalikes
import SpecEngine.Proofs.Lookup
import SpecEngine.Proofs.Membership
import SpecEngine.Proofs.Merging
import SpecEngine.Proofs.Mirroring
import SpecEngine.Proofs.Moving
import SpecEngine.Proofs.Operations
import SpecEngine.Proofs.Parts
import SpecEngine.Proofs.Precedence
import SpecEngine.Proofs.Reading
import SpecEngine.Proofs.Recognition
import SpecEngine.Proofs.Redefinition
import SpecEngine.Proofs.Rejection
import SpecEngine.Proofs.RoundTrip
import SpecEngine.Proofs.Sameness
import SpecEngine.Proofs.Sentences
import SpecEngine.Proofs.Sequencing
import SpecEngine.Proofs.Slices
import SpecEngine.Proofs.Slots
import SpecEngine.Proofs.Termination
import SpecEngine.Proofs.Throwing
import SpecEngine.Proofs.Tokens
import SpecEngine.Proofs.Verdict
import SpecEngine.Proofs.Writing
import SpecEngine.Report.Basic
import SpecEngine.Report.Format
import SpecEngine.Report.Json
import SpecEngine.Report.Terminal
import SpecEngine.Run.Error
import SpecEngine.Run.Lifecycle
import SpecEngine.Run.Rehearsal
import SpecEngine.Session
import SpecEngine.Source
import SpecEngine.Suite
import SpecEngine.Table
import SpecEngine.Text.Category
import SpecEngine.Text.Folding
import SpecEngine.Text.Lines
import SpecEngine.Text.Parsed
import SpecEngine.Text.Place
import SpecEngine.Text.Property
import SpecEngine.Text.Quoted
import SpecEngine.Text.Script
import SpecEngine.Text.Trim
import SpecEngine.Value.Basic
import SpecEngine.Value.Comparison
import SpecEngine.Value.Text
