import SpaceCurve.Text.Blank
import SpaceCurve.Text.Letter
import SpaceCurve.Text.Numeric
import SpaceCurve.Text.Printable
import SpaceCurve.Text.Quoted
import SpaceCurve.Decimal.Binary64
import SpaceCurve.Decimal.Shortest
import SpaceCurve.Decimal.Numeral
import SpaceCurve.Value
import SpaceCurve.Machine
import SpaceCurve.Json.Reader
import SpaceCurve.Json.Writer
import SpaceCurve.Lexicon
import SpaceCurve.Equation.Parser
import SpaceCurve.Check
import SpaceCurve.Check.Geometry
import SpaceCurve.Check.Source
import SpaceCurve.Check.Values
import SpaceCurve.Command.Flag
import SpaceCurve.Command.Log
import SpaceCurve.Command.Options
import SpaceCurve.Command.Run
import SpaceCurve.Main
import SpaceCurve.Proofs.Lexing
import SpaceCurve.Proofs.Grammar
import SpaceCurve.Proofs.Outcome
import SpaceCurve.Proofs.Parsing
import SpaceCurve.Proofs.Balance
import SpaceCurve.Proofs.Evaluation
import SpaceCurve.Proofs.Numerals
import SpaceCurve.Proofs.Descent
import SpaceCurve.Proofs.Agreement
import SpaceCurve.Proofs.Grafting
import SpaceCurve.Proofs.Substitution
import SpaceCurve.Proofs.PolicyValues
import SpaceCurve.Proofs.ValueChecks
import SpaceCurve.Proofs.Joint
import SpaceCurve.Proofs.Findings
import SpaceCurve.Proofs.FloatOrder
import SpaceCurve.Proofs.Closing
import SpaceCurve.Proofs.Rendering
import SpaceCurve.Proofs.Verdicts
import SpaceCurve.Proofs.Spacing
import SpaceCurve.Proofs.Arguments
import SpaceCurve.Proofs.Placement
import SpaceCurve.Proofs.PolicyFiles
import SpaceCurve.Proofs.Parameters
import SpaceCurve.Proofs.Stages
import SpaceCurve.Proofs.Columns
import SpaceCurve.Proofs.Loosening
import SpaceCurve.Proofs.Independence
import SpaceCurve.Proofs.Conversions
import SpaceCurve.Proofs.Walking
import SpaceCurve.Proofs.Totality
import SpaceCurve.Proofs.Positions
import SpaceCurve.Proofs.Unbalanced
import SpaceCurve.Proofs.Broadcasting
import SpaceCurve.Proofs.Mentions
import SpaceCurve.Proofs.Ordering
import SpaceCurve.Proofs.Records
import SpaceCurve.Proofs.Rewording
import SpaceCurve.Proofs.RoundTrip
import SpaceCurve.Proofs.Rounding
import SpaceCurve.Proofs.Nearest
import SpaceCurve.Proofs.ShortestDigits
import SpaceCurve.Proofs.ShortestText
import SpaceCurve.Proofs.JsonText
import SpaceCurve.Proofs.JsonReading
import SpaceCurve.Proofs.Reports
import SpaceCurve.Proofs.SamplingPolicies
import SpaceCurve.Proofs.Height
import SpaceCurve.Proofs.Enclosure
import SpaceCurve.Proofs.Resolving
import SpaceCurve.Proofs.HalfUp
import SpaceCurve.Proofs.Preorder
import SpaceCurve.Proofs.Renaming
import SpaceCurve.Proofs.Matching
import SpaceCurve.Proofs.Separation
import SpaceCurve.Proofs.Encoding
