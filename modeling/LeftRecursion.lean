import LeftRecursion.Batch.Cases
import LeftRecursion.Batch.Console
import LeftRecursion.Batch.Dialogue
import LeftRecursion.Batch.Fault
import LeftRecursion.Batch.LineStream
import LeftRecursion.Batch.Report
import LeftRecursion.CommandLine.Arguments
import LeftRecursion.CommandLine.Program
import LeftRecursion.Comparison
import LeftRecursion.Elimination.Failure
import LeftRecursion.Elimination.Immediate
import LeftRecursion.Elimination.NameSupply
import LeftRecursion.Elimination.Run
import LeftRecursion.Elimination.Unfold
import LeftRecursion.Grammar.Basic
import LeftRecursion.Grammar.Render
import LeftRecursion.Location
import LeftRecursion.Log.Event
import LeftRecursion.Log.Logged
import LeftRecursion.Main
import LeftRecursion.NameMap
import LeftRecursion.Proofs.Acyclic
import LeftRecursion.Proofs.Blocks
import LeftRecursion.Proofs.CaseByCase
import LeftRecursion.Proofs.Derivation
import LeftRecursion.Proofs.EachLine
import LeftRecursion.Proofs.ExactSymbols
import LeftRecursion.Proofs.Expansion
import LeftRecursion.Proofs.Fallback
import LeftRecursion.Proofs.Finality
import LeftRecursion.Proofs.FixedPoints
import LeftRecursion.Proofs.FreeNames
import LeftRecursion.Proofs.Given
import LeftRecursion.Proofs.Hidden
import LeftRecursion.Proofs.Histories
import LeftRecursion.Proofs.Language
import LeftRecursion.Proofs.Layout
import LeftRecursion.Proofs.Leading
import LeftRecursion.Proofs.LineOrder
import LeftRecursion.Proofs.LongestNames
import LeftRecursion.Proofs.NewNames
import LeftRecursion.Proofs.Noted
import LeftRecursion.Proofs.NotedChanges
import LeftRecursion.Proofs.Nullable
import LeftRecursion.Proofs.Outcome
import LeftRecursion.Proofs.Preservation
import LeftRecursion.Proofs.Prompts
import LeftRecursion.Proofs.Readings
import LeftRecursion.Proofs.Rereading
import LeftRecursion.Proofs.RoundTrip
import LeftRecursion.Proofs.RuleLines
import LeftRecursion.Proofs.Rules
import LeftRecursion.Proofs.SecondPass
import LeftRecursion.Proofs.Spacing
import LeftRecursion.Proofs.Spelling
import LeftRecursion.Proofs.Steps
import LeftRecursion.Proofs.StrayNames
import LeftRecursion.Proofs.Terminals
import LeftRecursion.Proofs.Tokens
import LeftRecursion.Proofs.Triangular
import LeftRecursion.Proofs.Truncation
import LeftRecursion.Proofs.Unfolding
import LeftRecursion.Proofs.Written
import LeftRecursion.Reading
import LeftRecursion.Rule.Alternative
import LeftRecursion.Rule.Line
import LeftRecursion.Rule.Token
import LeftRecursion.Symbol
import LeftRecursion.Text.Blank
import LeftRecursion.Text.CharTable
import LeftRecursion.Text.Count
import LeftRecursion.Text.Lines
import LeftRecursion.Text.Quoted
import LeftRecursion.Text.Unprintable
import LeftRecursion.Text.Uppercase
import LeftRecursion.Text.Visible
