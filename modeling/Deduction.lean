import Deduction.Catalog.Example
import Deduction.Catalog.KnowledgeBase
import Deduction.Catalog.Labeled
import Deduction.Catalog.Print
import Deduction.CommandLine.Help
import Deduction.CommandLine.Move
import Deduction.CommandLine.Options
import Deduction.CommandLine.Run
import Deduction.Decimal.Power
import Deduction.Decimal.Shortest
import Deduction.Formula.Basic
import Deduction.Formula.Draft
import Deduction.Formula.Error
import Deduction.Formula.LooseKey
import Deduction.Formula.Parser
import Deduction.Formula.Print
import Deduction.Main
import Deduction.Proof.Applicability
import Deduction.Proof.Basic
import Deduction.Proof.Derive
import Deduction.Proof.Print
import Deduction.Proof.Rule
import Deduction.Proof.Run
import Deduction.Proof.Step
import Deduction.Proofs.CommandLine.Move
import Deduction.Proofs.CommandLine.Quiet
import Deduction.Proofs.Formula.Cursor
import Deduction.Proofs.Formula.Descent
import Deduction.Proofs.Formula.Grammar
import Deduction.Proofs.Formula.LooseKey
import Deduction.Proofs.Formula.Machine
import Deduction.Proofs.Formula.Markup
import Deduction.Proofs.Formula.Overflow
import Deduction.Proofs.Formula.Parentheses
import Deduction.Proofs.Formula.Prefix
import Deduction.Proofs.Formula.Recognition
import Deduction.Proofs.Formula.Relocation
import Deduction.Proofs.Formula.RoundTrip
import Deduction.Proofs.Formula.Spelling
import Deduction.Proofs.Formula.Stack
import Deduction.Proofs.Formula.Truth
import Deduction.Proofs.Formula.Variables
import Deduction.Proofs.Formula.Writing
import Deduction.Proofs.Formula.Yield
import Deduction.Proofs.Proof.Bracket
import Deduction.Proofs.Proof.Conclusion
import Deduction.Proofs.Proof.Deletion
import Deduction.Proofs.Proof.Derivation
import Deduction.Proofs.Proof.Discharge
import Deduction.Proofs.Proof.Entailment
import Deduction.Proofs.Proof.Extension
import Deduction.Proofs.Proof.Growth
import Deduction.Proofs.Proof.Legible
import Deduction.Proofs.Proof.Matching
import Deduction.Proofs.Proof.Scope
import Deduction.Proofs.Proof.SelectionOrder
import Deduction.Proofs.Proof.Soundness
import Deduction.Proofs.Proof.WellFormed
import Deduction.Proofs.Record.Exchange
import Deduction.Proofs.Text.Integer
import Deduction.Proofs.Text.LowerCase
import Deduction.Proofs.Text.Words
import Deduction.Proofs.Token.Joining
import Deduction.Proofs.Token.Lexer
import Deduction.Proofs.Token.LongestMatch
import Deduction.Proofs.TruthTable.Enumeration
import Deduction.Proofs.TruthTable.Layout
import Deduction.Proofs.TruthTable.Rows
import Deduction.Proofs.TruthTable.Verdict
import Deduction.Record.Proof
import Deduction.Record.Value
import Deduction.Text.Blank
import Deduction.Text.CaseTable
import Deduction.Text.Digit
import Deduction.Text.Integer
import Deduction.Text.Layout
import Deduction.Text.LowerCase
import Deduction.Text.Printable
import Deduction.Text.Quoted
import Deduction.Text.Span
import Deduction.Token.Basic
import Deduction.Token.Lexer
import Deduction.TruthTable.Basic
import Deduction.TruthTable.Print
