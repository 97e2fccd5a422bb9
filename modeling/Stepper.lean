import Stepper.Builtin
import Stepper.CommandLine.Arguments
import Stepper.CommandLine.Path
import Stepper.CommandLine.Run
import Stepper.CommandLine.Usage
import Stepper.Evaluation.Basic
import Stepper.Evaluation.Definition
import Stepper.Evaluation.State
import Stepper.Expansion
import Stepper.Explanation
import Stepper.Failure
import Stepper.Interpreter
import Stepper.Log
import Stepper.Main
import Stepper.Node.Basic
import Stepper.Node.Outline
import Stepper.Node.Reader
import Stepper.Node.Render
import Stepper.Node.Revision
import Stepper.Number.Basic
import Stepper.Number.Double
import Stepper.Number.Numeral
import Stepper.Number.Shortest
import Stepper.Proofs.Agreement
import Stepper.Proofs.Amounts
import Stepper.Proofs.Announcing
import Stepper.Proofs.Arithmetic
import Stepper.Proofs.ArithmeticTrace
import Stepper.Proofs.Callees
import Stepper.Proofs.Capping
import Stepper.Proofs.Closedness
import Stepper.Proofs.Confinement
import Stepper.Proofs.Constants
import Stepper.Proofs.Decimal
import Stepper.Proofs.Definitions
import Stepper.Proofs.Doubling
import Stepper.Proofs.Effects
import Stepper.Proofs.Evaluation
import Stepper.Proofs.Expansion
import Stepper.Proofs.Failures
import Stepper.Proofs.Independence
import Stepper.Proofs.Integers
import Stepper.Proofs.Invariants
import Stepper.Proofs.Labels
import Stepper.Proofs.LexicalScope
import Stepper.Proofs.Loading
import Stepper.Proofs.NumeralGrammar
import Stepper.Proofs.Peeling
import Stepper.Proofs.Phrase
import Stepper.Proofs.PrintedValues
import Stepper.Proofs.Printing
import Stepper.Proofs.Program
import Stepper.Proofs.Reachable
import Stepper.Proofs.ReadBack
import Stepper.Proofs.Reading
import Stepper.Proofs.Reference
import Stepper.Proofs.Rejection
import Stepper.Proofs.Reporting
import Stepper.Proofs.Rereading
import Stepper.Proofs.RunReading
import Stepper.Proofs.Safety
import Stepper.Proofs.Scanning
import Stepper.Proofs.Scoping
import Stepper.Proofs.Spelling
import Stepper.Proofs.State
import Stepper.Proofs.StepLabels
import Stepper.Proofs.Stepping
import Stepper.Proofs.Substitution
import Stepper.Proofs.SymbolicDefinition
import Stepper.Proofs.SymbolicStep
import Stepper.Proofs.Tameness
import Stepper.Proofs.Tokenization
import Stepper.Proofs.TraceValue
import Stepper.Proofs.Tracing
import Stepper.Proofs.Transfer
import Stepper.Proofs.Trust
import Stepper.Proofs.ViewValues
import Stepper.Proofs.Views
import Stepper.Proofs.Writing
import Stepper.Session
import Stepper.Settings
import Stepper.Table
import Stepper.Text.Blank
import Stepper.Text.CodeRange
import Stepper.Text.Digit
import Stepper.Text.Hidden
import Stepper.Text.Quoted
import Stepper.Text.UpperCase
import Stepper.Token
import Stepper.Value.Basic
import Stepper.Value.Text
