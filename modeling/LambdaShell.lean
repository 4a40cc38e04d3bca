import LambdaShell.Text.Alphanumeric
import LambdaShell.Text.Backspace
import LambdaShell.Text.Blank
import LambdaShell.Text.Case
import LambdaShell.Number.Double
import LambdaShell.Number.Binary
import LambdaShell.Number.Decimal
import LambdaShell.Number.Reading
import LambdaShell.Value.Basic
import LambdaShell.Value.Json
import LambdaShell.Value.Literal
import LambdaShell.Value.Order
import LambdaShell.Expr.Basic
import LambdaShell.Expr.Issue
import LambdaShell.Expr.Lexer
import LambdaShell.Expr.Eval
import LambdaShell.Expr.Parser
import LambdaShell.Expr.Typing
import LambdaShell.Lambda
import LambdaShell.Command.Basic
import LambdaShell.Command.Failure
import LambdaShell.Command.Line
import LambdaShell.Export.File
import LambdaShell.Items.Groups
import LambdaShell.Items.Query
import LambdaShell.Timeline
import LambdaShell.Execution
import LambdaShell.Screen.Help
import LambdaShell.Session
import LambdaShell.LineHistory
import LambdaShell.Options
import LambdaShell.Program
import LambdaShell.Export.Moment
import LambdaShell.Main
import LambdaShell.Proofs.Expr.Parts
import LambdaShell.Proofs.History
import LambdaShell.Proofs.Lambda
import LambdaShell.Proofs.Expr.Kinds
import LambdaShell.Proofs.Expr.Nodes
import LambdaShell.Proofs.Expr.Preservation
import LambdaShell.Proofs.Expr.Alarms
import LambdaShell.Proofs.Expr.Progress
import LambdaShell.Proofs.Expr.Grammar
import LambdaShell.Proofs.Expr.Readers
import LambdaShell.Proofs.Expr.Soundness
import LambdaShell.Proofs.Expr.Completeness
import LambdaShell.Proofs.Expr.Sentences
import LambdaShell.Proofs.Expr.Height
import LambdaShell.Proofs.Expr.Lexing
import LambdaShell.Proofs.Expr.Spelling
import LambdaShell.Proofs.Expr.Printing
import LambdaShell.Proofs.Expr.Endings
import LambdaShell.Proofs.Command.GroupBy
import LambdaShell.Proofs.Expr.Towers
import LambdaShell.Proofs.Export.Csv
import LambdaShell.Proofs.Number.Doubles
import LambdaShell.Proofs.Value.Equality
import LambdaShell.Proofs.Value.Order
import LambdaShell.Proofs.Value.Records
import LambdaShell.Proofs.Expr.Records
import LambdaShell.Proofs.Export.Json
import LambdaShell.Proofs.Items.Members
import LambdaShell.Proofs.Expr.Balance
import LambdaShell.Proofs.Expr.Characters
import LambdaShell.Proofs.Command.Scanning
import LambdaShell.Proofs.Command.AggregateWord
import LambdaShell.Proofs.Command.Line
import LambdaShell.Proofs.Command.Effects
import LambdaShell.Proofs.Command.Forbidden
import LambdaShell.Proofs.Command.Spelling
import LambdaShell.Proofs.Session.LifeCycle
import LambdaShell.Proofs.Session.Records
import LambdaShell.Proofs.Text.Slices
import LambdaShell.Proofs.Number.TotalOrder
import LambdaShell.Proofs.Number.WholeText
import LambdaShell.Proofs.Items.Sorting
import LambdaShell.Proofs.Items.LessThan
import LambdaShell.Proofs.Items.Grouping
import LambdaShell.Proofs.Items.Distinct
import LambdaShell.Proofs.Items.Extremes
import LambdaShell.Proofs.Items.SortedHead
import LambdaShell.Proofs.Value.Ties
import LambdaShell.Proofs.Sliced.Data
import LambdaShell.Proofs.Sliced.Lines
import LambdaShell.Proofs.Sliced.Lambdas
import LambdaShell.Proofs.Number.Zeros
import LambdaShell.Proofs.Items.Average
import LambdaShell.Proofs.Expr.Substitution
import LambdaShell.Proofs.Items.Fusion
import LambdaShell.Proofs.Expr.Scopes
import LambdaShell.Proofs.Expr.Integers
import LambdaShell.Proofs.Value.DataLines
import LambdaShell.Proofs.Value.QuotedRuns
import LambdaShell.Proofs.Expr.Spans
import LambdaShell.Proofs.Expr.Confined
import LambdaShell.Proofs.Expr.Coverage
import LambdaShell.Proofs.Command.Division
import LambdaShell.Proofs.Counted.Parser
import LambdaShell.Proofs.Counted.Following
import LambdaShell.Proofs.Counted.Balance
import LambdaShell.Proofs.Expr.Parentheses
