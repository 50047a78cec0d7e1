import SqlComposition.Text.Blank
import SqlComposition.Text.DecimalDigit
import SqlComposition.Text.Printable
import SqlComposition.Text.Quoted
import SqlComposition.Text.Uppercase
import SqlComposition.Number.Digits
import SqlComposition.Number.Integer
import SqlComposition.Number.Decimal
import SqlComposition.Number.Binary64
import SqlComposition.Calendar.Date
import SqlComposition.Calendar.Time
import SqlComposition.Calendar.Instant
import SqlComposition.Calendar.Fields
import SqlComposition.Failure
import SqlComposition.Parameters
import SqlComposition.Scalar
import SqlComposition.Dialect
import SqlComposition.Object
import SqlComposition.Term
import SqlComposition.Executor
import SqlComposition.Query
import SqlComposition.Query.Objects
import SqlComposition.Datum
import SqlComposition.Literal
import SqlComposition.Value.Inspection
import SqlComposition.Value.Mapping
import SqlComposition.Slot
import SqlComposition.Layout
import SqlComposition.Emission
import SqlComposition.Grouping
import SqlComposition.Query.Layout
import SqlComposition.Builder
import SqlComposition.Statement
import SqlComposition.Store
import SqlComposition.Action
import SqlComposition.Schema
import SqlComposition.Builder.Filter
import SqlComposition.Builder.Method
import SqlComposition.Builder.Reading
import SqlComposition.Evaluation
import SqlComposition.Statement.Method
import SqlComposition.Session.Execution
import SqlComposition.Session.Call
import SqlComposition.Session.Step
import SqlComposition.Transaction
import SqlComposition.Report
import SqlComposition.Proofs.Composition
import SqlComposition.Proofs.Emission
import SqlComposition.Proofs.Literals
import SqlComposition.Proofs.OperandTexts
import SqlComposition.Proofs.Noninterference
import SqlComposition.Proofs.Grammar
import SqlComposition.Proofs.Lexing
import SqlComposition.Proofs.SetOperations
import SqlComposition.Proofs.Conditions
import SqlComposition.Proofs.Placeholders
import SqlComposition.Proofs.Readings
import SqlComposition.Proofs.LiveCells
import SqlComposition.Proofs.Attachment
import SqlComposition.Proofs.Brackets
import SqlComposition.Proofs.Failures
import SqlComposition.Proofs.Rows
import SqlComposition.Proofs.Interleaving
import SqlComposition.Proofs.GroupedTexts
import SqlComposition.Proofs.GroupedConditions
import SqlComposition.Proofs.SharedConditions
import SqlComposition.Proofs.Sessions
import SqlComposition.Proofs.InsertedRows
import SqlComposition.Proofs.SlotFilling
import SqlComposition.Proofs.SlotOperands
import SqlComposition.Proofs.WritingFailures
import SqlComposition.Proofs.StatementFailures
import SqlComposition.Proofs.FirstRow
import SqlComposition.Proofs.Operators
import SqlComposition.Proofs.MergedAssignments
import SqlComposition.Proofs.NumberLiterals
import SqlComposition.Proofs.CalendarDays
import SqlComposition.Proofs.FixedFields
import SqlComposition.Proofs.InstantTexts
import SqlComposition.Proofs.Transactions
