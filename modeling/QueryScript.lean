import QueryScript.CommandLine.Basic
import QueryScript.Json.Reader
import QueryScript.Main
import QueryScript.Proofs.Catalog.Coverage
import QueryScript.Proofs.Checks
import QueryScript.Proofs.Assembly.Calls
import QueryScript.Proofs.Assembly.Runs
import QueryScript.Proofs.Catalog.BuiltinScreen
import QueryScript.Proofs.Definition.CteNames
import QueryScript.Proofs.Definition.Written
import QueryScript.Proofs.Engine.Actions
import QueryScript.Proofs.Engine.Exemptions
import QueryScript.Proofs.Engine.Nesting
import QueryScript.Proofs.Engine.Preflight
import QueryScript.Proofs.Engine.Shape
import QueryScript.Proofs.Assembly.Reading
import QueryScript.Proofs.Engine.Mentions
import QueryScript.Proofs.Assembly.Capping
import QueryScript.Proofs.Recorder.Executors
import QueryScript.Proofs.Engine.Execution
import QueryScript.Proofs.Engine.Extension
import QueryScript.Proofs.Engine.Failures
import QueryScript.Proofs.Engine.NativeRows
import QueryScript.Proofs.Engine.Replay
import QueryScript.Proofs.Engine.RowCap
import QueryScript.Proofs.Pattern.LetterCase
import QueryScript.Proofs.Catalog.LetterCase
import QueryScript.Proofs.Pattern.Surroundings
import QueryScript.Proofs.Catalog.Surroundings
import QueryScript.Proofs.Guard.LetterCase
import QueryScript.Proofs.Narrowing
import QueryScript.Proofs.Guard.Tightening
import QueryScript.Proofs.Assembly.Replay
import QueryScript.Proofs.Assembly.Tightening
import QueryScript.Proofs.Engine.Tightening
import QueryScript.Proofs.Guard.Blocking
import QueryScript.Proofs.Guard.Reordering
import QueryScript.Proofs.Agreement
import QueryScript.Proofs.Assembly.Editing
import QueryScript.Proofs.Definition.Editing
import QueryScript.Proofs.Engine.Connection
import QueryScript.Proofs.Engine.Inertness
import QueryScript.Proofs.Engine.LiteralTables
import QueryScript.Proofs.Engine.Wrapping
import QueryScript.Proofs.Execution.Credentials
import QueryScript.Proofs.Guard.Editing
import QueryScript.Proofs.Grouping
import QueryScript.Proofs.Json.Keys
import QueryScript.Proofs.Result.Inference
import QueryScript.Proofs.Result.Tables
import QueryScript.Proofs.Recorder.Flattening
import QueryScript.Proofs.Recorder.Resolution
import QueryScript.Proofs.Recorder.Printing
import QueryScript.Proofs.TableReference.Grammar
import QueryScript.Proofs.Guard.HandedOn
import QueryScript.Proofs.Pattern.Quoting
import QueryScript.Proofs.Policy.Wildcard
import QueryScript.Proofs.Execution.Average
import QueryScript.Proofs.Condition.Comparison
import QueryScript.Proofs.Condition.Emptiness
import QueryScript.Proofs.Condition.Unreadable
import QueryScript.Proofs.Condition.Spelling
import QueryScript.Proofs.Number.Rounding
import QueryScript.Proofs.Condition.Integers
import QueryScript.Proofs.Json.Pairs
import QueryScript.Proofs.Result.Keyed
import QueryScript.Proofs.Result.Native
import QueryScript.Proofs.Text.Cutting
import QueryScript.Proofs.Json.Reading
import QueryScript.Proofs.Result.Formats
import QueryScript.Proofs.Recorder.Independence
import QueryScript.Proofs.Recorder.Invocation
import QueryScript.Proofs.Recorder.Pages
import QueryScript.Proofs.Engine.History
import QueryScript.Proofs.Recorder.Answers
import QueryScript.Proofs.Vocabulary.Layout
import QueryScript.Proofs.Catalog.Filing
