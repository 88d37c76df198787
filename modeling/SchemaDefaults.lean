import SchemaDefaults.Main
import SchemaDefaults.Proofs.Interruption
import SchemaDefaults.Proofs.History
import SchemaDefaults.Proofs.WrittenTokens
import SchemaDefaults.Proofs.WrittenRecord
import SchemaDefaults.Proofs.DocumentText
import SchemaDefaults.Proofs.Processing
import SchemaDefaults.Proofs.FileWriting
import SchemaDefaults.Proofs.CommandRun
import SchemaDefaults.Proofs.ExitCode
import SchemaDefaults.Proofs.Rerun
import SchemaDefaults.Proofs.Consumption
import SchemaDefaults.Proofs.Survey
import SchemaDefaults.Proofs.Digits
import SchemaDefaults.Proofs.Typing
import SchemaDefaults.Proofs.Reachability
import SchemaDefaults.Proofs.Noninterference
import SchemaDefaults.Proofs.DormantCommand
import SchemaDefaults.Proofs.FailureCode
import SchemaDefaults.Proofs.Template
import SchemaDefaults.Proofs.Lookahead
import SchemaDefaults.Proofs.ReadingRules
import SchemaDefaults.Proofs.TextEdits
import SchemaDefaults.Proofs.DoubleQuotes
import SchemaDefaults.Proofs.Placement
import SchemaDefaults.Proofs.EnvironmentValues
import SchemaDefaults.Proofs.Words
import SchemaDefaults.Proofs.IntegerConversion
import SchemaDefaults.Proofs.DecimalConversion
import SchemaDefaults.Proofs.FloatReading
import SchemaDefaults.Proofs.Rounding
import SchemaDefaults.Proofs.RoundedQuotient
import SchemaDefaults.Proofs.FloatTexts
import SchemaDefaults.Proofs.FloatConversion
import SchemaDefaults.Proofs.QuotedText
import SchemaDefaults.Proofs.Substitution
import SchemaDefaults.Proofs.Conditions
import SchemaDefaults.Proofs.EditedDocuments
import SchemaDefaults.Proofs.EnumValues
import SchemaDefaults.Proofs.ValidSettings
import SchemaDefaults.Proofs.MarkCounts
import SchemaDefaults.Proofs.ReporterCalls
