import EnvAudit.Text.Blank
import EnvAudit.Text.Lines
import EnvAudit.Text.WordChar
import EnvAudit.Text.Printable
import EnvAudit.Text.Utf8
import EnvAudit.Dotenv.Line
import EnvAudit.Dotenv.Quoted
import EnvAudit.Dotenv.Document
import EnvAudit.NameSet
import EnvAudit.Source.Binding
import EnvAudit.Source.Reference
import EnvAudit.Glob.Braces
import EnvAudit.Text.Hex
import EnvAudit.Text.Literal
import EnvAudit.Fs.Path
import EnvAudit.Fs.Volume
import EnvAudit.Glob.Bracket
import EnvAudit.Glob.Wildcard
import EnvAudit.Glob.Search
import EnvAudit.Ignore.Rule
import EnvAudit.Ignore.Filter
import EnvAudit.Log
import EnvAudit.Dotenv.Load
import EnvAudit.Scan.Discovery
import EnvAudit.Scan.Usage
import EnvAudit.Report.Result
import EnvAudit.Report.Json
import EnvAudit.Check
import EnvAudit.Text.CellWidth
import EnvAudit.Report.Console
import EnvAudit.Report.Terminal
import EnvAudit.Cli.Args
import EnvAudit.Cli.Run
import EnvAudit.Main
import EnvAudit.Proofs.Search
import EnvAudit.Proofs.References
import EnvAudit.Proofs.DeclaringLines
import EnvAudit.Proofs.RoundTrip
import EnvAudit.Proofs.Shape
import EnvAudit.Proofs.ExitCode
import EnvAudit.Proofs.BraceGroups
import EnvAudit.Proofs.Expansion
import EnvAudit.Proofs.Expanded
import EnvAudit.Proofs.BraceDepth
import EnvAudit.Proofs.Discovery
import EnvAudit.Proofs.Exclusion
import EnvAudit.Proofs.Markup
import EnvAudit.Proofs.TerminalReport
import EnvAudit.Proofs.Concatenation
import EnvAudit.Proofs.QuotedValue
import EnvAudit.Proofs.Comments
import EnvAudit.Proofs.Scanning
import EnvAudit.Proofs.Comparison
import EnvAudit.Proofs.Statements
