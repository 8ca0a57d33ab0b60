import Tinct.Bundled.Mercury
import Tinct.Bundled.Oxygene
import Tinct.Bundled.Sample
import Tinct.CharSet
import Tinct.Check
import Tinct.CommandLine.Command
import Tinct.CommandLine.Run
import Tinct.Document
import Tinct.Entries
import Tinct.Error
import Tinct.Grammar.Compile
import Tinct.Grammar.Definition
import Tinct.Grammar.Keywords
import Tinct.Grammar.Loading
import Tinct.Grammar.Mode
import Tinct.Grammar.Printer
import Tinct.Grammar.Reader
import Tinct.Json.Reader
import Tinct.Json.Value
import Tinct.Main
import Tinct.Pattern.Assembly
import Tinct.Pattern.Basic
import Tinct.Pattern.Compile
import Tinct.Pattern.EndTemplate
import Tinct.Pattern.Lexeme
import Tinct.Pattern.Lookahead
import Tinct.Pattern.Matcher
import Tinct.Regex.Basic
import Tinct.Regex.Encoding
import Tinct.Regex.Expr
import Tinct.Regex.Parser
import Tinct.Regex.Program
import Tinct.Regex.Run
import Tinct.Regex.Size
import Tinct.Registry
import Tinct.Render.Ansi
import Tinct.Render.Format
import Tinct.Render.Html
import Tinct.Render.Listing
import Tinct.Scan.Run
import Tinct.Scan.State
import Tinct.Scan.Step
import Tinct.Text
import Tinct.Text.Decimal
import Tinct.Text.Quoted
import Tinct.Text.Words
import Tinct.Token
import Tinct.Unicode.Age
import Tinct.Unicode.Case
import Tinct.Unicode.Category
import Tinct.Unicode.Lookup
import Tinct.Unicode.Name
import Tinct.Unicode.Printed
import Tinct.Unicode.Property
import Tinct.Unicode.Script
import Tinct.Unicode.ScriptExtension
import Tinct.Unicode.Segmentation
import Tinct.Unicode.Word
import Tinct.Yaml.Cursor
import Tinct.Yaml.Event
import Tinct.Yaml.Lexeme
import Tinct.Yaml.Reader
import Tinct.Yaml.Scalar
import Tinct.Yaml.Token
import Tinct.Proofs.Regex.Bounds
import Tinct.Proofs.Scan.Reachable
import Tinct.Proofs.Text.Offsets
import Tinct.Proofs.Token.Tiling
import Tinct.Proofs.Scan.Arbitration
import Tinct.Proofs.Scan.Caching
import Tinct.Proofs.Scan.Trace
import Tinct.Proofs.Scan.Coverage
import Tinct.Proofs.Pattern.Lookahead
import Tinct.Proofs.Scan.Termination
import Tinct.Proofs.Scan.Recovery
import Tinct.Proofs.Scan.Failure
import Tinct.Proofs.Regex.SimpleForm
import Tinct.Proofs.Regex.Element
import Tinct.Proofs.Unicode.PropertyName
import Tinct.Proofs.Regex.Extent.Escape
import Tinct.Proofs.Regex.Extent.Class
import Tinct.Proofs.Regex.Extent.Element
import Tinct.Proofs.Regex.Splicing
import Tinct.Proofs.Pattern.Backreference
import Tinct.Proofs.Scan.Legality
import Tinct.Proofs.Scan.Replay
import Tinct.Proofs.Token.OpenRegions
import Tinct.Proofs.Scan.Classification
import Tinct.Proofs.Scan.Relevance
import Tinct.Proofs.Pattern.Cutting
import Tinct.Proofs.Pattern.Shape
import Tinct.Proofs.Pattern.Elements
import Tinct.Proofs.Pattern.Locality
import Tinct.Proofs.Pattern.Plain
import Tinct.Proofs.Pattern.Meaning
import Tinct.Proofs.Scan.Exits
import Tinct.Proofs.Scan.Closure
import Tinct.Proofs.Render.Markup
import Tinct.Proofs.Render.Html
import Tinct.Proofs.Registry
import Tinct.Proofs.Text.Digits
import Tinct.Proofs.Json.Writing
import Tinct.Proofs.Document
import Tinct.Proofs.Grammar.Writing
import Tinct.Proofs.Pattern.Opening
import Tinct.Proofs.Pattern.Fusing
import Tinct.Proofs.Pattern.Assembly
import Tinct.Proofs.Pattern.Lowering
import Tinct.Proofs.Pattern.Joining
import Tinct.Proofs.Pattern.Units
import Tinct.Proofs.Pattern.Numbering
import Tinct.Proofs.Pattern.Trailing
import Tinct.Proofs.Pattern.References
import Tinct.Proofs.Grammar.Templates
import Tinct.Proofs.Grammar.Keywords
import Tinct.Proofs.Detection
import Tinct.Proofs.Scan.Routing
import Tinct.Proofs.Scan.Stretches
import Tinct.Proofs.Scan.Renaming
import Tinct.Proofs.Grammar.Aliases
import Tinct.Proofs.Grammar.Unreached
import Tinct.Proofs.Grammar.Vocabulary
import Tinct.Proofs.Pattern.Search
import Tinct.Proofs.Pattern.Rereading
