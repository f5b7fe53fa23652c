import TemplateCompiler.Compile
import TemplateCompiler.Grammar.Arrow
import TemplateCompiler.Grammar.Class
import TemplateCompiler.Grammar.Declaration
import TemplateCompiler.Grammar.Expression
import TemplateCompiler.Grammar.Function
import TemplateCompiler.Grammar.Literal
import TemplateCompiler.Grammar.Markup
import TemplateCompiler.Grammar.Module
import TemplateCompiler.Grammar.Name
import TemplateCompiler.Grammar.Operator
import TemplateCompiler.Grammar.Pattern
import TemplateCompiler.Grammar.Program
import TemplateCompiler.Grammar.Reader
import TemplateCompiler.Grammar.Statement
import TemplateCompiler.Grammar.Type
import TemplateCompiler.Json.Basic
import TemplateCompiler.Json.Decode
import TemplateCompiler.Name.Fresh
import TemplateCompiler.Name.Imports
import TemplateCompiler.Printer.Expression
import TemplateCompiler.Printer.Function
import TemplateCompiler.Printer.Output
import TemplateCompiler.Printer.Program
import TemplateCompiler.Printer.Statement
import TemplateCompiler.Printer.Type
import TemplateCompiler.Proofs.Grammar.Reading
import TemplateCompiler.Proofs.Name.ImportText
import TemplateCompiler.Proofs.Name.Naive
import TemplateCompiler.Proofs.Name.Registry
import TemplateCompiler.Proofs.Name.Supply
import TemplateCompiler.Proofs.Syntax.Descent
import TemplateCompiler.Proofs.Syntax.Lexing
import TemplateCompiler.Proofs.Syntax.Scope
import TemplateCompiler.Proofs.Template.Construction
import TemplateCompiler.Proofs.Template.Derivation
import TemplateCompiler.Proofs.Template.Document
import TemplateCompiler.Proofs.Template.Embedding
import TemplateCompiler.Proofs.Template.Execution
import TemplateCompiler.Proofs.Template.Growth
import TemplateCompiler.Proofs.Template.Hygiene
import TemplateCompiler.Proofs.Template.Image
import TemplateCompiler.Proofs.Template.Instruction
import TemplateCompiler.Proofs.Template.Minting
import TemplateCompiler.Proofs.Template.Program
import TemplateCompiler.Proofs.Template.Reporting
import TemplateCompiler.Proofs.Template.Runtime
import TemplateCompiler.Proofs.Template.Steps
import TemplateCompiler.Proofs.Template.Violation
import TemplateCompiler.Proofs.Template.Walking
import TemplateCompiler.Report
import TemplateCompiler.Request
import TemplateCompiler.Snippet
import TemplateCompiler.SourceMap
import TemplateCompiler.Syntax.Form
import TemplateCompiler.Syntax.Node
import TemplateCompiler.Syntax.Scanner
import TemplateCompiler.Syntax.Span
import TemplateCompiler.Syntax.Token
import TemplateCompiler.Syntax.Word
import TemplateCompiler.Template.Attribute
import TemplateCompiler.Template.Basic
import TemplateCompiler.Template.Dependency
import TemplateCompiler.Template.Emit
import TemplateCompiler.Template.Lowering
import TemplateCompiler.Template.Options
import TemplateCompiler.Template.Program
import TemplateCompiler.Template.Session
import TemplateCompiler.Template.Tag
import TemplateCompiler.Text.Entity
import TemplateCompiler.Text.Name
import TemplateCompiler.Text.Numeral
import TemplateCompiler.Text.Position
import TemplateCompiler.Text.Quoted
import TemplateCompiler.Text.Space
import TemplateCompiler.Proofs.Template.Binding
import TemplateCompiler.Proofs.Template.Position
import TemplateCompiler.Proofs.Template.Tally
import TemplateCompiler.Proofs.Template.Accounting
import TemplateCompiler.Proofs.Template.Dependency
import TemplateCompiler.Proofs.Template.Extraction
import TemplateCompiler.Proofs.Grammar.Operand
import TemplateCompiler.Proofs.Grammar.Skeleton
import TemplateCompiler.Proofs.Template.SnippetText
import TemplateCompiler.Proofs.Template.Writing
import TemplateCompiler.Proofs.Template.Outline
import TemplateCompiler.Proofs.Template.Delegation
import TemplateCompiler.Proofs.Template.Importing
import TemplateCompiler.Proofs.Template.Suspension
import TemplateCompiler.Proofs.Template.Capture
import TemplateCompiler.Proofs.Template.Lifetime
import TemplateCompiler.Proofs.Template.Spacing
import TemplateCompiler.Proofs.Template.Relocation
import TemplateCompiler.Proofs.Template.Renaming
import TemplateCompiler.Proofs.Printer.Marking
import TemplateCompiler.Proofs.Template.Provenance
import TemplateCompiler.Proofs.Text.Decoding
import TemplateCompiler.Proofs.Text.Encoding
import TemplateCompiler.Proofs.Name.Declaration
import TemplateCompiler.Proofs.Template.Partition
import TemplateCompiler.Proofs.Text.Folding
import TemplateCompiler.Proofs.Text.Words
import TemplateCompiler.Proofs.Template.Interchange
import TemplateCompiler.Proofs.Text.Location
import TemplateCompiler.Proofs.Json.Forms
import TemplateCompiler.Proofs.Template.Spelling
