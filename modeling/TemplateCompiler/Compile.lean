import TemplateCompiler.Request
import TemplateCompiler.SourceMap
import TemplateCompiler.Template.Program

namespace TemplateCompiler

/-- The answer to a source: the compiled program or the report of what is wrong, and the lines noted
on the way. -/
structure Compiled where
  result : Except Report Output
  trace : List String

def faultReport (d : Diagnostic) : Report := .placed Code.parse d.fault.message d.offset

def mapJson (filename source : String) (printed : Printer.Printed) : Json :=
  .object [
    ("mappings", .string (SourceMap.mappings source printed.marks)),
    ("names", .array []),
    ("sources", .array [.string filename]),
    ("sourcesContent", .array [.string source]),
    ("version", .integer 3)]

/-- The line that opens the notes on a source. -/
def openingLine (metadata : Metadata) : String :=
  "[RumiousNative] Compiling " ++ metadata.filename ++ " (typescript: " ++
    (if metadata.isTyped then "true" else "false") ++ ")"

/-- Compiles a source. Only the first thing that is wrong with it is reported. -/
def compile (source : String) (metadata : Metadata) (options : Options) : Compiled :=
  let opening := openingLine metadata
  let outcome := Grammar.readProgram metadata.language source
  let refuse := fun (r : Report) (trace : List String) =>
    { result := .error (r.locate metadata.filename source), trace : Compiled }
  match outcome.diagnostics, outcome.node with
  | d :: _, _ => refuse (faultReport d) [opening]
  | [], none => refuse (.internal "no program") [opening]
  | [], some program =>
    let t := transform options.environment program
    let trace := opening :: t.session.trace
    match t.errors with
    | cause :: _ => refuse (.ofCause cause) trace
    | [] =>
      let printed := Printer.program t.program (Scanner.byteLength source.toList)
      { result := .ok { code := printed.text, map := mapJson metadata.filename source printed }
        trace }

def compileBatch (inputs : List Input) (options : Options) : List Compiled :=
  inputs.map fun i => compile i.source i.metadata options

end TemplateCompiler
