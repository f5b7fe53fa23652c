import TemplateCompiler.Grammar.Reader
import TemplateCompiler.Json.Decode
import TemplateCompiler.Report

namespace TemplateCompiler

open Json (Decode)

/-- Whether a source is a module or a script. -/
inductive SourceKind where
  | module
  | script
deriving DecidableEq, Repr, Inhabited

/-- What is known of a source apart from its text. -/
structure Metadata where
  filename : String
  kind : SourceKind := .module
deriving DecidableEq, Repr, Inhabited

/-- The module that helpers are imported from if nothing else is said. -/
def defaultEnvironment : String := "@rumious/browser"

/-- How to compile. -/
structure Options where
  /-- The module that helpers are imported from. -/
  environment : String := defaultEnvironment
  verbose : Bool := false
deriving DecidableEq, Repr, Inhabited

/-- A source to compile. -/
structure Input where
  source : String
  metadata : Metadata
deriving DecidableEq, Repr, Inhabited

/-- A compiled source, and the map back into it. -/
structure Output where
  code : String
  map : Json
deriving Repr, Inhabited

namespace SourceKind

def text : SourceKind → String
  | module => "module"
  | script => "script"

def ofText (name : String) : Decode SourceKind :=
  if name == "module" then .ok .module
  else if name == "script" then .ok .script
  else .error (.unknownVariant name "\x60module\x60 or \x60script\x60")

/-- A kind is its name, or an object with the name as its only key. -/
def ofJson : Json → Decode SourceKind
  | .string name => ofText name
  | .object [(name, v)] => do
    let kind ← ofText name
    match v with
    | .null => return kind
    | v => Json.wrongType v "unit"
  | .object members =>
    .error (.invalidValue (Json.object members).describe "map with a single key")
  | v => Json.wrongType v "string or map"

def toJson (k : SourceKind) : Json := .string k.text

end SourceKind

namespace Metadata

def ofJson : Json → Decode Metadata
  | .object members => do
    let filename ← Json.readMember members "filename" Json.toText
    let kind ← Json.readMember members "sourceType" SourceKind.ofJson
    return { filename := ← Json.demand "filename" filename, kind := kind.getD .module }
  | .array items => do
    let record := Json.recordText "struct CompileMetadata" 2
    let filename ← Json.readItem record items 0 Json.toText
    let kind ← Json.readItemOr .module items 1 SourceKind.ofJson
    Json.checkLength items 2
    return { filename, kind }
  | v => Json.wrongType v "struct CompileMetadata"

def toJson (m : Metadata) : Json :=
  .object [("filename", .string m.filename), ("sourceType", m.kind.toJson)]

/-- Whether a source is written with types, by the end of its name. -/
def isTyped (m : Metadata) : Bool :=
  [".ts", ".tsx", ".mts", ".cts"].any fun ending => ending.toList.isSuffixOf m.filename.toList

/-- The language of a source. Markup is always part of it. -/
def language (m : Metadata) : Grammar.Context :=
  { isTyped := m.isTyped, hasMarkup := true, isModule := m.kind == .module }

end Metadata

namespace Options

def ofJson : Json → Decode Options
  | .object members => do
    let environment ← Json.readMember members "environment" Json.toText
    let verbose ← Json.readMember members "verbose" Json.toBool
    return { environment := environment.getD defaultEnvironment, verbose := verbose.getD false }
  | .array items => do
    let environment ← Json.readItemOr defaultEnvironment items 0 Json.toText
    let verbose ← Json.readItemOr false items 1 Json.toBool
    Json.checkLength items 2
    return { environment, verbose }
  | v => Json.wrongType v "struct CompileOptions"

def toJson (o : Options) : Json :=
  .object [("environment", .string o.environment), ("verbose", .bool o.verbose)]

end Options

namespace Input

def ofJson : Json → Decode Input
  | .object members => do
    let metadata ← Json.readMember members "metadata" Metadata.ofJson
    let source ← Json.readMember members "source" Json.toText
    return {
      source := ← Json.demand "source" source
      metadata := ← Json.demand "metadata" metadata }
  | .array items => do
    let record := Json.recordText "struct CompileInput" 2
    let source ← Json.readItem record items 0 Json.toText
    let metadata ← Json.readItem record items 1 Metadata.ofJson
    Json.checkLength items 2
    return { source, metadata }
  | v => Json.wrongType v "struct CompileInput"

def toJson (i : Input) : Json :=
  .object [("metadata", i.metadata.toJson), ("source", .string i.source)]

end Input

namespace Output

def ofJson : Json → Decode Output
  | .object members => do
    let code ← Json.readMember members "code" Json.toText
    let map ← Json.readMember members "map" .ok
    return { code := ← Json.demand "code" code, map := ← Json.demand "map" map }
  | .array items => do
    let record := Json.recordText "struct CompileResult" 2
    let code ← Json.readItem record items 0 Json.toText
    let map ← Json.readItem record items 1 .ok
    Json.checkLength items 2
    return { code, map }
  | v => Json.wrongType v "struct CompileResult"

def toJson (o : Output) : Json := .object [("code", .string o.code), ("map", o.map)]

end Output

namespace Report

/-- Reads a report. A byte offset is not part of its form. -/
def ofJson : Json → Decode Report
  | .object members => do
    let code ← Json.readMember members "code" Json.toText
    let column ← Json.readMember members "column" Json.toWord
    let errorType ← Json.readMember members "errorType" Json.toText
    let file ← Json.readMember members "file" Json.toText
    let hints ← Json.readMember members "hints" (Json.toList Json.toText)
    let line ← Json.readMember members "line" Json.toWord
    let message ← Json.readMember members "message" Json.toText
    return {
      code := ← Json.demand "code" code
      errorType := ← Json.demand "errorType" errorType
      message := ← Json.demand "message" message
      file := ← Json.demand "file" file
      line := ← Json.demand "line" line
      column := ← Json.demand "column" column
      hints := ← Json.demand "hints" hints }
  | .array items => do
    let record := Json.recordText "struct CompilerError" 7
    let code ← Json.readItem record items 0 Json.toText
    let errorType ← Json.readItem record items 1 Json.toText
    let message ← Json.readItem record items 2 Json.toText
    let file ← Json.readItem record items 3 Json.toText
    let line ← Json.readItem record items 4 Json.toWord
    let column ← Json.readItem record items 5 Json.toWord
    let hints ← Json.readItem record items 6 (Json.toList Json.toText)
    Json.checkLength items 7
    return { code, errorType, message, file, line, column, hints }
  | v => Json.wrongType v "struct CompilerError"

/-- Writes a report as an object, without its byte offset. -/
def toJson (r : Report) : Json :=
  .object [
    ("code", .string r.code),
    ("column", .integer r.column.toNat),
    ("errorType", .string r.errorType),
    ("file", .string r.file),
    ("hints", .array (r.hints.map .string)),
    ("line", .integer r.line.toNat),
    ("message", .string r.message)]

end Report

end TemplateCompiler
