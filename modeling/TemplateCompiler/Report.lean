import TemplateCompiler.Text.Position

namespace TemplateCompiler

/-- Why a template cannot be lowered. -/
inductive Cause where
  /-- A name was asked for before the program was entered. -/
  | noScope
  /-- A component tag that is neither a name nor a dotted path. -/
  | unknownElement (tag : String) (offset : Nat)
  /-- A compile-time attribute that does not exist. -/
  | unsupportedModifier (modifier : String) (offset : Nat)
  /-- Text that should be a piece of program is not. -/
  | invalidExpression (code : String)
  | invalidStatements (code : String)
  | emptyStatement (code : String)
deriving DecidableEq, Repr, Inhabited

namespace Code

def scope : String := "RUMIOUS-ERR-SCOPE-001"
def element : String := "RUMIOUS-ERR-ELEMENT-001"
def compile : String := "RUMIOUS-ERR-COMPILE-001"
def parse : String := "RUMIOUS-ERR-PARSE-001"
def internal : String := "RUMIOUS-ERR-INTERNAL-001"

def errorType (code : String) : String :=
  if code == scope || code == internal then "COMPILER_INVARIANT_VIOLATION"
  else if code == parse then "SYNTAX_ERROR"
  else "TEMPLATE_ERROR"

def hint? (code : String) : Option String :=
  if code == element then
    some "Component tags must be an identifier or a dotted path such as \x60Ns.Component\x60."
  else if code == compile then
    some "The only supported compile directive is \x60compile:preserveWhitespace\x60."
  else if code == scope then
    some "Identifiers can only be generated once the program scope has been entered."
  else none

end Code

/-- An error as it is handed out. Until it is located, it may hold a byte offset instead of a line
and a column. -/
structure Report where
  code : String
  errorType : String
  message : String
  file : String
  line : UInt32
  column : UInt32
  hints : List String
  offset : Option Nat := none
deriving DecidableEq, Repr, Inhabited

namespace Report

/-- A report with the class and the advice that belong to its code. -/
def new (code message file : String) (line column : UInt32) : Report :=
  { code, errorType := Code.errorType code, message, file, line, column,
    hints := (Code.hint? code).toList }

/-- A report placed by its byte offset only. -/
def placed (code message : String) (offset : Nat) : Report :=
  { new code message "" 0 0 with offset := some offset }

/-- The report of a name that was asked for too early. -/
def scopeUnavailable : Report :=
  new Code.scope "Cannot create unique identifier: no program scope is available" "" 0 0

/-- The report of generated text that is no program. -/
def internal (message : String) : Report := new Code.internal message "" 0 0

def ofCause : Cause → Report
  | .noScope => scopeUnavailable
  | .unknownElement tag offset => placed Code.element ("Unknown element <" ++ tag ++ ">") offset
  | .unsupportedModifier modifier offset =>
    placed Code.compile ("Unsupported modifier '" ++ modifier ++ "'") offset
  | .invalidExpression code => internal ("Invalid generated expression \x60" ++ code ++ "\x60")
  | .invalidStatements code => internal ("Invalid generated statements \x60" ++ code ++ "\x60")
  | .emptyStatement code => internal ("Empty generated statement \x60" ++ code ++ "\x60")

/-- Names the file, and turns a byte offset that is still pending into a line and a column. -/
def locate (r : Report) (file source : String) : Report :=
  match r.offset with
  | some offset =>
    let (line, column) := Text.lineColumn source offset
    { r with file, line := .ofNat line, column := .ofNat column, offset := none }
  | none => { r with file }

def display (r : Report) : String :=
  let head := "RumiousCompileError [" ++ r.code ++ "]: " ++ r.message
  if r.file.isEmpty then head
  else
    head ++ " (" ++ r.file ++ ":" ++ Nat.repr r.line.toNat ++ ":" ++ Nat.repr r.column.toNat ++ ")"

end Report

end TemplateCompiler
