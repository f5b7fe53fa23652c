import TemplateCompiler.Grammar.Program
import TemplateCompiler.Report

namespace TemplateCompiler.Snippet

open Grammar

/-- Snippets are plain modules. -/
def language : Context := {}

def expression (code : String) : Except Cause Node :=
  let outcome := readExpression language code
  match outcome.node with
  | some node =>
    if outcome.diagnostics.isEmpty then .ok node.erase else .error (.invalidExpression code)
  | none => .error (.invalidExpression code)

/-- What is no directive. -/
def isStatement (n : Node) : Bool :=
  match n.form with
  | .directive _ => false
  | _ => true

/-- Reads the statements of a text. Directives are left out. -/
def statements (code : String) : Except Cause (List Node) :=
  let outcome := readProgram language code
  match outcome.node with
  | some program =>
    if outcome.diagnostics.isEmpty then .ok (Node.eraseList program.children)
    else .error (.invalidStatements code)
  | none => .error (.invalidStatements code)

/-- A declaration with another initial value for its first variable. -/
def setInitializer (value : Node) : Node → Node
  | .node (.variableDeclaration kind isDeclared) span (.node f inner [target, type, _] :: rest) =>
    .node (.variableDeclaration kind isDeclared) span (.node f inner [target, type, value] :: rest)
  | n => n

/-- The text of a declaration whose value is still to be put in. -/
def constText (name : String) : String := "const " ++ name ++ " = 0;"

def constDeclaration (name : String) (value : Node) : Except Cause Node := do
  let code := constText name
  match ← statements code with
  | first :: _ => return setInitializer value first
  | [] => .error (.emptyStatement code)

/-- A statement with another expression, if it is nothing but one. -/
def setExpression (value : Node) : Node → Node
  | .node .expressionStatement span _ => .node .expressionStatement span [value]
  | n => n

/-- Statements with another expression for the first of them, if that is nothing but one. -/
def setFirst (value : Node) : List Node → List Node
  | [] => []
  | n :: ns => if isStatement n then setExpression value n :: ns else n :: setFirst value ns

/-- An arrow function with another expression for its body, or for the first statement of its
body. -/
def setArrowBody (value : Node) : Node → Node
  | .node (.arrow traits) span [generics, params, result, body] =>
    match body with
    | .node .body inner items =>
      .node (.arrow traits) span
        [generics, params, result, .node .body inner (setFirst value items)]
    | _ => .node (.arrow traits) span [generics, params, result, value]
  | n => n

/-- The text of an arrow function whose body is still to be put in. -/
def arrowText (params : String) : String := "(" ++ params ++ ") => 0"

/-- An arrow function with an expression for its body. -/
def arrow (params : String) (body : Node) : Except Cause Node := do
  return setArrowBody body (← expression (arrowText params))

/-- An arrow function with statements between the first and the second one of its body. -/
def setArrowStatements (items : List Node) : Node → Node
  | .node (.arrow traits) span [generics, params, result, .node .body inner parts] =>
    let directives := parts.filter (!isStatement ·)
    let own := parts.filter isStatement
    .node (.arrow traits) span
      [generics, params, result,
        .node .body inner (directives ++ own.take 1 ++ items ++ (own.drop 1).take 1)]
  | n => n

/-- The text of a closure that builds a fragment and returns it. -/
def closureText (root context : String) : String :=
  "(" ++ context ++ ") => \x7b const " ++ root ++
    " = document.createDocumentFragment(); return " ++ root ++ "; \x7d"

/-- A closure that makes a fragment, runs statements on it and returns it. -/
def fragmentClosure (root context : String) (items : List Node) : Except Cause Node := do
  return setArrowStatements items (← expression (closureText root context))

def importDeclarations (text : String) : Except Cause (List Node) := statements text

end TemplateCompiler.Snippet
