import TemplateCompiler.Grammar.Expression
import TemplateCompiler.Grammar.Module

namespace TemplateCompiler.Grammar

/-- An expression in parentheses, as the head of a statement. -/
def headExpression (rules : Rules) (ctx : Context) : Parser Node := do
  expectMark "("
  let value ← rules { ctx with allowIn := true } .expression
  expectMark ")"
  return value

def blockRule (rules : Rules) (ctx : Context) : Parser Node := do
  let start ← position
  expectMark "\x7b"
  let items ← itemsUntil "\x7d" (rules ctx .statement)
  expectMark "\x7d"
  finish .block start items

def ifStatement (rules : Rules) (ctx : Context) : Parser Node := do
  let start ← position
  advance
  let test ← headExpression rules ctx
  let consequent ← rules ctx .statement
  let alternative ← if ← eatWord "else" then rules ctx .statement else pure Node.absent
  finish .ifStatement start [test, consequent, alternative]

/-- The rest of a counting loop, from the semicolon behind its start on. -/
def forRest (rules : Rules) (ctx : Context) (start : Nat) (first : Node) : Parser Node := do
  expectMark ";"
  let test ← if ← atMark ";" then pure Node.absent else rules ctx .expression
  expectMark ";"
  let step ← if ← atMark ")" then pure Node.absent else rules ctx .expression
  expectMark ")"
  let body ← rules ctx .statement
  finish .forStatement start [first, test, step, body]

/-- The rest of a loop over keys or values, from the word behind its variable on. -/
def forEachRest (rules : Rules) (ctx : Context) (start : Nat) (isAwait : Bool) (left : Node) :
    Parser Node := do
  let isIn ← atWord "in"
  advance
  let right ← rules ctx (if isIn then .expression else .assignment)
  expectMark ")"
  let body ← rules ctx .statement
  finish (if isIn then .forIn else .forOf isAwait) start [left, right, body]

/-- Whether the word of a loop over keys or values comes next. -/
def atForEach : Parser Bool := return (← current).isWordOf ["in", "of"]

/-- Whether the head of a loop starts with a declaration. -/
def atLoopVariables : Parser Bool := do
  if (← current).isWordOf ["var", "const"] then return true
  if !(← atWord "let") then return false
  let next ← peek
  return next.isMark "[" || next.isMark "\x7b" || (next.isVariable && !next.isWord "of") ||
    (next.isWord "of" && ((← peekSecond).isMark "=" || (← peekSecond).isMark ";" ||
      (← peekSecond).isWordOf ["of", "in"]))

def forStatement (rules : Rules) (ctx : Context) : Parser Node := do
  let start ← position
  advance
  let isAwait ←
    if ← atWord "await" then
      if !ctx.inAsync then report .awaitOutside (← position)
      advance
      pure true
    else pure false
  expectMark "("
  let ctx := { ctx with allowIn := true }
  let narrow := { ctx with allowIn := false }
  if ← atMark ";" then return ← forRest rules ctx start .absent
  if ← atLoopVariables then
    let first ← variableList rules narrow (← position) false false
    if ← atForEach then forEachRest rules ctx start isAwait first
    else forRest rules ctx start first
  else
    let first ← rules narrow .expression
    if ← atForEach then
      let left ← asTarget false first
      forEachRest rules ctx start isAwait left
    else forRest rules ctx start first

def whileStatement (rules : Rules) (ctx : Context) : Parser Node := do
  let start ← position
  advance
  let test ← headExpression rules ctx
  let body ← rules ctx .statement
  finish .whileStatement start [test, body]

/-- A loop that tests after each round. The semicolon behind it may be left out. -/
def doStatement (rules : Rules) (ctx : Context) : Parser Node := do
  let start ← position
  advance
  let body ← rules ctx .statement
  expectWord "while"
  let test ← headExpression rules ctx
  discard (eatMark ";")
  finish .doWhile start [body, test]

def jumpStatement (form : Form) : Parser Node := do
  let start ← position
  advance
  let label ← if ← canInsertSemicolon then pure Node.absent else
    if (← current).isVariable then takeLeaf .label else unexpected
  endStatement
  finish form start [label]

/-- The end of a function; reported where there is none. -/
def returnStatement (rules : Rules) (ctx : Context) : Parser Node := do
  let start ← position
  advance
  let value ← if ← canInsertSemicolon then pure Node.absent
    else rules { ctx with allowIn := true } .expression
  endStatement
  if !ctx.inFunction then report .returnOutside start
  finish .returnStatement start [value]

/-- An exception. What is thrown starts on the same line. -/
def throwStatement (rules : Rules) (ctx : Context) : Parser Node := do
  let start ← position
  advance
  if (← current).newlineBefore then report .newlineAfterThrow start
  let value ← rules { ctx with allowIn := true } .expression
  endStatement
  finish .throwStatement start [value]

/-- A statement that looks up names in an object. -/
def withStatement (rules : Rules) (ctx : Context) : Parser Node := do
  let start ← position
  advance
  let object ← headExpression rules ctx
  let body ← rules ctx .statement
  finish .withStatement start [object, body]

def switchCase (rules : Rules) (ctx : Context) : Parser Node := do
  let start ← position
  let test ←
    if ← eatWord "default" then pure Node.absent
    else if ← eatWord "case" then rules { ctx with allowIn := true } .expression
    else unexpected
  expectMark ":"
  let statements ← many do
    let t ← current
    if t.isWordOf ["case", "default"] || t.isMark "\x7d" || t.kind == .eof then return none
    return some (← rules ctx .statement)
  finish .switchCase start (test :: statements)

def switchStatement (rules : Rules) (ctx : Context) : Parser Node := do
  let start ← position
  advance
  let subject ← headExpression rules ctx
  expectMark "\x7b"
  let cases ← itemsUntil "\x7d" (switchCase rules ctx)
  expectMark "\x7d"
  finish .switchStatement start (subject :: cases)

/-- What is done with an exception, and the pattern that it is bound to. -/
def catchClause (rules : Rules) (ctx : Context) : Parser Node := do
  let start ← position
  advance
  if ← eatMark "(" then
    let target ← rules ctx .pattern
    let type ← typeAnnotation rules ctx
    expectMark ")"
    let block ← rules ctx .block
    finish .catchClause start [target, type, block]
  else
    let block ← rules ctx .block
    finish .catchClause start [.absent, .absent, block]

def tryStatement (rules : Rules) (ctx : Context) : Parser Node := do
  let start ← position
  advance
  let block ← rules ctx .block
  let handler ← if ← atWord "catch" then catchClause rules ctx else pure Node.absent
  let finalizer ← if ← eatWord "finally" then rules ctx .block else pure Node.absent
  if handler.isAbsent && finalizer.isAbsent then report .missingHandler (← get).previousStop
  finish .tryStatement start [block, handler, finalizer]

/-- An expression as a statement, or a label in front of one. -/
def expressionStatement (rules : Rules) (ctx : Context) : Parser Node := do
  let start ← position
  let value ← rules { ctx with allowIn := true } .expression
  match value with
  | .node (.reference name) span _ =>
    if ← eatMark ":" then
      let statement ← rules ctx .statement
      return ← finish .labelled start [.leaf (.label name) span, statement]
  | _ => pure ()
  endStatement
  finish .expressionStatement start [value]

/-- Marks the function that a statement declares as having no effects. -/
def noteEffectFreeStatement : Node → Node
  | .node .exportDefault span [value] => .node .exportDefault span [noteEffectFree value]
  | .node (.exportNamed isType) span (value :: rest) =>
    .node (.exportNamed isType) span (noteDeclaration value :: rest)
  | n => noteDeclaration n
where
  noteDeclaration : Node → Node
    | .node (.variableDeclaration .constVar isDeclared) span
        (.node (.declarator d) inner [target, type, value] :: rest) =>
      .node (.variableDeclaration .constVar isDeclared) span
        (.node (.declarator d) inner [target, type, noteEffectFree value] :: rest)
    | n => noteEffectFree n

def keywordStatement? (rules : Rules) (ctx : Context) (word : String) : Option (Parser Node) :=
  match word with
  | "if" => some (ifStatement rules ctx)
  | "for" => some (forStatement rules ctx)
  | "while" => some (whileStatement rules ctx)
  | "do" => some (doStatement rules ctx)
  | "continue" => some (jumpStatement .continueStatement)
  | "break" => some (jumpStatement .breakStatement)
  | "return" => some (returnStatement rules ctx)
  | "throw" => some (throwStatement rules ctx)
  | "with" => some (withStatement rules ctx)
  | "switch" => some (switchStatement rules ctx)
  | "try" => some (tryStatement rules ctx)
  | "debugger" => some do
    let start ← position
    advance
    endStatement
    finish .debuggerStatement start []
  | "export" => some (exportDeclaration rules ctx)
  | _ => none

def plainStatement (rules : Rules) (ctx : Context) : Parser Node := do
  let start ← position
  let t ← current
  if t.isMark "\x7b" then rules ctx .block
  else if t.isMark ";" then
    advance
    finish .emptyStatement start []
  else if t.kind != .word || t.isEscaped then expressionStatement rules ctx
  else
    match keywordStatement? rules ctx t.text with
    | some rule => rule
    | none =>
      if t.text == "import" && !((← peek).isMark "(" || (← peek).isMark ".") then
        importDeclaration ctx
      else if ctx.isTyped && (← atTypeDeclaration 4) then typeDeclaration rules ctx start
      else if t.text == "var" || t.text == "const" || (← atLet) then
        variableStatement rules { ctx with allowIn := true } start false
      else if ← atFunction then functionRule rules ctx true false false
      else if t.text == "class" then classRule rules ctx start true {}
      else expressionStatement rules ctx

/-- A statement, with what the comment before it says of the function that it declares. -/
def statementRule (rules : Rules) (ctx : Context) : Parser Node := do
  let t ← current
  let statement ← plainStatement rules ctx
  return if t.isEffectFree then noteEffectFreeStatement statement else statement

end TemplateCompiler.Grammar
