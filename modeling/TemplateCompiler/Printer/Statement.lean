import TemplateCompiler.Printer.Function
import TemplateCompiler.Printer.Type

namespace TemplateCompiler.Printer

/-- The body of a control statement: a block on the same line, a lone semicolon, or a statement that
stays on the line. -/
def printControlled (print : Print) : Node → PrintM Unit
  | .node .block span items => do
    put " "
    braces span items.isEmpty (each print.statement items)
    newline
  | .node .emptyStatement _ _ => put ";\n"
  | n => do
    modify fun o => { o with staysOnLine := true }
    print.statement n

/-- Whether an `else` behind the statement would belong to an `if` inside it. -/
def takesElse : Node → Bool
  | .node .ifStatement _ [_, _, alternative] =>
    if alternative.isAbsent then true else takesElse alternative
  | .node .forStatement _ [_, _, _, body] => takesElse body
  | .node .forIn _ [_, _, body] => takesElse body
  | .node (.forOf _) _ [_, _, body] => takesElse body
  | .node .whileStatement _ [_, body] => takesElse body
  | .node .withStatement _ [_, body] => takesElse body
  | .node .labelled _ [_, body] => takesElse body
  | _ => false

/-- The block or statement that is done when a test holds. -/
def printConsequent (print : Print) (hasElse : Bool) (n : Node) : PrintM Unit := do
  match n with
  | .node .block span items =>
    put " "
    braces span items.isEmpty (each print.statement items)
    if hasElse then put " " else newline
  | n =>
    if takesElse n then
      put " "
      braces n.span false (print.statement n)
      if hasElse then put " " else newline
    else
      printControlled print n
      if hasElse then indent

/-- An `if` from its keyword on, with what comes after each `else`. -/
def printIf (print : Print) : Nat → Node → PrintM Unit
  | n + 1, .node .ifStatement _ [test, consequent, alternative] => do
    putWord "if"
    put " ("
    print.plain test
    put ")"
    printConsequent print (!alternative.isAbsent) consequent
    if !alternative.isAbsent then
      putWord "else"
      match alternative with
      | .node .ifStatement _ _ =>
        put " "
        printIf print n alternative
      | alternative => printControlled print alternative
  | _, _ => pure ()

/-- The number of tests in a chain of `else if`. -/
def chainLength : Node → Nat
  | .node .ifStatement _ [_, _, alternative] => chainLength alternative + 1
  | _ => 0

def printCase (print : Print) : Node → PrintM Unit
  | .node .switchCase span (test :: statements) => do
    mark span
    indent
    if test.isAbsent then put "default"
    else
      put "case "
      print.plain test
    put ":"
    match statements with
    | [statement] => printControlled print statement
    | statements =>
      newline
      deeper
      each print.statement statements
      shallower
  | _ => pure ()

/-- The attributes behind the source of an import or export. -/
def printAttributes (print : Print) : Node → PrintM Unit
  | .node (.importAttributes keyword) _ items => do
    put (" " ++ keyword ++ " \x7b ")
    commaList print.plain items
    put " \x7d"
  | _ => pure ()

/-- The name that a word or a string of a module's interface stands for. -/
def exportedName : Node → Option String
  | .node (.label name) _ _ => some name
  | .node (.reference name) _ _ => some name
  | .node (.binding name) _ _ => some name
  | .node (.string name) _ _ => some name
  | _ => none

/-- A name and what it is called on the other side, if that is something else. -/
def printRenamed (print : Print) (isType : Bool) (name other : Node) : PrintM Unit := do
  if isType then put "type "
  print.plain name
  if exportedName name != exportedName other then
    put " as "
    print.plain other

/-- The specifiers of an import. Names stand in braces, what is before them does not. -/
def printSpecifiers (print : Print) (inBraces isFirst : Bool) : List Node → PrintM Unit
  | [] => if inBraces then put " \x7d" else pure ()
  | n :: rest => do
    match n with
    | .node (.importSpecifier isType) _ [imported, bound] =>
      if inBraces then put ", "
      else
        if !isFirst then put ","
        put " \x7b "
      printRenamed print isType imported bound
      printSpecifiers print true false rest
    | .node .importNamespace _ [bound] =>
      put (if isFirst then " " else ", ")
      put "* as "
      print.plain bound
      printSpecifiers print inBraces false rest
    | .node .importDefault _ [bound] =>
      put (if isFirst then " " else ", ")
      print.plain bound
      printSpecifiers print inBraces false rest
    | _ => printSpecifiers print inBraces isFirst rest

def printImport (print : Print) (isType : Bool) (span : Span)
    (specifiers source attributes : Node) :
    PrintM Unit := do
  mark span
  indent
  putWord "import"
  if isType then put " type"
  match specifiers with
  | .node .group _ [] => put " \x7b\x7d from "
  | .node .group _ items =>
    printSpecifiers print false true items
    put " from "
  | _ => put " "
  print.plain source
  printAttributes print attributes
  endStatement

/-- An export of a declaration or of names in braces. -/
def printExportNamed (print : Print) (isType : Bool) (span : Span)
    (declaration specifiers source attributes : Node) : PrintM Unit := do
  mark span
  indent
  if isEffectFree declaration then put effectFreeComment
  put "export"
  if isType then put " type"
  if !declaration.isAbsent then
    put " "
    print.plain declaration
    if endsWithSemicolon declaration then endStatement else newline
  else
    put " \x7b"
    if !specifiers.children.isEmpty then
      put " "
      commaList print.plain specifiers.children
      put " "
    put "\x7d"
    print.optional " from " source
    printAttributes print attributes
    endStatement

/-- Whether what a module exports without a name is a declaration. -/
def isDefaultDeclaration : Node → Bool
  | .node (.function traits) _ _ => traits.isDeclaration
  | .node (.classDefinition isDeclaration _) _ _ => isDeclaration
  | .node (.interface _) _ _ => true
  | _ => false

def printExportDefault (print : Print) (span : Span) (value : Node) : PrintM Unit := do
  mark span
  indent
  if isEffectFree value then put effectFreeComment
  put "export default "
  if isDefaultDeclaration value then
    print.plain value
    newline
  else
    modify fun o => { o with defaultStart := o.size }
    print.item value
    endStatement

/-- A statement that starts a line with its own mark and word. -/
def printHead (span : Span) (word : String) : PrintM Unit := do
  mark span
  indent
  putWord word

def printVariables (print : Print) (style : Style) (kind : VariableKind) (isDeclared : Bool)
    (span : Span) (items : List Node) : PrintM Unit := do
  mark span
  spaceBeforeWord
  if isDeclared then put "declare "
  put (kind.keyword ++ " ")
  commaList (print { level := Level.comma, noIn := style.noIn }) items

def printControl? (print : Print) : Node → Option (PrintM Unit)
  | .node .block span items => some do
    indent
    braces span items.isEmpty (each print.statement items)
    newline
  | .node .emptyStatement span _ => some do
    mark span
    indent
    put ";\n"
  | .node .expressionStatement span [value] => some do
    let o ← get
    if o.depth > 0 || o.staysOnLine then
      mark span
      indent
    modify fun o => { o with statementStart := o.size }
    print.plain value
    endStatement
  | n@(.node .ifStatement span _) => some do
    mark span
    indent
    printIf print (chainLength n) n
  | .node .forStatement span [first, test, step, body] => some do
    printHead span "for"
    put " ("
    print { noIn := true } first
    put ";"
    print.optional " " test
    put ";"
    print.optional " " step
    put ")"
    printControlled print body
  | .node .forIn span [left, right, body] => some do
    printHead span "for"
    put " ("
    print { noIn := true } left
    put " in "
    print.plain right
    put ")"
    printControlled print body
  | .node (.forOf isAwait) span [left, right, body] => some do
    printHead span "for"
    if isAwait then put " await"
    put " ("
    print { noIn := true } left
    put " of "
    print.item right
    put ")"
    printControlled print body
  | .node .whileStatement span [test, body] => some do
    printHead span "while"
    put " ("
    print.plain test
    put ")"
    printControlled print body
  | .node .doWhile span [body, test] => some do
    printHead span "do"
    match body with
    | .node .block span items =>
      put " "
      braces span items.isEmpty (each print.statement items)
      put " "
    | body =>
      newline
      deeper
      print.statement body
      shallower
      indent
    put "while ("
    print.plain test
    put ")"
    endStatement
  | .node .continueStatement span [label] => some do
    printHead span "continue"
    print.optional " " label
    endStatement
  | .node .breakStatement span [label] => some do
    printHead span "break"
    print.optional " " label
    endStatement
  | .node .returnStatement span [value] => some do
    printHead span "return"
    print.optional " " value
    endStatement
  | .node .throwStatement span [value] => some do
    printHead span "throw"
    print.optional " " value
    endStatement
  | .node .withStatement span [object, body] => some do
    printHead span "with"
    put "("
    print.plain object
    put ")"
    printControlled print body
  | .node .switchStatement span (subject :: cases) => some do
    printHead span "switch"
    put " ("
    print.plain subject
    put ") "
    braces span cases.isEmpty (each (printCase print) cases)
    newline
  | .node .labelled span [label, body] => some do
    let o ← get
    if o.depth > 0 || o.staysOnLine then
      mark span
      indent
    spaceBeforeWord
    print.plain label
    put ":"
    printControlled print body
  | .node .tryStatement span [block, handler, finalizer] => some do
    printHead span "try"
    put " "
    printBlock block
    match handler with
    | .node .catchClause _ [target, type, block] =>
      put " catch"
      if !target.isAbsent then
        put " ("
        print.plain target
        print.annotation type
        put ")"
      put " "
      printBlock block
    | _ => pure ()
    if !finalizer.isAbsent then
      put " finally "
      printBlock finalizer
    newline
  | .node .debuggerStatement span _ => some do
    printHead span "debugger"
    endStatement
  | _ => none
where
  printBlock (block : Node) : PrintM Unit :=
    braces block.span block.children.isEmpty (each print.statement block.children)

/-- Prints a declaration or a part of one, as it stands behind `export`. -/
def printDeclaration? (print : Print) (style : Style) : Node → Option (PrintM Unit)
  | .node (.variableDeclaration kind isDeclared) span items =>
    some (printVariables print style kind isDeclared span items)
  | .node (.declarator isDefinite) _ [target, type, value] => some do
    print.plain target
    if isDefinite then put "!"
    print.annotation type
    if !value.isAbsent then
      put " = "
      print { level := Level.comma, noIn := style.noIn } value
  | .node (.typeAlias isDeclared) span [name, generics, type] => some do
    mark span
    if isDeclared then put "declare "
    put "type "
    print.plain name
    print.plain generics
    put " = "
    print.plain type
  | .node (.interface isDeclared) span [name, generics, supertypes, body] => some do
    mark span
    if isDeclared then put "declare "
    put "interface "
    print.plain name
    print.plain generics
    if !supertypes.children.isEmpty then
      put " extends "
      commaList print.plain supertypes.children
    put " "
    print.plain body
  | .node (.enumeration isDeclared isConst) span (name :: members) => some do
    mark span
    if isDeclared then put "declare "
    if isConst then put "const "
    put "enum "
    print.plain name
    put " "
    braces .synthetic members.isEmpty (printLines print members)
  | .node (.enumMember isComputed) _ [key, value] => some do
    printKey print isComputed key
    printDefault print value
  | .node (.moduleDeclaration keyword isDeclared) span [name, body] => some do
    mark span
    if isDeclared then put "declare "
    if keyword != "global" then put (keyword ++ " ")
    print.plain name
    if body.isAbsent then put ";"
    else
      put " "
      print.plain body
  | .node .moduleBlock span items => some do
    if items.any isDirective then braces span false (each print.statement items)
    else printBody print span items
  | .node (.importEquals isType) span [name, value] => some do
    mark span
    put "import "
    if isType then put "type "
    print.plain name
    put " = "
    print.plain value
  | .node .externalModule _ [source] => some do
    put "require("
    print.plain source
    put ")"
  | .node (.importSpecifier isType) _ [imported, bound] =>
    some (printRenamed print isType imported bound)
  | .node (.exportSpecifier isType) _ [name, exported] =>
    some (printRenamed print isType name exported)
  | .node .importAttribute _ [key, value] => some do
    print.plain key
    put ": "
    print.plain value
  | _ => none

def printModule? (print : Print) : Node → Option (PrintM Unit)
  | .node (.importDeclaration isType) span [specifiers, source, attributes] =>
    some (printImport print isType span specifiers source attributes)
  | .node (.exportNamed isType) span [declaration, specifiers, source, attributes] =>
    some (printExportNamed print isType span declaration specifiers source attributes)
  | .node .exportDefault span [value] => some (printExportDefault print span value)
  | .node (.exportAll isType) span [name, source, attributes] => some do
    mark span
    indent
    put "export"
    if isType then put " type"
    put " *"
    print.optional " as " name
    put " from "
    print.plain source
    printAttributes print attributes
    endStatement
  | .node .exportAssignment span [value] => some do
    mark span
    indent
    put "export = "
    print.plain value
    endStatement
  | .node .namespaceExport span [name] => some do
    mark span
    indent
    put "export as namespace "
    print.plain name
    endStatement
  | .node (.hashbang text) _ _ => some do
    put ("#!" ++ text ++ "\n")
  | _ => none

end TemplateCompiler.Printer
