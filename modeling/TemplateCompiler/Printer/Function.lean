import TemplateCompiler.Printer.Expression

namespace TemplateCompiler.Printer

/-- Directives between the quotes that their text allows. -/
def directiveQuote (raw : List Char) : String :=
  match raw with
  | [] => "\""
  | '\\' :: _ :: rest => directiveQuote rest
  | c :: rest => if c == '"' then "'" else if c == '\'' then "\"" else directiveQuote rest

/-- A directive, in the quotes that its text does not need. -/
def printDirective (raw : String) (span : Span) : PrintM Unit := do
  mark span
  indent
  let quote := directiveQuote raw.toList
  put (quote ++ raw ++ quote)
  endStatement

def isDirective (n : Node) : Bool :=
  match n with
  | .node (.directive _) _ _ => true
  | _ => false

/-- The statements of a body. Without directives before it, a first statement that is only a string
is put in parentheses, so that it does not become one. -/
def printBodyItems (print : Print) : List Node → PrintM Unit
  | [] => pure ()
  | first :: rest => do
    match first with
    | .node .expressionStatement _ [value] =>
      match value.withoutParentheses with
      | .node (.string text) span _ =>
        put "("
        printString text span
        put ")"
        endStatement
      | _ => print.statement first
    | _ => print.statement first
    each print.statement rest

/-- The body of a function in braces, directives first. -/
def printBody (print : Print) (span : Span) (items : List Node) : PrintM Unit :=
  braces span items.isEmpty (printBodyItems print items)

/-- The words in front of a member of a class or a parameter. -/
def printModifiers (m : Modifiers) : PrintM Unit := do
  if m.isDeclared then put "declare "
  match m.access with
  | some access => put (access.keyword ++ " ")
  | none => pure ()
  if m.isStatic then put "static "
  if m.isAbstract then put "abstract "
  if m.isOverride then put "override "
  if m.isReadonly then put "readonly "

def printFunction (print : Print) (traits : FunctionTraits) (span : Span)
    (name generics params result body : Node) : PrintM Unit := do
  let o ← get
  let isFirst := o.statementStart == o.size || o.defaultStart == o.size
  wrap (!traits.isDeclaration && (isFirst || traits.isParenthesized)) do
    if traits.isPure && !traits.isDeclaration then put "/* @__NO_SIDE_EFFECTS__ */ "
    spaceBeforeWord
    mark span
    if traits.isDeclared then put "declare "
    if traits.isAsync then put "async "
    put "function"
    if traits.isGenerator then put "* "
    if !name.isAbsent then print.plain name
    print.plain generics
    put "("
    print.plain params
    put ")"
    print.annotation result
    if body.isAbsent then put ";"
    else
      put " "
      print.plain body

/-- An arrow function, its parameters always in parentheses. -/
def printArrow (print : Print) (style : Style) (traits : FunctionTraits) (span : Span)
    (generics params result body : Node) : PrintM Unit := do
  wrap (style.level ≥ Level.assign || traits.isParenthesized) do
    if traits.isPure then put "/* @__NO_SIDE_EFFECTS__ */ "
    if traits.isAsync then
      spaceBeforeWord
      mark span
      put "async "
    print.plain generics
    put "("
    print.plain params
    put ")"
    print.annotation result
    put " => "
    match body with
    | .node .body _ _ => print.plain body
    | body =>
      modify fun o => { o with arrowStart := o.size }
      print { level := Level.comma, noIn := style.noIn } body

def printClass (print : Print) (isDeclaration : Bool) (modifiers : Modifiers) (span : Span)
    (name generics base types interfaces body : Node) : PrintM Unit := do
  let o ← get
  let isFirst := o.statementStart == o.size || o.defaultStart == o.size
  wrap (!isDeclaration && isFirst) do
    spaceBeforeWord
    mark span
    if modifiers.isDeclared then put "declare "
    if modifiers.isAbstract then put "abstract "
    put "class"
    print.optional " " name
    print.plain generics
    if !base.isAbsent then
      put " extends "
      print { level := Level.suffix } base
      print.plain types
    if !interfaces.children.isEmpty then
      put " implements "
      commaList print.plain interfaces.children
    put " "
    print.plain body

def printMethod (print : Print) (accessor : Accessor) (isComputed : Bool) (modifiers : Modifiers)
    (span : Span) (key value : Node) : PrintM Unit := do
  mark span
  printModifiers modifiers
  match accessor with
  | .getter => put "get "
  | .setter => put "set "
  | .value => pure ()
  match value with
  | .node (.function f) _ parts =>
    if f.isAsync then put "async "
    if f.isGenerator then put "*"
    printKey print isComputed key
    if modifiers.isOptional then put "?"
    printMethodRest print parts
  | _ => pure ()

/-- A field of a class, without what ends it. -/
def printField (print : Print) (isAccessor isComputed : Bool) (modifiers : Modifiers) (span : Span)
    (key type value : Node) : PrintM Unit := do
  mark span
  printModifiers modifiers
  if isAccessor then put "accessor "
  printKey print isComputed key
  if modifiers.isOptional then put "?"
  if modifiers.isDefinite then put "!"
  print.annotation type
  printDefault print value

def printClassMember (print : Print) (member : Node) : PrintM Unit := do
  indent
  print.plain member
  match member with
  | .node (.field _ _ _) _ _ => endStatement
  | .node (.indexSignature _) _ _ => endStatement
  | _ => newline

/-- Prints a node that is a function, a class or a part of one. -/
def printFunction? (print : Print) (style : Style) : Node → Option (PrintM Unit)
  | .node (.function traits) span [name, generics, params, result, body] =>
    some (printFunction print traits span name generics params result body)
  | .node (.arrow traits) span [generics, params, result, body] =>
    some (printArrow print style traits span generics params result body)
  | .node .parameters _ items => some (commaList print.plain items)
  | .node (.parameter modifiers) span [target, type, value] => some do
    mark span
    printModifiers modifiers
    print.plain target
    if modifiers.isOptional then put "?"
    print.annotation type
    printDefault print value
  | .node .restParameter span [target, type] => some do
    mark span
    put "..."
    print.plain target
    print.annotation type
  | .node .thisParameter span [type] => some do
    mark span
    put "this"
    print.annotation type
  | .node .body span items => some do
    let directives := items.takeWhile isDirective
    if directives.isEmpty then printBody print span items
    else braces span false (each print.statement items)
  | .node (.directive raw) span _ => some (printDirective raw span)
  | .node (.classDefinition isDeclaration modifiers) span
      [name, generics, base, types, interfaces, body] =>
    some (printClass print isDeclaration modifiers span name generics base types interfaces body)
  | .node .heritage _ [name, types] => some do
    print.plain name
    print.plain types
  | .node .classBody span members =>
    some (braces span members.isEmpty (each (printClassMember print) members))
  | .node (.method accessor isComputed modifiers) span [key, value] =>
    some (printMethod print accessor isComputed modifiers span key value)
  | .node (.field isAccessor isComputed modifiers) span [key, type, value] =>
    some (printField print isAccessor isComputed modifiers span key type value)
  | .node .staticBlock span items => some do
    mark span
    put "static "
    braces span items.isEmpty (each print.statement items)
  | _ => none

end TemplateCompiler.Printer
