import TemplateCompiler.Printer.Output
import TemplateCompiler.Syntax.Token
import TemplateCompiler.Grammar.Operator
import TemplateCompiler.Text.Numeral

namespace TemplateCompiler.Printer

open Text

/-- Writes a name that may not run into the word before it. -/
def printName (name : String) (span : Span) : PrintM Unit := do
  spaceBeforeWord
  mark span
  put name

def printNumber (raw : String) (span : Span) : PrintM Unit := do
  mark span
  spaceBeforeWord
  let text := Numeral.shortestSpelling raw
  put text
  if !text.toList.any (fun c => c == '.' || c == 'e' || c == 'x') then
    modify fun o => { o with numberEnd := some o.size }

def printString (value : String) (span : Span) : PrintM Unit := do
  mark span
  put (Quoted.literal value)

/-- The chunks of a template after the first one, with the expressions before them. -/
def printChunks (print : Print) : List Node → PrintM Unit
  | value :: .node (.chunk raw) span _ :: rest => do
    put "$\x7b"
    print.plain value
    put "\x7d"
    mark span
    putChars (Quoted.rawChars raw.toList)
    printChunks print rest
  | _ => pure ()

/-- A template literal: its chunks as they are written, and the values between them. -/
def printTemplate (print : Print) (span : Span) (parts : List Node) : PrintM Unit := do
  mark span
  put "\x60"
  match parts with
  | .node (.chunk raw) _ _ :: rest =>
    putChars (Quoted.rawChars raw.toList)
    printChunks print rest
  | _ => pure ()
  put "\x60"

/-- The elements of an array, each on a line of its own or not. A hole at the end needs a comma. -/
def printElements (print : Print) (isTall isFirst : Bool) : List Node → PrintM Unit
  | [] => pure ()
  | n :: rest => do
    if !isFirst then put ","
    if isTall then
      newline
      indent
    else if !isFirst then put " "
    print.item n
    if rest.isEmpty && n.isAbsent then put ","
    printElements print isTall false rest

/-- An array: up to two items on the line, more of them on lines of their own. -/
def printArray (print : Print) (span : Span) (items : List Node) : PrintM Unit := do
  let isTall := items.length > 2
  mark span
  put "["
  if isTall then deeper
  printElements print isTall true items
  if isTall then
    newline
    shallower
    indent
  put "]"
  markEnd span

/-- The members of an object, each on a line of its own or the only one on this line. -/
def printMembers (print : Print) (isTall isFirst : Bool) : List Node → PrintM Unit
  | [] => pure ()
  | n :: rest => do
    if !isFirst then put ","
    if isTall then
      newline
      indent
    else put " "
    print.item n
    printMembers print isTall false rest

/-- An object: up to one property on the line, more of them on lines of their own. -/
def printObject (print : Print) (span : Span) (items : List Node) : PrintM Unit := do
  let o ← get
  wrap (o.statementStart == o.size || o.arrowStart == o.size) do
    let isTall := items.length > 1
    mark span
    put "\x7b"
    if isTall then deeper
    printMembers print isTall true items
    if isTall then
      newline
      shallower
      indent
    else if !items.isEmpty then put " "
    put "\x7d"
    markEnd span

/-- The key of a property, in brackets if it is computed. -/
def printKey (print : Print) (isComputed : Bool) (key : Node) : PrintM Unit := do
  if isComputed then
    put "["
    print.item key
    put "]"
  else print.plain key

/-- Parameters, result and body of a function that is written without its keyword. -/
def printMethodRest (print : Print) (parts : List Node) : PrintM Unit := do
  match parts with
  | [_, generics, params, result, body] =>
    print.plain generics
    put "("
    print.plain params
    put ")"
    print.annotation result
    if body.isAbsent then put ";"
    else
      put " "
      print.plain body
  | _ => pure ()

/-- Whether a property is written as its name alone: the value is the variable of that name. A
property that sets the prototype is written so only if it was. -/
def isShorthand (traits : PropertyTraits) (key value : Node) : Bool :=
  if traits.isComputed then false
  else
    match key, value.withoutParentheses with
    | .node (.label "__proto__") _ _, _ => traits.isShorthand
    | .node (.label name) _ _, .node (.reference other) _ _ => name == other
    | _, _ => false

def printProperty (print : Print) (traits : PropertyTraits) (span : Span) (key value : Node) :
    PrintM Unit := do
  match value with
  | .node (.function f) _ parts =>
    mark span
    if traits.isMethod || traits.accessor != .value then
      match traits.accessor with
      | .getter => put "get "
      | .setter => put "set "
      | .value => pure ()
      if f.isAsync then putWord "async "
      if f.isGenerator then put "*"
      printKey print traits.isComputed key
      printMethodRest print parts
    else
      printKey print traits.isComputed key
      put ": "
      print.item value
  | value =>
    if !isShorthand traits key value then
      printKey print traits.isComputed key
      put ": "
    print.item value

def printArguments (print : Print) (span : Span) (items : List Node) : PrintM Unit := do
  put "("
  commaList print.item items
  put ")"
  markEnd span

/-- A call. One that has no effects is announced by a comment. -/
def printCall (print : Print) (style : Style) (isOptional isPure : Bool) (span : Span)
    (callee types : Node) (items : List Node) : PrintM Unit := do
  let o ← get
  let isWrapped := style.level ≥ Level.construct || style.noCall ||
    (isPure && style.level ≥ Level.suffix)
  wrap isWrapped do
    if isPure then
      mark span
      put "/* @__PURE__ */ "
    -- what stands in front of the callee does not keep it from the start of the statement
    if o.defaultStart == o.size then modify fun o => { o with defaultStart := o.size }
    else if o.statementStart == o.size then modify fun o => { o with statementStart := o.size }
    print { level := Level.suffix } callee
    if isOptional then put "?."
    print.plain types
    printArguments print span items

/-- A construction, always with its argument list. -/
def printConstruct (print : Print) (style : Style) (isPure : Bool) (span : Span)
    (callee types : Node) (items : List Node) : PrintM Unit := do
  wrap (isPure && style.level ≥ Level.suffix) do
    if isPure then put "/* @__PURE__ */ "
    spaceBeforeWord
    mark span
    put "new "
    print { level := Level.construct, noCall := true } callee
    print.plain types
    printArguments print span items

def printMemberObject (print : Print) (style : Style) (object : Node) : PrintM Unit :=
  print { level := Level.suffix, noCall := style.noCall } object

/-- The point of a member access, kept apart from a number before it. -/
def printPoint (isOptional : Bool) : PrintM Unit := do
  if isOptional then put "?."
  else
    let o ← get
    if o.numberEnd == some o.size then put " "
    put "."

/-- How tightly a binary operator binds when it is printed. -/
def operatorLevel (operator : String) : Nat :=
  match bindingLevel?.ofMark operator with
  | some level => level + 5
  | none => 13

/-- Whether a node is one of the logical operations that may not stand bare beside `??`. -/
def isAndOr (n : Node) : Bool :=
  match n.withoutParentheses with
  | .node (.logical op) _ _ => op == "&&" || op == "||"
  | _ => false

/-- The level at which the left operand of an operator is printed. -/
def leftLevel (operator : String) (left : Node) : Nat :=
  if operator == "**" then
    match left.withoutParentheses with
    | .node (.unary _) _ _ => Level.call
    | .node (.number _) _ _ => Level.call
    | _ => operatorLevel operator
  else if operator == "??" && isAndOr left then Level.unary
  else operatorLevel operator - 1

/-- The level at which the right operand of an operator is printed. -/
def rightLevel (operator : String) (right : Node) : Nat :=
  if operator == "??" && isAndOr right then Level.unary
  else if operator == "**" || isLogicalOperator operator then operatorLevel operator - 1
  else operatorLevel operator

/-- Two operands and an operator that associates to the left, or to the right if it raises to a
power. -/
def printBinary (print : Print) (style : Style) (operator : String) (left right : Node) :
    PrintM Unit := do
  let isWrapped := style.level ≥ operatorLevel operator || (operator == "in" && style.noIn)
  let noIn := style.noIn && !isWrapped
  wrap isWrapped do
    print { level := leftLevel operator left, noIn } left
    put " "
    if operator == "in" || operator == "instanceof" then putWord operator else putSign operator
    put " "
    print { level := rightLevel operator right, noIn } right

def printUnary (print : Print) (style : Style) (operator : String) (span : Span) (operand : Node) :
    PrintM Unit := do
  wrap (style.level ≥ Level.unary) do
    if isUnaryWord operator then
      spaceBeforeWord
      mark span
      put operator
      put " "
    else
      spaceBeforeSign operator
      mark span
      putSign operator
    print { level := Level.exponent } operand

/-- A step up or down, before or after the place that it changes. -/
def printUpdate (print : Print) (style : Style) (operator : String) (isBefore : Bool) (span : Span)
    (operand : Node) : PrintM Unit := do
  wrap (style.level ≥ (if isBefore then Level.unary else Level.suffix)) do
    if isBefore then
      spaceBeforeSign operator
      mark span
      putSign operator
      print { level := Level.unary } operand
    else
      mark span
      print { level := Level.suffix } operand
      putSign operator

/-- A conditional. Assignments and arrow functions need no parentheses in its branches. -/
def printConditional (print : Print) (style : Style) (test consequent alternative : Node) :
    PrintM Unit := do
  let isWrapped := style.level ≥ Level.conditional
  let noIn := style.noIn && !isWrapped
  wrap isWrapped do
    print { level := Level.conditional, noIn } test
    put " ? "
    print { level := Level.yield } consequent
    put " : "
    print { level := Level.yield, noIn } alternative

def printAssignment (print : Print) (style : Style) (operator : String) (span : Span)
    (target value : Node) : PrintM Unit := do
  let o ← get
  let isPattern := target.form == .objectTarget
  let startsStatement := o.statementStart == o.size || o.arrowStart == o.size
  let isWrapped := style.level ≥ Level.assign || (startsStatement && isPattern)
  wrap isWrapped do
    mark span
    print { level := Level.comma, noIn := style.noIn } target
    put (" " ++ operator ++ " ")
    print { level := Level.comma, noIn := style.noIn && !isWrapped } value

def printYield (print : Print) (style : Style) (delegates : Bool) (span : Span) (value : Node) :
    PrintM Unit := do
  wrap (style.level ≥ Level.assign) do
    spaceBeforeWord
    mark span
    put "yield"
    if delegates then put "*"
    if !value.isAbsent then
      put " "
      print { level := Level.yield } value

/-- The elements of an array pattern or target. A hole at the end needs a comma. -/
def printPatternElements (print : Print) : List Node → PrintM Unit
  | [] => pure ()
  | [n] => do
    print.item n
    if n.isAbsent then put ","
  | n :: rest => do
    print.item n
    put ", "
    printPatternElements print rest

def printArrayPattern (print : Print) (span : Span) (items : List Node) : PrintM Unit := do
  mark span
  put "["
  printPatternElements print items
  put "]"

/-- Members of an object pattern between braces, with room around them or not. -/
def printObjectPattern (print : Print) (room : String) (span : Span) (items : List Node) :
    PrintM Unit := do
  mark span
  put "\x7b"
  if !items.isEmpty then put room
  commaList print.item items
  if !items.isEmpty then put room
  put "\x7d"

/-- Whether a property of a pattern binds the variable of its own name. -/
def bindsOwnName (key value : Node) : Bool :=
  match key, value with
  | .node (.label name) _ _, .node (.binding other) _ _ => name == other
  | .node (.label name) _ _, .node (.reference other) _ _ => name == other
  | .node (.label name) _ _, .node .patternDefault _ (.node (.binding other) _ _ :: _) =>
    name == other
  | _, _ => false

/-- A default behind an equals sign, if there is one. -/
def printDefault (print : Print) (value : Node) : PrintM Unit := do
  if value.isAbsent then pure ()
  else
    put " = "
    print.item value

/-- Prints a node that is an expression, a target or a pattern. -/
def printExpression? (print : Print) (style : Style) : Node → Option (PrintM Unit)
  | .node .absent _ _ => some (pure ())
  | .node (.reference name) span _ => some (printName name span)
  | .node (.binding name) span _ => some (printName name span)
  | .node (.label name) span _ => some do
    mark span
    put name
  | .node (.privateName name) span _ => some do
    put "#"
    mark span
    put name
  | .node .thisValue span _ => some (printName "this" span)
  | .node .superValue span _ => some (printName "super" span)
  | .node .nullLiteral span _ => some (printName "null" span)
  | .node (.boolean value) span _ => some (printName (if value then "true" else "false") span)
  | .node (.number raw) span _ => some (printNumber raw span)
  | .node (.bigInteger raw) span _ => some do
    spaceBeforeWord
    mark span
    put (Text.Numeral.integerSpelling raw)
  | .node (.string value) span _ => some (printString value span)
  | .node (.regex raw) span _ => some do
    mark span
    if (← get).lastChar == '/' then put " "
    put raw
  | .node .template span parts => some (printTemplate print span parts)
  | .node .taggedTemplate span [tag, types, template] => some do
    mark span
    print { level := Level.suffix } tag
    print.plain types
    print.plain template
  | .node .array span items => some (printArray print span items)
  | .node .object span items => some (printObject print span items)
  | .node (.property traits) span [key, value] => some (printProperty print traits span key value)
  | .node .coverDefault _ [name, value] => some do
    print.plain name
    printDefault print value
  | .node .spread span [value] => some do
    mark span
    put "..."
    print.item value
  | .node (.unary op) span [operand] => some (printUnary print style op span operand)
  | .node (.update op isBefore) span [operand] =>
    some (printUpdate print style op isBefore span operand)
  | .node (.binary op) _ [left, right] => some (printBinary print style op left right)
  | .node (.logical op) _ [left, right] => some (printBinary print style op left right)
  | .node .conditional _ [test, consequent, alternative] =>
    some (printConditional print style test consequent alternative)
  | .node (.assignment op) span [target, value] =>
    some (printAssignment print style op span target value)
  | .node .sequence _ items => some do
    wrap (style.level ≥ Level.comma) (commaList print.plain items)
  | .node .awaitValue span [operand] => some do
    wrap (style.level ≥ Level.unary) do
      spaceBeforeWord
      mark span
      put "await "
      print { level := Level.exponent } operand
  | .node (.yieldValue delegates) span [value] => some (printYield print style delegates span value)
  | .node (.call isOptional isPure) span (callee :: types :: items) =>
    some (printCall print style isOptional isPure span callee types items)
  | .node (.construct isPure) span (callee :: types :: items) =>
    some (printConstruct print style isPure span callee types items)
  | .node (.member isOptional) _ [object, name] => some do
    printMemberObject print style object
    printPoint isOptional
    print.plain name
  | .node (.privateMember isOptional) _ [object, name] => some do
    printMemberObject print style object
    put (if isOptional then "?." else ".")
    print.plain name
  | .node (.index isOptional) _ [object, key] => some do
    printMemberObject print style object
    put (if isOptional then "?.[" else "[")
    print.plain key
    put "]"
  | .node .chain _ [inner] => some (wrap (style.level ≥ Level.suffix) (print style inner))
  | .node .importCall span items => some do
    wrap (style.level ≥ Level.construct || style.noCall) do
      spaceBeforeWord
      mark span
      put "import("
      commaList print.item items
      put ")"
  | .node .metaProperty _ [word, property] => some do
    spaceBeforeWord
    print.plain word
    put "."
    print.plain property
  | .node .parenthesized _ [inner] => some (print style inner)
  | .node (.typeAssertion keyword) _ [value, type] => some do
    wrap (style.level ≥ Level.shift) do
      print { level := Level.exponent } value
      put (" " ++ keyword ++ " ")
      print.plain type
  | .node .nonNull _ [value] => some do
    print { level := Level.suffix, noCall := style.noCall } value
    put "!"
  | .node .instantiation _ [value, types] => some do
    print { level := Level.suffix, noCall := style.noCall } value
    print.plain types
  | .node .arrayTarget span items => some (printArrayPattern print span items)
  | .node .objectTarget span items => some (printObjectPattern print "" span items)
  | .node .targetShorthand _ [name, value] => some do
    print.plain name
    printDefault print value
  | .node (.targetProperty isComputed) _ [key, value] => some do
    if isComputed || !bindsOwnName key value then
      printKey print isComputed key
      put ": "
    print.plain value
  | .node .targetDefault _ [target, value] => some do
    print.plain target
    printDefault print value
  | .node .targetRest span [target] => some do
    mark span
    put "..."
    print.plain target
  | .node .arrayPattern span items => some (printArrayPattern print span items)
  | .node .objectPattern span items => some (printObjectPattern print " " span items)
  | .node (.patternProperty isComputed _) _ [key, value] => some do
    if isComputed || !bindsOwnName key value then
      printKey print isComputed key
      put ": "
    print.plain value
  | .node .patternDefault _ [target, value] => some do
    print.plain target
    printDefault print value
  | .node .patternRest span [target] => some do
    mark span
    put "..."
    print.plain target
  | _ => none

end TemplateCompiler.Printer
