import TemplateCompiler.Grammar.Declaration

namespace TemplateCompiler.Grammar

/-- The attributes behind the source of an import or export. -/
def moduleAttributes : Parser Node := do
  let t ← current
  if t.isWord "with" || (t.isWord "assert" && !t.newlineBefore) then
    advance
    let items ← bracketed "\x7b" "\x7d" do
      let start ← position
      let key ← moduleName
      expectMark ":"
      let value ← stringLiteral
      finish .importAttribute start [key, value]
    finish (.importAttributes t.text) t.start items
  else return .absent

def moduleSource : Parser Node := do
  expectWord "from"
  stringLiteral

/-- Whether the word `type` comes next in front of a name. It is the name itself if it stands alone
or is renamed: `type`, `type as x`, `type as as`; and in front of one in `type x`, `type as`,
`type as as x`. -/
def atTypeModifier : Parser Bool := do
  if !(← atWord "type") then return false
  let next ← peek
  if next.isWord "as" then
    let second ← peekSecond
    if second.isWord "as" then
      let third ← lookahead do
        advance
        peekSecond
      return (third.map fun t => t.kind == .word || t.kind == .string).getD false
    return second.kind != .word && second.kind != .string
  return next.kind == .word || next.kind == .string

/-- A name in braces of an import or export, and the name behind `as`; `true` if the word `type`
stands in front of it. -/
def moduleSpecifier (isTyped : Bool) : Parser (Bool × Node × Option Node) := do
  let isType ← if isTyped && (← atTypeModifier) then advance; pure true else pure false
  let name ← moduleName
  if ← eatWord "as" then
    let other ← moduleName
    return (isType, name, some other)
  else return (isType, name, none)

def asBinding : Node → Node
  | .node (.label name) span _ => .leaf (.binding name) span
  | n => n

def asReference : Node → Node
  | .node (.label name) span _ => .leaf (.reference name) span
  | n => n

/-- A name in the braces of an import, and the variable that it becomes. -/
def importSpecifier (ctx : Context) : Parser Node := do
  let start ← position
  let (isType, imported, renamed) ← moduleSpecifier ctx.isTyped
  let renamed := (renamed.getD imported)
  finish (.importSpecifier isType) start [imported, asBinding renamed]

/-- The specifiers of an import: a default, and a namespace or names in braces. -/
def importSpecifiers (ctx : Context) : Parser (List Node) := do
  if (← current).isVariable then
    let name ← bindingName ctx
    let default := Node.node .importDefault name.span [name]
    if ← eatMark "," then return default :: (← others)
    return [default]
  else others
where
  others : Parser (List Node) := do
    let start ← position
    if ← eatMark "*" then
      expectWord "as"
      let name ← bindingName ctx
      return [← finish .importNamespace start [name]]
    else if !(← atMark "\x7b") then unexpected
    else bracketed "\x7b" "\x7d" (importSpecifier ctx)

/-- Whether the word `type` behind `import` is a modifier. -/
def atTypeImport : Parser Bool := do
  if !(← atWord "type") then return false
  let next ← peek
  let second ← peekSecond
  if next.isMark "\x7b" || next.isMark "*" then return true
  if next.isVariable then return !next.isWord "from" || second.isWord "from" || second.isMark "="
  return false

/-- What a name is imported as: `import a = require("m")`, `import a = b.c`. -/
def importEquals (ctx : Context) (start : Nat) (isType : Bool) : Parser Node := do
  let name ← bindingName ctx
  expectMark "="
  let valueStart ← position
  let value ←
    if (← atWord "require") && (← peek).isMark "(" then
      advance
      advance
      let source ← stringLiteral
      expectMark ")"
      finish .externalModule valueStart [source]
    else entityName ctx
  endStatement
  finish (.importEquals isType) start [name, value]

def importDeclaration (ctx : Context) : Parser Node := do
  let start ← position
  expectWord "import"
  if (← current).kind == .string then
    let source ← stringLiteral
    let attributes ← moduleAttributes
    endStatement
    return ← finish (.importDeclaration false) start [.absent, source, attributes]
  let isType ← if ctx.isTyped && (← atTypeImport) then advance; pure true else pure false
  if ctx.isTyped && (← current).isVariable && (← peek).isMark "=" then
    return ← importEquals ctx start isType
  let specifiers ← importSpecifiers ctx
  let source ← moduleSource
  let attributes ← moduleAttributes
  endStatement
  finish (.importDeclaration isType) start [.node .group .synthetic specifiers, source, attributes]

def exportSpecifier (ctx : Context) : Parser Node := do
  let start ← position
  let (isType, name, renamed) ← moduleSpecifier ctx.isTyped
  finish (.exportSpecifier isType) start [name, renamed.getD name]

/-- A specifier of an export without a source names a variable of this module. -/
def localSpecifier : Node → Node
  | .node f span [name, exported] => .node f span [asReference name, exported]
  | n => n

/-- Names in braces, exported from here or from another module. -/
def exportNames (ctx : Context) (start : Nat) (isType : Bool) : Parser Node := do
  let items ← bracketed "\x7b" "\x7d" (exportSpecifier ctx)
  if ← atWord "from" then
    let source ← moduleSource
    let attributes ← moduleAttributes
    endStatement
    finish (.exportNamed isType) start [.absent, .node .group .synthetic items, source, attributes]
  else
    endStatement
    finish (.exportNamed isType) start
      [.absent, .node .group .synthetic (items.map localSpecifier), .absent, .absent]

/-- The rest of an export that starts with an asterisk. -/
def exportAll (start : Nat) (isType : Bool) : Parser Node := do
  expectMark "*"
  let name ← if ← eatWord "as" then moduleName else pure Node.absent
  let source ← moduleSource
  let attributes ← moduleAttributes
  endStatement
  finish (.exportAll isType) start [name, source, attributes]

def exportDefault (rules : Rules) (ctx : Context) (start : Nat) : Parser Node := do
  expectWord "default"
  let t ← current
  let value ←
    if ← atFunction then functionRule rules ctx true true false
    else if t.isWord "class" then classRule rules ctx t.start true {}
    else if ctx.isTyped && t.isWord "abstract" && (← peek).isWord "class" then
      advance
      classRule rules ctx t.start true { isAbstract := true }
    else if ctx.isTyped && t.isWord "interface" && (← peek).isVariable then
      interfaceRule rules ctx t.start false
    else
      let value ← rules ctx .assignment
      endStatement
      pure value
  finish .exportDefault start [value]

def exportedDeclaration (rules : Rules) (ctx : Context) : Parser Node := do
  let start ← position
  let t ← current
  if ctx.isTyped && (← atTypeDeclaration 4) then typeDeclaration rules ctx start
  else if t.isWordOf ["var", "const", "let"] then variableStatement rules ctx start false
  else if ← atFunction then functionRule rules ctx true false false
  else if t.isWord "class" then classRule rules ctx start true {}
  else if ctx.isTyped && t.isWord "import" then
    advance
    let isType ← if ← atTypeImport then advance; pure true else pure false
    importEquals ctx start isType
  else unexpected

def exportDeclaration (rules : Rules) (ctx : Context) : Parser Node := do
  let start ← position
  expectWord "export"
  let t ← current
  if t.isMark "*" then exportAll start false
  else if t.isMark "\x7b" then exportNames ctx start false
  else if t.isWord "default" then exportDefault rules ctx start
  else if ctx.isTyped && t.isMark "=" then
    advance
    let value ← rules ctx .expression
    endStatement
    finish .exportAssignment start [value]
  else if ctx.isTyped && t.isWord "as" && (← peek).isWord "namespace" then
    advance
    advance
    let name ← labelName
    endStatement
    finish .namespaceExport start [name]
  else if ctx.isTyped && t.isWord "type" && ((← peek).isMark "\x7b" || (← peek).isMark "*") then
    advance
    if ← atMark "*" then exportAll start true else exportNames ctx start true
  else
    let declaration ← exportedDeclaration rules ctx
    finish (.exportNamed false) start
      [declaration, .node .group .synthetic [], .absent, .absent]

end TemplateCompiler.Grammar
