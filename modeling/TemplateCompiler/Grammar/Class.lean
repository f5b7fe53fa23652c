import TemplateCompiler.Grammar.Function

namespace TemplateCompiler.Grammar

/-- The modifier that a word is, added to the ones before it. -/
def addModifier (isTyped : Bool) (m : Modifiers) (t : Token) : Option Modifiers :=
  if t.isWord "static" then some { m with isStatic := true }
  else if !isTyped then none
  else if t.isWord "public" then some { m with access := some .everyone }
  else if t.isWord "protected" then some { m with access := some .heirs }
  else if t.isWord "private" then some { m with access := some .owner }
  else if t.isWord "abstract" then some { m with isAbstract := true }
  else if t.isWord "override" then some { m with isOverride := true }
  else if t.isWord "readonly" then some { m with isReadonly := true }
  else if t.isWord "declare" then some { m with isDeclared := true }
  else none

/-- The words in front of a class member. A word that a name's continuation follows is the name. -/
def memberModifiers (isTyped : Bool) : Nat → Modifiers → Parser Modifiers
  | 0, m => return m
  | n + 1, m => do
    let t ← current
    match addModifier isTyped m t with
    | none => return m
    | some more =>
      let next ← peek
      let isModifier := startsKey next || next.isMark "*" || next.isMark "\x7b"
      if isModifier && (t.isWord "static" || !next.newlineBefore) then
        advance
        memberModifiers isTyped n more
      else return m

def classMember (rules : Rules) (ctx : Context) : Parser Node := do
  let start ← position
  let inner := { ctx with inFunction := false, inAsync := false, inGenerator := false }
  if (← atWord "static") && (← peek).isMark "\x7b" then
    advance
    expectMark "\x7b"
    let statements ← itemsUntil "\x7d" (rules { inner with inAsync := true } .statement)
    expectMark "\x7d"
    return ← finish .staticBlock start statements
  let modifiers ← memberModifiers ctx.isTyped 8 {}
  if ctx.isTyped && (← atIndexSignature) then
    let node ← indexSignature rules ctx start modifiers
    endTypeMember
    return node
  let t ← current
  let next ← peek
  let isPlainWord := t.isWord "async" && (startsKey next || next.isMark "*") && !next.newlineBefore
  let isAsync ← if isPlainWord then advance; pure true else pure false
  let isGenerator ← eatMark "*"
  let t ← current
  let next ← peek
  let accessor ←
    if !isAsync && !isGenerator && t.isWordOf ["get", "set"] && startsKey next then
      advance
      pure (if t.text == "get" then Accessor.getter else Accessor.setter)
    else pure .value
  let isAccessor ←
    if accessor == .value && t.isWord "accessor" && startsKey next && !next.newlineBefore then
      advance
      pure true
    else pure false
  let (key, isComputed) ← propertyKey rules ctx
  let isOptional ← if ctx.isTyped then eatMark "?" else pure false
  let isDefinite ← if ctx.isTyped then eatMark "!" else pure false
  let modifiers := { modifiers with isOptional, isDefinite }
  if (← atMark "(") || (← atMark "<") || isAsync || isGenerator || accessor != .value then
    let value ← methodFunction rules ctx isAsync isGenerator
    finish (.method accessor isComputed modifiers) start [key, value]
  else
    let type ← typeAnnotation rules ctx
    let value ← if ← eatMark "=" then rules { inner with allowIn := true } .assignment
      else pure Node.absent
    endStatement
    finish (.field isAccessor isComputed modifiers) start [key, type, value]

def classBody (rules : Rules) (ctx : Context) : Parser Node := do
  let start ← position
  expectMark "\x7b"
  let members ← itemsUntil "\x7d" do
    if ← eatMark ";" then return .absent
    classMember rules ctx
  expectMark "\x7d"
  finish .classBody start (members.filter (!·.isAbsent))

/-- An interface that a class or another interface is declared to have. A class names a type; what
an interface extends is an expression, so that its dots are member accesses. -/
def heritageItem (link : Form) (rules : Rules) (ctx : Context) : Parser Node := do
  let start ← position
  let name ← dottedName link ctx
  let arguments ← typeArguments? rules ctx
  finish .heritage start [name, arguments]

/-- Several items with commas between them, without brackets. -/
def commaSeparated (item : Parser Node) : Parser (List Node) := do
  let first ← item
  let rest ← many do
    if ← eatMark "," then return some (← item) else return none
  return first :: rest

/-- The class that another one extends, and the type arguments of it. -/
def superclass (rules : Rules) (ctx : Context) : Parser (Node × Node) := do
  if ← eatWord "extends" then
    let base ← rules ctx .unary
    match base with
    | .node .instantiation _ [inner, arguments] => return (inner, arguments)
    | base =>
      let arguments ← typeArguments? rules ctx
      return (base, arguments)
  else return (.absent, .absent)

def classRule (rules : Rules) (ctx : Context) (start : Nat) (isDeclaration : Bool)
    (modifiers : Modifiers) : Parser Node := do
  expectWord "class"
  let t ← current
  let isNamed := t.isVariable && !(t.isWord "implements" && (← peek).kind == .word)
  let name ← if isNamed then bindingName ctx else pure Node.absent
  let generics ← typeParameters? rules ctx
  let (base, arguments) ← superclass rules ctx
  let interfaces ←
    if ctx.isTyped && (← eatWord "implements") then
      commaSeparated (heritageItem .qualifiedName rules ctx)
    else pure []
  let body ← classBody rules ctx
  finish (.classDefinition isDeclaration modifiers) start
    [name, generics, base, arguments, .node .group .synthetic interfaces, body]

end TemplateCompiler.Grammar
