import TemplateCompiler.Grammar.Class

namespace TemplateCompiler.Grammar

/-- A variable with its type and initial value. `checks` if it has to have a value when the keyword
or the pattern asks for one. -/
def declarator (rules : Rules) (ctx : Context) (kind : VariableKind) (checks : Bool) :
    Parser Node := do
  let start ← position
  let target ← rules ctx .pattern
  let isDefinite ← if ctx.isTyped && (← atMark "!") then advance; pure true else pure false
  let type ← typeAnnotation rules ctx
  let value ← if ← eatMark "=" then rules ctx .assignment else pure Node.absent
  let node ← finish (.declarator isDefinite) start [target, type, value]
  if checks && value.isAbsent && !ctx.isAmbient then
    match target with
    | .node .arrayPattern _ _ => report .missingPatternInitializer target.start
    | .node .objectPattern _ _ => report .missingPatternInitializer target.start
    | _ => if kind == .constVar then report .missingInitializer target.start
  return node

def variableKind : Parser VariableKind := do
  if ← eatWord "const" then return .constVar
  if ← eatWord "let" then return .letVar
  expectWord "var"
  return .var

/-- The variables behind a keyword, without what ends the declaration. -/
def variableList (rules : Rules) (ctx : Context) (start : Nat) (isDeclared checks : Bool) :
    Parser Node := do
  let kind ← variableKind
  let items ← commaSeparated (declarator rules ctx kind checks)
  finish (.variableDeclaration kind isDeclared) start items

def variableStatement (rules : Rules) (ctx : Context) (start : Nat) (isDeclared : Bool) :
    Parser Node := do
  let node ← variableList rules ctx start isDeclared true
  endStatement
  return node.withSpan (← spanFrom start)

/-- Whether `let` comes next as a keyword: a name or a pattern follows it. -/
def atLet : Parser Bool := do
  if !(← atWord "let") then return false
  let next ← peek
  return next.isMark "[" || next.isMark "\x7b" || next.isVariable

def typeAlias (rules : Rules) (ctx : Context) (start : Nat) (isDeclared : Bool) : Parser Node := do
  expectWord "type"
  let name ← bindingName ctx
  let generics ← typeParameters? rules ctx
  expectMark "="
  let type ← rules ctx .type
  endStatement
  finish (.typeAlias isDeclared) start [name, generics, type]

def interfaceRule (rules : Rules) (ctx : Context) (start : Nat) (isDeclared : Bool) :
    Parser Node := do
  expectWord "interface"
  let name ← bindingName ctx
  let generics ← typeParameters? rules ctx
  let supertypes ←
    if ← eatWord "extends" then commaSeparated (heritageItem (.member false) rules ctx) else pure []
  let body ← objectType rules ctx
  finish (.interface isDeclared) start [name, generics, .node .group .synthetic supertypes, body]

def enumMember (rules : Rules) (ctx : Context) : Parser Node := do
  let start ← position
  let (key, isComputed) ← propertyKey rules ctx
  let value ← if ← eatMark "=" then rules ctx .assignment else pure Node.absent
  finish (.enumMember isComputed) start [key, value]

def enumeration (rules : Rules) (ctx : Context) (start : Nat) (isDeclared : Bool) :
    Parser Node := do
  let isConst ← eatWord "const"
  expectWord "enum"
  let name ← bindingName ctx
  let members ← bracketed "\x7b" "\x7d" (enumMember rules ctx)
  finish (.enumeration isDeclared isConst) start (name :: members)

def moduleBodyRule (rules : Rules) (ctx : Context) : Parser Node := do
  let start ← position
  expectMark "\x7b"
  let items ← bodyItems rules ctx (some "\x7d") true (← stepLimit)
  expectMark "\x7d"
  finish .moduleBlock start items

/-- A namespace, whose dotted name stands for nested ones. -/
def moduleDeclaration (rules : Rules) (ctx : Context) (start : Nat) (isDeclared : Bool) :
    Parser Node := do
  let keyword ← current
  if !keyword.isWord "global" then advance
  let t ← current
  let name ←
    if t.kind == .string then stringLiteral
    else if keyword.isWord "global" then takeLeaf .label
    else
      let first ← bindingName ctx
      extend (fun left => do
        if ← eatMark "." then
          let right ← takeLeaf .binding
          return some (← finish .qualifiedName left.start [left, right])
        else return none) first
  let body ← if ← atMark "\x7b" then rules ctx .moduleBody
    else
      endStatement
      pure Node.absent
  finish (.moduleDeclaration keyword.text isDeclared) start [name, body]

/-- Whether a declaration that only a typed source has comes next. `depth` words such as `declare`
may stand in front of it. -/
def atTypeDeclaration : Nat → Parser Bool
  | 0 => return false
  | n + 1 => do
    let t ← current
    let next ← peek
    if t.kind != .word || t.isEscaped then return false
    if next.newlineBefore && t.text != "enum" then return false
    match t.text with
    | "type" => return next.isVariable
    | "interface" => return next.isVariable
    | "namespace" => return next.isVariable || next.kind == .string
    | "module" => return next.isVariable || next.kind == .string
    | "global" => return next.isMark "\x7b"
    | "enum" => return next.isVariable
    | "const" => return next.isWord "enum"
    | "abstract" => return next.isWord "class"
    | "declare" =>
      if next.isWordOf ["const", "let", "var", "function", "class", "async", "import"] then
        return true
      let answer ← lookahead do
        advance
        atTypeDeclaration n
      return answer.getD false
    | _ => return false

/-- A declaration that only a typed source has, or a plain one behind `declare`. -/
def typeDeclaration (rules : Rules) (ctx : Context) (start : Nat) : Parser Node := do
  let isDeclared ← eatWord "declare"
  let ctx := if isDeclared then { ctx with isAmbient := true } else ctx
  let t ← current
  if t.isWord "type" then typeAlias rules ctx start isDeclared
  else if t.isWord "interface" then interfaceRule rules ctx start isDeclared
  else if t.isWord "enum" then enumeration rules ctx start isDeclared
  else if t.isWord "const" && (← peek).isWord "enum" then enumeration rules ctx start isDeclared
  else if t.isWordOf ["namespace", "module", "global"] then
    moduleDeclaration rules ctx start isDeclared
  else if t.isWord "abstract" then
    advance
    classRule rules ctx start true { isAbstract := true, isDeclared }
  else if t.isWord "class" then classRule rules ctx start true { isDeclared }
  else if ← atFunction then
    let node ← functionRule rules ctx true false isDeclared
    return node.withSpan (← spanFrom start)
  else variableStatement rules ctx start isDeclared

end TemplateCompiler.Grammar
