import TemplateCompiler.Grammar.Pattern

namespace TemplateCompiler.Grammar

/-- The words in front of a parameter that make it a property as well. -/
def parameterModifiers : Nat → Modifiers → Parser Modifiers
  | 0, m => return m
  | n + 1, m => do
    let t ← current
    let next ← peek
    if next.kind == .word || next.isMark "\x7b" || next.isMark "[" then
      let next? :=
        if t.isWord "public" then some { m with access := some .everyone }
        else if t.isWord "protected" then some { m with access := some .heirs }
        else if t.isWord "private" then some { m with access := some .owner }
        else if t.isWord "readonly" then some { m with isReadonly := true }
        else if t.isWord "override" then some { m with isOverride := true }
        else none
      match next? with
      | some m =>
        advance
        parameterModifiers n m
      | none => return m
    else return m

def parameter (rules : Rules) (ctx : Context) : Parser Node := do
  let start ← position
  if ← eatMark "..." then
    let target ← rules ctx .pattern
    let type ← typeAnnotation rules ctx
    let node ← finish .restParameter start [target, type]
    if ← atMark "," then report .lastRest start
    return node
  if ctx.isTyped && (← atWord "this") then
    advance
    let type ← typeAnnotation rules ctx
    return ← finish .thisParameter start [type]
  let modifiers ← if ctx.isTyped then parameterModifiers 4 {} else pure {}
  let target ← rules ctx .pattern
  let isOptional ← if ctx.isTyped then eatMark "?" else pure false
  let type ← typeAnnotation rules ctx
  let value ← if ← eatMark "=" then rules { ctx with allowIn := true } .assignment
    else pure Node.absent
  finish (.parameter { modifiers with isOptional }) start [target, type, value]

def parameterList (rules : Rules) (ctx : Context) : Parser Node := do
  let start ← position
  let items ← bracketed "(" ")" (parameter rules { ctx with allowIn := true })
  finish .parameters start items

/-- What stands between the quotes of the string that the text starts with. -/
def rawString : List Char → String
  | [] => ""
  | quote :: cs => String.ofList (((Scanner.stringContent quote false cs).map Prod.fst).getD [])

/-- A statement that is nothing but a string. -/
def directive? (raw : String) : Node → Option Node
  | .node .expressionStatement span [.node (.string _) _ _] => some (.leaf (.directive raw) span)
  | _ => none

/-- The statements up to `close` or the end. Strings that come before all else are directives. -/
def bodyItems (rules : Rules) (ctx : Context) (close : Option String) (isPrologue : Bool) :
    Nat → Parser (List Node)
  | 0 => return []
  | n + 1 => do
    let s ← get
    let isOver := s.token.kind == .eof || (close.map s.token.isMark).getD false
    if isOver then return []
    let raw := rawString s.here
    let statement ← rules ctx .statement
    match if isPrologue then directive? raw statement else none with
    | some d => return d :: (← bodyItems rules ctx close true n)
    | none => return statement :: (← bodyItems rules ctx close false n)

def functionBodyRule (rules : Rules) (ctx : Context) : Parser Node := do
  let start ← position
  expectMark "\x7b"
  let ctx := { ctx with allowIn := true, inFunction := true }
  let items ← bodyItems rules ctx (some "\x7d") true (← stepLimit)
  expectMark "\x7d"
  finish .body start items

def functionRest (rules : Rules) (ctx : Context) (start : Nat) (traits : FunctionTraits)
    (name : Node) : Parser Node := do
  let ctx := { ctx with inAsync := traits.isAsync, inGenerator := traits.isGenerator }
  let generics ← typeParameters? rules ctx
  let params ← parameterList rules ctx
  let result ← resultAnnotation rules ctx
  if (← atMark "\x7b") || !ctx.isTyped then
    let body ← rules ctx .functionBody
    finish (.function traits) start [name, generics, params, result, body]
  else
    endStatement
    finish (.function traits) start [name, generics, params, result, .absent]

def functionRule (rules : Rules) (ctx : Context) (isDeclaration isDefault : Bool)
    (isDeclared : Bool) : Parser Node := do
  let start ← position
  let isAsync ← eatWord "async"
  expectWord "function"
  let isGenerator ← eatMark "*"
  let traits : FunctionTraits := { isDeclaration, isAsync, isGenerator, isDeclared }
  let name ←
    if (← current).isVariable then
      bindingName (if isDeclaration then ctx
        else { ctx with inAsync := isAsync, inGenerator := isGenerator })
    else
      if isDeclaration && !isDefault then report .functionName (← position)
      pure Node.absent
  functionRest rules ctx start traits name

def methodFunction (rules : Rules) (ctx : Context) (isAsync isGenerator : Bool) : Parser Node := do
  functionRest rules ctx (← position) { isAsync, isGenerator } .absent

/-- Whether a function with the keyword comes next, counting `async` in front of it. -/
def atFunction : Parser Bool := do
  let t ← current
  if t.isWord "function" then return true
  if !t.isWord "async" then return false
  let next ← peek
  return next.isWord "function" && !next.newlineBefore

/-- Whether the key of a member can start with the token. -/
def startsKey (t : Token) : Bool :=
  t.kind == .word || t.kind == .string || t.kind == .number || t.kind == .bigInteger ||
  t.kind == .privateName || t.isMark "["

end TemplateCompiler.Grammar
