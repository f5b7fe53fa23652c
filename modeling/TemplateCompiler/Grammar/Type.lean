import TemplateCompiler.Grammar.Name

namespace TemplateCompiler.Grammar

def typeAnnotation (rules : Rules) (ctx : Context) : Parser Node := do
  if ctx.isTyped && (← atMark ":") then
    advance
    rules { ctx with allowConditionalType := true } .type
  else return .absent

/-- A closing angle of a list of types, which may be the beginning of a longer operator. -/
def closeAngle : Parser Unit := expectMark ">"

def typeArguments (rules : Rules) (ctx : Context) : Parser Node := do
  let start ← position
  expectMark "<"
  let items ← commaItems ">" (rules { ctx with allowConditionalType := true } .type)
  closeAngle
  finish .typeArguments start items

/-- Types in angle brackets, if they come next on the same line. -/
def typeArguments? (rules : Rules) (ctx : Context) : Parser Node := do
  let t ← current
  if ctx.isTyped && t.isMark "<" && !t.newlineBefore then typeArguments rules ctx
  else return .absent

def typeParameter (rules : Rules) (ctx : Context) : Parser Node := do
  let start ← position
  let words ← typeParameterWords 4
  let name ← bindingName { ctx with inAsync := false, inGenerator := false }
  let bound ← if ← eatWord "extends" then rules ctx .type else pure Node.absent
  let fallback ← if ← eatMark "=" then rules ctx .type else pure Node.absent
  finish (.typeParameter words) start [name, bound, fallback]
where
  /-- The words in front of a type parameter's name. -/
  typeParameterWords : Nat → Parser (List String)
    | 0 => return []
    | n + 1 => do
      let t ← current
      let next ← peek
      if t.isWordOf ["const", "in", "out"] && next.kind == .word && !next.isWord "extends" then
        advance
        return t.text :: (← typeParameterWords n)
      else return []

/-- Type parameters in angle brackets, if they come next. -/
def typeParameters? (rules : Rules) (ctx : Context) : Parser Node := do
  if ctx.isTyped && (← atMark "<") then
    let start ← position
    let ctx := { ctx with allowConditionalType := true }
    let items ← bracketed "<" ">" (typeParameter rules ctx)
    finish .typeParameters start items
  else return .absent

/-- The members that follow the first part of a name with dots. -/
def qualified (link : Form) (start : Nat) (first : Node) : Parser Node :=
  extend (fun left => do
    if ← eatMark "." then
      let right ← labelName
      return some (← finish link start [left, right])
    else return none) first

/-- A name with dots, each of which makes a node of the given kind. -/
def dottedName (link : Form) (ctx : Context) : Parser Node := do
  let start ← position
  let first ←
    if ← atWord "this" then takeLeaf fun _ => .thisValue
    else referenceName { ctx with inAsync := false, inGenerator := false }
  qualified link start first

def entityName (ctx : Context) : Parser Node := dottedName .qualifiedName ctx

def typeReference (rules : Rules) (ctx : Context) : Parser Node := do
  let start ← position
  let name ← entityName ctx
  let arguments ← typeArguments? rules ctx
  finish .typeReference start [name, arguments]

def typeParameterItem (rules : Rules) (ctx : Context) : Parser Node := do
  let start ← position
  if ← eatMark "..." then
    let target ← rules ctx .pattern
    let type ← typeAnnotation rules ctx
    finish .restParameter start [target, type]
  else if (← atWord "this") && (← peek).isMark ":" then
    advance
    let type ← typeAnnotation rules ctx
    finish .thisParameter start [type]
  else
    let target ← rules ctx .pattern
    let isOptional ← eatMark "?"
    let type ← typeAnnotation rules ctx
    let value ← if ← eatMark "=" then rules ctx .assignment else pure Node.absent
    finish (.parameter { isOptional }) start [target, type, value]

def typeParameterList (rules : Rules) (ctx : Context) : Parser Node := do
  let start ← position
  let ctx := { ctx with inAsync := false, inGenerator := false, allowConditionalType := true }
  let items ← bracketed "(" ")" (typeParameterItem rules ctx)
  finish .parameters start items

/-- The result of a function: a type, or what the function asserts about a parameter. -/
def resultType (rules : Rules) (ctx : Context) : Parser Node := do
  let start ← position
  let t ← current
  let next ← peek
  if t.isWord "asserts" && !next.newlineBefore && next.kind == .word && !next.isWord "is" then
    advance
    let subject ← predicateSubject
    let type ← if ← eatWord "is" then rules ctx .type else pure Node.absent
    finish (.typePredicate true) start [subject, type]
  else if t.kind == .word && next.isWord "is" && !next.newlineBefore then
    let subject ← predicateSubject
    expectWord "is"
    let type ← rules ctx .type
    finish (.typePredicate false) start [subject, type]
  else rules ctx .type
where
  predicateSubject : Parser Node := do
    if ← atWord "this" then takeLeaf fun _ => .thisValue else labelName

/-- The result type behind a colon, if there is one. -/
def resultAnnotation (rules : Rules) (ctx : Context) : Parser Node := do
  if ctx.isTyped && (← atMark ":") then
    advance
    resultType rules { ctx with allowConditionalType := true }
  else return .absent

def endTypeMember : Parser Unit := do
  if !(← eatMark ",") then
    if !(← eatMark ";") then
      if !(← canInsertSemicolon) then fail .missingSemicolon (← get).previousStop

def signatureParts (rules : Rules) (ctx : Context) : Parser (List Node) := do
  let generics ← typeParameters? rules ctx
  let params ← typeParameterList rules ctx
  let result ← resultAnnotation rules ctx
  return [generics, params, result]

/-- Whether the word that comes next is a modifier of the member behind it. -/
def isMemberModifier : Parser Bool := do
  let next ← peek
  return !(next.isMark ":" || next.isMark "?" || next.isMark "(" || next.isMark "<" ||
    next.isMark ";" || next.isMark "," || next.isMark "\x7d" || next.isMark "=" ||
    next.isMark "!" || next.kind == .eof || next.newlineBefore)

def atIndexSignature : Parser Bool := do
  if !(← atMark "[") then return false
  let name ← peek
  let colon ← peekSecond
  return name.kind == .word && colon.isMark ":"

/-- An index signature without what ends it. -/
def indexSignature (rules : Rules) (ctx : Context) (start : Nat) (modifiers : Modifiers) :
    Parser Node := do
  expectMark "["
  let name ← labelName
  expectMark ":"
  let index ← rules ctx .type
  expectMark "]"
  let type ← typeAnnotation rules ctx
  finish (.indexSignature modifiers) start [name, index, type]

def typeMember (rules : Rules) (ctx : Context) : Parser Node := do
  let start ← position
  let t ← current
  if t.isMark "(" || t.isMark "<" then
    let node ← finish .callSignature start (← signatureParts rules ctx)
    endTypeMember
    return node
  if t.isWord "new" && ((← peek).isMark "(" || (← peek).isMark "<") then
    advance
    let node ← finish .constructSignature start (← signatureParts rules ctx)
    endTypeMember
    return node
  if t.isWordOf ["get", "set"] && (← isMemberModifier) then
    advance
    let (key, isComputed) ← propertyKey rules ctx
    let parts ← signatureParts rules ctx
    let accessor := if t.text == "get" then Accessor.getter else Accessor.setter
    let node ← finish (.methodSignature accessor isComputed false) start (key :: parts)
    endTypeMember
    return node
  let isReadonly ←
    if t.isWord "readonly" && (← isMemberModifier) then advance; pure true else pure false
  if ← atIndexSignature then
    let node ← indexSignature rules ctx start { isReadonly }
    endTypeMember
    return node
  let (key, isComputed) ← propertyKey rules ctx
  let isOptional ← eatMark "?"
  if (← atMark "(") || (← atMark "<") then
    let parts ← signatureParts rules ctx
    let node ← finish (.methodSignature .value isComputed isOptional) start (key :: parts)
    endTypeMember
    return node
  else
    let type ← typeAnnotation rules ctx
    let node ← finish (.propertySignature isComputed { isReadonly, isOptional }) start [key, type]
    endTypeMember
    return node

def objectType (rules : Rules) (ctx : Context) : Parser Node := do
  let start ← position
  expectMark "\x7b"
  let members ← itemsUntil "\x7d" (typeMember rules { ctx with allowConditionalType := true })
  expectMark "\x7d"
  finish .objectType start members

/-- The mark of a mapped type's modifier: nothing, the word or sign itself, or with a sign before
it. -/
def mappedMark (take : Parser Bool) (text : String) : Parser String := do
  if ← eatMark "+" then
    discard take
    return "+" ++ text
  if ← eatMark "-" then
    discard take
    return "-" ++ text
  if ← take then return text else return ""

/-- Whether the brace that comes next opens a mapped type. -/
def atMappedType : Parser Bool := do
  let answer ← lookahead do
    expectMark "\x7b"
    if (← eatMark "+") || (← eatMark "-") then return ← atWord "readonly"
    discard (eatWord "readonly")
    expectMark "["
    discard labelName
    atWord "in"
  return answer.getD false

def mappedType (rules : Rules) (ctx : Context) : Parser Node := do
  let start ← position
  expectMark "\x7b"
  let readonlyMark ← mappedMark (eatWord "readonly") "readonly"
  expectMark "["
  let name ← takeLeaf .binding
  expectWord "in"
  let bound ← rules ctx .type
  let renamed ← if ← eatWord "as" then rules ctx .type else pure Node.absent
  expectMark "]"
  let optionalMark ← mappedMark (eatMark "?") "?"
  let type ← typeAnnotation rules ctx
  discard (eatMark ";")
  expectMark "\x7d"
  finish (.mappedType readonlyMark optionalMark) start [name, bound, renamed, type]

def tupleElement (rules : Rules) (ctx : Context) : Parser Node := do
  let start ← position
  let isNamed ← lookahead do
    discard (eatMark "...")
    discard labelName
    discard (eatMark "?")
    atMark ":"
  if ← eatMark "..." then
    if isNamed.getD false then
      let inner ← named
      finish .restType start [inner]
    else
      let type ← rules ctx .type
      finish .restType start [type]
  else if isNamed.getD false then named
  else
    let type ← rules ctx .type
    if ← eatMark "?" then finish .optionalType start [type] else return type
where
  named : Parser Node := do
    let start ← position
    let name ← labelName
    let isOptional ← eatMark "?"
    expectMark ":"
    let type ← rules ctx .type
    finish (.namedTupleMember isOptional) start [name, type]

def typeKeywords : List String :=
  ["any", "unknown", "never", "void", "null", "undefined", "boolean", "number", "string", "symbol",
   "bigint", "object", "intrinsic", "this"]

/-- A type template: chunks of text with types between them. -/
def templateType (rules : Rules) (ctx : Context) : Parser Node := do
  let start ← position
  if (← current).kind == .templateWhole then
    let chunk ← takeLeaf .chunk
    return .node .templateType chunk.span [chunk]
  let first ← takeLeaf .chunk
  let rest ← many do
    let s ← get
    if s.token.kind == .templateTail then return none
    let type ← rules ctx .type
    if !(← atMark "\x7d") then missing "\x7d"
    rescan Scanner.templateLexeme
    let t ← current
    match t.kind with
    | .templateMiddle =>
      let chunk ← takeLeaf .chunk
      return some (.node .group .synthetic [type, chunk])
    | .templateTail =>
      return some (.node .group .synthetic [type, .leaf (.chunk t.text) ⟨t.start, t.stop⟩])
    | _ => unexpected
  advance
  finish .templateType start (first :: rest.flatMap Node.children)

/-- A type without operators around it. -/
def primaryType (rules : Rules) (ctx : Context) : Parser Node := do
  let start ← position
  let t ← current
  let outer := { ctx with allowConditionalType := true }
  match t.kind with
  | .word =>
    if typeKeywords.contains t.text && !t.isEscaped && !(← peek).isMark "." then
      advance
      finish (.typeKeyword t.text) start []
    else if t.isWordOf ["true", "false"] then
      advance
      finish .literalType start [.leaf (.boolean (t.text == "true")) ⟨t.start, t.stop⟩]
    else if t.isWord "typeof" then
      advance
      if ← atWord "import" then
        let type ← importType
        finish .typeQuery start [type, .absent]
      else
        let name ← entityName ctx
        let arguments ← typeArguments? rules ctx
        finish .typeQuery start [name, arguments]
    else if t.isWord "import" then importType
    else typeReference rules ctx
  | .string => finish .literalType start [← takeLeaf .string]
  | .number => finish .literalType start [← takeLeaf .number]
  | .bigInteger => finish .literalType start [← takeLeaf .bigInteger]
  | .templateWhole => templateType rules outer
  | .templateHead => templateType rules outer
  | _ =>
    if t.isMark "-" then
      advance
      let value ← if (← current).kind == .bigInteger then takeLeaf .bigInteger
        else if (← current).kind == .number then takeLeaf .number else unexpected
      finish .literalType start [.node (.unary "-") ⟨start, value.stop⟩ [value]]
    else if t.isMark "\x7b" then
      if ← atMappedType then mappedType rules outer else objectType rules outer
    else if t.isMark "[" then
      let items ← bracketed "[" "]" (tupleElement rules outer)
      finish .tupleType start items
    else if t.isMark "(" then
      advance
      let type ← rules outer .type
      expectMark ")"
      finish .parenthesizedType start [type]
    else unexpected
where
  importType : Parser Node := do
    let start ← position
    advance
    expectMark "("
    let source ← rules ctx .type
    expectMark ")"
    let qualifier ←
      if ← eatMark "." then qualified .qualifiedName (← position) (← labelName)
      else pure Node.absent
    let arguments ← typeArguments? rules ctx
    finish .importType start [source, qualifier, arguments]

/-- A type followed by brackets: arrays and members of types. -/
def suffixedType (rules : Rules) (ctx : Context) : Parser Node := do
  let start ← position
  let first ← primaryType rules ctx
  extend (fun inner => do
    let t ← current
    if t.isMark "[" && !t.newlineBefore then
      advance
      if ← eatMark "]" then return some (← finish .arrayType start [inner])
      let index ← rules { ctx with allowConditionalType := true } .type
      expectMark "]"
      return some (← finish .indexedAccess start [inner, index])
    else return none) first

def operatorType (rules : Rules) (ctx : Context) : Nat → Parser Node
  | 0 => unexpected
  | n + 1 => do
    let start ← position
    let t ← current
    let next ← peek
    let startsType := next.kind == .word || next.kind == .string || next.kind == .number ||
      next.isMark "(" || next.isMark "[" || next.isMark "\x7b"
    if t.isWordOf ["keyof", "unique", "readonly"] && startsType && !next.newlineBefore then
      advance
      let inner ← operatorType rules ctx n
      finish (.typeOperator t.text) start [inner]
    else if t.isWord "infer" && next.isVariable then
      advance
      let parameterStart ← position
      let name ← bindingName ctx
      let bound ← attempt? do
        if !ctx.allowConditionalType && (← eatWord "extends") then
          let bound ← rules { ctx with allowConditionalType := false } .type
          if ← atMark "?" then return none
          return some bound
        else return none
      let parameter ← finish (.typeParameter []) parameterStart [name, bound.getD .absent, .absent]
      finish .inferType start [parameter]
    else suffixedType rules ctx

/-- Whether a function type comes next: a list of parameters and then an arrow. -/
def atFunctionType (rules : Rules) (ctx : Context) : Parser Bool := do
  let t ← current
  if t.isMark "<" then return true
  if !t.isMark "(" then return false
  let answer ← lookahead do
    discard (typeParameterList rules ctx)
    atMark "=>"
  return answer.getD false

def functionType (rules : Rules) (ctx : Context) (form : Form) (start : Nat) : Parser Node := do
  let generics ← typeParameters? rules ctx
  let params ← typeParameterList rules ctx
  expectMark "=>"
  let result ← resultType rules ctx
  finish form start [generics, params, result]

/-- Types joined by an operator, with an optional one in front. -/
def joinedType (mark : String) (form : Form) (item : Parser Node) : Parser Node := do
  let start ← position
  let leads ← eatMark mark
  let first ← item
  if leads || (← atMark mark) then
    let rest ← many do
      if ← eatMark mark then return some (← item) else return none
    finish form start (first :: rest)
  else return first

/-- A type without a condition on it. -/
def unionType (rules : Rules) (ctx : Context) : Parser Node := do
  let limit ← stepLimit
  let item := do
    if ← atFunctionType rules ctx then
      functionType rules ctx .functionType (← position)
    else operatorType rules ctx limit
  joinedType "|" .unionType (joinedType "&" .intersectionType item)

def typeRule (rules : Rules) (ctx : Context) : Parser Node := do
  let start ← position
  let t ← current
  if ← atFunctionType rules ctx then
    functionType rules ctx .functionType start
  else if t.isWord "new" then
    advance
    functionType rules ctx (.constructorType false) start
  else if t.isWord "abstract" && (← peek).isWord "new" then
    advance
    advance
    functionType rules ctx (.constructorType true) start
  else
    let checked ← unionType rules ctx
    let t ← current
    if ctx.allowConditionalType && t.isWord "extends" && !t.newlineBefore then
      advance
      let bound ← rules { ctx with allowConditionalType := false } .type
      expectMark "?"
      let consequent ← rules ctx .type
      expectMark ":"
      let alternative ← rules ctx .type
      finish .conditionalType start [checked, bound, consequent, alternative]
    else return checked

end TemplateCompiler.Grammar
