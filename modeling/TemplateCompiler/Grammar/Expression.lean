import TemplateCompiler.Grammar.Arrow
import TemplateCompiler.Grammar.Literal
import TemplateCompiler.Grammar.Markup
import TemplateCompiler.Grammar.Operator

namespace TemplateCompiler.Grammar

/-- Marks a function that is written in parentheses of its own. -/
def noteParentheses : Node → Node
  | .node (.arrow t) span parts => .node (.arrow { t with isParenthesized := true }) span parts
  | .node (.function t) span parts =>
    .node (.function { t with isParenthesized := true }) span parts
  | n => n

def parenthesized (rules : Rules) (ctx : Context) : Parser Node := do
  let start ← position
  expectMark "("
  let innerStart ← position
  if ← atMark ")" then unexpected
  let items ← commaItems ")" (rules { ctx with allowIn := true } .assignment)
  let inner ←
    match items with
    | [item] => pure (noteParentheses item)
    | items => finish .sequence innerStart items
  expectMark ")"
  finish .parenthesized start [inner]

def argument (rules : Rules) (ctx : Context) : Parser Node := do
  if ← atMark "..." then spreadItem rules ctx else rules ctx .assignment

def arguments (rules : Rules) (ctx : Context) : Parser (List Node) :=
  bracketed "(" ")" (argument rules { ctx with allowIn := true })

def importExpression (rules : Rules) (ctx : Context) : Parser Node := do
  let start ← position
  let word ← takeLeaf .label
  if ← eatMark "." then
    let property ← labelName
    finish .metaProperty start [word, property]
  else
    let items ← arguments rules ctx
    finish .importCall start items

def newExpression (rules : Rules) (ctx : Context) : Parser Node := do
  let start ← position
  let word ← takeLeaf .label
  if ← eatMark "." then
    let property ← labelName
    finish .metaProperty start [word, property]
  else
    let callee ← rules ctx .callee
    let items ← if ← atMark "(" then arguments rules ctx else pure []
    match callee with
    | .node .instantiation _ [callee, types] =>
      finish (.construct false) start (callee :: types :: items)
    | callee => finish (.construct false) start (callee :: .absent :: items)

def primary (rules : Rules) (ctx : Context) : Parser Node := do
  let t ← current
  match t.kind with
  | .number => takeLeaf .number
  | .bigInteger => takeLeaf .bigInteger
  | .string => takeLeaf .string
  | .templateWhole => templateLiteral rules ctx
  | .templateHead => templateLiteral rules ctx
  | .punctuator =>
    if t.text == "(" then parenthesized rules ctx
    else if t.text == "[" then arrayLiteral rules ctx
    else if t.text == "\x7b" then objectLiteral rules ctx
    else if t.text == "/" || t.text == "/=" then
      rescan Scanner.regexLexeme
      if (← current).kind == .regex then takeLeaf .regex else unexpected
    else unexpected
  | .word =>
    if t.isEscaped then referenceName ctx
    else if t.text == "this" then takeLeaf fun _ => .thisValue
    else if t.text == "super" then takeLeaf fun _ => .superValue
    else if t.text == "null" then takeLeaf fun _ => .nullLiteral
    else if t.text == "true" || t.text == "false" then
      takeLeaf fun text => .boolean (text == "true")
    else if ← atFunction then functionRule rules ctx false false false
    else if t.text == "class" then classRule rules ctx t.start false {}
    else if t.text == "new" then newExpression rules ctx
    else if t.text == "import" then importExpression rules ctx
    else referenceName ctx
  | _ => unexpected

/-- Whether type arguments may end an expression before the current token. -/
def canFollowTypeArguments : Parser Bool := do
  let t ← current
  if t.isMark "(" || t.kind == .templateWhole || t.kind == .templateHead then return true
  if t.isMark "<" || t.isMark ">" || t.isMark "+" || t.isMark "-" then return false
  if t.newlineBefore || (bindingLevel? t).isSome then return true
  let startsExpression :=
    t.kind == .word || t.kind == .number || t.kind == .string || t.kind == .bigInteger ||
    t.kind == .regex || t.kind == .privateName || t.isMark "[" || t.isMark "\x7b" ||
    t.isMark "!" || t.isMark "~" || t.isMark "++" || t.isMark "--" || t.isMark "/" ||
    t.isMark "/=" || t.isMark "@"
  return !startsExpression

/-- Type arguments inside an expression, if the angle that comes next opens some. -/
def expressionTypeArguments? (rules : Rules) (ctx : Context) : Parser (Option Node) := do
  if !ctx.isTyped || !(← atMark "<") then return none
  attempt? do
    let types ← typeArguments rules ctx
    if ← canFollowTypeArguments then return some types else return none

def optionalSuffix (rules : Rules) (ctx : Context) (start : Nat) (object : Node) : Parser Node := do
  let t ← current
  if t.isMark "(" then
    let items ← arguments rules ctx
    finish (.call true false) start (object :: .absent :: items)
  else if t.isMark "[" then
    advance
    let key ← rules { ctx with allowIn := true } .expression
    expectMark "]"
    finish (.index true) start [object, key]
  else if t.kind == .privateName then
    let name ← privateName
    finish (.privateMember true) start [object, name]
  else if ctx.isTyped && t.isMark "<" then
    let types ← typeArguments rules ctx
    let items ← arguments rules ctx
    finish (.call true false) start (object :: types :: items)
  else
    let name ← labelName
    finish (.member true) start [object, name]

/-- One more member access, call or template behind an expression. -/
def suffix? (rules : Rules) (ctx : Context) (allowCalls : Bool) (start : Nat) (object : Node) :
    Parser (Option Node) := do
  let t ← current
  match t.kind with
  | .templateWhole => return some (← tagged .absent)
  | .templateHead => return some (← tagged .absent)
  | .punctuator =>
    if t.text == "." then
      advance
      if (← current).kind == .privateName then
        let name ← privateName
        return some (← finish (.privateMember false) start [object, name])
      let name ← labelName
      return some (← finish (.member false) start [object, name])
    else if t.text == "?." then
      if !allowCalls then unexpected
      advance
      return some (← optionalSuffix rules ctx start object)
    else if t.text == "[" then
      advance
      let key ← rules { ctx with allowIn := true } .expression
      expectMark "]"
      return some (← finish (.index false) start [object, key])
    else if t.text == "(" then
      if !allowCalls then return none
      let items ← arguments rules ctx
      return some (← finish (.call false false) start (object :: .absent :: items))
    else if t.text == "!" && ctx.isTyped && !t.newlineBefore then
      advance
      return some (← finish .nonNull start [object])
    else if t.text == "<" && ctx.isTyped then
      match ← expressionTypeArguments? rules ctx with
      | none => return none
      | some types =>
        let t ← current
        if t.kind == .templateWhole || t.kind == .templateHead then return some (← tagged types)
        if t.isMark "(" && allowCalls then
          let items ← arguments rules ctx
          return some (← finish (.call false false) start (object :: types :: items))
        return some (← finish .instantiation start [object, types])
    else return none
  | _ => return none
where
  tagged (types : Node) : Parser Node := do
    let template ← templateLiteral rules ctx
    finish .taggedTemplate start [object, types, template]

/-- Whether an optional link stands on the way to the object that members are taken of. -/
def hasOptionalLink : Node → Bool
  | .node (.member isOptional) _ (object :: _) => isOptional || hasOptionalLink object
  | .node (.index isOptional) _ (object :: _) => isOptional || hasOptionalLink object
  | .node (.privateMember isOptional) _ (object :: _) => isOptional || hasOptionalLink object
  | .node (.call isOptional _) _ (object :: _) => isOptional || hasOptionalLink object
  | .node .nonNull _ (object :: _) => hasOptionalLink object
  | _ => false

def leftHand (rules : Rules) (ctx : Context) : Parser Node := do
  let start ← position
  let base ← primary rules ctx
  let node ← extend (suffix? rules ctx true start) base
  if hasOptionalLink node then return .node .chain node.span [node] else return node

def calleeRule (rules : Rules) (ctx : Context) : Parser Node := do
  let start ← position
  let base ← primary rules ctx
  extend (suffix? rules ctx false start) base

/-- Marks the call that an expression starts with as having no effects. -/
def notePure : Node → Node
  | .node (.call isOptional _) span parts => .node (.call isOptional true) span parts
  | .node (.construct _) span parts => .node (.construct true) span parts
  | .node (.binary op) span (left :: rest) => .node (.binary op) span (notePure left :: rest)
  | .node (.logical op) span (left :: rest) => .node (.logical op) span (notePure left :: rest)
  | .node .conditional span (test :: rest) => .node .conditional span (notePure test :: rest)
  | .node .chain span [.node (.call isOptional _) inner parts] =>
    .node .chain span [.node (.call isOptional true) inner parts]
  | n => n

/-- Whether the token can start an operand right behind a word that is an operator only there. -/
def startsOperand (t : Token) : Bool :=
  !t.newlineBefore && !t.isWordOf ["in", "instanceof"] &&
  (t.kind == .word || t.kind == .number || t.kind == .bigInteger || t.kind == .string)

def atAwait (ctx : Context) : Parser Bool := do
  if !(← atWord "await") then return false
  if ctx.inAsync then return true
  return startsOperand (← peek)

/-- An operand with signs before or behind it that change a variable. -/
def updateRule (rules : Rules) (ctx : Context) : Parser Node := do
  let start ← position
  let t ← current
  if t.isMark "++" || t.isMark "--" then
    advance
    let operand ← rules ctx .unary
    let place ← asTarget true operand
    finish (.update t.text true) start [place]
  else if ctx.hasMarkup && t.isMark "<" then rules ctx (.markup false)
  else
    let operand ← leftHand rules ctx
    let operand := if t.isPure then notePure operand else operand
    let sign ← current
    if (sign.isMark "++" || sign.isMark "--") && !sign.newlineBefore then
      let place ← asTarget true operand
      advance
      finish (.update sign.text false) start [place]
    else return operand

def unaryRule (rules : Rules) (ctx : Context) : Parser Node := do
  let start ← position
  let t ← current
  let isOperator :=
    (t.kind == .punctuator && isUnaryMark t.text) ||
    (t.kind == .word && !t.isEscaped && isUnaryWord t.text)
  if isOperator then
    advance
    let operand ← rules ctx .unary
    finish (.unary t.text) start [operand]
  else if ← atAwait ctx then
    if !ctx.inAsync then report .awaitOutside start
    advance
    let operand ← rules { ctx with inAsync := true } .unary
    finish .awaitValue start [operand]
  else updateRule rules ctx

/-- Whether a node is a logical operation other than the one that takes the first value present. -/
def isOtherLogical : Node → Bool
  | .node (.logical op) _ _ => op != "??"
  | _ => false

/-- The first operand at a level, or a private name in front of `in`. -/
def firstOperand (rules : Rules) (ctx : Context) : Parser Node := do
  let start ← position
  let t ← current
  if ctx.allowIn && t.kind == .privateName then
    let name ← privateName
    expectWord "in"
    let object ← rules ctx (.binary 8)
    finish (.binary "in") start [name, object]
  else
    let node ← unaryRule rules ctx
    match node with
    | .node (.unary _) span _ =>
      if ← atMark "**" then report .exponentiation span.start
      return node
    | .node .awaitValue span _ =>
      if ← atMark "**" then report .exponentiation span.start
      return node
    | node => return node

/-- One more operator and its right operand, if it binds tighter than `level`. -/
def operation? (rules : Rules) (ctx : Context) (level : Nat) (start : Nat) (left : Node) :
    Parser (Option Node) := do
  if ← atMark ">" then rescan Scanner.angleLexeme
  let t ← current
  match bindingLevel? t with
  | none => return none
  | some own =>
    if t.text == "**" then
      if own < level then return none
    else if own ≤ level then return none
    if t.isWord "in" && !ctx.allowIn then return none
    if t.isWordOf ["as", "satisfies"] then
      if t.newlineBefore then return none
      if !ctx.isTyped then report .typeAssertionOutside start
      advance
      let type ←
        if t.text == "as" && (← atWord "const") then
          let word ← current
          advance
          pure (.node .typeReference ⟨word.start, word.stop⟩
            [.leaf (.label "const") ⟨word.start, word.stop⟩, .absent])
        else rules { ctx with isTyped := true } .type
      return some (← finish (.typeAssertion t.text) start [left, type])
    advance
    let right ← rules ctx (.binary own)
    if isLogicalOperator t.text then
      if t.text == "??" && (isOtherLogical left || isOtherLogical right) then
        report .mixedCoalesce start
      return some (← finish (.logical t.text) start [left, right])
    return some (← finish (.binary t.text) start [left, right])

/-- Operators that bind tighter than a level. -/
def binaryRule (rules : Rules) (ctx : Context) (level : Nat) : Parser Node := do
  let start ← position
  let first ← firstOperand rules ctx
  extend (operation? rules ctx level start) first

/-- The branches of a conditional, if one follows its test. -/
def conditionalRest (rules : Rules) (ctx : Context) (start : Nat) (goal : Goal) (test : Node) :
    Parser Node := do
  if ← eatMark "?" then
    let consequent ← rules { ctx with allowIn := true } .consequent
    expectMark ":"
    let alternative ← rules ctx goal
    finish .conditional start [test, consequent, alternative]
  else return test

/-- An expression that hands a value out of a generator. -/
def yieldRule (rules : Rules) (ctx : Context) : Parser Node := do
  let start ← position
  if !ctx.inGenerator then report .yieldOutside start
  advance
  let t ← current
  let isOver := t.newlineBefore || t.kind == .eof || t.isMark ")" || t.isMark "]" ||
    t.isMark "\x7d" || t.isMark "," || t.isMark ";" || t.isMark ":" || t.isWord "in" ||
    t.kind == .templateMiddle || t.kind == .templateTail
  if isOver then return ← finish (.yieldValue false) start [.absent]
  let delegates ← eatMark "*"
  let value ← rules ctx .assignment
  finish (.yieldValue delegates) start [value]

def noteEffectFree : Node → Node
  | .node (.arrow t) span parts => .node (.arrow { t with isPure := true }) span parts
  | .node (.function t) span parts => .node (.function { t with isPure := true }) span parts
  | n => n

/-- An expression without commas at its top. -/
def assignmentRule (rules : Rules) (ctx : Context) (allowResult : Bool) : Parser Node := do
  let start ← position
  let t ← current
  let note := fun (n : Node) =>
    let n := if t.isPure then notePure n else n
    if t.isEffectFree then noteEffectFree n else n
  if t.isWord "yield" && (ctx.inGenerator || startsOperand (← peek)) then
    return ← yieldRule rules ctx
  if let some node ← asyncSimpleArrow? rules ctx then return note node
  if let some node ← arrow? rules ctx allowResult then return note node
  let left ← rules ctx (.binary 0)
  let next ← current
  match left with
  | .node (.reference name) span _ =>
    if next.isMark "=>" then return note (← simpleArrow rules ctx start false name span)
  | _ => pure ()
  let goal := if allowResult then Goal.assignment else .consequent
  if next.kind == .punctuator && isAssignmentOperator next.text then
    let place ← asTarget (next.text != "=") left
    advance
    let value ← rules ctx goal
    finish (.assignment next.text) start [place, value]
  else return note (← conditionalRest rules ctx start goal left)

def expressionRule (rules : Rules) (ctx : Context) : Parser Node := do
  let start ← position
  let first ← rules ctx .assignment
  if ← atMark "," then
    let rest ← many do
      if ← eatMark "," then return some (← rules ctx .assignment) else return none
    finish .sequence start (first :: rest)
  else return first

end TemplateCompiler.Grammar
