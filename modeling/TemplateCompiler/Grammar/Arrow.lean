import TemplateCompiler.Grammar.Function

namespace TemplateCompiler.Grammar

/-- How sure it is that an arrow function comes next. -/
inductive ArrowGuess where
  | yes
  | no
  | maybe
deriving DecidableEq, Repr, Inhabited

/-- The guess from an opening parenthesis or angle on. -/
def guessArrowHere (ctx : Context) : Parser ArrowGuess := do
  if ← atMark "<" then
    if !ctx.isTyped then return .no
    advance
    let t ← current
    if !(t.isVariable || t.isWord "const") then return .no
    if !ctx.hasMarkup then return .maybe
    let third ← peek
    if third.isWord "extends" then
      let fourth ← peekSecond
      return if fourth.isMark "=" || fourth.isMark ">" || fourth.isMark "/" then .no else .yes
    return if third.isMark "," || third.isMark "=" then .yes else .no
  advance
  let second ← current
  let third ← peek
  if second.isMark ")" then
    return if third.isMark ":" || third.isMark "=>" || third.isMark "\x7b" then .yes else .no
  if second.isMark "[" || second.isMark "\x7b" then return .maybe
  if second.isMark "..." then
    return if third.isVariable || third.isMark "[" || third.isMark "\x7b" then .yes else .no
  if !(second.isVariable || second.isWord "this") then return .no
  if third.isMark ":" then return .yes
  if third.isMark "?" then
    let fourth ← peekSecond
    return if [":", ",", "=", ")"].any fourth.isMark then .yes else .no
  if third.isMark "," || third.isMark "=" || third.isMark ")" then return .maybe
  return .no

def guessArrow (ctx : Context) : Parser ArrowGuess := do
  let t ← current
  let answer ←
    if t.isMark "(" || t.isMark "<" then lookahead (guessArrowHere ctx)
    else if t.isWord "async" then
      let next ← peek
      if next.newlineBefore || !(next.isMark "(" || next.isMark "<") then return .no
      lookahead do
        advance
        guessArrowHere ctx
    else pure none
  return answer.getD .no

def arrowBody (rules : Rules) (ctx : Context) (isAsync : Bool) : Parser Node := do
  let inner := { ctx with inAsync := isAsync, inGenerator := false }
  if ← atMark "\x7b" then rules inner .functionBody else rules inner .assignment

/-- Takes the arrow, which has to stand on the line of the parameters. -/
def takeArrow : Parser Unit := do
  let t ← current
  if t.isMark "=>" && t.newlineBefore then report .newlineBeforeArrow t.start
  expectMark "=>"

/-- The head of an arrow function with parentheses, up to and with its arrow. -/
def arrowHead (rules : Rules) (ctx : Context) : Parser (Bool × List Node) := do
  let isAsync ← eatWord "async"
  let inner := { ctx with inAsync := isAsync || ctx.inAsync, inGenerator := ctx.inGenerator }
  let generics ← typeParameters? rules inner
  let params ← parameterList rules inner
  let result ← resultAnnotation rules inner
  takeArrow
  return (isAsync, [generics, params, result])

/-- The function that a head and the body behind it are. -/
def arrowFrom (rules : Rules) (ctx : Context) (start : Nat) (head : Bool × List Node) :
    Parser Node := do
  let body ← arrowBody rules ctx head.1
  finish (.arrow { isAsync := head.1 }) start (head.2 ++ [body])

/-- An arrow function with parentheses, if one comes next. In the middle of a conditional a result
type is taken only if the conditional's own colon is still to come. -/
def arrow? (rules : Rules) (ctx : Context) (allowResult : Bool) : Parser (Option Node) := do
  let start ← position
  match ← guessArrow ctx with
  | .no => return none
  | .yes =>
    let head ← arrowHead rules ctx
    return some (← arrowFrom rules ctx start head)
  | .maybe =>
    if (← get).notArrows.contains start then return none
    match ← attempt (arrowHead rules ctx) with
    | none =>
      modify fun s => { s with notArrows := start :: s.notArrows }
      return none
    | some head =>
      if allowResult || !ctx.isTyped then return some (← arrowFrom rules ctx start head)
      let node ← attempt? do
        let node ← arrowFrom rules ctx start head
        let lacksResult := (head.2.getD 2 .absent).isAbsent
        if lacksResult || (← atMark ":") then return some node else return none
      return node

/-- An arrow function whose only parameter is the variable just read. -/
def simpleArrow (rules : Rules) (ctx : Context) (start : Nat) (isAsync : Bool) (name : String)
    (span : Span) : Parser Node := do
  let item := Node.node (.parameter {}) span [.leaf (.binding name) span, .absent, .absent]
  takeArrow
  let body ← arrowBody rules ctx isAsync
  finish (.arrow { isAsync }) start [.absent, .node .parameters span [item], .absent, body]

/-- An asynchronous arrow function with a bare parameter, if one comes next. -/
def asyncSimpleArrow? (rules : Rules) (ctx : Context) : Parser (Option Node) := do
  let t ← current
  if !t.isWord "async" then return none
  let name ← peek
  if !name.isVariable || name.newlineBefore then return none
  if !(← peekSecond).isMark "=>" then return none
  advance
  checkVariable { ctx with inAsync := true }
  advance
  return some (← simpleArrow rules ctx t.start true name.text ⟨name.start, name.stop⟩)

end TemplateCompiler.Grammar
