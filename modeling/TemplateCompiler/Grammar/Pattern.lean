import TemplateCompiler.Grammar.Type

namespace TemplateCompiler.Grammar

/-- A default behind an equals sign, put around the pattern that it belongs to. -/
def withDefault (rules : Rules) (ctx : Context) (start : Nat) (target : Node) : Parser Node := do
  if ← eatMark "=" then
    let value ← rules { ctx with allowIn := true } .assignment
    finish .patternDefault start [target, value]
  else return target

def patternRest (rules : Rules) (ctx : Context) : Parser Node := do
  let start ← position
  expectMark "..."
  let target ← rules ctx .pattern
  finish .patternRest start [target]

/-- An element of an array pattern, or the hole before a comma. -/
def patternElement (rules : Rules) (ctx : Context) : Parser Node := do
  if ← atMark "," then return .absent
  if ← atMark "..." then patternRest rules ctx
  else
    let start ← position
    let target ← rules ctx .pattern
    withDefault rules ctx start target

def patternProperty (rules : Rules) (ctx : Context) : Parser Node := do
  if ← atMark "..." then return ← patternRest rules ctx
  let start ← position
  let t ← current
  let (key, isComputed) ← propertyKey rules ctx
  if isComputed || (← atMark ":") then
    expectMark ":"
    let valueStart ← position
    let target ← rules ctx .pattern
    let value ← withDefault rules ctx valueStart target
    finish (.patternProperty isComputed false) start [key, value]
  else if t.isVariable then
    if ctx.inAsync && t.text == "await" then report .awaitIdentifier t.start
    let value ← withDefault rules ctx start (.leaf (.binding t.text) ⟨t.start, t.stop⟩)
    finish (.patternProperty false true) start [key, value]
  else unexpected

/-- A binding pattern without a default. -/
def patternRule (rules : Rules) (ctx : Context) : Parser Node := do
  let start ← position
  if ← atMark "[" then
    let items ← bracketed "[" "]" (patternElement rules ctx)
    finish .arrayPattern start items
  else if ← atMark "\x7b" then
    let items ← bracketed "\x7b" "\x7d" (patternProperty rules ctx)
    finish .objectPattern start items
  else bindingName ctx

/-- The place that an expression names, if it names one, or else where it starts. -/
def simpleTarget : Node → Except Nat Node
  | n@(.node (.reference _) _ _) => .ok n
  | n@(.node (.member false) _ _) => .ok n
  | n@(.node (.index false) _ _) => .ok n
  | n@(.node (.privateMember false) _ _) => .ok n
  | n@(.node (.typeAssertion _) _ _) => .ok n
  | n@(.node .nonNull _ _) => .ok n
  | .node .parenthesized _ [inner] => simpleTarget inner
  | n => .error n.start

mutual

/-- The target that an expression is when it stands left of an equals sign. -/
def target : Node → Except Nat Node
  | .node .array span items => return .node .arrayTarget span (← targetItems items)
  | .node .object span items => return .node .objectTarget span (← targetItems items)
  | n => simpleTarget n

/-- An element of an array or a property of an object as a part of a target. -/
def targetItem : Node → Except Nat Node
  | n@(.node .absent _ _) => .ok n
  | .node .spread span [inner] => return .node .targetRest span [← target inner]
  | .node (.assignment "=") span parts => .ok (.node .targetDefault span parts)
  | .node (.property traits) span [key, value] =>
    if traits.isMethod || traits.accessor != .value then .error span.start
    else if traits.isShorthand then
      match value with
      | .node .coverDefault _ parts => .ok (.node .targetShorthand span parts)
      | value => .ok (.node .targetShorthand span [value, .absent])
    else return .node (.targetProperty traits.isComputed) span [key, ← targetItem value]
  | n => target n

def targetItems : List Node → Except Nat (List Node)
  | [] => .ok []
  | n :: ns => return (← targetItem n) :: (← targetItems ns)

end

/-- Takes an expression as the target of an assignment, or ends the reading. -/
def asTarget (isSimple : Bool) (n : Node) : Parser Node := do
  match (if isSimple then simpleTarget n else target n) with
  | .ok t =>
    modify fun s =>
      { s with openDefaults := s.openDefaults.filter fun o => o < n.start || n.stop ≤ o }
    return t
  | .error offset => fail .invalidTarget offset

end TemplateCompiler.Grammar
