import TemplateCompiler.Grammar.Class

namespace TemplateCompiler.Grammar

def spreadItem (rules : Rules) (ctx : Context) : Parser Node := do
  let start ← position
  expectMark "..."
  let value ← rules ctx .assignment
  finish .spread start [value]

/-- An element of an array, or the hole before a comma. -/
def arrayItem (rules : Rules) (ctx : Context) : Parser Node := do
  if ← atMark "," then return .absent
  if ← atMark "..." then spreadItem rules ctx
  else rules ctx .assignment

/-- An array; a comma without an item before it leaves a hole. -/
def arrayLiteral (rules : Rules) (ctx : Context) : Parser Node := do
  let start ← position
  let items ← bracketed "[" "]" (arrayItem rules { ctx with allowIn := true })
  finish .array start items

/-- A property that is written as nothing but a name, or a name and a default. -/
def shorthandProperty (rules : Rules) (ctx : Context) (t : Token) : Parser Node := do
  if !t.isVariable then unexpected
  if ctx.inAsync && t.text == "await" then report .awaitIdentifier t.start
  let span : Span := ⟨t.start, t.stop⟩
  let name := Node.leaf (.reference t.text) span
  let value ←
    if ← eatMark "=" then
      let fallback ← rules ctx .assignment
      modify fun s => { s with openDefaults := t.start :: s.openDefaults }
      finish .coverDefault t.start [name, fallback]
    else pure name
  finish (.property { isShorthand := true }) t.start [.leaf (.label t.text) span, value]

def objectItem (rules : Rules) (ctx : Context) : Parser Node := do
  if ← atMark "..." then return ← spreadItem rules ctx
  let start ← position
  let t ← current
  let next ← peek
  let startsAsync := t.isWord "async" && (startsKey next || next.isMark "*") && !next.newlineBefore
  let isAsync ← if startsAsync then advance; pure true else pure false
  let isGenerator ← eatMark "*"
  let t ← current
  let next ← peek
  let accessor ←
    if !isAsync && !isGenerator && t.isWordOf ["get", "set"] && startsKey next then
      advance
      pure (if t.text == "get" then Accessor.getter else Accessor.setter)
    else pure .value
  let t ← current
  let (key, isComputed) ← propertyKey rules ctx
  if isAsync || isGenerator || accessor != .value || (← atMark "(") || (← atMark "<") then
    let value ← methodFunction rules ctx isAsync isGenerator
    finish (.property { accessor, isComputed, isMethod := accessor == .value }) start [key, value]
  else if isComputed || t.kind != .word || (← atMark ":") then
    expectMark ":"
    let value ← rules ctx .assignment
    finish (.property { isComputed }) start [key, value]
  else shorthandProperty rules ctx t

def objectLiteral (rules : Rules) (ctx : Context) : Parser Node := do
  let start ← position
  let items ← bracketed "\x7b" "\x7d" (objectItem rules { ctx with allowIn := true })
  finish .object start items

/-- A chunk of a template. Its span leaves out the marks around it. -/
def chunkOf (t : Token) : Node :=
  let closing := if t.kind == .templateHead || t.kind == .templateMiddle then 2 else 1
  .leaf (.chunk t.text) ⟨t.start + 1, t.stop - closing⟩

def templateLiteral (rules : Rules) (ctx : Context) : Parser Node := do
  let start ← position
  let first ← current
  advance
  if first.kind == .templateWhole then return ← finish .template start [chunkOf first]
  let ctx := { ctx with allowIn := true }
  let rest ← many do
    -- a substitution whose closing brace ended the template leaves a finished token behind
    if (← current).kind == .templateTail then return none
    let value ← rules ctx .expression
    if !(← atMark "\x7d") then missing "\x7d"
    rescan Scanner.templateLexeme
    let t ← current
    match t.kind with
    | .templateMiddle =>
      advance
      return some (.node .group .synthetic [value, chunkOf t])
    | .templateTail => return some (.node .group .synthetic [value, chunkOf t])
    | _ => unexpected
  advance
  finish .template start (chunkOf first :: rest.flatMap Node.children)

end TemplateCompiler.Grammar
