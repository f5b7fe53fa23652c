import TemplateCompiler.Grammar.Type

namespace TemplateCompiler.Grammar

/-- The source text of a span that starts at the head of `text`. -/
def sourceOf (text : List Char) (size : Nat) : String :=
  match size, text with
  | 0, _ => ""
  | _, [] => ""
  | size, c :: cs => c.toString ++ sourceOf cs (size - c.utf8Size)

/-- A name in a tag: any word, going on with hyphens. -/
def tagWord : Parser (Word × Span) := do
  let s ← get
  if s.token.kind != .word then unexpected
  let (letters, rest) := Scanner.tagLetters s.after
  let stop := s.token.stop + Scanner.byteLength letters.chars
  set { s with token := { s.token with stop }, after := rest }
  advance
  return (s.token.written.append letters, ⟨s.token.start, stop⟩)

def tagHead (name : String) (span : Span) : Node :=
  if name == "this" then .leaf .thisValue span else .leaf (.reference name) span

def tagSegments (start : Nat) : Node → Parser Node :=
  extend fun object => do
    if ← eatMark "." then
      let (name, span) ← tagWord
      if name.chars.contains '-' then report .hyphenatedMember span.start
      return some (.node .tagMember ⟨start, span.stop⟩ [object, .leaf (.tagName name.text) span])
    else return none

def tagRule : Parser Node := do
  let start ← position
  let (name, span) ← tagWord
  if ← eatMark ":" then
    let (inner, innerSpan) ← tagWord
    finish .tagNamespace start
      [.leaf (.tagName name.text) span, .leaf (.tagName inner.text) innerSpan]
  else if ← atMark "." then tagSegments start (tagHead name.text span)
  else if h : name.isReference then return .leaf (.reference name.text) span
  else if name.text == "this" then return .leaf .thisValue span
  else return .leaf (.plainTag ⟨name, by simpa using h⟩) span

mutual

def sameTag : Node → Node → Bool
  | .node f _ as, .node g _ bs => f == g && sameTags as bs

def sameTags : List Node → List Node → Bool
  | [], [] => true
  | a :: as, b :: bs => sameTag a b && sameTags as bs
  | _, _ => false

end

/-- The braces around an expression, or around nothing. -/
def containerRule (rules : Rules) (ctx : Context) (start : Nat) (isChild : Bool) : Parser Node := do
  let close := if isChild then expectMarkThenMarkup "\x7d" else expectMark "\x7d"
  if ← atMark "\x7d" then
    let s ← get
    let empty := Node.leaf .emptyExpression ⟨s.previousStop, s.token.start⟩
    close
    let node ← finish .container start [empty]
    if !isChild then report .emptyAttribute start
    return node
  let value ← rules { ctx with allowIn := true } .expression
  close
  finish .container start [value]

def attributeValue (rules : Rules) (ctx : Context) : Parser Node := do
  let t ← current
  if t.kind == .string then stringLiteral
  else if t.isMark "\x7b" then
    advance
    containerRule rules ctx t.start false
  else if t.isMark "<" then rules ctx (.markup false)
  else unexpected

def attributeRule (rules : Rules) (ctx : Context) : Parser Node := do
  let start ← position
  let (name, span) ← tagWord
  let key ←
    if ← eatMark ":" then
      let (inner, innerSpan) ← tagWord
      finish .tagNamespace start
        [.leaf (.tagName name.text) span, .leaf (.tagName inner.text) innerSpan]
    else pure (.leaf (.tagName name.text) span)
  let value ←
    if ← atMark "=" then
      advanceAttribute
      attributeValue rules ctx
    else pure Node.absent
  finish .attribute start [key, value]

def attributes (rules : Rules) (ctx : Context) : Parser (List Node) :=
  many do
    let t ← current
    if t.isMark "<" || t.isMark ">" || t.isMark "/" then return none
    if t.isMark "\x7b" then
      advance
      expectMark "..."
      let value ← rules { ctx with allowIn := true } .expression
      expectMark "\x7d"
      return some (← finish .attributeSpread t.start [value])
    return some (← attributeRule rules ctx)

def markupChildren (rules : Rules) (ctx : Context) : Parser (List Node) :=
  many do
    let t ← current
    if t.isMark "<" then
      if (← peek).isMark "/" then return none
      return some (← rules ctx (.markup true))
    else if t.isMark "\x7b" then
      advance
      if ← eatMark "..." then
        let value ← rules { ctx with allowIn := true } .expression
        expectMarkThenMarkup "\x7d"
        return some (← finish .spreadChild t.start [value])
      return some (← containerRule rules ctx t.start true)
    else if t.kind == .markupText then
      advanceMarkup
      return some (.leaf (.text t.text) ⟨t.start, t.stop⟩)
    else unexpected

/-- Takes the angle that ends a tag; markup goes on behind it if the tag is not the last one. -/
def closeTag (goesOn : Bool) : Parser Unit :=
  if goesOn then expectMarkThenMarkup ">" else expectMark ">"

def fragmentRest (rules : Rules) (ctx : Context) (start : Nat) (isChild : Bool) : Parser Node := do
  expectMarkThenMarkup ">"
  let children ← markupChildren rules ctx
  expectMark "<"
  expectMark "/"
  closeTag isChild
  finish .fragment start children

def elementRest (rules : Rules) (ctx : Context) (start : Nat) (isChild : Bool) : Parser Node := do
  let text := (← get).here
  let tag ← tagRule
  let arguments ←
    if ctx.isTyped && (← atMark "<") then typeArguments rules ctx else pure Node.absent
  let items ← attributes rules ctx
  let isClosed ← eatMark "/"
  closeTag (!isClosed || isChild)
  let group := fun nodes => Node.node .group .synthetic nodes
  if isClosed then finish .element start [tag, arguments, group items, group []]
  else
    let children ← markupChildren rules ctx
    expectMark "<"
    expectMark "/"
    let closing ← tagRule
    closeTag isChild
    if !sameTag tag closing then
      report (.closingTag (sourceOf text (tag.stop - tag.start))) closing.start
    finish .element start [tag, arguments, group items, group children]

def markupRule (rules : Rules) (ctx : Context) (isChild : Bool) : Parser Node := do
  let start ← position
  expectMark "<"
  let t ← current
  if t.isMark ">" then fragmentRest rules ctx start isChild
  else if t.kind == .word then elementRest rules ctx start isChild
  else unexpected

end TemplateCompiler.Grammar
