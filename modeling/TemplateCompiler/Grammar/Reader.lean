import TemplateCompiler.Syntax.Node
import TemplateCompiler.Syntax.Scanner

/-!
The state of reading a source text, and the steps that all rules of the grammar are made of.

A rule is a function from a state to a result and the next state. Going back is returning to an
earlier state, so a rule may be tried and given up. Faults are of two kinds: one that the grammar
can go on after is added to the state, and one that it cannot ends the reading.
-/

namespace TemplateCompiler.Grammar

open Scanner

/-- How far a source has been read. -/
structure State where
  /-- The token that comes next. -/
  token : Token
  /-- The text from the start of that token. -/
  here : List Char
  /-- The text behind it. -/
  after : List Char
  /-- Where the token before it ended. -/
  previousStop : Nat
  /-- Where the whole text ends. -/
  total : Nat
  /-- Faults of the tokens read so far, the last one first. -/
  lexical : List Diagnostic := []
  /-- Faults that the grammar has gone on after, the last one first. -/
  reported : List Diagnostic := []
  /-- Places where an arrow function was looked for and not found. -/
  notArrows : List Nat := []
  /-- Places of shorthand defaults that no pattern has claimed. -/
  openDefaults : List Nat := []

/-- The end of a reading that cannot go on: what it ended at, and the faults found before. -/
structure Failure where
  earlier : List Diagnostic
  last : Diagnostic
  notArrows : List Nat := []

/-- The faults of a reading that has ended. There is always one. -/
def Failure.diagnostics (failure : Failure) : List Diagnostic := failure.earlier ++ [failure.last]

/-- A rule of the grammar. -/
abbrev Parser := StateT State (Except Failure)

/-- The language that a source is written in, and what the place in it allows. -/
structure Context where
  isTyped : Bool := false
  hasMarkup : Bool := false
  isModule : Bool := true
  /-- The word `in` is an operator here. -/
  allowIn : Bool := true
  inAsync : Bool := false
  inGenerator : Bool := false
  inFunction : Bool := false
  /-- Inside a declaration that only describes. -/
  isAmbient : Bool := false
  /-- A conditional type may be read here. -/
  allowConditionalType : Bool := true

/-- The state after reading a token with `scan` from the text `source` at `offset`. -/
def State.read (s : State) (scan : List Char → Lexeme) (source : List Char) (offset : Nat) :
    State :=
  let gap := skipGap .between { offset } source
  match gap.fault with
  | some d =>
    { s with
      token := { kind := .invalid, text := "", start := gap.offset, stop := gap.offset,
                 newlineBefore := gap.newline }
      here := [], after := [], lexical := d :: s.lexical }
  | none =>
    let lexeme := scan gap.rest
    let (token, faults) := lexeme.toToken gap
    { s with token, here := gap.rest, after := lexeme.rest, lexical := faults.reverse ++ s.lexical }

/-- The state after reading what stands between tags, where no gap is skipped. -/
def State.readMarkup (s : State) (source : List Char) (offset : Nat) : State :=
  let lexeme := markupLexeme source
  let (token, _) := lexeme.toToken { offset }
  let faults := if lexeme.kind == .markupText then textFaults offset lexeme.text else []
  { s with token, here := source, after := lexeme.rest, lexical := faults.reverse ++ s.lexical }

def State.start (source : List Char) (offset : Nat) : State :=
  State.read { token := { kind := .eof, text := "", start := 0, stop := 0 },
               here := [], after := [], previousStop := offset,
               total := offset + byteLength source } lexeme source offset

def current : Parser Token := return (← get).token

def advance : Parser Unit :=
  modify fun s => { s with previousStop := s.token.stop }.read lexeme s.after s.token.stop

def advanceMarkup : Parser Unit :=
  modify fun s => { s with previousStop := s.token.stop }.readMarkup s.after s.token.stop

def advanceAttribute : Parser Unit :=
  modify fun s => { s with previousStop := s.token.stop }.read attributeLexeme s.after s.token.stop

/-- Reads the current token once more with another scan. -/
def rescan (scan : List Char → Lexeme) : Parser Unit :=
  modify fun s =>
    let lexeme := scan s.here
    let gap : Gap :=
      { offset := s.token.start, newline := s.token.newlineBefore,
        isPure := s.token.isPure, isEffectFree := s.token.isEffectFree }
    let (token, faults) := lexeme.toToken gap
    { s with token, after := lexeme.rest, lexical := faults.reverse ++ s.lexical }

def peek : Parser Token := do
  let s ← get
  return (s.read lexeme s.after s.token.stop).token

def peekSecond : Parser Token := do
  let s ← get
  let next := s.read lexeme s.after s.token.stop
  return (next.read lexeme next.after next.token.stop).token

def report (fault : Fault) (offset : Nat) : Parser Unit :=
  modify fun s => { s with reported := ⟨fault, offset⟩ :: s.reported }

def fail {α : Type} (fault : Fault) (offset : Nat) : Parser α := do
  let s ← get
  throw { earlier := s.lexical.reverse ++ s.reported.reverse, last := ⟨fault, offset⟩,
          notArrows := s.notArrows }

/-- Ends the reading at a token that no rule accepts. If the token is no token at all, what was
wrong with it is the better answer. -/
def unexpected {α : Type} : Parser α := do
  let s ← get
  match s.lexical with
  | d :: earlier =>
    if s.token.kind == .eof || s.token.kind == .invalid then
      throw
        { earlier := earlier.reverse ++ s.reported.reverse, last := d, notArrows := s.notArrows }
    else fail .unexpected s.token.start
  | [] => fail .unexpected s.token.start

/-- Tries a rule; if it fails, nothing has happened. -/
def attempt {α : Type} (p : Parser α) : Parser (Option α) := fun s =>
  match p s with
  | .ok (a, next) => .ok (some a, next)
  | .error failure => .ok (none, { s with notArrows := failure.notArrows })

/-- Tries a rule that may also decline; then, too, nothing has happened. -/
def attempt? {α : Type} (p : Parser (Option α)) : Parser (Option α) := fun s =>
  match p s with
  | .ok (some a, next) => .ok (some a, next)
  | .ok (none, next) => .ok (none, { s with notArrows := next.notArrows })
  | .error failure => .ok (none, { s with notArrows := failure.notArrows })

/-- The answer of a rule, without having read anything. -/
def lookahead {α : Type} (p : Parser α) : Parser (Option α) := fun s =>
  match p s with
  | .ok (a, _) => .ok (some a, s)
  | .error _ => .ok (none, s)

def atMark (text : String) : Parser Bool := return (← current).isMark text

def atWord (text : String) : Parser Bool := return (← current).isWord text

def eatMark (text : String) : Parser Bool := do
  if ← atMark text then advance; return true else return false

def eatWord (text : String) : Parser Bool := do
  if ← atWord text then advance; return true else return false

def missing {α : Type} (wanted : String) : Parser α := do
  let t ← current
  fail (.expected wanted t.describe) t.start

def expectMark (text : String) : Parser Unit := do
  if ← atMark text then advance else missing text

def expectWord (text : String) : Parser Unit := do
  if ← atWord text then advance else missing text

def expectMarkThenMarkup (text : String) : Parser Unit := do
  if ← atMark text then advanceMarkup else missing text

def position : Parser Nat := return (← current).start

/-- The span from `start` to the end of the last token read. -/
def spanFrom (start : Nat) : Parser Span := return ⟨start, (← get).previousStop⟩

/-- A node that ends with the last token read. -/
def finish (form : Form) (start : Nat) (children : List Node) : Parser Node :=
  return .node form (← spanFrom start) children

/-- A statement may end here without a semicolon. -/
def canInsertSemicolon : Parser Bool := do
  let t ← current
  return t.isMark ";" || t.isMark "\x7d" || t.kind == .eof || t.newlineBefore

/-- The end of a statement, written or not. -/
def endStatement : Parser Unit := do
  if ← canInsertSemicolon then
    discard (eatMark ";")
  else
    let s ← get
    fail .missingSemicolon s.previousStop

/-- Collects what `step` gives until it gives nothing. -/
def collect (step : Parser (Option Node)) : Nat → Parser (List Node)
  | 0 => return []
  | n + 1 => do
    match ← step with
    | none => return []
    | some node => return node :: (← collect step n)

/-- A number of steps that cannot be exceeded, because each takes a token. -/
def stepLimit : Parser Nat := do
  let s ← get
  return s.total - s.token.start + 1

/-- Collects what `step` gives until it gives nothing. -/
def many (step : Parser (Option Node)) : Parser (List Node) := do
  collect step (← stepLimit)

/-- Extends a node as long as `step` finds something that continues it. -/
def extendFor (step : Node → Parser (Option Node)) : Nat → Node → Parser Node
  | 0, node => return node
  | n + 1, node => do
    match ← step node with
    | none => return node
    | some next => extendFor step n next

/-- Extends a node as long as `step` finds something that continues it. -/
def extend (step : Node → Parser (Option Node)) (node : Node) : Parser Node := do
  extendFor step (← stepLimit) node

/-- Whether a list stops before a token: at its closing mark, and where nothing more can be read. -/
def endsList (close : String) (t : Token) : Bool :=
  t.isMark close || t.kind == .eof || t.kind == .invalid

def itemsUntil (close : String) (item : Parser Node) : Parser (List Node) :=
  many do
    if endsList close (← current) then return none
    return some (← item)

/-- A comma and the item behind it; nothing before a closing mark, which stays. -/
def commaItem (close : String) (item : Parser Node) : Parser (Option Node) := do
  let t ← current
  if endsList close t then return none
  if !t.isMark "," then fail (.expectedEither "," close t.describe) t.start
  advance
  if ← atMark close then return none
  return some (← item)

/-- Items with commas between them, up to a closing mark, which stays. A comma may follow the
last. -/
def commaItems (close : String) (item : Parser Node) : Parser (List Node) := do
  if endsList close (← current) then return []
  let first ← item
  let rest ← many (commaItem close item)
  return first :: rest

/-- A bracketed list of items with commas between them. -/
def bracketed (opening close : String) (item : Parser Node) : Parser (List Node) := do
  expectMark opening
  let items ← commaItems close item
  expectMark close
  return items

/-- The rules through which the grammar is recursive. -/
inductive Goal where
  | statement
  | expression
  | assignment
  /-- An assignment in the middle of a conditional, where an arrow function takes no result type
  that the colon of the conditional would be part of. -/
  | consequent
  /-- Operators that bind tighter than the given level. -/
  | binary (level : Nat)
  | unary
  /-- What `new` is applied to: no call that is not in parentheses. -/
  | callee
  | pattern
  | functionBody
  | block
  /-- An element or fragment; `isChild` if it stands between tags. -/
  | markup (isChild : Bool)
  | type
  | moduleBody
deriving Repr, Inhabited

/-- A way to read the parts of a rule. -/
abbrev Rules := Context → Goal → Parser Node

end TemplateCompiler.Grammar
