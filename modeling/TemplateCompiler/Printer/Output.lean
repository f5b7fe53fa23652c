import TemplateCompiler.Syntax.Node
import TemplateCompiler.Text.Name
import TemplateCompiler.Text.Position
import TemplateCompiler.Text.Quoted

namespace TemplateCompiler.Printer

/-- A place in the printed text and the source offset that it came from. -/
structure Mark where
  line : Nat
  column : Nat
  offset : Nat
deriving DecidableEq, Repr, Inhabited

/-- The state of a printing. -/
structure Output where
  text : String := ""
  /-- The number of characters written. -/
  size : Nat := 0
  line : Nat := 0
  /-- The column in UTF-16 units. -/
  column : Nat := 0
  lastChar : Char := '\n'
  /-- The depth of indentation. -/
  depth : Nat := 0
  /-- The next indentation is a single space, because the statement goes on a started line. -/
  staysOnLine : Bool := false
  /-- Where the last expression statement, exported default and arrow body started. -/
  statementStart : Nat := 0
  defaultStart : Nat := 0
  arrowStart : Nat := 0
  /-- Where a number ended that a point would become part of. -/
  numberEnd : Option Nat := none
  /-- The last operator written in front of an operand, and where it ended. -/
  lastOperator : String := ""
  operatorEnd : Nat := 0
  /-- The marks made so far, the last one first. -/
  marks : List Mark := []
  /-- The length of the source in bytes. -/
  sourceLength : Nat := 0
  /-- A list of one type parameter is written with a comma, to tell it from a tag. -/
  hasMarkup : Bool := false

/-- A step of printing. -/
abbrev PrintM := StateM Output

def Output.push (o : Output) (c : Char) : Output :=
  { o with
    text := o.text.push c
    size := o.size + 1
    line := if c == '\n' then o.line + 1 else o.line
    column := if c == '\n' then 0 else o.column + Text.unitCount c
    lastChar := c }

def putChars (cs : List Char) : PrintM Unit := modify fun o => cs.foldl Output.push o

def put (text : String) : PrintM Unit := putChars text.toList

/-- Notes where the text that follows came from, unless the mark before says the same. -/
def markAt (offset : Nat) : PrintM Unit := modify fun o =>
  if (o.marks.head?.map (·.offset)) == some offset then o
  else { o with marks := ⟨o.line, o.column, offset⟩ :: o.marks }

/-- Notes that the text that follows came from the start of a span. What has no span leaves no
mark. -/
def mark (span : Span) : PrintM Unit :=
  if span.isEmpty then pure () else markAt span.start

/-- Notes that the text that follows came from the end of a span, if something follows it. -/
def markEnd (span : Span) : PrintM Unit := do
  if span.isEmpty then pure ()
  else if span.stop < (← get).sourceLength then markAt span.stop
  else pure ()

/-- Starts a line with its indentation. -/
def indent : PrintM Unit := do
  let o ← get
  if o.staysOnLine then
    put " "
    modify fun o => { o with staysOnLine := false }
  else putChars (List.replicate o.depth '\t')

def deeper : PrintM Unit := modify fun o => { o with depth := o.depth + 1 }

def shallower : PrintM Unit := modify fun o => { o with depth := o.depth - 1 }

def newline : PrintM Unit := put "\n"

def endStatement : PrintM Unit := put ";\n"

/-- Keeps a word from running into the one before it. -/
def spaceBeforeWord : PrintM Unit := do
  let o ← get
  if o.size > 0 && Text.isNamePart o.lastChar then put " "

/-- Writes a word that may not run into the one before it. -/
def putWord (word : String) : PrintM Unit := do
  spaceBeforeWord
  put word

/-- Keeps a sign from running into the sign before it: `+ +`, `- -`, `+ ++`, `- --`. -/
def spaceBeforeSign (sign : String) : PrintM Unit := do
  let o ← get
  let clashes :=
    (o.lastOperator == "+" && (sign == "+" || sign == "++")) ||
    (o.lastOperator == "-" && (sign == "-" || sign == "--"))
  if o.operatorEnd == o.size && clashes then put " "

def putSign (sign : String) : PrintM Unit := do
  put sign
  modify fun o => { o with lastOperator := sign, operatorEnd := o.size }

def wrap (isNeeded : Bool) (p : PrintM Unit) : PrintM Unit := do
  if isNeeded then
    put "("
    p
    put ")"
  else p

/-- Writes things with a comma and a space between them. -/
def commaList {α : Type} (item : α → PrintM Unit) : List α → PrintM Unit
  | [] => pure ()
  | [a] => item a
  | a :: as => do
    item a
    put ", "
    commaList item as

def each {α : Type} (item : α → PrintM Unit) : List α → PrintM Unit
  | [] => pure ()
  | a :: as => do
    item a
    each item as

/-- Writes braces with something on lines of its own inside, or with nothing. -/
def braces (span : Span) (isEmpty : Bool) (content : PrintM Unit) : PrintM Unit := do
  mark span
  if isEmpty then put "\x7b\x7d"
  else
    put "\x7b\n"
    deeper
    content
    shallower
    indent
    put "\x7d"

/-- What the place of an expression demands of it. -/
structure Style where
  /-- An expression that binds no tighter than this is put in parentheses. -/
  level : Nat := 0
  /-- A call is put in parentheses, because `new` would take its arguments. -/
  noCall : Bool := false
  /-- The operator `in` is put in parentheses, because the head of a loop would end at it. -/
  noIn : Bool := false

/-- How tightly the kinds of expressions bind. -/
def Level.comma : Nat := 1
def Level.yield : Nat := 3
def Level.assign : Nat := 4
def Level.conditional : Nat := 5
def Level.shift : Nat := 14
def Level.exponent : Nat := 17
def Level.unary : Nat := 18
def Level.suffix : Nat := 19
def Level.construct : Nat := 20
def Level.call : Nat := 21

/-- A way to print the parts of a node. -/
abbrev Print := Style → Node → PrintM Unit

/-- Prints a part that stands in parentheses or on its own. -/
def Print.plain (print : Print) (n : Node) : PrintM Unit := print {} n

/-- Prints a part that only a comma would tear apart. -/
def Print.item (print : Print) (n : Node) : PrintM Unit := print { level := Level.comma } n

/-- Prints an optional part with something in front of it. -/
def Print.optional (print : Print) (before : String) (n : Node) : PrintM Unit := do
  if n.isAbsent then pure ()
  else
    put before
    print.plain n

def Print.annotation (print : Print) (type : Node) : PrintM Unit := print.optional ": " type

/-- Whether a node is a declaration, which as a statement starts a line and ends it. -/
def isDeclaration : Node → Bool
  | .node (.function traits) _ _ => traits.isDeclaration
  | .node (.classDefinition isDeclaration _) _ _ => isDeclaration
  | .node (.variableDeclaration _ _) _ _ => true
  | .node (.typeAlias _) _ _ => true
  | .node (.interface _) _ _ => true
  | .node (.enumeration _ _) _ _ => true
  | .node (.moduleDeclaration _ _) _ _ => true
  | .node (.importEquals _) _ _ => true
  | _ => false

/-- Whether a declaration is written with a semicolon at its end. -/
def endsWithSemicolon : Node → Bool
  | .node (.variableDeclaration _ _) _ _ => true
  | .node (.typeAlias _) _ _ => true
  | .node (.importEquals _) _ _ => true
  | _ => false

/-- Whether a node is a function that is said to have no effects. -/
def isEffectFree : Node → Bool
  | .node (.function traits) _ _ => traits.isPure
  | _ => false

/-- The line before a function that is said to have no effects. -/
def effectFreeComment : String := "/* @__NO_SIDE_EFFECTS__ */\n"

def Print.statement (print : Print) (n : Node) : PrintM Unit := do
  if isDeclaration n then
    if isEffectFree n then
      indent
      put effectFreeComment
    indent
    print.plain n
    if endsWithSemicolon n then endStatement else newline
  else print.plain n

end TemplateCompiler.Printer
