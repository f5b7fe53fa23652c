import TemplateCompiler.Printer.Statement

namespace TemplateCompiler.Printer

def printNode (print : Print) (style : Style) (n : Node) : PrintM Unit :=
  match printExpression? print style n with
  | some p => p
  | none =>
    match printFunction? print style n with
    | some p => p
    | none =>
      match printControl? print n with
      | some p => p
      | none =>
        match printDeclaration? print style n with
        | some p => p
        | none =>
          match printModule? print n with
          | some p => p
          | none => (printType? print n).getD (pure ())

def printTo : Nat → Print
  | 0 => fun _ _ => pure ()
  | depth + 1 => fun style n => printNode (printTo depth) style n

/-- What is printed, and where its parts came from. -/
structure Printed where
  text : String
  marks : List Mark

def Output.printed (o : Output) : Printed := ⟨o.text, o.marks.reverse⟩

/-- The printed form of an expression that stands alone. -/
def expression (n : Node) : String :=
  ((printTo (n.depth + 1) {} n).run {}).2.text

/-- Prints the parts of a program: a first line for the interpreter, directives, statements. -/
def printItems (print : Print) (items : List Node) : PrintM Unit := do
  let isHashbang := fun (n : Node) => match n with
    | .node (.hashbang _) _ _ => true
    | _ => false
  each print.plain (items.takeWhile isHashbang)
  let items := items.dropWhile isHashbang
  let directives := items.takeWhile isDirective
  each print.plain directives
  let statements := items.dropWhile isDirective
  if directives.isEmpty then printBodyItems print statements else each print.statement statements

/-- The printed form of statements that stand alone. -/
def statements (items : List Node) : String :=
  ((printItems (printTo (Node.depthOfList items + 1)) items).run {}).2.text

/-- The first lines of a program as parts of it. -/
def prologueItems (p : Prologue) : List Node :=
  p.hashbang.toList.map (fun (text, span) => .leaf (.hashbang text) span) ++
    p.directives.map fun (raw, span) => .leaf (.directive raw) span

/-- The parts of a program, its first lines among them. -/
def programItems : Node → List Node
  | .node (.program prologue) _ statements => prologueItems prologue ++ statements
  | n => n.children

/-- The printed form of a program read from a source of the given length. -/
def program (n : Node) (sourceLength : Nat) : Printed :=
  ((printItems (printTo (n.depth + 1)) (programItems n)).run
    { sourceLength, hasMarkup := true }).2.printed

end TemplateCompiler.Printer
