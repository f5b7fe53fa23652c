import TemplateCompiler.Grammar.Statement

/-!
Reading whole sources: programs, and single expressions.

The grammar leaves out decorators, declarations with `using` and `await using`, and the imports that
name a phase, `import defer` and `import source`. There are no labels for them, and a program that
has one of them is answered as a fault.
-/

namespace TemplateCompiler.Grammar

/-- The rule for a goal, given the rules for its parts. -/
def rule (rules : Rules) (ctx : Context) : Goal → Parser Node
  | .statement => statementRule rules ctx
  | .expression => expressionRule rules ctx
  | .assignment => assignmentRule rules ctx true
  | .consequent => assignmentRule rules ctx false
  | .binary level => binaryRule rules ctx level
  | .unary => unaryRule rules ctx
  | .callee => calleeRule rules ctx
  | .pattern => patternRule rules ctx
  | .functionBody => functionBodyRule rules ctx
  | .block => blockRule rules ctx
  | .markup isChild => markupRule rules ctx isChild
  | .type => typeRule rules ctx
  | .moduleBody => moduleBodyRule rules ctx

/-- All rules, each using the others up to `depth` levels deep. -/
def rulesTo : Nat → Rules
  | 0 => fun _ _ => unexpected
  | depth + 1 => fun ctx goal => rule (rulesTo depth) ctx goal

/-- A depth that a text of the given length cannot exceed: between two tokens rules nest only
through the few levels of the grammar. -/
def depthFor (length : Nat) : Nat := 16 * (length + 2)

/-- The first line of a program that names its interpreter. -/
def hashbang? (source : List Char) : Option (List Char × List Char) :=
  match source with
  | '#' :: '!' :: rest =>
    let isLine := fun c => !Scanner.isLineEnd c
    some (rest.takeWhile isLine, rest.dropWhile isLine)
  | _ => none

/-- The directives that the items of a program start with, and the statements behind them. -/
def splitDirectives : List Node → List (String × Span) × List Node
  | .node (.directive raw) span _ :: items =>
    let (directives, statements) := splitDirectives items
    ((raw, span) :: directives, statements)
  | items => ([], items)

/-- The faults found in a source, and what could be read of it. -/
structure Outcome where
  diagnostics : List Diagnostic
  node : Option Node

def Outcome.of (result : Except Failure (Node × State)) : Outcome :=
  match result with
  | .ok (node, s) =>
    let defaults := s.openDefaults.reverse.map fun o => ⟨Fault.defaultOutsidePattern, o⟩
    { diagnostics := s.lexical.reverse ++ s.reported.reverse ++ defaults, node := some node }
  | .error failure => { diagnostics := failure.diagnostics, node := none }

def readProgram (ctx : Context) (source : String) : Outcome :=
  let text := source.toList
  let ctx := { ctx with inAsync := ctx.isModule }
  let rules := rulesTo (depthFor text.length)
  let (hashbang, rest, offset) :=
    match hashbang? text with
    | some (line, rest) =>
      let stop := 2 + Scanner.byteLength line
      (some (String.ofList line, (⟨0, stop⟩ : Span)), rest, stop)
    | none => (none, text, 0)
  .of <| (do
    let items ← bodyItems rules ctx none true (← stepLimit)
    let (directives, statements) := splitDirectives items
    return Node.node (.program { hashbang, directives }) ⟨0, Scanner.byteLength text⟩
      statements : Parser Node).run (.start rest offset)

/-- Reads the expression that a source starts with; what follows it does not count. -/
def readExpression (ctx : Context) (source : String) : Outcome :=
  let text := source.toList
  let rules := rulesTo (depthFor text.length)
  .of ((rules { ctx with inAsync := ctx.isModule } .expression).run (.start text 0))

end TemplateCompiler.Grammar
