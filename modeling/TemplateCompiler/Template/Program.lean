import TemplateCompiler.Template.Lowering

/-!
Programs: every markup literal is replaced by the closure that it becomes. What a closure took over
from its literal, attribute values and embedded expressions, may hold literals in turn, and is
walked after it.
-/

namespace TemplateCompiler

/-- The state of a walk over a program. -/
structure Walk where
  session : Session
  /-- The literals replaced so far. -/
  templates : Nat := 0
  /-- The literals that could not be replaced, and why. -/
  errors : List Cause := []

mutual

/-- Visits the markup literals of a tree from left to right. -/
def walkWith (visit : Node → StateM Walk Node) : Node → StateM Walk Node
  | .node f span cs =>
    if f.isMarkup then visit (.node f span cs)
    else return .node f span (← walkListWith visit cs)

def walkListWith (visit : Node → StateM Walk Node) : List Node → StateM Walk (List Node)
  | [] => return []
  | n :: ns => return (← walkWith visit n) :: (← walkListWith visit ns)

end

/-- The closure that a literal is lowered to; nothing if it has none, which is noted. -/
def settle (lowering : Lower Node) : StateM Walk (Option Node) := do
  let w ← get
  match lowering.run w.session with
  | (.ok closure, session) =>
    set { w with session, templates := w.templates + 1 }
    return some closure
  | (.error cause, session) =>
    set { w with session, errors := w.errors ++ [cause] }
    return none

def replaceLiteral (literal : Node) : StateM Walk (Option Node) :=
  settle (lowerTemplate (.ofNode literal))

/-- Replaces the literals of a tree that are nested no deeper than `depth`. -/
def walk : Nat → Node → StateM Walk Node
  | 0, n => return n
  | depth + 1, n =>
    walkWith (fun literal => do
      match ← replaceLiteral literal with
      | some closure => walk depth closure
      | none => return literal) n

/-- What becomes of a program. -/
structure Transformed where
  program : Node
  templates : Nat
  errors : List Cause
  session : Session

/-- Replaces every literal of a program and, if all went well, adds the imports and the set-up of
the events. -/
def transform (environment : String) (program : Node) : Transformed :=
  let start : Walk := { session := ({ environment } : Session).enter program }
  let (walked, w) := (walk program.markupDepth program).run start
  if !w.errors.isEmpty then
    { program := walked, templates := w.templates, errors := w.errors, session := w.session }
  else
    let (result, session) := (finishProgram walked.children).run w.session
    let line := "[RumiousNative] Lowered " ++ Nat.repr w.templates ++ " template(s), " ++
      Nat.repr session.events.length ++ " delegated event(s)"
    let session := { session with trace := session.trace ++ [line] }
    match result with
    | .ok body =>
      { program := .node walked.form walked.span body, templates := w.templates,
        errors := [], session }
    | .error cause => { program := walked, templates := w.templates, errors := [cause], session }

end TemplateCompiler
