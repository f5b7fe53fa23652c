import TemplateCompiler.Grammar.Reader

namespace TemplateCompiler.Grammar

def takeLeaf (form : String → Form) : Parser Node := do
  let t ← current
  advance
  return .leaf (form t.text) ⟨t.start, t.stop⟩

/-- A word that is kept as an operator may not name a variable. -/
def checkVariable (ctx : Context) : Parser Unit := do
  let t ← current
  if ctx.inAsync && t.text == "await" then report .awaitIdentifier t.start
  if ctx.inGenerator && t.text == "yield" then report .yieldIdentifier t.start

def referenceName (ctx : Context) : Parser Node := do
  if (← current).isVariable then
    checkVariable ctx
    takeLeaf .reference
  else unexpected

def bindingName (ctx : Context) : Parser Node := do
  if (← current).isVariable then
    checkVariable ctx
    takeLeaf .binding
  else unexpected

def labelName : Parser Node := do
  if (← current).kind == .word then takeLeaf .label else unexpected

def privateName : Parser Node := do
  if (← current).kind == .privateName then takeLeaf .privateName else unexpected

def stringLiteral : Parser Node := do
  if (← current).kind == .string then takeLeaf .string else unexpected

/-- The key of a property, and whether it is computed. -/
def propertyKey (rules : Rules) (ctx : Context) : Parser (Node × Bool) := do
  let t ← current
  match t.kind with
  | .string => return (← takeLeaf .string, false)
  | .number => return (← takeLeaf .number, false)
  | .bigInteger => return (← takeLeaf .bigInteger, false)
  | .privateName => return (← takeLeaf .privateName, false)
  | .word => return (← takeLeaf .label, false)
  | _ =>
    if t.isMark "[" then
      advance
      let key ← rules { ctx with allowIn := true } .assignment
      expectMark "]"
      return (key, true)
    else unexpected

/-- The name of a module's export: a word or a string. -/
def moduleName : Parser Node := do
  if (← current).kind == .string then stringLiteral else labelName

end TemplateCompiler.Grammar
