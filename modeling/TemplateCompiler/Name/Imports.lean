import TemplateCompiler.Name.Fresh
import TemplateCompiler.Text.Quoted

namespace TemplateCompiler

/-- The symbols imported from one module with their local names, in the order of their first
requests. -/
structure ModuleImports where
  source : String
  symbols : List (String × String)
deriving DecidableEq, Repr, Inhabited

/-- The imports of a file, module by module in the order of their first requests. -/
structure Imports where
  modules : List ModuleImports := []
deriving DecidableEq, Repr, Inhabited

namespace Imports

def isEmpty (r : Imports) : Bool := r.modules.isEmpty

/-- The local name of a symbol of a module, if it has been requested. -/
def localName? (r : Imports) (symbol source : String) : Option String :=
  match r.modules.find? (·.source == source) with
  | some m => m.symbols.lookup symbol
  | none => none

def add (symbol localName source : String) : List ModuleImports → List ModuleImports
  | [] => [⟨source, [(symbol, localName)]⟩]
  | m :: ms =>
    if m.source == source then { m with symbols := m.symbols ++ [(symbol, localName)] } :: ms
    else m :: add symbol localName source ms

/-- The local name of a symbol, which is made at the first request and the same at every later
one. -/
def require (r : Imports) (names : FreshNames) (symbol source : String) :
    String × Imports × FreshNames :=
  match r.localName? symbol source with
  | some localName => (localName, r, names)
  | none =>
    let (localName, names) := names.generate symbol
    (localName, ⟨add symbol localName source r.modules⟩, names)

def specifierText (entry : String × String) : String := entry.1 ++ " as " ++ entry.2

/-- The text of the declaration that imports from one module. -/
def moduleText (m : ModuleImports) : String :=
  "import \x7b " ++ String.intercalate ", " (m.symbols.map specifierText) ++ " \x7d from " ++
    Text.Quoted.moduleText m.source ++ ";"

def text (r : Imports) : String := String.intercalate "\n" (r.modules.map moduleText)

end Imports

end TemplateCompiler
