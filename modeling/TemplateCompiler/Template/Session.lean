import TemplateCompiler.Name.Imports
import TemplateCompiler.Report

namespace TemplateCompiler

/-- The state of a file. What has been handed out stays so, also when a template fails. -/
structure Session where
  /-- The module that helpers are imported from. -/
  environment : String
  /-- The names of the program, once it has been entered. -/
  names : Option FreshNames := none
  imports : Imports := {}
  /-- The events that templates listen to, in order and with repeats. -/
  events : List String := []
  /-- What has been noted for the reader, line by line. -/
  trace : List String := []

/-- A step of lowering. -/
abbrev Lower := ExceptT Cause (StateM Session)

namespace Session

def hasScope (s : Session) : Bool := s.names.isSome

/-- Starts a program: its names are taken. -/
def enter (s : Session) (program : Node) : Session :=
  { s with names := some (.ofProgram program) }

end Session

namespace Lower

def fresh (name : String) : Lower String := do
  let s ← get
  match s.names with
  | none => throw .noScope
  | some names =>
    let (answer, names) := names.generate name
    set { s with names := some names }
    return answer

/-- The local name of a helper, which is imported at its first use. -/
def require (symbol : String) : Lower String := do
  let s ← get
  match s.names with
  | none => throw .noScope
  | some names =>
    let (localName, imports, names) := s.imports.require names symbol s.environment
    set { s with imports, names := some names }
    return localName

def listen (event : String) : Lower Unit :=
  modify fun s => { s with events := s.events ++ [event] }

def note (line : String) : Lower Unit :=
  modify fun s => { s with trace := s.trace ++ [line] }

/-- A step that changes nothing and may fail. -/
def check {α : Type} (result : Except Cause α) : Lower α :=
  match result with
  | .ok a => pure a
  | .error cause => throw cause

end Lower

end TemplateCompiler
