import TemplateCompiler.Syntax.Node

namespace TemplateCompiler

/-- A variable, `this`, or a named member of a path. -/
def isPath : Node → Bool
  | .node (.reference _) _ [] => true
  | .node .thisValue _ [] => true
  | .node (.member _) _ [object, .node (.label _) _ []] => isPath object
  | _ => false

/-- The path that a node reads through `get`, if it is such a read. -/
def readPath? : Node → Option Node
  | .node (.member _) _ [object, .node (.label "get") _ _] =>
    if isPath object then some object else none
  | _ => none

mutual

/-- The paths that an expression reads through `get`, an outer read before those inside it. -/
def dependencies : Node → List Node
  | .node f span cs => (readPath? (.node f span cs)).toList ++ dependenciesOfList cs

def dependenciesOfList : List Node → List Node
  | [] => []
  | n :: ns => dependencies n ++ dependenciesOfList ns

end

/-- A function without parameters that gives the value of an expression. -/
def thunk (value : Node) : Node :=
  .node (.arrow {}) .synthetic [.absent, .node .parameters .synthetic [], .absent, value]

/-- What is handed over for an expression: a function and its dependencies if there are any, and
else the expression itself. -/
def reactiveValue (value : Node) : Node × List Node :=
  match dependencies value with
  | [] => (value, [])
  | paths => (thunk value, paths)

end TemplateCompiler
