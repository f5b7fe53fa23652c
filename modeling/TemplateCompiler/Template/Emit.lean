import TemplateCompiler.Text.Name
import TemplateCompiler.Syntax.Node

namespace TemplateCompiler.Emit

/-- A node that was not read from anywhere. -/
def made (form : Form) (children : List Node) : Node := .node form .synthetic children

def name (text : String) : Node := .reference text .synthetic

def string (text : String) : Node := .string text .synthetic

def array (items : List Node) : Node := made .array items

def call (callee : Node) (arguments : List Node) : Node :=
  made (.call false false) (callee :: .absent :: arguments)

def statement (value : Node) : Node := made .expressionStatement [value]

def member (object : Node) (property : String) : Node :=
  .member object property .synthetic .synthetic

/-- A member by name, or by string where the name cannot be written. -/
def access (object : Node) (property : String) : Node :=
  if Text.isName property.toList then member object property
  else made (.index false) [object, string property]

def constant (target value : Node) : Node :=
  made (.variableDeclaration .constVar false) [made (.declarator false) [target, .absent, value]]

def binding (text : String) : Node := .leaf (.binding text) .synthetic

def arrow (parameter : String) (body : Node) : Node :=
  made (.arrow {})
    [.absent, made .parameters [made (.parameter {}) [binding parameter, .absent, .absent]],
     .absent,
     body]

/-- A closure that makes a fragment, runs statements on it and returns it. -/
def closure (root context : String) (items : List Node) : Node :=
  let create := call (member (name "document") "createDocumentFragment") []
  arrow context <| made .body <|
    constant (binding root) create :: items ++ [made .returnStatement [name root]]

def property (key : String) (value : Node) : Node := made (.property {}) [string key, value]

def spread (value : Node) : Node := made .spread [value]

def object (members : List Node) : Node := made .object members

def null : Node := made .nullLiteral []

def yes : Node := made (.boolean true) []

end TemplateCompiler.Emit
