import TemplateCompiler.Text.Entity
import TemplateCompiler.Text.Space
import TemplateCompiler.Syntax.Node

namespace TemplateCompiler

/-- What an attribute does to the element that it stands on. -/
inductive Directive where
  | bind (property : String)
  | attr (name : String)
  | ref
  | view
  | model
  | on (event : String)
  /-- One that the running program defines. -/
  | custom (name modifier : String)
deriving DecidableEq, Repr, Inhabited

/-- What an attribute's name says about its use. -/
inductive AttributeKind where
  /-- An instruction to the compiler. -/
  | compile (modifier : String)
  | directive (directive : Directive)
  | prop
deriving DecidableEq, Repr, Inhabited

namespace AttributeKind

/-- The kind of a name that has a colon, from what stands before and behind the first one. -/
def ofParts (name modifier : String) : AttributeKind :=
  if name == "compile" then .compile modifier
  else if name == "bind" then .directive (.bind modifier)
  else if name == "attr" then .directive (.attr modifier)
  else if name == "on" then .directive (.on modifier)
  else if name == "ref" then .directive .ref
  else if name == "view" then .directive .view
  else if name == "model" then .directive .model
  else .directive (.custom name modifier)

def ofName (name : String) : AttributeKind :=
  match name.toList.dropWhile (· != ':') with
  | _ :: modifier =>
    ofParts (String.ofList (name.toList.takeWhile (· != ':'))) (String.ofList modifier)
  | [] =>
    if name == "ref" then .directive .ref
    else if name == "view" then .directive .view
    else if name == "model" then .directive .model
    else .prop

end AttributeKind

/-- What is written behind the equals sign of an attribute. -/
inductive AttributeValue where
  | missing
  | string (raw : String) (span : Span)
  | expression (value : Node)
  /-- Braces with nothing in them. -/
  | empty
  /-- A markup literal without braces. -/
  | markup (value : Node)
deriving Repr, Inhabited

/-- An attribute of a tag. -/
inductive Attribute where
  | spread (value : Node)
  | named (name : String) (value : AttributeValue) (start : Nat)
deriving Repr, Inhabited

namespace AttributeValue

def ofNode : Node → AttributeValue
  | .node .absent _ _ => .missing
  | .node (.string raw) span _ => .string raw span
  | .node .container _ [.node .emptyExpression _ _] => .empty
  | .node .container _ [value] => .expression value
  | n => .markup n

/-- The expression that a value is; a missing one is `fallback`. -/
def toNode (fallback : Node) : AttributeValue → Node
  | missing => fallback
  | string raw span => .string (Text.decodeEntities raw) span
  | expression value => value
  | empty => .leaf .nullLiteral .synthetic
  | markup value => value

/-- The treatment of white space that a value asks for: none and `true` for keeping it, `smart` for
folding indentation, and anything else for collapsing it. -/
def spaceMode : AttributeValue → SpaceMode
  | missing => .preserve
  | string raw _ => if raw == "smart" then .smart else .collapse
  | expression (.node (.boolean true) _ _) => .preserve
  | expression (.node (.string value) _ _) => if value == "smart" then .smart else .collapse
  | _ => .collapse

end AttributeValue

namespace Attribute

def nameOf : Node → String
  | .node (.tagName name) _ _ => name
  | .node .tagNamespace _ [.node (.tagName space) _ _, .node (.tagName name) _ _] =>
    space ++ ":" ++ name
  | _ => ""

def ofNode : Node → Attribute
  | .node .attributeSpread _ [value] => .spread value
  | .node .attribute span [name, value] => .named (nameOf name) (.ofNode value) span.start
  | n => .named "" .missing n.start

end Attribute

end TemplateCompiler
