import TemplateCompiler.Report
import TemplateCompiler.Syntax.Node
import TemplateCompiler.Text.Name

namespace TemplateCompiler

/-- A tag that is an expression: a variable, `this`, or a member of one of these. -/
inductive TagPath where
  | reference (name : String) (span : Span)
  | this (span : Span)
  | member (object : TagPath) (property : String) (propertySpan span : Span)
deriving DecidableEq, Repr, Inhabited

/-- The name of an element. -/
inductive Tag where
  /-- A single word that is no variable. -/
  | plain (tag : PlainTag) (span : Span)
  | namespaced (space name : String) (span : Span)
  | path (path : TagPath)
deriving DecidableEq, Repr, Inhabited

/-- The tags that the compiler itself gives a meaning to. -/
inductive ControlTag where
  | conditional
  | loop
  | fragment
deriving DecidableEq, Repr, Inhabited

def ControlTag.ofName? (name : String) : Option ControlTag :=
  if name == "If" then some .conditional
  else if name == "For" then some .loop
  else if name == "Fragment" then some .fragment
  else none

/-- Whether a tag, as it is spelt, names a component: the last segment starts with a capital letter.
A tag with a namespace never does. -/
def isComponentName (name : String) : Bool :=
  let cs := name.toList
  if cs.contains ':' then false
  else
    match (cs.reverse.takeWhile (· != '.')).reverse with
    | [] => false
    | c :: _ => c.isUpper

namespace TagPath

def ofNode : Node → TagPath
  | .node .tagMember span [object, .node (.tagName property) propertySpan _] =>
    .member (ofNode object) property propertySpan span
  | .node (.reference name) span _ => .reference name span
  | n => .this n.span

def spelling : TagPath → String
  | reference name _ => name
  | this _ => "this"
  | member object property _ _ => object.spelling ++ "." ++ property

def toNode : TagPath → Node
  | reference name span => .reference name span
  | this span => .leaf .thisValue span
  | member object property propertySpan span => .member object.toNode property propertySpan span

def start : TagPath → Nat
  | reference _ span => span.start
  | this span => span.start
  | member _ _ _ span => span.start

end TagPath

namespace Tag

def ofNode : Node → Tag
  | .node (.plainTag tag) span _ => .plain tag span
  | .node .tagNamespace span [.node (.tagName space) _ _, .node (.tagName name) _ _] =>
    .namespaced space name span
  | n => .path (.ofNode n)

def spelling : Tag → String
  | plain tag _ => tag.text
  | namespaced space name _ => space ++ ":" ++ name
  | path p => p.spelling

def start : Tag → Nat
  | plain _ span => span.start
  | namespaced _ _ span => span.start
  | path p => p.start

def isComponent : Tag → Bool
  | plain tag _ => isComponentName tag.text
  | namespaced _ _ _ => false
  | path (.reference name _) => isComponentName name
  | path (.this _) => false
  | path (.member _ property _ _) => isComponentName property

/-- The control tag that the tag is. Only a single word can be one. -/
def control? : Tag → Option ControlTag
  | plain tag _ => ControlTag.ofName? tag.text
  | path (.reference name _) => ControlTag.ofName? name
  | _ => none

def component : Tag → Except Cause Node
  | path (.this span) => .error (.unknownElement "this" span.start)
  | path p => .ok p.toNode
  | t@(plain tag span) =>
    if Text.isName tag.word.chars then .ok (.reference tag.text span)
    else .error (.unknownElement t.spelling t.start)
  | t@(namespaced _ _ _) => .error (.unknownElement t.spelling t.start)

end Tag

end TemplateCompiler
