import TemplateCompiler.Template.Attribute
import TemplateCompiler.Template.Tag

namespace TemplateCompiler

/-- A markup literal, or a part of one. -/
inductive Template where
  | element (tag : Tag) (attributes : List Attribute) (children : List Template)
  | fragment (children : List Template)
  | text (raw : String)
  /-- An embedded expression. -/
  | part (value : Node)
  /-- Braces with nothing in them. -/
  | nothing
deriving Repr, Inhabited

namespace Template

mutual

def ofNode : Node → Template
  | .node .element _ [tag, _, .node .group _ attributes, .node .group _ children] =>
    .element (.ofNode tag) (attributes.map .ofNode) (ofNodes children)
  | .node .fragment _ children => .fragment (ofNodes children)
  | .node (.text raw) _ _ => .text raw
  | .node .container _ [.node .emptyExpression _ _] => .nothing
  | .node .container _ [value] => .part value
  | .node .spreadChild _ [value] => .part value
  | _ => .nothing

def ofNodes : List Node → List Template
  | [] => []
  | n :: ns => ofNode n :: ofNodes ns

end

end Template

end TemplateCompiler
