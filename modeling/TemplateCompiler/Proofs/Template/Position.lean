import TemplateCompiler.Proofs.Syntax.Scope
import TemplateCompiler.Proofs.Template.Embedding

/-!
What becomes of the parts of a program that holds markup, read off the program alone.
Expressions are kept, at any depth; of a literal, the type arguments of its tags are dropped,
and so are the children of conditionals and loops, the attributes of fragments, and the values
of instructions to the compiler.
-/

namespace TemplateCompiler

open Node

/-- Where a node stands. -/
inductive Position where
  /-- Outside markup, or where markup has an expression in it. -/
  | value
  /-- The tag of a component. -/
  | tag
  /-- The attributes of a tag. -/
  | attributes
  | attribute
  /-- An attribute's value in quotes. -/
  | quoted
  /-- An attribute's value in braces. -/
  | braces
  /-- What stands between two tags. -/
  | children
  | child
  /-- Nothing becomes of it. -/
  | dropped
deriving DecidableEq, Repr

def elementPositions : List Node → List Position
  | [tag, _, .node .group _ _, .node .group _ _] =>
    match (Tag.ofNode tag).control? with
    | some .conditional => [.dropped, .dropped, .attributes, .dropped]
    | some .loop => [.dropped, .dropped, .attributes, .dropped]
    | some .fragment => [.dropped, .dropped, .dropped, .children]
    | none =>
      [if (Tag.ofNode tag).isComponent then .tag else .dropped, .dropped, .attributes, .children]
  | _ => []

/-- The position of what is written behind the equals sign of an attribute. -/
def AttributeValue.position : AttributeValue → Position
  | .missing => .dropped
  | .string _ _ => .quoted
  | .expression _ => .braces
  | .empty => .dropped
  | .markup _ => .value

/-- The position of the value of an attribute with a name. -/
def valuePosition (name : String) (value : Node) : Position :=
  match AttributeKind.ofName name with
  | .compile _ => .dropped
  | _ => (AttributeValue.ofNode value).position

/-- The positions of the parts of a node from its own one. -/
def positions : Rule Position
  | .value, .element, parts => elementPositions parts
  | .value, .fragment, parts => parts.map fun _ => .child
  | .value, _, parts => parts.map fun _ => .value
  | .attributes, .group, parts => parts.map fun _ => .attribute
  | .attribute, .attributeSpread, [_] => [.value]
  | .attribute, .attribute, [name, value] => [.dropped, valuePosition (Attribute.nameOf name) value]
  | .braces, .container, [_] => [.value]
  | .children, .group, parts => parts.map fun _ => .child
  | .child, .element, parts => elementPositions parts
  | .child, .fragment, parts => parts.map fun _ => .child
  | .child, .container, [.node .emptyExpression _ _] => [.dropped]
  | .child, .container, [_] => [.value]
  | .child, .spreadChild, [_] => [.value]
  | _, _, _ => []

def Node.place (n : Node) : Form × Span := (n.form, n.span)

def Node.places (n : Node) : List (Form × Span) := n.nodes.map place

/-- Whether an element is a component with something between its tags. -/
def hasSlot : Node → Bool
  | .node .element _ [tag, _, .node .group _ _, .node .group _ (_ :: _)] =>
    (Tag.ofNode tag).isComponent && (Tag.ofNode tag).control?.isNone
  | _ => false

/-- The paths that the value of a directive is kept current by. -/
def Directive.copiedPaths (value : Node) : Directive → List Node
  | .bind _ => dependencies value
  | .attr _ => dependencies value
  | _ => []

/-- The paths that are copied for a node: those read by an expression between tags, or by the value
of a directive that is kept current. -/
def copiedPaths : Position → Node → List Node
  | .child, .node .container _ [.node .emptyExpression _ _] => []
  | .child, .node .container _ [value] => dependencies value
  | .child, .node .spreadChild _ [value] => dependencies value
  | .attribute, .node .attribute _ [name, value] =>
    match AttributeKind.ofName (Attribute.nameOf name) with
    | .directive directive => directive.copiedPaths ((AttributeValue.ofNode value).toNode Emit.null)
    | _ => []
  | _, _ => []

/-- The expressions that the tag of a component and the quotes of an attribute become. -/
def convertedParts : Position → Node → List Node
  | .tag, n =>
    match Tag.ofNode n with
    | .path path => [path.toNode]
    | _ => []
  | .quoted, .node (.string raw) span _ => [.string (Text.decodeEntities raw) span]
  | _, _ => []

/-- What is kept of a node, its parts left aside: an expression or statement
itself, or what it becomes. -/
def keptPlaces (position : Position) (n : Node) : List (Form × Span) :=
  (if position = .value ∧ n.form.isMarkup = false then [n.place] else []) ++
    (convertedParts position n).flatMap Node.places

namespace Node

/-- The markup literals of a program that become closures. -/
def survivors (program : Node) : List Node :=
  (program.reached positions .value).flatMap fun v =>
    if v.1 = .value ∧ v.2.form.isMarkup = true then [v.2] else []

/-- The components of a program that get a closure for what stands between their tags. -/
def slots (program : Node) : List Node :=
  (program.reached positions .value).flatMap fun v =>
    if (v.1 = .value ∨ v.1 = .child) ∧ hasSlot v.2 = true then [v.2] else []

/-- What of a program is kept. -/
def kept (program : Node) : List (Form × Span) :=
  (program.reached positions .value).flatMap fun v => keptPlaces v.1 v.2

/-- What of a program is copied into lists of dependencies. -/
def copied (program : Node) : List (Form × Span) :=
  (program.reached positions .value).flatMap fun v => (copiedPaths v.1 v.2).flatMap places

end Node

end TemplateCompiler
