import TemplateCompiler.Proofs.Syntax.Descent

namespace TemplateCompiler

/-- Some of the parts of a node. -/
inductive Selection where
  | nothing
  | first
  | later
  | everything
deriving DecidableEq, Repr

def Selection.of {α : Type} : Selection → List α → List α
  | .nothing, _ => []
  | .first, parts => parts.take 1
  | .later, parts => parts.drop 1
  | .everything, parts => parts

/-- The parts whose names a node introduces where it stands. A default, a type or a computed key is
not among them, and neither is the inside of a function. -/
def Form.naming : Form → Selection
  | .arrayPattern => .everything
  | .objectPattern => .everything
  | .patternRest => .everything
  | .patternDefault => .first
  | .patternProperty _ _ => .later
  | .parameters => .everything
  | .parameter _ => .first
  | .restParameter => .first
  | .variableDeclaration _ _ => .everything
  | .declarator _ => .first
  | .function traits => if traits.isDeclaration then .first else .nothing
  | .classDefinition isDeclaration _ => if isDeclaration then .first else .nothing
  | .enumeration _ _ => .first
  | .moduleDeclaration _ _ => .first
  | .qualifiedName => .first
  | .importEquals _ => .first
  | .importDeclaration _ => .everything
  | .importSpecifier _ => .everything
  | .importDefault => .everything
  | .importNamespace => .everything
  | .exportNamed _ => .everything
  | .exportDefault => .everything
  | .labelled => .later
  | .group => .everything
  | _ => .nothing

/-- The names that a node introduces where it stands, from those that its parts introduce. -/
def Form.introduces (form : Form) (parts : List (List String)) : List String :=
  match form with
  | .binding name => [name]
  | form => (form.naming.of parts).flatten

namespace Node

mutual

/-- The names that a node introduces where it stands. -/
def introduced : Node → List String
  | node form _ children => form.introduces (introducedEach children)

/-- The names that each of the nodes introduces where it stands. -/
def introducedEach : List Node → List (List String)
  | [] => []
  | n :: ns => introduced n :: introducedEach ns

end

/-- The names that a statement introduces in the block that it stands in. A `var` belongs to
the function around it. -/
def lexical : Node → List String
  | node (.variableDeclaration .var _) _ _ => []
  | n => n.introduced

mutual

/-- The names that a part of a function introduces in the whole of it. -/
def hoisted : Node → List String
  | node form _ children =>
    match form with
    | .variableDeclaration .var _ => (introducedEach children).flatten
    | .function _ => []
    | .arrow _ => []
    | .classDefinition _ _ => []
    | .staticBlock => []
    | .moduleBlock => []
    | _ => hoistedOfList children

def hoistedOfList : List Node → List String
  | [] => []
  | n :: ns => hoisted n ++ hoistedOfList ns

end

/-- The name by which the members of an enumeration know a part of it. -/
def enumerated : Node → List String
  | node (.enumMember _) _ (node (.label name) _ _ :: _) => [name]
  | node (.enumMember _) _ (node (.string name) _ _ :: _) => [name]
  | n => n.introduced

end Node

/-- What a path can start with. -/
inductive Head where
  | named (name : String)
  | this
deriving DecidableEq, Repr

namespace Form

/-- The variables that a node has for itself: the name and the parameters of a function, what is
declared in a block. Functions in blocks are local to them, as in strict code. -/
def locals (form : Form) (parts : List Node) : List String :=
  match form with
  | .function _ => "arguments" :: (Node.introducedEach (parts.take 3)).flatten
  | .arrow _ => (Node.introducedEach (parts.take 2)).flatten
  | .functionType => (Node.introducedEach (parts.take 2)).flatten
  | .constructorType _ => (Node.introducedEach (parts.take 2)).flatten
  | .callSignature => (Node.introducedEach (parts.take 2)).flatten
  | .constructSignature => (Node.introducedEach (parts.take 2)).flatten
  | .methodSignature _ _ _ => (Node.introducedEach (parts.take 3)).flatten
  | .classDefinition _ _ => (Node.introducedEach (parts.take 1)).flatten
  | .catchClause => (Node.introducedEach (parts.take 1)).flatten
  | .block => parts.flatMap Node.lexical
  | .forStatement => parts.flatMap Node.lexical
  | .forIn => parts.flatMap Node.lexical
  | .forOf _ => parts.flatMap Node.lexical
  | .switchStatement =>
      (parts.drop 1).flatMap fun part => (part.children.drop 1).flatMap Node.lexical
  | .body => parts.flatMap Node.lexical ++ Node.hoistedOfList parts
  | .program _ => parts.flatMap Node.lexical ++ Node.hoistedOfList parts
  | .staticBlock => parts.flatMap Node.lexical ++ Node.hoistedOfList parts
  | .moduleBlock => parts.flatMap Node.lexical ++ Node.hoistedOfList parts
  | .enumeration _ _ => parts.flatMap Node.enumerated
  | _ => []

/-- Whether `this` is another one in a node than around it. An arrow
function has none of its own. -/
def hasOwnThis : Form → Bool
  | .function _ => true
  | .field _ _ _ => true
  | .staticBlock => true
  | _ => false

/-- Whether a node binds what a path starts with. Under `with`, any variable may be a
property of the object. -/
def binds (form : Form) (parts : List Node) : Head → Bool
  | .this => form.hasOwnThis
  | .named name => form == .withStatement || (form.locals parts).contains name

/-- How many parts of a node stand before what it binds: the key of a member, the subject of a
`switch`, the object of a `with`. -/
def partsBefore : Form → Nat
  | .field _ _ _ => 1
  | .methodSignature _ _ _ => 1
  | .switchStatement => 1
  | .withStatement => 1
  | _ => 0

/-- A value for the parts of a node before what it binds, and another one for
those where it is bound. -/
def distribute {σ : Type} (form : Form) (before inside : σ) (parts : List Node) : List σ :=
  (parts.take form.partsBefore).map (fun _ => before) ++
    (parts.drop form.partsBefore).map fun _ => inside

end Form

/-- What a node hides from its parts, in addition to what is hidden from the node. -/
def hides : Node.Rule (Head → Bool) := fun hidden form parts =>
  form.distribute hidden (fun head => hidden head || form.binds parts head) parts

end TemplateCompiler
