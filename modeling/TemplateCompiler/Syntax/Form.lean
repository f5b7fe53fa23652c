import TemplateCompiler.Syntax.Span
import TemplateCompiler.Syntax.Word

/-!
The labels of syntax trees. A label says what a node is and carries the words written in it; the
parts of the node are its children, in the order in which they are written. An optional part that is
not written stands in the list of children as `Form.absent`, so that the position of a part never
moves.

What the grammar leaves out has no label: decorators, declarations with `using` and `await using`,
and the phases of an import, `defer` and `source`.
-/

namespace TemplateCompiler

/-- Who may see a class member. -/
inductive Access where
  | everyone
  | heirs
  | owner
deriving DecidableEq, Repr, Inhabited

def Access.keyword : Access → String
  | .everyone => "public"
  | .heirs => "protected"
  | .owner => "private"

/-- The words in front of a class member, a parameter or a declaration. -/
structure Modifiers where
  access : Option Access := none
  isDeclared : Bool := false
  isStatic : Bool := false
  isAbstract : Bool := false
  isOverride : Bool := false
  isReadonly : Bool := false
  isOptional : Bool := false
  isDefinite : Bool := false
deriving DecidableEq, Repr, Inhabited

/-- What tells one function from another apart from its parts. -/
structure FunctionTraits where
  isDeclaration : Bool := false
  isAsync : Bool := false
  isGenerator : Bool := false
  isDeclared : Bool := false
  isParenthesized : Bool := false
  isPure : Bool := false
deriving DecidableEq, Repr, Inhabited

/-- How a member of an object or a class is reached. -/
inductive Accessor where
  | value
  | getter
  | setter
deriving DecidableEq, Repr, Inhabited

/-- What tells one property of an object literal from another apart from its key and value. -/
structure PropertyTraits where
  accessor : Accessor := .value
  isMethod : Bool := false
  isShorthand : Bool := false
  isComputed : Bool := false
deriving DecidableEq, Repr, Inhabited

/-- The keyword of a variable declaration. -/
inductive VariableKind where
  | var
  | letVar
  | constVar
deriving DecidableEq, Repr, Inhabited

def VariableKind.keyword : VariableKind → String
  | .var => "var"
  | .letVar => "let"
  | .constVar => "const"

/-- What stands before the statements of a program: a first line for an interpreter, and
directives. -/
structure Prologue where
  hashbang : Option (String × Span) := none
  directives : List (String × Span) := []
deriving DecidableEq, Repr, Inhabited

/-- What a node of a syntax tree is. The comments name the children. -/
inductive Form where
  /-- A part that is not written. -/
  | absent
  /-- Several parts that stand together in one place of another node. -/
  | group
  -- names
  /-- A use of a variable. -/
  | reference (name : String)
  /-- A place that introduces a variable or a type. -/
  | binding (name : String)
  /-- A name that is neither: a property, a label, an imported or exported name. -/
  | label (name : String)
  | privateName (name : String)
  -- literals
  | thisValue
  | superValue
  | nullLiteral
  | boolean (value : Bool)
  /-- A number as it is spelt. -/
  | number (raw : String)
  | bigInteger (raw : String)
  | string (value : String)
  | regex (raw : String)
  /-- Chunks and expressions in turn, a chunk first and last. -/
  | template
  | chunk (raw : String)
  /-- Tag, type arguments, template. -/
  | taggedTemplate
  -- expressions
  /-- Elements, with `absent` for a hole. -/
  | array
  | object
  /-- Key, value. -/
  | property (traits : PropertyTraits)
  /-- Shorthand name, default: legal only where the object turns out to be a pattern. -/
  | coverDefault
  | spread
  /-- Name, type parameters, parameters, result type, body. -/
  | function (traits : FunctionTraits)
  /-- Type parameters, parameters, result type, body; the body is a `body` or an expression. -/
  | arrow (traits : FunctionTraits)
  | parameters
  /-- Pattern, type, default. -/
  | parameter (modifiers : Modifiers)
  /-- Pattern, type. -/
  | restParameter
  /-- Type. -/
  | thisParameter
  /-- Directives, then statements. -/
  | body
  | directive (raw : String)
  /-- Name, type parameters, superclass, its type arguments, group of interfaces, class body. -/
  | classDefinition (isDeclaration : Bool) (modifiers : Modifiers)
  /-- Expression or type name, type arguments. -/
  | heritage
  | classBody
  /-- Key, function. -/
  | method (accessor : Accessor) (isComputed : Bool) (modifiers : Modifiers)
  /-- Key, type, value. -/
  | field (isAccessor : Bool) (isComputed : Bool) (modifiers : Modifiers)
  | staticBlock
  | unary (operator : String)
  | update (operator : String) (isBefore : Bool)
  | binary (operator : String)
  | logical (operator : String)
  /-- Test, consequent, alternative. -/
  | conditional
  /-- Target, value. -/
  | assignment (operator : String)
  | sequence
  | awaitValue
  | yieldValue (delegates : Bool)
  /-- Callee, type arguments, then the arguments. -/
  | call (isOptional : Bool) (isPure : Bool)
  /-- Callee, type arguments, then the arguments. -/
  | construct (isPure : Bool)
  /-- Object, label. -/
  | member (isOptional : Bool)
  /-- Object, index. -/
  | index (isOptional : Bool)
  /-- Object, private name. -/
  | privateMember (isOptional : Bool)
  | chain
  | importCall
  /-- Label, label. -/
  | metaProperty
  | parenthesized
  /-- Expression, type. -/
  | typeAssertion (keyword : String)
  | nonNull
  /-- Expression, type arguments. -/
  | instantiation
  -- targets of assignments
  | arrayTarget
  | objectTarget
  /-- Reference, default. -/
  | targetShorthand
  /-- Key, target. -/
  | targetProperty (isComputed : Bool)
  /-- Target, default. -/
  | targetDefault
  | targetRest
  -- binding patterns
  | arrayPattern
  | objectPattern
  /-- Key, pattern. -/
  | patternProperty (isComputed : Bool) (isShorthand : Bool)
  /-- Pattern, default. -/
  | patternDefault
  | patternRest
  -- statements
  /-- Statements. -/
  | program (prologue : Prologue)
  | hashbang (text : String)
  | block
  | emptyStatement
  | expressionStatement
  /-- Test, consequent, alternative. -/
  | ifStatement
  /-- Start, test, step, body. -/
  | forStatement
  /-- Left, right, body. -/
  | forIn
  /-- Left, right, body. -/
  | forOf (isAwait : Bool)
  | whileStatement
  /-- Body, test. -/
  | doWhile
  | continueStatement
  | breakStatement
  | returnStatement
  | throwStatement
  | withStatement
  /-- Subject, then the cases. -/
  | switchStatement
  /-- Test, then the statements. -/
  | switchCase
  /-- Label, statement. -/
  | labelled
  /-- Block, handler, finalizer. -/
  | tryStatement
  /-- Pattern, type, block. -/
  | catchClause
  | debuggerStatement
  /-- Declarators. -/
  | variableDeclaration (kind : VariableKind) (isDeclared : Bool)
  /-- Pattern, type, initializer. -/
  | declarator (isDefinite : Bool)
  -- modules
  /-- Group of specifiers or `absent`, source, attributes. -/
  | importDeclaration (isType : Bool)
  /-- Imported name, local name. -/
  | importSpecifier (isType : Bool)
  | importDefault
  | importNamespace
  /-- Declaration, group of specifiers, source, attributes. -/
  | exportNamed (isType : Bool)
  /-- Local name, exported name. -/
  | exportSpecifier (isType : Bool)
  | exportDefault
  /-- Exported name, source, attributes. -/
  | exportAll (isType : Bool)
  | importAttributes (keyword : String)
  /-- Key, value. -/
  | importAttribute
  -- declarations of types
  /-- Name, type parameters, type. -/
  | typeAlias (isDeclared : Bool)
  /-- Name, type parameters, group of supertypes, object type. -/
  | interface (isDeclared : Bool)
  /-- Name, then the members. -/
  | enumeration (isDeclared : Bool) (isConst : Bool)
  /-- Key, value. -/
  | enumMember (isComputed : Bool)
  /-- Name, body. -/
  | moduleDeclaration (keyword : String) (isDeclared : Bool)
  | moduleBlock
  /-- Name, entity or external source. -/
  | importEquals (isType : Bool)
  | externalModule
  | exportAssignment
  | namespaceExport
  -- types
  | typeKeyword (word : String)
  /-- Name, type arguments. -/
  | typeReference
  | qualifiedName
  /-- Name, type arguments. -/
  | typeQuery
  | arrayType
  | indexedAccess
  | unionType
  | intersectionType
  | literalType
  | objectType
  /-- Type parameters, parameters, result. -/
  | functionType
  /-- Type parameters, parameters, result. -/
  | constructorType (isAbstract : Bool)
  | tupleType
  /-- Label, type. -/
  | namedTupleMember (isOptional : Bool)
  | optionalType
  | restType
  | typeOperator (keyword : String)
  | parenthesizedType
  /-- Checked, bound, consequent, alternative. -/
  | conditionalType
  | inferType
  /-- Subject, type. -/
  | typePredicate (isAsserts : Bool)
  /-- Name, constraint, renaming, type. -/
  | mappedType (readonlyMark : String) (optionalMark : String)
  | templateType
  /-- Argument, qualifier, type arguments. -/
  | importType
  | typeParameters
  /-- Name, constraint, default. -/
  | typeParameter (words : List String)
  | typeArguments
  /-- Key, type. -/
  | propertySignature (isComputed : Bool) (modifiers : Modifiers)
  /-- Key, type parameters, parameters, result. -/
  | methodSignature (accessor : Accessor) (isComputed : Bool) (isOptional : Bool)
  /-- Type parameters, parameters, result. -/
  | callSignature
  /-- Type parameters, parameters, result. -/
  | constructSignature
  /-- Label, type of the index, type. -/
  | indexSignature (modifiers : Modifiers)
  -- markup
  /-- Tag, type arguments, group of attributes, group of children. -/
  | element
  | fragment
  /-- The name of an element that is a single word and no variable. -/
  | plainTag (tag : PlainTag)
  /-- A segment of a tag with several, or the name of an attribute. -/
  | tagName (name : String)
  /-- Namespace, name. -/
  | tagNamespace
  /-- Object, name. -/
  | tagMember
  /-- Name, value. -/
  | attribute
  | attributeSpread
  | container
  | emptyExpression
  | spreadChild
  | text (raw : String)
deriving DecidableEq, Repr, Inhabited

namespace Form

/-- The name that a node uses or introduces. -/
def identifier? : Form → Option String
  | reference name => some name
  | binding name => some name
  | _ => none

def isMarkup : Form → Bool
  | element => true
  | fragment => true
  | _ => false

end Form

end TemplateCompiler
