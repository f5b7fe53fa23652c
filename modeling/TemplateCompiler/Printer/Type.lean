import TemplateCompiler.Printer.Expression

namespace TemplateCompiler.Printer

def printTypeArguments (print : Print) (items : List Node) : PrintM Unit := do
  put "<"
  commaList print.plain items
  put ">"

/-- Items each on a line of its own, with commas between them. -/
def printLines (print : Print) : List Node → PrintM Unit
  | [] => pure ()
  | n :: rest => do
    indent
    print.plain n
    if !rest.isEmpty then put ","
    newline
    printLines print rest

/-- Type parameters in angle brackets: several of them on lines of their own, and one alone with a
comma where it could be taken for a tag. -/
def printTypeParameters (print : Print) (items : List Node) : PrintM Unit := do
  if items.length ≥ 2 then
    put "<\n"
    deeper
    printLines print items
    shallower
    indent
    put ">"
  else
    put "<"
    commaList print.plain items
    if (← get).hasMarkup then put ","
    put ">"

/-- Members of an object type, each on a line of its own. -/
def printTypeMembers (print : Print) (span : Span) (members : List Node) : PrintM Unit :=
  braces span members.isEmpty do
    each (fun m => do
      indent
      print.plain m
      put ";\n") members

def printSignature (print : Print) (between : String) (generics params result : Node) :
    PrintM Unit := do
  print.plain generics
  put "("
  print.plain params
  put ")"
  print.optional between result

def printJoined (print : Print) (operator : String) : List Node → PrintM Unit
  | [] => pure ()
  | [n] => print.plain n
  | n :: rest => do
    print.plain n
    put operator
    printJoined print operator rest

/-- The chunks of a type template after the first one. -/
def printTypeChunks (print : Print) : List Node → PrintM Unit
  | type :: .node (.chunk raw) _ _ :: rest => do
    put "$\x7b"
    print.plain type
    put "\x7d"
    put raw
    printTypeChunks print rest
  | _ => pure ()

/-- A literal in a type keeps its spelling. -/
def printTypeLiteral (print : Print) : Node → PrintM Unit
  | .node (.number raw) span _ => do
    mark span
    put raw
  | .node (.unary "-") span [.node (.number raw) inner _] => do
    mark span
    put "-"
    mark inner
    put raw
  | n => print.plain n

/-- A type with one member for each key of another, on one line. -/
def printMappedType (print : Print) (readonlyMark optionalMark : String)
    (name bound renamed type : Node) : PrintM Unit := do
  put "\x7b "
  if readonlyMark != "" then put (readonlyMark ++ " ")
  put "["
  print.plain name
  put " in "
  print.plain bound
  print.optional " as " renamed
  put "]"
  put optionalMark
  print.annotation type
  put " \x7d"

def printType? (print : Print) : Node → Option (PrintM Unit)
  | .node (.typeKeyword word) span _ => some do
    mark span
    put word
  | .node .typeReference span [name, types] => some do
    mark span
    print.plain name
    print.plain types
  | .node .qualifiedName _ [left, right] => some do
    print.plain left
    put "."
    print.plain right
  | .node .typeQuery _ [name, types] => some do
    put "typeof "
    print.plain name
    print.plain types
  | .node .arrayType _ [inner] => some do
    print.plain inner
    put "[]"
  | .node .indexedAccess _ [inner, index] => some do
    print.plain inner
    put "["
    print.plain index
    put "]"
  | .node .unionType _ types => some (printJoined print " | " types)
  | .node .intersectionType _ types => some (printJoined print " & " types)
  | .node .literalType _ [literal] => some (printTypeLiteral print literal)
  | .node .objectType span members => some (printTypeMembers print span members)
  | .node .functionType _ [generics, params, result] =>
    some (printSignature print " => " generics params result)
  | .node (.constructorType isAbstract) _ [generics, params, result] => some do
    if isAbstract then put "abstract "
    put "new "
    printSignature print " => " generics params result
  | .node .tupleType _ items => some do
    put "["
    commaList print.plain items
    put "]"
  | .node (.namedTupleMember isOptional) _ [name, type] => some do
    print.plain name
    put (if isOptional then "?: " else ": ")
    print.plain type
  | .node .optionalType _ [type] => some do
    print.plain type
    put "?"
  | .node .restType _ [type] => some do
    put "..."
    print.plain type
  | .node (.typeOperator keyword) _ [type] => some do
    put (keyword ++ " ")
    print.plain type
  | .node .parenthesizedType _ [type] => some do
    put "("
    print.plain type
    put ")"
  | .node .conditionalType _ [checked, bound, consequent, alternative] => some do
    print.plain checked
    put " extends "
    print.plain bound
    put " ? "
    print.plain consequent
    put " : "
    print.plain alternative
  | .node .inferType _ [parameter] => some do
    put "infer "
    print.plain parameter
  | .node (.typePredicate isAsserts) _ [subject, type] => some do
    if isAsserts then put "asserts "
    print.plain subject
    print.optional " is " type
  | .node (.mappedType readonlyMark optionalMark) _ [name, bound, renamed, type] =>
    some (printMappedType print readonlyMark optionalMark name bound renamed type)
  | .node .templateType _ (.node (.chunk raw) _ _ :: rest) => some do
    put "\x60"
    put raw
    printTypeChunks print rest
    put "\x60"
  | .node .importType _ [source, qualifier, types] => some do
    put "import("
    print.plain source
    put ")"
    print.optional "." qualifier
    print.plain types
  | .node .typeParameters _ items => some (printTypeParameters print items)
  | .node (.typeParameter words) _ [name, bound, fallback] => some do
    each (fun word => put (word ++ " ")) words
    print.plain name
    print.optional " extends " bound
    print.optional " = " fallback
  | .node .typeArguments _ items => some (printTypeArguments print items)
  | .node (.propertySignature isComputed modifiers) _ [key, type] => some do
    if modifiers.isReadonly then put "readonly "
    printKey print isComputed key
    if modifiers.isOptional then put "?"
    print.annotation type
  | .node (.methodSignature accessor isComputed isOptional) _ [key, generics, params, result] =>
    some do
    match accessor with
    | .getter => put "get "
    | .setter => put "set "
    | .value => pure ()
    printKey print isComputed key
    if isOptional then put "?"
    printSignature print ": " generics params result
  | .node .callSignature _ [generics, params, result] =>
    some (printSignature print ": " generics params result)
  | .node .constructSignature _ [generics, params, result] => some do
    put "new "
    printSignature print ": " generics params result
  | .node (.indexSignature modifiers) _ [name, index, type] => some do
    if modifiers.isStatic then put "static "
    if modifiers.isReadonly then put "readonly "
    put "["
    print.plain name
    put ": "
    print.plain index
    put "]"
    print.annotation type
  | _ => none

end TemplateCompiler.Printer
