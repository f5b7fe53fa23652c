import TemplateCompiler.Snippet
import TemplateCompiler.Template.Basic
import TemplateCompiler.Template.Dependency
import TemplateCompiler.Template.Emit
import TemplateCompiler.Template.Options
import TemplateCompiler.Template.Session

/-!
Lowering: a template becomes a closure that builds it. The closure runs statements one by one; each
element and each component gets a constant of its own, and everything inside it is attached to that.
-/

namespace TemplateCompiler

open Lower

/-- The names of the node that new nodes are attached to, and of the context they run under. -/
structure Scope where
  anchor : String
  context : String
deriving DecidableEq, Repr, Inhabited

/-- A call that keeps applying `apply` to a value while the paths it depends on change. -/
def reactiveCallback (scope : Scope) (apply value : Node) : Lower Node := do
  let callback ← require "reactiveCallback"
  let (value, paths) := reactiveValue value
  return Emit.call (Emit.name callback) [Emit.name scope.context, apply, value, Emit.array paths]

def lowerDirective (scope : Scope) (target : String) (value : Node) : Directive → Lower Node
  | .bind property =>
    reactiveCallback scope
      (Emit.arrow "value" <|
        Emit.made (.assignment "=") [Emit.access (Emit.name target) property, Emit.name "value"])
      value
  | .attr key =>
    reactiveCallback scope
      (Emit.arrow "value" <|
        Emit.call (Emit.member (Emit.name target) "setAttribute")
          [Emit.string key, Emit.name "value"])
      value
  | .ref => do
    let helper ← require "ref"
    return Emit.call (Emit.name helper) [Emit.name scope.context, Emit.name target, value]
  | .view => do
    let helper ← require "view"
    return Emit.call (Emit.name helper) [Emit.name scope.context, Emit.name target, value]
  | .model => do
    let detect ← require "detectValueChange"
    let setState ← require "setStateValue"
    let parameter ← fresh "value"
    let write := Emit.call (Emit.name setState) [value, Emit.name parameter]
    return Emit.call (Emit.name detect) [Emit.arrow parameter write, Emit.name target]
  | .on event => do
    let helper ← require "createEvent"
    listen event
    return Emit.call (Emit.name helper)
      [Emit.name scope.context, Emit.name target, Emit.string event, value]
  | .custom name modifier => do
    let registry ← require "directives"
    return Emit.call (Emit.access (Emit.name registry) name)
      [Emit.name scope.context, Emit.name target, Emit.string modifier, value]

/-- What the attributes of a tag become. -/
structure LoweredAttributes where
  /-- The members of the object of properties. -/
  props : List Node := []
  /-- The statements of the directives. -/
  directives : List Node := []
  options : TextOptions := {}

namespace LoweredAttributes

/-- The parts of one list of attributes and of the list behind it. Later instructions win. -/
def append (first rest : LoweredAttributes) : LoweredAttributes :=
  { props := first.props ++ rest.props
    directives := first.directives ++ rest.directives
    options := first.options.merge rest.options }

end LoweredAttributes

/-- The instruction that an attribute gives to the compiler. -/
def compileInstruction (modifier : String) (value : AttributeValue) (start : Nat) :
    Except Cause TextOptions :=
  if modifier == "preserveWhitespace" then .ok ⟨some value.spaceMode⟩
  else .error (.unsupportedModifier modifier start)

def lowerAttribute (scope : Scope) (target : String) : Attribute → Lower LoweredAttributes
  | .spread value => return { props := [Emit.spread value] }
  | .named name value start =>
    match AttributeKind.ofName name with
    | .compile modifier => do
      let options ← check (compileInstruction modifier value start)
      return { options }
    | .directive directive => do
      let call ← lowerDirective scope target (value.toNode Emit.null) directive
      return { directives := [Emit.statement call] }
    | .prop => return { props := [Emit.property name (value.toNode Emit.yes)] }

/-- What the attributes of a tag become, from left to right. -/
def lowerAttributes (scope : Scope) (target : String) : List Attribute → Lower LoweredAttributes
  | [] => return {}
  | a :: as => do
    let first ← lowerAttribute scope target a
    let rest ← lowerAttributes scope target as
    return first.append rest

/-- The instructions to the compiler among attributes, all others left out. -/
def instructions : List Attribute → Except Cause TextOptions
  | [] => .ok {}
  | .named name value start :: as =>
    match AttributeKind.ofName name with
    | .compile modifier => do
      let first ← compileInstruction modifier value start
      return first.merge (← instructions as)
    | _ => instructions as
  | .spread _ :: as => instructions as

/-- The constant of an element or component, and the statements of its directives. -/
def creation (helper target : String) (scope : Scope) (subject : List Node)
    (attributes : LoweredAttributes) : List Node :=
  let arguments := [Emit.name scope.anchor, Emit.name scope.context] ++ subject ++
    [Emit.object attributes.props]
  Emit.constant (Emit.binding target) (Emit.call (Emit.name helper) arguments) ::
    attributes.directives

/-- The statement that appends a text, unless it is empty. -/
def flush (helper : String) (scope : Scope) (text : String) : List Node :=
  if text.isEmpty then []
  else [Emit.statement (Emit.call (Emit.name helper) [Emit.name scope.anchor, Emit.string text])]

/-- The statement that appends the value of an expression and keeps it current. -/
def lowerPart (scope : Scope) (value : Node) : Lower (List Node) := do
  let helper ← require "reactivePart"
  let (value, paths) := reactiveValue value
  return [Emit.statement <| Emit.call (Emit.name helper)
    [Emit.name scope.context, Emit.name scope.anchor, value, Emit.array paths]]

/-- Names for a new fragment and the context that it is built under. -/
def newScope : Lower Scope := do
  let anchor ← fresh "root"
  let context ← fresh "ctx"
  return { anchor, context }

/-- The helper that makes a control component, and the name that its constant is made from. -/
def ControlTag.constructor? : ControlTag → Option (String × String)
  | .conditional => some ("createIfComponent", "if_comp")
  | .loop => some ("createForComponent", "for_comp")
  | .fragment => none

mutual

/-- The statements that build a template under an anchor. Text is gathered by `lowerRun`. -/
def lowerTree (scope : Scope) (options : TextOptions) : Template → Lower (List Node)
  | .element tag attributes children => do
    if !tag.isComponent then
      let helper ← require "element"
      let target ← fresh "ele"
      let lowered ← lowerAttributes scope target attributes
      let head := creation helper target scope [Emit.string tag.spelling] lowered
      if children.isEmpty then return head
      let text ← require "appendText"
      let inner ← lowerRun { scope with anchor := target } (options.merge lowered.options) text ""
        children
      return head ++ inner
    else
      match tag.control? with
      | some control =>
        match control.constructor? with
        | some (symbol, base) =>
          let helper ← require symbol
          let target ← fresh base
          let lowered ← lowerAttributes scope target attributes
          return creation helper target scope [] lowered
        | none =>
          let own ← check (instructions attributes)
          let text ← require "appendText"
          lowerRun scope (options.merge own) text "" children
      | none =>
        let component ← check tag.component
        let helper ← require "createComponent"
        let target ← fresh "comp"
        let lowered ← lowerAttributes scope target attributes
        let head := creation helper target scope [component] lowered
        if children.isEmpty then return head
        let slot ← newScope
        let text ← require "appendText"
        let inner ← lowerRun slot (options.merge lowered.options) text "" children
        let setSlot := Emit.call (Emit.member (Emit.name target) "setSlot")
          [Emit.closure slot.anchor slot.context inner]
        return head ++ [Emit.statement setSlot]
  | .fragment children => do
    let text ← require "appendText"
    lowerRun scope options text "" children
  | .part value => lowerPart scope value
  | .text _ => return []
  | .nothing => return []

/-- The statements that build templates one behind the other. Texts that follow one another are
gathered in `pending` and appended by the helper with the given name when something else comes. -/
def lowerRun (scope : Scope) (options : TextOptions) (helper pending : String) :
    List Template → Lower (List Node)
  | [] => return flush helper scope pending
  | .text raw :: rest =>
    lowerRun scope options helper
      (pending ++ Text.normalize options.mode (Text.decodeEntities raw)) rest
  | t :: rest => do
    let first ← lowerTree scope options t
    let later ← lowerRun scope options helper "" rest
    return flush helper scope pending ++ first ++ later

end

def lowerTemplate (t : Template) : Lower Node := do
  let scope ← newScope
  match t with
  | .element tag _ _ =>
    note ("[RumiousNative] Lowering <" ++ tag.spelling ++ "> into " ++ scope.anchor)
  | _ => pure ()
  let items ← lowerTree scope .root t
  return Emit.closure scope.anchor scope.context items

/-- The statements of a finished file: the imports, its own statements, and the call that sets up
the events. -/
def finishProgram (body : List Node) : Lower (List Node) := do
  let helper ← require "eventDelegate"
  let s ← get
  let delegate := Emit.statement <|
    Emit.call (Emit.name helper) [Emit.array (s.events.map Emit.string)]
  let imports ← check (Snippet.statements s.imports.text)
  return imports ++ body ++ [delegate]

end TemplateCompiler
