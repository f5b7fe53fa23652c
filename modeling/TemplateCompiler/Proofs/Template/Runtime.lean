import TemplateCompiler.Template.Lowering

/-!
A runtime for lowered templates. The body of a closure is run statement by statement over the
fragments made so far; the environment says which names stand for nodes of them, and which for
contexts. What a statement is about that does not concern the tree, a value or the properties of an
element, is not evaluated. A run that looks up a name which stands for no node, or hands over a
context that is not the one of the closure it is in, is stuck.

Beside it stands what a template denotes: the views that it describes, read off the template alone.
-/

namespace TemplateCompiler

/-- What a component node is made from. -/
inductive ComponentKind where
  | custom (reference : Node)
  | conditional
  | loop
deriving Repr, Inhabited

/-- A node of the tree that a template builds. -/
inductive View where
  | element (tag : String) (children : List View)
  /-- A component, with the views that it was given to show, if it was given any. -/
  | component (kind : ComponentKind) (slot : Option (List View))
  | text (content : String)
  /-- The place of a value and of the paths that it is kept current with. -/
  | part (value : Node) (paths : List Node)
deriving Repr, Inhabited

namespace Runtime

/-- A node under construction: the fragment that it is in, and the positions on the way to it. The
fragment itself is at the empty path. -/
structure Place where
  fragment : Nat
  path : List Nat
deriving DecidableEq, Repr, Inhabited

/-- What a name stands for. Contexts are told apart by the number of fragments at the entry of their
closure. -/
inductive Value where
  | node (place : Place)
  | context (level : Nat)
deriving DecidableEq, Repr, Inhabited

abbrev Bindings := List (String × Value)

/-- The fragments made so far. -/
abbrev Document := List (List View)

/-- Why a run cannot go on. -/
inductive Stuck where
  | unboundNode (name : String)
  | foreignContext (name : String)
  | unknownHelper (name : String)
  | misplaced (place : Place)
  | malformed
deriving DecidableEq, Repr, Inhabited

/-- The node that an expression stands for. -/
def nodeOf (env : Bindings) : Node → Except Stuck Place
  | .node (.reference name) _ _ =>
    match env.lookup name with
    | some (.node place) => .ok place
    | _ => .error (.unboundNode name)
  | _ => .error .malformed

/-- Only the context of the closure that is running may be handed over. -/
def checkContext (env : Bindings) (level : Nat) : Node → Except Stuck Unit
  | .node (.reference name) _ _ =>
    if env.lookup name = some (.context level) then .ok () else .error (.foreignContext name)
  | _ => .error .malformed

/-- The helper that an expression stands for, unless the name has another meaning here. -/
def helperOf (helper? : String → Option String) (env : Bindings) : Node → Except Stuck String
  | .node (.reference name) _ _ =>
    match env.lookup name, helper? name with
    | none, some symbol => .ok symbol
    | _, _ => .error (.unknownHelper name)
  | _ => .error .malformed

def viewsAt : List Nat → List View → Option (List View)
  | [], views => some views
  | i :: path, views =>
    match views[i]? with
    | some (.element _ children) => viewsAt path children
    | _ => none

def appendAt (added : List View) : List Nat → List View → Option (List View)
  | [], views => some (views ++ added)
  | i :: path, views =>
    match views[i]? with
    | some (.element tag children) =>
      (appendAt added path children).map fun children => views.set i (.element tag children)
    | _ => none

/-- Gives views to the component at a path. -/
def slotAt (slot : List View) : List Nat → List View → Option (List View)
  | [], _ => none
  | i :: path, views =>
    match views[i]?, path with
    | some (.component kind _), [] => some (views.set i (.component kind (some slot)))
    | some (.element tag children), _ :: _ =>
      (slotAt slot path children).map fun children => views.set i (.element tag children)
    | _, _ => none

/-- The document with the fragment of a place changed. -/
def change (edit : List Nat → List View → Option (List View)) (place : Place) (doc : Document) :
    Except Stuck Document :=
  match doc[place.fragment]? with
  | some views =>
    match edit place.path views with
    | some views => .ok (doc.set place.fragment views)
    | none => .error (.misplaced place)
  | none => .error (.misplaced place)

def viewsUnder (place : Place) (doc : Document) : Except Stuck (List View) :=
  match doc[place.fragment]? with
  | some views =>
    match viewsAt place.path views with
    | some views => .ok views
    | none => .error (.misplaced place)
  | none => .error (.misplaced place)

/-- Appends a view under a place; the answer is its own place. -/
def attach (view : View) (place : Place) (doc : Document) : Except Stuck (Place × Document) := do
  let siblings ← viewsUnder place doc
  let doc ← change (appendAt [view]) place doc
  return (⟨place.fragment, place.path ++ [siblings.length]⟩, doc)

/-- The view that a helper makes, from its arguments behind the anchor and the context. -/
def created? (symbol : String) (subject : List Node) : Option View :=
  if symbol = "element" then
    match subject with
    | [.node (.string tag) _ _, _] => some (.element tag [])
    | _ => none
  else if symbol = "createComponent" then
    match subject with
    | [reference, _] => some (.component (.custom reference) none)
    | _ => none
  else if symbol = "createIfComponent" then
    match subject with
    | [_] => some (.component .conditional none)
    | _ => none
  else if symbol = "createForComponent" then
    match subject with
    | [_] => some (.component .loop none)
    | _ => none
  else none

/-- Runs a call whose answer is a new node. -/
def create (helper? : String → Option String) (level : Nat) (env : Bindings) (doc : Document)
    (callee : Node) (arguments : List Node) : Except Stuck (Place × Document) :=
  match callee, arguments with
  | .node (.member false) _ [.node (.reference owner) _ _, .node (.label method) _ _], [] =>
    if env.lookup owner = none ∧ owner = "document" ∧ method = "createDocumentFragment" then
      .ok (⟨doc.length, []⟩, doc ++ [[]])
    else .error .malformed
  | callee, anchor :: context :: subject => do
    let symbol ← helperOf helper? env callee
    let place ← nodeOf env anchor
    checkContext env level context
    match created? symbol subject with
    | some view => attach view place doc
    | none => .error .malformed
  | _, _ => .error .malformed

/-- The node that a callback of a binding changes. -/
def callbackTarget? : Node → Option Node
  | .node (.arrow _) _ [_, _, _, .node (.assignment _) _ [.node (.member _) _ [target, _], _]] =>
    some target
  | .node (.arrow _) _ [_, _, _, .node (.assignment _) _ [.node (.index _) _ [target, _], _]] =>
    some target
  | .node (.arrow _) _
      [_, _, _, .node (.call _ _) _ (.node (.member _) _ [target, _] :: _ :: _)] => some target
  | _ => none

/-- The helper that the callback of a model calls. -/
def callbackHelper? : Node → Option Node
  | .node (.arrow _) _ [_, _, _, .node (.call _ _) _ (helper :: _ :: _)] => some helper
  | _ => none

/-- A call that is handed the context and then a node of the tree, and leaves the tree as it is. -/
def touch (level : Nat) (env : Bindings) (doc : Document) (context target : Node) :
    Except Stuck Document := do
  checkContext env level context
  let _ ← nodeOf env target
  return doc

/-- Runs a call for its effect. Only texts and parts change the tree. -/
def effect (helper? : String → Option String) (level : Nat) (env : Bindings) (doc : Document)
    (symbol : String) (arguments : List Node) : Except Stuck Document :=
  if symbol = "appendText" then
    match arguments with
    | [anchor, .node (.string content) _ _] => do
      let place ← nodeOf env anchor
      change (appendAt [.text content]) place doc
    | _ => .error .malformed
  else if symbol = "reactivePart" then
    match arguments with
    | [context, anchor, value, .node .array _ paths] => do
      checkContext env level context
      let place ← nodeOf env anchor
      change (appendAt [.part value paths]) place doc
    | _ => .error .malformed
  else if symbol = "reactiveCallback" then
    match arguments with
    | [context, callback, _, _] =>
      match callbackTarget? callback with
      | some target => touch level env doc context target
      | none => .error .malformed
    | _ => .error .malformed
  else if symbol = "ref" ∨ symbol = "view" then
    match arguments with
    | [context, target, _] => touch level env doc context target
    | _ => .error .malformed
  else if symbol = "createEvent" ∨ symbol = "directives" then
    match arguments with
    | [context, target, _, _] => touch level env doc context target
    | _ => .error .malformed
  else if symbol = "detectValueChange" then
    match arguments with
    | [callback, target] =>
      match callbackHelper? callback with
      | some helper => do
        let inner ← helperOf helper? env helper
        let _ ← nodeOf env target
        if inner = "setStateValue" then .ok doc else .error .malformed
      | none => .error .malformed
    | _ => .error .malformed
  else .error .malformed

/-- What a call is looked up by: the helper itself, or the registry that it is a member of. -/
def calleeHead : Node → Node
  | .node (.member _) _ [object, _] => object
  | .node (.index _) _ [object, _] => object
  | n => n

mutual

def runStatement (helper? : String → Option String) (level : Nat) (env : Bindings)
    (doc : Document) : Node → Except Stuck (Bindings × Document)
  | .node (.variableDeclaration .constVar false) _
      [.node (.declarator false) _
        [.node (.binding target) _ _, _,
         .node (.call false false) _ (callee :: _ :: arguments)]] => do
    let (place, doc) ← create helper? level env doc callee arguments
    return ((target, .node place) :: env, doc)
  | .node .expressionStatement _
      [.node (.call false false) _
        [.node (.member false) _ [owner, .node (.label "setSlot") _ _], _,
         .node (.arrow _) _
          [_, .node .parameters _ [.node (.parameter _) _ [.node (.binding context) _ _, _, _]], _,
           .node .body _ items]]] => do
    let place ← nodeOf env owner
    let (root, doc) ←
      runBody helper? doc.length ((context, .context doc.length) :: env) doc items
    let slot ← viewsUnder root doc
    let doc ← change (slotAt slot) place doc
    return (env, doc)
  | .node .expressionStatement _ [.node (.call false false) _ (callee :: _ :: arguments)] => do
    let symbol ← helperOf helper? env (calleeHead callee)
    let doc ← effect helper? level env doc symbol arguments
    return (env, doc)
  | _ => .error .malformed

/-- Runs statements up to the one that returns a node. -/
def runBody (helper? : String → Option String) (level : Nat) (env : Bindings) (doc : Document) :
    List Node → Except Stuck (Place × Document)
  | [] => .error .malformed
  | .node .returnStatement _ [value] :: _ => do
    let place ← nodeOf env value
    return (place, doc)
  | n :: ns => do
    let (env, doc) ← runStatement helper? level env doc n
    runBody helper? level env doc ns

end

/-- The views that a closure builds when it is called with a context. -/
def build (helper? : String → Option String) : Node → Except Stuck (List View)
  | .node (.arrow _) _
      [_, .node .parameters _ [.node (.parameter _) _ [.node (.binding context) _ _, _, _]], _,
       .node .body _ items] => do
    let (root, doc) ← runBody helper? 0 [(context, .context 0)] [] items
    viewsUnder root doc
  | _ => .error .malformed

end Runtime

/-- The treatment of white space that an attribute asks for. -/
def Attribute.spaceMode? : Attribute → Option SpaceMode
  | .named name value _ =>
    if name = "compile:preserveWhitespace" then some value.spaceMode else none
  | .spread _ => none

/-- The options that a tag gives: the last word on each counts. -/
def ownOptions (attributes : List Attribute) : TextOptions :=
  ⟨(attributes.filterMap Attribute.spaceMode?).getLast?⟩

/-- The expression that a component tag spells. -/
def Tag.expression : Tag → Node
  | .path p => p.toNode
  | .plain tag span => .reference tag.text span
  | .namespaced _ _ _ => .absent

def ControlTag.spelling : ControlTag → String
  | .conditional => "If"
  | .loop => "For"
  | .fragment => "Fragment"

theorem ControlTag.ofName?_eq_some_iff {name : String} {control : ControlTag} :
    ofName? name = some control ↔ name = control.spelling := by
  constructor
  · intro h
    unfold ofName? at h
    repeat' split at h
    all_goals cases h
    all_goals exact beq_iff_eq.mp (by assumption)
  · rintro rfl
    cases control with
    | conditional => rfl
    | loop => rfl
    | fragment => rfl

/-- A tag is a control tag by its spelling alone: no tag with a colon or a point in it is spelt as
one of the three words. -/
theorem Tag.control?_eq_some_iff {tag : Tag} {control : ControlTag} :
    tag.control? = some control ↔ tag.spelling = control.spelling := by
  have hword : ∀ c ∈ [':', '.'], c ∉ control.spelling.toList := by
    cases control with
    | conditional => simp [ControlTag.spelling]
    | loop => simp [ControlTag.spelling]
    | fragment => simp [ControlTag.spelling]
  cases tag with
  | plain tag span => exact ControlTag.ofName?_eq_some_iff
  | namespaced space name span =>
      refine ⟨fun h => (by cases h), fun h => absurd ?_ (hword ':' (by simp))⟩
      simp [← h, spelling]
  | path p =>
      cases p with
      | reference name span => exact ControlTag.ofName?_eq_some_iff
      | this span =>
          refine ⟨fun h => (by cases h), fun h => absurd h ?_⟩
          change "this" ≠ control.spelling
          cases control with
          | conditional => decide
          | loop => decide
          | fragment => decide
      | member object property propertySpan span =>
          refine ⟨fun h => (by cases h), fun h => absurd ?_ (hword '.' (by simp))⟩
          simp [← h, spelling, TagPath.spelling]

namespace Template

def normalText (options : TextOptions) (raw : String) : String :=
  Text.normalize options.mode (Text.decodeEntities raw)

def leadingText (options : TextOptions) : List Template → String
  | .text raw :: rest => normalText options raw ++ leadingText options rest
  | _ => ""

def textViews (content : String) : List View := if content.isEmpty then [] else [.text content]

mutual

def views (options : TextOptions) : Template → List View
  | .element tag attributes children =>
    let inner := options.merge (ownOptions attributes)
    if !tag.isComponent then [.element tag.spelling (viewsOfList inner false children)]
    else
      match tag.control? with
      | some .conditional => [.component .conditional none]
      | some .loop => [.component .loop none]
      | some .fragment => viewsOfList inner false children
      | none =>
        [.component (.custom tag.expression)
          (if children.isEmpty then none else some (viewsOfList inner false children))]
  | .fragment children => viewsOfList options false children
  | .part value => [.part (reactiveValue value).1 (reactiveValue value).2]
  | .text _ => []
  | .nothing => []

/-- The views that children denote, in their order. Texts that follow one another are one text;
`inText` if the child before was a text. -/
def viewsOfList (options : TextOptions) (inText : Bool) : List Template → List View
  | [] => []
  | .text raw :: rest =>
    (if inText then [] else textViews (normalText options raw ++ leadingText options rest)) ++
      viewsOfList options true rest
  | t :: rest => views options t ++ viewsOfList options false rest

end

end Template

end TemplateCompiler
