import TemplateCompiler.Proofs.Template.Embedding
import TemplateCompiler.Proofs.Template.Instruction

/-!
What is collected from a tree, node by node and from left to right. For a collector that knows how
helpers are called, what it finds in lowered statements can be told from the template: this is the
one place where derivations are followed for it.
-/

namespace TemplateCompiler

open Lower Node Session

namespace Form

/-- Whether a node is no markup, no function, and suspends none. -/
def isQuiet : Form → Bool
  | .element => false
  | .fragment => false
  | .arrow _ => false
  | .function _ => false
  | .awaitValue => false
  | .yieldValue _ => false
  | .forOf _ => false
  | _ => true

/-- Whether a quiet node is neither a call nor a use of a variable. -/
def isPlain : Form → Bool
  | .call _ _ => false
  | .reference _ => false
  | form => form.isQuiet

theorem isQuiet_of_isPlain {form : Form} (h : form.isPlain = true) : form.isQuiet = true := by
  unfold isPlain at h
  split at h
  · cases h
  · cases h
  · exact h

end Form

/-- What is collected from the nodes of a tree, under values that are handed down. -/
structure Collector (σ α : Type) where
  /-- What a node gives, its parts left aside. -/
  own : σ → Form → Span → List Node → List α
  /-- The value for its parts. Without one, nothing is collected from them. -/
  inner : σ → Form → Span → Option σ

namespace Collector

variable {σ α : Type} (c : Collector σ α)

mutual

def collect (value : σ) : Node → List α
  | .node form span children =>
    c.own value form span children ++
      match c.inner value form span with
      | some inner => collectOfList inner children
      | none => []

def collectOfList (value : σ) : List Node → List α
  | [] => []
  | n :: ns => collect value n ++ collectOfList value ns

end

@[simp] theorem collectOfList_nil (value : σ) : c.collectOfList value [] = [] := rfl

@[simp] theorem collectOfList_cons (value : σ) (n : Node) (ns : List Node) :
    c.collectOfList value (n :: ns) = c.collect value n ++ c.collectOfList value ns := rfl

theorem collectOfList_eq_flatMap (value : σ) (ns : List Node) :
    c.collectOfList value ns = ns.flatMap (c.collect value) := by
  induction ns with
  | nil => rfl
  | cons n ns ih => rw [collectOfList_cons, ih, List.flatMap_cons]

@[simp] theorem collectOfList_append (value : σ) (ns ms : List Node) :
    c.collectOfList value (ns ++ ms) = c.collectOfList value ns ++ c.collectOfList value ms := by
  simp [collectOfList_eq_flatMap]

theorem collectOfList_eq_nil {c : Collector σ α} {value : σ} {ns : List Node}
    (h : ∀ n ∈ ns, c.collect value n = []) : c.collectOfList value ns = [] := by
  rw [collectOfList_eq_flatMap]
  exact List.flatMap_eq_nil_iff.mpr h

/-- Functions that go through trees as a collector does are the collector. -/
structure Agrees (f : σ → Node → List α) (fs : σ → List Node → List α) : Prop where
  node : ∀ value form span children, f value (.node form span children) =
    c.own value form span children ++
      match c.inner value form span with
      | some inner => fs inner children
      | none => []
  nil : ∀ value, fs value [] = []
  cons : ∀ value n ns, fs value (n :: ns) = f value n ++ fs value ns

variable {c} {f : σ → Node → List α} {fs : σ → List Node → List α}

mutual

theorem Agrees.eq_collect (h : c.Agrees f fs) (value : σ) :
    (n : Node) → f value n = c.collect value n
  | .node form span children => by
      rw [h.node, collect]
      cases c.inner value form span with
      | none => rfl
      | some inner =>
          simp only
          rw [h.eq_collectOfList inner children]

theorem Agrees.eq_collectOfList (h : c.Agrees f fs) (value : σ) :
    (ns : List Node) → fs value ns = c.collectOfList value ns
  | [] => h.nil value
  | n :: ns => by
      rw [h.cons, collectOfList_cons, h.eq_collect value n, h.eq_collectOfList value ns]

end

end Collector

/-- The helpers that a directive is made with. -/
def Directive.helpers : Directive → List String
  | .bind _ => ["reactiveCallback"]
  | .attr _ => ["reactiveCallback"]
  | .ref => ["ref"]
  | .view => ["view"]
  | .model => ["detectValueChange", "setStateValue"]
  | .on _ => ["createEvent"]
  | .custom _ _ => ["directives"]

def Directive.events : Directive → List String
  | .on event => [event]
  | _ => []

/-- Which names stand for helpers, which do not, and which expressions can be embedded. -/
structure Lexicon where
  Helper : (symbol name : String) → Prop
  Local : String → Prop
  Written : Node → Prop

namespace Lexicon

/-- The lexicon in which every name stands for everything. -/
def full : Lexicon where
  Helper _ _ := True
  Local _ := True
  Written _ := True

/-- A lexicon that has the names of lowered templates, in sessions up to a final one. -/
structure Covers (l : Lexicon) (final : Session) : Prop where
  helper : ∀ {symbol name : String} {s s' : Session},
    (require symbol).run s = (.ok name, s') → s'.Grows final → l.Helper symbol name
  fresh : ∀ {base name : String} {s s' : Session}, base ∈ localBases →
    (Lower.fresh base).run s = (.ok name, s') → l.Local name
  parameter : l.Local "value"
  document : l.Local "document"

theorem covers_full (final : Session) : full.Covers final where
  helper _ _ := trivial
  fresh _ _ := trivial
  parameter := trivial
  document := trivial

/-- What is lowered is made of expressions that can be embedded, and texts are
appended by a helper. -/
def Admits (l : Lexicon) : Job → Prop
  | .tree t => t.Written l.Written
  | .run helper _ ts => l.Helper "appendText" helper ∧ Template.WrittenList l.Written ts

end Lexicon

/-- What there is to collect from lowered templates. -/
structure Account (α : Type) where
  /-- What a use of a helper gives, by its symbol. -/
  use : String → List α
  /-- What a call that listens to an event gives. -/
  event : String → List α
  /-- What a call that appends a text gives. -/
  text : String → List α
  /-- What an embedded expression gives. -/
  expression : Node → List α

namespace Account

variable {α : Type} (a : Account α)

/-- The account of a collector that takes no notice of calls. -/
def silent (expression : Node → List α) : Account α where
  use _ := []
  event _ := []
  text _ := []
  expression := expression

def ofDirective (directive : Directive) : List α :=
  directive.events.flatMap a.event ++ directive.helpers.flatMap a.use

def ofDirectives : List Attribute → List α
  | [] => []
  | .spread _ :: as => ofDirectives as
  | .named name value _ :: as =>
    match AttributeKind.ofName name with
    | .directive directive =>
      a.ofDirective directive ++ value.embedded.flatMap a.expression ++ ofDirectives as
    | _ => ofDirectives as

def ofCreation (symbol : String) (attributes : List Attribute) : List α :=
  a.use symbol ++ (propExpressions attributes).flatMap a.expression ++ a.ofDirectives attributes

def ofText (content : String) : List α :=
  if content.isEmpty then [] else a.text content ++ a.use "appendText"

mutual

def ofTemplate (options : TextOptions) : Template → List α
  | .element tag attributes children =>
    let inner := options.merge (ownOptions attributes)
    match tag.control? with
    | some .conditional => a.ofCreation "createIfComponent" attributes
    | some .loop => a.ofCreation "createForComponent" attributes
    | some .fragment => ofTemplates inner false children
    | none =>
      a.ofCreation (if tag.isComponent then "createComponent" else "element") attributes ++
        ofTemplates inner false children
  | .fragment children => ofTemplates options false children
  | .part value => a.use "reactivePart" ++ a.expression value
  | .text _ => []
  | .nothing => []

/-- Texts that follow one another are appended at once; `inText` if the child before was a text. -/
def ofTemplates (options : TextOptions) (inText : Bool) : List Template → List α
  | [] => []
  | .text raw :: rest =>
    (if inText then []
      else a.ofText (Template.normalText options raw ++ Template.leadingText options rest)) ++
        ofTemplates options true rest
  | t :: rest => ofTemplate options t ++ ofTemplates options false rest

end

def ofJob (options : TextOptions) : Job → List α
  | .tree t => a.ofTemplate options t
  | .run _ pending ts =>
    a.ofText (pending ++ Template.leadingText options ts) ++ a.ofTemplates options true ts

theorem ofJob_run (options : TextOptions) (helper : String) (ts : List Template) :
    a.ofJob options (.run helper "" ts) = a.ofTemplates options false ts := by
  rw [ofJob, String.empty_append]
  cases ts with
  | nil => rfl
  | cons t ts => cases t <;> rfl

theorem ofDirective_silent (expression : Node → List α) (directive : Directive) :
    (silent expression).ofDirective directive = [] := by
  simp [ofDirective, silent]

theorem ofDirectives_silent (expression : Node → List α) (as : List Attribute) :
    (silent expression).ofDirectives as = (directiveExpressions as).flatMap expression := by
  induction as with
  | nil => rfl
  | cons a as ih =>
      cases a with
      | spread value => exact ih
      | named name value start =>
          rw [ofDirectives, directiveExpressions]
          cases AttributeKind.ofName name with
          | compile modifier => exact ih
          | directive directive =>
              simp only [ofDirective_silent, ih, List.nil_append, List.flatMap_append]
              rfl
          | prop => exact ih

theorem ofCreation_silent (expression : Node → List α) (symbol : String) (as : List Attribute) :
    (silent expression).ofCreation symbol as =
      (propExpressions as ++ directiveExpressions as).flatMap expression := by
  rw [ofCreation, ofDirectives_silent, List.flatMap_append]
  rfl

theorem ofText_silent (expression : Node → List α) (content : String) :
    (silent expression).ofText content = [] := by
  unfold ofText
  split <;> rfl

mutual

theorem ofTemplate_silent (expression : Node → List α) (options : TextOptions) :
    (t : Template) → (silent expression).ofTemplate options t = t.embedded.flatMap expression
  | .element tag attributes children => by
      have hchildren := ofTemplates_silent expression (options.merge (ownOptions attributes)) false
        children
      rw [ofTemplate, Template.embedded]
      cases hcontrol : tag.control? with
      | none =>
          simp only [ofCreation_silent, hchildren, ite_self, List.flatMap_append]
      | some control =>
          simp only [Tag.isComponent_of_control? hcontrol, if_true]
          cases control with
          | conditional => exact ofCreation_silent expression _ attributes
          | loop => exact ofCreation_silent expression _ attributes
          | fragment => exact hchildren
  | .fragment children => ofTemplates_silent expression options false children
  | .part value => by simp [ofTemplate, Template.embedded, silent]
  | .text _ => rfl
  | .nothing => rfl

theorem ofTemplates_silent (expression : Node → List α) (options : TextOptions) (inText : Bool) :
    (ts : List Template) → (silent expression).ofTemplates options inText ts =
      (Template.embeddedOfList ts).flatMap expression
  | [] => rfl
  | t :: ts => by
      have hfirst := ofTemplate_silent expression options t
      have hrest := fun inText => ofTemplates_silent expression options inText ts
      cases t with
      | text raw =>
          simp [ofTemplates, ofText_silent, hrest, Template.embeddedOfList, Template.embedded]
      | element | fragment | part | nothing =>
          simp [ofTemplates, hfirst, hrest, Template.embeddedOfList]

end

end Account

namespace Collector

variable {σ α : Type}

/-- A collector that keeps an account of lowered templates. In the arrows that are made, it goes on
with the value `made`. -/
structure Renders (c : Collector σ α) (made : σ) (a : Account α) (l : Lexicon) : Prop where
  plain : ∀ value form span children, form.isPlain = true →
    c.own value form span children = [] ∧ c.inner value form span = some value
  arrow : ∀ value children, c.own value (.arrow {}) .synthetic children = [] ∧
    c.inner value (.arrow {}) .synthetic = some made
  call : ∀ value, c.inner value (.call false false) .synthetic = some value
  helperName : ∀ value symbol name, l.Helper symbol name →
    c.own value (.reference name) .synthetic [] = a.use symbol
  localName : ∀ value name, l.Local name → c.own value (.reference name) .synthetic [] = []
  callHelper : ∀ value symbol helper arguments, l.Helper symbol helper →
    symbol ≠ "createEvent" → symbol ≠ "appendText" →
      c.own value (.call false false) .synthetic (Emit.name helper :: .absent :: arguments) = []
  callEvent : ∀ value helper context target event argument, l.Helper "createEvent" helper →
    c.own value (.call false false) .synthetic
      [Emit.name helper, .absent, context, target, Emit.string event, argument] = a.event event
  callText : ∀ value helper anchor text, l.Helper "appendText" helper →
    c.own value (.call false false) .synthetic
      [Emit.name helper, .absent, anchor, Emit.string text] = a.text text
  callMember : ∀ value callee arguments, callee.form.isPlain = true →
    c.own value (.call false false) .synthetic (callee :: .absent :: arguments) = []
  written : ∀ n, l.Written n → c.collect made n = a.expression n
  path : ∀ n, isPath n = true → a.expression n = []
  dependency : ∀ n, l.Written n → ∀ p ∈ dependencies n, l.Written p

theorem collect_of_isPath {c : Collector σ α} {value : σ}
    (hquiet : ∀ value form span children, form.isQuiet = true →
      c.own value form span children = [] ∧ c.inner value form span = some value)
    {n : Node} (h : isPath n = true) : c.collect value n = [] := by
  have hnode : ∀ form span children, form.isQuiet = true →
      c.collect value (.node form span children) = c.collectOfList value children := by
    intro form span children hform
    obtain ⟨hown, hinner⟩ := hquiet value form span children hform
    rw [collect, hown, hinner, List.nil_append]
  fun_induction isPath n with
  | case1 name span => exact hnode _ span [] rfl
  | case2 span => exact hnode _ span [] rfl
  | case3 isOptional span object name nameSpan ih =>
      rw [hnode _ span _ rfl, collectOfList_cons, ih h, collectOfList_cons, hnode _ nameSpan [] rfl]
      rfl
  | case4 => cases h

theorem renders_silent {c : Collector σ α} {made : σ}
    (hquiet : ∀ value form span children, form.isQuiet = true →
      c.own value form span children = [] ∧ c.inner value form span = some value)
    (harrow : ∀ value children, c.own value (.arrow {}) .synthetic children = [] ∧
      c.inner value (.arrow {}) .synthetic = some made) :
    c.Renders made (.silent (c.collect made)) .full where
  plain value form span children hform :=
    hquiet value form span children (Form.isQuiet_of_isPlain hform)
  arrow := harrow
  call value := (hquiet value (.call false false) .synthetic [] rfl).2
  helperName value _ name _ := (hquiet value (.reference name) .synthetic [] rfl).1
  localName value name _ := (hquiet value (.reference name) .synthetic [] rfl).1
  callHelper value _ _ _ _ _ _ := (hquiet value (.call false false) .synthetic _ rfl).1
  callEvent value _ _ _ _ _ _ := (hquiet value (.call false false) .synthetic _ rfl).1
  callText value _ _ _ _ := (hquiet value (.call false false) .synthetic _ rfl).1
  callMember value _ _ _ := (hquiet value (.call false false) .synthetic _ rfl).1
  written _ _ := rfl
  path _ hn := collect_of_isPath hquiet hn
  dependency _ _ _ _ := trivial

namespace Renders

variable {c : Collector σ α} {made value : σ} {a : Account α} {l : Lexicon}

theorem collect_plain (h : c.Renders made a l) (form : Form) (hform : form.isPlain = true)
    (span : Span) (children : List Node) :
    c.collect value (.node form span children) = c.collectOfList value children := by
  obtain ⟨hown, hinner⟩ := h.plain value form span children hform
  rw [collect, hown, hinner, List.nil_append]

theorem collect_made (h : c.Renders made a l) (form : Form) (hform : form.isPlain = true)
    (children : List Node) :
    c.collect value (Emit.made form children) = c.collectOfList value children :=
  h.collect_plain form hform _ _

theorem collect_reference (c : Collector σ α) (value : σ) (name : String) :
    c.collect value (Emit.name name) = c.own value (.reference name) .synthetic [] := by
  rw [Emit.name, Node.reference, Node.leaf, collect]
  cases c.inner value (.reference name) .synthetic <;> simp

theorem collect_helper (h : c.Renders made a l) {symbol name : String}
    (hname : l.Helper symbol name) : c.collect value (Emit.name name) = a.use symbol := by
  rw [collect_reference, h.helperName value symbol name hname]

theorem collect_local (h : c.Renders made a l) {name : String} (hname : l.Local name) :
    c.collect value (Emit.name name) = [] := by
  rw [collect_reference, h.localName value name hname]

theorem collect_string (h : c.Renders made a l) (text : String) (span : Span) :
    c.collect value (.string text span) = [] :=
  h.collect_plain _ rfl span []

theorem collect_absent (h : c.Renders made a l) : c.collect value .absent = [] :=
  h.collect_plain _ rfl _ []

theorem collect_binding (h : c.Renders made a l) (text : String) :
    c.collect value (Emit.binding text) = [] :=
  h.collect_plain _ rfl _ []

theorem collect_statement (h : c.Renders made a l) (n : Node) :
    c.collect value (Emit.statement n) = c.collect value n := by
  rw [Emit.statement, h.collect_made _ rfl]
  simp

theorem collect_array (h : c.Renders made a l) (items : List Node) :
    c.collect value (Emit.array items) = c.collectOfList value items :=
  h.collect_made _ rfl items

theorem collect_object (h : c.Renders made a l) (members : List Node) :
    c.collect value (Emit.object members) = c.collectOfList value members :=
  h.collect_made _ rfl members

theorem collect_spread (h : c.Renders made a l) (n : Node) :
    c.collect value (Emit.spread n) = c.collect value n := by
  rw [Emit.spread, h.collect_made _ rfl]
  simp

theorem collect_property (h : c.Renders made a l) (key : String) (n : Node) :
    c.collect value (Emit.property key n) = c.collect value n := by
  rw [Emit.property, h.collect_made _ rfl]
  simp [Emit.string, h.collect_string]

theorem collect_member (h : c.Renders made a l) (object : Node) (property : String) :
    c.collect value (Emit.member object property) = c.collect value object := by
  rw [Emit.member, Node.member, h.collect_plain _ rfl, collectOfList_cons, Node.leaf,
    collectOfList_cons, h.collect_plain _ rfl]
  simp

theorem collect_access (h : c.Renders made a l) (object : Node) (property : String) :
    c.collect value (Emit.access object property) = c.collect value object := by
  unfold Emit.access
  split
  · exact h.collect_member object property
  · rw [h.collect_made _ rfl]
    simp [Emit.string, h.collect_string]

theorem collect_constant (h : c.Renders made a l) (target : String) (n : Node) :
    c.collect value (Emit.constant (Emit.binding target) n) = c.collect value n := by
  rw [Emit.constant, h.collect_made _ rfl, collectOfList_cons, h.collect_made _ rfl]
  simp [h.collect_binding, h.collect_absent]

theorem collect_arrow (h : c.Renders made a l) (parameter : String) (body : Node) :
    c.collect value (Emit.arrow parameter body) = c.collect made body := by
  obtain ⟨hown, hinner⟩ := h.arrow value (Emit.arrow parameter body).children
  rw [Emit.arrow, Emit.made, Node.children] at hown
  rw [Emit.arrow, Emit.made, collect, hown, hinner]
  simp only [collectOfList_cons, h.collect_absent, h.collect_made .parameters rfl,
    h.collect_made (.parameter {}) rfl, h.collect_binding]
  simp

theorem collect_thunk (h : c.Renders made a l) (n : Node) :
    c.collect value (thunk n) = c.collect made n := by
  obtain ⟨hown, hinner⟩ := h.arrow value (thunk n).children
  rw [thunk, Node.children] at hown
  rw [thunk, collect, hown, hinner]
  simp only [collectOfList_cons, h.collect_absent, h.collect_plain .parameters rfl]
  simp

theorem collect_call (h : c.Renders made a l) (callee : Node) (arguments : List Node) :
    c.collect value (Emit.call callee arguments) =
      c.own value (.call false false) .synthetic (callee :: .absent :: arguments) ++
        c.collect value callee ++ c.collectOfList value arguments := by
  rw [Emit.call, Emit.made, collect, h.call]
  simp [h.collect_absent]

theorem collect_callHelper (h : c.Renders made a l) {symbol helper : String}
    (hhelper : l.Helper symbol helper) (hevent : symbol ≠ "createEvent")
    (htext : symbol ≠ "appendText") (arguments : List Node) :
    c.collect value (Emit.call (Emit.name helper) arguments) =
      a.use symbol ++ c.collectOfList value arguments := by
  rw [h.collect_call, h.callHelper value symbol helper arguments hhelper hevent htext,
    h.collect_helper hhelper, List.nil_append]

theorem collect_callMember (h : c.Renders made a l) (object : Node) (property : String)
    (arguments : List Node) :
    c.collect value (Emit.call (Emit.member object property) arguments) =
      c.collect value object ++ c.collectOfList value arguments := by
  rw [h.collect_call, h.callMember value _ arguments rfl, h.collect_member, List.nil_append]

theorem collect_callAccess (h : c.Renders made a l) (object : Node) (property : String)
    (arguments : List Node) :
    c.collect value (Emit.call (Emit.access object property) arguments) =
      c.collect value object ++ c.collectOfList value arguments := by
  have hplain : (Emit.access object property).form.isPlain = true := by
    unfold Emit.access
    split <;> rfl
  rw [h.collect_call, h.callMember value _ arguments hplain, h.collect_access, List.nil_append]

theorem collect_closure (h : c.Renders made a l) {root : String} (hroot : l.Local root)
    (hdocument : l.Local "document") (context : String) (items : List Node) :
    c.collect value (Emit.closure root context items) = c.collectOfList made items := by
  rw [Emit.closure, h.collect_arrow, h.collect_made _ rfl]
  simp [h.collect_constant, h.collect_callMember, h.collect_local hdocument,
    h.collect_made .returnStatement rfl, h.collect_local hroot]

/-- What a node gives, and gives just as well where it is delayed and its
dependencies stand beside it. -/
structure Gives (c : Collector σ α) (made : σ) (n : Node) (given : List α) : Prop where
  plain : c.collect made n = given
  reactive : c.collect made (reactiveValue n).1 = given
  dependencies : c.collectOfList made (reactiveValue n).2 = []

theorem gives_written (h : c.Renders made a l) {n : Node} (hn : l.Written n) :
    Gives c made n (a.expression n) := by
  have hown := h.written n hn
  have hpaths : ∀ p ∈ dependencies n, c.collect made p = [] := fun p hp => by
    rw [h.written p (h.dependency n hn p hp), h.path p (isPath_of_mem_dependencies n p hp)]
  refine ⟨hown, ?_, ?_⟩
  · rw [reactiveValue_eq]
    split
    · exact hown
    · rw [h.collect_thunk, hown]
  · rw [reactiveValue_eq]
    exact collectOfList_eq_nil hpaths

theorem gives_toNode (h : c.Renders made a l) {value : AttributeValue} (form : Form)
    (hvalue : ∀ n ∈ value.embedded, l.Written n) (hform : form.isPlain = true)
    (hpath : ∀ span, readPath? (.node form span []) = none) :
    Gives c made (value.toNode (Emit.made form [])) (value.embedded.flatMap a.expression) := by
  have hleaf : ∀ {form : Form} (span : Span), form.isPlain = true →
      readPath? (.node form span []) = none → Gives c made (.node form span []) [] := by
    intro form span hform hpath
    have hown : c.collect made (.node form span []) = [] := h.collect_plain form hform span []
    have hnone : reactiveValue (.node form span []) = (.node form span [], []) := by
      simp [reactiveValue_eq, TemplateCompiler.dependencies, dependenciesOfList, hpath]
    exact ⟨hown, by rw [hnone]; exact hown, by rw [hnone]; rfl⟩
  cases value with
  | missing => exact hleaf _ hform (hpath _)
  | string raw span => exact hleaf span rfl rfl
  | empty => exact hleaf _ rfl rfl
  | expression n | markup n =>
      have hn := h.gives_written (hvalue n List.mem_cons_self)
      rwa [← List.append_nil (a.expression n)] at hn

end Renders

end Collector

section

open Collector

variable {σ α : Type} {c : Collector σ α} {made : σ} {a : Account α} {l : Lexicon}
  {final s s' : Session} {scope : Scope} {target : String}

theorem LowersDirective.collect_eq {value call : Node} {directive : Directive} {given : List α}
    (h : LowersDirective scope target value s directive call s') (hc : c.Renders made a l)
    (hl : l.Covers final) (hfinal : s'.Grows final) (hvalue : Renders.Gives c made value given)
    (hcontext : l.Local scope.context) (htarget : l.Local target) :
    c.collect made call = a.ofDirective directive ++ given := by
  have hcontext' : c.collect made (Emit.name scope.context) = [] := hc.collect_local hcontext
  have htarget' : c.collect made (Emit.name target) = [] := hc.collect_local htarget
  have hparameter' : c.collect made (Emit.name "value") = [] := hc.collect_local hl.parameter
  obtain ⟨hown, hreactive, hpaths⟩ := hvalue
  cases h with
  | bind property hcallback =>
      rw [hc.collect_callHelper (hl.helper hcallback hfinal) (by decide) (by decide)]
      simp [hc.collect_arrow, hc.collect_made (.assignment "=") rfl, hc.collect_access, hcontext',
        htarget', hparameter', hreactive, hc.collect_array, hpaths, Account.ofDirective,
        Directive.helpers, Directive.events]
  | attr key hcallback =>
      rw [hc.collect_callHelper (hl.helper hcallback hfinal) (by decide) (by decide)]
      simp [hc.collect_arrow, hc.collect_callMember, hcontext', htarget', hparameter', Emit.string,
        hc.collect_string, hreactive, hc.collect_array, hpaths, Account.ofDirective,
        Directive.helpers, Directive.events]
  | ref hhelper | view hhelper =>
      rw [hc.collect_callHelper (hl.helper hhelper hfinal) (by decide) (by decide)]
      simp [hcontext', htarget', hown, Account.ofDirective, Directive.helpers, Directive.events]
  | @model _ _ _ _ _ parameter hdetect hsetState hfresh =>
      have hgrows := (of_run_fresh hfresh).1.trans hfinal
      have hdetect' := hl.helper hdetect ((of_run_require hsetState).1.trans hgrows)
      have hwrite : c.collect made (Emit.name parameter) = [] :=
        hc.collect_local (hl.fresh (by decide) hfresh)
      rw [hc.collect_callHelper hdetect' (by decide) (by decide), collectOfList_cons,
        hc.collect_arrow,
        hc.collect_callHelper (hl.helper hsetState hgrows) (by decide) (by decide)]
      simp [htarget', hown, hwrite, Account.ofDirective, Directive.helpers, Directive.events]
  | @on s₁ _ event hhelper =>
      have hgrows := (stable_grows s₁).listen event s₁ (.refl s₁)
      have hhelper' := hl.helper hhelper (hgrows.trans hfinal)
      rw [hc.collect_call, hc.callEvent made _ _ _ event value hhelper', hc.collect_helper hhelper']
      simp [hcontext', htarget', hown, Emit.string, hc.collect_string, Account.ofDirective,
        Directive.helpers, Directive.events]
  | custom name modifier hregistry =>
      rw [hc.collect_callAccess, hc.collect_helper (hl.helper hregistry hfinal)]
      simp [hcontext', htarget', hown, Emit.string, hc.collect_string, Account.ofDirective,
        Directive.helpers, Directive.events]

theorem LowersAttributes.collect_eq {as : List Attribute} {lowered : LoweredAttributes}
    (h : LowersAttributes scope target s as lowered s') (hc : c.Renders made a l)
    (hl : l.Covers final) (hfinal : s'.Grows final) (has : AttributesWritten l.Written as)
    (hcontext : l.Local scope.context) (htarget : l.Local target) :
    c.collectOfList made lowered.props = (propExpressions as).flatMap a.expression ∧
      c.collectOfList made lowered.directives = a.ofDirectives as := by
  induction h with
  | nil s => exact ⟨rfl, rfl⟩
  | @spread _ _ value _ _ _ ih =>
      obtain ⟨ha, has⟩ := List.forall_mem_cons.mp has
      obtain ⟨hprops, hdirectives⟩ := ih hfinal has
      have hvalue := hc.written value (ha value (List.mem_singleton_self value))
      refine ⟨?_, hdirectives⟩
      simp [LoweredAttributes.append, hc.collect_spread, hvalue, hprops, propExpressions]
  | compile hkind _ _ ih =>
      simp only [propExpressions, Account.ofDirectives, hkind]
      exact ih hfinal (List.forall_mem_cons.mp has).2
  | directive hkind hcall hrest ih =>
      obtain ⟨ha, has⟩ := List.forall_mem_cons.mp has
      obtain ⟨hprops, hdirectives⟩ := ih hfinal has
      have hvalue := hc.gives_toNode .nullLiteral ha rfl fun _ => rfl
      have hfirst := hcall.collect_eq hc hl (hrest.grows.trans hfinal) hvalue hcontext htarget
      simp only [propExpressions, Account.ofDirectives, hkind]
      refine ⟨hprops, ?_⟩
      simp [LoweredAttributes.append, hc.collect_statement, hfirst, hdirectives]
  | @prop _ _ _ value _ _ _ hkind _ ih =>
      obtain ⟨ha, has⟩ := List.forall_mem_cons.mp has
      obtain ⟨hprops, hdirectives⟩ := ih hfinal has
      have hvalue : Renders.Gives c made (value.toNode Emit.yes) _ :=
        hc.gives_toNode (.boolean true) ha rfl fun _ => rfl
      simp only [propExpressions, Account.ofDirectives, hkind]
      refine ⟨?_, hdirectives⟩
      simp [LoweredAttributes.append, hc.collect_property, hvalue.plain, hprops]

theorem collectOfList_creation {symbol base helper : String} {subject : List Node}
    {as : List Attribute} {lowered : LoweredAttributes} {s₁ s₂ : Session}
    (hc : c.Renders made a l) (hl : l.Covers final) (hfinal : s'.Grows final)
    (hbase : base ∈ localBases) (hevent : symbol ≠ "createEvent") (htext : symbol ≠ "appendText")
    (hhelper : (require symbol).run s = (.ok helper, s₁))
    (htarget : (Lower.fresh base).run s₁ = (.ok target, s₂))
    (hattributes : LowersAttributes scope target s₂ as lowered s')
    (has : AttributesWritten l.Written as) (hsubject : c.collectOfList made subject = [])
    (hanchor : l.Local scope.anchor) (hcontext : l.Local scope.context) :
    c.collectOfList made (creation helper target scope subject lowered) =
      a.ofCreation symbol as := by
  have hgrows := ((of_run_fresh htarget).1.trans hattributes.grows).trans hfinal
  obtain ⟨hprops, hdirectives⟩ :=
    hattributes.collect_eq hc hl hfinal has hcontext (hl.fresh hbase htarget)
  rw [creation, collectOfList_cons, hc.collect_constant,
    hc.collect_callHelper (hl.helper hhelper hgrows) hevent htext]
  simp [hc.collect_local hanchor, hc.collect_local hcontext, hsubject, hc.collect_object, hprops,
    hdirectives, Account.ofCreation]

theorem collectOfList_flush (hc : c.Renders made a l) {helper : String}
    (hhelper : l.Helper "appendText" helper) (hanchor : l.Local scope.anchor) (text : String) :
    c.collectOfList made (flush helper scope text) = a.ofText text := by
  unfold flush Account.ofText
  split
  · rfl
  · rw [collectOfList_cons, hc.collect_statement, hc.collect_call, hc.callText made _ _ _ hhelper,
      hc.collect_helper hhelper]
    simp [hc.collect_local hanchor, Emit.string, hc.collect_string]

theorem collectOfList_component (hc : c.Renders made a l) {tag : Tag} {component : Node}
    (htag : tag.isComponent = true) (hcomponent : tag.component = .ok component)
    (hwritten : tag.Written l.Written) : c.collectOfList made [component] = [] := by
  rw [collectOfList_cons, hc.written component (hwritten htag component hcomponent),
    hc.path component (Tag.isPath_component htag hcomponent)]
  rfl

end

/-- What is collected from the statements of a template is the account of the template. -/
theorem Lowers.collect_eq {σ α : Type} {c : Collector σ α} {made : σ} {a : Account α}
    {l : Lexicon} {final s s' : Session} {scope : Scope} {options : TextOptions} {job : Job}
    {items : List Node} (h : Lowers s scope options job items s') (hc : c.Renders made a l)
    (hl : l.Covers final) (hfinal : s'.Grows final) (hjob : l.Admits job)
    (hanchor : l.Local scope.anchor) (hcontext : l.Local scope.context) :
    c.collectOfList made items = a.ofJob options job := by
  have hstring : ∀ text, c.collectOfList made [Emit.string text] = [] := fun text => by
    simp [Emit.string, hc.collect_string]
  induction h with
  | leafElement htag hhelper htarget hattributes =>
      rw [collectOfList_creation hc hl hfinal (by decide) (by decide) (by decide) hhelper htarget
        hattributes hjob.2.1 (hstring _) hanchor hcontext]
      simp [Account.ofJob, Account.ofTemplate, Account.ofTemplates, Tag.control?_eq_none htag, htag]
  | element htag hhelper htarget hattributes htext hinner ih =>
      have hgrows := (of_run_require htext).1.trans (hinner.grows.trans hfinal)
      have hchildren := ih hfinal ⟨hl.helper htext (hinner.grows.trans hfinal), hjob.2.2⟩
        (hl.fresh (by decide) htarget) hcontext
      rw [Collector.collectOfList_append,
        collectOfList_creation hc hl hgrows (by decide) (by decide)
        (by decide) hhelper htarget hattributes hjob.2.1 (hstring _) hanchor hcontext, hchildren,
        Account.ofJob_run, hattributes.options_eq]
      simp [Account.ofJob, Account.ofTemplate, Tag.control?_eq_none htag, htag]
  | @control _ _ _ _ _ _ _ _ _ control _ _ _ _ _ _ hcontrol hconstructor hhelper htarget
      hattributes =>
      cases control with
      | conditional | loop =>
          cases hconstructor
          rw [collectOfList_creation hc hl hfinal (by decide) (by decide) (by decide) hhelper
            htarget hattributes hjob.2.1 rfl hanchor hcontext]
          simp [Account.ofJob, Account.ofTemplate, hcontrol]
      | fragment => cases hconstructor
  | splice htag hcontrol hown htext hinner ih =>
      have hhelper := hl.helper htext (hinner.grows.trans hfinal)
      rw [ih hfinal ⟨hhelper, hjob.2.2⟩ hanchor hcontext, Account.ofJob_run,
        ownOptions_of_instructions hown]
      simp [Account.ofJob, Account.ofTemplate, hcontrol]
  | leafComponent htag hcontrol hcomponent hhelper htarget hattributes =>
      rw [collectOfList_creation hc hl hfinal (by decide) (by decide) (by decide) hhelper htarget
        hattributes hjob.2.1 (collectOfList_component hc htag hcomponent hjob.1) hanchor hcontext]
      simp [Account.ofJob, Account.ofTemplate, Account.ofTemplates, hcontrol, htag]
  | component htag hcontrol hcomponent hhelper htarget hattributes hroot hctx htext hinner ih =>
      have hlater := hinner.grows.trans hfinal
      have hgrows := (of_run_require htext).1.trans hlater
      have hslot := ((of_run_fresh hroot).1.trans (of_run_fresh hctx).1).trans hgrows
      have hanchor' := hl.fresh (by decide) hroot
      have hchildren := ih hfinal ⟨hl.helper htext hlater, hjob.2.2⟩ hanchor'
        (hl.fresh (by decide) hctx)
      rw [Collector.collectOfList_append, collectOfList_creation hc hl hslot (by decide) (by decide)
        (by decide) hhelper htarget hattributes hjob.2.1
        (collectOfList_component hc htag hcomponent hjob.1) hanchor hcontext,
        Collector.collectOfList_cons, slotStatement, hc.collect_statement, hc.collect_callMember,
        hc.collect_local (hl.fresh (by decide) htarget), Collector.collectOfList_cons,
        hc.collect_closure hanchor' hl.document, hchildren, Account.ofJob_run,
        hattributes.options_eq]
      simp [Account.ofJob, Account.ofTemplate, hcontrol, htag]
  | fragment htext hinner ih =>
      have hhelper := hl.helper htext (hinner.grows.trans hfinal)
      rw [ih hfinal ⟨hhelper, hjob⟩ hanchor hcontext, Account.ofJob_run]
      rfl
  | part value hhelper =>
      obtain ⟨-, hreactive, hpaths⟩ := hc.gives_written hjob
      rw [Collector.collectOfList_cons, hc.collect_statement,
        hc.collect_callHelper (hl.helper hhelper hfinal) (by decide) (by decide)]
      simp [hc.collect_local hanchor, hc.collect_local hcontext, hreactive, hc.collect_array,
        hpaths, Account.ofJob, Account.ofTemplate]
  | text => rfl
  | nothing => rfl
  | done s scope options helper pending =>
      simpa [Account.ofJob, Template.leadingText, Account.ofTemplates] using
        collectOfList_flush hc hjob.1 hanchor pending
  | gather _ ih =>
      rw [ih hfinal ⟨hjob.1, hjob.2.2⟩ hanchor hcontext]
      simp [Account.ofJob, Template.leadingText, Account.ofTemplates, Template.normalText,
        String.append_assoc]
  | @next _ _ _ _ _ _ pending t ts _ _ htree hfirst hlater ihfirst ihlater =>
      obtain ⟨hhelper, ht, hts⟩ := hjob
      have hone := ihfirst (hlater.grows.trans hfinal) ht hanchor hcontext
      have hrest := ihlater hfinal ⟨hhelper, hts⟩ hanchor hcontext
      rw [Account.ofJob_run] at hrest
      rw [Collector.collectOfList_append, Collector.collectOfList_append,
        collectOfList_flush hc hhelper hanchor, hone, hrest]
      cases t with
      | text raw => exact absurd rfl (htree raw)
      | element | fragment | part | nothing =>
          simp [Account.ofJob, Template.leadingText, Account.ofTemplates]

theorem collect_of_run_template {σ α : Type} {c : Collector σ α} {made : σ} {a : Account α}
    {l : Lexicon} {final s s' : Session} {t : Template} {closure : Node}
    (h : (lowerTemplate t).run s = (.ok closure, s')) (hc : c.Renders made a l)
    (hl : l.Covers final) (hfinal : s'.Grows final) (ht : t.Written l.Written) (value : σ) :
    c.collect value closure = a.ofTemplate .root t := by
  obtain ⟨scope, s₁, s₂, items, trace, hroot, hctx, hitems, rfl⟩ := lowers_of_run_template h
  have hanchor := hl.fresh (by decide) hroot
  rw [hc.collect_closure hanchor hl.document]
  exact hitems.collect_eq hc hl hfinal ht hanchor (hl.fresh (by decide) hctx)

end TemplateCompiler
