import TemplateCompiler.Proofs.Template.Reporting
import TemplateCompiler.Proofs.Template.SnippetText

/-!
Lowering by writing. Constants, functions, closures, callbacks and accesses are written as text, the
text is read, and values are put into what was read. The text is always accepted and always has the
shape that the values are put into, so this gives the same programs as lowering does, and no answer
is about the compiler itself.
-/

namespace TemplateCompiler

open Lower Grammar Session

namespace Written

/-- What is handed over for an expression. The function is written whether or not
there are dependencies. -/
def reactiveValue (value : Node) : Lower (Node × List Node) := do
  let closure ← check (Snippet.arrow "" value)
  match dependencies value with
  | [] => return (value, [])
  | paths => return (closure, paths)

def reactiveCallback (scope : Scope) (apply value : Node) : Lower Node := do
  let callback ← require "reactiveCallback"
  let (value, paths) ← reactiveValue value
  return Emit.call (Emit.name callback) [Emit.name scope.context, apply, value, Emit.array paths]

def lowerDirective (scope : Scope) (target : String) (value : Node) : Directive → Lower Node
  | .bind property => do
    let apply ← check (Snippet.expression (Snippet.bindText target property))
    reactiveCallback scope apply value
  | .attr key => do
    let apply ← check (Snippet.expression (Snippet.attrText target key))
    reactiveCallback scope apply value
  | .model => do
    let detect ← require "detectValueChange"
    let setState ← require "setStateValue"
    let parameter ← fresh "value"
    let write := Emit.call (Emit.name setState) [value, Emit.name parameter]
    let change ← check (Snippet.arrow parameter write)
    return Emit.call (Emit.name detect) [change, Emit.name target]
  | .custom name modifier => do
    let registry ← require "directives"
    let callee ← check (Snippet.expression (Snippet.accessText registry name))
    return Emit.call callee
      [Emit.name scope.context, Emit.name target, Emit.string modifier, value]
  -- Nothing is written for the others.
  | directive => TemplateCompiler.lowerDirective scope target value directive

def lowerAttribute (scope : Scope) (target : String) : Attribute → Lower LoweredAttributes
  | .spread value => return { props := [Emit.spread value] }
  | .named name value start =>
    match AttributeKind.ofName name with
    | .compile modifier => do
      let options ← check (compileInstruction modifier value start)
      return { options }
    | .directive directive => do
      let call ← lowerDirective scope target (value.toNode Emit.null) directive
      return { directives := [Emit.statement call] }
    | .prop => return { props := [Emit.property name (value.toNode Emit.yes)] }

def lowerAttributes (scope : Scope) (target : String) : List Attribute → Lower LoweredAttributes
  | [] => return {}
  | a :: as => do
    let first ← lowerAttribute scope target a
    let rest ← lowerAttributes scope target as
    return first.append rest

def creation (helper target : String) (scope : Scope) (subject : List Node)
    (attributes : LoweredAttributes) : Lower (List Node) := do
  let arguments := [Emit.name scope.anchor, Emit.name scope.context] ++ subject ++
    [Emit.object attributes.props]
  let constant ← check (Snippet.constDeclaration target (Emit.call (Emit.name helper) arguments))
  return constant :: attributes.directives

def lowerPart (scope : Scope) (value : Node) : Lower (List Node) := do
  let helper ← require "reactivePart"
  let (value, paths) ← reactiveValue value
  return [Emit.statement <| Emit.call (Emit.name helper)
    [Emit.name scope.context, Emit.name scope.anchor, value, Emit.array paths]]

mutual

def lowerTree (scope : Scope) (options : TextOptions) : Template → Lower (List Node)
  | .element tag attributes children => do
    if !tag.isComponent then
      let helper ← require "element"
      let target ← fresh "ele"
      let lowered ← lowerAttributes scope target attributes
      let head ← creation helper target scope [Emit.string tag.spelling] lowered
      if children.isEmpty then return head
      let text ← require "appendText"
      let inner ← lowerRun { scope with anchor := target } (options.merge lowered.options) text ""
        children
      return head ++ inner
    else
      match tag.control? with
      | some control =>
        match control.constructor? with
        | some (symbol, base) =>
          let helper ← require symbol
          let target ← fresh base
          let lowered ← lowerAttributes scope target attributes
          creation helper target scope [] lowered
        | none =>
          let own ← check (instructions attributes)
          let text ← require "appendText"
          lowerRun scope (options.merge own) text "" children
      | none =>
        let component ← check tag.component
        let helper ← require "createComponent"
        let target ← fresh "comp"
        let lowered ← lowerAttributes scope target attributes
        let head ← creation helper target scope [component] lowered
        if children.isEmpty then return head
        let slot ← newScope
        let text ← require "appendText"
        let inner ← lowerRun slot (options.merge lowered.options) text "" children
        let closure ← check (Snippet.fragmentClosure slot.anchor slot.context inner)
        let setSlot := Emit.call (Emit.member (Emit.name target) "setSlot") [closure]
        return head ++ [Emit.statement setSlot]
  | .fragment children => do
    let text ← require "appendText"
    lowerRun scope options text "" children
  | .part value => lowerPart scope value
  | .text _ => return []
  | .nothing => return []

def lowerRun (scope : Scope) (options : TextOptions) (helper pending : String) :
    List Template → Lower (List Node)
  | [] => return flush helper scope pending
  | .text raw :: rest =>
    lowerRun scope options helper
      (pending ++ Text.normalize options.mode (Text.decodeEntities raw)) rest
  | t :: rest => do
    let first ← lowerTree scope options t
    let later ← lowerRun scope options helper "" rest
    return flush helper scope pending ++ first ++ later

end

def lowerTemplate (t : Template) : Lower Node := do
  let scope ← newScope
  match t with
  | .element tag _ _ =>
      note ("[RumiousNative] Lowering <" ++ tag.spelling ++ "> into " ++ scope.anchor)
  | _ => pure ()
  let items ← lowerTree scope .root t
  check (Snippet.fragmentClosure scope.anchor scope.context items)

def replaceLiteral (literal : Node) : StateM Walk (Option Node) :=
  settle (lowerTemplate (.ofNode literal))

def walk : Nat → Node → StateM Walk Node
  | 0, n => return n
  | depth + 1, n =>
    walkWith (fun literal => do
      match ← replaceLiteral literal with
      | some closure => walk depth closure
      | none => return literal) n

/-- Replaces the literals of a program. The imports are written and read as well. -/
def transform (environment : String) (program : Node) : Transformed :=
  let (walked, w) := (walk program.markupDepth program).run (.start environment program)
  if !w.errors.isEmpty then
    { program := walked, templates := w.templates, errors := w.errors, session := w.session }
  else
    let (result, session) := (finishProgram walked.children).run w.session
    let line := "[RumiousNative] Lowered " ++ Nat.repr w.templates ++ " template(s), " ++
      Nat.repr session.events.length ++ " delegated event(s)"
    let session := { session with trace := session.trace ++ [line] }
    match result with
    | .ok body =>
      { program := .node walked.form walked.span body, templates := w.templates,
        errors := [], session }
    | .error cause => { program := walked, templates := w.templates, errors := [cause], session }

def compile (source : String) (metadata : Metadata) (options : Options) : Compiled :=
  let opening := openingLine metadata
  let outcome := readProgram metadata.language source
  let refuse := fun (r : Report) (trace : List String) =>
    { result := .error (r.locate metadata.filename source), trace : Compiled }
  match outcome.diagnostics, outcome.node with
  | d :: _, _ => refuse (faultReport d) [opening]
  | [], none => refuse (.internal "no program") [opening]
  | [], some program =>
    let t := transform options.environment program
    let trace := opening :: t.session.trace
    match t.errors with
    | cause :: _ => refuse (.ofCause cause) trace
    | [] =>
      let printed := Printer.program t.program (Scanner.byteLength source.toList)
      { result := .ok { code := printed.text, map := mapJson metadata.filename source printed },
        trace }

end Written

/-- Two steps that do the same in every session whose imports are named as lowering names them, and
what holds of their result. -/
def Lower.Coincide {α : Type} (x y : Lower α) (good : α → Prop) : Prop :=
  ∀ s : Session, s.Spelt → x.run s = y.run s ∧ (y.run s).2.Spelt ∧ ∀ a, (y.run s).1 = .ok a → good a

namespace Lower.Coincide

variable {α β : Type} {good : α → Prop} {good' : β → Prop}

theorem bind {x y : Lower α} {f g : α → Lower β} (h : Coincide x y good)
    (h' : ∀ a, good a → Coincide (f a) (g a) good') : Coincide (x >>= f) (y >>= g) good' := by
  intro s hs
  obtain ⟨hrun, hspelt, hgood⟩ := h s hs
  rw [run_bind, run_bind, hrun]
  rcases hy : y.run s with ⟨cause | a, s₁⟩
  · rw [hy] at hspelt
    exact ⟨rfl, hspelt, fun _ heq => by cases heq⟩
  · rw [hy] at hspelt hgood
    exact h' a (hgood a rfl) s₁ hspelt

theorem pure {a : α} (h : good a) : Coincide (Pure.pure a) (Pure.pure a) good :=
  fun _ hs => ⟨rfl, hs, fun _ heq => by cases heq; exact h⟩

theorem refl {x : Lower α} (h : x.Keeps Spelt) : Coincide x x (fun _ => True) :=
  fun s hs => ⟨rfl, h s hs, fun _ _ => trivial⟩

theorem check_bind {result : Except Cause α} {a : α} (hresult : result = .ok a) {f : α → Lower β}
    {y : Lower β} (h : Coincide (f a) y good') : Coincide (check result >>= f) y good' := by
  rw [hresult]
  exact h

end Lower.Coincide

theorem plainName_of_mem_bases {base : String} (h : base ∈ localBases ++ helperSymbols)
    (index : Nat) :
    PlainName (FreshNames.spelling base index) := by
  have hbases : ∀ base ∈ localBases ++ helperSymbols, Text.isName base.toList = true := by decide
  exact FreshNames.plainName_spelling (hbases base h) index

theorem coincide_fresh {base : String} (h : base ∈ localBases) :
    Coincide (fresh base) (fresh base) PlainName := by
  intro s hs
  refine ⟨rfl, stable_spelt.fresh base s hs, fun name hname => ?_⟩
  obtain ⟨base', hbase', index, rfl⟩ := isLocal_of_run_fresh h (Prod.ext hname rfl)
  exact plainName_of_mem_bases (List.mem_append_left _ hbase') index

theorem coincide_require {symbol : String} (h : symbol ∈ helperSymbols) :
    Coincide (require symbol) (require symbol) PlainName := by
  intro s hs
  have hspelt := stable_spelt.require symbol h s hs
  refine ⟨rfl, hspelt, fun name hname => ?_⟩
  obtain ⟨-, hlisted⟩ := of_run_require (Prod.ext hname rfl)
  obtain ⟨-, index, hspelling⟩ := hspelt _ hlisted
  rw [show name = FreshNames.spelling symbol index from hspelling]
  exact plainName_of_mem_bases (List.mem_append_right _ h) index

namespace Written

theorem reactiveValue_eq (value : Node) :
    reactiveValue value = pure (TemplateCompiler.reactiveValue value) := by
  unfold reactiveValue TemplateCompiler.reactiveValue
  rw [Snippet.arrow_empty_eq]
  cases dependencies value with
  | nil => rfl
  | cons path paths => rfl

theorem reactiveCallback_eq (scope : Scope) (apply value : Node) :
    reactiveCallback scope apply value = TemplateCompiler.reactiveCallback scope apply value := by
  unfold reactiveCallback
  simp only [reactiveValue_eq, pure_bind]
  rfl

theorem lowerPart_eq (scope : Scope) (value : Node) :
    lowerPart scope value = TemplateCompiler.lowerPart scope value := by
  unfold lowerPart
  simp only [reactiveValue_eq, pure_bind]
  rfl

theorem creation_eq {target : String} (h : PlainName target) (helper : String) (scope : Scope)
    (subject : List Node) (attributes : LoweredAttributes) :
    creation helper target scope subject attributes =
      pure (TemplateCompiler.creation helper target scope subject attributes) := by
  simp only [creation, Snippet.constDeclaration_eq h]
  rfl

theorem coincide_lowerDirective {target : String} (h : PlainName target) (scope : Scope)
    (value : Node) (directive : Directive) :
    Coincide (lowerDirective scope target value directive)
      (TemplateCompiler.lowerDirective scope target value directive) (fun _ => True) := by
  have hself :=
    Coincide.refl (stable_spelt.keeps (composed_lowerDirective scope target value directive))
  cases directive with
  | bind property =>
      refine Coincide.check_bind (Snippet.expression_bindText h property) ?_
      rw [reactiveCallback_eq]
      exact hself
  | attr key =>
      refine Coincide.check_bind (Snippet.expression_attrText h key) ?_
      rw [reactiveCallback_eq]
      exact hself
  | model =>
      refine (coincide_require (by decide)).bind fun detect _ => ?_
      refine (coincide_require (by decide)).bind fun setState _ => ?_
      refine (coincide_fresh (by decide)).bind fun parameter hparameter => ?_
      exact Coincide.check_bind (Snippet.arrow_eq hparameter _) (.pure trivial)
  | custom name modifier =>
      refine (coincide_require (by decide)).bind fun registry hregistry => ?_
      exact Coincide.check_bind (Snippet.expression_accessText hregistry name) (.pure trivial)
  | ref => exact hself
  | view => exact hself
  | on event => exact hself

theorem coincide_lowerAttribute {target : String} (h : PlainName target) (scope : Scope)
    (a : Attribute) :
    Coincide (lowerAttribute scope target a) (TemplateCompiler.lowerAttribute scope target a)
      (fun _ => True) := by
  cases a with
  | spread value => exact .pure trivial
  | named name value start =>
      simp only [lowerAttribute, TemplateCompiler.lowerAttribute]
      cases AttributeKind.ofName name with
      | compile modifier => exact (Coincide.refl (.check _)).bind fun options _ => .pure trivial
      | directive directive =>
          exact (coincide_lowerDirective h scope _ directive).bind fun call _ => .pure trivial
      | prop => exact .pure trivial

theorem coincide_lowerAttributes {target : String} (h : PlainName target) (scope : Scope)
    (as : List Attribute) :
    Coincide (lowerAttributes scope target as) (TemplateCompiler.lowerAttributes scope target as)
      (fun _ => True) := by
  induction as with
  | nil => exact .pure trivial
  | cons a as ih =>
      refine (coincide_lowerAttribute h scope a).bind fun first _ => ?_
      exact ih.bind fun rest _ => .pure trivial

theorem coincide_newScope :
    Coincide newScope newScope (fun scope => PlainName scope.anchor ∧ PlainName scope.context) := by
  refine (coincide_fresh (by decide)).bind fun anchor hanchor => ?_
  exact (coincide_fresh (by decide)).bind fun context hcontext => .pure ⟨hanchor, hcontext⟩

theorem coincide_created {α : Type} {good : α → Prop} {symbol base : String}
    (hsymbol : symbol ∈ helperSymbols) (hbase : base ∈ localBases) (scope : Scope)
    (attributes : List Attribute) (subject : List Node)
    {f : String → LoweredAttributes → List Node → Lower α}
    {g : String → String → LoweredAttributes → Lower α}
    (h : ∀ helper target lowered, PlainName target →
      Coincide (f target lowered (TemplateCompiler.creation helper target scope subject lowered))
        (g helper target lowered) good) :
    Coincide
      (do
        let helper ← require symbol
        let target ← fresh base
        let lowered ← lowerAttributes scope target attributes
        let head ← creation helper target scope subject lowered
        f target lowered head)
      (do
        let helper ← require symbol
        let target ← fresh base
        let lowered ← TemplateCompiler.lowerAttributes scope target attributes
        g helper target lowered) good := by
  refine (coincide_require hsymbol).bind fun helper _ => ?_
  refine (coincide_fresh hbase).bind fun target htarget => ?_
  refine (coincide_lowerAttributes htarget scope attributes).bind fun lowered _ => ?_
  rw [creation_eq htarget, pure_bind]
  exact h helper target lowered htarget

mutual

theorem coincide_lowerTree (scope : Scope) (options : TextOptions) : (t : Template) →
    Coincide (lowerTree scope options t) (TemplateCompiler.lowerTree scope options t)
      (fun _ => True)
  | .element tag attributes children => by
      simp only [lowerTree, TemplateCompiler.lowerTree]
      cases tag.isComponent with
      | false =>
          simp only [Bool.not_false, if_true]
          refine coincide_created (by decide) (by decide) _ _ _ fun helper target lowered _ => ?_
          cases children.isEmpty with
          | true => exact .pure trivial
          | false =>
              refine (coincide_require (by decide)).bind fun text _ => ?_
              exact (coincide_lowerRun _ _ text "" children).bind fun inner _ => .pure trivial
      | true =>
          simp only [Bool.not_true, Bool.false_eq_true, if_false]
          rcases tag.control? with _ | _ | _ | _
          case none =>
            refine (Coincide.refl (.check _)).bind fun component _ => ?_
            refine coincide_created (by decide) (by decide) _ _ _ fun helper target lowered _ => ?_
            cases children.isEmpty with
            | true => exact .pure trivial
            | false =>
                refine coincide_newScope.bind fun slot hslot => ?_
                refine (coincide_require (by decide)).bind fun text _ => ?_
                refine (coincide_lowerRun slot _ text "" children).bind fun inner _ => ?_
                exact Coincide.check_bind (Snippet.fragmentClosure_eq hslot.1 hslot.2 inner)
                  (.pure trivial)
          case some.fragment =>
            refine (Coincide.refl (.check _)).bind fun own _ => ?_
            refine (coincide_require (by decide)).bind fun text _ => ?_
            exact coincide_lowerRun _ _ text "" children
          all_goals
            refine (coincide_require (by decide)).bind fun helper _ => ?_
            refine (coincide_fresh (by decide)).bind fun target htarget => ?_
            refine (coincide_lowerAttributes htarget scope attributes).bind fun lowered _ => ?_
            rw [creation_eq htarget]
            exact .pure trivial
  | .fragment children => by
      unfold lowerTree TemplateCompiler.lowerTree
      refine (coincide_require (by decide)).bind fun text _ => ?_
      exact coincide_lowerRun scope options text "" children
  | .part value => by
      unfold lowerTree TemplateCompiler.lowerTree
      rw [lowerPart_eq]
      exact Coincide.refl (stable_spelt.keeps (composed_lowerPart scope value))
  | .text _ => by
      unfold lowerTree TemplateCompiler.lowerTree
      exact .pure trivial
  | .nothing => by
      unfold lowerTree TemplateCompiler.lowerTree
      exact .pure trivial

theorem coincide_lowerRun (scope : Scope) (options : TextOptions) (helper pending : String) :
    (ts : List Template) → Coincide (lowerRun scope options helper pending ts)
      (TemplateCompiler.lowerRun scope options helper pending ts) (fun _ => True)
  | [] => by
      unfold lowerRun TemplateCompiler.lowerRun
      exact .pure trivial
  | t :: ts => by
      cases t with
      | text raw =>
          unfold lowerRun TemplateCompiler.lowerRun
          exact coincide_lowerRun scope options helper _ ts
      | _ =>
          unfold lowerRun TemplateCompiler.lowerRun
          refine (coincide_lowerTree scope options _).bind fun first _ => ?_
          exact (coincide_lowerRun scope options helper "" ts).bind fun later _ => .pure trivial

end

theorem coincide_lowerTemplate (t : Template) :
    Coincide (lowerTemplate t) (TemplateCompiler.lowerTemplate t) (fun _ => True) := by
  unfold lowerTemplate TemplateCompiler.lowerTemplate
  refine coincide_newScope.bind fun scope hscope => ?_
  have hrest : Coincide
      (do
        let items ← lowerTree scope .root t
        check (Snippet.fragmentClosure scope.anchor scope.context items))
      (do
        let items ← TemplateCompiler.lowerTree scope .root t
        return Emit.closure scope.anchor scope.context items) (fun _ => True) := by
    refine (coincide_lowerTree scope .root t).bind fun items _ => ?_
    rw [Snippet.fragmentClosure_eq hscope.1 hscope.2]
    exact .pure trivial
  cases t with
  | element tag attributes children =>
      exact (Coincide.refl (stable_spelt.note _)).bind fun _ _ => hrest
  | _ => exact hrest

/-- Two walks that do the same as long as imports are named as lowering names them. -/
def CoincideOnWalks {α : Type} (x y : StateM Walk α) : Prop :=
  ∀ w : Walk, w.session.Spelt → x.run w = y.run w ∧ (y.run w).2.session.Spelt

theorem CoincideOnWalks.pure {α : Type} (a : α) :
    CoincideOnWalks (Pure.pure a : StateM Walk α) (Pure.pure a) := fun _ hw => ⟨rfl, hw⟩

theorem CoincideOnWalks.bind {α β : Type} {x y : StateM Walk α} {f g : α → StateM Walk β}
    (h : CoincideOnWalks x y) (h' : ∀ a, CoincideOnWalks (f a) (g a)) :
    CoincideOnWalks (x >>= f) (y >>= g) := by
  intro w hw
  obtain ⟨hrun, hspelt⟩ := h w hw
  rw [StateT.run_bind, StateT.run_bind, hrun]
  exact h' _ _ hspelt

theorem coincide_settle {x y : Lower Node} {post : Node → Prop} (h : Coincide x y post) :
    CoincideOnWalks (settle x) (settle y) := by
  intro w hw
  obtain ⟨hrun, hspelt, -⟩ := h w.session hw
  rw [run_settle, run_settle, hrun]
  rcases hy : y.run w.session with ⟨_ | _, session⟩
  · rw [hy] at hspelt
    exact ⟨rfl, hspelt⟩
  · rw [hy] at hspelt
    exact ⟨rfl, hspelt⟩

theorem coincide_replaceLiteral (literal : Node) :
    CoincideOnWalks (replaceLiteral literal) (TemplateCompiler.replaceLiteral literal) :=
  coincide_settle (coincide_lowerTemplate (.ofNode literal))

mutual

theorem coincide_walkWith {visit visit' : Node → StateM Walk Node}
    (h : ∀ literal, CoincideOnWalks (visit literal) (visit' literal)) :
    (n : Node) → CoincideOnWalks (walkWith visit n) (walkWith visit' n)
  | .node f span cs => by
      unfold walkWith
      cases f.isMarkup with
      | true => exact h _
      | false => exact (coincide_walkListWith h cs).bind fun _ => .pure _

theorem coincide_walkListWith {visit visit' : Node → StateM Walk Node}
    (h : ∀ literal, CoincideOnWalks (visit literal) (visit' literal)) :
    (ns : List Node) → CoincideOnWalks (walkListWith visit ns) (walkListWith visit' ns)
  | [] => .pure _
  | n :: ns =>
      (coincide_walkWith h n).bind fun _ => (coincide_walkListWith h ns).bind fun _ => .pure _

end

theorem coincide_walk (depth : Nat) (n : Node) :
    CoincideOnWalks (walk depth n) (TemplateCompiler.walk depth n) := by
  induction depth generalizing n with
  | zero => exact .pure n
  | succ depth ih =>
      refine coincide_walkWith (fun literal => ?_) n
      refine (coincide_replaceLiteral literal).bind fun answer => ?_
      cases answer with
      | some closure => exact ih closure
      | none => exact .pure literal

theorem transform_eq (environment : String) (program : Node) :
    transform environment program = TemplateCompiler.transform environment program := by
  obtain ⟨hrun, -⟩ := coincide_walk program.markupDepth program (.start environment program)
    (Walk.spelt_start environment program)
  unfold transform
  rw [hrun]
  rfl

theorem compile_eq (source : String) (metadata : Metadata) (options : Options) :
    compile source metadata options = TemplateCompiler.compile source metadata options := by
  unfold compile
  simp only [transform_eq]
  rfl

end Written

theorem Report.code_locate (r : Report) (file source : String) :
    (r.locate file source).code = r.code := by
  unfold Report.locate
  split
  · rfl
  · rfl

/-- An answer that is no program is about the source: a fault in it, or a
violation in a template. -/
theorem code_of_compile_error {source : String} {metadata : Metadata} {options : Options}
    {report : Report} (h : (compile source metadata options).result = .error report) :
    report.code ∈ [Code.parse, Code.element, Code.compile] := by
  cases hfaults : (readProgram metadata.language source).diagnostics with
  | cons d rest =>
      simp only [compile, hfaults, Except.error.injEq] at h
      rw [← h, Report.code_locate]
      exact List.mem_cons_self ..
  | nil =>
      obtain ⟨program, hprogram⟩ := Outcome.exists_node hfaults
      obtain ⟨prologue, span, statements, rfl⟩ := exists_program_of_readProgram hprogram
      obtain ⟨met, violations, -, herrors⟩ :=
        visits_transform options.environment prologue span statements
      obtain ⟨hfailure, hsuccess⟩ := compile_of_read options hfaults hprogram
      cases violations with
      | nil =>
          obtain ⟨output, houtput⟩ := hsuccess herrors
          rw [houtput] at h
          cases h
      | cons v rest =>
          rw [hfailure herrors, Except.error.injEq] at h
          rw [← h, Report.code_locate, v.report_cause.1]
          cases v <;> simp [Violation.code]

namespace Snippet

/-- Whatever is written with a name is read as what it was written for, and what is
put in has its place. -/
structure Accepts (name : String) : Prop where
  constant : statements (constText name) = .ok [Emit.constant (Emit.binding name) nought] ∧
    ∀ value, constDeclaration name value = .ok (Emit.constant (Emit.binding name) value)
  function : expression (arrowText name) = .ok (Emit.arrow name nought) ∧
    ∀ body, arrow name body = .ok (Emit.arrow name body)
  bind : ∀ property, expression (bindText name property) = .ok (Emit.arrow "value" <|
    Emit.made (.assignment "=") [Emit.access (Emit.name name) property, Emit.name "value"])
  attr : ∀ key, expression (attrText name key) = .ok (Emit.arrow "value" <|
    Emit.call (Emit.member (Emit.name name) "setAttribute") [Emit.string key, Emit.name "value"])
  access : ∀ property,
    expression (accessText name property) = .ok (Emit.access (Emit.name name) property)

theorem accepts_of_plainName {name : String} (h : PlainName name) : Accepts name where
  constant := ⟨statements_constText h, constDeclaration_eq h⟩
  function := ⟨expression_arrowText h, arrow_eq h⟩
  bind := expression_bindText h
  attr := expression_attrText h
  access := expression_accessText h

end Snippet

/-- A name that lowering mints, for a node or for an imported symbol, with any number behind it. -/
def IsMinted (name : String) : Prop :=
  ∃ base ∈ localBases ++ helperSymbols, ∃ index, name = FreshNames.spelling base index

theorem IsMinted.plainName {name : String} (h : IsMinted name) : PlainName name := by
  obtain ⟨base, hbase, index, rfl⟩ := h
  exact plainName_of_mem_bases hbase index

/-- Compiling never gets into trouble with what it writes itself. -/
structure WritesSoundly (source : String) (metadata : Metadata) (options : Options) : Prop where
  /-- No answer is about the compiler itself. -/
  answer : ∀ report, (compile source metadata options).result = .error report →
    report.code ≠ Code.scope ∧ report.code ≠ Code.internal
  /-- Writing every piece as text and reading it makes the same tree of every program, and gives the
  same text, map, report and notes. -/
  transformed : ∀ program,
    Written.transform options.environment program = transform options.environment program
  written : Written.compile source metadata options = compile source metadata options
  /-- Every text with a minted name is accepted and has the shape that it was written for. -/
  accepted : ∀ name, IsMinted name → Snippet.Accepts name
  function : Snippet.expression (Snippet.arrowText "") = .ok (thunk Snippet.nought) ∧
    ∀ body, Snippet.arrow "" body = .ok (thunk body)
  closure : ∀ root context, IsMinted root → IsMinted context →
    Snippet.expression (Snippet.closureText root context) = .ok (Emit.closure root context []) ∧
      ∀ items, Snippet.fragmentClosure root context items = .ok (Emit.closure root context items)
  /-- So are the imports, in every session that occurs. -/
  imports : ∀ s, Reachable s → Snippet.statements s.imports.text = .ok s.declarations

theorem compile_writesSoundly (source : String) (metadata : Metadata) (options : Options) :
    WritesSoundly source metadata options where
  answer report hreport := by
    have hcodes : ∀ code ∈ [Code.parse, Code.element, Code.compile],
        code ≠ Code.scope ∧ code ≠ Code.internal := by decide
    exact hcodes report.code (code_of_compile_error hreport)
  transformed := Written.transform_eq options.environment
  written := Written.compile_eq source metadata options
  accepted name hname := Snippet.accepts_of_plainName hname.plainName
  function := ⟨Snippet.expression_arrowText_empty, Snippet.arrow_empty_eq⟩
  closure root context hroot hcontext :=
    ⟨Snippet.expression_closureText hroot.plainName hcontext.plainName,
      Snippet.fragmentClosure_eq hroot.plainName hcontext.plainName⟩
  imports s hs := Snippet.statements_text hs.spelt.areNames

/-- A tag that is refused, and a member that is no name and is written in brackets. -/
theorem compile_writesSoundly_sample :
    (∃ report, (compile "const v = <A-b/>;" ⟨"view.jsx", .module⟩ {}).result = .error report ∧
      report.code ≠ Code.scope ∧ report.code ≠ Code.internal) ∧
    IsMinted "_ele2" ∧
    Snippet.expression (Snippet.bindText "_ele2" "aria-label") = .ok (Emit.arrow "value" <|
      Emit.made (.assignment "=")
        [Emit.access (Emit.name "_ele2") "aria-label", Emit.name "value"]) := by
  have hsound := compile_writesSoundly "const v = <A-b/>;" ⟨"view.jsx", .module⟩ {}
  have hfails : (compile "const v = <A-b/>;" ⟨"view.jsx", .module⟩ {}).result.isOk = false := by
    decide +kernel
  have hminted : IsMinted "_ele2" := ⟨"ele", by decide, 2, by decide⟩
  refine ⟨?_, hminted, (hsound.accepted "_ele2" hminted).bind "aria-label"⟩
  cases hresult : (compile "const v = <A-b/>;" ⟨"view.jsx", .module⟩ {}).result with
  | error report => exact ⟨report, rfl, hsound.answer report hresult⟩
  | ok output =>
      rw [hresult] at hfails
      cases hfails

end TemplateCompiler
