import TemplateCompiler.Proofs.Template.Growth

/-!
Successful lowering as a relation. A derivation names every step that was taken, with the sessions
between them, so that a property of lowered templates is an induction over derivations and lowering
itself is opened in this module only.
-/

namespace TemplateCompiler

open Lower

/-- What a directive on `target` becomes. -/
inductive LowersDirective (scope : Scope) (target : String) (value : Node) :
    Session → Directive → Node → Session → Prop
  | bind {s s' : Session} {callback : String} (property : String)
      (hcallback : (require "reactiveCallback").run s = (.ok callback, s')) :
      LowersDirective scope target value s (.bind property)
        (Emit.call (Emit.name callback)
          [Emit.name scope.context,
           Emit.arrow "value" (Emit.made (.assignment "=")
            [Emit.access (Emit.name target) property, Emit.name "value"]),
           (reactiveValue value).1, Emit.array (reactiveValue value).2]) s'
  | attr {s s' : Session} {callback : String} (key : String)
      (hcallback : (require "reactiveCallback").run s = (.ok callback, s')) :
      LowersDirective scope target value s (.attr key)
        (Emit.call (Emit.name callback)
          [Emit.name scope.context,
           Emit.arrow "value" (Emit.call (Emit.member (Emit.name target) "setAttribute")
            [Emit.string key, Emit.name "value"]),
           (reactiveValue value).1, Emit.array (reactiveValue value).2]) s'
  | ref {s s' : Session} {helper : String}
      (hhelper : (require "ref").run s = (.ok helper, s')) :
      LowersDirective scope target value s .ref
        (Emit.call (Emit.name helper) [Emit.name scope.context, Emit.name target, value]) s'
  | view {s s' : Session} {helper : String}
      (hhelper : (require "view").run s = (.ok helper, s')) :
      LowersDirective scope target value s .view
        (Emit.call (Emit.name helper) [Emit.name scope.context, Emit.name target, value]) s'
  | model {s s₁ s₂ s' : Session} {detect setState parameter : String}
      (hdetect : (require "detectValueChange").run s = (.ok detect, s₁))
      (hsetState : (require "setStateValue").run s₁ = (.ok setState, s₂))
      (hparameter : (fresh "value").run s₂ = (.ok parameter, s')) :
      LowersDirective scope target value s .model
        (Emit.call (Emit.name detect)
          [Emit.arrow parameter
            (Emit.call (Emit.name setState) [value, Emit.name parameter]), Emit.name target]) s'
  | on {s s₁ : Session} {helper : String} (event : String)
      (hhelper : (require "createEvent").run s = (.ok helper, s₁)) :
      LowersDirective scope target value s (.on event)
        (Emit.call (Emit.name helper)
          [Emit.name scope.context, Emit.name target, Emit.string event, value])
        { s₁ with events := s₁.events ++ [event] }
  | custom {s s' : Session} {registry : String} (name modifier : String)
      (hregistry : (require "directives").run s = (.ok registry, s')) :
      LowersDirective scope target value s (.custom name modifier)
        (Emit.call (Emit.access (Emit.name registry) name)
          [Emit.name scope.context, Emit.name target, Emit.string modifier, value]) s'

/-- What the attributes of a tag become. -/
inductive LowersAttributes (scope : Scope) (target : String) :
    Session → List Attribute → LoweredAttributes → Session → Prop
  | nil (s : Session) : LowersAttributes scope target s [] {} s
  | spread {s s' : Session} {value : Node} {as : List Attribute} {rest : LoweredAttributes} :
      LowersAttributes scope target s as rest s' →
      LowersAttributes scope target s (.spread value :: as)
        (LoweredAttributes.append { props := [Emit.spread value] } rest) s'
  | compile {s s' : Session} {name modifier : String} {value : AttributeValue} {start : Nat}
      {options : TextOptions} {as : List Attribute} {rest : LoweredAttributes}
      (hkind : AttributeKind.ofName name = .compile modifier)
      (hoptions : compileInstruction modifier value start = .ok options) :
      LowersAttributes scope target s as rest s' →
      LowersAttributes scope target s (.named name value start :: as)
        (LoweredAttributes.append { options } rest) s'
  | directive {s s₁ s' : Session} {name : String} {value : AttributeValue} {start : Nat}
      {directive : Directive} {call : Node} {as : List Attribute} {rest : LoweredAttributes}
      (hkind : AttributeKind.ofName name = .directive directive)
      (hcall : LowersDirective scope target (value.toNode Emit.null) s directive call s₁) :
      LowersAttributes scope target s₁ as rest s' →
      LowersAttributes scope target s (.named name value start :: as)
        (LoweredAttributes.append { directives := [Emit.statement call] } rest) s'
  | prop {s s' : Session} {name : String} {value : AttributeValue} {start : Nat}
      {as : List Attribute} {rest : LoweredAttributes}
      (hkind : AttributeKind.ofName name = .prop) :
      LowersAttributes scope target s as rest s' →
      LowersAttributes scope target s (.named name value start :: as)
        (LoweredAttributes.append { props := [Emit.property name (value.toNode Emit.yes)] } rest) s'

/-- What is lowered: a single template, or templates one behind the other with the text
gathered before them. -/
inductive Job where
  | tree (t : Template)
  | run (helper pending : String) (ts : List Template)

/-- The statement that hands a closure to a component. -/
def slotStatement (target : String) (slot : Scope) (items : List Node) : Node :=
  Emit.statement (Emit.call (Emit.member (Emit.name target) "setSlot")
    [Emit.closure slot.anchor slot.context items])

/-- The statements that templates become, and the session afterwards. -/
inductive Lowers : Session → Scope → TextOptions → Job → List Node → Session → Prop
  | leafElement {s s₁ s₂ s' : Session} {scope : Scope} {options : TextOptions} {tag : Tag}
      {attributes : List Attribute} {helper target : String} {lowered : LoweredAttributes}
      (htag : tag.isComponent = false)
      (hhelper : (require "element").run s = (.ok helper, s₁))
      (htarget : (fresh "ele").run s₁ = (.ok target, s₂))
      (hattributes : LowersAttributes scope target s₂ attributes lowered s') :
      Lowers s scope options (.tree (.element tag attributes []))
        (creation helper target scope [Emit.string tag.spelling] lowered) s'
  | element {s s₁ s₂ s₃ s₄ s' : Session} {scope : Scope} {options : TextOptions} {tag : Tag}
      {attributes : List Attribute} {child : Template} {children : List Template}
      {helper target text : String} {lowered : LoweredAttributes} {inner : List Node}
      (htag : tag.isComponent = false)
      (hhelper : (require "element").run s = (.ok helper, s₁))
      (htarget : (fresh "ele").run s₁ = (.ok target, s₂))
      (hattributes : LowersAttributes scope target s₂ attributes lowered s₃)
      (htext : (require "appendText").run s₃ = (.ok text, s₄))
      (hinner : Lowers s₄ { scope with anchor := target } (options.merge lowered.options)
        (.run text "" (child :: children)) inner s') :
      Lowers s scope options (.tree (.element tag attributes (child :: children)))
        (creation helper target scope [Emit.string tag.spelling] lowered ++ inner) s'
  | control {s s₁ s₂ s' : Session} {scope : Scope} {options : TextOptions} {tag : Tag}
      {attributes : List Attribute} {children : List Template} {control : ControlTag}
      {symbol base helper target : String} {lowered : LoweredAttributes}
      (htag : tag.isComponent = true) (hcontrol : tag.control? = some control)
      (hconstructor : control.constructor? = some (symbol, base))
      (hhelper : (require symbol).run s = (.ok helper, s₁))
      (htarget : (fresh base).run s₁ = (.ok target, s₂))
      (hattributes : LowersAttributes scope target s₂ attributes lowered s') :
      Lowers s scope options (.tree (.element tag attributes children))
        (creation helper target scope [] lowered) s'
  | splice {s s₁ s' : Session} {scope : Scope} {options own : TextOptions} {tag : Tag}
      {attributes : List Attribute} {children : List Template} {text : String} {inner : List Node}
      (htag : tag.isComponent = true) (hcontrol : tag.control? = some .fragment)
      (hown : instructions attributes = .ok own)
      (htext : (require "appendText").run s = (.ok text, s₁))
      (hinner : Lowers s₁ scope (options.merge own) (.run text "" children) inner s') :
      Lowers s scope options (.tree (.element tag attributes children)) inner s'
  | leafComponent {s s₁ s₂ s' : Session} {scope : Scope} {options : TextOptions} {tag : Tag}
      {attributes : List Attribute} {helper target : String} {component : Node}
      {lowered : LoweredAttributes}
      (htag : tag.isComponent = true) (hcontrol : tag.control? = none)
      (hcomponent : tag.component = .ok component)
      (hhelper : (require "createComponent").run s = (.ok helper, s₁))
      (htarget : (fresh "comp").run s₁ = (.ok target, s₂))
      (hattributes : LowersAttributes scope target s₂ attributes lowered s') :
      Lowers s scope options (.tree (.element tag attributes []))
        (creation helper target scope [component] lowered) s'
  | component {s s₁ s₂ s₃ s₄ s₅ s₆ s' : Session} {scope slot : Scope} {options : TextOptions}
      {tag : Tag} {attributes : List Attribute} {child : Template} {children : List Template}
      {helper target text : String} {component : Node} {lowered : LoweredAttributes}
      {inner : List Node}
      (htag : tag.isComponent = true) (hcontrol : tag.control? = none)
      (hcomponent : tag.component = .ok component)
      (hhelper : (require "createComponent").run s = (.ok helper, s₁))
      (htarget : (fresh "comp").run s₁ = (.ok target, s₂))
      (hattributes : LowersAttributes scope target s₂ attributes lowered s₃)
      (hanchor : (fresh "root").run s₃ = (.ok slot.anchor, s₄))
      (hcontext : (fresh "ctx").run s₄ = (.ok slot.context, s₅))
      (htext : (require "appendText").run s₅ = (.ok text, s₆))
      (hinner : Lowers s₆ slot (options.merge lowered.options) (.run text "" (child :: children))
        inner s') :
      Lowers s scope options (.tree (.element tag attributes (child :: children)))
        (creation helper target scope [component] lowered ++ [slotStatement target slot inner]) s'
  | fragment {s s₁ s' : Session} {scope : Scope} {options : TextOptions}
      {children : List Template} {text : String} {inner : List Node}
      (htext : (require "appendText").run s = (.ok text, s₁))
      (hinner : Lowers s₁ scope options (.run text "" children) inner s') :
      Lowers s scope options (.tree (.fragment children)) inner s'
  | part {s s' : Session} {scope : Scope} {options : TextOptions} {helper : String}
      (value : Node) (hhelper : (require "reactivePart").run s = (.ok helper, s')) :
      Lowers s scope options (.tree (.part value))
        [Emit.statement (Emit.call (Emit.name helper)
          [Emit.name scope.context, Emit.name scope.anchor, (reactiveValue value).1,
           Emit.array (reactiveValue value).2])] s'
  | text (s : Session) (scope : Scope) (options : TextOptions) (raw : String) :
      Lowers s scope options (.tree (.text raw)) [] s
  | nothing (s : Session) (scope : Scope) (options : TextOptions) :
      Lowers s scope options (.tree .nothing) [] s
  | done (s : Session) (scope : Scope) (options : TextOptions) (helper pending : String) :
      Lowers s scope options (.run helper pending []) (flush helper scope pending) s
  | gather {s s' : Session} {scope : Scope} {options : TextOptions} {helper pending raw : String}
      {ts : List Template} {items : List Node}
      (hrest : Lowers s scope options
        (.run helper (pending ++ Text.normalize options.mode (Text.decodeEntities raw)) ts) items
          s') :
      Lowers s scope options (.run helper pending (.text raw :: ts)) items s'
  | next {s s₁ s' : Session} {scope : Scope} {options : TextOptions} {helper pending : String}
      {t : Template} {ts : List Template} {first later : List Node}
      (htree : ∀ raw, t ≠ .text raw)
      (hfirst : Lowers s scope options (.tree t) first s₁)
      (hlater : Lowers s₁ scope options (.run helper "" ts) later s') :
      Lowers s scope options (.run helper pending (t :: ts))
        (flush helper scope pending ++ first ++ later) s'

theorem LowersDirective.grows {scope : Scope} {target : String} {value call : Node}
    {directive : Directive} {s s' : Session}
    (h : LowersDirective scope target value s directive call s') : s.Grows s' := by
  cases h with
  | bind property hcallback => exact (Session.of_run_require hcallback).1
  | attr key hcallback => exact (Session.of_run_require hcallback).1
  | ref hhelper => exact (Session.of_run_require hhelper).1
  | view hhelper => exact (Session.of_run_require hhelper).1
  | model hdetect hsetState hparameter =>
      exact ((Session.of_run_require hdetect).1.trans (Session.of_run_require hsetState).1).trans
        (Session.of_run_fresh hparameter).1
  | on event hhelper =>
      exact (Session.stable_grows s).listen event _ (Session.of_run_require hhelper).1
  | custom name modifier hregistry => exact (Session.of_run_require hregistry).1

theorem LowersAttributes.grows {scope : Scope} {target : String} {as : List Attribute}
    {lowered : LoweredAttributes} {s s' : Session}
    (h : LowersAttributes scope target s as lowered s') : s.Grows s' := by
  induction h with
  | nil s => exact .refl s
  | spread _ ih => exact ih
  | compile _ _ _ ih => exact ih
  | directive _ hcall _ ih => exact hcall.grows.trans ih
  | prop _ _ ih => exact ih

theorem Lowers.grows {scope : Scope} {options : TextOptions} {job : Job} {items : List Node}
    {s s' : Session} (h : Lowers s scope options job items s') : s.Grows s' := by
  induction h with
  | leafElement _ hhelper htarget hattributes =>
      exact ((Session.of_run_require hhelper).1.trans (Session.of_run_fresh htarget).1).trans
        hattributes.grows
  | element _ hhelper htarget hattributes htext _ ih =>
      exact ((((Session.of_run_require hhelper).1.trans (Session.of_run_fresh htarget).1).trans
        hattributes.grows).trans (Session.of_run_require htext).1).trans ih
  | control _ _ _ hhelper htarget hattributes =>
      exact ((Session.of_run_require hhelper).1.trans (Session.of_run_fresh htarget).1).trans
        hattributes.grows
  | splice _ _ _ htext _ ih => exact (Session.of_run_require htext).1.trans ih
  | leafComponent _ _ _ hhelper htarget hattributes =>
      exact ((Session.of_run_require hhelper).1.trans (Session.of_run_fresh htarget).1).trans
        hattributes.grows
  | component _ _ _ hhelper htarget hattributes hanchor hcontext htext _ ih =>
      have hhead :=
        ((Session.of_run_require hhelper).1.trans (Session.of_run_fresh htarget).1).trans
        hattributes.grows
      have hslot := (Session.of_run_fresh hanchor).1.trans (Session.of_run_fresh hcontext).1
      exact ((hhead.trans hslot).trans (Session.of_run_require htext).1).trans ih
  | fragment htext _ ih => exact (Session.of_run_require htext).1.trans ih
  | part _ hhelper => exact (Session.of_run_require hhelper).1
  | text s => exact .refl s
  | nothing s => exact .refl s
  | done s => exact .refl s
  | gather _ ih => exact ih
  | next _ _ _ ihfirst ihlater => exact ihfirst.trans ihlater

theorem lowersDirective_of_run {scope : Scope} {target : String} {value call : Node}
    {s s' : Session} (directive : Directive)
    (h : (lowerDirective scope target value directive).run s = (.ok call, s')) :
    LowersDirective scope target value s directive call s' := by
  cases directive with
  | bind property =>
      obtain ⟨callback, s₁, hcallback, h⟩ := run_bind_ok h
      obtain ⟨rfl, rfl⟩ := run_pure_ok h
      exact .bind property hcallback
  | attr key =>
      obtain ⟨callback, s₁, hcallback, h⟩ := run_bind_ok h
      obtain ⟨rfl, rfl⟩ := run_pure_ok h
      exact .attr key hcallback
  | ref =>
      obtain ⟨helper, s₁, hhelper, h⟩ := run_bind_ok h
      obtain ⟨rfl, rfl⟩ := run_pure_ok h
      exact .ref hhelper
  | view =>
      obtain ⟨helper, s₁, hhelper, h⟩ := run_bind_ok h
      obtain ⟨rfl, rfl⟩ := run_pure_ok h
      exact .view hhelper
  | model =>
      obtain ⟨detect, s₁, hdetect, h⟩ := run_bind_ok h
      obtain ⟨setState, s₂, hsetState, h⟩ := run_bind_ok h
      obtain ⟨parameter, s₃, hparameter, h⟩ := run_bind_ok h
      obtain ⟨rfl, rfl⟩ := run_pure_ok h
      exact .model hdetect hsetState hparameter
  | on event =>
      obtain ⟨helper, s₁, hhelper, h⟩ := run_bind_ok h
      obtain ⟨_, s₂, hlisten, h⟩ := run_bind_ok h
      obtain ⟨rfl, rfl⟩ := run_pure_ok h
      rw [run_listen] at hlisten
      cases hlisten
      exact .on event hhelper
  | custom name modifier =>
      obtain ⟨registry, s₁, hregistry, h⟩ := run_bind_ok h
      obtain ⟨rfl, rfl⟩ := run_pure_ok h
      exact .custom name modifier hregistry

theorem lowersAttributes_of_run {scope : Scope} {target : String} (as : List Attribute) :
    ∀ {s s' : Session} {lowered : LoweredAttributes},
      (lowerAttributes scope target as).run s = (.ok lowered, s') →
      LowersAttributes scope target s as lowered s' := by
  induction as with
  | nil =>
      intro s s' lowered h
      obtain ⟨rfl, rfl⟩ := run_pure_ok h
      exact .nil s
  | cons a as ih =>
      intro s s' lowered h
      obtain ⟨first, s₁, hfirst, h⟩ := run_bind_ok h
      obtain ⟨rest, s₂, hrest, h⟩ := run_bind_ok h
      obtain ⟨rfl, rfl⟩ := run_pure_ok h
      cases a with
      | spread value =>
          obtain ⟨rfl, rfl⟩ := run_pure_ok hfirst
          exact .spread (ih hrest)
      | named name value start =>
          simp only [lowerAttribute] at hfirst
          cases hkind : AttributeKind.ofName name with
          | compile modifier =>
              rw [hkind] at hfirst
              obtain ⟨options, s₃, hoptions, hfirst⟩ := run_bind_ok hfirst
              obtain ⟨rfl, rfl⟩ := run_pure_ok hfirst
              obtain ⟨hinstruction, rfl⟩ := run_check_of_ok hoptions
              exact .compile hkind hinstruction (ih hrest)
          | directive directive =>
              rw [hkind] at hfirst
              obtain ⟨call, s₃, hcall, hfirst⟩ := run_bind_ok hfirst
              obtain ⟨rfl, rfl⟩ := run_pure_ok hfirst
              exact .directive hkind (lowersDirective_of_run directive hcall) (ih hrest)
          | prop =>
              rw [hkind] at hfirst
              obtain ⟨rfl, rfl⟩ := run_pure_ok hfirst
              exact .prop hkind (ih hrest)

mutual

theorem lowers_of_run_tree (scope : Scope) (options : TextOptions) :
    (t : Template) → ∀ ⦃s s' : Session⦄ ⦃items : List Node⦄,
      (lowerTree scope options t).run s = (.ok items, s') →
      Lowers s scope options (.tree t) items s'
  | .element tag attributes children => by
      intro s s' items h
      unfold lowerTree at h
      split at h
      · rename_i htag
        have htag : tag.isComponent = false := by simpa using htag
        obtain ⟨helper, s₁, hhelper, h⟩ := run_bind_ok h
        obtain ⟨target, s₂, htarget, h⟩ := run_bind_ok h
        obtain ⟨lowered, s₃, hattributes, h⟩ := run_bind_ok h
        have hattributes := lowersAttributes_of_run attributes hattributes
        cases children with
        | nil =>
            obtain ⟨rfl, rfl⟩ := run_pure_ok h
            exact .leafElement htag hhelper htarget hattributes
        | cons child children =>
            obtain ⟨text, s₄, htext, h⟩ := run_bind_ok h
            obtain ⟨inner, s₅, hinner, h⟩ := run_bind_ok h
            obtain ⟨rfl, rfl⟩ := run_pure_ok h
            exact .element htag hhelper htarget hattributes htext
              (lowers_of_run_list _ _ text "" (child :: children) hinner)
      · rename_i htag
        have htag : tag.isComponent = true := by simpa using htag
        split at h
        · rename_i control hcontrol
          split at h
          · rename_i symbol base hconstructor
            obtain ⟨helper, s₁, hhelper, h⟩ := run_bind_ok h
            obtain ⟨target, s₂, htarget, h⟩ := run_bind_ok h
            obtain ⟨lowered, s₃, hattributes, h⟩ := run_bind_ok h
            obtain ⟨rfl, rfl⟩ := run_pure_ok h
            exact .control htag hcontrol hconstructor hhelper htarget
              (lowersAttributes_of_run attributes hattributes)
          · rename_i hconstructor
            have hfragment : control = .fragment := by
              cases control with
              | conditional => cases hconstructor
              | loop => cases hconstructor
              | fragment => rfl
            subst hfragment
            obtain ⟨own, s₁, hcheck, h⟩ := run_bind_ok h
            obtain ⟨hown, rfl⟩ := run_check_of_ok hcheck
            obtain ⟨text, s₂, htext, h⟩ := run_bind_ok h
            exact .splice htag hcontrol hown htext
              (lowers_of_run_list scope _ text "" children h)
        · rename_i hcontrol
          obtain ⟨component, s₁, hcheck, h⟩ := run_bind_ok h
          obtain ⟨hcomponent, rfl⟩ := run_check_of_ok hcheck
          obtain ⟨helper, s₂, hhelper, h⟩ := run_bind_ok h
          obtain ⟨target, s₃, htarget, h⟩ := run_bind_ok h
          obtain ⟨lowered, s₄, hattributes, h⟩ := run_bind_ok h
          have hattributes := lowersAttributes_of_run attributes hattributes
          cases children with
          | nil =>
              obtain ⟨rfl, rfl⟩ := run_pure_ok h
              exact .leafComponent htag hcontrol hcomponent hhelper htarget hattributes
          | cons child children =>
              obtain ⟨slot, s₅, hslot, h⟩ := run_bind_ok h
              obtain ⟨anchor, s₆, hanchor, hslot⟩ := run_bind_ok hslot
              obtain ⟨context, s₇, hcontext, hslot⟩ := run_bind_ok hslot
              obtain ⟨rfl, rfl⟩ := run_pure_ok hslot
              obtain ⟨text, s₈, htext, h⟩ := run_bind_ok h
              obtain ⟨inner, s₉, hinner, h⟩ := run_bind_ok h
              obtain ⟨rfl, rfl⟩ := run_pure_ok h
              exact .component htag hcontrol hcomponent hhelper htarget hattributes hanchor hcontext
                htext (lowers_of_run_list _ _ text "" (child :: children) hinner)
  | .fragment children => by
      intro s s' items h
      unfold lowerTree at h
      obtain ⟨text, s₁, htext, h⟩ := run_bind_ok h
      exact .fragment htext (lowers_of_run_list scope options text "" children h)
  | .part value => by
      intro s s' items h
      unfold lowerTree at h
      obtain ⟨helper, s₁, hhelper, h⟩ := run_bind_ok h
      obtain ⟨rfl, rfl⟩ := run_pure_ok h
      exact .part value hhelper
  | .text raw => by
      intro s s' items h
      unfold lowerTree at h
      obtain ⟨rfl, rfl⟩ := run_pure_ok h
      exact .text s scope options raw
  | .nothing => by
      intro s s' items h
      unfold lowerTree at h
      obtain ⟨rfl, rfl⟩ := run_pure_ok h
      exact .nothing s scope options

theorem lowers_of_run_list (scope : Scope) (options : TextOptions) (helper pending : String) :
    (ts : List Template) → ∀ ⦃s s' : Session⦄ ⦃items : List Node⦄,
      (lowerRun scope options helper pending ts).run s = (.ok items, s') →
      Lowers s scope options (.run helper pending ts) items s'
  | [] => by
      intro s s' items h
      unfold lowerRun at h
      obtain ⟨rfl, rfl⟩ := run_pure_ok h
      exact .done s scope options helper pending
  | t :: ts => by
      intro s s' items h
      unfold lowerRun at h
      split at h
      · rename_i heq
        cases heq
      · rename_i raw rest heq
        cases heq
        exact .gather (lowers_of_run_list scope options helper _ ts h)
      · rename_i t' rest htree heq
        cases heq
        obtain ⟨first, s₁, hfirst, h⟩ := run_bind_ok h
        obtain ⟨later, s₂, hlater, h⟩ := run_bind_ok h
        obtain ⟨rfl, rfl⟩ := run_pure_ok h
        exact .next (fun raw hraw => htree raw hraw) (lowers_of_run_tree scope options t hfirst)
          (lowers_of_run_list scope options helper "" ts hlater)

end

/-- The closure of a template wraps the statements of a derivation from a
session with a new scope. -/
theorem lowers_of_run_template {t : Template} {closure : Node} {s s' : Session}
    (h : (lowerTemplate t).run s = (.ok closure, s')) :
    ∃ scope s₁ s₂ items trace,
      (fresh "root").run s = (.ok scope.anchor, s₁) ∧
      (fresh "ctx").run s₁ = (.ok scope.context, s₂) ∧
      Lowers { s₂ with trace } scope .root (.tree t) items s' ∧
      closure = Emit.closure scope.anchor scope.context items := by
  unfold lowerTemplate at h
  obtain ⟨scope, s₂, hscope, h⟩ := run_bind_ok h
  obtain ⟨anchor, s₁, hanchor, hscope⟩ := run_bind_ok hscope
  obtain ⟨context, s₃, hcontext, hscope⟩ := run_bind_ok hscope
  obtain ⟨rfl, rfl⟩ := run_pure_ok hscope
  split at h
  · obtain ⟨_, s₄, hnote, h⟩ := run_bind_ok h
    rw [run_note] at hnote
    cases hnote
    obtain ⟨items, s₅, hitems, h⟩ := run_bind_ok h
    obtain ⟨rfl, rfl⟩ := run_pure_ok h
    exact ⟨_, s₁, s₃, items, _, hanchor, hcontext, lowers_of_run_tree _ _ _ hitems, rfl⟩
  · obtain ⟨items, s₅, hitems, h⟩ := run_bind_ok h
    obtain ⟨rfl, rfl⟩ := run_pure_ok h
    exact ⟨_, s₁, s₃, items, s₃.trace, hanchor, hcontext, lowers_of_run_tree _ _ _ hitems, rfl⟩

end TemplateCompiler
