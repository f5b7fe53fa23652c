import TemplateCompiler.Proofs.Template.Outline

namespace TemplateCompiler

open Lower Node Session

def Attribute.events : Attribute → List String
  | .spread _ => []
  | .named name _ _ =>
    match AttributeKind.ofName name with
    | .directive directive => directive.events
    | _ => []

namespace Template

mutual

/-- The events that a template listens to, in the order in which they are written. Nothing is
listened to in the attributes of a fragment or between the tags of a conditional or a loop. -/
def events : Template → List String
  | .element tag attributes children =>
    match tag.control? with
    | some .fragment => eventsOfList children
    | some _ => attributes.flatMap Attribute.events
    | none => attributes.flatMap Attribute.events ++ eventsOfList children
  | .fragment children => eventsOfList children
  | _ => []

def eventsOfList : List Template → List String
  | [] => []
  | t :: ts => t.events ++ eventsOfList ts

end

end Template

theorem events_of_run_fresh {s s' : Session} {base name : String}
    (h : (fresh base).run s = (.ok name, s')) :
    s'.events = s.events := by
  obtain ⟨names, -, -, rfl⟩ := run_fresh_ok h
  rfl

theorem events_of_run_require {s s' : Session} {symbol name : String}
    (h : (require symbol).run s = (.ok name, s')) : s'.events = s.events := by
  obtain ⟨names, -, -, rfl⟩ := run_require_ok h
  rfl

theorem LowersDirective.events_eq {scope : Scope} {target : String} {value call : Node}
    {directive : Directive} {s s' : Session}
    (h : LowersDirective scope target value s directive call s') :
    s'.events = s.events ++ directive.events := by
  cases h with
  | on event hhelper => rw [events_of_run_require hhelper, Directive.events]
  | model hdetect hsetState hparameter =>
      rw [events_of_run_fresh hparameter, events_of_run_require hsetState,
        events_of_run_require hdetect]
      exact (List.append_nil _).symm
  | bind _ hhelper | attr _ hhelper | ref hhelper | view hhelper | custom _ _ hhelper =>
      rw [events_of_run_require hhelper]
      exact (List.append_nil _).symm

theorem LowersAttributes.events_eq {scope : Scope} {target : String} {as : List Attribute}
    {lowered : LoweredAttributes} {s s' : Session}
    (h : LowersAttributes scope target s as lowered s') :
    s'.events = s.events ++ as.flatMap Attribute.events := by
  induction h with
  | nil => simp
  | spread _ ih => simpa [Attribute.events] using ih
  | compile hkind _ _ ih => simpa [Attribute.events, hkind] using ih
  | directive hkind hcall _ ih => simp [ih, hcall.events_eq, Attribute.events, hkind]
  | prop hkind _ ih => simpa [Attribute.events, hkind] using ih

def Job.events : Job → List String
  | .tree t => t.events
  | .run _ _ ts => Template.eventsOfList ts

theorem Lowers.events_eq {scope : Scope} {options : TextOptions} {job : Job} {items : List Node}
    {s s' : Session} (h : Lowers s scope options job items s') :
    s'.events = s.events ++ job.events := by
  induction h with
  | leafElement htag hhelper htarget hattributes =>
      rw [hattributes.events_eq, events_of_run_fresh htarget, events_of_run_require hhelper]
      simp [Job.events, Template.events, Template.eventsOfList, Tag.control?_eq_none htag]
  | element htag hhelper htarget hattributes htext _ ih =>
      rw [ih, events_of_run_require htext, hattributes.events_eq, events_of_run_fresh htarget,
        events_of_run_require hhelper]
      simp [Job.events, Template.events, Tag.control?_eq_none htag]
  | @control _ _ _ _ _ _ _ _ _ control _ _ _ _ _ _ hcontrol hconstructor hhelper htarget
      hattributes =>
      rw [hattributes.events_eq, events_of_run_fresh htarget, events_of_run_require hhelper]
      cases control with
      | conditional | loop => simp [Job.events, Template.events, hcontrol]
      | fragment => cases hconstructor
  | splice _ hcontrol _ htext _ ih =>
      rw [ih, events_of_run_require htext]
      simp [Job.events, Template.events, hcontrol]
  | leafComponent _ hcontrol _ hhelper htarget hattributes =>
      rw [hattributes.events_eq, events_of_run_fresh htarget, events_of_run_require hhelper]
      simp [Job.events, Template.events, Template.eventsOfList, hcontrol]
  | component _ hcontrol _ hhelper htarget hattributes hroot hctx htext _ ih =>
      rw [ih, events_of_run_require htext, events_of_run_fresh hctx, events_of_run_fresh hroot,
        hattributes.events_eq, events_of_run_fresh htarget, events_of_run_require hhelper]
      simp [Job.events, Template.events, hcontrol]
  | fragment htext _ ih =>
      rw [ih, events_of_run_require htext]
      simp [Job.events, Template.events]
  | part _ hhelper =>
      rw [events_of_run_require hhelper]
      simp [Job.events, Template.events]
  | text | nothing => simp [Job.events, Template.events]
  | done => simp [Job.events, Template.eventsOfList]
  | gather _ ih => simpa [Job.events, Template.eventsOfList, Template.events] using ih
  | next _ _ _ ihfirst ihlater => simp [ihlater, ihfirst, Job.events, Template.eventsOfList]

/-- Literals are lowered one after the other. -/
inductive LowersEach : Session → List Node → Session → Prop
  | nil (s : Session) : LowersEach s [] s
  | cons {s s₁ s' : Session} {literal closure : Node} {rest : List Node}
      (hrun : (lowerTemplate (.ofNode literal)).run s = (.ok closure, s₁))
        (hrest : LowersEach s₁ rest s') :
      LowersEach s (literal :: rest) s'

theorem LowersEach.append {s s₁ s' : Session} {met met' : List Node} (h : LowersEach s met s₁)
    (h' : LowersEach s₁ met' s') : LowersEach s (met ++ met') s' := by
  induction h with
  | nil => exact h'
  | cons hrun _ ih => exact .cons hrun (ih h')

/-- A walk without failures lowers the literals that a visit meets, in the order
in which it meets them. -/
theorem Walks.lowersEach {w w' : Walk} {ns ns' : List Node} (h : Walks w ns ns' w')
    (herrors : w'.errors = []) (hscope : w.session.hasScope = true) :
    ∃ met, LowersEach w.session met w'.session ∧
      ∀ {later met' : List Node}, Visits firstReported later met' [] →
        Visits firstReported (literalsOfList ns ++ later) (met ++ met') [] := by
  induction h with
  | nil w => exact ⟨[], .nil _, fun hlater => hlater⟩
  | inner span hform hchildren hrest ihchildren ihrest =>
      have hscope₁ := (hchildren.keeps (stable_grows _) (.refl _)).scope hscope
      obtain ⟨met, hmet, hvisits⟩ := ihchildren (hrest.errors_eq_nil herrors) hscope
      obtain ⟨met', hmet', hvisits'⟩ := ihrest herrors hscope₁
      refine ⟨met ++ met', hmet.append hmet', fun hlater => ?_⟩
      simp only [literalsOfList, literals, hform, List.append_assoc]
      exact hvisits (hvisits' hlater)
  | @replaced w _ _ literal _ _ _ _ _ hform hrun hclosure hrest ihclosure ihrest =>
      obtain ⟨hscope₀, hverdict⟩ := decides_lowerTemplate (.ofNode literal) w.session hscope
      rw [hrun] at hscope₀ hverdict
      have hscope₁ := (hclosure.keeps (stable_grows _) (.refl _)).scope hscope₀
      obtain ⟨met, hmet, hvisits⟩ := ihclosure (hrest.errors_eq_nil herrors) hscope₀
      obtain ⟨met', hmet', hvisits'⟩ := ihrest herrors hscope₁
      refine ⟨literal :: (met ++ met'), .cons hrun (hmet.append hmet'), fun hlater => ?_⟩
      have hinner := hvisits (hvisits' hlater)
      rw [literalsOfList, literals_of_run_template hrun] at hinner
      rw [literalsOfList, literals_of_isMarkup hform]
      simp only [literalsOfList, List.append_nil, List.append_assoc, List.cons_append] at hinner ⊢
      exact .clean (Option.map_eq_none_iff.mp hverdict.symm) hinner
  | failed _ _ hrest =>
      have hfail := hrest.errors_eq_nil herrors
      simp [Walk.fail] at hfail

theorem LowersEach.events_eq {s s' : Session} {met : List Node} (h : LowersEach s met s') :
    s'.events = s.events ++ met.flatMap fun literal => (Template.ofNode literal).events := by
  induction h with
  | nil => simp
  | cons hrun _ ih =>
      obtain ⟨scope, s₁, s₂, items, trace, hroot, hctx, hitems, -⟩ := lowers_of_run_template hrun
      rw [ih, hitems.events_eq, events_of_run_fresh hctx, events_of_run_fresh hroot]
      simp [Job.events]

@[simp] theorem literal?_literalMarks (ns : List Node) :
    (literalMarks ns).filterMap Mark.literal? = literalsOfList ns := by
  simp [literalMarks, List.filterMap_map, Function.comp_def, Mark.literal?]

@[simp] theorem event?_literalMarks (ns : List Node) :
    (literalMarks ns).filterMap Mark.event? = [] := by
  simp [literalMarks, List.filterMap_map, Function.comp_def, Mark.event?]

@[simp] theorem filterMap_literal?_use (symbol : String) (marks : List Mark) :
    (Mark.use symbol :: marks).filterMap Mark.literal? = marks.filterMap Mark.literal? := rfl

@[simp] theorem filterMap_event?_use (symbol : String) (marks : List Mark) :
    (Mark.use symbol :: marks).filterMap Mark.event? = marks.filterMap Mark.event? := rfl

@[simp] theorem literal?_directive (directive : Directive) :
    (markAccount.ofDirective directive).filterMap Mark.literal? = [] := by
  cases directive <;> rfl

@[simp] theorem event?_directive (directive : Directive) :
    (markAccount.ofDirective directive).filterMap Mark.event? = directive.events.map some := by
  cases directive <;> rfl

@[simp] theorem filterMap_ofText (content : String) :
    (markAccount.ofText content).filterMap Mark.literal? = [] ∧
      (markAccount.ofText content).filterMap Mark.event? = [] := by
  unfold Account.ofText
  split <;> exact ⟨rfl, rfl⟩

theorem filterMap_ofDirectives (as : List Attribute) :
    (markAccount.ofDirectives as).filterMap Mark.literal? =
        literalsOfList (directiveExpressions as) ∧
      (markAccount.ofDirectives as).filterMap Mark.event? =
        (as.flatMap Attribute.events).map some := by
  induction as with
  | nil => exact ⟨rfl, rfl⟩
  | cons a as ih =>
      cases a with
      | spread value =>
          simpa [Account.ofDirectives, directiveExpressions, Attribute.events] using ih
      | named name value start =>
          simp only [Account.ofDirectives, directiveExpressions, Attribute.events,
            List.flatMap_cons]
          cases AttributeKind.ofName name with
          | compile modifier => simpa using ih
          | directive directive =>
              simp [literalsOfList_append, flatMap_expression_markAccount, ih]
          | prop => simpa using ih

theorem filterMap_ofCreation (symbol : String) (as : List Attribute) :
    (markAccount.ofCreation symbol as).filterMap Mark.literal? =
        literalsOfList (propExpressions as) ++ literalsOfList (directiveExpressions as) ∧
      (markAccount.ofCreation symbol as).filterMap Mark.event? =
        (as.flatMap Attribute.events).map some := by
  obtain ⟨hliterals, hevents⟩ := filterMap_ofDirectives as
  have huse : markAccount.use symbol = [.use symbol] := rfl
  simp [Account.ofCreation, huse, flatMap_expression_markAccount, hliterals, hevents]

mutual

theorem Template.filterMap_ofTemplate (options : TextOptions) : (t : Template) →
    (markAccount.ofTemplate options t).filterMap Mark.literal? = literalsOfList t.embedded ∧
      (markAccount.ofTemplate options t).filterMap Mark.event? = t.events.map some
  | .element tag attributes children => by
      obtain ⟨hliterals, hevents⟩ :=
        filterMap_ofTemplates (options.merge (ownOptions attributes)) false children
      have hcreation := fun symbol => filterMap_ofCreation symbol attributes
      unfold Account.ofTemplate Template.embedded Template.events
      cases hcontrol : tag.control? with
      | none =>
          simp only [List.filterMap_append, hcreation, hliterals, hevents]
          split <;> simp [literalsOfList_append]
      | some control =>
          rw [Tag.isComponent_of_control? hcontrol]
          cases control with
          | conditional | loop => simp [hcreation, literalsOfList_append]
          | fragment => exact ⟨hliterals, hevents⟩
  | .fragment children => filterMap_ofTemplates options false children
  | .part value => by
      have huse : markAccount.use "reactivePart" = [.use "reactivePart"] := rfl
      have hvalue : markAccount.expression value = literalMarks [value] :=
        (literalMarks_singleton value).symm
      simp only [Account.ofTemplate, Template.embedded, Template.events, huse, hvalue,
        List.cons_append, List.nil_append, filterMap_literal?_use, filterMap_event?_use,
        literal?_literalMarks, event?_literalMarks, List.map_nil, and_self]
  | .text _ => ⟨rfl, rfl⟩
  | .nothing => ⟨rfl, rfl⟩

theorem Template.filterMap_ofTemplates (options : TextOptions) (inText : Bool) :
    (ts : List Template) →
      (markAccount.ofTemplates options inText ts).filterMap Mark.literal? =
          literalsOfList (embeddedOfList ts) ∧
        (markAccount.ofTemplates options inText ts).filterMap Mark.event? =
          (eventsOfList ts).map some
  | [] => ⟨rfl, rfl⟩
  | t :: ts => by
      obtain ⟨hliterals, hevents⟩ := filterMap_ofTemplate options t
      obtain ⟨hliterals₁, hevents₁⟩ := filterMap_ofTemplates options true ts
      obtain ⟨hliterals₀, hevents₀⟩ := filterMap_ofTemplates options false ts
      cases t with
      | text raw =>
          cases inText <;> simp [Account.ofTemplates, embeddedOfList, eventsOfList,
            Template.embedded, Template.events, hliterals₁, hevents₁]
      | element | fragment | part | nothing =>
          simp [Account.ofTemplates, embeddedOfList, eventsOfList, literalsOfList_append, hliterals,
            hevents, hliterals₀, hevents₀]

end

theorem Template.filterMap_outline (t : Template) :
    t.outline.filterMap Mark.literal? = literalsOfList t.embedded ∧
      t.outline.filterMap Mark.event? = t.events.map some :=
  filterMap_ofTemplate .root t

/-- Where literals are unfolded, the events of those that are met come up. -/
theorem Unfolds.perm_events {marks unfolded : List Mark} (h : Unfolds marks unfolded) :
    ∀ {met : List Node}, Visits firstReported (marks.filterMap Mark.literal?) met [] →
      (unfolded.filterMap Mark.event?).Perm
        (marks.filterMap Mark.event? ++ met.flatMap fun literal =>
          (Template.ofNode literal).events.map some) := by
  induction h with
  | nil =>
      intro met hvisits
      cases hvisits
      exact .nil
  | @keep m rest rest' hm _ ih =>
      intro met hvisits
      rw [List.filterMap_cons_none hm] at hvisits
      have hrest := ih hvisits
      rw [filterMap_cons_toList, filterMap_cons_toList, List.append_assoc]
      exact hrest.append_left _
  | @literal n rest unfolded _ ih =>
      intro met hvisits
      obtain ⟨hliterals, hevents⟩ := (Template.ofNode n).filterMap_outline
      rw [List.filterMap_cons_some (show Mark.literal? (.literal n) = some n from rfl)] at hvisits
      cases hvisits with
      | clean _ hrest =>
          have hinner := ih (by rwa [List.filterMap_append, hliterals])
          rw [List.filterMap_append, hevents] at hinner
          rw [List.filterMap_cons_none (show Mark.event? (.literal n) = none from rfl),
            List.flatMap_cons, ← List.append_assoc]
          exact hinner.trans (List.perm_append_comm.append_right _)

/-- A program whose events are all set up. -/
structure Delegated (program : Node) (result : Transformed) : Prop where
  /-- The last statement sets up the events of the session, by the helper
  that is imported for it. -/
  trailing : ∃ before helper, ("eventDelegate", helper) ∈ result.session.imports.entries ∧
    result.program = .node program.form program.span
      (before ++ [delegateStatement helper result.session.events])
  /-- These are the events of the literals that are lowered, one literal after the other. -/
  ordered : ∃ met, Visits firstReported program.literals met [] ∧
    result.session.events = met.flatMap fun literal => (Template.ofNode literal).events
  /-- Every call that listens to an event has one of them for its name, and the other way round. -/
  complete : (result.program.eventNames result.session.imports.symbol?).Perm
    (result.session.events.map some)

theorem transform_delegated (environment : String) (prologue : Prologue) (span : Span)
    (statements : List Node)
    (h : (transform environment (.node (.program prologue) span statements)).errors = []) :
    Delegated (.node (.program prologue) span statements)
      (transform environment (.node (.program prologue) span statements)) := by
  obtain ⟨images, w, hwalks, ⟨herrors, hresult⟩ | ⟨herrors, helper, s, trace, hhelper, hresult⟩⟩ :=
    transform_cases environment prologue span statements
  · rw [hresult] at h
    exact absurd h herrors
  · rw [hresult]
    obtain ⟨met, hmet, hvisits⟩ := hwalks.lowersEach herrors rfl
    have hvisits' : Visits firstReported (literalsOfList statements) met [] := by
      simpa using hvisits .nil
    have hevents : s.events = met.flatMap fun literal => (Template.ofNode literal).events := by
      rw [events_of_run_require hhelper, hmet.events_eq]
      rfl
    refine ⟨⟨_, helper, (of_run_require hhelper).2, rfl⟩, ⟨met, hvisits', hevents⟩, ?_⟩
    obtain ⟨-, marks, hunfolds, -, hmarks⟩ := unfolds_finished hwalks herrors hhelper
    have hnone : (finished prologue span images helper s).literals = [] :=
      (hwalks.images herrors).literals_finished prologue span helper s
    have hnames := (@marks_of_literals s.imports.symbol? _ hnone).2
    have hperm := hunfolds.perm_events ((literal?_literalMarks statements).symm ▸ hvisits')
    rw [hmarks, List.filterMap_append, List.filterMap_cons_none rfl, List.filterMap_nil,
      List.append_nil] at hnames
    rw [event?_literalMarks, List.nil_append, ← List.map_flatMap] at hperm
    rw [← hnames]
    simpa only [hevents] using hperm

def sampleListener (event : String) : Node :=
  .node .attribute ⟨3, 15⟩
    [.node .tagNamespace ⟨3, 9⟩ [.leaf (.tagName "on") ⟨3, 5⟩, .leaf (.tagName event) ⟨6, 9⟩],
     .node .container ⟨10, 15⟩ [.reference "f" ⟨11, 12⟩]]

/-- A component with a listener, around a literal with two, a fragment with one on its tag, and a
conditional with one between its tags. -/
def listenerStatements : List Node :=
  [.node .expressionStatement ⟨0, 99⟩ [.node .element ⟨0, 98⟩
    [.reference "Card" ⟨1, 2⟩, .absent, .node .group ⟨3, 15⟩ [sampleListener "click"],
     .node .group ⟨16, 94⟩
      [.node .container ⟨16, 50⟩ [.node .element ⟨17, 49⟩
        [.reference "Item" ⟨18, 19⟩, .absent,
         .node .group ⟨20, 48⟩ [sampleListener "input", sampleListener "input"],
         .node .group ⟨48, 48⟩ []]],
       .node .element ⟨51, 70⟩
        [.reference "Fragment" ⟨52, 60⟩, .absent, .node .group ⟨61, 69⟩ [sampleListener "blur"],
         .node .group ⟨69, 69⟩ []],
       .node .element ⟨71, 94⟩
        [.reference "If" ⟨72, 74⟩, .absent, .node .group ⟨74, 74⟩ [],
         .node .group ⟨75, 90⟩ [.node .element ⟨75, 90⟩
          [.reference "Item" ⟨76, 77⟩, .absent,
           .node .group ⟨78, 89⟩ [sampleListener "focus"], .node .group ⟨89, 89⟩ []]]]]]]]

theorem transform_delegated_sample :
    ((transform "rumious" (.node (.program {}) ⟨0, 99⟩ listenerStatements)).errors = [] ∧
      Delegated (.node (.program {}) ⟨0, 99⟩ listenerStatements)
        (transform "rumious" (.node (.program {}) ⟨0, 99⟩ listenerStatements))) ∧
      (transform "rumious" (.node (.program {}) ⟨0, 99⟩ listenerStatements)).session.events =
        ["click", "input", "input"] := by
  have herrors : (transform "rumious" (.node (.program {}) ⟨0, 99⟩ listenerStatements)).errors =
      [] := by
    decide +kernel
  exact ⟨⟨herrors, transform_delegated _ _ _ _ herrors⟩, by decide +kernel⟩

end TemplateCompiler
