import TemplateCompiler.Proofs.Template.Violation

namespace TemplateCompiler

open Lower

/-- What an attribute's value is written as. -/
inductive AttributeValue.Written : Node → AttributeValue → Prop
  | missing : Written .absent .missing
  | string (raw : String) (span : Span) : Written (.string raw span) (.string raw span)
  | expression {value : Node} (span : Span)
      (hvalue : ∀ hole cs, value ≠ .node .emptyExpression hole cs) :
      Written (.node .container span [value]) (.expression value)
  | empty (span hole : Span) : Written (.node .container span [.leaf .emptyExpression hole]) .empty
  | element (span : Span) (cs : List Node) : Written (.node .element span cs)
      (.markup (.node .element span cs))
  | fragment (span : Span) (cs : List Node) : Written (.node .fragment span cs)
      (.markup (.node .fragment span cs))

namespace Attribute

/-- What an attribute's name is written as. -/
inductive NameWritten : Node → String → Prop
  | plain (name : String) (span : Span) : NameWritten (.leaf (.tagName name) span) name
  | namespaced (space name : String) (span inner outer : Span) :
      NameWritten (.node .tagNamespace span [.leaf (.tagName space) inner,
        .leaf (.tagName name) outer])
        (space ++ ":" ++ name)

/-- What an attribute is written as. -/
inductive Written : Node → Attribute → Prop
  | spread (value : Node) (span : Span) :
      Written (.node .attributeSpread span [value]) (.spread value)
  | named {nameNode valueNode : Node} {name : String} {value : AttributeValue} (span : Span)
      (hname : NameWritten nameNode name) (hvalue : AttributeValue.Written valueNode value) :
      Written (.node .attribute span [nameNode, valueNode]) (.named name value span.start)

end Attribute

theorem AttributeValue.Written.ofNode_eq {n : Node} {value : AttributeValue} (h : Written n value) :
    ofNode n = value := by
  cases h with
  | missing => rfl
  | string raw span => rfl
  | expression span hvalue =>
      rename_i value
      obtain ⟨form, hole, cs⟩ := value
      cases form with
      | emptyExpression => exact absurd rfl (hvalue hole cs)
      | _ => rfl
  | empty span hole => rfl
  | element span cs => rfl
  | fragment span cs => rfl

theorem Attribute.Written.ofNode_eq {n : Node} {a : Attribute} (h : Written n a) :
    ofNode n = a := by
  cases h with
  | spread value span => rfl
  | named span hname hvalue =>
      rw [ofNode, hvalue.ofNode_eq]
      cases hname with
      | plain name span => rfl
      | namespaced space name span inner outer => rfl

theorem Attribute.map_ofNode_eq {ns : List Node} {as : List Attribute}
    (h : List.Forall₂ Written ns as) :
    ns.map ofNode = as := by
  induction h with
  | nil => rfl
  | cons hfirst _ ih => rw [List.map_cons, hfirst.ofNode_eq, ih]

namespace Attribute

/-- A member of the object of properties: a spread, or a name without a colon that
is not a directive's. -/
def isMember : Attribute → Bool
  | .spread _ => true
  | .named name _ _ => !name.toList.contains ':' && !(["ref", "view", "model"].contains name)

def isInstruction : Attribute → Bool
  | .spread _ => false
  | .named name _ _ => (compileModifier? name).isSome

/-- All other attributes are directives. -/
def isDirective (a : Attribute) : Bool := !a.isMember && !a.isInstruction

end Attribute

/-- The directive that a name stands for. What is behind the colon of a reference, a view or
a model says nothing. -/
inductive Directive.Named : String → Directive → Prop
  | bind (property : String) : Named ("bind:" ++ property) (.bind property)
  | attr (key : String) : Named ("attr:" ++ key) (.attr key)
  | on (event : String) : Named ("on:" ++ event) (.on event)
  | ref : Named "ref" .ref
  | refWith (modifier : String) : Named ("ref:" ++ modifier) .ref
  | view : Named "view" .view
  | viewWith (modifier : String) : Named ("view:" ++ modifier) .view
  | model : Named "model" .model
  | modelWith (modifier : String) : Named ("model:" ++ modifier) .model
  | custom {name : String} (modifier : String) (hcolon : ':' ∉ name.toList)
      (hname : name ∉ ["compile", "bind", "attr", "on", "ref", "view", "model"]) :
      Named (name ++ ":" ++ modifier) (.custom name modifier)

namespace AttributeKind

theorem ofName_append {space : String} (hspace : ':' ∉ space.toList) (modifier : String) :
    ofName (space ++ ":" ++ modifier) = ofParts space modifier := by
  have hall : ∀ c ∈ space.toList, (c != ':') = true := by
    intro c hc
    simpa using ne_of_mem_of_not_mem hc hspace
  have hname : (space ++ ":" ++ modifier).toList = space.toList ++ ':' :: modifier.toList := by simp
  simp [ofName, hname, List.dropWhile_append_of_pos hall, List.takeWhile_append_of_pos hall]

theorem ofName_of_not_mem {name : String} (h : ':' ∉ name.toList) :
    ofName name = if name = "ref" then .directive .ref else if name = "view" then .directive .view
      else if name = "model" then .directive .model else .prop := by
  have hdrop : name.toList.dropWhile (· != ':') = [] := by
    rw [List.dropWhile_eq_nil_iff]
    intro c hc
    simpa using ne_of_mem_of_not_mem hc h
  simp [ofName, hdrop]

theorem exists_eq_append {name : String} (h : ':' ∈ name.toList) :
    ∃ space modifier, ':' ∉ space.toList ∧ name = space ++ ":" ++ modifier := by
  obtain ⟨space, modifier, heq, hspace⟩ := List.eq_append_cons_of_mem h
  refine ⟨String.ofList space, String.ofList modifier, by simpa using hspace, ?_⟩
  apply String.toList_injective
  simp [heq]

theorem ofParts_ne_prop (space modifier : String) : ofParts space modifier ≠ .prop := by
  unfold ofParts
  repeat' split
  all_goals simp

theorem ofName_eq_prop_iff {name : String} :
    ofName name = .prop ↔ ':' ∉ name.toList ∧ name ∉ ["ref", "view", "model"] := by
  by_cases hcolon : ':' ∈ name.toList
  · obtain ⟨space, modifier, hspace, rfl⟩ := exists_eq_append hcolon
    rw [ofName_append hspace]
    exact iff_of_false (ofParts_ne_prop space modifier) fun h => h.1 hcolon
  · rw [ofName_of_not_mem hcolon]
    repeat' split
    all_goals simp_all

theorem named_of_ofName {name : String} {directive : Directive}
    (h : ofName name = .directive directive) :
    directive.Named name := by
  by_cases hcolon : ':' ∈ name.toList
  · obtain ⟨space, modifier, hspace, rfl⟩ := exists_eq_append hcolon
    rw [ofName_append hspace] at h
    by_cases hreserved : space ∈ ["compile", "bind", "attr", "on", "ref", "view", "model"]
    · simp only [List.mem_cons, List.not_mem_nil, or_false] at hreserved
      rcases hreserved with rfl | rfl | rfl | rfl | rfl | rfl | rfl
      · cases h
      · cases h
        exact .bind modifier
      · cases h
        exact .attr modifier
      · cases h
        exact .on modifier
      · cases h
        exact .refWith modifier
      · cases h
        exact .viewWith modifier
      · cases h
        exact .modelWith modifier
    · have hcustom : ofParts space modifier = .directive (.custom space modifier) := by
        simp only [List.mem_cons, List.not_mem_nil, or_false, not_or] at hreserved
        simp [ofParts, hreserved]
      rw [hcustom] at h
      cases h
      exact .custom modifier hspace hreserved
  · rw [ofName_of_not_mem hcolon] at h
    split at h
    · rename_i hname
      cases h
      exact hname ▸ .ref
    · split at h
      · rename_i hname
        cases h
        exact hname ▸ .view
      · split at h
        · rename_i hname
          cases h
          exact hname ▸ .model
        · cases h

end AttributeKind

namespace Attribute

variable {name : String} {value : AttributeValue} {start : Nat}

theorem isMember_named_iff : (named name value start).isMember = true ↔
      AttributeKind.ofName name = .prop := by
  rw [AttributeKind.ofName_eq_prop_iff]
  simp [isMember]

theorem isInstruction_named_iff :
    (named name value start).isInstruction = true ↔ ∃ modifier, AttributeKind.ofName name =
      .compile modifier := by
  simp only [isInstruction, Option.isSome_iff_exists, compileModifier?_eq_some_iff,
    AttributeKind.ofName_eq_compile_iff]

theorem isDirective_named_iff :
    (named name value start).isDirective = true ↔ ∃ directive, AttributeKind.ofName name =
      .directive directive := by
  simp only [isDirective, Bool.and_eq_true, Bool.not_eq_true', ← Bool.not_eq_true,
    isMember_named_iff, isInstruction_named_iff]
  cases AttributeKind.ofName name with
  | compile modifier => simp
  | directive directive => simp
  | prop => simp

end Attribute

/-- The expression that an attribute's value is. Where there is none, it is `missing`. -/
inductive AttributeValue.Stands (missing : Node) : AttributeValue → Node → Prop
  | missing : Stands missing .missing missing
  | string (raw : String) (span : Span) :
      Stands missing (.string raw span) (.leaf (.string (Text.decodeEntities raw)) span)
  | expression (value : Node) : Stands missing (.expression value) value
  | empty : Stands missing .empty Emit.null
  | markup (value : Node) : Stands missing (.markup value) value

theorem AttributeValue.stands_toNode (missing : Node) (value : AttributeValue) :
    value.Stands missing (value.toNode missing) := by
  cases value with
  | missing => exact .missing
  | string raw span => exact .string raw span
  | expression value => exact .expression value
  | empty => exact .empty
  | markup value => exact .markup value

/-- What is handed over for an expression whose value is kept current: the expression if it depends
on nothing, and else a closure and what it depends on. -/
inductive Watched (value : Node) : Node → List Node → Prop
  | still (h : dependencies value = []) : Watched value value []
  | live (h : dependencies value ≠ []) : Watched value (thunk value) (dependencies value)

theorem watched_reactiveValue (value : Node) :
    Watched value (reactiveValue value).1 (reactiveValue value).2 := by
  unfold reactiveValue
  split
  · rename_i hpaths
    exact .still hpaths
  · rename_i hpaths
    exact .live hpaths

/-- The call that a directive on `target` makes, between two states of a session. Helpers go by
their local names in the later state, and the name of a parameter is minted between the two. -/
inductive Directive.Calls (s s' : Session) (scope : Scope) (target : String) (value : Node) :
    Directive → Node → Prop
  | bind {callback : String} {watched : Node} {paths : List Node} (property : String)
      (hcallback : s'.helperName? "reactiveCallback" =
        some callback) (hwatched : Watched value watched paths) :
      Calls s s' scope target value (.bind property)
        (Emit.call (Emit.name callback)
          [Emit.name scope.context,
           Emit.arrow "value" (Emit.made (.assignment "=")
            [Emit.access (Emit.name target) property, Emit.name "value"]),
           watched, Emit.array paths])
  | attr {callback : String} {watched : Node} {paths : List Node} (key : String)
      (hcallback : s'.helperName? "reactiveCallback" =
        some callback) (hwatched : Watched value watched paths) :
      Calls s s' scope target value (.attr key)
        (Emit.call (Emit.name callback)
          [Emit.name scope.context,
           Emit.arrow "value" (Emit.call (Emit.member (Emit.name target) "setAttribute")
            [Emit.string key, Emit.name "value"]),
           watched, Emit.array paths])
  | ref {helper : String} (hhelper : s'.helperName? "ref" = some helper) :
      Calls s s' scope target value .ref
        (Emit.call (Emit.name helper) [Emit.name scope.context, Emit.name target, value])
  | view {helper : String} (hhelper : s'.helperName? "view" = some helper) :
      Calls s s' scope target value .view
        (Emit.call (Emit.name helper) [Emit.name scope.context, Emit.name target, value])
  | model {detect setState parameter : String}
      (hdetect : s'.helperName? "detectValueChange" = some detect)
        (hsetState : s'.helperName? "setStateValue" = some setState) (hfresh : parameter ∉ s.used)
      (htaken : parameter ∈ s'.used) :
      Calls s s' scope target value .model
        (Emit.call (Emit.name detect)
          [Emit.arrow parameter (Emit.call (Emit.name setState) [value, Emit.name parameter]),
            Emit.name target])
  | on {helper : String} (event : String) (hhelper : s'.helperName? "createEvent" = some helper) :
      Calls s s' scope target value (.on event)
        (Emit.call (Emit.name helper)
          [Emit.name scope.context, Emit.name target, Emit.string event, value])
  | custom {registry : String} (name modifier : String)
      (hregistry : s'.helperName? "directives" = some registry) :
      Calls s s' scope target value (.custom name modifier)
        (Emit.call (Emit.access (Emit.name registry) name)
          [Emit.name scope.context, Emit.name target, Emit.string modifier, value])

namespace Attribute

/-- The entry of the object of properties that an attribute becomes. -/
inductive Enters : Attribute → Node → Prop
  | spread (value : Node) : Enters (.spread value) (Emit.spread value)
  | named {value : AttributeValue} {n : Node} (name : String) (start : Nat)
      (hvalue : value.Stands Emit.yes n) :
      Enters (.named name value start) (Emit.property name n)

/-- The statement that an attribute becomes. -/
inductive Performs (s s' : Session) (scope : Scope) (target : String) : Attribute → Node → Prop
  | directive {name : String} {value : AttributeValue} {n call : Node} {directive : Directive}
      (start : Nat) (hname : directive.Named name) (hvalue : value.Stands Emit.null n)
      (hcall : directive.Calls s s' scope target n call) :
      Performs s s' scope target (.named name value start) (Emit.statement call)

end Attribute

/-- Names stay taken, and helpers keep their local names. -/
structure Session.Keeps (s s' : Session) : Prop where
  used : ∀ name ∈ s.used, name ∈ s'.used
  helpers : ∀ symbol name, s.helperName? symbol = some name → s'.helperName? symbol = some name

namespace Session.Keeps

variable {s s₁ s' : Session}

theorem refl (s : Session) : s.Keeps s := ⟨fun _ h => h, fun _ _ h => h⟩

theorem trans (h : s.Keeps s₁) (h' : s₁.Keeps s') : s.Keeps s' :=
  ⟨fun name hname => h'.used name (h.used name hname),
    fun symbol name hname => h'.helpers symbol name (h.helpers symbol name hname)⟩

theorem of_run_fresh {base name : String} (h : (fresh base).run s = (.ok name, s')) :
    s.Keeps s' := by
  refine ⟨fun other hother => (Session.of_run_fresh h).1.mem_used hother,
    fun symbol known hknown => ?_⟩
  rw [helperName?_of_run_fresh h]
  exact hknown

theorem of_run_require {symbol name : String} (h : (require symbol).run s = (.ok name, s')) :
    s.Keeps s' :=
  ⟨fun _ hother => (Session.of_run_require h).1.mem_used hother, (helperName?_of_run_require h).2⟩

end Session.Keeps

theorem LowersDirective.keeps {scope : Scope} {target : String} {value call : Node}
    {directive : Directive} {s s' : Session}
    (h : LowersDirective scope target value s directive call s') : s.Keeps s' := by
  cases h with
  | bind property hcallback => exact .of_run_require hcallback
  | attr key hcallback => exact .of_run_require hcallback
  | ref hhelper => exact .of_run_require hhelper
  | view hhelper => exact .of_run_require hhelper
  | model hdetect hsetState hparameter =>
      exact ((Session.Keeps.of_run_require hdetect).trans (.of_run_require hsetState)).trans
        (.of_run_fresh hparameter)
  | on event hhelper =>
      have hkeeps := Session.Keeps.of_run_require hhelper
      exact ⟨hkeeps.used, hkeeps.helpers⟩
  | custom name modifier hregistry => exact .of_run_require hregistry

theorem LowersAttributes.keeps {scope : Scope} {target : String} {as : List Attribute}
    {lowered : LoweredAttributes} {s s' : Session}
    (h : LowersAttributes scope target s as lowered s') : s.Keeps s' := by
  induction h with
  | nil s => exact .refl s
  | spread _ ih => exact ih
  | compile _ _ _ ih => exact ih
  | directive _ hcall _ ih => exact hcall.keeps.trans ih
  | prop _ _ ih => exact ih

theorem LowersDirective.calls {scope : Scope} {target : String} {value call : Node}
    {directive : Directive} {s s' : Session}
    (h : LowersDirective scope target value s directive call s') :
    directive.Calls s s' scope target value call := by
  cases h with
  | bind property hcallback =>
      exact .bind property (Session.helperName?_of_run_require hcallback).1
        (watched_reactiveValue value)
  | attr key hcallback =>
      exact .attr key (Session.helperName?_of_run_require hcallback).1 (watched_reactiveValue value)
  | ref hhelper => exact .ref (Session.helperName?_of_run_require hhelper).1
  | view hhelper => exact .view (Session.helperName?_of_run_require hhelper).1
  | model hdetect hsetState hparameter =>
      have hlater := Session.Keeps.of_run_fresh hparameter
      obtain ⟨hnamed, -⟩ := Session.helperName?_of_run_require hdetect
      obtain ⟨hnamed', hkept⟩ := Session.helperName?_of_run_require hsetState
      obtain ⟨-, hfresh, htaken, -, -⟩ := Session.of_run_fresh hparameter
      have hearlier := (Session.Keeps.of_run_require hdetect).trans (.of_run_require hsetState)
      exact .model (hlater.helpers _ _ (hkept _ _ hnamed)) (hlater.helpers _ _ hnamed')
        (fun hused => hfresh (hearlier.used _ hused)) htaken
  | on event hhelper => exact .on event (Session.helperName?_of_run_require hhelper).1
  | custom name modifier hregistry =>
      exact .custom name modifier (Session.helperName?_of_run_require hregistry).1

theorem Directive.Calls.mono {scope : Scope} {target : String} {value call : Node}
    {directive : Directive} {s s₁ s₂ s' : Session}
    (h : directive.Calls s₁ s₂ scope target value call) (hbefore : s.Keeps s₁)
    (hbehind : s₂.Keeps s') : directive.Calls s s' scope target value call := by
  cases h with
  | bind property hcallback hwatched =>
      exact .bind property (hbehind.helpers _ _ hcallback) hwatched
  | attr key hcallback hwatched => exact .attr key (hbehind.helpers _ _ hcallback) hwatched
  | ref hhelper => exact .ref (hbehind.helpers _ _ hhelper)
  | view hhelper => exact .view (hbehind.helpers _ _ hhelper)
  | model hdetect hsetState hfresh htaken =>
      exact .model (hbehind.helpers _ _ hdetect) (hbehind.helpers _ _ hsetState)
        (fun hused => hfresh (hbefore.used _ hused)) (hbehind.used _ htaken)
  | on event hhelper => exact .on event (hbehind.helpers _ _ hhelper)
  | custom name modifier hregistry => exact .custom name modifier (hbehind.helpers _ _ hregistry)

theorem Attribute.Performs.mono {scope : Scope} {target : String} {a : Attribute} {n : Node}
    {s s₁ s' : Session} (h : a.Performs s₁ s' scope target n) (hbefore : s.Keeps s₁) :
    a.Performs s s' scope target n := by
  obtain ⟨start, hname, hvalue, hcall⟩ := h
  exact .directive start hname hvalue (hcall.mono hbefore (.refl s'))

theorem LowersAttributes.enters {scope : Scope} {target : String} {as : List Attribute}
    {lowered : LoweredAttributes} {s s' : Session}
    (h : LowersAttributes scope target s as lowered s') :
    List.Forall₂ Attribute.Enters (as.filter Attribute.isMember) lowered.props := by
  induction h with
  | nil s => exact .nil
  | spread _ ih => exact .cons (.spread _) ih
  | compile hkind _ _ ih =>
      rw [List.filter_cons_of_neg (by simp [Attribute.isMember_named_iff, hkind])]
      exact ih
  | directive hkind _ _ ih =>
      rw [List.filter_cons_of_neg (by simp [Attribute.isMember_named_iff, hkind])]
      exact ih
  | prop hkind _ ih =>
      rw [List.filter_cons_of_pos (by simp [Attribute.isMember_named_iff, hkind])]
      exact .cons (.named _ _ (AttributeValue.stands_toNode Emit.yes _)) ih

theorem LowersAttributes.performs {scope : Scope} {target : String} {as : List Attribute}
    {lowered : LoweredAttributes} {s s' : Session}
    (h : LowersAttributes scope target s as lowered s') :
    List.Forall₂ (Attribute.Performs s s' scope target) (as.filter Attribute.isDirective)
      lowered.directives := by
  induction h with
  | nil s => exact .nil
  | spread _ ih => exact ih
  | compile hkind _ _ ih =>
      rw [List.filter_cons_of_neg (by simp [Attribute.isDirective_named_iff, hkind])]
      exact ih
  | directive hkind hcall hrest ih =>
      rw [List.filter_cons_of_pos (by simp [Attribute.isDirective_named_iff, hkind])]
      -- the statement was made before the rest was lowered, and the others
      -- after a session that had less
      refine .cons ?_ (ih.imp fun a n hperforms => hperforms.mono hcall.keeps)
      exact .directive _ (AttributeKind.named_of_ofName hkind)
        (AttributeValue.stands_toNode Emit.null _)
        (hcall.calls.mono (.refl _) hrest.keeps)
  | prop hkind _ ih =>
      rw [List.filter_cons_of_neg (by simp [Attribute.isDirective_named_iff, hkind])]
      exact ih

/-- Attributes without an unknown instruction are lowered, and each of them goes to one place: the
entries of the object of properties are those of the members, one for each and in their order, the
statements are those of the directives, one for each and in their order, and an instruction is in
neither but sets the options. -/
theorem lowerAttributes_partitions (scope : Scope) (target : String) {as : List Attribute}
    {s : Session} (hs : s.hasScope = true) (has : ∀ a ∈ as, a.violations = []) :
    (∀ ns, List.Forall₂ Attribute.Written ns as → ns.map Attribute.ofNode = as) ∧
      ∃ lowered s', (lowerAttributes scope target as).run s = (.ok lowered, s') ∧
        List.Forall₂ Attribute.Enters (as.filter Attribute.isMember) lowered.props ∧
        List.Forall₂ (Attribute.Performs s s' scope target) (as.filter Attribute.isDirective)
          lowered.directives ∧
        lowered.options = ownOptions as := by
  refine ⟨fun ns => Attribute.map_ofNode_eq, ?_⟩
  obtain ⟨-, hcause⟩ := decides_lowerAttributes scope target as s hs
  rw [List.flatMap_eq_nil_iff.mpr has] at hcause
  rcases hrun : (lowerAttributes scope target as).run s with ⟨cause | lowered, s'⟩
  · rw [hrun] at hcause
    cases hcause
  · have hlowers := lowersAttributes_of_run as hrun
    exact ⟨lowered, s', rfl, hlowers.enters, hlowers.performs, hlowers.options_eq⟩

/-- Attributes of all classes, among them a name that is written on both sides of a spread. -/
def mixedAttributes : List Attribute :=
  [.named "class" (.string "a&amp;b" ⟨0, 9⟩) 0,
   .named "bind:value" (.expression (.member (.reference "count" ⟨0, 5⟩) "get" ⟨0, 9⟩ ⟨6, 9⟩)) 1,
   .spread (.reference "rest" ⟨0, 4⟩),
   .named "model:lazy" (.expression (.reference "state" ⟨0, 5⟩)) 2,
   .named "compile:preserveWhitespace" .missing 3,
   .named "class" .missing 4,
   .named "ref" .missing 5,
   .named "on:" .empty 6,
   .named "x:y:z" (.markup (.node .fragment ⟨0, 5⟩ [])) 7]

theorem lowerAttributes_partitions_mixed :
    let s := ({ environment := "rumious" } : Session).enter (.reference "_value" ⟨0, 6⟩)
    let count : Node := .reference "count" ⟨0, 5⟩
    let props : List Node :=
      [Emit.property "class" (.string "a&b" ⟨0, 9⟩),
       Emit.spread (.reference "rest" ⟨0, 4⟩),
       Emit.property "class" Emit.yes]
    let calls : List Node :=
      [Emit.call (Emit.name "_reactiveCallback")
        [Emit.name "_ctx",
         Emit.arrow "value"
          (Emit.made (.assignment "=") [Emit.access (Emit.name "_ele") "value", Emit.name "value"]),
         thunk (.member count "get" ⟨0, 9⟩ ⟨6, 9⟩), Emit.array [count]],
       Emit.call (Emit.name "_detectValueChange")
        [Emit.arrow "_value2" (Emit.call (Emit.name "_setStateValue")
          [.reference "state" ⟨0, 5⟩, Emit.name "_value2"]),
         Emit.name "_ele"],
       Emit.call (Emit.name "_ref") [Emit.name "_ctx", Emit.name "_ele", Emit.null],
       Emit.call (Emit.name "_createEvent")
        [Emit.name "_ctx", Emit.name "_ele", Emit.string "", Emit.null],
       Emit.call (Emit.access (Emit.name "_directives") "x")
        [Emit.name "_ctx", Emit.name "_ele", Emit.string "y:z", .node .fragment ⟨0, 5⟩ []]]
    s.hasScope = true ∧ (∀ a ∈ mixedAttributes, a.violations = []) ∧
      ∃ lowered s', (lowerAttributes ⟨"_root", "_ctx"⟩ "_ele" mixedAttributes).run s =
      (.ok lowered, s') ∧
        List.Forall₂ Attribute.Enters (mixedAttributes.filter Attribute.isMember) lowered.props ∧
        List.Forall₂ (Attribute.Performs s s' ⟨"_root", "_ctx"⟩ "_ele")
          (mixedAttributes.filter Attribute.isDirective) lowered.directives ∧
        lowered.options = ⟨some .preserve⟩ ∧ lowered.props = props ∧
        lowered.directives = calls.map Emit.statement := by
  intro s count props calls
  have hscope : s.hasScope = true := rfl
  have hviolations : ∀ a ∈ mixedAttributes, a.violations = [] := by decide
  have hnodes : ((lowerAttributes ⟨"_root", "_ctx"⟩ "_ele" mixedAttributes).run s).1.toOption.map
      (fun lowered => (lowered.props, lowered.directives)) =
        some (props, calls.map Emit.statement) := by
    decide +kernel
  obtain ⟨-, lowered, s', hrun, henters, hperforms, hoptions⟩ :=
    lowerAttributes_partitions ⟨"_root", "_ctx"⟩ "_ele" hscope hviolations
  rw [hrun] at hnodes
  obtain ⟨hprops, hdirectives⟩ := Prod.mk.inj (Option.some.inj hnodes)
  exact ⟨hscope, hviolations, lowered, s', hrun, henters, hperforms, hoptions, hprops, hdirectives⟩

end TemplateCompiler
