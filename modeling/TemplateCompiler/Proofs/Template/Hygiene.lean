import TemplateCompiler.Proofs.Template.Minting
import TemplateCompiler.Proofs.Template.Program

/-!
Generated names are hygienic. A compiled program is woven from pieces of the program that was
written and from nodes that the compiler made. The names in the pieces stand in the written program
at the same places; the names that made nodes introduce are the minted ones, each introduced once
and none of them a name of the written program.
-/

namespace TemplateCompiler

open Lower Node Session

namespace Node

mutual

/-- The nodes of a tree that use or introduce a name, with their places. -/
def identifiers : Node → List (Form × Span)
  | node form span children =>
    (if form.identifier?.isSome then [(form, span)] else []) ++ identifiersOfList children

def identifiersOfList : List Node → List (Form × Span)
  | [] => []
  | n :: ns => identifiers n ++ identifiersOfList ns

end

/-- Every name of the tree stands in the program, at the same place. -/
def Within (program n : Node) : Prop := n.identifiers ⊆ program.identifiers

theorem identifiersOfList_subset {program : List (Form × Span)} {ns : List Node} :
    identifiersOfList ns ⊆ program ↔ ∀ n ∈ ns, n.identifiers ⊆ program := by
  induction ns with
  | nil => simp [identifiersOfList]
  | cons n ns ih => simp [identifiersOfList, List.append_subset, ih]

theorem within_node_iff {program : Node} {form : Form} {span : Span} {children : List Node} :
    Within program (.node form span children) ↔
      Within program (.leaf form span) ∧ ∀ n ∈ children, Within program n := by
  simp [Within, identifiers, identifiersOfList, List.append_subset, identifiersOfList_subset]

theorem within_self (program : Node) : Within program program := fun _ h => h

theorem within_leaf {form : Form} (h : form.identifier? = none) (program : Node) (span : Span) :
    Within program (.leaf form span) := by
  simp [Within, identifiers, identifiersOfList, h]

mutual

theorem mem_usedNames_of_mem_identifiers {form : Form} {span : Span} {name : String}
    (hname : form.identifier? = some name) :
    (n : Node) → (form, span) ∈ n.identifiers → name ∈ n.usedNames
  | .node f s children => by
      intro h
      rw [identifiers, List.mem_append] at h
      rw [usedNames, List.mem_append]
      rcases h with hself | hinner
      · split at hself
        · simp only [List.mem_singleton, Prod.mk.injEq] at hself
          left
          simp [← hself.1, hname]
        · simp at hself
      · exact .inr (mem_usedNames_of_mem_identifiersOfList hname children hinner)

theorem mem_usedNames_of_mem_identifiersOfList {form : Form} {span : Span} {name : String}
    (hname : form.identifier? = some name) :
    (ns : List Node) → (form, span) ∈ identifiersOfList ns → name ∈ usedNamesOfList ns
  | [] => by simp [identifiersOfList]
  | n :: ns => by
      intro h
      rw [identifiersOfList, List.mem_append] at h
      rw [usedNamesOfList, List.mem_append]
      rcases h with hfirst | hrest
      · exact .inl (mem_usedNames_of_mem_identifiers hname n hfirst)
      · exact .inr (mem_usedNames_of_mem_identifiersOfList hname ns hrest)

end

end Node

def Form.bound : Form → List String
  | .binding name => [name]
  | _ => []

/-- Trees that are woven from pieces of a program and from made nodes, and the names that the made
nodes introduce. A made node uses minted names, and `document`. The parameter `value` of a callback
is not minted: the body of such a callback is made, and uses minted names and `value` only. -/
inductive Woven (program : Node) (minted : String → Prop) : List Node → List String → Prop
  | nil : Woven program minted [] []
  | source {n : Node} {rest : List Node} {bound : List String} (hsource : Within program n)
      (hrest : Woven program minted rest bound) : Woven program minted (n :: rest) bound
  | around {form : Form} {span : Span} {children rest : List Node} {inside outside : List String}
      (hform : form.isMarkup = false) (hsource : Within program (.leaf form span))
      (hchildren : Woven program minted children inside)
      (hrest : Woven program minted rest outside) :
      Woven program minted (.node form span children :: rest) (inside ++ outside)
  | made {form : Form} {children rest : List Node} {inside outside : List String}
      (hform : form.isMarkup = false)
      (hreference : ∀ name, form = .reference name → minted name ∨ name = "document")
      (hbinding : ∀ name, form = .binding name → minted name)
      (hchildren : Woven program minted children inside)
      (hrest : Woven program minted rest outside) :
      Woven program minted (Emit.made form children :: rest) (form.bound ++ inside ++ outside)
  | callback {body : Node} {rest : List Node} {bound : List String} (hbody : body.literals = [])
      (hnames : ∀ place ∈ body.identifiers, place.2 = .synthetic ∧
        ∃ name, place.1 = .reference name ∧ (name = "value" ∨ minted name))
      (hrest : Woven program minted rest bound) :
      Woven program minted (Emit.arrow "value" body :: rest) bound

namespace Woven

variable {program : Node} {minted minted' : String → Prop} {n : Node} {ns ms : List Node}
  {bound bound' : List String}

theorem mono (h : Woven program minted ns bound) (himp : ∀ name, minted name → minted' name) :
    Woven program minted' ns bound := by
  induction h with
  | nil => exact .nil
  | source hsource _ ih => exact .source hsource ih
  | around hform hsource _ _ ihchildren ihrest => exact .around hform hsource ihchildren ihrest
  | made hform hreference hbinding _ _ ihchildren ihrest =>
      exact .made hform (fun name hname => (hreference name hname).imp_left (himp name))
        (fun name hname => himp name (hbinding name hname)) ihchildren ihrest
  | callback hbody hnames _ ih =>
      refine .callback hbody (fun place hplace => ?_) ih
      obtain ⟨hspan, name, hname, hminted⟩ := hnames place hplace
      exact ⟨hspan, name, hname, hminted.imp_right (himp name)⟩

theorem grow {names : List String} {s s' : Session} (h : Woven program (s.Minted names) ns bound)
    (hgrows : s.Grows s') : Woven program (s'.Minted names) ns bound :=
  h.mono fun _ hname => hname.mono hgrows

theorem append (h : Woven program minted ns bound) (h' : Woven program minted ms bound') :
    Woven program minted (ns ++ ms) (bound ++ bound') := by
  induction h with
  | nil => exact h'
  | source hsource _ ih => exact .source hsource ih
  | around hform hsource hchildren _ _ ihrest =>
      rw [List.append_assoc]
      exact .around hform hsource hchildren ihrest
  | made hform hreference hbinding hchildren _ _ ihrest =>
      rw [List.append_assoc]
      exact .made hform hreference hbinding hchildren ihrest
  | callback hbody hnames _ ih => exact .callback hbody hnames ih

theorem cons (h : Woven program minted [n] bound) (h' : Woven program minted ns bound') :
    Woven program minted (n :: ns) (bound ++ bound') :=
  h.append h'

theorem sources (h : ∀ n ∈ ns, Within program n) : Woven program minted ns [] := by
  induction ns with
  | nil => exact .nil
  | cons n ns ih =>
      obtain ⟨hn, hns⟩ := List.forall_mem_cons.mp h
      exact .source hn (ih hns)

theorem plain {form : Form} (hform : form.isMarkup = false) (hplain : form.identifier? = none)
    (h : Woven program minted ns bound) : Woven program minted [Emit.made form ns] bound := by
  have hreference : ∀ name, form = .reference name → minted name ∨ name = "document" := by
    rintro name rfl
    cases hplain
  have hbinding : ∀ name, form = .binding name → minted name := by
    rintro name rfl
    cases hplain
  have hbound : form.bound = [] := by
    cases form with
    | binding name => cases hplain
    | _ => rfl
  simpa [hbound] using Woven.made hform hreference hbinding h .nil

theorem name {text : String} (h : minted text ∨ text = "document") :
    Woven program minted [Emit.name text] [] :=
  .made rfl (fun _ hname => by cases hname; exact h) (fun _ hname => by cases hname) .nil .nil

theorem binding {text : String} (h : minted text) :
    Woven program minted [Emit.binding text] [text] :=
  .made rfl (fun _ hname => by cases hname) (fun _ hname => by cases hname; exact h) .nil .nil

theorem string (text : String) : Woven program minted [Emit.string text] [] :=
  plain rfl rfl .nil

theorem absent : Woven program minted [Node.absent] [] := plain rfl rfl .nil

theorem array (h : Woven program minted ns bound) : Woven program minted [Emit.array ns] bound :=
  plain rfl rfl h

theorem object (h : Woven program minted ns bound) : Woven program minted [Emit.object ns] bound :=
  plain rfl rfl h

theorem spread (h : Within program n) : Woven program minted [Emit.spread n] [] :=
  plain rfl rfl (.source h .nil)

theorem property (key : String) (h : Within program n) :
    Woven program minted [Emit.property key n] [] :=
  plain rfl rfl ((string key).cons (.source h .nil))

theorem call (hcallee : Woven program minted [n] []) (h : Woven program minted ns bound) :
    Woven program minted [Emit.call n ns] bound :=
  plain rfl rfl (hcallee.cons (absent.cons h))

theorem statement (h : Woven program minted [n] bound) :
    Woven program minted [Emit.statement n] bound :=
  plain rfl rfl h

theorem member (h : Woven program minted [n] []) (property : String) :
    Woven program minted [Emit.member n property] [] :=
  plain rfl rfl (h.cons (plain rfl rfl .nil))

theorem access (h : Woven program minted [n] []) (property : String) :
    Woven program minted [Emit.access n property] [] := by
  unfold Emit.access
  split
  · exact h.member property
  · exact plain rfl rfl (h.cons (string property))

theorem constant {target : String} (htarget : minted target) (h : Woven program minted [n] bound) :
    Woven program minted [Emit.constant (Emit.binding target) n] ([target] ++ bound) :=
  plain rfl rfl (plain rfl rfl ((binding htarget).cons (absent.cons h)))

theorem arrow {parameter : String} (hparameter : minted parameter)
    (h : Woven program minted [n] bound) :
    Woven program minted [Emit.arrow parameter n] ([parameter] ++ bound) :=
  plain rfl rfl (absent.cons ((plain rfl rfl (plain rfl rfl
    ((binding hparameter).cons (absent.cons absent)))).cons (absent.cons h)))

theorem closure {root context : String} (hroot : minted root) (hcontext : minted context)
    (h : Woven program minted ns bound) :
    Woven program minted [Emit.closure root context ns] ([context] ++ ([root] ++ bound)) := by
  have hcreate : Woven program minted
      [Emit.call (Emit.member (Emit.name "document") "createDocumentFragment") []] [] :=
    .call (member (name (.inr rfl)) _) .nil
  have hreturn : Woven program minted [Emit.made .returnStatement [Emit.name root]] [] :=
    plain rfl rfl (name (.inl hroot))
  have hbody := ((constant hroot hcreate).append h).append hreturn
  simp only [List.append_nil] at hbody
  exact arrow hcontext (plain rfl rfl hbody)

end Woven

abbrev AttributesWithin (program : Node) : List Attribute → Prop :=
  AttributesWritten (Node.Within program)

abbrev Template.Within (program : Node) : Template → Prop := Template.Written (Node.Within program)

abbrev Template.WithinList (program : Node) : List Template → Prop :=
  Template.WrittenList (Node.Within program)

theorem within_attributeValue {program n : Node} (h : Within program n) :
    ∀ m ∈ (AttributeValue.ofNode n).embedded, Within program m := by
  unfold AttributeValue.ofNode
  split
  · simp [AttributeValue.embedded]
  · simp [AttributeValue.embedded]
  · simp [AttributeValue.embedded]
  · simpa [AttributeValue.embedded] using (within_node_iff.mp h).2
  · simpa [AttributeValue.embedded] using h

theorem within_attribute {program n : Node} (h : Within program n) :
    ∀ m ∈ (Attribute.ofNode n).embedded, Within program m := by
  unfold Attribute.ofNode
  split
  · simpa [Attribute.embedded] using (within_node_iff.mp h).2
  · exact within_attributeValue ((within_node_iff.mp h).2 _ (by simp))
  · simp [Attribute.embedded, AttributeValue.embedded]

theorem TagPath.within_toNode {program n : Node} (h : Node.Within program n) :
    Node.Within program (TagPath.ofNode n).toNode := by
  fun_induction TagPath.ofNode n with
  | case1 span object property propertySpan children ih =>
      have hobject := (within_node_iff.mp h).2 object (by simp)
      refine within_node_iff.mpr ⟨within_leaf rfl program span, ?_⟩
      simpa using ⟨ih hobject, within_leaf rfl program propertySpan⟩
  | case2 name span children => exact within_node_iff.mpr ⟨(within_node_iff.mp h).1, by simp⟩
  | case3 n => exact within_leaf rfl program n.span

theorem Tag.within_ofNode {program n : Node} (h : Node.Within program n) :
    (Tag.ofNode n).Written (Node.Within program) := by
  intro htag component hcomponent
  obtain ⟨p, hpath, rfl⟩ := Tag.exists_path_of_component htag hcomponent
  unfold Tag.ofNode at hpath
  split at hpath
  · cases hpath
  · cases hpath
  · cases hpath
    exact TagPath.within_toNode h

theorem Template.within_ofNode {program : Node} :
    (∀ n, Node.Within program n → (Template.ofNode n).Within program) ∧
      ∀ ns, (∀ n ∈ ns, Node.Within program n) →
        Template.WithinList program (Template.ofNodes ns) := by
  refine Template.ofNode.mutual_induct
    (fun n => Node.Within program n → (Template.ofNode n).Within program)
    (fun ns => (∀ n ∈ ns, Node.Within program n) →
      Template.WithinList program (Template.ofNodes ns)) ?_ ?_ ?_ ?_ ?_ ?_ ?_ ?_ ?_
  · intro span tag types span₁ attributes span₂ children ih h
    have hparts := (within_node_iff.mp h).2
    have hattributes := (within_node_iff.mp (hparts (.node .group span₁ attributes) (by simp))).2
    have hchildren := (within_node_iff.mp (hparts (.node .group span₂ children) (by simp))).2
    refine ⟨Tag.within_ofNode (hparts tag (by simp)), ?_, ih hchildren⟩
    intro a ha
    obtain ⟨n, hn, rfl⟩ := List.mem_map.mp ha
    exact within_attribute (hattributes n hn)
  · intro span children ih h
    exact ih (within_node_iff.mp h).2
  · intro raw span children h
    exact trivial
  · intro span span₁ children h
    exact trivial
  · intro span value hvalue h
    rw [Template.ofNode.eq_5 span value hvalue]
    exact (within_node_iff.mp h).2 value (by simp)
  · intro span value h
    exact (within_node_iff.mp h).2 value (by simp)
  · intro n h₁ h₂ h₃ h₄ h₅ h₆ h
    rw [Template.ofNode.eq_7 n h₁ h₂ h₃ h₄ h₅ h₆]
    exact trivial
  · intro h
    exact trivial
  · intro n ns ihfirst ihrest h
    obtain ⟨hn, hns⟩ := List.forall_mem_cons.mp h
    exact ⟨ihfirst hn, ihrest hns⟩

mutual

theorem within_of_mem_dependencies : (n : Node) → ∀ p ∈ dependencies n, Within n p
  | .node form span children => by
      intro p hp
      rw [dependencies, List.mem_append] at hp
      have hinner := (within_node_iff.mp (within_self (.node form span children))).2
      rcases hp with hread | hdeep
      · unfold readPath? at hread
        split at hread
        · rename_i object _ _ heq
          cases heq
          split at hread
          · simp only [Option.toList_some, List.mem_singleton] at hread
            rw [hread]
            exact hinner object (by simp)
          · simp at hread
        · simp at hread
      · obtain ⟨n, hn, hwithin⟩ := within_of_mem_dependenciesOfList children p hdeep
        exact fun place hplace => hinner n hn (hwithin hplace)

theorem within_of_mem_dependenciesOfList :
    (ns : List Node) → ∀ p ∈ dependenciesOfList ns, ∃ n ∈ ns, Within n p
  | [] => by simp [dependenciesOfList]
  | n :: ns => by
      intro p hp
      rw [dependenciesOfList, List.mem_append] at hp
      rcases hp with hfirst | hrest
      · exact ⟨n, by simp, within_of_mem_dependencies n p hfirst⟩
      · obtain ⟨m, hm, hwithin⟩ := within_of_mem_dependenciesOfList ns p hrest
        exact ⟨m, by simp [hm], hwithin⟩

end

namespace Woven

variable {program : Node} {minted : String → Prop}

theorem reactiveValue {value : Node} (h : Within program value) :
    Woven program minted [(TemplateCompiler.reactiveValue value).1] [] ∧
      Woven program minted (TemplateCompiler.reactiveValue value).2 [] := by
  rw [reactiveValue_eq]
  constructor
  · split
    · exact .source h .nil
    · exact plain rfl rfl (absent.cons ((plain rfl rfl .nil).cons (absent.cons (.source h .nil))))
  · exact sources fun p hp place hplace => h (within_of_mem_dependencies value p hp hplace)

theorem setter {target : String} {body : Node} (htarget : minted target)
    (hbody : body.literals = [])
    (hnames : body.identifiers = [(.reference target, .synthetic),
      (.reference "value", .synthetic)]) :
    Woven program minted [Emit.arrow "value" body] [] := by
  refine .callback hbody ?_ .nil
  rw [hnames]
  intro place hplace
  simp only [List.mem_cons, List.not_mem_nil, or_false] at hplace
  rcases hplace with rfl | rfl
  · exact ⟨rfl, target, rfl, .inr htarget⟩
  · exact ⟨rfl, "value", rfl, .inl rfl⟩

theorem reactiveArguments {value : Node} (h : Within program value) :
    Woven program minted
      [(TemplateCompiler.reactiveValue value).1,
        Emit.array (TemplateCompiler.reactiveValue value).2]
      [] :=
  (reactiveValue h).1.cons (array (reactiveValue h).2)

end Woven

section

variable {program : Node} {names : List String} {scope : Scope} {target : String} {s s' : Session}

theorem identifiers_access (target property : String) :
    (Emit.access (Emit.name target) property).identifiers =
      [(.reference target, .synthetic)] := by
  unfold Emit.access
  split
  · rfl
  · rfl

theorem LowersDirective.woven {value call : Node} {directive : Directive}
    (h : LowersDirective scope target value s directive call s') (hclean : s.Clean names)
    (hvalue : Within program value) (hcontext : s.Minted names scope.context)
    (htarget : s.Minted names target) :
    ∃ bound, Woven program (s'.Minted names) [call] bound ∧ Mints names s s' bound := by
  have hcontext' := hcontext.mono h.grows
  have htarget' := htarget.mono h.grows
  have hmade := renders_literals
  cases h with
  | bind property hcallback =>
      obtain ⟨hmints, hhelper'⟩ := mints_require hclean hcallback
      have hsetter : Woven program (s'.Minted names)
          [Emit.arrow "value" (Emit.made (.assignment "=")
            [Emit.access (Emit.name target) property, Emit.name "value"])] [] := by
        refine .setter htarget' ?_ ?_
        · rw [literals_eq_collect, hmade.collect_made _ rfl]
          simp [hmade.collect_access, hmade.collect_local trivial]
        · simp only [Emit.made, identifiers, identifiersOfList, identifiers_access]
          rfl
      exact ⟨[], .call (.name (.inl hhelper')) ((Woven.name (.inl hcontext')).cons
        (hsetter.cons (.reactiveArguments hvalue))), hmints⟩
  | attr key hcallback =>
      obtain ⟨hmints, hhelper'⟩ := mints_require hclean hcallback
      have hsetter : Woven program (s'.Minted names)
          [Emit.arrow "value" (Emit.call (Emit.member (Emit.name target) "setAttribute")
            [Emit.string key, Emit.name "value"])] [] :=
        .setter htarget' rfl rfl
      exact ⟨[], .call (.name (.inl hhelper')) ((Woven.name (.inl hcontext')).cons
        (hsetter.cons (.reactiveArguments hvalue))), hmints⟩
  | ref hhelper | view hhelper =>
      obtain ⟨hmints, hhelper'⟩ := mints_require hclean hhelper
      exact ⟨[], .call (.name (.inl hhelper')) ((Woven.name (.inl hcontext')).cons
        ((Woven.name (.inl htarget')).cons (.source hvalue .nil))), hmints⟩
  | model hdetect hsetState hparameter =>
      obtain ⟨hmints₁, hdetect'⟩ := mints_require hclean hdetect
      obtain ⟨hmints₂, hsetState'⟩ := mints_require hmints₁.clean hsetState
      obtain ⟨hmints₃, hparameter'⟩ := mints_fresh hmints₂.clean hparameter
      replace hdetect' := hdetect'.mono (hmints₂.trans hmints₃).grows
      replace hsetState' := hsetState'.mono hmints₃.grows
      have hwrite := Woven.arrow hparameter' (.call (.name (.inl hsetState'))
        (.source hvalue (Woven.name (.inl hparameter'))))
      exact ⟨_, .call (.name (.inl hdetect')) (hwrite.cons (.name (.inl htarget'))),
        (hmints₁.trans hmints₂).trans hmints₃⟩
  | on event hhelper =>
      obtain ⟨hmints, hhelper'⟩ := mints_require hclean hhelper
      exact ⟨[], .call (.name (.inl hhelper')) ((Woven.name (.inl hcontext')).cons
        ((Woven.name (.inl htarget')).cons ((Woven.string event).cons (.source hvalue .nil)))),
        hmints.listen event⟩
  | custom name modifier hregistry =>
      obtain ⟨hmints, hhelper'⟩ := mints_require hclean hregistry
      exact ⟨[], .call (.access (.name (.inl hhelper')) name)
        ((Woven.name (.inl hcontext')).cons ((Woven.name (.inl htarget')).cons
          ((Woven.string modifier).cons (.source hvalue .nil)))), hmints⟩

theorem within_toNode {value : AttributeValue} {fallback : Node}
    (h : ∀ n ∈ value.embedded, Within program n) (hfallback : Within program fallback) :
    Within program (value.toNode fallback) := by
  cases value with
  | missing => exact hfallback
  | string raw span => exact within_leaf rfl program span
  | expression value => exact h value (by simp [AttributeValue.embedded])
  | empty => exact within_leaf rfl program .synthetic
  | markup value => exact h value (by simp [AttributeValue.embedded])

theorem LowersAttributes.woven {as : List Attribute} {lowered : LoweredAttributes}
    (h : LowersAttributes scope target s as lowered s') (hclean : s.Clean names)
    (has : AttributesWithin program as) (hcontext : s.Minted names scope.context)
    (htarget : s.Minted names target) :
    ∃ bound, Woven program (s'.Minted names) lowered.props [] ∧
      Woven program (s'.Minted names) lowered.directives bound ∧ Mints names s s' bound := by
  induction h with
  | nil s => exact ⟨[], .nil, .nil, .refl hclean⟩
  | spread _ ih =>
      obtain ⟨ha, has⟩ := List.forall_mem_cons.mp has
      obtain ⟨bound, hprops, hdirectives, hmints⟩ := ih hclean has hcontext htarget
      have hvalue := ha _ (List.mem_singleton_self _)
      exact ⟨bound, (Woven.spread hvalue).cons hprops, hdirectives, hmints⟩
  | compile _ _ _ ih =>
      exact ih hclean (List.forall_mem_cons.mp has).2 hcontext htarget
  | directive _ hcall hrest ih =>
      obtain ⟨ha, has⟩ := List.forall_mem_cons.mp has
      obtain ⟨first, hfirst, hmints₁⟩ := hcall.woven hclean
        (within_toNode ha (within_leaf rfl program .synthetic)) hcontext htarget
      obtain ⟨bound, hprops, hdirectives, hmints₂⟩ := ih hmints₁.clean has
        (hcontext.mono hmints₁.grows) (htarget.mono hmints₁.grows)
      have hlater := hfirst.grow hmints₂.grows
      exact ⟨first ++ bound, hprops, hlater.statement.cons hdirectives, hmints₁.trans hmints₂⟩
  | prop _ _ ih =>
      obtain ⟨ha, has⟩ := List.forall_mem_cons.mp has
      obtain ⟨bound, hprops, hdirectives, hmints⟩ := ih hclean has hcontext htarget
      exact ⟨bound, (Woven.property _ (within_toNode ha (within_leaf rfl program .synthetic))).cons
        hprops, hdirectives, hmints⟩

theorem Woven.creation {minted : String → Prop} {helper : String} {subject : List Node}
    {lowered : LoweredAttributes} {bound : List String} (hhelper : minted helper)
    (htarget : minted target) (hanchor : minted scope.anchor) (hcontext : minted scope.context)
    (hsubject : Woven program minted subject []) (hprops : Woven program minted lowered.props [])
    (hdirectives : Woven program minted lowered.directives bound) :
    Woven program minted (creation helper target scope subject lowered) ([target] ++ bound) := by
  have harguments := ((Woven.name (.inl hanchor)).cons (Woven.name (.inl hcontext))).append
    (hsubject.append (.object hprops))
  have hcall := Woven.call (.name (.inl hhelper)) harguments
  simp only [TemplateCompiler.creation, List.append_assoc]
  exact (Woven.constant htarget hcall).cons hdirectives

theorem Woven.flush {minted : String → Prop} {helper : String} (hhelper : minted helper)
    (hanchor : minted scope.anchor) (text : String) :
    Woven program minted (flush helper scope text) [] := by
  unfold TemplateCompiler.flush
  split
  · exact .nil
  · exact .statement
      (.call (.name (.inl hhelper)) ((Woven.name (.inl hanchor)).cons (.string text)))

theorem woven_head {symbol base helper : String} {subject : List Node} {as : List Attribute}
    {lowered : LoweredAttributes} {s₁ s₂ : Session} (hclean : s.Clean names)
    (hhelper : (require symbol).run s = (.ok helper, s₁))
    (htarget : (fresh base).run s₁ = (.ok target, s₂))
    (hattributes : LowersAttributes scope target s₂ as lowered s')
    (has : AttributesWithin program as) (hanchor : s.Minted names scope.anchor)
    (hcontext : s.Minted names scope.context)
    (hsubject : Woven program (s'.Minted names) subject []) :
    ∃ bound, Woven program (s'.Minted names) (creation helper target scope subject lowered) bound ∧
      Mints names s s' bound ∧ s'.Minted names target := by
  obtain ⟨hmints₁, hhelper'⟩ := mints_require hclean hhelper
  obtain ⟨hmints₂, htarget'⟩ := mints_fresh hmints₁.clean htarget
  have hmints := hmints₁.trans hmints₂
  obtain ⟨bound, hprops, hdirectives, hmints₃⟩ :=
    hattributes.woven hmints₂.clean has (hcontext.mono hmints.grows) htarget'
  have hgrows := (hmints.trans hmints₃).grows
  refine ⟨[target] ++ bound, ?_, hmints.trans hmints₃, htarget'.mono hmints₃.grows⟩
  exact .creation (hhelper'.mono (hmints₂.trans hmints₃).grows) (htarget'.mono hmints₃.grows)
    (hanchor.mono hgrows) (hcontext.mono hgrows) hsubject hprops hdirectives

end

/-- What is lowered was written in the program, and the helper that appends
text has a minted name. -/
def Job.Within (program : Node) (minted : String → Prop) : Job → Prop
  | .tree t => t.Within program
  | .run helper _ ts => minted helper ∧ Template.WithinList program ts

/-- What a template becomes is woven from it, and introduces the names minted for it. -/
theorem Lowers.woven {program : Node} {names : List String} {s s' : Session} {scope : Scope}
    {options : TextOptions} {job : Job} {items : List Node}
    (h : Lowers s scope options job items s') (hclean : s.Clean names)
    (hjob : job.Within program (s.Minted names)) (hanchor : s.Minted names scope.anchor)
    (hcontext : s.Minted names scope.context) :
    ∃ bound, Woven program (s'.Minted names) items bound ∧ Mints names s s' bound := by
  induction h with
  | leafElement _ hhelper htarget hattributes =>
      obtain ⟨bound, hwoven, hmints, -⟩ := woven_head hclean hhelper htarget hattributes hjob.2.1
        hanchor hcontext (.string _)
      exact ⟨bound, hwoven, hmints⟩
  | element _ hhelper htarget hattributes htext hinner ih =>
      obtain ⟨first, hfirst, hmints₁, htarget'⟩ := woven_head hclean hhelper htarget hattributes
        hjob.2.1 hanchor hcontext (.string _)
      obtain ⟨hmints₂, htext'⟩ := mints_require hmints₁.clean htext
      have hmints := hmints₁.trans hmints₂
      obtain ⟨later, hlater, hmints₃⟩ := ih hmints₂.clean ⟨htext', hjob.2.2⟩
        (htarget'.mono hmints₂.grows) (hcontext.mono hmints.grows)
      refine ⟨first ++ later, ?_, by simpa using hmints.trans hmints₃⟩
      exact (hfirst.grow (hmints₂.trans hmints₃).grows).append hlater
  | control _ _ _ hhelper htarget hattributes =>
      obtain ⟨bound, hwoven, hmints, -⟩ := woven_head hclean hhelper htarget hattributes hjob.2.1
        hanchor hcontext .nil
      exact ⟨bound, hwoven, hmints⟩
  | splice _ _ _ htext _ ih =>
      obtain ⟨hmints₁, htext'⟩ := mints_require hclean htext
      obtain ⟨bound, hwoven, hmints₂⟩ := ih hmints₁.clean ⟨htext', hjob.2.2⟩
        (hanchor.mono hmints₁.grows) (hcontext.mono hmints₁.grows)
      exact ⟨bound, hwoven, hmints₁.trans hmints₂⟩
  | leafComponent htag _ hcomponent hhelper htarget hattributes =>
      obtain ⟨bound, hwoven, hmints, -⟩ := woven_head hclean hhelper htarget hattributes hjob.2.1
        hanchor hcontext (.source (hjob.1 htag _ hcomponent) .nil)
      exact ⟨bound, hwoven, hmints⟩
  | component htag _ hcomponent hhelper htarget hattributes hroot hctx htext _ ih =>
      obtain ⟨first, hfirst, hmints₁, htarget'⟩ := woven_head hclean hhelper htarget hattributes
        hjob.2.1 hanchor hcontext (.source (hjob.1 htag _ hcomponent) .nil)
      obtain ⟨hmints₂, hroot'⟩ := mints_fresh hmints₁.clean hroot
      obtain ⟨hmints₃, hctx'⟩ := mints_fresh hmints₂.clean hctx
      obtain ⟨hmints₄, htext'⟩ := mints_require hmints₃.clean htext
      obtain ⟨later, hlater, hmints₅⟩ := ih hmints₄.clean ⟨htext', hjob.2.2⟩
        (hroot'.mono (hmints₃.trans hmints₄).grows) (hctx'.mono hmints₄.grows)
      have hgrows := (hmints₃.trans (hmints₄.trans hmints₅)).grows
      have hslot :=
        Woven.closure (hroot'.mono hgrows) (hctx'.mono (hmints₄.trans hmints₅).grows) hlater
      have hslots := Woven.statement (.call (.member (.name (.inl (htarget'.mono
        (hmints₂.grows.trans hgrows)))) "setSlot") hslot)
      have hmints := hmints₁.trans (hmints₂.trans (hmints₃.trans (hmints₄.trans hmints₅)))
      refine ⟨_, (hfirst.grow (hmints₂.grows.trans hgrows)).append hslots,
        hmints.perm (.append_left first ?_)⟩
      exact .swap ..
  | fragment htext _ ih =>
      obtain ⟨hmints₁, htext'⟩ := mints_require hclean htext
      obtain ⟨bound, hwoven, hmints₂⟩ := ih hmints₁.clean ⟨htext', hjob⟩
        (hanchor.mono hmints₁.grows) (hcontext.mono hmints₁.grows)
      exact ⟨bound, hwoven, hmints₁.trans hmints₂⟩
  | part value hhelper =>
      obtain ⟨hmints, hhelper'⟩ := mints_require hclean hhelper
      refine ⟨[], .statement (.call (.name (.inl hhelper')) ?_), hmints⟩
      exact (Woven.name (.inl (hcontext.mono hmints.grows))).cons
        ((Woven.name (.inl (hanchor.mono hmints.grows))).cons (.reactiveArguments hjob))
  | text => exact ⟨[], .nil, .refl hclean⟩
  | nothing => exact ⟨[], .nil, .refl hclean⟩
  | done s scope options helper pending =>
      exact ⟨[], .flush hjob.1 hanchor pending, .refl hclean⟩
  | gather _ ih => exact ih hclean ⟨hjob.1, hjob.2.2⟩ hanchor hcontext
  | next _ _ _ ihfirst ihlater =>
      obtain ⟨hhelper, ht, hts⟩ := hjob
      obtain ⟨first, hfirst, hmints₁⟩ := ihfirst hclean ht hanchor hcontext
      obtain ⟨later, hlater, hmints₂⟩ := ihlater hmints₁.clean ⟨hhelper.mono hmints₁.grows, hts⟩
        (hanchor.mono hmints₁.grows) (hcontext.mono hmints₁.grows)
      have hgrows := (hmints₁.trans hmints₂).grows
      refine ⟨first ++ later, ?_, hmints₁.trans hmints₂⟩
      exact ((Woven.flush (hhelper.mono hgrows) (hanchor.mono hgrows) _).append
        (hfirst.grow hmints₂.grows)).append hlater

theorem woven_of_run_template {program closure : Node} {names : List String} {t : Template}
    {s s' : Session} (hclean : s.Clean names) (ht : t.Within program)
    (h : (lowerTemplate t).run s = (.ok closure, s')) :
    ∃ bound, Woven program (s'.Minted names) [closure] bound ∧ Mints names s s' bound := by
  obtain ⟨scope, s₁, s₂, items, trace, hroot, hctx, hitems, rfl⟩ := lowers_of_run_template h
  obtain ⟨hmints₁, hroot'⟩ := mints_fresh hclean hroot
  obtain ⟨hmints₂, hctx'⟩ := mints_fresh hmints₁.clean hctx
  replace hmints₂ := hmints₂.note trace
  replace hctx' : Minted names { s₂ with trace } scope.context := hctx'
  obtain ⟨bound, hwoven, hmints₃⟩ := hitems.woven hmints₂.clean ht (hroot'.mono hmints₂.grows) hctx'
  have hgrows := hmints₃.grows
  refine ⟨_, .closure (hroot'.mono (hmints₂.grows.trans hgrows)) (hctx'.mono hgrows) hwoven, ?_⟩
  exact ((hmints₁.trans hmints₂).trans hmints₃).perm (.swap ..)

/-- A woven tree can be taken apart. What stands in the place of its parts may be woven from more
minted names; only a callback stays as it is, since nothing in it is ever replaced. -/
theorem Woven.uncons {program : Node} {minted : String → Prop} {form : Form} {span : Span}
    {children rest : List Node} {bound : List String} (hform : form.isMarkup = false)
    (h : Woven program minted (.node form span children :: rest) bound) :
    (∃ own inside outside, bound = own ++ inside ++ outside ∧ Woven program minted children inside ∧
      Woven program minted rest outside ∧
      ∀ {minted' : String → Prop} {images rest' : List Node} {inside' outside' : List String},
        (∀ name, minted name → minted' name) → Woven program minted' images inside' →
        Woven program minted' rest' outside' →
        Woven program minted' (.node form span images :: rest') (own ++ inside' ++ outside')) ∨
    (markupDepthOfList children = 0 ∧ Woven program minted rest bound ∧
      ∀ {minted' : String → Prop} {rest' : List Node} {outside' : List String},
        (∀ name, minted name → minted' name) → Woven program minted' rest' outside' →
        Woven program minted' (.node form span children :: rest') outside') := by
  generalize hns : Node.node form span children :: rest = ns at h
  cases h with
  | nil => cases hns
  | source hsource hrest =>
      cases hns
      obtain ⟨hleaf, hchildren⟩ := within_node_iff.mp hsource
      exact .inl ⟨[], [], _, rfl, .sources hchildren, hrest, fun _ himages hrest' =>
        .around hform hleaf himages hrest'⟩
  | around _ hsource hchildren hrest =>
      cases hns
      exact .inl ⟨[], _, _, rfl, hchildren, hrest, fun _ himages hrest' =>
        .around hform hsource himages hrest'⟩
  | made _ hreference hbinding hchildren hrest =>
      cases hns
      exact .inl ⟨_, _, _, rfl, hchildren, hrest, fun himp himages hrest' =>
        .made hform (fun name hname => (hreference name hname).imp_left (himp name))
          (fun name hname => himp name (hbinding name hname)) himages hrest'⟩
  | @callback body _ _ hbody hnames hrest =>
      have hdepth : body.markupDepth = 0 := by
        rw [← markupDepthOfList_literals, hbody, markupDepthOfList]
      cases hns
      refine .inr ⟨?_, hrest, fun himp hrest' => ?_⟩
      · simp [markupDepthOfList, markupDepth, Emit.made, Emit.binding, Node.absent, Form.isMarkup,
          hdepth]
      · refine .callback hbody (fun place hplace => ?_) hrest'
        obtain ⟨hspan, name, hname, hminted⟩ := hnames place hplace
        exact ⟨hspan, name, hname, hminted.imp_right (himp name)⟩

theorem Woven.within_of_isMarkup {program literal : Node} {minted : String → Prop}
    {rest : List Node} {bound : List String} (hform : literal.form.isMarkup = true)
    (h : Woven program minted (literal :: rest) bound) :
    Within program literal ∧ Woven program minted rest bound := by
  cases h with
  | source hsource hrest => exact ⟨hsource, hrest⟩
  | around hform' => exact absurd hform (by simp [Node.form, hform'])
  | made hform' => exact absurd hform (by simp [Emit.made, Node.form, hform'])
  | callback => cases hform

theorem perm_append_append {inside outside inside' outside' minted₁ minted₂ : List String}
    (hinside : inside'.Perm (inside ++ minted₁)) (houtside : outside'.Perm (outside ++ minted₂)) :
    (inside' ++ outside').Perm ((inside ++ outside) ++ (minted₁ ++ minted₂)) := by
  rw [List.perm_iff_count] at hinside houtside ⊢
  intro name
  have hcount₁ := hinside name
  have hcount₂ := houtside name
  simp only [List.count_append] at hcount₁ hcount₂ ⊢
  omega

/-- A walk without failures weaves: what it adds to the names that made nodes introduce are the
names minted for the literals that it replaces. -/
theorem Walks.woven {program : Node} {names bound : List String} {w w' : Walk} {ns ns' : List Node}
    (h : Walks w ns ns' w') (herrors : w'.errors = []) (hclean : w.session.Clean names)
    (hwoven : Woven program (w.session.Minted names) ns bound) :
    ∃ bound' minted, Woven program (w'.session.Minted names) ns' bound' ∧
      Mints names w.session w'.session minted ∧ bound'.Perm (bound ++ minted) := by
  induction h generalizing bound with
  | nil w =>
      cases hwoven
      exact ⟨[], [], .nil, .refl hclean, .refl _⟩
  | inner span hform hchildren hrest ihchildren ihrest =>
      rcases hwoven.uncons hform with ⟨own, inside, outside, rfl, hinside, houtside, hweave⟩ |
        ⟨hdepth, houtside, hweave⟩
      · obtain ⟨inside', minted₁, hinside', hmints₁, hperm₁⟩ :=
          ihchildren (hrest.errors_eq_nil herrors) hclean hinside
        obtain ⟨outside', minted₂, houtside', hmints₂, hperm₂⟩ := ihrest herrors hmints₁.clean
          (houtside.grow hmints₁.grows)
        refine ⟨_, minted₁ ++ minted₂, hweave (fun name hname => hname.mono
          (hmints₁.trans hmints₂).grows) (hinside'.grow hmints₂.grows)
          houtside', hmints₁.trans hmints₂, ?_⟩
        simpa using (perm_append_append hperm₁ hperm₂).append_left own
      · obtain ⟨rfl, rfl⟩ := hchildren.unique (walks_of_markupDepthOfList_eq_zero _ _ hdepth)
        obtain ⟨outside', minted, houtside', hmints, hperm⟩ := ihrest herrors hclean houtside
        exact ⟨outside', minted, hweave (fun name hname => hname.mono hmints.grows) houtside',
          hmints, hperm⟩
  | @replaced w w₁ w₂ literal closure image _ _ session hform hrun hclosure hrest ihclosure
      ihrest =>
      obtain ⟨hliteral, houtside⟩ := hwoven.within_of_isMarkup hform
      obtain ⟨own, hown, hmints₀⟩ :=
        woven_of_run_template hclean (Template.within_ofNode.1 literal hliteral) hrun
      obtain ⟨inside, minted₁, hinside, hmints₁, hperm₁⟩ :=
        ihclosure (hrest.errors_eq_nil herrors) hmints₀.clean hown
      have hmints₀₁ : Mints names w.session w₁.session (own ++ minted₁) := hmints₀.trans hmints₁
      obtain ⟨outside, minted₂, houtside', hmints₂, hperm₂⟩ := ihrest herrors hmints₁.clean
        (houtside.grow hmints₀₁.grows)
      refine ⟨inside ++ outside, (own ++ minted₁) ++ minted₂,
        (hinside.grow hmints₂.grows).cons houtside',
        hmints₀₁.trans hmints₂, ?_⟩
      -- The literal itself introduced no name, so all names of its image are new.
      have hnew : inside.Perm ([] ++ (own ++ minted₁)) := hperm₁
      exact perm_append_append hnew hperm₂
  | failed _ _ hrest =>
      have hfail := hrest.errors_eq_nil herrors
      simp [Walk.fail] at hfail

theorem woven_specifiers {program : Node} {minted : String → Prop}
    {symbols : List (String × String)} (h : ∀ e ∈ symbols, minted e.2) :
    Woven program minted (symbols.map Imports.specifier) (symbols.map Prod.snd) := by
  induction symbols with
  | nil => exact .nil
  | cons e symbols ih =>
      obtain ⟨he, hsymbols⟩ := List.forall_mem_cons.mp h
      have hlabel : Woven program minted [.leaf (.label e.1) .synthetic] [] := .plain rfl rfl .nil
      exact (Woven.plain rfl rfl (hlabel.cons (.binding he))).cons (ih hsymbols)

theorem woven_declarations {program : Node} {minted : String → Prop} {s : Session}
    (h : ∀ e ∈ s.imports.entries, minted e.2) :
    Woven program minted s.declarations s.aliases := by
  simp only [Session.declarations, Session.aliases, Imports.entries] at h ⊢
  generalize s.imports.modules = ms at h ⊢
  induction ms with
  | nil => exact .nil
  | cons m ms ih =>
      simp only [List.flatMap_cons, List.forall_mem_append] at h
      have hgroup : Woven program minted [Emit.made .group (m.symbols.map Imports.specifier)]
          (m.symbols.map Prod.snd) := .plain rfl rfl (woven_specifiers h.1)
      have hdeclaration : Woven program minted [Imports.declaration m]
          (m.symbols.map Prod.snd) := by
        refine .plain rfl rfl ?_
        simpa using hgroup.cons ((Woven.string m.source).cons .absent)
      rw [List.map_cons, List.flatMap_cons, List.map_append]
      exact hdeclaration.cons (ih h.2)

theorem woven_delegateStatement {program : Node} {minted : String → Prop} {helper : String}
    (h : minted helper) (events : List String) :
    Woven program minted [delegateStatement helper events] [] := by
  have hevents : Woven program minted (events.map Emit.string) [] := by
    induction events with
    | nil => exact .nil
    | cons event events ih => exact (Woven.string event).cons ih
  exact .statement (.call (.name (.inl h)) (.array hevents))

theorem Walk.clean_start (environment : String) (program : Node) :
    (Walk.start environment program).session.Clean program.usedNames :=
  ⟨fun _ hname => hname, fun _ he => by cases he⟩

section

variable {environment : String} {prologue : Prologue} {span : Span} {statements images : List Node}
  {w : Walk} {helper : String} {s : Session}

/-- A finished program is woven, and the nodes that were made introduce the minted names. -/
theorem woven_finished
    (hwalks : Walks (.start environment (.node (.program prologue) span statements)) statements
      images w)
    (herrors : w.errors = [])
    (hhelper : (require "eventDelegate").run w.session = (.ok helper, s)) :
    ∃ minted bound, s.used = minted ++ (Node.node (.program prologue) span statements).usedNames ∧
      minted.Nodup ∧
        (∀ name ∈ minted, name ∉ (Node.node (.program prologue) span statements).usedNames) ∧
      bound.Perm minted ∧
      Woven (.node (.program prologue) span statements)
        (s.Minted (Node.node (.program prologue) span statements).usedNames)
        [finished prologue span images helper s] bound := by
  have hclean := Walk.clean_start environment (.node (.program prologue) span statements)
  obtain ⟨hleaf, hstatements⟩ := within_node_iff.mp
    (within_self (.node (.program prologue) span statements))
  obtain ⟨bound, minted, hwoven, hmints, hperm⟩ :=
    hwalks.woven herrors hclean (.sources hstatements)
  obtain ⟨hmints', hhelper'⟩ := mints_require hmints.clean hhelper
  have hall := hmints.trans hmints'
  obtain ⟨taken, hused, hnodup, hfresh⟩ := hall.grows.used
  refine ⟨taken, s.aliases ++ bound, hused, hnodup, hfresh, ?_, ?_⟩
  · rw [List.perm_iff_count] at hperm ⊢
    intro name
    have hcount := hall.count_used name
    have himages := hperm name
    have hstart :
        (Walk.start environment (.node (.program prologue) span statements)).session.aliases =
      [] := rfl
    rw [hused, hstart] at hcount
    simp only [List.count_append, List.count_nil] at hcount himages ⊢
    omega
  · have hbody := ((woven_declarations fun e he => hmints'.clean.minted_alias e he).append
      (hwoven.grow hmints'.grows)).append (woven_delegateStatement hhelper' s.events)
    have hprogram := Woven.around rfl hleaf hbody .nil
    simp only [List.append_nil] at hprogram
    exact hprogram

end

/-- The names minted while a program was transformed, and the names that made nodes of the result
introduce, in the order in which they stand there. -/
structure Hygienic (program : Node) (result : Transformed) (minted bound : List String) : Prop where
  /-- Beside the names of the program, the minted names are taken. -/
  used_eq : result.session.used = minted ++ program.usedNames
  nodup : minted.Nodup
  fresh : ∀ name ∈ minted, name ∉ program.usedNames
  /-- Every minted name is introduced, and once. -/
  perm : bound.Perm minted
  /-- Nothing that is made captures a use of a name in the program. -/
  not_captured : ∀ name ∈ bound, ∀ place, (.reference name, place) ∉ program.identifiers
  woven : Woven program (· ∈ minted) [result.program] bound

/-- Generated names are hygienic in every program whose literals can all be replaced. -/
theorem transform_hygienic (environment : String) (prologue : Prologue) (span : Span)
    (statements : List Node)
    (h : (transform environment (.node (.program prologue) span statements)).errors = []) :
    ∃ minted bound, Hygienic (.node (.program prologue) span statements)
      (transform environment (.node (.program prologue) span statements)) minted bound := by
  obtain ⟨images, w, hwalks, ⟨herrors, hresult⟩ | ⟨herrors, helper, s, trace, hhelper, hresult⟩⟩ :=
    transform_cases environment prologue span statements
  · rw [hresult] at h
    exact absurd h herrors
  · rw [hresult]
    obtain ⟨minted, bound, hused, hnodup, hfresh, hperm, hwoven⟩ :=
      woven_finished hwalks herrors hhelper
    refine ⟨minted, bound, hused, hnodup, hfresh, hperm, ?_, hwoven.mono ?_⟩
    · intro name hname place hplace
      exact hfresh name (hperm.mem_iff.mp hname) (mem_usedNames_of_mem_identifiers rfl _ hplace)
    · rintro name ⟨hname, hfree⟩
      rw [hused] at hname
      exact (List.mem_append.mp hname).resolve_right hfree

theorem transform_hygienic_sample :
    (transform "rumious" (.node (.program {}) ⟨0, 79⟩ sampleStatements)).errors = [] ∧
      ∃ minted bound, Hygienic (.node (.program {}) ⟨0, 79⟩ sampleStatements)
        (transform "rumious" (.node (.program {}) ⟨0, 79⟩ sampleStatements)) minted bound :=
  ⟨errors_transform_sampleStatements, transform_hygienic _ _ _ _ errors_transform_sampleStatements⟩

end TemplateCompiler
