import TemplateCompiler.Proofs.Template.Collection

namespace TemplateCompiler

open Collector

namespace Node

mutual

/-- The outermost markup literals of a tree, from left to right. -/
def literals : Node → List Node
  | node f span cs => if f.isMarkup then [node f span cs] else literalsOfList cs

def literalsOfList : List Node → List Node
  | [] => []
  | n :: ns => literals n ++ literalsOfList ns

end

theorem literals_of_isMarkup {n : Node} (h : n.form.isMarkup = true) : n.literals = [n] := by
  obtain ⟨form, span, children⟩ := n
  exact if_pos h

end Node

open Node

def literalCollector : Collector Unit Node where
  own _ form span children := if form.isMarkup then [.node form span children] else []
  inner _ form _ := if form.isMarkup then none else some ()

theorem literalCollector_agrees :
    literalCollector.Agrees (fun _ => literals) fun _ => literalsOfList where
  node _ form span children := by
    cases hmarkup : form.isMarkup <;> simp [literals, literalCollector, hmarkup]
  nil _ := rfl
  cons _ _ _ := rfl

theorem literals_eq_collect (n : Node) : n.literals = literalCollector.collect () n :=
  literalCollector_agrees.eq_collect () n

theorem literalsOfList_eq_flatMap (ns : List Node) : literalsOfList ns = ns.flatMap literals := by
  rw [literalCollector_agrees.eq_collectOfList () ns, collectOfList_eq_flatMap,
    ← funext literals_eq_collect]

theorem Form.isMarkup_of_isQuiet {form : Form} (h : form.isQuiet = true) :
    form.isMarkup = false := by
  cases form with
  | element => cases h
  | fragment => cases h
  | _ => rfl

theorem literalCollector_quiet (value : Unit) (form : Form) (span : Span) (children : List Node)
    (h : form.isQuiet = true) : literalCollector.own value form span children = [] ∧
      literalCollector.inner value form span = some value := by
  simp [literalCollector, Form.isMarkup_of_isQuiet h]

theorem renders_literals : literalCollector.Renders () (.silent literals) .full := by
  rw [funext literals_eq_collect]
  exact renders_silent literalCollector_quiet fun _ _ => ⟨rfl, rfl⟩

theorem literals_of_isPath {n : Node} (h : isPath n = true) : n.literals = [] := by
  rw [literals_eq_collect]
  exact collect_of_isPath literalCollector_quiet h

theorem literalsOfList_dependencies (n : Node) : literalsOfList (dependencies n) = [] := by
  rw [literalsOfList_eq_flatMap]
  exact List.flatMap_eq_nil_iff.mpr fun p hp =>
    literals_of_isPath (isPath_of_mem_dependencies n p hp)

namespace Node

theorem literalsOfList_append (ns ms : List Node) :
    literalsOfList (ns ++ ms) = literalsOfList ns ++ literalsOfList ms := by
  simp [literalsOfList_eq_flatMap]

theorem markupDepthOfList_append (ns ms : List Node) :
    markupDepthOfList (ns ++ ms) = max (markupDepthOfList ns) (markupDepthOfList ms) := by
  induction ns with
  | nil => simp [markupDepthOfList]
  | cons n ns ih => simp only [List.cons_append, markupDepthOfList, ih, Nat.max_assoc]

mutual

theorem markupDepthOfList_literals : (n : Node) → markupDepthOfList n.literals = n.markupDepth
  | node f span cs => by
      unfold literals
      split
      · simp [markupDepthOfList]
      · rename_i hmarkup
        rw [markupDepthOfList_literalsOfList cs, markupDepth, if_neg hmarkup, Nat.zero_add]

theorem markupDepthOfList_literalsOfList :
    (ns : List Node) → markupDepthOfList (literalsOfList ns) = markupDepthOfList ns
  | [] => rfl
  | n :: ns => by
      rw [literalsOfList, markupDepthOfList_append, markupDepthOfList_literals n,
        markupDepthOfList_literalsOfList ns, markupDepthOfList]

end

end Node

theorem markupDepthOfList_embedded_value (n : Node) :
    markupDepthOfList (AttributeValue.ofNode n).embedded ≤ n.markupDepth := by
  unfold AttributeValue.ofNode
  split
  · simp [AttributeValue.embedded, markupDepthOfList]
  · simp [AttributeValue.embedded, markupDepthOfList]
  · simp [AttributeValue.embedded, markupDepthOfList]
  · simp [AttributeValue.embedded, markupDepthOfList, markupDepth, Form.isMarkup]
  · simp [AttributeValue.embedded, markupDepthOfList]

theorem markupDepthOfList_embedded_attribute (n : Node) :
    markupDepthOfList (Attribute.ofNode n).embedded ≤ n.markupDepth := by
  unfold Attribute.ofNode
  split
  · simp [Attribute.embedded, markupDepthOfList, markupDepth, Form.isMarkup]
  · rename_i span name value
    have hvalue := markupDepthOfList_embedded_value value
    simp only [Attribute.embedded, markupDepth, markupDepthOfList, Form.isMarkup]
    omega
  · simp [Attribute.embedded, AttributeValue.embedded, markupDepthOfList]

theorem markupDepthOfList_attributes (ns : List Node) :
    markupDepthOfList (propExpressions (ns.map .ofNode)) ≤ markupDepthOfList ns ∧
      markupDepthOfList (directiveExpressions (ns.map .ofNode)) ≤ markupDepthOfList ns := by
  induction ns with
  | nil => exact ⟨Nat.le_refl _, Nat.le_refl _⟩
  | cons n ns ih =>
      have hn := markupDepthOfList_embedded_attribute n
      cases ha : Attribute.ofNode n with
      | spread value =>
          simp only [ha, Attribute.embedded, markupDepthOfList] at hn
          simp only [List.map_cons, ha, propExpressions, directiveExpressions, markupDepthOfList]
          omega
      | named name value start =>
          simp only [ha, Attribute.embedded] at hn
          simp only [List.map_cons, ha, propExpressions, directiveExpressions, markupDepthOfList]
          cases AttributeKind.ofName name with
          | compile modifier =>
              simp only
              omega
          | directive directive =>
              simp only [markupDepthOfList_append]
              omega
          | prop =>
              simp only [markupDepthOfList_append]
              omega

theorem markupDepthOfList_embedded_element {depth : Nat} {attributes : List Attribute}
    {children : List Template} (tag : Tag)
    (hprops : markupDepthOfList (propExpressions attributes) ≤ depth)
    (hdirectives : markupDepthOfList (directiveExpressions attributes) ≤ depth)
    (hchildren : markupDepthOfList (Template.embeddedOfList children) ≤ depth) :
    markupDepthOfList (Template.element tag attributes children).embedded ≤ depth := by
  simp only [Template.embedded]
  split
  · split
    · exact hchildren
    · simp only [markupDepthOfList_append]
      omega
    · simp only [markupDepthOfList_append]
      omega
  · simp only [markupDepthOfList_append]
    omega

theorem markupDepthOfList_embedded :
    (∀ n, markupDepthOfList (Template.ofNode n).embedded ≤ markupDepthOfList n.children) ∧
      ∀ ns, markupDepthOfList (Template.embeddedOfList (Template.ofNodes ns)) ≤
        markupDepthOfList ns := by
  refine Template.ofNode.mutual_induct
    (fun n => markupDepthOfList (Template.ofNode n).embedded ≤ markupDepthOfList n.children)
    (fun ns => markupDepthOfList (Template.embeddedOfList (Template.ofNodes ns)) ≤
      markupDepthOfList ns) ?_ ?_ ?_ ?_ ?_ ?_ ?_ ?_ ?_
  · intro span tag types span₁ attributes span₂ children ih
    obtain ⟨hprops, hdirectives⟩ := markupDepthOfList_attributes attributes
    simp only [Template.ofNode, Node.children, markupDepthOfList, markupDepth]
    apply markupDepthOfList_embedded_element
    · omega
    · omega
    · omega
  · intro span children ih
    simpa only [Template.ofNode, Template.embedded, Node.children] using ih
  · intro raw span children
    exact Nat.zero_le _
  · intro span span₁ children
    exact Nat.zero_le _
  · intro span value hvalue
    rw [Template.ofNode.eq_5 span value hvalue]
    simp [Template.embedded, Node.children]
  · intro span value
    simp [Template.ofNode, Template.embedded, Node.children]
  · intro n h₁ h₂ h₃ h₄ h₅ h₆
    simp [Template.ofNode, Template.embedded, markupDepthOfList]
  · exact Nat.zero_le _
  · rintro ⟨form, span, children⟩ ns ihfirst ihrest
    simp only [Template.ofNodes, Template.embeddedOfList, markupDepthOfList_append,
      markupDepthOfList, markupDepth, Node.children] at ihfirst ⊢
    omega

theorem literals_of_run_template {t : Template} {closure : Node} {s s' : Session}
    (h : (lowerTemplate t).run s = (.ok closure, s')) :
    closure.literals = literalsOfList t.embedded := by
  rw [literals_eq_collect,
    collect_of_run_template h renders_literals (Lexicon.covers_full _) (.refl s')
    (Template.written_of_forall (fun _ => trivial) t), Account.ofTemplate_silent,
    literalsOfList_eq_flatMap]

/-- A closure nests literals less deeply than the literal that it replaces. -/
theorem markupDepth_lt_of_run_template {literal closure : Node} {s s' : Session}
    (hmarkup : literal.form.isMarkup = true)
    (h : (lowerTemplate (.ofNode literal)).run s = (.ok closure, s')) :
    closure.markupDepth < literal.markupDepth := by
  obtain ⟨form, span, children⟩ := literal
  have hembedded := markupDepthOfList_embedded.1 (.node form span children)
  rw [← markupDepthOfList_literals, literals_of_run_template h, markupDepthOfList_literalsOfList]
  simp only [Node.form, Node.children, markupDepth] at hmarkup hembedded ⊢
  rw [if_pos hmarkup]
  omega

end TemplateCompiler
