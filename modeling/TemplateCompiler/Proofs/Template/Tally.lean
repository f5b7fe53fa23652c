import Mathlib.Algebra.GroupWithZero.Nat
import TemplateCompiler.Proofs.Template.Image
import TemplateCompiler.Proofs.Template.Position
import TemplateCompiler.Proofs.Template.Violation

/-!
Numbers that are added up over a program. What a node counts depends on where it stands, and
so the same sum can be taken over a program before and after its literals are replaced.
Lowering a literal changes no such sum: what its closure counts was counted at the positions
from which the closure is made.
-/

namespace TemplateCompiler

open Lower Node Session

/-- Numbers that are added up over a program and over what becomes of it. -/
structure Tally where
  /-- What an expression or statement counts, its parts left aside. -/
  own : Form → Span → List Node → Nat
  /-- What a markup literal counts. -/
  literal : Node → Nat
  /-- What the closure of a literal counts. -/
  closure : Nat
  /-- What the closure between the tags of a component counts, and the call that hands it over. -/
  slot : Nat

namespace Tally

variable (t : Tally)

mutual

def total : Node → Nat
  | .node form span children => t.own form span children + totalOfList children

def totalOfList : List Node → Nat
  | [] => 0
  | n :: ns => total n + totalOfList ns

end

@[simp] theorem totalOfList_nil : t.totalOfList [] = 0 := rfl

def ofTag : Tag → Nat
  | .path path => t.total path.toNode
  | _ => 0

/-- What is kept of a node counts for it, its parts left aside. -/
def kept (position : Position) (n : Node) : Nat :=
  (if position = .value ∧ n.form.isMarkup = false then t.own n.form n.span n.children else 0) +
    t.totalOfList (convertedParts position n)

/-- What a node counts at a position, its parts left aside. -/
def here (position : Position) (n : Node) : Nat :=
  (if position = .value ∧ n.form.isMarkup = true then t.literal n else 0) +
    (if (position = .value ∨ position = .child) ∧ hasSlot n = true then t.slot else 0) +
    t.kept position n + t.totalOfList (copiedPaths position n)

/-- The sum over a tree that stands at a position. -/
def sum (position : Position) (n : Node) : Nat :=
  ((n.reached positions position).map fun v => t.here v.1 v.2).sum

/-- The sum over expressions and statements. -/
def sums (ns : List Node) : Nat := (ns.map (t.sum .value)).sum

theorem sum_node (position : Position) (form : Form) (span : Span) (children : List Node) :
    t.sum position (.node form span children) = t.here position (.node form span children) +
      (List.zipWith t.sum (positions position form children) children).sum := by
  have hlist : ∀ (ps : List Position) (ns : List Node),
      ((reachedOfList positions ps ns).map fun v => t.here v.1 v.2).sum =
        (List.zipWith t.sum ps ns).sum := by
    intro ps ns
    induction ns generalizing ps with
    | nil => cases ps <;> rfl
    | cons n ns ih =>
        cases ps with
        | nil => rfl
        | cons p ps => simp [reachedOfList, ih, sum]
  rw [sum, reached, List.map_cons, List.sum_cons, hlist]

theorem zipWith_sum_map (position : Position) (ns : List Node) :
    List.zipWith t.sum (ns.map fun _ => position) ns = ns.map (t.sum position) := by
  rw [List.zipWith_map_left]
  exact List.zipWith_self

@[simp] theorem sums_nil : t.sums [] = 0 := rfl

@[simp] theorem sums_cons (n : Node) (ns : List Node) :
    t.sums (n :: ns) = t.sum .value n + t.sums ns := rfl

@[simp] theorem sums_append (ns ms : List Node) : t.sums (ns ++ ms) = t.sums ns + t.sums ms := by
  simp [sums]

theorem sums_eq_zero {t : Tally} {ns : List Node} (h : ∀ n ∈ ns, t.sum .value n = 0) :
    t.sums ns = 0 := by
  rw [sums, List.map_congr_left h]
  simp

theorem sum_dropped (n : Node) : t.sum .dropped n = 0 := by
  obtain ⟨form, span, children⟩ := n
  rw [sum_node]
  simp [here, kept, convertedParts, copiedPaths, positions]

theorem hasSlot_eq_false {n : Node} (h : n.form ≠ .element) : hasSlot n = false := by
  obtain ⟨form, span, children⟩ := n
  unfold hasSlot
  split
  · rename_i heq
    cases heq
    exact absurd rfl h
  · rfl

theorem sum_value {form : Form} (hform : form.isMarkup = false) (span : Span)
    (children : List Node) :
    t.sum .value (.node form span children) = t.own form span children + t.sums children := by
  have hslot : hasSlot (.node form span children) = false := by
    apply hasSlot_eq_false
    rintro ⟨⟩
    cases hform
  have hpositions : positions .value form children = children.map fun _ => .value := by
    unfold positions
    split
    all_goals first | cases hform | rfl | skip
    all_goals simp_all
  rw [sum_node, hpositions, zipWith_sum_map]
  simp [here, kept, convertedParts, Node.form, Node.span, Node.children, hform, hslot, copiedPaths,
    sums]

def ofValue : AttributeValue → Nat
  | .missing => 0
  | .string raw span => t.total (.string (Text.decodeEntities raw) span)
  | .expression value => t.sum .value value
  | .empty => 0
  | .markup value => t.sum .value value

def ofAttribute : Attribute → Nat
  | .spread value => t.sum .value value
  | .named name value _ =>
    match AttributeKind.ofName name with
    | .compile _ => 0
    | .directive directive =>
      t.ofValue value + t.totalOfList (directive.copiedPaths (value.toNode Emit.null))
    | .prop => t.ofValue value

def ofAttributes (as : List Attribute) : Nat := (as.map t.ofAttribute).sum

theorem ofAttributes_cons (a : Attribute) (as : List Attribute) :
    t.ofAttributes (a :: as) = t.ofAttribute a + t.ofAttributes as := rfl

mutual

/-- The sum over what a template takes from the literal that it is. -/
def ofTemplate : Template → Nat
  | .element tag attributes children =>
    match tag.control? with
    | some .fragment => ofTemplates children
    | some _ => t.ofAttributes attributes
    | none =>
      (if tag.isComponent then t.ofTag tag else 0) + t.ofAttributes attributes +
        ofTemplates children +
        if tag.isComponent ∧ children ≠ [] then t.slot else 0
  | .fragment children => ofTemplates children
  | .part value => t.sum .value value + t.totalOfList (dependencies value)
  | .text _ => 0
  | .nothing => 0

/-- The sum over what templates take from the literals that they are. -/
def ofTemplates : List Template → Nat
  | [] => 0
  | child :: children => ofTemplate child + ofTemplates children

end

theorem sum_tag (n : Node) : t.sum .tag n = t.ofTag (.ofNode n) := by
  obtain ⟨form, span, children⟩ := n
  have hkept : t.totalOfList (convertedParts .tag (.node form span children)) =
      t.ofTag (.ofNode (.node form span children)) := by
    simp only [convertedParts, ofTag]
    cases Tag.ofNode (.node form span children) with
    | path path => simp [totalOfList]
    | _ => rfl
  rw [sum_node]
  simp [here, kept, hkept, copiedPaths, positions]

theorem sum_attributes (span : Span) (ns : List Node) :
    t.sum .attributes (.node .group span ns) = (ns.map (t.sum .attribute)).sum := by
  rw [sum_node, positions, zipWith_sum_map]
  simp [here, kept, convertedParts, copiedPaths]

theorem sum_children (span : Span) (ns : List Node) :
    t.sum .children (.node .group span ns) = (ns.map (t.sum .child)).sum := by
  rw [sum_node, positions, zipWith_sum_map]
  simp [here, kept, convertedParts, copiedPaths]

theorem sum_position (n : Node) :
    t.sum (AttributeValue.ofNode n).position n = t.ofValue (.ofNode n) := by
  unfold AttributeValue.ofNode
  split
  · exact t.sum_dropped _
  · rw [AttributeValue.position, sum_node]
    simp [here, kept, convertedParts, copiedPaths, positions, totalOfList, ofValue]
  · exact t.sum_dropped _
  · rw [AttributeValue.position, sum_node]
    simp [here, kept, convertedParts, copiedPaths, positions, ofValue]
  · rfl

theorem sum_attribute (n : Node) : t.sum .attribute n = t.ofAttribute (.ofNode n) := by
  unfold Attribute.ofNode
  split
  · rename_i span value
    rw [sum_node]
    simp [here, kept, convertedParts, copiedPaths, positions, ofAttribute]
  · rename_i span name value
    rw [sum_node]
    simp only [here, kept, convertedParts, copiedPaths, positions, ofAttribute, valuePosition,
      List.zipWith_cons_cons, List.zipWith_nil_right, List.sum_cons, List.sum_nil, sum_dropped]
    cases AttributeKind.ofName (Attribute.nameOf name) with
    | compile modifier => simp [sum_dropped]
    | directive directive =>
        simp only [sum_position]
        simp [Nat.add_comm]
    | prop => simp [sum_position]
  · rename_i hspread hnamed
    obtain ⟨form, span, children⟩ := n
    have hcopied : copiedPaths .attribute (.node form span children) = [] := by
      unfold copiedPaths
      split
      all_goals simp_all
    have hpositions : positions .attribute form children = [] := by
      unfold positions
      split
      all_goals simp_all
    rw [sum_node, hpositions]
    simp [here, kept, convertedParts, hcopied, ofAttribute, ofValue, AttributeKind.ofName]

theorem ofNodes_eq_nil_iff (ns : List Node) : Template.ofNodes ns = [] ↔ ns = [] := by
  cases ns with
  | nil => simp [Template.ofNodes]
  | cons n ns => simp [Template.ofNodes]

theorem hasSlot_element (span : Span) (tag types : Node) (span₁ : Span) (attributes : List Node)
    (span₂ : Span) (children : List Node) :
    hasSlot (.node .element span [tag, types, .node .group span₁ attributes,
      .node .group span₂ children]) =
      ((Tag.ofNode tag).isComponent && (Tag.ofNode tag).control?.isNone && !children.isEmpty) := by
  cases children with
  | nil => simp [hasSlot]
  | cons child children => simp [hasSlot]

theorem sum_element (span : Span) (tag types : Node) (span₁ : Span) (attributes : List Node)
    (span₂ : Span) (children : List Node)
    (ih : (children.map (t.sum .child)).sum = t.ofTemplates (Template.ofNodes children)) :
    t.sum .child
        (.node .element span [tag, types, .node .group span₁ attributes,
          .node .group span₂ children]) =
      t.ofTemplate (.element (.ofNode tag) (attributes.map .ofNode)
        (Template.ofNodes children)) := by
  have hattributes : (attributes.map (t.sum .attribute)).sum =
      t.ofAttributes (attributes.map .ofNode) := by
    rw [ofAttributes, List.map_map, funext t.sum_attribute]
    rfl
  rw [sum_node]
  simp only [here, kept, convertedParts, copiedPaths, totalOfList_nil, positions, elementPositions,
    hasSlot_element, ofTemplate]
  cases hcontrol : (Tag.ofNode tag).control? with
  | none =>
      have htag : t.sum (if (Tag.ofNode tag).isComponent then .tag else .dropped) tag =
          if (Tag.ofNode tag).isComponent then t.ofTag (.ofNode tag) else 0 := by
        split
        · exact t.sum_tag tag
        · exact t.sum_dropped tag
      simp [htag, sum_dropped, sum_attributes, sum_children, ih, hattributes, ofNodes_eq_nil_iff]
      omega
  | some control =>
      cases control with
      | conditional => simp [sum_dropped, sum_attributes, hattributes]
      | loop => simp [sum_dropped, sum_attributes, hattributes]
      | fragment => simp [sum_dropped, sum_children, ih]

theorem sum_child : (∀ n, t.sum .child n = t.ofTemplate (.ofNode n)) ∧
    ∀ ns : List Node, (ns.map (t.sum .child)).sum = t.ofTemplates (Template.ofNodes ns) := by
  refine Template.ofNode.mutual_induct
    (fun n => t.sum .child n = t.ofTemplate (.ofNode n))
    (fun ns => (ns.map (t.sum .child)).sum = t.ofTemplates (Template.ofNodes ns))
    ?_ ?_ ?_ ?_ ?_ ?_ ?_ ?_ ?_
  · intro span tag types span₁ attributes span₂ children ih
    exact t.sum_element span tag types span₁ attributes span₂ children ih
  · intro span children ih
    rw [sum_node, positions, zipWith_sum_map, ih]
    simp [here, kept, convertedParts, copiedPaths, Template.ofNode, ofTemplate, hasSlot]
  · intro raw span children
    rw [sum_node]
    simp [here, kept, convertedParts, copiedPaths, Template.ofNode, ofTemplate, hasSlot, positions]
  · intro span span₁ children
    rw [sum_node]
    simp [here, kept, convertedParts, copiedPaths, Template.ofNode, ofTemplate, hasSlot, positions,
      sum_dropped]
  · intro span value hvalue
    have hpositions : positions .child .container [value] = [.value] := by
      unfold positions
      split
      all_goals simp_all
    have hcopied : copiedPaths .child (.node .container span [value]) = dependencies value := by
      unfold copiedPaths
      split
      all_goals simp_all
    rw [Template.ofNode.eq_5 span value hvalue, sum_node, hpositions]
    simp [here, kept, convertedParts, hcopied, ofTemplate, hasSlot, Nat.add_comm]
  · intro span value
    rw [sum_node]
    simp [here, kept, convertedParts, copiedPaths, Template.ofNode, ofTemplate, hasSlot, positions,
      Nat.add_comm]
  · rintro ⟨form, span, children⟩ helement hfragment htext hempty hpart hspread
    have hpositions : positions .child form children = [] := by
      unfold positions
      split
      case h_9 =>
        unfold elementPositions
        split
        · exact (helement _ _ _ _ _ _ _ rfl).elim
        · rfl
      all_goals simp_all
    have hcopied : copiedPaths .child (.node form span children) = [] := by
      unfold copiedPaths
      split
      all_goals simp_all
    have hslot : hasSlot (.node form span children) = false := by
      unfold hasSlot
      split
      · rename_i heq
        exact (helement _ _ _ _ _ _ _ heq).elim
      · rfl
    rw [Template.ofNode.eq_7 _ helement hfragment htext hempty hpart hspread, sum_node, hpositions]
    simp [here, kept, convertedParts, hcopied, hslot, ofTemplate]
  · rfl
  · intro n ns ihfirst ihrest
    rw [List.map_cons, List.sum_cons, ihfirst, ihrest, Template.ofNodes, ofTemplates]

theorem sum_literal {n : Node} (h : n.form.isMarkup = true) :
    t.sum .value n = t.literal n + t.ofTemplate (.ofNode n) := by
  obtain ⟨form, span, children⟩ := n
  have hpositions : positions .value form children = positions .child form children := by
    cases form with
    | element => rfl
    | fragment => rfl
    | _ => cases h
  have hcopied : copiedPaths .child (.node form span children) = [] := by
    cases form with
    | element => rfl
    | fragment => rfl
    | _ => cases h
  rw [← t.sum_child.1, sum_node, sum_node, hpositions]
  simp only [here, kept, convertedParts, hcopied, h, reduceCtorEq]
  simp [copiedPaths, Nat.add_assoc]

mutual

theorem sum_eq_total : (n : Node) → n.literals = [] → t.sum .value n = t.total n
  | .node form span children => by
      intro h
      unfold literals at h
      split at h
      · cases h
      · rename_i hform
        rw [t.sum_value (by simpa using hform), total, sums_eq_totalOfList children h]

theorem sums_eq_totalOfList : (ns : List Node) → literalsOfList ns = [] →
      t.sums ns = t.totalOfList ns
  | [] => fun _ => rfl
  | n :: ns => by
      intro h
      rw [literalsOfList, List.append_eq_nil_iff] at h
      rw [sums_cons, totalOfList, sum_eq_total n h.1, sums_eq_totalOfList ns h.2]

end

/-- Whether a node is neither markup nor a function nor a call. -/
def isPlain : Form → Bool
  | .element => false
  | .fragment => false
  | .arrow _ => false
  | .call _ _ => false
  | _ => true

/-- A tally that nothing made by lowering counts for, closures of literals
and of components apart. -/
structure Fits (t : Tally) (names : List String) : Prop where
  plain : ∀ form children, isPlain form = true → t.own form .synthetic children = 0
  delayed : ∀ value, t.own (.arrow {}) .synthetic (thunk value).children = 0
  arrow : ∀ parameter body, body.form ≠ .body →
    t.own (.arrow {}) .synthetic (Emit.arrow parameter body).children = 0
  closure : ∀ root context items, context ∉ names →
    t.own (.arrow {}) .synthetic (Emit.closure root context items).children = t.closure
  call : ∀ callee arguments, arguments.length ≠ 1 ∨ (∃ helper, callee = Emit.name helper) →
    t.own (.call false false) .synthetic (Emit.call callee arguments).children = 0
  setSlot : ∀ target closure, target ∉ names → t.own (.call false false) .synthetic
    (Emit.call (Emit.member (Emit.name target) "setSlot") [closure]).children + t.closure = t.slot
  /-- What a node counts does not depend on the literals in it. -/
  images : ∀ form span children images, Images children images →
    t.own form span images = t.own form span children

variable {t : Tally} {names : List String}

namespace Fits

theorem sum_made (h : t.Fits names) (form : Form) (hform : isPlain form = true)
    (children : List Node) :
    t.sum .value (.node form .synthetic children) = t.sums children := by
  have hmarkup : form.isMarkup = false := by
    cases form with
    | element => cases hform
    | fragment => cases hform
    | _ => rfl
  rw [t.sum_value hmarkup, h.plain form children hform, Nat.zero_add]

theorem sum_name (h : t.Fits names) (text : String) : t.sum .value (Emit.name text) = 0 :=
  h.sum_made (.reference text) rfl []

theorem sum_string (h : t.Fits names) (text : String) : t.sum .value (Emit.string text) = 0 :=
  h.sum_made (.string text) rfl []

theorem sum_absent (h : t.Fits names) : t.sum .value .absent = 0 :=
  h.sum_made .absent rfl []

theorem sum_binding (h : t.Fits names) (text : String) : t.sum .value (Emit.binding text) = 0 :=
  h.sum_made (.binding text) rfl []

theorem sum_null (h : t.Fits names) : t.sum .value Emit.null = 0 :=
  h.sum_made .nullLiteral rfl []

theorem sum_yes (h : t.Fits names) : t.sum .value Emit.yes = 0 :=
  h.sum_made (.boolean true) rfl []

theorem sum_statement (h : t.Fits names) (value : Node) :
    t.sum .value (Emit.statement value) = t.sum .value value :=
  h.sum_made .expressionStatement rfl [value]

theorem sum_array (h : t.Fits names) (items : List Node) :
    t.sum .value (Emit.array items) = t.sums items :=
  h.sum_made .array rfl items

theorem sum_object (h : t.Fits names) (members : List Node) :
    t.sum .value (Emit.object members) = t.sums members :=
  h.sum_made .object rfl members

theorem sum_spread (h : t.Fits names) (value : Node) :
    t.sum .value (Emit.spread value) = t.sum .value value :=
  h.sum_made .spread rfl [value]

theorem sum_property (h : t.Fits names) (key : String) (value : Node) :
    t.sum .value (Emit.property key value) = t.sum .value value := by
  change t.sum .value (.node (.property {}) .synthetic [Emit.string key, value]) = _
  rw [h.sum_made (.property {}) rfl]
  simp [h.sum_string]

theorem sum_member (h : t.Fits names) (object : Node) (property : String) :
    t.sum .value (Emit.member object property) = t.sum .value object := by
  change t.sum .value
    (.node (.member false) .synthetic [object, .leaf (.label property) .synthetic]) = _
  rw [h.sum_made (.member false) rfl]
  simp [h.sum_made (.label property) rfl]

theorem sum_access (h : t.Fits names) (object : Node) (property : String) :
    t.sum .value (Emit.access object property) = t.sum .value object := by
  unfold Emit.access
  split
  · exact h.sum_member object property
  · rw [Emit.made, h.sum_made (.index false) rfl]
    simp [h.sum_string]

theorem sum_constant (h : t.Fits names) (target : String) (value : Node) :
    t.sum .value (Emit.constant (Emit.binding target) value) = t.sum .value value := by
  rw [Emit.constant, Emit.made, Emit.made, h.sum_made (.variableDeclaration .constVar false) rfl,
    sums_cons, h.sum_made (.declarator false) rfl]
  simp [h.sum_binding, h.sum_absent]

theorem sum_call (h : t.Fits names) {callee : Node} {arguments : List Node}
    (hcall : arguments.length ≠ 1 ∨ ∃ helper, callee = Emit.name helper) :
    t.sum .value (Emit.call callee arguments) = t.sum .value callee + t.sums arguments := by
  have hown := h.call callee arguments hcall
  rw [Emit.call, Emit.made, Node.children] at hown
  rw [Emit.call, Emit.made, t.sum_value rfl, hown]
  simp [h.sum_absent]

theorem sum_parameter (h : t.Fits names) (parameter : String) :
    t.sum .value (Emit.made .parameters
      [Emit.made (.parameter {}) [Emit.binding parameter, .absent, .absent]]) = 0 := by
  rw [Emit.made, Emit.made, h.sum_made .parameters rfl, sums_cons, h.sum_made (.parameter {}) rfl]
  simp [h.sum_binding, h.sum_absent]

theorem sum_arrow (h : t.Fits names) (parameter : String) {body : Node}
    (hbody : body.form ≠ .body) :
    t.sum .value (Emit.arrow parameter body) = t.sum .value body := by
  have hown := h.arrow parameter body hbody
  rw [Emit.arrow, Emit.made, Node.children] at hown
  rw [Emit.arrow, Emit.made, t.sum_value rfl, hown]
  simp [h.sum_absent, h.sum_parameter]

theorem sum_closure (h : t.Fits names) (root : String) {context : String}
    (hcontext : context ∉ names) (items : List Node) :
    t.sum .value (Emit.closure root context items) = t.closure + t.sums items := by
  have hown := h.closure root context items hcontext
  rw [Emit.closure, Emit.arrow, Emit.made, Node.children] at hown
  rw [Emit.closure, Emit.arrow, Emit.made, t.sum_value rfl, hown]
  simp only [sums_cons, sums_nil, h.sum_absent, h.sum_parameter]
  rw [Emit.made, h.sum_made .body rfl]
  simp [h.sum_constant, h.sum_call, h.sum_member, h.sum_name, Emit.made,
    h.sum_made .returnStatement rfl]

theorem sum_thunk (h : t.Fits names) (value : Node) :
    t.sum .value (thunk value) = t.sum .value value := by
  have hown := h.delayed value
  rw [thunk, Node.children] at hown
  rw [thunk, t.sum_value rfl, hown]
  simp [h.sum_absent, h.sum_made .parameters rfl]

theorem sum_reactiveValue (h : t.Fits names) (value : Node) :
    t.sum .value (reactiveValue value).1 = t.sum .value value := by
  rw [reactiveValue_eq]
  split
  · rfl
  · exact h.sum_thunk value

theorem sum_toNode (h : t.Fits names) (value : AttributeValue) {fallback : Node}
    (hfallback : t.sum .value fallback = 0) :
    t.sum .value (value.toNode fallback) = t.ofValue value := by
  cases value with
  | missing => exact hfallback
  | string raw span =>
      rw [AttributeValue.toNode, t.sum_value rfl, sums_nil, ofValue, total, totalOfList]
  | expression value => rfl
  | empty => exact h.sum_null
  | markup value => rfl

end Fits

theorem Fits.sum_reactive (h : t.Fits names) (helper context : String) (subject value : Node) :
    t.sum .value (Emit.call (Emit.name helper)
        [Emit.name context, subject, (reactiveValue value).1, Emit.array (reactiveValue value).2]) =
      t.sum .value subject + t.sum .value value + t.totalOfList (dependencies value) := by
  have hpaths : t.sums (reactiveValue value).2 = t.totalOfList (dependencies value) := by
    rw [← t.sums_eq_totalOfList _ (literalsOfList_dependencies value), reactiveValue_eq]
  rw [h.sum_call (.inr ⟨helper, rfl⟩)]
  simp [h.sum_name, h.sum_reactiveValue, h.sum_array, hpaths, Nat.add_assoc]

end Tally

variable {t : Tally} {names : List String}

theorem LowersDirective.sum_eq {scope : Scope} {target : String} {value call : Node}
    {directive : Directive} {s s' : Session}
    (h : LowersDirective scope target value s directive call s') (ht : t.Fits names) :
    t.sum .value call = t.sum .value value + t.totalOfList (directive.copiedPaths value) := by
  cases h with
  | bind property =>
      have hset : t.sum .value (Emit.arrow "value" (Emit.made (.assignment "=")
          [Emit.access (Emit.name target) property, Emit.name "value"])) = 0 := by
        rw [ht.sum_arrow _ (by simp [Emit.made, Node.form]), Emit.made,
          ht.sum_made (.assignment "=") rfl]
        simp [ht.sum_access, ht.sum_name]
      rw [ht.sum_reactive, hset, Nat.zero_add, Directive.copiedPaths]
  | attr key =>
      have hset :
          t.sum .value
            (Emit.arrow "value" (Emit.call (Emit.member (Emit.name target) "setAttribute")
          [Emit.string key, Emit.name "value"])) = 0 := by
        rw [ht.sum_arrow _ (by simp [Emit.call, Emit.made, Node.form]),
          ht.sum_call (.inl (by simp))]
        simp [ht.sum_member, ht.sum_name, ht.sum_string]
      rw [ht.sum_reactive, hset, Nat.zero_add, Directive.copiedPaths]
  | ref => simp [ht.sum_call, ht.sum_name, Directive.copiedPaths]
  | view => simp [ht.sum_call, ht.sum_name, Directive.copiedPaths]
  | @model _ _ _ _ setState parameter =>
      have hwrite : t.sum .value (Emit.arrow parameter
          (Emit.call (Emit.name setState) [value, Emit.name parameter])) = t.sum .value value := by
        rw [ht.sum_arrow _ (by simp [Emit.call, Emit.made, Node.form]),
          ht.sum_call (.inl (by simp))]
        simp [ht.sum_name]
      simp [ht.sum_call, ht.sum_name, hwrite, Directive.copiedPaths]
  | on event => simp [ht.sum_call, ht.sum_name, ht.sum_string, Directive.copiedPaths]
  | custom name modifier =>
      simp [ht.sum_call, ht.sum_access, ht.sum_name, ht.sum_string, Directive.copiedPaths]

theorem LowersAttributes.sums_eq {scope : Scope} {target : String} {as : List Attribute}
    {lowered : LoweredAttributes} {s s' : Session}
    (h : LowersAttributes scope target s as lowered s') (ht : t.Fits names) :
    t.sums lowered.props + t.sums lowered.directives = t.ofAttributes as := by
  induction h with
  | nil => rfl
  | spread _ ih =>
      simp only [LoweredAttributes.append, Tally.sums_append, Tally.sums_cons, Tally.sums_nil,
        ht.sum_spread, Tally.ofAttributes_cons, Tally.ofAttribute]
      omega
  | compile hkind _ _ ih =>
      simp only [LoweredAttributes.append, Tally.sums_append, Tally.sums_nil,
        Tally.ofAttributes_cons, Tally.ofAttribute, hkind]
      omega
  | directive hkind hcall _ ih =>
      simp only [LoweredAttributes.append, Tally.sums_append, Tally.sums_cons, Tally.sums_nil,
        ht.sum_statement, hcall.sum_eq ht, ht.sum_toNode _ ht.sum_null, Tally.ofAttributes_cons,
        Tally.ofAttribute, hkind]
      omega
  | prop hkind _ ih =>
      simp only [LoweredAttributes.append, Tally.sums_append, Tally.sums_cons, Tally.sums_nil,
        ht.sum_property, ht.sum_toNode _ ht.sum_yes, Tally.ofAttributes_cons, Tally.ofAttribute,
        hkind]
      omega

theorem sums_creation {scope : Scope} {target : String} {as : List Attribute}
    {lowered : LoweredAttributes} {s s' : Session}
    (h : LowersAttributes scope target s as lowered s') (ht : t.Fits names) (helper : String)
    (subject : List Node) :
    t.sums (creation helper target scope subject lowered) = t.sums subject + t.ofAttributes as := by
  have hattributes := h.sums_eq ht
  rw [creation, Tally.sums_cons, ht.sum_constant, ht.sum_call (.inr ⟨helper, rfl⟩)]
  simp only [ht.sum_name, ht.sum_object, Tally.sums_append, Tally.sums_cons, Tally.sums_nil]
  omega

theorem sums_flush (ht : t.Fits names) (helper : String) (scope : Scope) (text : String) :
    t.sums (flush helper scope text) = 0 := by
  unfold flush
  split
  · rfl
  · simp [ht.sum_statement, ht.sum_call, ht.sum_name, ht.sum_string]

theorem sum_slotStatement (ht : t.Fits names) {target : String} (htarget : target ∉ names)
    {slot : Scope} (hcontext : slot.context ∉ names) (items : List Node) :
    t.sum .value (slotStatement target slot items) = t.slot + t.sums items := by
  have hown := ht.setSlot target (Emit.closure slot.anchor slot.context items) htarget
  have hclosure := ht.sum_closure slot.anchor hcontext items
  rw [Emit.call, Emit.made, Node.children] at hown
  rw [slotStatement, ht.sum_statement, Emit.call, Emit.made, t.sum_value rfl]
  simp only [Tally.sums_cons, Tally.sums_nil, ht.sum_member, ht.sum_name, ht.sum_absent, hclosure]
  omega

def Job.sum (t : Tally) : Job → Nat
  | .tree template => t.ofTemplate template
  | .run _ _ templates => t.ofTemplates templates

theorem Session.Grows.subset_used {s s' : Session} (h : s.Grows s') (hnames : names ⊆ s.used) :
    names ⊆ s'.used :=
  fun _ hname => h.mem_used (hnames hname)

theorem Tally.ofTemplate_element {tag : Tag} (htag : tag.isComponent = false)
    (attributes : List Attribute) (children : List Template) :
    t.ofTemplate (.element tag attributes children) =
      t.ofAttributes attributes + t.ofTemplates children := by
  simp [Tally.ofTemplate, htag, Tag.control?_eq_none htag]

theorem Tally.ofTemplate_component {tag : Tag} {component : Node} (htag : tag.isComponent = true)
    (hcontrol : tag.control? = none) (hcomponent : tag.component = .ok component)
    (attributes : List Attribute) (children : List Template) :
    t.ofTemplate (.element tag attributes children) =
      t.sum .value component + t.ofAttributes attributes +
      t.ofTemplates children + if children ≠ [] then t.slot else 0 := by
  obtain ⟨path, rfl, rfl⟩ := Tag.exists_path_of_component htag hcomponent
  rw [t.sum_eq_total _ (literals_of_isPath path.isPath_toNode)]
  simp [Tally.ofTemplate, Tally.ofTag, htag, hcontrol]

theorem Lowers.sums_eq {scope : Scope} {options : TextOptions} {job : Job} {items : List Node}
    {s s' : Session} (h : Lowers s scope options job items s') (ht : t.Fits names) :
    names ⊆ s.used → t.sums items = job.sum t := by
  induction h with
  | leafElement htag _ _ hattributes =>
      intro _
      rw [sums_creation hattributes ht, Job.sum, Tally.ofTemplate_element htag]
      simp [ht.sum_string, Tally.ofTemplates]
  | element htag hhelper htarget hattributes htext _ ih =>
      intro hnames
      have hgrows := (((of_run_require hhelper).1.trans (of_run_fresh htarget).1).trans
        hattributes.grows).trans (of_run_require htext).1
      rw [Tally.sums_append, sums_creation hattributes ht, ih (hgrows.subset_used hnames), Job.sum,
        Job.sum, Tally.ofTemplate_element htag]
      simp [ht.sum_string]
  | @control _ _ _ _ _ _ _ _ _ control _ _ _ _ _ _ hcontrol hconstructor _ _ hattributes =>
      intro _
      rw [sums_creation hattributes ht, Job.sum, Tally.ofTemplate, hcontrol]
      cases control with
      | conditional => exact Nat.zero_add _
      | loop => exact Nat.zero_add _
      | fragment => cases hconstructor
  | splice _ hcontrol _ htext _ ih =>
      intro hnames
      rw [ih ((of_run_require htext).1.subset_used hnames), Job.sum, Job.sum, Tally.ofTemplate,
        hcontrol]
  | leafComponent htag hcontrol hcomponent _ _ hattributes =>
      intro _
      rw [sums_creation hattributes ht, Job.sum,
        Tally.ofTemplate_component htag hcontrol hcomponent]
      simp [Tally.ofTemplates]
  | component htag hcontrol hcomponent hhelper htarget hattributes hanchor hcontext htext _ ih =>
      intro hnames
      have hnames₁ := (of_run_require hhelper).1.subset_used hnames
      have hnames₃ := ((of_run_fresh htarget).1.trans hattributes.grows).subset_used hnames₁
      have hnames₄ := (of_run_fresh hanchor).1.subset_used hnames₃
      have hnames₆ := ((of_run_fresh hcontext).1.trans (of_run_require htext).1).subset_used hnames₄
      have hslot := sum_slotStatement ht (fun hname => (of_run_fresh htarget).2.1 (hnames₁ hname))
        (fun hname => (of_run_fresh hcontext).2.1 (hnames₄ hname))
      rw [Job.sum, Tally.ofTemplate_component htag hcontrol hcomponent, if_pos (by simp)]
      simp only [Tally.sums_append, sums_creation hattributes ht, Tally.sums_cons, Tally.sums_nil,
        hslot, ih hnames₆, Job.sum]
      omega
  | fragment htext _ ih =>
      intro hnames
      rw [ih ((of_run_require htext).1.subset_used hnames), Job.sum, Job.sum, Tally.ofTemplate]
  | part value =>
      intro _
      rw [Tally.sums_cons, Tally.sums_nil, ht.sum_statement, ht.sum_reactive, ht.sum_name,
        Nat.zero_add]
      rfl
  | text => exact fun _ => rfl
  | nothing => exact fun _ => rfl
  | done s scope options helper pending => exact fun _ => sums_flush ht helper scope pending
  | gather _ ih =>
      intro hnames
      rw [ih hnames, Job.sum, Job.sum, Tally.ofTemplates, Tally.ofTemplate, Nat.zero_add]
  | next _ hfirst _ ihfirst ihlater =>
      intro hnames
      have hfirst' := ihfirst hnames
      have hlater := ihlater (hfirst.grows.subset_used hnames)
      rw [Tally.sums_append, Tally.sums_append, sums_flush ht, hfirst', hlater, Nat.zero_add]
      rfl

/-- The closure of a template counts what the template takes from its literal, and itself. -/
theorem sum_of_run_template {template : Template} {closure : Node} {s s' : Session}
    (h : (lowerTemplate template).run s = (.ok closure, s')) (ht : t.Fits names)
    (hnames : names ⊆ s.used) :
    t.sum .value closure = t.closure + t.ofTemplate template := by
  obtain ⟨scope, s₁, s₂, items, trace, hanchor, hcontext, hitems, rfl⟩ := lowers_of_run_template h
  have hnames₁ := (of_run_fresh hanchor).1.subset_used hnames
  have hnames₂ := (of_run_fresh hcontext).1.subset_used hnames₁
  rw [ht.sum_closure _ fun hname => (of_run_fresh hcontext).2.1 (hnames₁ hname),
    hitems.sums_eq ht hnames₂, Job.sum]

/-- A walk without failures changes no sum, apart from what a literal counts
more than its closure. -/
theorem Walks.sums_eq {w w' : Walk} {ns ns' : List Node} (h : Walks w ns ns' w')
    (herrors : w'.errors = []) (ht : t.Fits names) {more : Nat}
    (hliteral : ∀ n, t.literal n = t.closure + more) (hnames : names ⊆ w.session.used) :
    t.sums ns' + more * w'.templates = t.sums ns + more * w.templates := by
  induction h with
  | nil => rfl
  | @inner w w₁ w₂ form children images rest rest' span hform hchildren hrest ihchildren ihrest =>
      have hbefore := hrest.errors_eq_nil herrors
      have hgrows := hchildren.keeps (stable_grows _) (.refl _)
      have hinner := ihchildren hbefore hnames
      have hlater := ihrest herrors (hgrows.subset_used hnames)
      rw [Tally.sums_cons, Tally.sums_cons, t.sum_value hform, t.sum_value hform,
        ht.images form span children images (hchildren.images hbefore)]
      omega
  | @replaced w w₁ w₂ literal closure image rest rest' session hform hrun hclosure hrest ihclosure
      ihrest =>
      have hbefore := hrest.errors_eq_nil herrors
      have hstep := (stable_grows w.session).lowerTemplate (.ofNode literal) w.session (.refl _)
      rw [hrun] at hstep
      have hgrows := hclosure.keeps (stable_grows _) (.refl _)
      have hnames₁ := hstep.subset_used hnames
      have hinner := ihclosure hbefore hnames₁
      have hlater := ihrest herrors (hgrows.subset_used hnames₁)
      have hsum := sum_of_run_template hrun ht hnames
      rw [Tally.sums_cons, Tally.sums_cons, t.sum_literal hform, hliteral]
      simp only [Tally.sums_cons, Tally.sums_nil, Walk.succeed, Nat.mul_add, Nat.mul_one] at hinner
      omega
  | failed _ _ hrest =>
      have hfail := hrest.errors_eq_nil herrors
      simp [Walk.fail] at hfail

theorem sums_declarations (ht : t.Fits names) (s : Session) : t.sums s.declarations = 0 := by
  apply Tally.sums_eq_zero
  intro n hn
  obtain ⟨m, -, rfl⟩ := List.mem_map.mp hn
  have hspecifiers : t.sums (m.symbols.map Imports.specifier) = 0 := by
    apply Tally.sums_eq_zero
    intro n hn
    obtain ⟨e, -, rfl⟩ := List.mem_map.mp hn
    rw [Imports.specifier, Emit.made, ht.sum_made (.importSpecifier false) rfl]
    simp [ht.sum_made (.label e.1) rfl, ht.sum_made (.binding e.2) rfl]
  rw [Imports.declaration, Emit.made, ht.sum_made (.importDeclaration false) rfl]
  simp [Emit.made, ht.sum_made .group rfl, hspecifiers, ht.sum_string, ht.sum_absent]

/-- A program that is transformed without error counts what it counted before, and so much more for
every replaced literal as a literal counts more than its closure. -/
theorem Tally.Fits.sum_finished (ht : t.Fits names) {w w' : Walk} {statements images : List Node}
    (hwalks : Walks w statements images w') (herrors : w'.errors = [])
    (hnames : names ⊆ w.session.used) (more : Nat) (hliteral : ∀ n, t.literal n = t.closure + more)
    (prologue : Prologue) (span : Span) (helper : String) (s : Session)
    (hroot : ∀ children, t.own (.program prologue) span children =
      t.own (.program prologue) span statements) :
    t.total (finished prologue span images helper s) + more * w'.templates =
      t.sum .value (.node (.program prologue) span statements) + more * w.templates := by
  have hsums := hwalks.sums_eq herrors ht hliteral hnames
  have hnone : (finished prologue span images helper s).literals = [] :=
    (hwalks.images herrors).literals_finished prologue span helper s
  have hevents : t.sums (s.events.map Emit.string) = 0 := by
    apply Tally.sums_eq_zero
    intro n hn
    obtain ⟨event, -, rfl⟩ := List.mem_map.mp hn
    exact ht.sum_string event
  have hdelegate : t.sum .value (delegateStatement helper s.events) = 0 := by
    rw [delegateStatement, ht.sum_statement, ht.sum_call (.inr ⟨helper, rfl⟩)]
    simp [ht.sum_name, ht.sum_array, hevents]
  rw [← t.sum_eq_total _ hnone, finished, t.sum_value rfl, t.sum_value rfl, hroot]
  simp only [Tally.sums_append, Tally.sums_cons, Tally.sums_nil, sums_declarations ht, hdelegate]
  omega

end TemplateCompiler
