import Mathlib.Data.List.TakeWhile
import TemplateCompiler.Proofs.Template.Derivation
import TemplateCompiler.Proofs.Template.Runtime

namespace TemplateCompiler

open Node

mutual

theorem isPath_of_mem_dependencies : (n : Node) → ∀ p ∈ dependencies n, isPath p = true
  | .node f span cs => by
      intro p hp
      rw [dependencies, List.mem_append] at hp
      rcases hp with hread | hinner
      · unfold readPath? at hread
        split at hread
        · split at hread
          · rename_i hpath
            simp only [Option.toList_some, List.mem_singleton] at hread
            rwa [hread]
          · simp at hread
        · simp at hread
      · exact isPath_of_mem_dependenciesOfList cs p hinner

theorem isPath_of_mem_dependenciesOfList :
    (ns : List Node) → ∀ p ∈ dependenciesOfList ns, isPath p = true
  | [] => by simp [dependenciesOfList]
  | n :: ns => by
      intro p hp
      rw [dependenciesOfList, List.mem_append] at hp
      rcases hp with hfirst | hrest
      · exact isPath_of_mem_dependencies n p hfirst
      · exact isPath_of_mem_dependenciesOfList ns p hrest

end

theorem reactiveValue_eq (value : Node) :
    reactiveValue value =
      (if dependencies value = [] then value else thunk value, dependencies value) := by
  unfold reactiveValue
  split
  · rename_i hnone
    simp [hnone]
  · rename_i hsome
    rw [if_neg hsome]

theorem Text.isName_eq_false_of_mem {cs : List Char} (h : '-' ∈ cs) : Text.isName cs = false := by
  cases cs with
  | nil => rfl
  | cons c cs =>
      rcases List.mem_cons.mp h with rfl | hrest
      · rfl
      · have hall : cs.all Text.isNamePart = false := by
          rw [List.all_eq_false]
          exact ⟨'-', hrest, by decide⟩
        rw [Text.isName, hall, Bool.and_false]

theorem PlainTag.isComponentName_text (tag : PlainTag) :
    isComponentName tag.text =
      (!tag.word.chars.contains ':' && tag.word.chars.head?.any Char.isUpper) := by
  obtain ⟨⟨chars, hpoint⟩, _⟩ := tag
  have hall : chars.reverse.takeWhile (· != '.') = chars.reverse := by
    apply List.takeWhile_eq_self_iff.mpr
    intro c hc
    simp only [bne_iff_ne, ne_eq]
    rintro rfl
    exact hpoint (List.mem_reverse.mp hc)
  unfold isComponentName PlainTag.text Word.text
  simp only [String.toList_ofList, hall, List.reverse_reverse]
  cases chars with
  | nil => simp
  | cons c cs => simp

/-- Only a hyphen keeps a capitalized word from being a variable. -/
theorem PlainTag.hyphen_mem {tag : PlainTag} (h : isComponentName tag.text = true) :
    '-' ∈ tag.word.chars := by
  have hreference := tag.notReference
  rw [PlainTag.isComponentName_text, Bool.and_eq_true] at h
  unfold Word.isReference at hreference
  cases hchars : tag.word.chars with
  | nil => simp [hchars] at h
  | cons c cs =>
      simp only [hchars, List.head?_cons, Option.any_some] at h hreference
      have hsmall : ('a' ≤ c && c ≤ 'z') = false := by
        have hupper : c.val ≥ 'A'.val ∧ c.val ≤ 'Z'.val := of_decide_eq_true h.2
        simp only [Bool.and_eq_false_iff, decide_eq_false_iff_not]
        left
        intro hle
        exact absurd (UInt32.le_trans hle hupper.2) (by decide)
      simp only [hsmall, Bool.not_false, Bool.true_and, Bool.not_eq_false'] at hreference
      exact List.contains_iff_mem.mp hreference

theorem Tag.exists_path_of_component {tag : Tag} {n : Node} (htag : tag.isComponent = true)
    (h : tag.component = .ok n) : ∃ p, tag = .path p ∧ n = p.toNode := by
  cases tag with
  | plain tag span =>
      have hname := Text.isName_eq_false_of_mem (PlainTag.hyphen_mem htag)
      simp [Tag.component, hname] at h
  | namespaced space name span => cases htag
  | path p =>
      cases p with
      | reference name span =>
          cases h
          exact ⟨_, rfl, rfl⟩
      | this span => cases h
      | member object property propertySpan span =>
          cases h
          exact ⟨_, rfl, rfl⟩

theorem TagPath.isPath_toNode (path : TagPath) : isPath path.toNode = true := by
  induction path with
  | reference name span => rfl
  | this span => rfl
  | member object property propertySpan span ih => simpa [TagPath.toNode, isPath] using ih

theorem Tag.isPath_component {tag : Tag} {n : Node} (htag : tag.isComponent = true)
    (h : tag.component = .ok n) : isPath n = true := by
  obtain ⟨path, -, rfl⟩ := Tag.exists_path_of_component htag h
  exact path.isPath_toNode

theorem Tag.isComponent_of_control? {tag : Tag} {control : ControlTag}
    (h : tag.control? = some control) : tag.isComponent = true := by
  have hspelling := Tag.control?_eq_some_iff.mp h
  have hname : isComponentName control.spelling = true := by
    cases control with
    | conditional => decide
    | loop => decide
    | fragment => decide
  rw [← hspelling] at hname
  cases tag with
  | plain tag span => exact hname
  | namespaced space name span => cases h
  | path p =>
      cases p with
      | reference name span => exact hname
      | this span => cases h
      | member object property propertySpan span => cases h

theorem Tag.control?_eq_none {tag : Tag} (h : tag.isComponent = false) : tag.control? = none := by
  cases hcontrol : tag.control? with
  | none => rfl
  | some control => simp [Tag.isComponent_of_control? hcontrol] at h

/-- The expression that is written as an attribute's value. -/
def AttributeValue.embedded : AttributeValue → List Node
  | .expression value => [value]
  | .markup value => [value]
  | _ => []

/-- The expressions written in an attribute, whatever its name makes of them. -/
def Attribute.embedded : Attribute → List Node
  | .spread value => [value]
  | .named _ value _ => value.embedded

/-- The expressions among the attributes that become properties. -/
def propExpressions : List Attribute → List Node
  | [] => []
  | .spread value :: as => value :: propExpressions as
  | .named name value _ :: as =>
    match AttributeKind.ofName name with
    | .prop => value.embedded ++ propExpressions as
    | _ => propExpressions as

/-- The expressions among the attributes that are directives. -/
def directiveExpressions : List Attribute → List Node
  | [] => []
  | .spread _ :: as => directiveExpressions as
  | .named name value _ :: as =>
    match AttributeKind.ofName name with
    | .directive _ => value.embedded ++ directiveExpressions as
    | _ => directiveExpressions as

mutual

/-- The expressions embedded in a template, in the order in which its closure evaluates them: for
each tag its properties, its directives, and what is inside it. -/
def Template.embedded : Template → List Node
  | .element tag attributes children =>
    let own := propExpressions attributes ++ directiveExpressions attributes
    if tag.isComponent then
      match tag.control? with
      | some .fragment => embeddedOfList children
      | some _ => own
      | none => own ++ embeddedOfList children
    else own ++ embeddedOfList children
  | .fragment children => embeddedOfList children
  | .part value => [value]
  | .text _ => []
  | .nothing => []

def Template.embeddedOfList : List Template → List Node
  | [] => []
  | t :: ts => t.embedded ++ embeddedOfList ts

end

/-- Every expression among the attributes has a property. -/
def AttributesWritten (P : Node → Prop) (as : List Attribute) : Prop :=
  ∀ a ∈ as, ∀ n ∈ a.embedded, P n

/-- So has the expression that a component tag is. -/
def Tag.Written (P : Node → Prop) (tag : Tag) : Prop :=
  tag.isComponent = true → ∀ n, tag.component = .ok n → P n

mutual

/-- Every expression of a template has a property. -/
def Template.Written (P : Node → Prop) : Template → Prop
  | .element tag attributes children =>
    tag.Written P ∧ AttributesWritten P attributes ∧ WrittenList P children
  | .fragment children => WrittenList P children
  | .part value => P value
  | .text _ => True
  | .nothing => True

def Template.WrittenList (P : Node → Prop) : List Template → Prop
  | [] => True
  | t :: ts => t.Written P ∧ WrittenList P ts

end

mutual

theorem Template.written_of_forall {P : Node → Prop} (h : ∀ n, P n) : (t : Template) → t.Written P
  | .element _ _ children =>
    ⟨fun _ n _ => h n, fun _ _ n _ => h n, writtenList_of_forall h children⟩
  | .fragment children => writtenList_of_forall h children
  | .part value => h value
  | .text _ => trivial
  | .nothing => trivial

theorem Template.writtenList_of_forall {P : Node → Prop} (h : ∀ n, P n) :
    (ts : List Template) → Template.WrittenList P ts
  | [] => trivial
  | t :: ts => ⟨written_of_forall h t, writtenList_of_forall h ts⟩

end

theorem AttributesWritten.expressions {P : Node → Prop} {as : List Attribute}
    (h : AttributesWritten P as) :
    (∀ n ∈ propExpressions as, P n) ∧ ∀ n ∈ directiveExpressions as, P n := by
  induction as with
  | nil => simp [propExpressions, directiveExpressions]
  | cons a as ih =>
      obtain ⟨ha, has⟩ := List.forall_mem_cons.mp h
      obtain ⟨hprops, hdirectives⟩ := ih has
      cases a with
      | spread value =>
          refine ⟨List.forall_mem_cons.mpr ⟨?_, hprops⟩, hdirectives⟩
          exact ha value (List.mem_singleton_self value)
      | named name value start =>
          unfold propExpressions directiveExpressions
          constructor
          · split
            · exact List.forall_mem_append.mpr ⟨ha, hprops⟩
            · exact hprops
          · split
            · exact List.forall_mem_append.mpr ⟨ha, hdirectives⟩
            · exact hdirectives

mutual

theorem Template.of_mem_embedded {P : Node → Prop} :
    (t : Template) → t.Written P → ∀ n ∈ t.embedded, P n
  | .element tag attributes children => by
      rintro ⟨-, has, hchildren⟩
      obtain ⟨hprops, hdirectives⟩ := AttributesWritten.expressions has
      have hown := List.forall_mem_append.mpr ⟨hprops, hdirectives⟩
      have hinner := of_mem_embeddedOfList children hchildren
      unfold Template.embedded
      split
      · split
        · exact hinner
        · exact hown
        · exact List.forall_mem_append.mpr ⟨hown, hinner⟩
      · exact List.forall_mem_append.mpr ⟨hown, hinner⟩
  | .fragment children => of_mem_embeddedOfList children
  | .part value => fun h => List.forall_mem_singleton.mpr h
  | .text _ => fun _ => List.forall_mem_nil _
  | .nothing => fun _ => List.forall_mem_nil _

theorem Template.of_mem_embeddedOfList {P : Node → Prop} :
    (ts : List Template) → WrittenList P ts → ∀ n ∈ embeddedOfList ts, P n
  | [] => fun _ => List.forall_mem_nil _
  | t :: ts => by
      rintro ⟨ht, hts⟩
      exact List.forall_mem_append.mpr ⟨of_mem_embedded t ht, of_mem_embeddedOfList ts hts⟩

end

end TemplateCompiler
