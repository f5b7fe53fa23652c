import TemplateCompiler.Proofs.Template.Embedding
import TemplateCompiler.Proofs.Template.Instruction

/-!
What a template must not have. Whether a template can be lowered does not depend on the state of the
session: lowering meets the tags, attributes and children of a template in the order in which they
are written, and gives up at the first violation that it reports. A hyphen in a tag that is a path
is a violation that it does not report.
-/

namespace TemplateCompiler

/-- Something that a template must not have, and where it stands. -/
inductive Violation where
  /-- A component tag that is a single word, with a hyphen. -/
  | word (tag : String) (offset : Nat)
  /-- A component tag that is a path, with a hyphen. -/
  | path (tag : String) (offset : Nat)
  /-- An instruction to the compiler that does not exist. -/
  | modifier (name : String) (offset : Nat)
deriving DecidableEq, Repr

namespace Violation

def code : Violation → String
  | word _ _ => Code.element
  | path _ _ => Code.element
  | modifier _ _ => Code.compile

def offset : Violation → Nat
  | word _ offset => offset
  | path _ offset => offset
  | modifier _ offset => offset

def cause : Violation → Cause
  | word tag offset => .unknownElement tag offset
  | path tag offset => .unknownElement tag offset
  | modifier name offset => .unsupportedModifier name offset

/-- Whether lowering looks for such a violation. -/
def isReported : Violation → Bool
  | path _ _ => false
  | _ => true

end Violation

def Tag.violations (tag : Tag) : List Violation :=
  if tag.isComponent && tag.spelling.toList.contains '-' then
    match tag with
    | .path _ => [.path tag.spelling tag.start]
    | _ => [.word tag.spelling tag.start]
  else []

/-- What stands behind `compile:` in the name of an attribute. -/
def compileModifier? (name : String) : Option String :=
  if "compile:".toList.isPrefixOf name.toList then some (String.ofList (name.toList.drop 8))
  else none

def Attribute.violations : Attribute → List Violation
  | .spread _ => []
  | .named name _ start =>
    match compileModifier? name with
    | some modifier => if modifier = "preserveWhitespace" then [] else [.modifier modifier start]
    | none => []

/-- Whether the children of an element with the tag are dropped. -/
def Tag.dropsChildren (tag : Tag) : Bool :=
  tag.control? == some .conditional || tag.control? == some .loop

mutual

/-- The violations in a template: at each element its tag, its attributes, and what is inside it.
Embedded expressions do not belong to it, nor do children that are dropped. -/
def Template.violations : Template → List Violation
  | .element tag attributes children =>
    tag.violations ++ (attributes.flatMap Attribute.violations ++
      if tag.dropsChildren then [] else violationsOfList children)
  | .fragment children => violationsOfList children
  | .part _ => []
  | .text _ => []
  | .nothing => []

def Template.violationsOfList : List Template → List Violation
  | [] => []
  | t :: ts => t.violations ++ violationsOfList ts

end

def firstReported (violations : List Violation) : Option Violation :=
  violations.find? Violation.isReported

/-- What lowering reports is the first violation unless that is a hyphen in a path. -/
theorem firstReported_eq_head?_iff (violations : List Violation) :
    firstReported violations = violations.head? ↔
      ∀ v, violations.head? = some v → v.isReported = true := by
  cases violations with
  | nil => simp [firstReported]
  | cons v vs =>
      simp only [firstReported, List.head?_cons, Option.some.injEq, forall_eq']
      constructor
      · exact List.find?_some
      · intro h
        simp [h]

def cause? {α : Type} : Except Cause α → Option Cause
  | .ok _ => none
  | .error cause => some cause

namespace Lower

variable {α β : Type}

/-- Once a program has been entered, the step fails for the given cause or, if
there is none, succeeds. -/
def Decides (x : Lower α) (verdict : Option Cause) : Prop :=
  ∀ s : Session, s.hasScope = true → (x.run s).2.hasScope = true ∧ cause? (x.run s).1 = verdict

theorem decides_pure (a : α) : Decides (pure a) none := fun _ hs => ⟨hs, rfl⟩

theorem Decides.bind {x : Lower α} {f : α → Lower β} {v v' : Option Cause} (hx : Decides x v)
    (hf : ∀ a, Decides (f a) v') : Decides (x >>= f) (v.or v') := by
  intro s hs
  obtain ⟨hscope, hverdict⟩ := hx s hs
  rw [run_bind]
  rcases hrun : x.run s with ⟨cause | a, s₁⟩
  · rw [hrun] at hscope hverdict
    rw [← hverdict]
    exact ⟨hscope, rfl⟩
  · rw [hrun] at hscope hverdict
    rw [← hverdict]
    exact hf a s₁ hscope

theorem Decides.andThen {x : Lower α} {f : α → Lower β} {v : Option Cause} (hx : Decides x none)
    (hf : ∀ a, Decides (f a) v) : Decides (x >>= f) v :=
  hx.bind hf

theorem Decides.result {x : Lower α} {f : α → Lower β} {v : Option Cause} (hx : Decides x v)
    (hf : ∀ a, Decides (f a) none) : Decides (x >>= f) v := by
  have hboth := hx.bind hf
  rwa [Option.or_none] at hboth

theorem decides_check (result : Except Cause α) : Decides (check result) (cause? result) := by
  intro s hs
  cases result with
  | ok a => exact ⟨hs, rfl⟩
  | error cause => exact ⟨hs, rfl⟩

theorem decides_fresh (base : String) : Decides (fresh base) none := by
  intro s hs
  rw [run_fresh]
  cases hnames : s.names with
  | none => simp [Session.hasScope, hnames] at hs
  | some names => exact ⟨rfl, rfl⟩

theorem decides_require (symbol : String) : Decides (require symbol) none := by
  intro s hs
  rw [run_require]
  cases hnames : s.names with
  | none => simp [Session.hasScope, hnames] at hs
  | some names => exact ⟨rfl, rfl⟩

theorem decides_listen (event : String) : Decides (listen event) none := fun _ hs => ⟨hs, rfl⟩

theorem decides_note (line : String) : Decides (note line) none := fun _ hs => ⟨hs, rfl⟩

end Lower

open Lower

/-- The cause for which lowering fails at the given violations. -/
def verdict (violations : List Violation) : Option Cause :=
  (firstReported violations).map Violation.cause

theorem verdict_append (vs vs' : List Violation) :
    verdict (vs ++ vs') = (verdict vs).or (verdict vs') := by
  simp [verdict, firstReported, List.find?_append, Option.map_or]

theorem compileModifier?_eq_some_iff {name modifier : String} :
    compileModifier? name = some modifier ↔ name = "compile:" ++ modifier := by
  unfold compileModifier?
  constructor
  · intro h
    split at h
    · rename_i hword
      obtain ⟨rest, hrest⟩ := List.isPrefixOf_iff_prefix.mp hword
      cases h
      apply String.toList_injective
      rw [← hrest]
      simp
    · cases h
  · rintro rfl
    simp

theorem compileModifier?_eq_none {name : String}
    (h : ∀ modifier, AttributeKind.ofName name ≠ .compile modifier) :
    compileModifier? name = none := by
  cases hmodifier : compileModifier? name with
  | none => rfl
  | some modifier =>
      exact absurd (AttributeKind.ofName_eq_compile_iff.mpr
        (compileModifier?_eq_some_iff.mp hmodifier))
        (h modifier)

theorem cause?_compileInstruction (modifier : String) (value : AttributeValue) (start : Nat) :
    cause? (compileInstruction modifier value start) =
      verdict (if modifier = "preserveWhitespace" then [] else [.modifier modifier start]) := by
  unfold compileInstruction
  by_cases hmodifier : modifier = "preserveWhitespace"
  · simp [hmodifier, cause?, verdict, firstReported]
  · simp [hmodifier, cause?, verdict, firstReported, Violation.isReported, Violation.cause]

theorem decides_lowerDirective (scope : Scope) (target : String) (value : Node)
    (directive : Directive) : Decides (lowerDirective scope target value directive) none := by
  cases directive with
  | bind property => exact (decides_require _).andThen fun _ => decides_pure _
  | attr key => exact (decides_require _).andThen fun _ => decides_pure _
  | ref => exact (decides_require _).andThen fun _ => decides_pure _
  | view => exact (decides_require _).andThen fun _ => decides_pure _
  | model =>
      refine (decides_require _).andThen fun _ => ?_
      refine (decides_require _).andThen fun _ => ?_
      exact (decides_fresh _).andThen fun _ => decides_pure _
  | on event =>
      refine (decides_require _).andThen fun _ => ?_
      exact (decides_listen event).andThen fun _ => decides_pure _
  | custom name modifier => exact (decides_require _).andThen fun _ => decides_pure _

theorem decides_lowerAttribute (scope : Scope) (target : String) (a : Attribute) :
    Decides (lowerAttribute scope target a) (verdict a.violations) := by
  cases a with
  | spread value => exact decides_pure _
  | named name value start =>
      simp only [lowerAttribute, Attribute.violations]
      cases hkind : AttributeKind.ofName name with
      | compile modifier =>
          rw [compileModifier?_eq_some_iff.mpr (AttributeKind.ofName_eq_compile_iff.mp hkind)]
          have hcheck := decides_check (compileInstruction modifier value start)
          rw [cause?_compileInstruction] at hcheck
          exact hcheck.result fun _ => decides_pure _
      | directive directive =>
          rw [compileModifier?_eq_none (by simp [hkind])]
          exact (decides_lowerDirective scope target _ directive).andThen fun _ => decides_pure _
      | prop =>
          rw [compileModifier?_eq_none (by simp [hkind])]
          exact decides_pure _

theorem decides_lowerAttributes (scope : Scope) (target : String) (as : List Attribute) :
    Decides (lowerAttributes scope target as) (verdict (as.flatMap Attribute.violations)) := by
  induction as with
  | nil => exact decides_pure _
  | cons a as ih =>
      rw [List.flatMap_cons, verdict_append]
      exact (decides_lowerAttribute scope target a).bind fun _ => ih.result fun _ => decides_pure _

theorem cause?_instructions (as : List Attribute) :
    cause? (instructions as) = verdict (as.flatMap Attribute.violations) := by
  induction as with
  | nil => rfl
  | cons a as ih =>
      rw [List.flatMap_cons, verdict_append, ← ih]
      cases a with
      | spread value => rfl
      | named name value start =>
          simp only [instructions, Attribute.violations]
          cases hkind : AttributeKind.ofName name with
          | compile modifier =>
              rw [compileModifier?_eq_some_iff.mpr (AttributeKind.ofName_eq_compile_iff.mp hkind)]
              simp only [← cause?_compileInstruction modifier value start]
              cases compileInstruction modifier value start with
              | error cause => rfl
              | ok first =>
                  cases instructions as with
                  | error cause => rfl
                  | ok rest => rfl
          | directive directive =>
              rw [compileModifier?_eq_none (by simp [hkind])]
              rfl
          | prop =>
              rw [compileModifier?_eq_none (by simp [hkind])]
              rfl

theorem Tag.violations_of_control? {tag : Tag} {control : ControlTag}
    (h : tag.control? = some control) : tag.violations = [] := by
  have hhyphen : control.spelling.toList.contains '-' = false := by
    cases control with
    | conditional => decide
    | loop => decide
    | fragment => decide
  simp only [Tag.violations, Tag.control?_eq_some_iff.mp h, hhyphen, Bool.and_false]
  rfl

theorem Tag.violations_of_not_isComponent {tag : Tag} (h : tag.isComponent = false) :
    tag.violations = [] := by
  simp [Tag.violations, h]

theorem Tag.dropsChildren_of_not_isComponent {tag : Tag} (h : tag.isComponent = false) :
    tag.dropsChildren = false := by
  simp [Tag.dropsChildren, Tag.control?_eq_none h]

theorem Tag.cause?_component {tag : Tag} (h : tag.isComponent = true) :
    cause? tag.component = verdict tag.violations := by
  cases tag with
  | plain tag span =>
      have hhyphen := PlainTag.hyphen_mem h
      have hcontains : (Tag.plain tag span).spelling.toList.contains '-' = true := by
        simpa [Tag.spelling, PlainTag.text, Word.text] using hhyphen
      simp only [Tag.violations, h, hcontains, Bool.and_self, if_true]
      simp [Tag.component, Text.isName_eq_false_of_mem hhyphen, cause?, verdict, firstReported,
        Violation.isReported, Violation.cause]
  | namespaced space name span => cases h
  | path p =>
      have hverdict : verdict (Tag.path p).violations = none := by
        simp only [Tag.violations]
        split
        · rfl
        · rfl
      rw [hverdict]
      cases p with
      | reference name span => rfl
      | this span => cases h
      | member object property propertySpan span => rfl

mutual

theorem decides_lowerTree (scope : Scope) (options : TextOptions) :
    (t : Template) → Decides (lowerTree scope options t) (verdict t.violations)
  | .element tag attributes children => by
      unfold lowerTree
      rw [Template.violations, verdict_append, verdict_append]
      split
      · rename_i htag
        simp only [Bool.not_eq_true'] at htag
        rw [Tag.violations_of_not_isComponent htag, Tag.dropsChildren_of_not_isComponent htag]
        refine (decides_require _).andThen fun helper => ?_
        refine (decides_fresh _).andThen fun target => ?_
        refine (decides_lowerAttributes scope target attributes).bind fun lowered => ?_
        cases children with
        | nil => exact decides_pure _
        | cons child children =>
            refine (decides_require _).andThen fun text => ?_
            exact (decides_lowerRun _ _ text "" (child :: children)).result fun _ => decides_pure _
      · rename_i htag
        simp only [Bool.not_eq_true', Bool.not_eq_false] at htag
        split
        · rename_i control hcontrol
          rw [Tag.violations_of_control? hcontrol]
          simp only [Tag.dropsChildren, hcontrol]
          cases control with
          | conditional | loop =>
              refine (decides_require _).andThen fun helper => ?_
              refine (decides_fresh _).andThen fun target => ?_
              exact (decides_lowerAttributes scope target attributes).bind fun _ => decides_pure _
          | fragment =>
              have hown := decides_check (instructions attributes)
              rw [cause?_instructions] at hown
              refine hown.bind fun own => ?_
              refine (decides_require _).andThen fun text => ?_
              exact decides_lowerRun scope _ text "" children
        · rename_i hcontrol
          simp only [Tag.dropsChildren, hcontrol]
          have hcomponent := decides_check tag.component
          rw [Tag.cause?_component htag] at hcomponent
          refine hcomponent.bind fun component => ?_
          refine (decides_require _).andThen fun helper => ?_
          refine (decides_fresh _).andThen fun target => ?_
          refine (decides_lowerAttributes scope target attributes).bind fun lowered => ?_
          cases children with
          | nil => exact decides_pure _
          | cons child children =>
              refine ((decides_fresh _).andThen fun _ => (decides_fresh _).andThen fun _ =>
                decides_pure _).andThen fun slot => ?_
              refine (decides_require _).andThen fun text => ?_
              exact (decides_lowerRun slot _ text "" (child :: children)).result fun _ =>
                decides_pure _
  | .fragment children => by
      unfold lowerTree
      rw [Template.violations]
      exact (decides_require _).andThen fun text => decides_lowerRun scope options text "" children
  | .part value => by
      unfold lowerTree
      exact (decides_require _).andThen fun _ => decides_pure _
  | .text _ => by
      unfold lowerTree
      exact decides_pure _
  | .nothing => by
      unfold lowerTree
      exact decides_pure _

theorem decides_lowerRun (scope : Scope) (options : TextOptions) (helper pending : String) :
    (ts : List Template) →
      Decides (lowerRun scope options helper pending ts) (verdict (Template.violationsOfList ts))
  | [] => by
      unfold lowerRun
      exact decides_pure _
  | t :: ts => by
      unfold lowerRun
      rw [Template.violationsOfList, verdict_append]
      split
      · rename_i heq
        cases heq
      · rename_i raw rest heq
        cases heq
        exact decides_lowerRun scope options helper _ ts
      · rename_i t' rest _ heq
        cases heq
        refine (decides_lowerTree scope options t).bind fun first => ?_
        exact (decides_lowerRun scope options helper "" ts).result fun _ => decides_pure _

end

/-- In every session that has entered a program, a template fails for its first reported violation
and for no other cause. -/
theorem decides_lowerTemplate (t : Template) :
    Decides (lowerTemplate t) (verdict t.violations) := by
  unfold lowerTemplate
  refine ((decides_fresh _).andThen fun _ => (decides_fresh _).andThen fun _ =>
    decides_pure _).andThen fun scope => ?_
  split
  · refine (decides_note _).andThen fun _ => ?_
    exact (decides_lowerTree scope .root _).result fun _ => decides_pure _
  · exact (decides_lowerTree scope .root t).result fun _ => decides_pure _

end TemplateCompiler
