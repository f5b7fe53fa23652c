import TemplateCompiler.Printer.Program
import TemplateCompiler.Proofs.Syntax.Descent

/-!
What the printer marks. A mark points to an end of a span in the printed tree, and a span that is
empty leaves none. So let the ends of the spans of a tree, those of the empty ones left aside, have
a property: then no mark without it is made while the tree is printed. Every step of printing leaves
the marks without the property as they were, which is stated as an equation so that the steps of a
function can be taken one after the other by rewriting.
-/

namespace TemplateCompiler

open Node

/-- Both ends of a span have a property, unless the span is empty. -/
def Span.EndsIn (P : Nat → Bool) (s : Span) : Prop :=
  s.isEmpty = false → P s.start = true ∧ P s.stop = true

@[simp] theorem Span.endsIn_synthetic {P : Nat → Bool} : Span.EndsIn P .synthetic := by
  simp [EndsIn]

namespace Node

variable {P : Nat → Bool} {n : Node} {ns : List Node}

/-- So do the ends of all spans in a tree. -/
def EndsIn (P : Nat → Bool) (n : Node) : Prop := ∀ m ∈ n.nodes, m.span.EndsIn P

def EndsInAll (P : Nat → Bool) (ns : List Node) : Prop := ∀ m ∈ nodesOfList ns, m.span.EndsIn P

@[simp] theorem endsIn_node {form : Form} {span : Span} {children : List Node} :
    (node form span children).EndsIn P ↔ span.EndsIn P ∧ EndsInAll P children := by
  rw [EndsIn, nodes, List.forall_mem_cons]
  rfl

@[simp] theorem endsInAll_nil : EndsInAll P [] := by
  simp [EndsInAll, nodesOfList]

@[simp] theorem endsInAll_cons : EndsInAll P (n :: ns) ↔ n.EndsIn P ∧ EndsInAll P ns := by
  rw [EndsInAll, nodesOfList, List.forall_mem_append]
  rfl

theorem endsInAll_iff : EndsInAll P ns ↔ ∀ n ∈ ns, n.EndsIn P := by
  induction ns with
  | nil => simp
  | cons n ns ih => simp [ih]

theorem EndsInAll.of_subset {ns' : List Node} (h : EndsInAll P ns) (hsub : ns' ⊆ ns) :
    EndsInAll P ns' := by
  rw [endsInAll_iff] at h ⊢
  exact fun n hn => h n (hsub hn)

@[simp] theorem EndsIn.span (h : n.EndsIn P) : n.span.EndsIn P := by
  obtain ⟨form, span, children⟩ := n
  exact (endsIn_node.mp h).1

@[simp] theorem EndsIn.children (h : n.EndsIn P) : EndsInAll P n.children := by
  obtain ⟨form, span, children⟩ := n
  exact (endsIn_node.mp h).2

theorem EndsIn.withoutParentheses (h : n.EndsIn P) : n.withoutParentheses.EndsIn P := by
  fun_induction Node.withoutParentheses n with
  | case1 span inner ih => exact ih (endsInAll_cons.mp (endsIn_node.mp h).2).1
  | case2 => exact h

end Node

namespace Printer

namespace Output

/-- The marks that point to offsets without a property. -/
def strays (P : Nat → Bool) (o : Output) : List Mark := o.marks.filter fun m => !P m.offset

def after {α : Type} (o : Output) (p : PrintM α) : Output := (p.run o).2

end Output

open Printer.Output

section

variable {P : Nat → Bool} {o : Output} {α : Type}

-- The proofs are in parentheses so that these are used as rewriting rules and
-- not unfolded by the kernel.
@[simp] theorem after_pure (a : α) : o.after (pure a) = o := (rfl)

@[simp] theorem after_bind (p : PrintM Unit) (f : Unit → PrintM α) :
    o.after (p >>= f) = (o.after p).after (f ()) :=
  (rfl)

@[simp] theorem after_get_bind (f : Output → PrintM α) : o.after (get >>= f) = o.after (f o) :=
  (rfl)

@[simp] theorem strays_ite {c : Prop} [Decidable c] (p q : PrintM α) :
    (o.after (if c then p else q)).strays P =
      if c then (o.after p).strays P else (o.after q).strays P := by
  split
  · rfl
  · rfl

@[simp] theorem strays_modify {f : Output → Output} (h : ∀ o, (f o).marks = o.marks) :
    (o.after (modify f)).strays P = o.strays P := by
  change (f o).strays P = o.strays P
  rw [strays, h, strays]

@[simp] theorem strays_putChars (cs : List Char) :
    (o.after (putChars cs)).strays P = o.strays P := by
  apply strays_modify
  intro o
  induction cs generalizing o with
  | nil => rfl
  | cons c cs ih => exact ih (o.push c)

@[simp] theorem strays_put (text : String) : (o.after (put text)).strays P = o.strays P :=
  strays_putChars text.toList

theorem strays_markAt {offset : Nat} (h : P offset = true) :
    (o.after (markAt offset)).strays P = o.strays P := by
  change Output.strays P (if _ then o else _) = o.strays P
  split
  · rfl
  · simp [strays, h]

@[simp] theorem strays_mark {span : Span} (h : span.EndsIn P) :
    (o.after (mark span)).strays P = o.strays P := by
  cases hempty : span.isEmpty with
  | true => simp [mark, hempty]
  | false => simp [mark, hempty, strays_markAt (h hempty).1]

@[simp] theorem strays_markEnd {span : Span} (h : span.EndsIn P) :
    (o.after (markEnd span)).strays P = o.strays P := by
  cases hempty : span.isEmpty with
  | true => simp [markEnd, hempty]
  | false => simp [markEnd, hempty, strays_markAt (h hempty).2]

@[simp] theorem strays_indent : (o.after indent).strays P = o.strays P := by
  simp [indent]

@[simp] theorem strays_spaceBeforeWord : (o.after spaceBeforeWord).strays P = o.strays P := by
  simp [spaceBeforeWord]

@[simp] theorem strays_wrap {isNeeded : Bool} {p : PrintM Unit}
    (h : ∀ o : Output, (o.after p).strays P = o.strays P) :
    (o.after (wrap isNeeded p)).strays P = o.strays P := by
  simp [wrap, h]

theorem strays_commaList {item : α → PrintM Unit} {as : List α}
    (h : ∀ a ∈ as, ∀ o : Output, (o.after (item a)).strays P = o.strays P) :
    (o.after (commaList item as)).strays P = o.strays P := by
  fun_induction commaList item as generalizing o with
  | case1 => simp
  | case2 a => exact h a (by simp) o
  | case3 a as _ ih =>
      obtain ⟨ha, has⟩ := List.forall_mem_cons.mp h
      simp [ih has, ha]

theorem strays_each {item : α → PrintM Unit} {as : List α}
    (h : ∀ a ∈ as, ∀ o : Output, (o.after (item a)).strays P = o.strays P) :
    (o.after (each item as)).strays P = o.strays P := by
  induction as generalizing o with
  | nil => simp [each]
  | cons a as ih =>
      obtain ⟨ha, has⟩ := List.forall_mem_cons.mp h
      simp [each, ih has, ha]

@[simp] theorem strays_braces {span : Span} {isEmpty : Bool} {content : PrintM Unit}
    (hspan : span.EndsIn P) (h : ∀ o : Output, (o.after content).strays P = o.strays P) :
    (o.after (braces span isEmpty content)).strays P = o.strays P := by
  simp [braces, deeper, shallower, hspan, h]

end

/-- A way to print parts that makes marks with a property only, where the ends of spans have it. -/
def Print.Marks (P : Nat → Bool) (print : Print) : Prop :=
  ∀ (style : Style) (n : Node) (o : Output), n.EndsIn P →
    (o.after (print style n)).strays P = o.strays P

section

variable {P : Nat → Bool} {print : Print} (hprint : print.Marks P) {o : Output} {n : Node}
  {ns : List Node}

include hprint

theorem Print.Marks.part (h : n.EndsIn P) {style : Style} :
    (o.after (print style n)).strays P = o.strays P :=
  hprint style n o h

@[simp] theorem strays_plain (h : n.EndsIn P) : (o.after (print.plain n)).strays P = o.strays P :=
  hprint.part h

@[simp] theorem strays_item (h : n.EndsIn P) : (o.after (print.item n)).strays P = o.strays P :=
  hprint.part h

@[simp] theorem strays_optional {before : String} (h : n.EndsIn P) :
    (o.after (print.optional before n)).strays P = o.strays P := by
  simp [Print.optional, hprint, h]

@[simp] theorem strays_statement (h : n.EndsIn P) :
    (o.after (print.statement n)).strays P = o.strays P := by
  simp [Print.statement, endStatement, newline, hprint, h]

theorem strays_parts {style : Style} (h : EndsInAll P ns) :
    (o.after (commaList (print style) ns)).strays P = o.strays P :=
  strays_commaList fun n hn _ => hprint.part (endsInAll_iff.mp h n hn)

@[simp] theorem strays_plains (h : EndsInAll P ns) :
    (o.after (commaList print.plain ns)).strays P = o.strays P :=
  strays_parts hprint h

@[simp] theorem strays_items (h : EndsInAll P ns) :
    (o.after (commaList print.item ns)).strays P = o.strays P :=
  strays_parts hprint h

@[simp] theorem strays_statements (h : EndsInAll P ns) :
    (o.after (each print.statement ns)).strays P = o.strays P :=
  strays_each fun n hn _ => strays_statement hprint (endsInAll_iff.mp h n hn)

end

section

variable {P : Nat → Bool} {print : Print} (hprint : print.Marks P) {o : Output} {span : Span}
  {n : Node} {ns : List Node}

@[simp] theorem strays_printString {value : String} (hspan : span.EndsIn P) :
    (o.after (printString value span)).strays P = o.strays P := by
  simp [printString, hspan]

include hprint

@[simp] theorem strays_printChunks (h : EndsInAll P ns) :
    (o.after (printChunks print ns)).strays P = o.strays P := by
  fun_induction printChunks print ns generalizing o with
  | case1 value raw span children rest ih =>
      simp only [endsInAll_cons, endsIn_node] at h
      simp [hprint, h, ih]
  | case2 => simp

@[simp] theorem strays_printTemplate (hspan : span.EndsIn P) (h : EndsInAll P ns) :
    (o.after (printTemplate print span ns)).strays P = o.strays P := by
  unfold printTemplate
  split
  · simp only [endsInAll_cons] at h
    simp [hprint, hspan, h]
  · simp [hspan]

@[simp] theorem strays_printElements {isTall isFirst : Bool} (h : EndsInAll P ns) :
    (o.after (printElements print isTall isFirst ns)).strays P = o.strays P := by
  induction ns generalizing isFirst o with
  | nil => simp [printElements]
  | cons n ns ih =>
      obtain ⟨hn, hns⟩ := endsInAll_cons.mp h
      simp [printElements, newline, hprint, hn, ih hns]

@[simp] theorem strays_printMembers {isTall isFirst : Bool} (h : EndsInAll P ns) :
    (o.after (printMembers print isTall isFirst ns)).strays P = o.strays P := by
  induction ns generalizing isFirst o with
  | nil => simp [printMembers]
  | cons n ns ih =>
      obtain ⟨hn, hns⟩ := endsInAll_cons.mp h
      simp [printMembers, newline, hprint, hn, ih hns]

@[simp] theorem strays_printPatternElements (h : EndsInAll P ns) :
    (o.after (printPatternElements print ns)).strays P = o.strays P := by
  fun_induction printPatternElements print ns generalizing o with
  | case1 => simp
  | case2 n => simp_all
  | case3 n ns _ ih =>
      obtain ⟨hn, hns⟩ := endsInAll_cons.mp h
      simp [hprint, hn, ih hns]

@[simp] theorem strays_printKey {isComputed : Bool} (h : n.EndsIn P) :
    (o.after (printKey print isComputed n)).strays P = o.strays P := by
  simp [printKey, hprint, h]

@[simp] theorem strays_printDefault (h : n.EndsIn P) :
    (o.after (printDefault print n)).strays P = o.strays P := by
  simp [printDefault, hprint, h]

@[simp] theorem strays_printMethodRest (h : EndsInAll P ns) :
    (o.after (printMethodRest print ns)).strays P = o.strays P := by
  unfold printMethodRest
  split
  · simp only [endsInAll_cons] at h
    simp [Print.annotation, hprint, h]
  · simp

@[simp] theorem strays_printProperty {traits : PropertyTraits} {key value : Node}
    (hspan : span.EndsIn P) (hkey : key.EndsIn P) (hvalue : value.EndsIn P) :
    (o.after (printProperty print traits span key value)).strays P = o.strays P := by
  unfold printProperty
  split
  · have hparts := hvalue.children
    cases traits.accessor with
    | getter | setter | value => simp_all [Node.children, putWord]
  · simp [hprint, hkey, hvalue]

theorem strays_printExpression? {style : Style} (hn : n.EndsIn P) :
    ∀ p ∈ printExpression? print style n, (o.after p).strays P = o.strays P := by
  unfold printExpression?
  split
  any_goals simp only [endsIn_node, endsInAll_cons] at hn
  all_goals
    simp [printName, printNumber, printArray, printObject, printCall, printArguments,
      printConstruct, printMemberObject, printPoint, printBinary, printUnary, printUpdate,
      printConditional, printAssignment, printYield, printArrayPattern, printObjectPattern, putSign,
      spaceBeforeSign, putWord, deeper, shallower, newline, hprint, hprint.part, hn]

omit hprint in
@[simp] theorem strays_printModifiers (m : Modifiers) :
    (o.after (printModifiers m)).strays P = o.strays P := by
  unfold printModifiers
  cases m.access with
  | none => simp
  | some access => simp

@[simp] theorem strays_printBodyItems (h : EndsInAll P ns) :
    (o.after (printBodyItems print ns)).strays P = o.strays P := by
  unfold printBodyItems
  split
  · simp
  · simp only [endsInAll_cons] at h
    split
    · split
      · rename_i heq
        have hstring := (endsInAll_cons.mp (endsIn_node.mp h.1).2).1.withoutParentheses
        rw [heq, endsIn_node] at hstring
        simp [endStatement, hprint, h.2, hstring.1]
      · simp [hprint, h]
    · simp [hprint, h]

@[simp] theorem strays_classMembers (h : EndsInAll P ns) :
    (o.after (each (printClassMember print) ns)).strays P = o.strays P := by
  refine strays_each fun n hn o => ?_
  have hmember := endsInAll_iff.mp h n hn
  unfold printClassMember
  split
  all_goals simp [endStatement, newline, hprint, hmember]

@[simp] theorem strays_printBody (hspan : span.EndsIn P) (h : EndsInAll P ns) :
    (o.after (printBody print span ns)).strays P = o.strays P := by
  simp [printBody, hprint, hspan, h]

@[simp] theorem strays_printArrow {style : Style} {traits : FunctionTraits}
    {generics params result body : Node} (hspan : span.EndsIn P) (hgenerics : generics.EndsIn P)
    (hparams : params.EndsIn P) (hresult : result.EndsIn P) (hbody : body.EndsIn P) :
    (o.after (printArrow print style traits span generics params result body)).strays P =
      o.strays P := by
  unfold printArrow
  apply strays_wrap
  intro o
  split
  all_goals simp [Print.annotation, hprint, hprint.part, hspan, hgenerics, hparams, hresult, hbody]

@[simp] theorem strays_printMethod {accessor : Accessor} {isComputed : Bool} {modifiers : Modifiers}
    {key value : Node} (hspan : span.EndsIn P) (hkey : key.EndsIn P) (hvalue : value.EndsIn P) :
    (o.after (printMethod print accessor isComputed modifiers span key value)).strays P =
      o.strays P := by
  have hparts := hvalue.children
  unfold printMethod
  cases accessor with
  | getter | setter | value =>
      split
      all_goals simp_all [Node.children]

@[simp] theorem strays_printClass {isDeclaration : Bool} {modifiers : Modifiers}
    {name generics base types interfaces body : Node} (hspan : span.EndsIn P)
    (h : EndsInAll P [name, generics, base, types, interfaces, body]) :
    (o.after (printClass print isDeclaration modifiers span name generics base types interfaces
      body)).strays P = o.strays P := by
  simp only [endsInAll_cons] at h
  obtain ⟨hname, hgenerics, hbase, htypes, hinterfaces, hbody, -⟩ := h
  have hlist := hinterfaces.children
  simp [printClass, hprint, hprint.part, hspan, hname, hgenerics, hbase, htypes, hlist, hbody]

theorem strays_printFunction? {style : Style} (hn : n.EndsIn P) :
    ∀ p ∈ printFunction? print style n, (o.after p).strays P = o.strays P := by
  unfold printFunction?
  split
  any_goals simp only [endsIn_node, endsInAll_cons] at hn
  all_goals
    simp [printFunction, printDirective, printField, Print.annotation, endStatement, hprint, hn]

end

section

variable {P : Nat → Bool} {print : Print} (hprint : print.Marks P) {o : Output} {span : Span}
  {n : Node} {ns : List Node}

include hprint

@[simp] theorem strays_printLines (h : EndsInAll P ns) :
    (o.after (printLines print ns)).strays P = o.strays P := by
  induction ns generalizing o with
  | nil => simp [printLines]
  | cons n ns ih =>
      obtain ⟨hn, hns⟩ := endsInAll_cons.mp h
      simp [printLines, newline, hprint, hn, ih hns]

@[simp] theorem strays_printJoined {operator : String} (h : EndsInAll P ns) :
    (o.after (printJoined print operator ns)).strays P = o.strays P := by
  fun_induction printJoined print operator ns generalizing o with
  | case1 => simp
  | case2 n => simp_all
  | case3 n ns _ ih =>
      obtain ⟨hn, hns⟩ := endsInAll_cons.mp h
      simp [hprint, hn, ih hns]

@[simp] theorem strays_printTypeChunks (h : EndsInAll P ns) :
    (o.after (printTypeChunks print ns)).strays P = o.strays P := by
  fun_induction printTypeChunks print ns generalizing o with
  | case1 type raw span children rest ih =>
      simp only [endsInAll_cons] at h
      simp [hprint, h, ih]
  | case2 => simp

@[simp] theorem strays_printTypeLiteral (h : n.EndsIn P) :
    (o.after (printTypeLiteral print n)).strays P = o.strays P := by
  unfold printTypeLiteral
  split
  all_goals simp_all

@[simp] theorem strays_printTypeMembers (hspan : span.EndsIn P) (h : EndsInAll P ns) :
    (o.after (printTypeMembers print span ns)).strays P = o.strays P := by
  refine strays_braces hspan fun o => strays_each fun n hn o => ?_
  simp [hprint, endsInAll_iff.mp h n hn]

theorem strays_printType? (hn : n.EndsIn P) :
    ∀ p ∈ printType? print n, (o.after p).strays P = o.strays P := by
  have hwords : ∀ (words : List String) (o : Output),
      (o.after (each (fun word => put (word ++ " ")) words)).strays P = o.strays P :=
    fun words o => strays_each (by simp)
  unfold printType?
  split
  any_goals simp only [endsIn_node, endsInAll_cons] at hn
  all_goals
    simp [printSignature, printMappedType, printTypeParameters, printTypeArguments,
      Print.annotation, deeper, shallower, hprint, hn, hwords]
  split
  all_goals simp [hprint, hn]

end

section

variable {P : Nat → Bool} {print : Print} (hprint : print.Marks P) {o : Output} {span : Span}
  {n : Node} {ns : List Node}

include hprint

@[simp] theorem strays_printControlled (h : n.EndsIn P) :
    (o.after (printControlled print n)).strays P = o.strays P := by
  unfold printControlled
  split
  all_goals simp_all [newline]

@[simp] theorem strays_printConsequent {hasElse : Bool} (h : n.EndsIn P) :
    (o.after (printConsequent print hasElse n)).strays P = o.strays P := by
  unfold printConsequent
  split
  all_goals simp_all [newline]

@[simp] theorem strays_printIf {count : Nat} (h : n.EndsIn P) :
    (o.after (printIf print count n)).strays P = o.strays P := by
  fun_induction printIf print count n generalizing o with
  | case1 count span test consequent alternative ih =>
      simp only [endsIn_node, endsInAll_cons] at h
      obtain ⟨-, htest, hconsequent, halternative, -⟩ := h
      have hlater : ∀ o : Output, (o.after (printIf print count alternative)).strays P =
          o.strays P :=
        fun _ => ih halternative
      have hcontrolled : ∀ o : Output, (o.after (printControlled print alternative)).strays P =
          o.strays P :=
        fun _ => strays_printControlled hprint halternative
      split
      · split
        all_goals simp [putWord, hprint, htest, hconsequent, hlater, hcontrolled]
      · simp [putWord, hprint, htest, hconsequent]
  | case2 => simp

@[simp] theorem strays_cases (h : EndsInAll P ns) :
    (o.after (each (printCase print) ns)).strays P = o.strays P := by
  refine strays_each fun n hn o => ?_
  have hcase := endsInAll_iff.mp h n hn
  unfold printCase
  split
  · simp only [endsIn_node, endsInAll_cons] at hcase
    split
    all_goals simp_all [newline, deeper, shallower]
  · simp

@[simp] theorem strays_printAttributes (h : n.EndsIn P) :
    (o.after (printAttributes print n)).strays P = o.strays P := by
  unfold printAttributes
  split
  all_goals simp_all

@[simp] theorem strays_printRenamed {isType : Bool} {name other : Node} (hname : name.EndsIn P)
    (hother : other.EndsIn P) :
    (o.after (printRenamed print isType name other)).strays P = o.strays P := by
  simp [printRenamed, hprint, hname, hother]

@[simp] theorem strays_printSpecifiers {inBraces isFirst : Bool} (h : EndsInAll P ns) :
    (o.after (printSpecifiers print inBraces isFirst ns)).strays P = o.strays P := by
  induction ns generalizing inBraces isFirst o with
  | nil => simp [printSpecifiers]
  | cons n ns ih =>
      obtain ⟨hn, hns⟩ := endsInAll_cons.mp h
      unfold printSpecifiers
      split
      any_goals simp only [endsIn_node, endsInAll_cons] at hn
      all_goals simp [hprint, hn, ih hns]

@[simp] theorem strays_printImport {isType : Bool} {specifiers source attributes : Node}
    (hspan : span.EndsIn P) (hspecifiers : specifiers.EndsIn P) (hsource : source.EndsIn P)
    (hattributes : attributes.EndsIn P) :
    (o.after (printImport print isType span specifiers source attributes)).strays P =
      o.strays P := by
  unfold printImport
  split
  all_goals simp_all [putWord, endStatement]

@[simp] theorem strays_printExportNamed {isType : Bool}
    {declaration specifiers source attributes : Node} (hspan : span.EndsIn P)
    (hdeclaration : declaration.EndsIn P) (hspecifiers : specifiers.EndsIn P)
    (hsource : source.EndsIn P) (hattributes : attributes.EndsIn P) :
    (o.after (printExportNamed print isType span declaration specifiers source
      attributes)).strays P = o.strays P := by
  have hnames := hspecifiers.children
  simp [printExportNamed, endStatement, newline, hprint, hspan, hdeclaration, hnames, hsource,
    hattributes]

@[simp] theorem strays_printBlock (h : n.EndsIn P) :
    (o.after (printControl?.printBlock print n)).strays P = o.strays P := by
  have hitems := h.children
  simp [printControl?.printBlock, hprint, h, hitems]

theorem strays_printControl? (hn : n.EndsIn P) :
    ∀ p ∈ printControl? print n, (o.after p).strays P = o.strays P := by
  unfold printControl?
  split
  any_goals simp only [endsIn_node, endsInAll_cons] at hn
  all_goals
    simp [printHead, endStatement, newline, deeper, shallower, putWord, hprint, hprint.part, hn]
  all_goals
    split
    all_goals simp_all [Print.annotation]

theorem strays_printDeclaration? {style : Style} (hn : n.EndsIn P) :
    ∀ p ∈ printDeclaration? print style n, (o.after p).strays P = o.strays P := by
  unfold printDeclaration?
  split
  any_goals simp only [endsIn_node, endsInAll_cons] at hn
  all_goals
    simp [printVariables, Print.annotation, strays_parts, hprint, hprint.part, hn]

theorem strays_printModule? (hn : n.EndsIn P) :
    ∀ p ∈ printModule? print n, (o.after p).strays P = o.strays P := by
  unfold printModule?
  split
  any_goals simp only [endsIn_node, endsInAll_cons] at hn
  all_goals
    simp [printExportDefault, endStatement, newline, hprint, hn]

theorem marks_printNode : Print.Marks P (printNode print) := by
  intro style n o hn
  unfold printNode
  split
  · rename_i p hp
    exact strays_printExpression? hprint hn p hp
  · split
    · rename_i p hp
      exact strays_printFunction? hprint hn p hp
    · split
      · rename_i p hp
        exact strays_printControl? hprint hn p hp
      · split
        · rename_i p hp
          exact strays_printDeclaration? hprint hn p hp
        · split
          · rename_i p hp
            exact strays_printModule? hprint hn p hp
          · cases hp : printType? print n with
            | none => simp
            | some p => exact strays_printType? hprint hn p hp

theorem strays_printItems (h : EndsInAll P ns) :
    (o.after (printItems print ns)).strays P = o.strays P := by
  have hstart (p : Node → Bool) : EndsInAll P (ns.takeWhile p) :=
    h.of_subset (List.takeWhile_subset p)
  have hrest (p : Node → Bool) : EndsInAll P (ns.dropWhile p) :=
    h.of_subset (List.dropWhile_subset p)
  have hdirectives (p : Node → Bool) : EndsInAll P ((ns.dropWhile p).takeWhile isDirective) :=
    (hrest p).of_subset (List.takeWhile_subset _)
  have hstatements (p : Node → Bool) : EndsInAll P ((ns.dropWhile p).dropWhile isDirective) :=
    (hrest p).of_subset (List.dropWhile_subset _)
  have heach : ∀ ms, EndsInAll P ms → ∀ o : Output, (o.after (each print.plain ms)).strays P =
      o.strays P :=
    fun ms hms o => strays_each fun n hn o => strays_plain hprint (endsInAll_iff.mp hms n hn)
  simp [printItems, heach, hprint, hstart, hdirectives, hstatements]

end

variable {P : Nat → Bool}

theorem marks_printTo (depth : Nat) : (printTo depth).Marks P := by
  induction depth with
  | zero => exact fun _ _ _ _ => rfl
  | succ depth ih => exact marks_printNode ih

theorem marks_after_of_isEmpty {n : Node} (h : ∀ m ∈ n.nodes, m.span.isEmpty = true) (depth : Nat)
    (style : Style) (o : Output) : (o.after (printTo depth style n)).marks = o.marks := by
  have hn : n.EndsIn fun _ => false := by
    intro m hm hempty
    rw [h m hm] at hempty
    cases hempty
  simpa [strays] using marks_printTo depth style n o hn

/-- Every mark of a printed program points to an end of a span of the program that is not empty. -/
theorem exists_of_mem_marks {n : Node} {sourceLength : Nat} {mark : Mark}
    (h : mark ∈ (program n sourceLength).marks) :
    ∃ m ∈ nodesOfList (programItems n), m.span.isEmpty = false ∧
      (mark.offset = m.span.start ∨ mark.offset = m.span.stop) := by
  let P : Nat → Bool := fun offset => decide (∃ m ∈ nodesOfList (programItems n),
    m.span.isEmpty = false ∧
    (offset = m.span.start ∨ offset = m.span.stop))
  have hitems : EndsInAll P (programItems n) := by
    intro m hm hempty
    exact ⟨decide_eq_true ⟨m, hm, hempty, .inl rfl⟩, decide_eq_true ⟨m, hm, hempty, .inr rfl⟩⟩
  let start : Output := { sourceLength, hasMarkup := true }
  have hstrays : (start.after (printItems (printTo (n.depth + 1)) (programItems n))).strays P =
      [] :=
    strays_printItems (marks_printTo (n.depth + 1)) hitems
  have hmark : P mark.offset = true := by
    simpa using List.filter_eq_nil_iff.mp hstrays mark (List.mem_reverse.mp h)
  exact of_decide_eq_true hmark

end Printer

end TemplateCompiler
