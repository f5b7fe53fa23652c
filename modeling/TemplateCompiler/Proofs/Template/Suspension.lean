import TemplateCompiler.Proofs.Template.Accounting

namespace TemplateCompiler

open Collector Lower Node Session

namespace Form

/-- Whether a node suspends the function that it stands in. -/
def suspends : Form → Bool
  | .awaitValue => true
  | .yieldValue _ => true
  | .forOf isAwait => isAwait
  | _ => false

def isFunction : Form → Bool
  | .function _ => true
  | .arrow _ => true
  | _ => false

end Form

/-- The label and the place of every arrow that is made by lowering. -/
def madeArrow : Form × Span := (.arrow {}, .synthetic)

namespace Node

mutual

/-- Where functions are suspended in a tree, its literals left aside, each place with that of the
function. What stands in no function of the tree suspends the one around the tree. -/
def suspensions (around : Form × Span) : Node → List ((Form × Span) × (Form × Span))
  | node form span children =>
    if form.isMarkup then []
    else (if form.suspends then [(around, (form, span))] else []) ++
      suspensionsOfList (if form.isFunction then (form, span) else around) children

def suspensionsOfList (around : Form × Span) : List Node → List ((Form × Span) × (Form × Span))
  | [] => []
  | n :: ns => suspensions around n ++ suspensionsOfList around ns

end

variable {around : Form × Span}

theorem suspensions_of_isMarkup {n : Node} (h : n.form.isMarkup = true) :
    n.suspensions around = [] := by
  obtain ⟨form, span, children⟩ := n
  exact if_pos h

mutual

theorem map_snd_suspensions : (n : Node) → ∀ around : Form × Span, n.literals = [] →
    (n.suspensions around).map Prod.snd = (n.nodes.filter fun m => m.form.suspends).map place
  | .node form span children => by
      intro around h
      unfold literals at h
      split at h
      · cases h
      · rename_i hform
        have hchildren := map_snd_suspensionsOfList children
          (if form.isFunction then (form, span) else around) h
        rw [suspensions, if_neg hform, nodes, List.filter_cons, List.map_append, hchildren]
        by_cases hsuspends : form.suspends = true
        · simp [hsuspends, Node.form, place, Node.span]
        · simp [hsuspends, Node.form]

theorem map_snd_suspensionsOfList :
    (ns : List Node) → ∀ around : Form × Span, literalsOfList ns = [] →
      (suspensionsOfList around ns).map Prod.snd =
        ((nodesOfList ns).filter fun m => m.form.suspends).map place
  | [] => fun _ _ => rfl
  | n :: ns => by
      intro around h
      rw [literalsOfList, List.append_eq_nil_iff] at h
      rw [suspensionsOfList, nodesOfList, List.map_append, List.filter_append, List.map_append,
        map_snd_suspensions n around h.1, map_snd_suspensionsOfList ns around h.2]

end

end Node

def suspensionCollector : Collector (Form × Span) ((Form × Span) × (Form × Span)) where
  own around form span _ :=
    if form.isMarkup then [] else if form.suspends then [(around, (form, span))] else []
  inner around form span :=
    if form.isMarkup then none else some (if form.isFunction then (form, span) else around)

theorem suspensionCollector_agrees :
    suspensionCollector.Agrees suspensions suspensionsOfList where
  node around form span children := by
    cases hmarkup : form.isMarkup <;> simp [suspensions, suspensionCollector, hmarkup]
  nil _ := rfl
  cons _ _ _ := rfl

theorem suspensions_eq_collect (around : Form × Span) (n : Node) :
    n.suspensions around = suspensionCollector.collect around n :=
  suspensionCollector_agrees.eq_collect around n

theorem suspensionsOfList_eq_flatMap (around : Form × Span) (ns : List Node) :
    suspensionsOfList around ns = ns.flatMap (suspensions around) := by
  rw [suspensionCollector_agrees.eq_collectOfList around ns, collectOfList_eq_flatMap,
    ← funext (suspensions_eq_collect around)]

theorem suspensionCollector_quiet (around : Form × Span) (form : Form) (span : Span)
    (children : List Node) (h : form.isQuiet = true) :
    suspensionCollector.own around form span children = [] ∧
      suspensionCollector.inner around form span = some around := by
  have hform : form.suspends = false ∧ form.isFunction = false := by
    cases form with
    | awaitValue | yieldValue | forOf | function | arrow => cases h
    | _ => exact ⟨rfl, rfl⟩
  simp [suspensionCollector, Form.isMarkup_of_isQuiet h, hform]

theorem renders_suspensions :
    suspensionCollector.Renders madeArrow (.silent (suspensions madeArrow)) .full := by
  rw [funext (suspensions_eq_collect madeArrow)]
  exact renders_silent suspensionCollector_quiet fun _ _ => ⟨rfl, rfl⟩

/-- What a literal suspends once it is a closure. -/
def Node.literalSuspensions (literal : Node) : List ((Form × Span) × (Form × Span)) :=
  suspensionsOfList madeArrow (Template.ofNode literal).embedded

theorem suspensions_of_run_template {literal closure : Node} {s s' : Session}
    (h : (lowerTemplate (.ofNode literal)).run s = (.ok closure, s')) (around : Form × Span) :
    closure.suspensions around = literal.literalSuspensions := by
  rw [suspensions_eq_collect, collect_of_run_template h renders_suspensions
    (Lexicon.covers_full s') (.refl s') (Template.written_of_forall (fun _ => trivial) _),
    Account.ofTemplate_silent, literalSuspensions, suspensionsOfList_eq_flatMap]

/-- A walk without failures leaves what is suspended outside literals where it was, and adds
what literals suspend. -/
theorem Walks.count_suspensions {w w' : Walk} {ns ns' : List Node} (h : Walks w ns ns' w')
    (herrors : w'.errors = []) (pair : (Form × Span) × (Form × Span)) : ∀ around,
      (suspensionsOfList around ns').count pair = (suspensionsOfList around ns).count pair +
        (literalTally fun literal => literal.literalSuspensions.count pair).sums ns := by
  induction h with
  | nil => exact fun _ => rfl
  | @inner _ _ _ form children _ _ _ span hform _ hrest ihchildren ihrest =>
      intro around
      have hinner :=
        ihchildren (hrest.errors_eq_nil herrors) (if form.isFunction then (form, span) else around)
      have hlater := ihrest herrors around
      simp only [suspensionsOfList, suspensions, hform, Bool.false_eq_true, if_false,
        List.count_append, Tally.sums_cons, Tally.sum_value _ hform]
      have hown : (literalTally fun literal => literal.literalSuspensions.count pair).own form span
          children = 0 := rfl
      omega
  | @replaced _ _ _ literal _ _ _ _ _ hform hrun _ hrest ihclosure ihrest =>
      intro around
      have hinner := ihclosure (hrest.errors_eq_nil herrors) around
      have hlater := ihrest herrors around
      -- The closure counts what the literal took over, and so the literal
      -- counts the closure and itself.
      have hclosure := sum_of_run_template hrun
        (literalTally_fits (fun literal => literal.literalSuspensions.count pair) [])
          (List.nil_subset _)
      have hliteral :=
        Tally.sum_literal (literalTally fun literal => literal.literalSuspensions.count pair) hform
      have hown : (literalTally fun literal => literal.literalSuspensions.count pair).literal
          literal =
        literal.literalSuspensions.count pair := rfl
      have hmade : (literalTally fun literal => literal.literalSuspensions.count pair).closure =
          0 := rfl
      simp only [suspensionsOfList, suspensions_of_run_template hrun, suspensions_of_isMarkup hform,
        List.append_nil, List.nil_append, Tally.sums_cons, Tally.sums_nil,
        List.count_append] at hinner hlater ⊢
      omega
  | failed _ _ hrest =>
      have hfail := hrest.errors_eq_nil herrors
      simp [Walk.fail] at hfail

/-- A program in which only what stands in literals waits somewhere else than before. -/
structure SuspendsInPlace (program : Node) (result : Transformed) : Prop where
  /-- Whatever waits in the result is among what is suspended there. -/
  complete : (result.program.suspensions program.place).map Prod.snd =
    (result.program.nodes.filter fun n => n.form.suspends).map place
  /-- What is suspended outside literals is suspended as it was, and an expression in a literal that
  survives suspends its own functions, or else an arrow that was made. -/
  perm : (result.program.suspensions program.place).Perm
    (program.suspensions program.place ++ program.survivors.flatMap literalSuspensions)

theorem transform_suspendsInPlace (environment : String) (prologue : Prologue) (span : Span)
    (statements : List Node)
    (h : (transform environment (.node (.program prologue) span statements)).errors = []) :
    SuspendsInPlace (.node (.program prologue) span statements)
      (transform environment (.node (.program prologue) span statements)) := by
  obtain ⟨images, w, hwalks, ⟨herrors, hresult⟩ | ⟨herrors, helper, s, trace, -, hresult⟩⟩ :=
    transform_cases environment prologue span statements
  · rw [hresult] at h
    exact absurd h herrors
  · rw [hresult]
    constructor
    · exact map_snd_suspensions _ _
        ((hwalks.images herrors).literals_finished prologue span helper s)
    · have hfinished : (finished prologue span images helper s).suspensions
          (.program prologue, span) =
          suspensionsOfList (.program prologue, span) images := by
        rw [suspensions_eq_collect, renders_suspensions.collect_finished trivial,
          ← suspensionCollector_agrees.eq_collectOfList]
        exact List.append_nil _
      rw [List.perm_iff_count]
      intro pair
      have hcount := hwalks.count_suspensions herrors pair (.program prologue, span)
      have hsum := sum_literalTally (fun literal => literal.literalSuspensions.count pair)
        (.node (.program prologue) span statements)
      rw [Tally.sum_value _ rfl] at hsum
      have hown : (literalTally fun literal => literal.literalSuspensions.count pair).own
          (.program prologue) span statements = 0 := rfl
      have hprogram : (Node.node (.program prologue) span statements).suspensions
          (.program prologue, span) =
        suspensionsOfList (.program prologue, span) statements := rfl
      change ((finished prologue span images helper s).suspensions
          (.program prologue, span)).count pair =
        ((Node.node (.program prologue) span statements).suspensions (.program prologue, span) ++
          _).count pair
      rw [hfinished, hprogram, List.count_append, List.count_flatMap, hcount, Function.comp_def,
        ← hsum, hown, Nat.zero_add]

/-- An `await` around a literal, one in a function in the literal, and one that stands
in the literal itself. -/
def waitingStatements : List Node :=
  [.node .expressionStatement ⟨0, 60⟩ [.node .awaitValue ⟨0, 59⟩ [.node .fragment ⟨6, 59⟩
    [.node .container ⟨9, 40⟩ [.node (.arrow { isAsync := true }) ⟨10, 39⟩
      [.absent, .node .parameters ⟨16, 18⟩ [], .absent,
        .node .awaitValue ⟨22, 39⟩ [.reference "x" ⟨28, 29⟩]]],
     .node .container ⟨40, 55⟩ [.node .awaitValue ⟨41, 54⟩ [.reference "y" ⟨47, 48⟩]]]]]]

theorem transform_suspendsInPlace_sample :
    ((transform "rumious" (.node (.program {}) ⟨0, 60⟩ waitingStatements)).errors = [] ∧
      SuspendsInPlace (.node (.program {}) ⟨0, 60⟩ waitingStatements)
        (transform "rumious" (.node (.program {}) ⟨0, 60⟩ waitingStatements))) ∧
      (transform "rumious" (.node (.program {}) ⟨0, 60⟩ waitingStatements)).program.suspensions
        (.program {}, ⟨0, 60⟩) =
        [((.program {}, ⟨0, 60⟩), (.awaitValue, ⟨0, 59⟩)),
         ((.arrow { isAsync := true }, ⟨10, 39⟩), (.awaitValue, ⟨22, 39⟩)),
         (madeArrow, (.awaitValue, ⟨41, 54⟩))] := by
  have herrors : (transform "rumious" (.node (.program {}) ⟨0, 60⟩ waitingStatements)).errors =
      [] := by
    decide +kernel
  exact ⟨⟨herrors, transform_suspendsInPlace _ _ _ _ herrors⟩, by decide +kernel⟩

/-- An `await` that stands in a literal is moved out of its function. The program is one
function, an asynchronous one, and the `await` in it; afterwards it suspends an arrow
that is not asynchronous. -/
theorem suspensions_embeddedAwait :
    ((Grammar.readProgram (Metadata.language ⟨"view.jsx", .module⟩)
      "async function f() \x7b return <p>\x7bawait x\x7d</p>; \x7d").node.map fun program =>
        ((program.nodes.filter fun n => n.form.isFunction || n.form.suspends).map place,
          (transform "rumious" program).errors.isEmpty,
          (transform "rumious" program).program.suspensions program.place)) =
      some ([(.function { isDeclaration := true, isAsync := true }, ⟨0, 47⟩),
        (.awaitValue, ⟨32, 39⟩)], true,
        [(madeArrow, (.awaitValue, ⟨32, 39⟩))]) := by
  decide +kernel

end TemplateCompiler
