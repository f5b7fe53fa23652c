import TemplateCompiler.Compile
import TemplateCompiler.Proofs.Template.Program
import TemplateCompiler.Proofs.Template.Violation

namespace TemplateCompiler

open Lower Node Session

/-- A visit to literals, under a rule for the violation that a literal fails for: the literals that
are met and the violations that they fail for. A literal that fails is done with; one that does not
makes way for the literals in the expressions embedded in it. -/
inductive Visits (first : List Violation → Option Violation) :
    List Node → List Node → List Violation → Prop
  | nil : Visits first [] [] []
  | failing {literal : Node} {rest met : List Node} {violation : Violation}
      {violations : List Violation}
      (hviolation : first (Template.ofNode literal).violations = some violation)
      (hrest : Visits first rest met violations) :
      Visits first (literal :: rest) (literal :: met) (violation :: violations)
  | clean {literal : Node} {rest met : List Node} {violations : List Violation}
      (hclean : first (Template.ofNode literal).violations = none)
      (hrest :
        Visits first (literalsOfList (Template.ofNode literal).embedded ++ rest) met violations) :
      Visits first (literal :: rest) (literal :: met) violations

namespace Visits

variable {first : List Violation → Option Violation} {literals met met' : List Node}
  {violations violations' : List Violation}

theorem unique (h : Visits first literals met violations)
    (h' : Visits first literals met' violations') : met = met' ∧ violations = violations' := by
  induction h generalizing met' violations' with
  | nil =>
      cases h'
      exact ⟨rfl, rfl⟩
  | failing hviolation _ ih =>
      cases h' with
      | failing hviolation' hrest' =>
          cases hviolation.symm.trans hviolation'
          obtain ⟨rfl, rfl⟩ := ih hrest'
          exact ⟨rfl, rfl⟩
      | clean hclean' => cases hviolation.symm.trans hclean'
  | clean hclean _ ih =>
      cases h' with
      | failing hviolation' => cases hclean.symm.trans hviolation'
      | clean _ hrest' =>
          obtain ⟨rfl, rfl⟩ := ih hrest'
          exact ⟨rfl, rfl⟩

theorem isReported (h : Visits firstReported literals met violations) :
    ∀ v ∈ violations, v.isReported = true := by
  induction h with
  | nil => simp
  | failing hviolation _ ih => exact List.forall_mem_cons.mpr ⟨List.find?_some hviolation, ih⟩
  | clean _ _ ih => exact ih

/-- The visit is the one under the rule that every first violation counts if and only if no literal
that is met has a hyphen in a path as its first violation. -/
theorem head?_iff (h : Visits firstReported literals met violations) :
    Visits List.head? literals met violations ↔
      ∀ literal ∈ met, ∀ v, (Template.ofNode literal).violations.head? = some v →
        v.isReported = true := by
  induction h with
  | nil => simp [Visits.nil]
  | failing hviolation hrest ih =>
      rw [List.forall_mem_cons, ← firstReported_eq_head?_iff, ← ih, hviolation]
      constructor
      · intro h'
        cases h' with
        | failing hviolation' hrest' => exact ⟨hviolation'.symm, hrest'⟩
        | clean hclean' =>
            rw [List.head?_eq_none_iff.mp hclean'] at hviolation
            cases hviolation
      · rintro ⟨hhead, hrest'⟩
        exact .failing hhead.symm hrest'
  | clean hclean hrest ih =>
      rw [List.forall_mem_cons, ← firstReported_eq_head?_iff, ← ih, hclean]
      constructor
      · intro h'
        cases h' with
        | failing hviolation' _ =>
            -- The violation would be among those that the rest of the visit reports.
            have hreported := hrest.isReported _ (List.mem_cons_self ..)
            have hhead := (firstReported_eq_head?_iff _).mpr fun v hv => by
              cases hviolation'.symm.trans hv
              exact hreported
            cases hclean.symm.trans (hhead.trans hviolation')
        | clean hclean' hrest' => exact ⟨hclean'.symm, hrest'⟩
      · rintro ⟨hhead, hrest'⟩
        exact .clean hhead.symm hrest'

end Visits

theorem Walks.visits {w w' : Walk} {ns ns' : List Node} (h : Walks w ns ns' w')
    (hscope : w.session.hasScope = true) :
    w'.session.hasScope = true ∧ ∃ met violations,
      w'.errors = w.errors ++ violations.map Violation.cause ∧
      ∀ {later met' : List Node} {violations' : List Violation},
        Visits firstReported later met' violations' →
        Visits firstReported (literalsOfList ns ++ later) (met ++ met')
          (violations ++ violations') := by
  induction h with
  | nil w => exact ⟨hscope, [], [], by simp, fun hlater => hlater⟩
  | inner span hform _ _ ihchildren ihrest =>
      obtain ⟨hscope₁, met, vs, herrors, hvisits⟩ := ihchildren hscope
      obtain ⟨hscope₂, met', vs', herrors', hvisits'⟩ := ihrest hscope₁
      refine ⟨hscope₂, met ++ met', vs ++ vs', by simp [herrors', herrors], fun hlater => ?_⟩
      simp only [literalsOfList, literals, hform, List.append_assoc]
      exact hvisits (hvisits' hlater)
  | @replaced w _ _ literal _ _ _ _ _ hform hrun _ _ ihclosure ihrest =>
      obtain ⟨hscope₀, hverdict⟩ := decides_lowerTemplate (.ofNode literal) w.session hscope
      rw [hrun] at hscope₀ hverdict
      obtain ⟨hscope₁, met, vs, herrors, hvisits⟩ := ihclosure hscope₀
      obtain ⟨hscope₂, met', vs', herrors', hvisits'⟩ := ihrest hscope₁
      refine ⟨hscope₂, literal :: (met ++ met'), vs ++ vs', ?_, fun hlater => ?_⟩
      · simp [herrors', herrors, Walk.succeed]
      · have hclosure := hvisits (hvisits' hlater)
        rw [literalsOfList, literals_of_run_template hrun] at hclosure
        rw [literalsOfList, literals_of_isMarkup hform]
        simp only [literalsOfList, List.append_nil, List.append_assoc, List.cons_append]
          at hclosure ⊢
        exact .clean (Option.map_eq_none_iff.mp hverdict.symm) hclosure
  | @failed w _ literal _ _ _ cause hform hrun _ ihrest =>
      obtain ⟨hscope₀, hverdict⟩ := decides_lowerTemplate (.ofNode literal) w.session hscope
      rw [hrun] at hscope₀ hverdict
      obtain ⟨hscope₁, met, vs, herrors, hvisits⟩ := ihrest hscope₀
      obtain ⟨v, hv, hcause⟩ := Option.map_eq_some_iff.mp hverdict.symm
      refine ⟨hscope₁, literal :: met, v :: vs, ?_, fun hlater => ?_⟩
      · simp [herrors, Walk.fail, hcause]
      · rw [literalsOfList, literals_of_isMarkup hform]
        exact .failing hv (hvisits hlater)

/-- The causes collected from a program are those of the violations that its literals fail for. -/
theorem visits_transform (environment : String) (prologue : Prologue) (span : Span)
    (statements : List Node) :
    ∃ met violations, Visits firstReported (literalsOfList statements) met violations ∧
      (transform environment (.node (.program prologue) span statements)).errors =
        violations.map Violation.cause := by
  obtain ⟨images, w, hwalks, hresult⟩ := transform_cases environment prologue span statements
  obtain ⟨-, met, violations, herrors, hvisits⟩ := hwalks.visits rfl
  have hall := hvisits .nil
  simp only [List.append_nil] at hall
  have hcauses : w.errors = violations.map Violation.cause := by simpa [Walk.start] using herrors
  refine ⟨met, violations, hall, ?_⟩
  rcases hresult with ⟨-, hresult⟩ | ⟨hnone, _, _, _, -, hresult⟩
  · rw [hresult, ← hcauses]
  · rw [hresult, ← hcauses, hnone]

theorem exists_program_of_readProgram {ctx : Grammar.Context} {source : String} {program : Node}
    (h : (Grammar.readProgram ctx source).node = some program) :
    ∃ prologue span statements, program = .node (.program prologue) span statements := by
  unfold Grammar.readProgram Grammar.Outcome.of at h
  simp only [StateT.run_bind] at h
  generalize Grammar.State.start _ _ = start at h
  cases hlimit : StateT.run Grammar.stepLimit start with
  | error failure =>
      rw [hlimit] at h
      cases h
  | ok limit =>
      rw [hlimit] at h
      simp only [bind, Except.bind] at h
      split at h
      · rename_i heq
        split at heq
        · cases heq
        · cases heq
          cases h
          exact ⟨_, _, _, rfl⟩
      · cases h

theorem compile_of_read {source : String} {metadata : Metadata} (options : Options) {program : Node}
    (hfaults : (Grammar.readProgram metadata.language source).diagnostics = [])
    (hprogram : (Grammar.readProgram metadata.language source).node = some program) :
    (∀ {cause : Cause} {rest : List Cause},
      (transform options.environment program).errors = cause :: rest →
        (compile source metadata options).result =
          .error ((Report.ofCause cause).locate metadata.filename source)) ∧
    ((transform options.environment program).errors = [] →
      ∃ output, (compile source metadata options).result = .ok output) := by
  constructor
  · intro cause rest herrors
    simp [compile, hfaults, hprogram, herrors]
  · intro herrors
    simp [compile, hfaults, hprogram, herrors]

theorem Violation.report_cause (v : Violation) :
    (Report.ofCause v.cause).code = v.code ∧ (Report.ofCause v.cause).offset = some v.offset := by
  cases v with
  | word tag offset => exact ⟨rfl, rfl⟩
  | path tag offset => exact ⟨rfl, rfl⟩
  | modifier name offset => exact ⟨rfl, rfl⟩

/-- What is reported of a source that was read as a program. -/
structure Diagnosed (source : String) (metadata : Metadata) (options : Options) (program : Node) :
    Prop where
  /-- Whatever the session has been through, a literal fails if it has a violation that is reported,
  and then for the first one, with its code and at its place. -/
  lowered : ∀ (literal : Node) (s : Session), s.hasScope = true →
    (cause? ((lowerTemplate (.ofNode literal)).run s).1).map
        (fun cause => ((Report.ofCause cause).code, (Report.ofCause cause).offset)) =
      (firstReported (Template.ofNode literal).violations).map fun v => (v.code, some v.offset)
  /-- That is its first violation unless the first one is a hyphen in a path. -/
  first : ∀ literal : Node,
    firstReported (Template.ofNode literal).violations =
    (Template.ofNode literal).violations.head? ↔
      ∀ v, (Template.ofNode literal).violations.head? = some v → v.isReported = true
  /-- The causes collected are those of the one visit to the literals of the program, and this
  is the visit under the rule that every first violation counts unless a literal that is met has
  a hyphen in a path as its first violation. The answer is the program, or the first of the
  causes, located in the file. -/
  answered : ∃ met violations,
    (∀ met' violations', Visits firstReported program.literals met' violations' ↔
      met' = met ∧ violations' = violations) ∧
    (Visits List.head? program.literals met violations ↔
      ∀ literal ∈ met, ∀ v, (Template.ofNode literal).violations.head? = some v →
        v.isReported = true) ∧
    (transform options.environment program).errors = violations.map Violation.cause ∧
    ((∃ output, (compile source metadata options).result = .ok output) ↔ violations = []) ∧
    ∀ v rest, violations = v :: rest → (compile source metadata options).result =
      .error ((Report.ofCause v.cause).locate metadata.filename source)

/-- Compiling fails exactly at the violations that are reported, and answers with the first one. -/
theorem compile_diagnosed {source : String} {metadata : Metadata} {options : Options}
    {program : Node} (hfaults : (Grammar.readProgram metadata.language source).diagnostics = [])
    (hprogram : (Grammar.readProgram metadata.language source).node = some program) :
    Diagnosed source metadata options program := by
  obtain ⟨prologue, span, statements, rfl⟩ := exists_program_of_readProgram hprogram
  obtain ⟨met, violations, hvisits, herrors⟩ :=
    visits_transform options.environment prologue span statements
  obtain ⟨hfailure, hsuccess⟩ := compile_of_read options hfaults hprogram
  refine ⟨?_, fun literal => firstReported_eq_head?_iff _, met, violations, ?_, hvisits.head?_iff,
    herrors, ?_, ?_⟩
  · intro literal s hscope
    rw [(decides_lowerTemplate (.ofNode literal) s hscope).2, verdict, Option.map_map]
    apply Option.map_congr
    intro v _
    obtain ⟨hcode, hoffset⟩ := v.report_cause
    simp only [Function.comp_apply, hcode, hoffset]
  · intro met' violations'
    constructor
    · intro hvisits'
      exact hvisits'.unique hvisits
    · rintro ⟨rfl, rfl⟩
      exact hvisits
  · constructor
    · rintro ⟨output, houtput⟩
      cases violations with
      | nil => rfl
      | cons v rest =>
          rw [hfailure herrors] at houtput
          cases houtput
    · rintro rfl
      exact hsuccess herrors
  · rintro v rest rfl
    exact hfailure herrors

/-- A failing literal that shields the one in its attribute, a literal that passes and makes way for
one with a wrong instruction, and a conditional whose child is not looked at. -/
def sampleSource : String :=
  "const a = <A-b x=\x7b<C-d/>\x7d/>, b = <p>\x7b<q compile:fold/>\x7d</p>, c = <If><E-f/></If>;"

theorem compile_diagnosed_sample :
    (Grammar.readProgram (Metadata.language ⟨"view.jsx", .module⟩) sampleSource).diagnostics = [] ∧
      ∃ program, (Grammar.readProgram (Metadata.language ⟨"view.jsx", .module⟩) sampleSource).node =
        some program ∧ Diagnosed sampleSource ⟨"view.jsx", .module⟩ {} program := by
  have hfaults :
      (Grammar.readProgram (Metadata.language ⟨"view.jsx", .module⟩) sampleSource).diagnostics =
      [] := by decide +kernel
  obtain ⟨program, hprogram⟩ := Option.isSome_iff_exists.mp (show (Grammar.readProgram
    (Metadata.language ⟨"view.jsx", .module⟩) sampleSource).node.isSome = true by decide +kernel)
  exact ⟨hfaults, program, hprogram, compile_diagnosed hfaults hprogram⟩

/-- The head of a path may have a hyphen: the tag is a component written with
one, and is compiled. -/
theorem compile_hyphenated_path :
    ((Grammar.readProgram (Metadata.language ⟨"view.jsx", .module⟩) "const v = <A-b.C/>;").node.map
      fun program => program.literals.flatMap fun literal => (Template.ofNode literal).violations) =
        some [.path "A-b.C" 11] ∧
      (compile "const v = <A-b.C/>;" ⟨"view.jsx", .module⟩ {}).result.isOk = true := by
  decide +kernel

end TemplateCompiler
