import TemplateCompiler.Proofs.Template.Reporting

namespace TemplateCompiler

open Lower Node

namespace Imports

def relocate (environment : String) (r : Imports) : Imports :=
  ⟨r.modules.map fun m => { m with source := environment }⟩

theorem entries_relocate (environment : String) (r : Imports) :
    (r.relocate environment).entries = r.entries := by
  simp [entries, relocate, List.flatMap_map]

/-- Imports from one module, if there are any. -/
def IsFrom (environment : String) (r : Imports) : Prop :=
  r.modules = [] ∨ ∃ symbols, r.modules = [⟨environment, symbols⟩]

theorem IsFrom.require {environment : String} {r : Imports} (h : r.IsFrom environment)
    (names : FreshNames) (symbol environment' : String) :
    let answer := r.require names symbol environment
    (r.relocate environment').require names symbol environment' =
        (answer.1, answer.2.1.relocate environment', answer.2.2) ∧
      ∃ symbols, answer.2.1.modules = [⟨environment, symbols⟩] := by
  obtain ⟨modules⟩ := r
  rcases h with hnone | ⟨symbols, hsole⟩
  · subst hnone
    exact ⟨rfl, _, rfl⟩
  · subst hsole
    cases hlookup : symbols.lookup symbol with
    | some localName => simp [Imports.require, localName?, relocate, hlookup]
    | none => simp [Imports.require, localName?, relocate, add, hlookup]

end Imports

namespace Session

/-- The session with helpers imported from another module. -/
def relocate (environment : String) (s : Session) : Session :=
  { s with environment, imports := s.imports.relocate environment }

theorem names_relocate (environment : String) (s : Session) :
    (s.relocate environment).names = s.names := rfl

/-- Nothing is imported but helpers. -/
def Sole (s : Session) : Prop := s.imports.IsFrom s.environment

theorem Sole.run_require {s : Session} (hs : s.Sole) (symbol environment : String) :
    (require symbol).run (s.relocate environment) =
      (((require symbol).run s).1, ((require symbol).run s).2.relocate environment) := by
  rw [Lower.run_require, Lower.run_require, names_relocate]
  cases s.names with
  | none => rfl
  | some names => simp only [relocate, (hs.require names symbol environment).1]

theorem Sole.exists_symbols {s s' : Session} (hs : s.Sole) {symbol name : String}
    (h : (require symbol).run s = (.ok name, s')) :
    ∃ symbols, s'.imports.modules = [⟨s'.environment, symbols⟩] := by
  obtain ⟨names, -, -, rfl⟩ := run_require_ok h
  exact (hs.require names symbol "").2

theorem stable_sole : Stable Sole where
  fresh _ := .fresh fun _ _ _ hs => hs
  require symbol _ := .require fun _ names _ hs => .inr (hs.require names symbol "").2
  listen _ _ hs := hs
  note _ _ hs := hs

end Session

/-- What the single steps do alike in a session that was moved, every step does that is
put together from them. -/
theorem Lower.Composed.run_relocate {α : Type} {x : Lower α} (h : x.Composed) {s : Session}
    (hs : s.Sole) (environment : String) :
    x.run (s.relocate environment) = ((x.run s).1, (x.run s).2.relocate environment) := by
  induction h generalizing s with
  | pure a => rfl
  | check result =>
      cases result with
      | ok a => rfl
      | error cause => rfl
  | fresh name =>
      rw [run_fresh, run_fresh, Session.names_relocate]
      cases s.names with
      | none => rfl
      | some names => rfl
  | require hsymbol => exact hs.run_require _ environment
  | listen event => rfl
  | note line => rfl
  | @bind _ _ x f hx hf ihx ihf =>
      have hsole := Session.stable_sole.keeps hx s hs
      rw [run_bind, run_bind, ihx hs]
      rcases hrun : x.run s with ⟨cause | a, s₁⟩
      · rfl
      · rw [hrun] at hsole
        exact ihf a hsole

def Walk.relocate (environment : String) (w : Walk) : Walk :=
  { w with session := w.session.relocate environment }

theorem Walks.relocate {w w' : Walk} {ns ns' : List Node} (h : Walks w ns ns' w')
    (hw : w.session.Sole) (environment : String) :
    Walks (w.relocate environment) ns ns' (w'.relocate environment) := by
  induction h with
  | nil w => exact .nil _
  | inner span hform hchildren _ ihchildren ihrest =>
      exact .inner span hform (ihchildren hw) (ihrest (hchildren.keeps Session.stable_sole hw))
  | @replaced w _ _ literal _ _ _ _ _ hform hrun hclosure _ ihclosure ihrest =>
      have hnext := Session.stable_sole.lowerTemplate (.ofNode literal) w.session hw
      have hmoved := (composed_lowerTemplate (.ofNode literal)).run_relocate hw environment
      rw [hrun] at hnext hmoved
      exact .replaced hform hmoved (ihclosure hnext)
        (ihrest (hclosure.keeps Session.stable_sole hnext))
  | @failed w _ literal _ _ _ _ hform hrun _ ihrest =>
      have hnext := Session.stable_sole.lowerTemplate (.ofNode literal) w.session hw
      have hmoved := (composed_lowerTemplate (.ofNode literal)).run_relocate hw environment
      rw [hrun] at hnext hmoved
      exact .failed hform hmoved (ihrest hnext)

theorem Walk.sole_start (environment : String) (program : Node) :
    (Walk.start environment program).session.Sole :=
  .inl rfl

theorem run_walk_start (environment environment' : String) (program : Node) :
    (walk program.markupDepth program).run (.start environment' program) =
      (((walk program.markupDepth program).run (.start environment program)).1,
        ((walk program.markupDepth program).run (.start environment program)).2.relocate
          environment') := by
  have hwalks := walks_walk (Nat.le_refl program.markupDepth) (.start environment program)
  obtain ⟨hnode, hwalk⟩ :=
    (walks_walk (Nat.le_refl program.markupDepth) (.start environment' program)).unique
    (hwalks.relocate (Walk.sole_start environment program) environment')
  exact Prod.ext (List.cons.inj hnode).1 hwalk

/-- A program that is done, but for the module that its helpers are imported from. -/
structure Draft where
  prologue : Prologue
  span : Span
  /-- The imported symbols with their local names. -/
  symbols : List (String × String)
  /-- The statements behind the declaration of the imports. -/
  statements : List Node
  templates : Nat
  names : Option FreshNames
  events : List String
  trace : List String

/-- The program with its helpers imported from a module. -/
def Draft.finish (d : Draft) (environment : String) : Transformed :=
  let imported : ModuleImports := ⟨environment, d.symbols⟩
  { program := .node (.program d.prologue) d.span (Imports.declaration imported :: d.statements)
    templates := d.templates
    errors := []
    session :=
      { environment, names := d.names, imports := ⟨[imported]⟩, events := d.events,
        trace := d.trace } }

theorem Session.Sole.run_finishProgram {s s₁ : Session} (hs : s.Sole) (hspelt : s.Spelt)
    {helper : String} {symbols : List (String × String)}
    (h : (require "eventDelegate").run s = (.ok helper, s₁))
    (hsymbols : s₁.imports.modules = [⟨s₁.environment, symbols⟩]) (environment : String)
    (body : List Node) : (finishProgram body).run (s.relocate environment) =
      (.ok (Imports.declaration ⟨environment, symbols⟩ ::
        (body ++ [delegateStatement helper s₁.events])),
        s₁.relocate environment) := by
  have hmoved : (s.relocate environment).Spelt := by
    rwa [Session.Spelt, Session.relocate, Imports.entries_relocate]
  have hrequire : (require "eventDelegate").run (s.relocate environment) =
      (.ok helper, s₁.relocate environment) := by
    rw [hs.run_require, h]
  have hdeclarations : (s₁.relocate environment).declarations =
      [Imports.declaration ⟨environment, symbols⟩] := by
    simp [Session.declarations, Session.relocate, Imports.relocate, hsymbols]
  rw [TemplateCompiler.run_finishProgram hmoved hrequire, hdeclarations]
  rfl

theorem transform_uniform (prologue : Prologue) (span : Span) (statements : List Node) :
    (∃ cause causes trace, ∀ environment,
      (transform environment (.node (.program prologue) span statements)).errors = cause :: causes ∧
        (transform environment (.node (.program prologue) span statements)).session.trace = trace) ∨
    ∃ d : Draft, ∀ environment,
      transform environment (.node (.program prologue) span statements) = d.finish environment := by
  -- The walk is taken for one module and moved to all others.
  obtain ⟨images, w, hwalks, hrun⟩ := exists_walks_program prologue span statements
    (.start "" (.node (.program prologue) span statements))
  have hsole := hwalks.keeps Session.stable_sole (Walk.sole_start "" _)
  have hmoved :=
    fun environment => run_walk_start "" environment (.node (.program prologue) span statements)
  simp only [hrun] at hmoved
  unfold Walk.start at hmoved
  unfold transform
  simp only [hmoved]
  cases herrors : w.errors with
  | cons cause causes =>
      refine .inl ⟨cause, causes, w.session.trace, fun environment => ?_⟩
      simp [Walk.relocate, Session.relocate, herrors]
  | nil =>
      have hspelt := hwalks.keeps Session.stable_spelt (Walk.spelt_start "" _)
      have hscope := (hwalks.keeps (Session.stable_grows _) (.refl _)).scope rfl
      obtain ⟨helper, s, hhelper⟩ := exists_run_require hscope "eventDelegate"
      obtain ⟨symbols, hsymbols⟩ := hsole.exists_symbols hhelper
      let line := "[RumiousNative] Lowered " ++ Nat.repr w.templates ++ " template(s), " ++
        Nat.repr s.events.length ++ " delegated event(s)"
      -- The set-up of the events asks for a helper, so there is a module to
      -- import from, and only one.
      refine .inr ⟨⟨prologue, span, symbols, images ++ [delegateStatement helper s.events],
        w.templates, s.names, s.events, s.trace ++ [line]⟩, fun environment => ?_⟩
      simp only [Walk.relocate, herrors, Node.children,
        hsole.run_finishProgram hspelt hhelper hsymbols]
      simp [Draft.finish, Session.relocate, Imports.relocate, hsymbols, Node.form, Node.span, line]

/-- All options lead to the same report, or to the same program but for the module that it
imports its helpers from. -/
theorem compile_uniform (source : String) (metadata : Metadata) :
    (∃ report trace, ∀ options, compile source metadata options = ⟨.error report, trace⟩) ∨
    ∃ program, ∃ d : Draft,
      (Grammar.readProgram metadata.language source).diagnostics = [] ∧
      (Grammar.readProgram metadata.language source).node = some program ∧
      ∀ options : Options, transform options.environment program = d.finish options.environment ∧
        let printed :=
          Printer.program (d.finish options.environment).program (Scanner.byteLength source.toList)
        compile source metadata options =
          ⟨.ok ⟨printed.text, mapJson metadata.filename source printed⟩,
            openingLine metadata :: d.trace⟩ := by
  cases hfaults : (Grammar.readProgram metadata.language source).diagnostics with
  | cons fault faults =>
      refine .inl ⟨(faultReport fault).locate metadata.filename source, [openingLine metadata],
        fun options => ?_⟩
      simp only [compile, hfaults]
  | nil =>
      obtain ⟨program, hprogram⟩ : ∃ program, (Grammar.readProgram metadata.language source).node =
          some program :=
        Grammar.Outcome.exists_node hfaults
      obtain ⟨prologue, span, statements, rfl⟩ := exists_program_of_readProgram hprogram
      rcases transform_uniform prologue span statements with
        ⟨cause, causes, trace, hfail⟩ | ⟨d, hdraft⟩
      · refine .inl ⟨(Report.ofCause cause).locate metadata.filename source,
          openingLine metadata :: trace, fun options => ?_⟩
        simp only [compile, hfaults, hprogram, hfail options.environment]
      · refine .inr ⟨_, d, rfl, hprogram, fun options => ⟨hdraft options.environment, ?_⟩⟩
        simp only [compile, hfaults, hprogram, hdraft options.environment]
        rfl

end TemplateCompiler
