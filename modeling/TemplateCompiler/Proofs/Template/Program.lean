import TemplateCompiler.Proofs.Name.Declaration
import TemplateCompiler.Proofs.Template.Walking

namespace TemplateCompiler

open Lower Node Session

theorem isName_of_mem_helperSymbols :
    ∀ symbol ∈ helperSymbols, Text.isName symbol.toList = true := by
  decide

theorem Session.Spelt.areNames {s : Session} (h : s.Spelt) :
    ∀ m ∈ s.imports.modules, Imports.AreNames m.symbols := by
  intro m hm e he
  obtain ⟨hsymbol, index, hname⟩ := h e (List.mem_flatMap.mpr ⟨m, hm, he⟩)
  have hsymbol' := isName_of_mem_helperSymbols e.1 hsymbol
  exact ⟨hsymbol',
    hname ▸ FreshNames.isName_spelling (Text.all_isNamePart_of_isName hsymbol') index⟩

/-- The declarations of the symbols that a session imports. -/
def Session.declarations (s : Session) : List Node := s.imports.modules.map Imports.declaration

/-- The statement that sets up the events that templates listen to. -/
def delegateStatement (helper : String) (events : List String) : Node :=
  Emit.statement (Emit.call (Emit.name helper) [Emit.array (events.map Emit.string)])

theorem run_finishProgram {s s₁ : Session} {helper : String} (hspelt : s.Spelt)
    (h : (require "eventDelegate").run s = (.ok helper, s₁)) (body : List Node) :
    (finishProgram body).run s =
      (.ok (s₁.declarations ++ body ++ [delegateStatement helper s₁.events]), s₁) := by
  have hspelt₁ : s₁.Spelt := by
    have hkeeps := stable_spelt.require "eventDelegate" (by decide) s hspelt
    rwa [h] at hkeeps
  unfold finishProgram
  rw [run_bind, h]
  simp only [run_bind, run_get, Snippet.statements_text hspelt₁.areNames]
  rfl

theorem Walks.keeps {I : Session → Prop} (hI : Stable I) {w w' : Walk} {ns ns' : List Node}
    (h : Walks w ns ns' w') : I w.session → I w'.session := by
  induction h with
  | nil w => exact id
  | inner _ _ _ _ ihchildren ihrest => exact ihrest ∘ ihchildren
  | @replaced w _ _ literal _ _ _ _ _ _ hrun _ _ ihclosure ihrest =>
      intro hw
      have hnext := hI.lowerTemplate (.ofNode literal) w.session hw
      rw [hrun] at hnext
      exact ihrest (ihclosure hnext)
  | @failed w _ literal _ _ _ _ _ hrun _ ihrest =>
      intro hw
      have hnext := hI.lowerTemplate (.ofNode literal) w.session hw
      rw [hrun] at hnext
      exact ihrest hnext

def Walk.start (environment : String) (program : Node) : Walk :=
  { session := ({ environment } : Session).enter program }

theorem Walk.spelt_start (environment : String) (program : Node) :
    (Walk.start environment program).session.Spelt := by
  intro e he
  cases he

theorem exists_run_require {s : Session} (h : s.hasScope = true) (symbol : String) :
    ∃ helper s₁, (require symbol).run s = (.ok helper, s₁) := by
  rw [run_require]
  cases hnames : s.names with
  | none => simp [hasScope, hnames] at h
  | some names => exact ⟨_, _, rfl⟩

theorem exists_walks_program (prologue : Prologue) (span : Span) (statements : List Node)
    (w : Walk) :
    ∃ images w', Walks w statements images w' ∧
      (walk (Node.node (.program prologue) span statements).markupDepth
        (.node (.program prologue) span statements)).run w =
          (.node (.program prologue) span images, w') := by
  have hwalk :=
    walks_walk (Nat.le_refl (Node.node (.program prologue) span statements).markupDepth) w
  generalize (walk (Node.node (.program prologue) span statements).markupDepth
    (.node (.program prologue) span statements)).run w = result at hwalk ⊢
  obtain ⟨walked, w'⟩ := result
  cases hwalk with
  | inner _ _ hstatements hrest =>
      cases hrest
      exact ⟨_, w', hstatements, rfl⟩
  | replaced hform => cases hform
  | failed hform => cases hform

/-- What becomes of a program whose literals are all replaced. -/
def finished (prologue : Prologue) (span : Span) (images : List Node) (helper : String)
    (s : Session) : Node :=
  .node (.program prologue) span (s.declarations ++ images ++ [delegateStatement helper s.events])

namespace Collector.Renders

variable {σ α : Type} {c : Collector σ α} {made value : σ} {a : Account α} {l : Lexicon}

theorem collect_declarations (h : c.Renders made a l) (s : Session) :
    c.collectOfList value s.declarations = [] := by
  refine collectOfList_eq_nil fun n hn => ?_
  obtain ⟨m, -, rfl⟩ := List.mem_map.mp hn
  have hspecifiers : c.collectOfList value (m.symbols.map Imports.specifier) = [] := by
    refine collectOfList_eq_nil fun n hn => ?_
    obtain ⟨e, -, rfl⟩ := List.mem_map.mp hn
    rw [Imports.specifier, h.collect_made _ rfl]
    simp [Node.leaf, h.collect_plain (.label e.1) rfl, h.collect_plain (.binding e.2) rfl]
  rw [Imports.declaration, h.collect_made _ rfl, collectOfList_cons, h.collect_made _ rfl,
    hspecifiers]
  simp [Emit.string, h.collect_string, h.collect_absent]

theorem collect_delegateStatement (h : c.Renders made a l) {helper : String}
    (hhelper : l.Helper "eventDelegate" helper) (events : List String) :
    c.collect value (delegateStatement helper events) = a.use "eventDelegate" := by
  have hevents : c.collectOfList value (events.map Emit.string) = [] := by
    refine collectOfList_eq_nil fun n hn => ?_
    obtain ⟨event, -, rfl⟩ := List.mem_map.mp hn
    exact h.collect_string event .synthetic
  rw [delegateStatement, h.collect_statement,
    h.collect_callHelper hhelper (by decide) (by decide)]
  simp [h.collect_array, hevents]

theorem collect_finished (h : c.Renders made a l) {helper : String}
    (hhelper : l.Helper "eventDelegate" helper) (prologue : Prologue) (span : Span)
    (images : List Node) (s : Session) :
    c.collect value (finished prologue span images helper s) =
      c.collectOfList value images ++ a.use "eventDelegate" := by
  rw [finished, h.collect_plain _ rfl]
  simp [h.collect_declarations, h.collect_delegateStatement hhelper]

end Collector.Renders

/-- A program is walked statement by statement. Then it is finished, unless a literal could not be
replaced. -/
theorem transform_cases (environment : String) (prologue : Prologue) (span : Span)
    (statements : List Node) :
    ∃ images w, Walks (.start environment (.node (.program prologue) span statements)) statements
        images w ∧
      ((w.errors ≠ [] ∧
        transform environment (.node (.program prologue) span statements) =
          ⟨.node (.program prologue) span images, w.templates, w.errors, w.session⟩) ∨
      (w.errors = [] ∧ ∃ helper s trace, (require "eventDelegate").run w.session = (.ok helper, s) ∧
        transform environment (.node (.program prologue) span statements) =
          ⟨finished prologue span images helper s, w.templates, [], { s with trace }⟩)) := by
  obtain ⟨images, w, hwalks, hrun⟩ := exists_walks_program prologue span statements
    (.start environment (.node (.program prologue) span statements))
  refine ⟨images, w, hwalks, ?_⟩
  unfold Walk.start at hrun
  unfold transform
  simp only [hrun]
  by_cases herrors : w.errors = []
  · have hspelt := hwalks.keeps stable_spelt (Walk.spelt_start environment _)
    have hscope := (hwalks.keeps (stable_grows _) (.refl _)).scope rfl
    obtain ⟨helper, s, hhelper⟩ := exists_run_require hscope "eventDelegate"
    refine .inr ⟨herrors, helper, s, ?_, hhelper, ?result⟩
    case result =>
      simp only [herrors, Node.children, run_finishProgram hspelt hhelper]
      rfl
  · refine .inl ⟨herrors, ?_⟩
    simp [herrors]

/-- The causes are those of the walk: once it is done, nothing can fail. -/
theorem errors_transform (environment : String) (prologue : Prologue) (span : Span)
    (statements : List Node) :
    (transform environment (.node (.program prologue) span statements)).errors =
      ((walk (Node.node (.program prologue) span statements).markupDepth
        (.node (.program prologue) span statements)).run
          (.start environment (.node (.program prologue) span statements))).2.errors := by
  obtain ⟨images, w, hwalks, hrun⟩ := exists_walks_program prologue span statements
    (.start environment (.node (.program prologue) span statements))
  obtain ⟨images', w', hwalks', ⟨-, htransform⟩ | ⟨herrors, helper, s, trace, -, htransform⟩⟩ :=
    transform_cases environment prologue span statements
  · obtain ⟨rfl, rfl⟩ := hwalks.unique hwalks'
    rw [htransform, hrun]
  · obtain ⟨rfl, rfl⟩ := hwalks.unique hwalks'
    rw [htransform, hrun, herrors]

/-- A statement with a component that has a property and a model, a literal in its slot, and a
conditional whose child is dropped. Some of its names look like generated ones. -/
def sampleStatements : List Node :=
  [.node .expressionStatement ⟨0, 79⟩ [.node .element ⟨0, 78⟩
    [.reference "Card" ⟨1, 5⟩, .absent,
     .node .group ⟨6, 40⟩
      [.node .attribute ⟨6, 24⟩
        [.node .tagNamespace ⟨6, 11⟩ [.leaf (.tagName "bind") ⟨6, 10⟩,
          .leaf (.tagName "x") ⟨11, 12⟩],
         .node .container ⟨13, 24⟩ [.node (.member false) ⟨14, 23⟩
          [.reference "_ele" ⟨14, 18⟩, .leaf (.label "get") ⟨19, 22⟩]]],
       .node .attribute ⟨25, 40⟩
        [.leaf (.tagName "model") ⟨25, 30⟩,
         .node .container ⟨31, 40⟩ [.reference "value" ⟨32, 37⟩]]],
     .node .group ⟨41, 70⟩
      [.node .container ⟨41, 50⟩ [.node .element ⟨42, 49⟩
        [.leaf (.plainTag ⟨⟨['b'], by decide⟩, rfl⟩) ⟨43, 44⟩, .absent, .node .group ⟨44, 44⟩ [],
         .node .group ⟨45, 45⟩ []]],
       .node .element ⟨51, 70⟩
        [.reference "If" ⟨52, 54⟩, .absent, .node .group ⟨54, 54⟩ [],
         .node .group ⟨55, 65⟩ [.node .container ⟨55, 65⟩ [.reference "_root" ⟨56, 61⟩]]]]]]]

theorem errors_transform_sampleStatements :
    (transform "rumious" (.node (.program {}) ⟨0, 79⟩ sampleStatements)).errors = [] := by
  rw [errors_transform]
  decide +kernel

end TemplateCompiler
