import TemplateCompiler.Proofs.Template.Program

namespace TemplateCompiler

open Lower Node Session

/-- Trees and their images. The image of a literal is a closure: the image of the one that it is
lowered to, in which the literals that it took over give way in turn. -/
inductive Images : List Node → List Node → Prop
  | nil : Images [] []
  | inner {form : Form} {children images rest rest' : List Node} (span : Span)
      (hform : form.isMarkup = false) (hchildren : Images children images)
        (hrest : Images rest rest') :
      Images (.node form span children :: rest) (.node form span images :: rest')
  | literal {literal closure : Node} {root context : String} {items rest rest' : List Node}
      {s s' : Session} (hform : literal.form.isMarkup = true)
      (hrun : (lowerTemplate (.ofNode literal)).run s = (.ok closure, s'))
      (hclosure : Images [closure] [Emit.closure root context items]) (hrest : Images rest rest') :
      Images (literal :: rest) (Emit.closure root context items :: rest')

theorem Images.literalsOfList_eq_nil {ns ns' : List Node} (h : Images ns ns') :
    literalsOfList ns' = [] := by
  induction h with
  | nil => rfl
  | inner span hform _ _ ihchildren ihrest =>
      simp [literalsOfList, literals, hform, ihchildren, ihrest]
  | literal _ _ _ _ ihclosure ihrest => simpa [literalsOfList, ihrest] using ihclosure

theorem Walks.append {w w₁ w₂ : Walk} {ns ns' ms ms' : List Node} (h : Walks w ns ns' w₁)
    (h' : Walks w₁ ms ms' w₂) : Walks w (ns ++ ms) (ns' ++ ms') w₂ := by
  induction h with
  | nil w => exact h'
  | inner span hform hchildren _ _ ihrest => exact .inner span hform hchildren (ihrest h')
  | replaced hform hrun hclosure _ _ ihrest => exact .replaced hform hrun hclosure (ihrest h')
  | failed hform hrun _ ihrest => exact .failed hform hrun (ihrest h')

theorem exists_walks (w : Walk) (ns : List Node) : ∃ ns' w', Walks w ns ns' w' := by
  have hwalk := walks_walk (Nat.le_refl (Node.node .group .synthetic ns).markupDepth) w
  generalize
    (walk (Node.node .group .synthetic ns).markupDepth (.node .group .synthetic ns)).run w =
      result at hwalk
  obtain ⟨walked, w'⟩ := result
  cases hwalk with
  | inner _ _ hchildren _ => exact ⟨_, _, hchildren⟩
  | replaced hform => cases hform
  | failed hform => cases hform

/-- A closure stays a closure: only its statements are walked. -/
theorem Walks.of_closure {w w' : Walk} {root context : String} {items : List Node} {image : Node}
    (h : Walks w [Emit.closure root context items] [image] w') :
    ∃ images, image = Emit.closure root context images := by
  obtain ⟨images, w₁, hitems⟩ := exists_walks w items
  have hcreate := walks_of_markupDepth_eq_zero w (Emit.constant (Emit.binding root)
    (Emit.call (Emit.member (Emit.name "document") "createDocumentFragment") [])) rfl
  have hreturn := walks_of_markupDepth_eq_zero w₁ (Emit.made .returnStatement [Emit.name root]) rfl
  have hhead := walks_of_markupDepthOfList_eq_zero w
    [.absent,
      Emit.made .parameters [Emit.made (.parameter {}) [Emit.binding context, .absent, .absent]],
     .absent] rfl
  have hbody : Walks w
      [Emit.made .body (Emit.constant (Emit.binding root)
        (Emit.call (Emit.member (Emit.name "document") "createDocumentFragment") []) ::
          items ++ [Emit.made .returnStatement [Emit.name root]])]
      [Emit.made .body (Emit.constant (Emit.binding root)
        (Emit.call (Emit.member (Emit.name "document") "createDocumentFragment") []) ::
          images ++ [Emit.made .returnStatement [Emit.name root]])] w₁ :=
    .inner .synthetic rfl ((hcreate.append hitems).append hreturn) (.nil w₁)
  have hclosure : Walks w [Emit.closure root context items] [Emit.closure root context images] w₁ :=
    .inner .synthetic rfl (hhead.append hbody) (.nil w₁)
  exact ⟨images, (List.cons.inj (h.unique hclosure).1).1⟩

theorem Walks.images {w w' : Walk} {ns ns' : List Node} (h : Walks w ns ns' w')
    (herrors : w'.errors = []) : Images ns ns' := by
  induction h with
  | nil => exact .nil
  | inner span hform _ hrest ihchildren ihrest =>
      exact .inner span hform (ihchildren (hrest.errors_eq_nil herrors)) (ihrest herrors)
  | replaced hform hrun hclosure hrest ihclosure ihrest =>
      have himage := ihclosure (hrest.errors_eq_nil herrors)
      obtain ⟨scope, -, -, items, -, -, -, -, rfl⟩ := lowers_of_run_template hrun
      obtain ⟨images, rfl⟩ := hclosure.of_closure
      exact .literal hform hrun himage (ihrest herrors)
  | failed _ _ hrest =>
      have hfail := hrest.errors_eq_nil herrors
      simp [Walk.fail] at hfail

theorem markupDepth_eq_zero_of_literals {n : Node} (h : n.literals = []) : n.markupDepth = 0 := by
  rw [← markupDepthOfList_literals, h, markupDepthOfList]

theorem literals_delegateStatement (helper : String) (events : List String) :
    (delegateStatement helper events).literals = [] := by
  rw [literals_eq_collect]
  exact renders_literals.collect_delegateStatement trivial events

theorem Images.literals_finished {ns images : List Node} (h : Images ns images)
    (prologue : Prologue) (span : Span) (helper : String) (s : Session) :
    (finished prologue span images helper s).literals = [] := by
  rw [literals_eq_collect, renders_literals.collect_finished trivial,
    ← literalCollector_agrees.eq_collectOfList, h.literalsOfList_eq_nil]
  rfl

/-- A program and what becomes of it when all its literals can be replaced. -/
structure Rewritten (program : Node) (result : Transformed) : Prop where
  /-- The first lines are kept. The body is the declarations of the imports, the images of the
  statements in their order, and the one statement that sets up the events. -/
  body : ∃ images helper, Images program.children images ∧
    ("eventDelegate", helper) ∈ result.session.imports.entries ∧
    result.program = .node program.form program.span (result.session.declarations ++ images ++
      [delegateStatement helper result.session.events])
  /-- No markup is left. -/
  markupDepth_eq : result.program.markupDepth = 0
  /-- The walk ends by itself: it never needs more depth than the program nests literals. -/
  run_walk_eq : ∀ depth, program.markupDepth ≤ depth → ∀ w,
    (walk depth program).run w = (walk program.markupDepth program).run w

theorem transform_rewritten (environment : String) (prologue : Prologue) (span : Span)
    (statements : List Node)
    (h : (transform environment (.node (.program prologue) span statements)).errors = []) :
    Rewritten (.node (.program prologue) span statements)
      (transform environment (.node (.program prologue) span statements)) := by
  obtain ⟨images, w, hwalks, ⟨herrors, hresult⟩ | ⟨herrors, helper, s, trace, hhelper, hresult⟩⟩ :=
    transform_cases environment prologue span statements
  · rw [hresult] at h
    exact absurd h herrors
  · rw [hresult]
    have himages := hwalks.images herrors
    refine ⟨⟨images, helper, himages, (of_run_require hhelper).2, rfl⟩, ?_,
      fun depth hdepth w => run_walk_eq hdepth w⟩
    exact markupDepth_eq_zero_of_literals (himages.literals_finished prologue span helper s)

theorem transform_rewritten_sample :
    (transform "rumious" (.node (.program {}) ⟨0, 79⟩ sampleStatements)).errors = [] ∧
      Rewritten (.node (.program {}) ⟨0, 79⟩ sampleStatements)
        (transform "rumious" (.node (.program {}) ⟨0, 79⟩ sampleStatements)) :=
  ⟨errors_transform_sampleStatements, transform_rewritten _ _ _ _ errors_transform_sampleStatements⟩

end TemplateCompiler
