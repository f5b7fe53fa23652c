import TemplateCompiler.Proofs.Syntax.Scope
import TemplateCompiler.Proofs.Template.Collection

namespace TemplateCompiler

open Lower Node

/-- Where variables and `this` are kept. -/
abbrev Environment := Head → Nat

/-- The environments in which the parts of a node may be evaluated: what the node binds may be kept
anywhere, and everything else is where it was. -/
def enters : Rule (Environment → Prop) := fun before form parts =>
  form.distribute before
    (fun inside => ∃ outside, before outside ∧
      ∀ head, form.binds parts head = false → inside head = outside head) parts

/-- What a path starts with. -/
def Node.head? : Node → Option Head
  | .node (.reference name) _ _ => some (.named name)
  | .node .thisValue _ _ => some .this
  | .node (.member _) _ (object :: _) => head? object
  | _ => none

/-- The paths that an expression reads through `get`, with the values that reach the reads. -/
def Node.reads {σ : Type} (rule : Rule σ) (value : σ) (e : Node) : List (σ × Node) :=
  (e.reached rule value).filterMap fun v => (readPath? v.2).map (v.1, ·)

theorem exists_head?_of_isPath {n : Node} (h : isPath n = true) : ∃ head, n.head? = some head := by
  fun_induction isPath n with
  | case1 name span => exact ⟨.named name, rfl⟩
  | case2 span => exact ⟨.this, rfl⟩
  | case3 isOptional span object name nameSpan ih => exact ih h
  | case4 => cases h

theorem isPath_of_readPath? {n path : Node} (h : readPath? n = some path) : isPath path = true := by
  unfold readPath? at h
  split at h
  · split at h
    · rename_i hpath
      cases h
      exact hpath
    · cases h
  · cases h

mutual

theorem dependencies_eq_filterMap : (n : Node) → dependencies n = n.nodes.filterMap readPath?
  | .node form span children => by
      rw [dependencies, nodes, dependenciesOfList_eq_filterMap children, List.filterMap_cons]
      cases readPath? (.node form span children) with
      | none => rfl
      | some path => rfl

theorem dependenciesOfList_eq_filterMap :
    (ns : List Node) → dependenciesOfList ns = (nodesOfList ns).filterMap readPath?
  | [] => rfl
  | n :: ns => by
      rw [dependenciesOfList, nodesOfList, List.filterMap_append, dependencies_eq_filterMap n,
        dependenciesOfList_eq_filterMap ns]

end

theorem length_distribute {σ : Type} (form : Form) (before inside : σ) (parts : List Node) :
    (form.distribute before inside parts).length = parts.length := by
  simp only [Form.distribute, List.length_append, List.length_map, List.length_take,
    List.length_drop]
  omega

theorem dependencies_eq_reads {σ : Type} {rule : Rule σ}
    (h : ∀ value form children, (rule value form children).length = children.length) (value : σ)
    (e : Node) :
    dependencies e = (e.reads rule value).map Prod.snd := by
  rw [dependencies_eq_filterMap, ← map_snd_reached h value e, Node.reads, List.filterMap_map,
    List.map_filterMap]
  congr 1
  funext v
  simp [Option.map_map, Function.comp_def]

/-- The environments that agree with one on what is not hidden. -/
def Agree (ρ : Environment) (before : Environment → Prop) (hidden : Head → Bool) : Prop :=
  ∀ inside, before inside ↔ ∀ head, hidden head = false → inside head = ρ head

theorem forall₂_distribute {σ τ : Type} {R : σ → τ → Prop} {before inside : σ} {before' inside' : τ}
    (hbefore : R before before') (hinside : R inside inside') (form : Form) (parts : List Node) :
    List.Forall₂ R (form.distribute before inside parts)
      (form.distribute before' inside' parts) := by
  have hmap : ∀ {a : σ} {b : τ}, R a b → ∀ ns : List Node,
      List.Forall₂ R (ns.map fun _ => a) (ns.map fun _ => b) := by
    intro a b hab ns
    induction ns with
    | nil => exact .nil
    | cons n ns ih => exact .cons hab ih
  exact List.rel_append (hmap hbefore _) (hmap hinside _)

theorem Agree.step {ρ : Environment} {before : Environment → Prop} {hidden : Head → Bool}
    (h : Agree ρ before hidden) (form : Form) (parts : List Node) :
    List.Forall₂ (Agree ρ) (enters before form parts) (hides hidden form parts) := by
  apply forall₂_distribute h
  intro inside
  constructor
  · rintro ⟨outside, hbefore, houtside⟩ head hhead
    rw [Bool.or_eq_false_iff] at hhead
    rw [houtside head hhead.2, (h outside).mp hbefore head hhead.1]
  · intro hinside
    -- What the node binds can be taken back to where it was.
    refine ⟨fun head => if form.binds parts head then ρ head else inside head, (h _).mpr ?_, ?_⟩
    · intro head hhead
      split
      · rfl
      · rename_i hbinds
        exact hinside head (by simp [hhead, hbinds])
    · intro head hbinds
      simp [hbinds]

theorem Agree.same_iff {ρ : Environment} {before : Environment → Prop} {hidden : Head → Bool}
    (h : Agree ρ before hidden) (head : Head) :
    (∀ inside, before inside → inside head = ρ head) ↔ hidden head = false := by
  constructor
  · intro hsame
    by_contra hhead
    rw [Bool.not_eq_false] at hhead
    have hmoved := hsame (fun other => if other = head then ρ head + 1 else ρ other) ((h _).mpr ?_)
    · simp at hmoved
    · intro other hother
      have hne : other ≠ head := by
        rintro rfl
        rw [hhead] at hother
        cases hother
      simp [hne]
  · intro hhead inside hinside
    exact (h inside).mp hinside head hhead

theorem reads_forall₂ {σ τ : Type} {R : σ → τ → Prop} {vs : List (σ × Node)} {ws : List (τ × Node)}
    (h : List.Forall₂ (fun v w => R v.1 w.1 ∧ v.2 = w.2) vs ws) :
    List.Forall₂ (fun v w => R v.1 w.1 ∧ v.2 = w.2 ∧ isPath w.2 = true)
      (vs.filterMap fun v => (readPath? v.2).map (v.1, ·)) (ws.filterMap fun v =>
        (readPath? v.2).map (v.1, ·)) := by
  induction h with
  | nil => exact .nil
  | @cons v w _ _ hhead _ ih =>
      obtain ⟨hvalue, hnode⟩ := hhead
      rw [List.filterMap_cons, List.filterMap_cons, hnode]
      cases hread : readPath? w.2 with
      | none => exact ih
      | some path => exact .cons ⟨hvalue, rfl, isPath_of_readPath? hread⟩ ih

theorem reads_agree (ρ : Environment) (e : Node) :
    List.Forall₂ (fun v w => Agree ρ v.1 w.1 ∧ v.2 = w.2 ∧ isPath w.2 = true)
      (e.reads enters (· = ρ)) (e.reads hides fun _ => false) := by
  apply reads_forall₂
  apply reached_forall₂ (fun h => h.step) e
  intro inside
  constructor
  · rintro rfl head -
    rfl
  · intro h
    funext head
    exact h head rfl

theorem enters_of_binds {form : Form} {parts : List Node}
    (h : ∀ head, form.binds parts head = false) (ρ : Environment) :
    enters (· = ρ) form parts = parts.map fun _ => (· = ρ) := by
  have hinside : (fun inside => ∃ outside, outside = ρ ∧
      ∀ head, form.binds parts head = false → inside head = outside head) = (· = ρ) := by
    funext inside
    apply propext
    constructor
    · rintro ⟨outside, rfl, hsame⟩
      funext head
      exact hsame head (h head)
    · rintro rfl
      exact ⟨inside, rfl, fun _ _ => rfl⟩
  rw [enters, hinside, Form.distribute, ← List.map_append, List.take_append_drop]

theorem reached_of_binds {form : Form} {parts : List Node}
    (h : ∀ head, form.binds parts head = false) (span : Span) (ρ : Environment) :
    (Node.node form span parts).reached enters (· = ρ) =
      ((· = ρ), .node form span parts) :: parts.flatMap (reached enters (· = ρ)) := by
  rw [reached, enters_of_binds h, reachedOfList_replicate]

theorem reached_sublist_flatMap {ρ : Environment} {parts : List Node} {part : Node}
    (h : part ∈ parts) :
    List.Sublist (part.reached enters (· = ρ)) (parts.flatMap (reached enters (· = ρ))) := by
  obtain ⟨before, behind, rfl⟩ := List.append_of_mem h
  rw [List.flatMap_append, List.flatMap_cons]
  exact (List.sublist_append_left _ _).trans (List.sublist_append_right _ _)

theorem map_sublist_flatMap (ρ : Environment) (paths : List Node) :
    List.Sublist (paths.map fun path => ((· = ρ), path))
      (paths.flatMap (reached enters (· = ρ))) := by
  induction paths with
  | nil => exact .slnil
  | cons path paths ih =>
      obtain ⟨form, span, children⟩ := path
      rw [List.map_cons, List.flatMap_cons, reached, List.cons_append]
      exact (ih.trans (List.sublist_append_right _ _)).cons_cons _

/-- A call that is evaluated in an environment evaluates the expression and the list of its
dependencies in the same one. -/
structure Placed (e call : Node) (ρ : Environment) : Prop where
  value : List.Sublist (e.reached enters (· = ρ)) (call.reached enters (· = ρ))
  paths : List.Sublist ((dependencies e).map fun path => ((· = ρ), path))
    (call.reached enters (· = ρ))

theorem reached_sublist_reactiveValue (e : Node) (ρ : Environment) :
    List.Sublist (e.reached enters (· = ρ)) ((reactiveValue e).1.reached enters (· = ρ)) := by
  rw [reactiveValue_eq]
  split
  · exact .refl _
  · have hbinds : ∀ head, (Form.arrow {}).binds
        [.absent, .node .parameters .synthetic [], .absent, e] head = false := by
      intro head
      cases head with
      | named name => rfl
      | this => rfl
    rw [thunk, reached_of_binds hbinds]
    exact .cons _ (reached_sublist_flatMap (by simp))

theorem placed_reactive (helper context : String) (subject e : Node) (ρ : Environment) :
    Placed e (Emit.call (Emit.name helper)
      [Emit.name context, subject, (reactiveValue e).1, Emit.array (reactiveValue e).2]) ρ := by
  have hcall : ∀ parts head, (Form.call false false).binds parts head = false := by
    intro parts head
    cases head with
    | named name => rfl
    | this => rfl
  have harray : ∀ parts head, Form.array.binds parts head = false := by
    intro parts head
    cases head with
    | named name => rfl
    | this => rfl
  have hpaths : List.Sublist ((dependencies e).map fun path => ((· = ρ), path))
      ((Emit.array (reactiveValue e).2).reached enters (· = ρ)) := by
    rw [reactiveValue_eq, Emit.array, Emit.made, reached_of_binds (harray _)]
    exact .cons _ (map_sublist_flatMap ρ _)
  rw [Emit.call, Emit.made]
  constructor
  · rw [reached_of_binds (hcall _)]
    exact .cons _ ((reached_sublist_reactiveValue e ρ).trans (reached_sublist_flatMap (by simp)))
  · rw [reached_of_binds (hcall _)]
    exact .cons _ (hpaths.trans (reached_sublist_flatMap (by simp)))

/-- What the dependencies of an expression are, and what they refer to. -/
structure ScopedDependencies (e : Node) : Prop where
  /-- There is one for each read, in the order of the reads. -/
  dependencies_eq : dependencies e = (e.reads hides fun _ => false).map Prod.snd
  /-- Where a read is evaluated, what the path starts with is kept where it is kept outside of the
  expression, if and only if the expression does not hide it there. -/
  refers : ∀ ρ : Environment, List.Forall₂
    (fun v w => v.2 = w.2 ∧ ∃ head, w.2.head? = some head ∧
      ((∀ inside, v.1 inside → inside head = ρ head) ↔ w.1 head = false))
    (e.reads enters (· = ρ)) (e.reads hides fun _ => false)
  /-- Lists of dependencies are evaluated outside of the expressions that they belong to. -/
  part : ∀ (scope : Scope) (s s' : Session) (items : List Node),
    (lowerPart scope e).run s = (.ok items, s') →
      ∃ call, items = [Emit.statement call] ∧ ∀ ρ, Placed e call ρ
  callback : ∀ (scope : Scope) (apply call : Node) (s s' : Session),
    (reactiveCallback scope apply e).run s = (.ok call, s') → ∀ ρ, Placed e call ρ

theorem dependencies_scoped (e : Node) : ScopedDependencies e := by
  refine ⟨dependencies_eq_reads (fun _ _ _ => length_distribute ..) _ e, ?_, ?_, ?_⟩
  · intro ρ
    refine (reads_agree ρ e).imp ?_
    rintro v w ⟨hagree, hpath, hisPath⟩
    obtain ⟨head, hhead⟩ := exists_head?_of_isPath hisPath
    exact ⟨hpath, head, hhead, hagree.same_iff head⟩
  · intro scope s s' items h
    obtain ⟨helper, s₁, -, h⟩ := run_bind_ok h
    obtain ⟨rfl, rfl⟩ := run_pure_ok h
    exact ⟨_, rfl, fun ρ => placed_reactive helper scope.context (Emit.name scope.anchor) e ρ⟩
  · intro scope apply call s s' h ρ
    obtain ⟨helper, s₁, -, h⟩ := run_bind_ok h
    obtain ⟨rfl, rfl⟩ := run_pure_ok h
    exact placed_reactive helper scope.context apply e ρ

/-- The parameter of a callback heads a dependency, which then refers to something else. -/
theorem dependencies_callback :
    ((Grammar.readExpression {} "items.get.map((i) => i.label.get)").node.map fun e =>
      (dependencies e).map head?) = some [some (.named "items"), some (.named "i")] ∧
    ((Grammar.readExpression {} "items.get.map((i) => i.label.get)").node.map fun e =>
      (e.reads hides fun _ => false).map fun v => v.2.head?.map v.1) =
        some [some false, some true] := by
  decide +kernel

end TemplateCompiler
