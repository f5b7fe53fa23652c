import TemplateCompiler.Proofs.Template.Scoping

namespace TemplateCompiler

open Lower Node Session

/-- The names that are introduced anywhere in trees, with repeats. -/
def bindingsOfList (ns : List Node) : List String :=
  (identifiersOfList ns).flatMap fun place => place.1.bound

theorem bindingsOfList_cons (form : Form) (span : Span) (children ns : List Node) :
    bindingsOfList (.node form span children :: ns) =
      form.bound ++ bindingsOfList children ++ bindingsOfList ns := by
  have hown : (if form.identifier?.isSome then [(form, span)] else []).flatMap
      (fun place => place.1.bound) =
      form.bound := by
    cases form with
    | binding name => rfl
    | reference name => rfl
    | _ => rfl
  simp only [bindingsOfList, identifiersOfList, identifiers, List.flatMap_append, hown]

theorem bindingsOfList_append (ns ms : List Node) :
    bindingsOfList (ns ++ ms) = bindingsOfList ns ++ bindingsOfList ms := by
  induction ns with
  | nil => rfl
  | cons n ns ih =>
      obtain ⟨form, span, children⟩ := n
      simp only [List.cons_append, bindingsOfList_cons, ih, List.append_assoc]

theorem count_introduces_le (form : Form) (parts : List (List String)) (name : String) :
    (form.introduces parts).count name ≤ form.bound.count name + parts.flatten.count name := by
  have hsplit : parts.flatten.count name =
      (parts.take 1).flatten.count name + (parts.drop 1).flatten.count name := by
    rw [← List.count_append, ← List.flatten_append, List.take_append_drop]
  have hselected : ∀ selection : Selection,
      (selection.of parts).flatten.count name ≤ parts.flatten.count name := by
    intro selection
    cases selection with
    | nothing => exact Nat.zero_le _
    | first =>
        rw [Selection.of]
        omega
    | later =>
        rw [Selection.of]
        omega
    | everything => exact Nat.le_refl _
  unfold Form.introduces
  split
  · exact Nat.le_add_right _ _
  · exact Nat.le_add_left_of_le (hselected _)

mutual

theorem count_introduced_le (name : String) :
    (n : Node) → n.introduced.count name ≤ (bindingsOfList [n]).count name
  | .node form span children => by
      have hparts := count_introducedEach_le name children
      have hform := count_introduces_le form (introducedEach children) name
      rw [introduced, bindingsOfList_cons, List.count_append, List.count_append]
      omega

theorem count_introducedEach_le (name : String) :
    (ns : List Node) → (introducedEach ns).flatten.count name ≤ (bindingsOfList ns).count name
  | [] => Nat.le_refl _
  | n :: ns => by
      have hn := count_introduced_le name n
      have hns := count_introducedEach_le name ns
      rw [introducedEach, List.flatten_cons, List.count_append, ← List.singleton_append,
        bindingsOfList_append, List.count_append]
      omega

end

theorem count_declarations_le (parent : Form) (n : Node) (name : String) :
    ((declarations parent n).map Declaration.name).count name ≤
      (bindingsOfList [n]).count name := by
  have hn := count_introduced_le name n
  unfold declarations
  split
  all_goals simp only [List.map_map, Function.comp_def, List.map_id', List.map_nil, List.count_nil]
  all_goals omega

mutual

/-- Every declaration in force at a node was in force at the root, or is introduced in between. -/
theorem count_inForce_le (name : String) : (n : Node) → ∀ (visible : List Declaration),
    ∀ v ∈ n.reached inForce visible, (v.1.map Declaration.name).count name ≤
      (visible.map Declaration.name).count name + (bindingsOfList [n]).count name
  | .node form span children => by
      intro visible v hv
      rw [bindingsOfList_cons, List.count_append, List.count_append]
      rcases List.mem_cons.mp hv with rfl | hinner
      · exact Nat.le_add_right _ _
      · have hchildren := count_inForceOfList_le name children form visible v hinner
        omega

theorem count_inForceOfList_le (name : String) : (ns : List Node) → ∀ (parent : Form)
    (visible : List Declaration), ∀ v ∈ reachedOfList inForce (inForce visible parent ns) ns,
      (v.1.map Declaration.name).count name ≤
        (visible.map Declaration.name).count name + (bindingsOfList ns).count name
  | [] => by simp
  | n :: ns => by
      intro parent visible v hv
      rw [← List.singleton_append, bindingsOfList_append, List.count_append]
      rcases List.mem_append.mp hv with hfirst | hrest
      · have hn := count_inForce_le name n visible v hfirst
        omega
      · have hns := count_inForceOfList_le name ns parent _ v hrest
        have hdeclarations := count_declarations_le parent n name
        rw [List.map_append, List.count_append] at hns
        omega

end

theorem bindingsOfList_within {program : Node} {ns : List Node} (h : ∀ n ∈ ns, Within program n)
    {name : String} (hname : name ∉ program.usedNames) : (bindingsOfList ns).count name = 0 := by
  rw [List.count_eq_zero]
  intro hmem
  obtain ⟨⟨form, span⟩, hplace, hbound⟩ := List.mem_flatMap.mp hmem
  have hidentifier : form.identifier? = some name := by
    cases form with
    | binding other =>
        obtain rfl := List.mem_singleton.mp hbound
        rfl
    | _ => cases hbound
  exact hname (mem_usedNames_of_mem_identifiers hidentifier program
    (identifiersOfList_subset.mpr h hplace))

/-- In woven trees, the names that do not belong to the program are introduced by made nodes. -/
theorem Woven.count_bindings {program : Node} {minted : String → Prop} {ns : List Node}
    {bound : List String} (h : Woven program minted ns bound) {name : String}
    (hname : name ∉ program.usedNames) (hvalue : name ≠ "value") :
    (bindingsOfList ns).count name = bound.count name := by
  induction h with
  | nil => rfl
  | @source n rest _ hsource _ ih =>
      have hn := bindingsOfList_within (List.forall_mem_singleton.mpr hsource) hname
      rw [← List.singleton_append, bindingsOfList_append, List.count_append, hn, ih, Nat.zero_add]
  | @around form span _ _ _ _ _ hsource _ _ ihchildren ihrest =>
      have hleaf := bindingsOfList_within (List.forall_mem_singleton.mpr hsource) hname
      rw [bindingsOfList_cons, List.count_append, List.count_append] at hleaf
      rw [bindingsOfList_cons, List.count_append, List.count_append, List.count_append, ihchildren,
        ihrest]
      omega
  | made _ _ _ _ _ ihchildren ihrest =>
      rw [Emit.made, bindingsOfList_cons, List.count_append, List.count_append, List.count_append,
        List.count_append, ihchildren, ihrest]
  | @callback body _ _ _ hnames _ ih =>
      have hbody : (bindingsOfList [body]).count name = 0 := by
        rw [List.count_eq_zero]
        intro hmem
        obtain ⟨place, hplace, hbound⟩ := List.mem_flatMap.mp hmem
        rw [identifiersOfList, identifiersOfList, List.append_nil] at hplace
        obtain ⟨-, other, hreference, -⟩ := hnames place hplace
        rw [hreference] at hbound
        cases hbound
      have hparameter : ["value"].count name = 0 := by simp [hvalue.symm]
      have hnil : (bindingsOfList []).count name = 0 := rfl
      simp only [Emit.arrow, Emit.made, Emit.binding, Node.absent, bindingsOfList_cons, Form.bound,
        List.count_append, List.count_nil, hparameter, hnil, hbody, ih, Nat.zero_add]

theorem introduced_declaration (m : ModuleImports) :
    (Imports.declaration m).introduced = m.symbols.map Prod.snd := by
  have hspecifiers : ∀ symbols : List (String × String),
      (introducedEach (symbols.map Imports.specifier)).flatten = symbols.map Prod.snd := by
    intro symbols
    induction symbols with
    | nil => rfl
    | cons e symbols ih =>
        rw [List.map_cons, introducedEach, List.flatten_cons, ih]
        rfl
  change (introducedEach (m.symbols.map Imports.specifier)).flatten ++ [] = _
  rw [hspecifiers, List.append_nil]

theorem scoped_declaration {known : String → Prop} {visible : List Declaration}
    (m : ModuleImports) :
    Scoped known visible (Imports.declaration m) := by
  have hspecifier : ∀ e, Scoped known visible (Imports.specifier e) := by
    intro e
    have hlabel : Scoped known visible (.leaf (.label e.1) .synthetic) := scoped_leaf (by simp)
    have hbinding : Scoped known visible (.leaf (.binding e.2) .synthetic) := scoped_leaf (by simp)
    rw [Imports.specifier, scoped_plain (by simp) (fun _ => rfl)]
    simp [hlabel, hbinding]
  have hgroup : Scoped known visible (Emit.made .group (m.symbols.map Imports.specifier)) := by
    rw [scoped_plain (by simp) (fun _ => rfl)]
    intro n hn
    obtain ⟨e, -, rfl⟩ := List.mem_map.mp hn
    exact hspecifier e
  rw [Imports.declaration, scoped_plain (by simp) (fun _ => rfl)]
  simp [hgroup, scoped_string, scoped_absent]

theorem scopedList_declarations {known : String → Prop} {visible : List Declaration} {parent : Form}
    (s : Session) : ScopedList known visible parent s.declarations := by
  unfold Session.declarations
  induction s.imports.modules generalizing visible with
  | nil => exact scopedList_nil
  | cons m ms ih => exact scopedList_cons_iff.mpr ⟨scoped_declaration m, ih⟩

theorem Session.Spelt.declared {s : Session} (h : s.Spelt) (prologue : Prologue) :
    s.Declared (afterwards (.program prologue) [] s.declarations) := by
  intro e he
  obtain ⟨hsymbol, index, hname⟩ := h e he
  have hgenerated : Declaration.IsGenerated ⟨.imported, e.2⟩ := by
    refine ⟨e.1, List.mem_append_left _ hsymbol, index, ?_⟩
    rw [Binder.ofStem, if_pos hsymbol, hname]
  refine ⟨_, ?_, rfl, hgenerated⟩
  unfold Session.declarations
  unfold Imports.entries at he
  generalize ([] : List Declaration) = visible
  generalize s.imports.modules = modules at he ⊢
  induction modules generalizing visible with
  | nil => cases he
  | cons m ms ih =>
      rw [List.flatMap_cons, List.mem_append] at he
      rw [List.map_cons, afterwards, List.foldl_cons]
      rcases he with hfirst | hrest
      · apply subset_afterwards
        apply List.mem_append_left
        change _ ∈ (Imports.declaration m).introduced.map (Declaration.mk .imported)
        rw [introduced_declaration]
        exact List.mem_map_of_mem (List.mem_map_of_mem hfirst)
      · exact ih _ hrest

theorem stable_underscore (names : List String) :
    Stable fun s => ∀ name ∈ s.used, name ∈ names ∨ name.toList.head? = some '_' := by
  have hgenerate : ∀ (supply : FreshNames) (base : String),
      (supply.generate base).1.toList.head? = some '_' := by
    intro supply base
    obtain ⟨index, hname⟩ := supply.generate_eq_spelling base
    simp [hname, FreshNames.toList_spelling]
  refine ⟨fun base => .fresh ?_, fun symbol _ => .require ?_, fun _ _ hs => hs, fun _ _ hs => hs⟩
  · intro s supply hsupply hs
    simp only [Session.used, hsupply, FreshNames.used_generate] at hs ⊢
    exact List.forall_mem_cons.mpr ⟨.inr (hgenerate supply base), hs⟩
  · intro s supply hsupply hs
    simp only [Session.used, hsupply] at hs ⊢
    rcases s.imports.require_cases supply symbol s.environment with ⟨old, -, heq⟩ | heq
    · simpa only [heq] using hs
    · simp only [heq, FreshNames.used_generate]
      exact List.forall_mem_cons.mpr ⟨.inr (hgenerate supply symbol), hs⟩

theorem not_known_of_minted {program : Node} {s : Session} {name : String}
    (hs : ∀ name ∈ s.used, name ∈ program.usedNames ∨ name.toList.head? = some '_')
    (hname : s.Minted program.usedNames name) : ¬ Known program name := by
  have hhead := (hs name hname.1).resolve_left hname.2
  rintro (hprogram | rfl | rfl)
  · exact hname.2 hprogram
  · simp at hhead
  · simp at hhead

section

variable {environment : String} {prologue : Prologue} {span : Span} {statements images : List Node}
  {w : Walk} {helper : String} {s : Session}

theorem spelt_of_walks
    (h : Walks (.start environment (.node (.program prologue) span statements)) statements images w)
    (hhelper : (require "eventDelegate").run w.session = (.ok helper, s)) : s.Spelt := by
  have hkeeps := stable_spelt.require "eventDelegate" (by decide) _
    (h.keeps stable_spelt (Walk.spelt_start environment _))
  rwa [hhelper] at hkeeps

theorem underscore_of_walks
    (h : Walks (.start environment (.node (.program prologue) span statements)) statements images w)
    (hhelper : (require "eventDelegate").run w.session = (.ok helper, s)) :
    ∀ name ∈ s.used,
      name ∈ (Node.node (.program prologue) span statements).usedNames ∨
        name.toList.head? = some '_' := by
  have hkeeps := (stable_underscore _).require "eventDelegate" (by decide) _
    (h.keeps (stable_underscore _) fun name hname => .inl hname)
  rwa [hhelper] at hkeeps

/-- In a finished program, a declaration is in force wherever a generated name is used. -/
theorem scoped_finished
    (hwalks : Walks (.start environment (.node (.program prologue) span statements)) statements
      images w)
    (herrors : w.errors = [])
    (hhelper : (require "eventDelegate").run w.session = (.ok helper, s)) :
    Scoped (Known (.node (.program prologue) span statements)) []
      (finished prologue span images helper s) := by
  obtain ⟨-, hstatements⟩ :=
    within_node_iff.mp (within_self (.node (.program prologue) span statements))
  have hdeclared := (spelt_of_walks hwalks hhelper).declared prologue
  have himages :=
    hwalks.scoped herrors (literals_within hstatements)
      (hdeclared.of_grows (of_run_require hhelper).1)
    (scopedList_of_within statements hstatements _ (.program prologue))
  have hdelegate : Scoped (Known (.node (.program prologue) span statements))
      (afterwards (.program prologue) [] (s.declarations ++ images))
        (delegateStatement helper s.events) := by
    refine scoped_statement.mpr (scoped_call.mpr ⟨scoped_name ?_, List.forall_mem_singleton.mpr ?_⟩)
    · rw [afterwards, List.foldl_append]
      exact (hdeclared.helper hhelper).mono subset_afterwards
    · rw [Emit.array, scoped_plain (by simp) fun _ => rfl]
      intro n hn
      obtain ⟨event, -, rfl⟩ := List.mem_map.mp hn
      exact scoped_string event
  exact scoped_node_iff.mpr ⟨by simp [Bound], scopedList_append_iff.mpr
    ⟨scopedList_append_iff.mpr ⟨scopedList_declarations s, himages⟩,
      scopedList_cons_iff.mpr ⟨hdelegate, scopedList_nil⟩⟩⟩

theorem count_bindings_finished
    (hwalks : Walks (.start environment (.node (.program prologue) span statements)) statements
      images w)
    (herrors : w.errors = []) (hhelper : (require "eventDelegate").run w.session = (.ok helper, s))
    {name : String}
    (hname : s.Minted (Node.node (.program prologue) span statements).usedNames name) :
    (bindingsOfList [finished prologue span images helper s]).count name = 1 := by
  obtain ⟨minted, bound, hused, hnodup, -, hperm, hwoven⟩ := woven_finished hwalks herrors hhelper
  have hvalue : name ≠ "value" := fun hvalue =>
    not_known_of_minted (underscore_of_walks hwalks hhelper) hname (.inr (.inr hvalue))
  have hmem := hname.1
  rw [hused] at hmem
  rw [hwoven.count_bindings hname.2 hvalue, hperm.count_eq,
    List.count_eq_one_of_mem hnodup ((List.mem_append.mp hmem).resolve_right hname.2)]

end

theorem filter_eq_singleton {visible : List Declaration} {d : Declaration} (hd : d ∈ visible)
    (hcount : (visible.map Declaration.name).count d.name ≤ 1) :
    visible.filter (·.name == d.name) = [d] := by
  have hlength : (visible.filter (·.name == d.name)).length ≤ 1 := by
    rw [List.count, List.countP_map, List.countP_eq_length_filter] at hcount
    exact hcount
  have hmem : d ∈ visible.filter (·.name == d.name) := List.mem_filter.mpr ⟨hd, by simp⟩
  obtain ⟨other, hother⟩ := List.length_eq_one_iff.mp
    (Nat.le_antisymm hlength (List.length_pos_of_mem hmem))
  rw [hother] at hmem ⊢
  rw [List.mem_singleton.mp hmem]

/-- A program in which every generated name is bound. -/
structure NamesBound (program : Node) (result : Transformed) : Prop where
  /-- Where a minted name is used, one declaration of it is in force, and it is of the kind that the
  word it is made from calls for. -/
  used : ∀ v ∈ result.program.reached inForce [], ∀ name, v.2.form = .reference name →
    result.session.Minted program.usedNames name →
      ∃ stem ∈ helperSymbols ++ localBases, ∃ index, name = FreshNames.spelling stem index ∧
        v.1.filter (·.name == name) = [⟨.ofStem stem, name⟩]
  /-- Every minted name is introduced once, so nothing else can come in between. -/
  introduced : ∀ name, result.session.Minted program.usedNames name →
    (bindingsOfList [result.program]).count name = 1

theorem transform_namesBound (environment : String) (prologue : Prologue) (span : Span)
    (statements : List Node)
    (h : (transform environment (.node (.program prologue) span statements)).errors = []) :
    NamesBound (.node (.program prologue) span statements)
      (transform environment (.node (.program prologue) span statements)) := by
  obtain ⟨images, w, hwalks, ⟨herrors, hresult⟩ | ⟨herrors, helper, s, trace, hhelper, hresult⟩⟩ :=
    transform_cases environment prologue span statements
  · rw [hresult] at h
    exact absurd h herrors
  · rw [hresult]
    refine ⟨?_, fun name hname => count_bindings_finished hwalks herrors hhelper hname⟩
    intro v hv name hform hname
    have hunknown := not_known_of_minted (underscore_of_walks hwalks hhelper) hname
    obtain ⟨d, hd, rfl, stem, hstem, index, rfl⟩ :=
      (scoped_finished hwalks herrors hhelper v hv name hform).resolve_left hunknown
    refine ⟨stem, hstem, index, rfl, filter_eq_singleton hd ?_⟩
    have hcount := count_inForce_le (FreshNames.spelling stem index) _ [] v hv
    rw [count_bindings_finished hwalks herrors hhelper hname] at hcount
    exact hcount

theorem transform_namesBound_sample :
    (transform "rumious" (.node (.program {}) ⟨0, 79⟩ sampleStatements)).errors = [] ∧
      NamesBound (.node (.program {}) ⟨0, 79⟩ sampleStatements)
        (transform "rumious" (.node (.program {}) ⟨0, 79⟩ sampleStatements)) :=
  ⟨errors_transform_sampleStatements,
    transform_namesBound _ _ _ _ errors_transform_sampleStatements⟩

end TemplateCompiler
