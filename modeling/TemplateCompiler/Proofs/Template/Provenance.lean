import TemplateCompiler.Proofs.Printer.Marking
import TemplateCompiler.Proofs.Template.Accounting
import TemplateCompiler.Proofs.Template.Dependency
import TemplateCompiler.Proofs.Template.Hygiene
import TemplateCompiler.Proofs.Template.Writing

namespace TemplateCompiler

open Lower Node Session

namespace Node

/-- The first lines of a program, which are no statements. -/
def firstLines : Node → List Node
  | node (.program prologue) _ _ => Printer.prologueItems prologue
  | _ => []

/-- All parts of a program, its first lines among them. -/
def parts (program : Node) : List Node := program.firstLines ++ program.nodes

/-- The labels and places of what is taken over from a program. -/
def takenOver (program : Node) : List (Form × Span) :=
  (program.firstLines.map place ++ program.kept ++ program.copied).filter fun p => p.2 ≠ .synthetic

/-- Nothing in a tree points into a source. -/
def IsSynthetic (n : Node) : Prop := ∀ m ∈ n.nodes, m.span = .synthetic

mutual

theorem nodes_subset_of_mem_nodes : (n : Node) → ∀ m ∈ n.nodes, m.nodes ⊆ n.nodes
  | .node form span children => by
      intro m hm
      rw [nodes, List.mem_cons] at hm
      rcases hm with rfl | hm
      · exact List.Subset.refl _
      · rw [nodes]
        exact List.subset_cons_of_subset _ (nodes_subset_of_mem_nodesOfList children m hm)

theorem nodes_subset_of_mem_nodesOfList :
    (ns : List Node) → ∀ m ∈ nodesOfList ns, m.nodes ⊆ nodesOfList ns
  | [] => by simp [nodesOfList]
  | n :: ns => by
      intro m hm
      rw [nodesOfList, List.mem_append] at hm
      rw [nodesOfList]
      rcases hm with hm | hm
      · exact List.subset_append_of_subset_left _ (nodes_subset_of_mem_nodes n m hm)
      · exact List.subset_append_of_subset_right _ (nodes_subset_of_mem_nodesOfList ns m hm)

end

theorem self_mem_nodes (n : Node) : n ∈ n.nodes := by
  obtain ⟨form, span, children⟩ := n
  exact List.mem_cons_self

theorem nodesOfList_eq_flatMap (ns : List Node) : nodesOfList ns = ns.flatMap nodes := by
  induction ns with
  | nil => rfl
  | cons n ns ih => rw [nodesOfList, ih, List.flatMap_cons]

theorem nodes_subset_node {form : Form} {span : Span} {children : List Node} {n : Node}
    (h : n ∈ children) :
    n.nodes ⊆ (node form span children).nodes := by
  intro m hm
  rw [nodes, nodesOfList_eq_flatMap]
  exact List.mem_cons_of_mem _ (List.mem_flatMap.mpr ⟨n, h, hm⟩)

theorem nodes_of_mem_firstLines {program line : Node} (h : line ∈ program.firstLines) :
    line.nodes = [line] := by
  unfold firstLines at h
  split at h
  · rcases List.mem_append.mp h with h | h
    · obtain ⟨⟨text, span⟩, -, rfl⟩ := List.mem_map.mp h
      rfl
    · obtain ⟨⟨raw, span⟩, -, rfl⟩ := List.mem_map.mp h
      rfl
  · cases h

theorem nodes_subset_parts {program n : Node} (h : n ∈ program.parts) :
    n.nodes ⊆ program.parts := by
  rcases List.mem_append.mp h with h | h
  · rw [nodes_of_mem_firstLines h]
    exact List.cons_subset.mpr ⟨List.mem_append_left _ h, List.nil_subset _⟩
  · exact List.subset_append_of_subset_right _ (nodes_subset_of_mem_nodes program n h)

theorem programItems_eq (program : Node) :
    Printer.programItems program = program.firstLines ++ program.children := by
  unfold Printer.programItems
  split
  · rfl
  · rename_i hprogram
    unfold firstLines
    split
    · exact (hprogram _ _ _ rfl).elim
    · rfl

theorem nodesOfList_programItems_subset (program : Node) :
    nodesOfList (Printer.programItems program) ⊆ program.parts := by
  intro m hm
  rw [nodesOfList_eq_flatMap, programItems_eq] at hm
  obtain ⟨item, hitem, hpart⟩ := List.mem_flatMap.mp hm
  rcases List.mem_append.mp hitem with hline | hchild
  · exact nodes_subset_parts (List.mem_append_left _ hline) hpart
  · obtain ⟨form, span, children⟩ := program
    exact List.mem_append_right _ (nodes_subset_node hchild hpart)

mutual

theorem isSynthetic_erase : (n : Node) → n.erase.IsSynthetic
  | .node form span children => by
      intro m hm
      rw [erase, nodes, List.mem_cons] at hm
      rcases hm with rfl | hm
      · rfl
      · exact span_of_mem_eraseList children m hm

theorem span_of_mem_eraseList :
    (ns : List Node) → ∀ m ∈ nodesOfList (eraseList ns), m.span = .synthetic
  | [] => by simp [eraseList, nodesOfList]
  | n :: ns => by
      intro m hm
      rw [eraseList, nodesOfList, List.mem_append] at hm
      exact hm.elim (isSynthetic_erase n m) (span_of_mem_eraseList ns m)

end

end Node

theorem Snippet.isSynthetic_of_expression {code : String} {n : Node}
    (h : Snippet.expression code = .ok n) :
    n.IsSynthetic := by
  simp only [Snippet.expression] at h
  split at h
  · split at h
    · cases h
      exact isSynthetic_erase _
    · cases h
  · cases h

theorem Snippet.isSynthetic_of_statements {code : String} {ns : List Node}
    (h : Snippet.statements code = .ok ns) :
    ∀ n ∈ ns, n.IsSynthetic := by
  simp only [Snippet.statements] at h
  split at h
  · split at h
    · cases h
      intro n hn m hm
      apply span_of_mem_eraseList
      rw [nodesOfList_eq_flatMap]
      exact List.mem_flatMap.mpr ⟨n, hn, hm⟩
    · cases h
  · cases h

theorem mem_nodes_of_mem_dependencies {n path : Node} (h : path ∈ dependencies n) :
    path ∈ n.nodes := by
  rw [dependencies_eq_filterMap] at h
  obtain ⟨m, hm, hread⟩ := List.mem_filterMap.mp h
  apply nodes_subset_of_mem_nodes n m hm
  unfold readPath? at hread
  split at hread
  · split at hread
    · cases hread
      exact nodes_subset_node List.mem_cons_self (self_mem_nodes _)
    · cases hread
  · cases hread

theorem mem_nodes_of_mem_dependencies_toNode {value path : Node}
    (h : path ∈ dependencies ((AttributeValue.ofNode value).toNode Emit.null)) :
    path ∈ value.nodes := by
  unfold AttributeValue.ofNode at h
  split at h
  · cases h
  · cases h
  · cases h
  · exact nodes_subset_node List.mem_cons_self (mem_nodes_of_mem_dependencies h)
  · exact mem_nodes_of_mem_dependencies h

theorem mem_nodes_of_mem_copiedPaths {position : Position} {n path : Node}
    (h : path ∈ copiedPaths position n) :
    path ∈ n.nodes := by
  unfold copiedPaths at h
  split at h
  · cases h
  · exact nodes_subset_node List.mem_cons_self (mem_nodes_of_mem_dependencies h)
  · exact nodes_subset_node List.mem_cons_self (mem_nodes_of_mem_dependencies h)
  · rename_i span name value
    have hvalue : value.nodes ⊆ (node .attribute span [name, value]).nodes :=
      nodes_subset_node (by simp)
    split at h
    · unfold Directive.copiedPaths at h
      split at h
      · exact hvalue (mem_nodes_of_mem_dependencies_toNode h)
      · exact hvalue (mem_nodes_of_mem_dependencies_toNode h)
      · cases h
    · cases h
  · cases h

theorem TagPath.exists_span_of_mem_toNode {n m : Node} (h : m ∈ (TagPath.ofNode n).toNode.nodes) :
    ∃ source ∈ n.nodes, source.span = m.span := by
  fun_induction TagPath.ofNode n with
  | case1 span object property propertySpan children ih =>
      simp only [toNode, nodes, nodesOfList, List.mem_cons, List.mem_append, List.not_mem_nil,
        or_false] at h
      rcases h with rfl | h | rfl
      · exact ⟨_, self_mem_nodes _, rfl⟩
      · obtain ⟨source, hsource, hspan⟩ := ih h
        exact ⟨source, nodes_subset_node (by simp) hsource, hspan⟩
      · exact ⟨.node (.tagName property) propertySpan children,
          nodes_subset_node (by simp) (self_mem_nodes _), rfl⟩
  | case2 name span children =>
      obtain rfl := List.mem_singleton.mp h
      exact ⟨_, self_mem_nodes _, rfl⟩
  | case3 n =>
      obtain rfl := List.mem_singleton.mp h
      exact ⟨n, self_mem_nodes n, rfl⟩

theorem Tag.path_of_ofNode {n : Node} {path : TagPath} (h : Tag.ofNode n = .path path) :
    path = .ofNode n := by
  unfold Tag.ofNode at h
  split at h
  · cases h
  · cases h
  · exact (Tag.path.inj h).symm

theorem exists_span_of_mem_convertedParts {position : Position} {n part m : Node}
    (h : part ∈ convertedParts position n) (hm : m ∈ part.nodes) :
    ∃ source ∈ n.nodes, source.span = m.span := by
  unfold convertedParts at h
  split at h
  · split at h
    · rename_i path htag
      obtain rfl := List.mem_singleton.mp h
      rw [Tag.path_of_ofNode htag] at hm
      exact TagPath.exists_span_of_mem_toNode hm
    · cases h
  · obtain rfl := List.mem_singleton.mp h
    obtain rfl := List.mem_singleton.mp hm
    exact ⟨_, self_mem_nodes _, rfl⟩
  · cases h

theorem exists_span_of_mem_takenOver {program : Node} {p : Form × Span}
    (h : p ∈ program.takenOver) :
    ∃ source ∈ program.parts, source.span = p.2 := by
  have hreached : ∀ v ∈ program.reached positions .value, v.2.nodes ⊆ program.parts := fun v hv =>
    List.subset_append_of_subset_right _ (nodes_subset_of_mem_nodes program v.2
      (mem_nodes_of_mem_reached program hv))
  rw [takenOver, List.mem_filter, List.mem_append, List.mem_append] at h
  obtain ⟨(hline | hkept) | hcopied, -⟩ := h
  · obtain ⟨line, hmem, rfl⟩ := List.mem_map.mp hline
    exact ⟨line, List.mem_append_left _ hmem, rfl⟩
  · obtain ⟨v, hv, hp⟩ := List.mem_flatMap.mp hkept
    rcases List.mem_append.mp hp with hown | hconverted
    · split at hown
      · obtain rfl := List.mem_singleton.mp hown
        exact ⟨v.2, hreached v hv (self_mem_nodes v.2), rfl⟩
      · cases hown
    · obtain ⟨part, hpart, hplace⟩ := List.mem_flatMap.mp hconverted
      obtain ⟨m, hm, rfl⟩ := List.mem_map.mp hplace
      obtain ⟨source, hsource, hspan⟩ := exists_span_of_mem_convertedParts hpart hm
      exact ⟨source, hreached v hv hsource, hspan⟩
  · obtain ⟨v, hv, hp⟩ := List.mem_flatMap.mp hcopied
    obtain ⟨path, hpath, hplace⟩ := List.mem_flatMap.mp hp
    obtain ⟨m, hm, rfl⟩ := List.mem_map.mp hplace
    exact ⟨m,
      hreached v hv (nodes_subset_of_mem_nodes v.2 path (mem_nodes_of_mem_copiedPaths hpath) hm),
      rfl⟩

/-- A compiled program in which everything that has a span was taken over
from the source program. -/
structure Attributed (program result : Node) : Prop where
  /-- A span in the result is the span of a part of the program. -/
  spans : ∀ n ∈ result.parts, n.span ≠ .synthetic → ∃ source ∈ program.parts, source.span = n.span
  /-- What has a span was taken over, one by one; so what the compiler has made has none. -/
  takenOver : ((result.parts.map place).filter fun p => p.2 ≠ .synthetic).Perm program.takenOver
  /-- The marks of the printed result point to what was taken over, -/
  marks : ∀ sourceLength, ∀ mark ∈ (Printer.program result sourceLength).marks,
    ∃ p ∈ program.takenOver, p.2.isEmpty = false ∧
    (mark.offset = p.2.start ∨ mark.offset = p.2.stop)
  /-- and none is made where nothing of it is printed. -/
  unmarked : ∀ n ∈ result.parts, (∀ m ∈ n.nodes, m.place ∉ program.takenOver) →
    ∀ depth style o, (Printer.Output.after o (Printer.printTo depth style n)).marks = o.marks

theorem Attributed.of_perm {program result : Node}
    (h : ((result.parts.map place).filter fun p => p.2 ≠ .synthetic).Perm program.takenOver) :
    Attributed program result := by
  have hplaces : ∀ n ∈ result.parts, n.span ≠ .synthetic → n.place ∈ program.takenOver := by
    intro n hn hspan
    exact h.mem_iff.mp (List.mem_filter.mpr ⟨List.mem_map_of_mem hn, decide_eq_true hspan⟩)
  refine ⟨?_, h, ?_, ?_⟩
  · intro n hn hspan
    exact exists_span_of_mem_takenOver (hplaces n hn hspan)
  · intro sourceLength mark hmark
    obtain ⟨m, hm, hempty, hoffset⟩ := Printer.exists_of_mem_marks hmark
    have hspan : m.span ≠ .synthetic := by
      intro hspan
      rw [hspan] at hempty
      cases hempty
    exact ⟨m.place, hplaces m (nodesOfList_programItems_subset result hm) hspan, hempty, hoffset⟩
  · intro n hn hmade
    refine Printer.marks_after_of_isEmpty fun m hm => ?_
    by_cases hspan : m.span = .synthetic
    · rw [hspan]
      rfl
    · exact absurd (hplaces m (nodes_subset_parts hn hm) hspan) (hmade m hm)

theorem perm_filter_of_count {α : Type} [BEq α] [LawfulBEq α] {p : α → Bool} {as bs : List α}
    (h : ∀ a, p a = true → as.count a = bs.count a) : (as.filter p).Perm (bs.filter p) := by
  rw [List.perm_iff_count]
  intro a
  by_cases ha : p a = true
  · rw [List.count_filter ha, List.count_filter ha, h a ha]
  · rw [List.count_eq_zero_of_not_mem, List.count_eq_zero_of_not_mem]
    · exact fun hmem => ha (List.mem_filter.mp hmem).2
    · exact fun hmem => ha (List.mem_filter.mp hmem).2

/-- What stands in a finished program and has a span was kept or copied. -/
theorem count_places_finished {environment : String} {prologue : Prologue} {span : Span}
    {statements images : List Node} {w : Walk}
    (hwalks : Walks (.start environment (.node (.program prologue) span statements)) statements
      images w)
    (herrors : w.errors = []) (helper : String) (s : Session) {p : Form × Span}
    (hp : p.2 ≠ .synthetic) : (finished prologue span images helper s).places.count p =
      (Node.node (.program prologue) span statements).kept.count p +
        (Node.node (.program prologue) span statements).copied.count p := by
  have hnames : (Node.node (.program prologue) span statements).usedNames ⊆
    (Walk.start environment (.node (.program prologue) span statements)).session.used :=
      fun _ hname => hname
  have hsum := (placeTally_fits hp _).sum_finished hwalks herrors hnames 0 (fun _ => rfl)
    prologue span helper s fun _ => rfl
  rw [total_placeTally, sum_placeTally] at hsum
  simpa using hsum

theorem attributed_of_errors_eq_nil {environment : String} {prologue : Prologue} {span : Span}
    {statements : List Node}
    (h : (transform environment (.node (.program prologue) span statements)).errors = []) :
    Attributed (.node (.program prologue) span statements)
      (transform environment (.node (.program prologue) span statements)).program := by
  obtain ⟨images, w, hwalks, ⟨herrors, hresult⟩ | ⟨herrors, helper, s, trace, -, hresult⟩⟩ :=
    transform_cases environment prologue span statements
  · rw [hresult] at h
    exact absurd h herrors
  · rw [hresult]
    change Attributed _ (finished prologue span images helper s)
    apply Attributed.of_perm
    apply perm_filter_of_count
    intro p hp
    have hcount := count_places_finished hwalks herrors helper s (of_decide_eq_true hp)
    have hlines : (finished prologue span images helper s).firstLines =
      (Node.node (.program prologue) span statements).firstLines := rfl
    rw [parts, List.map_append, List.count_append, ← places, hcount, hlines, List.count_append,
      List.count_append, Nat.add_assoc]

/-- What has a span in a compiled program was taken over, whether the rest is made at once or
written as text and read; and nothing that is read from a written text has a span before
something is put into it. -/
theorem transform_attributed (environment : String) (prologue : Prologue) (span : Span)
    (statements : List Node)
    (h : (transform environment (.node (.program prologue) span statements)).errors = []) :
    Attributed (.node (.program prologue) span statements)
        (transform environment (.node (.program prologue) span statements)).program ∧
      Attributed (.node (.program prologue) span statements)
        (Written.transform environment (.node (.program prologue) span statements)).program ∧
      (∀ code n, Snippet.expression code = .ok n → n.IsSynthetic) ∧
      ∀ code ns, Snippet.statements code = .ok ns → ∀ n ∈ ns, n.IsSynthetic := by
  have hattributed := attributed_of_errors_eq_nil h
  refine ⟨hattributed, ?_, ?_, ?_⟩
  · rw [Written.transform_eq]
    exact hattributed
  · exact fun _ _ hread => Snippet.isSynthetic_of_expression hread
  · exact fun _ _ hread => Snippet.isSynthetic_of_statements hread

def clientPrologue : Prologue := ⟨none, [("use client", ⟨0, 13⟩)]⟩

/-- A component behind a path, with a property in quotes and one that is kept current. -/
def pathStatements : List Node :=
  [.node .expressionStatement ⟨13, 49⟩ [.node .element ⟨13, 48⟩
    [.node .tagMember ⟨14, 21⟩ [.reference "ui" ⟨14, 16⟩, .leaf (.tagName "Card") ⟨17, 21⟩],
     .absent,
     .node .group .synthetic
      [.node .attribute ⟨22, 31⟩ [.leaf (.tagName "title") ⟨22, 27⟩, .string "a" ⟨28, 31⟩],
       .node .attribute ⟨32, 46⟩
        [.node .tagNamespace ⟨32, 38⟩
          [.leaf (.tagName "bind") ⟨32, 36⟩, .leaf (.tagName "x") ⟨37, 38⟩],
         .node .container ⟨39, 46⟩ [.node (.member false) ⟨40, 45⟩
          [.reference "y" ⟨40, 41⟩, .leaf (.label "get") ⟨42, 45⟩]]]],
     .node .group .synthetic []]]]

theorem errors_transform_pathStatements :
    (transform "rumious" (.node (.program clientPrologue) ⟨0, 49⟩ pathStatements)).errors = [] := by
  rw [errors_transform]
  decide +kernel

theorem transform_attributed_pathStatements :
    (transform "rumious" (.node (.program clientPrologue) ⟨0, 49⟩ pathStatements)).errors = [] ∧
      Attributed (.node (.program clientPrologue) ⟨0, 49⟩ pathStatements)
        (transform "rumious" (.node (.program clientPrologue) ⟨0, 49⟩ pathStatements)).program ∧
      (Node.node (.program clientPrologue) ⟨0, 49⟩ pathStatements).takenOver.map Prod.snd =
        [⟨0, 13⟩, ⟨0, 49⟩, ⟨13, 49⟩, ⟨14, 21⟩, ⟨14, 16⟩, ⟨17, 21⟩, ⟨28, 31⟩, ⟨40, 45⟩, ⟨40, 41⟩,
          ⟨42, 45⟩, ⟨40, 41⟩] :=
  ⟨errors_transform_pathStatements,
    (transform_attributed _ _ _ _ errors_transform_pathStatements).1, by decide +kernel⟩

end TemplateCompiler
