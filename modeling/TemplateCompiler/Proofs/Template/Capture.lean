import TemplateCompiler.Compile
import TemplateCompiler.Proofs.Template.Binding
import TemplateCompiler.Proofs.Template.Position

namespace TemplateCompiler

open Lower Node Session

/-- A node around another one: its label and its parts. -/
structure Frame where
  form : Form
  parts : List Node

namespace Frame

/-- What the parts of a frame declare for one another. -/
def declared (frame : Frame) : List String :=
  (frame.parts.flatMap (declarations frame.form)).map Declaration.name

/-- The variables that a frame has for its parts. -/
def names (frame : Frame) : List String := frame.form.locals frame.parts ++ frame.declared

/-- A frame is an enumeration with a member of the name. In such a frame the member can be used as
if it was a variable, although it is introduced as a property. -/
def Enumerates (frame : Frame) (name : String) : Prop :=
  (∃ isDeclared isConst, frame.form = .enumeration isDeclared isConst) ∧
    ∃ part ∈ frame.parts, (∃ isComputed, part.form = .enumMember isComputed) ∧
    name ∈ part.enumerated

/-- A frame has a variable because one of its parts declares it, and the variable was made. -/
def Makes (frame : Frame) (name : String) : Prop :=
  ∃ part ∈ frame.parts, name ∈ (declarations frame.form part).map Declaration.name ∧
    ∀ place ∈ part.identifiers, place.1 = .binding name → place.2 = .synthetic

end Frame

/-- The frames around the parts of a node, innermost first. -/
def enclosing : Rule (List Frame) := fun frames form parts =>
  form.distribute frames (⟨form, parts⟩ :: frames) parts

/-- The frame that has the variable a name stands for. A name for which there is none is global. -/
def resolve (frames : List Frame) (name : String) : Option Frame :=
  frames.find? fun frame => frame.names.contains name

theorem mem_enclosing {frames value : List Frame} {form : Form} {parts : List Node}
    (h : value ∈ enclosing frames form parts) :
    value = frames ∨ value = ⟨form, parts⟩ :: frames := by
  rw [enclosing, Form.distribute, List.mem_append, List.mem_map, List.mem_map] at h
  rcases h with ⟨_, -, rfl⟩ | ⟨_, -, rfl⟩
  · exact .inl rfl
  · exact .inr rfl

theorem length_enclosing (frames : List Frame) (form : Form) (parts : List Node) :
    (enclosing frames form parts).length = parts.length := by
  rw [enclosing, Form.distribute, List.length_append, List.length_map, List.length_map,
    ← List.length_append, List.take_append_drop]

theorem resolve_cons_of_mem {frame : Frame} {name : String} (h : name ∈ frame.names)
    (frames : List Frame) :
    resolve (frame :: frames) name = some frame :=
  List.find?_cons_of_pos (List.contains_iff_mem.mpr h)

theorem resolve_cons_of_not_mem {frame : Frame} {name : String} (h : name ∉ frame.names)
    (frames : List Frame) :
    resolve (frame :: frames) name = resolve frames name :=
  List.find?_cons_of_neg (by simpa using h)

theorem mem_names_of_resolve {frames : List Frame} {frame : Frame} {name : String}
    (h : resolve frames name = some frame) : frame ∈ frames ∧ name ∈ frame.names :=
  ⟨List.mem_of_find?_eq_some h, by simpa using List.find?_some h⟩

theorem mem_bindingsOfList_iff {name : String} {ns : List Node} :
    name ∈ bindingsOfList ns ↔ ∃ span, (Form.binding name, span) ∈ identifiersOfList ns := by
  rw [bindingsOfList, List.mem_flatMap]
  constructor
  · rintro ⟨⟨form, span⟩, hplace, hname⟩
    cases form with
    | binding other =>
        obtain rfl := List.mem_singleton.mp hname
        exact ⟨span, hplace⟩
    | _ => cases hname
  · rintro ⟨span, hplace⟩
    exact ⟨_, hplace, List.mem_singleton_self name⟩

theorem identifiers_subset_of_mem {n : Node} {ns : List Node} (h : n ∈ ns) :
    n.identifiers ⊆ identifiersOfList ns :=
  identifiersOfList_subset.mp (List.Subset.refl _) n h

theorem identifiersOfList_subset_of_subset {ns ms : List Node} (h : ns ⊆ ms) :
    identifiersOfList ns ⊆ identifiersOfList ms :=
  identifiersOfList_subset.mpr fun _ hn => identifiers_subset_of_mem (h hn)

theorem bindingsOfList_subset_of_subset {ns ms : List Node} (h : ns ⊆ ms) :
    bindingsOfList ns ⊆ bindingsOfList ms := by
  intro name hname
  obtain ⟨span, hplace⟩ := mem_bindingsOfList_iff.mp hname
  exact mem_bindingsOfList_iff.mpr ⟨span, identifiersOfList_subset_of_subset h hplace⟩

theorem bindingsOfList_children_subset (n : Node) :
    bindingsOfList n.children ⊆ bindingsOfList [n] := by
  obtain ⟨form, span, children⟩ := n
  rw [bindingsOfList_cons]
  exact List.subset_append_of_subset_left _ (List.subset_append_right _ _)

theorem introduced_subset (n : Node) : n.introduced ⊆ bindingsOfList [n] := by
  intro name hname
  have hcount := count_introduced_le name n
  exact List.count_pos_iff.mp (Nat.lt_of_lt_of_le (List.count_pos_iff.mpr hname) hcount)

theorem introducedEach_subset (ns : List Node) :
    (introducedEach ns).flatten ⊆ bindingsOfList ns := by
  intro name hname
  have hcount := count_introducedEach_le name ns
  exact List.count_pos_iff.mp (Nat.lt_of_lt_of_le (List.count_pos_iff.mpr hname) hcount)

theorem lexical_subset (n : Node) : n.lexical ⊆ bindingsOfList [n] := by
  unfold lexical
  split
  · exact List.nil_subset _
  · exact introduced_subset n

mutual

theorem hoisted_subset : (n : Node) → n.hoisted ⊆ bindingsOfList [n]
  | .node form span children => by
      have hchildren := bindingsOfList_children_subset (.node form span children)
      unfold hoisted
      split
      · exact List.Subset.trans (introducedEach_subset children) hchildren
      · exact List.nil_subset _
      · exact List.nil_subset _
      · exact List.nil_subset _
      · exact List.nil_subset _
      · exact List.nil_subset _
      · exact List.Subset.trans (hoistedOfList_subset children) hchildren

theorem hoistedOfList_subset : (ns : List Node) → hoistedOfList ns ⊆ bindingsOfList ns
  | [] => List.nil_subset _
  | n :: ns => by
      rw [hoistedOfList, ← List.singleton_append, bindingsOfList_append, List.append_subset]
      exact ⟨List.subset_append_of_subset_left _ (hoisted_subset n),
        List.subset_append_of_subset_right _ (hoistedOfList_subset ns)⟩

end

theorem flatMap_subset_bindings {f : Node → List String} {ns : List Node}
    (h : ∀ n ∈ ns, f n ⊆ bindingsOfList [n]) : ns.flatMap f ⊆ bindingsOfList ns := by
  intro name hname
  obtain ⟨n, hn, hname⟩ := List.mem_flatMap.mp hname
  exact bindingsOfList_subset_of_subset (List.cons_subset.mpr ⟨hn, List.nil_subset _⟩)
    (h n hn hname)

theorem declarations_subset (form : Form) (part : Node) :
    (declarations form part).map Declaration.name ⊆ bindingsOfList [part] := by
  have hintroduced := introduced_subset part
  unfold declarations
  split
  all_goals simp only [List.map_map, Function.comp_def, List.map_id', List.map_nil]
  · exact hintroduced
  · exact hintroduced
  · exact hintroduced
  · exact List.nil_subset _

theorem enumerated_subset {n : Node} (h : ∀ isComputed, n.form ≠ .enumMember isComputed) :
    n.enumerated ⊆ bindingsOfList [n] := by
  unfold enumerated
  split
  · exact (h _ rfl).elim
  · exact (h _ rfl).elim
  · exact introduced_subset n

theorem Frame.of_mem_names {frame : Frame} {name : String} (h : name ∈ frame.names)
    (hname : name ≠ "arguments") :
    name ∈ bindingsOfList frame.parts ∨ frame.Enumerates name := by
  obtain ⟨form, parts⟩ := frame
  have hdeclared : Frame.declared ⟨form, parts⟩ ⊆ bindingsOfList parts := by
    rw [Frame.declared, List.map_flatMap]
    exact flatMap_subset_bindings fun n _ => declarations_subset form n
  have htake : ∀ k, (introducedEach (parts.take k)).flatten ⊆ bindingsOfList parts := fun k =>
    List.Subset.trans (introducedEach_subset _)
      (bindingsOfList_subset_of_subset (List.take_subset k parts))
  have hlexical : parts.flatMap lexical ⊆ bindingsOfList parts :=
    flatMap_subset_bindings fun n _ => lexical_subset n
  have hbody : parts.flatMap lexical ++ hoistedOfList parts ⊆ bindingsOfList parts :=
    List.append_subset.mpr ⟨hlexical, hoistedOfList_subset parts⟩
  have hcases : ((parts.drop 1).flatMap fun part => (part.children.drop 1).flatMap lexical) ⊆
      bindingsOfList parts := by
    refine List.Subset.trans (flatMap_subset_bindings fun part _ => ?_)
      (bindingsOfList_subset_of_subset (List.drop_subset 1 parts))
    refine List.Subset.trans (flatMap_subset_bindings fun n _ => lexical_subset n) ?_
    exact List.Subset.trans (bindingsOfList_subset_of_subset (List.drop_subset 1 _))
      (bindingsOfList_children_subset part)
  rcases List.mem_append.mp h with hlocal | hmem
  · unfold Form.locals at hlocal
    split at hlocal
    case h_1 => exact .inl (htake 3 ((List.mem_cons.mp hlocal).resolve_left hname))
    case h_2 | h_3 | h_4 | h_5 | h_6 => exact .inl (htake 2 hlocal)
    case h_7 => exact .inl (htake 3 hlocal)
    case h_8 | h_9 => exact .inl (htake 1 hlocal)
    case h_10 | h_11 | h_12 | h_13 => exact .inl (hlexical hlocal)
    case h_14 => exact .inl (hcases hlocal)
    case h_15 | h_16 | h_17 | h_18 => exact .inl (hbody hlocal)
    case h_19 isDeclared isConst heq =>
      obtain ⟨part, hpart, hmember⟩ := List.mem_flatMap.mp hlocal
      by_cases hform : ∃ isComputed, part.form = .enumMember isComputed
      · exact .inr ⟨⟨isDeclared, isConst, heq⟩, part, hpart, hform, hmember⟩
      · have hbound := enumerated_subset (not_exists.mp hform) hmember
        exact .inl
          (bindingsOfList_subset_of_subset (List.cons_subset.mpr ⟨hpart, List.nil_subset _⟩) hbound)
    case h_20 => cases hlocal
  · exact .inl (hdeclared hmem)

mutual

theorem framed_of_mem_reached :
    (n : Node) → ∀ ⦃frames : List Frame⦄, ∀ v ∈ n.reached enclosing frames,
    ∀ frame ∈ v.1, frame ∈ frames ∨ identifiersOfList frame.parts ⊆ n.identifiers
  | .node form span children => by
      intro frames v hv frame hframe
      have hchildren : identifiersOfList children ⊆ (Node.node form span children).identifiers :=
        List.subset_append_right _ _
      rcases List.mem_cons.mp hv with rfl | hinner
      · exact .inl hframe
      · rcases framed_of_mem_reachedOfList children v hinner frame hframe with
          ⟨value, hvalue, hmem⟩ | hsubset
        · rcases mem_enclosing hvalue with rfl | rfl
          · exact .inl hmem
          · rcases List.mem_cons.mp hmem with rfl | hmem
            · exact .inr hchildren
            · exact .inl hmem
        · exact .inr (List.Subset.trans hsubset hchildren)

theorem framed_of_mem_reachedOfList : (ns : List Node) → ∀ ⦃values : List (List Frame)⦄,
    ∀ v ∈ reachedOfList enclosing values ns, ∀ frame ∈ v.1,
      (∃ value ∈ values, frame ∈ value) ∨ identifiersOfList frame.parts ⊆ identifiersOfList ns
  | [] => by simp
  | n :: ns => by
      intro values v hv frame hframe
      obtain ⟨value, values, rfl, hfirst | hrest⟩ := mem_reachedOfList_cons hv
      · rcases framed_of_mem_reached n v hfirst frame hframe with hmem | hsubset
        · exact .inl ⟨value, List.mem_cons_self, hmem⟩
        · exact .inr (List.subset_append_of_subset_left _ hsubset)
      · rcases framed_of_mem_reachedOfList ns v hrest frame hframe with
          ⟨value', hvalue', hmem⟩ | hsubset
        · exact .inl ⟨value', List.mem_cons_of_mem _ hvalue', hmem⟩
        · exact .inr (List.subset_append_of_subset_right _ hsubset)

end

/-- The name stands for the member of an enumeration. -/
def FindsMember (name : String) (frames : List Frame) : Prop :=
  ∃ frame, resolve frames name = some frame ∧ frame.Enumerates name

theorem resolve_cons_of_not_introduced {name : String} (hname : name ≠ "arguments") (frame : Frame)
    (h : name ∉ bindingsOfList frame.parts) (frames : List Frame) :
    resolve (frame :: frames) name = resolve frames name ∨ FindsMember name (frame :: frames) := by
  by_cases hmem : name ∈ frame.names
  · exact .inr ⟨frame, resolve_cons_of_mem hmem frames,
      (Frame.of_mem_names hmem hname).resolve_left h⟩
  · exact .inl (resolve_cons_of_not_mem hmem frames)

mutual

/-- In a tree that does not introduce a name, the name stands for what it stands for around the
tree, or for a member of an enumeration. -/
theorem resolve_of_mem_reached {name : String} (hname : name ≠ "arguments") : (n : Node) →
    name ∉ bindingsOfList [n] → ∀ {frames : List Frame}, ∀ v ∈ n.reached enclosing frames,
      resolve v.1 name = resolve frames name ∨ FindsMember name v.1
  | .node form span children => by
      intro hnot frames v hv
      have hchildren : name ∉ bindingsOfList children := fun hmem =>
        hnot (bindingsOfList_children_subset (.node form span children) hmem)
      rcases List.mem_cons.mp hv with rfl | hinner
      · exact .inl rfl
      · refine resolve_of_mem_reachedOfList hname children hchildren (fun value hvalue => ?_) v
          hinner
        rcases mem_enclosing hvalue with rfl | rfl
        · exact .inl rfl
        · exact resolve_cons_of_not_introduced hname ⟨form, children⟩ hchildren frames

theorem resolve_of_mem_reachedOfList {name : String} (hname : name ≠ "arguments") :
    (ns : List Node) →
    name ∉ bindingsOfList ns → ∀ {found : Option Frame} {values : List (List Frame)},
      (∀ value ∈ values, resolve value name = found ∨ FindsMember name value) →
        ∀ v ∈ reachedOfList enclosing values ns, resolve v.1 name = found ∨ FindsMember name v.1
  | [] => by simp
  | n :: ns => by
      intro hnot found values hvalues v hv
      rw [← List.singleton_append, bindingsOfList_append, List.mem_append, not_or] at hnot
      obtain ⟨value, values, rfl, hfirst | hrest⟩ := mem_reachedOfList_cons hv
      · rcases resolve_of_mem_reached hname n hnot.1 v hfirst with heq | hmember
        · rw [FindsMember, heq]
          exact hvalues value List.mem_cons_self
        · exact .inr hmember
      · exact resolve_of_mem_reachedOfList hname ns hnot.2 (List.forall_mem_cons.mp hvalues).2 v
          hrest

end

/-- If a declaration of the name is in force, the name stands for a variable that is declared by a
part of its frame, or for a member of an enumeration. -/
def Finds (name : String) (visible : List Declaration) (frames : List Frame) : Prop :=
  name ∈ visible.map Declaration.name →
    ∃ frame, resolve frames name = some frame ∧ (name ∈ frame.declared ∨ frame.Enumerates name)

theorem partsBefore_eq_zero {form : Form} {part : Node} (h : declarations form part ≠ []) :
    form.partsBefore = 0 := by
  unfold declarations at h
  split at h
  · rfl
  · rfl
  · rfl
  · exact absurd rfl h

mutual

theorem finds_of_reached {name : String} (hname : name ≠ "arguments") : (n : Node) →
    ∀ ⦃visible : List Declaration⦄ ⦃frames : List Frame⦄,
      (visible.map Declaration.name).count name + (bindingsOfList [n]).count name ≤ 1 →
      Finds name visible frames →
      List.Forall₂ (fun u v => u.2 = v.2 ∧ Finds name u.1 v.1) (n.reached inForce visible)
        (n.reached enclosing frames)
  | .node form span children => by
      intro visible frames hcount hfinds
      rw [bindingsOfList_cons, List.count_append, List.count_append] at hcount
      have hvalues : ∀ value ∈ enclosing frames form children, ∀ part ∈ children,
          declarations form part ≠ [] →
          value = ⟨form, children⟩ :: frames := by
        intro value hvalue part _ hdeclares
        rw [enclosing, Form.distribute, partsBefore_eq_zero hdeclares] at hvalue
        simp only [List.take_zero, List.map_nil, List.drop_zero, List.nil_append,
          List.mem_map] at hvalue
        obtain ⟨_, -, rfl⟩ := hvalue
        rfl
      have hinside : ∀ value ∈ enclosing frames form children, Finds name visible value := by
        intro value hvalue hmem
        have hpositive := List.count_pos_iff.mpr hmem
        have hchildren : name ∉ bindingsOfList children := fun hbound => by
          have hbound := List.count_pos_iff.mpr hbound
          omega
        rcases mem_enclosing hvalue with rfl | rfl
        · exact hfinds hmem
        · rcases resolve_cons_of_not_introduced hname ⟨form, children⟩ hchildren frames with
            heq | ⟨frame, hframe, hmember⟩
          · rw [heq]
            exact hfinds hmem
          · exact ⟨frame, hframe, .inr hmember⟩
      exact .cons ⟨rfl, hfinds⟩ (finds_of_reachedOfList hname children (List.Subset.refl _)
        (length_enclosing frames form children) hvalues hinside (by omega))

theorem finds_of_reachedOfList {name : String} (hname : name ≠ "arguments") : (ns : List Node) →
    ∀ ⦃visible : List Declaration⦄ ⦃frames : List Frame⦄ ⦃values : List (List Frame)⦄ ⦃form : Form⦄
      ⦃parts : List Node⦄, ns ⊆ parts → values.length = ns.length →
      (∀ value ∈ values, ∀ part ∈ ns, declarations form part ≠ [] →
        value = ⟨form, parts⟩ :: frames) →
      (∀ value ∈ values, Finds name visible value) →
      (visible.map Declaration.name).count name + (bindingsOfList ns).count name ≤ 1 →
      List.Forall₂ (fun u v => u.2 = v.2 ∧ Finds name u.1 v.1)
        (reachedOfList inForce (inForce visible form ns) ns) (reachedOfList enclosing values ns)
  | [] => by simp
  | n :: ns => by
      intro visible frames values form parts hparts hlength hvalues hfinds hcount
      cases values with
      | nil => cases hlength
      | cons value values =>
          rw [← List.singleton_append, bindingsOfList_append, List.count_append] at hcount
          have hdeclarations := count_declarations_le form n name
          have hfirst := finds_of_reached hname n (by omega) (hfinds value List.mem_cons_self)
          refine List.rel_append hfirst (finds_of_reachedOfList hname ns
            (fun m hm => hparts (List.mem_cons_of_mem n hm)) (Nat.succ.inj hlength)
            (fun value' hvalue' part hpart => hvalues value' (List.mem_cons_of_mem _ hvalue') part
              (List.mem_cons_of_mem n hpart)) (fun value' hvalue' hmem => ?_) ?_)
          · rw [List.map_append, List.mem_append] at hmem
            rcases hmem with hmem | hmem
            · -- The part declares the name, so its frame is the one around the parts behind it.
              have hdeclares : declarations form n ≠ [] := by
                rintro heq
                simp [heq] at hmem
              rw [hvalues value' (List.mem_cons_of_mem _ hvalue') n List.mem_cons_self hdeclares]
              have hdeclared : name ∈ Frame.declared ⟨form, parts⟩ := by
                rw [Frame.declared, List.map_flatMap]
                exact List.mem_flatMap.mpr ⟨n, hparts List.mem_cons_self, hmem⟩
              exact ⟨_, resolve_cons_of_mem (List.mem_append_right _ hdeclared) frames,
                .inl hdeclared⟩
            · exact hfinds value' (List.mem_cons_of_mem _ hvalue') hmem
          · rw [List.map_append, List.count_append]
            omega

end

theorem exists_of_forall₂_of_mem {α β : Type} {R : α → β → Prop} {as : List α} {bs : List β}
    (h : List.Forall₂ R as bs) {b : β} (hb : b ∈ bs) : ∃ a ∈ as, R a b := by
  induction h with
  | nil => cases hb
  | @cons a _ _ _ hR _ ih =>
      rcases List.mem_cons.mp hb with rfl | hb
      · exact ⟨a, List.mem_cons_self, hR⟩
      · obtain ⟨a', ha', hR'⟩ := ih hb
        exact ⟨a', List.mem_cons_of_mem _ ha', hR'⟩

/-- A name that is introduced at most once stands for what is declared, if a declaration is
in force at its uses. -/
theorem resolve_of_inForce {n : Node} {name : String} (hname : name ≠ "arguments")
    (hcount : (bindingsOfList [n]).count name ≤ 1)
    (hforce : ∀ u ∈ n.reached inForce [], u.2.form = .reference name →
      name ∈ u.1.map Declaration.name)
    {v : List Frame × Node} (hv : v ∈ n.reached enclosing []) (hform : v.2.form = .reference name) :
    ∃ frame, resolve v.1 name = some frame ∧ (name ∈ frame.declared ∨ frame.Enumerates name) := by
  have hnone : Finds name [] [] := fun hmem => by cases hmem
  have hfinds := finds_of_reached hname n (by simpa using hcount) hnone
  obtain ⟨u, hu, heq, hfind⟩ := exists_of_forall₂_of_mem hfinds hv
  exact hfind (hforce u hu (heq ▸ hform))

mutual

theorem place_mem_identifiers : (n : Node) → ∀ m ∈ n.nodes, m.form.identifier?.isSome = true →
    m.place ∈ n.identifiers
  | .node form span children => by
      intro m hm hform
      rw [identifiers]
      rcases List.mem_cons.mp hm with rfl | hm
      · rw [Node.form] at hform
        rw [if_pos hform]
        exact List.mem_cons_self
      · exact List.mem_append_right _ (place_mem_identifiersOfList children m hm hform)

theorem place_mem_identifiersOfList : (ns : List Node) → ∀ m ∈ nodesOfList ns,
    m.form.identifier?.isSome = true → m.place ∈ identifiersOfList ns
  | [] => by simp [nodesOfList]
  | n :: ns => by
      intro m hm hform
      rcases List.mem_append.mp hm with hm | hm
      · exact List.mem_append_left _ (place_mem_identifiers n m hm hform)
      · exact List.mem_append_right _ (place_mem_identifiersOfList ns m hm hform)

end

theorem place_of_mem_reached {σ : Type} {rule : Rule σ} {value : σ} {n : Node} {v : σ × Node}
    {name : String} (hv : v ∈ n.reached rule value) (hform : v.2.form = .reference name) :
    v.2.place ∈ n.identifiers :=
  place_mem_identifiers n v.2 (mem_nodes_of_mem_reached n hv) (by simp [hform, Form.identifier?])

theorem Woven.of_binding {program : Node} {minted : String → Prop} {ns : List Node}
    {bound : List String} (h : Woven program minted ns bound) {name : String} {span : Span}
    (hplace : (Form.binding name, span) ∈ identifiersOfList ns) :
    (Form.binding name, span) ∈ program.identifiers ∨ span = .synthetic ∧
      (minted name ∨ name = "value") := by
  induction h with
  | nil => cases hplace
  | source hsource _ ih =>
      rcases List.mem_append.mp hplace with hplace | hplace
      · exact .inl (hsource hplace)
      · exact ih hplace
  | @around form span' _ _ _ _ _ hsource _ _ ihchildren ihrest =>
      rw [identifiersOfList, identifiers, List.mem_append, List.mem_append] at hplace
      rcases hplace with (hplace | hplace) | hplace
      · exact .inl (hsource (List.mem_append_left _ hplace))
      · exact ihchildren hplace
      · exact ihrest hplace
  | made _ _ hbinding _ _ ihchildren ihrest =>
      rw [identifiersOfList, Emit.made, identifiers, List.mem_append, List.mem_append] at hplace
      rcases hplace with (hplace | hplace) | hplace
      · split at hplace
        · cases List.mem_singleton.mp hplace
          exact .inr ⟨rfl, .inl (hbinding name rfl)⟩
        · cases hplace
      · exact ihchildren hplace
      · exact ihrest hplace
  | @callback body _ _ _ hnames _ ih =>
      rw [identifiersOfList, List.mem_append] at hplace
      rcases hplace with hplace | hplace
      · have hparts : (Form.binding name, span) = (Form.binding "value", Span.synthetic) ∨
            (Form.binding name, span) ∈ body.identifiers := by
          simpa [Emit.arrow, Emit.made, Emit.binding, Node.absent, Node.leaf, identifiers,
            identifiersOfList, Form.identifier?] using hplace
        rcases hparts with heq | hplace
        · cases heq
          exact .inr ⟨rfl, .inr rfl⟩
        · obtain ⟨-, other, heq, -⟩ := hnames _ hplace
          cases heq
      · exact ih hplace

theorem resolve_callback {body : Node} (hnot : "value" ∉ bindingsOfList [body])
    {frames : List Frame} {v : List Frame × Node} {name : String}
    (hv : v ∈ (Emit.arrow "value" body).reached enclosing frames)
    (hform : v.2.form = .reference name) :
    v.2.place ∈ body.identifiers ∧
      ∃ frame, resolve v.1 "value" = some frame ∧
        (frame.Makes "value" ∨ frame.Enumerates "value") := by
  have hmem : "value" ∈ Frame.names ⟨.arrow {}, (Emit.arrow "value" body).children⟩ :=
    List.mem_cons_self
  have hmakes : Frame.Makes ⟨.arrow {}, (Emit.arrow "value" body).children⟩ "value" := by
    refine ⟨_, List.mem_cons_of_mem _ List.mem_cons_self, List.mem_cons_self, ?_⟩
    intro place hplace _
    have heq : place = (Form.binding "value", Span.synthetic) := by
      simpa [Emit.made, Emit.binding, Node.absent, Node.leaf, identifiers, identifiersOfList,
        Form.identifier?] using hplace
    rw [heq]
  -- Neither the parameter list nor what is absent has a use of a name in it.
  have hbody : v ∈
      body.reached enclosing (⟨.arrow {}, (Emit.arrow "value" body).children⟩ :: frames) := by
    simp only [Emit.arrow, Emit.made, Emit.binding, Node.absent, Node.leaf, reached, reachedOfList,
      enclosing, Form.distribute, Form.partsBefore, List.take_zero, List.drop_zero, List.map_cons,
      List.map_nil, List.nil_append, List.append_nil, List.cons_append, List.mem_cons] at hv
    rcases hv with rfl | rfl | rfl | rfl | rfl | rfl | rfl | rfl | hv
    case inr.inr.inr.inr.inr.inr.inr.inr => exact hv
    all_goals cases hform
  refine ⟨place_of_mem_reached hbody hform, ?_⟩
  rcases resolve_of_mem_reached (by decide) body hnot v hbody with heq | ⟨frame, hframe, hmember⟩
  · exact ⟨_, heq.trans (resolve_cons_of_mem hmem frames), .inl hmakes⟩
  · exact ⟨frame, hframe, .inr hmember⟩

/-- A use of a name in woven trees was written in the program, or is that of a minted name, of
`document`, or of the parameter of the callback around it. -/
theorem Woven.of_reference {program : Node} {minted : String → Prop} {ns : List Node}
    {bound : List String} (h : Woven program minted ns bound) {v : List Frame × Node}
    {name : String} (hform : v.2.form = .reference name) :
    ∀ {values : List (List Frame)}, v ∈ reachedOfList enclosing values ns →
      v.2.place ∈ program.identifiers ∨ minted name ∨ name = "document" ∨
        name = "value" ∧
          ∃ frame, resolve v.1 name = some frame ∧ (frame.Makes name ∨ frame.Enumerates name) := by
  induction h with
  | nil =>
      intro values hv
      rw [reachedOfList_nil] at hv
      cases hv
  | source hsource _ ih =>
      intro values hv
      obtain ⟨value, values, rfl, hfirst | hrest⟩ := mem_reachedOfList_cons hv
      · exact .inl (hsource (place_of_mem_reached hfirst hform))
      · exact ih hrest
  | around _ hsource _ _ ihchildren ihrest =>
      intro values hv
      obtain ⟨value, values, rfl, hfirst | hrest⟩ := mem_reachedOfList_cons hv
      · rcases List.mem_cons.mp hfirst with rfl | hinner
        · rw [Node.form] at hform
          exact .inl (hsource (by simp [identifiers, hform, Form.identifier?, place, Node.form,
            Node.span]))
        · exact ihchildren hinner
      · exact ihrest hrest
  | made _ hreference _ _ _ ihchildren ihrest =>
      intro values hv
      obtain ⟨value, values, rfl, hfirst | hrest⟩ := mem_reachedOfList_cons hv
      · rcases List.mem_cons.mp hfirst with rfl | hinner
        · exact .inr ((hreference name hform).imp_right .inl)
        · exact ihchildren hinner
      · exact ihrest hrest
  | @callback body _ _ _ hnames _ ih =>
      intro values hv
      obtain ⟨value, values, rfl, hfirst | hrest⟩ := mem_reachedOfList_cons hv
      · have hnot : "value" ∉ bindingsOfList [body] := by
          intro hmem
          obtain ⟨span, hplace⟩ := mem_bindingsOfList_iff.mp hmem
          rw [identifiersOfList, identifiersOfList, List.append_nil] at hplace
          obtain ⟨-, other, heq, -⟩ := hnames _ hplace
          cases heq
        obtain ⟨hplace, hfound⟩ := resolve_callback hnot hfirst hform
        obtain ⟨-, other, heq, hother⟩ := hnames _ hplace
        obtain rfl : name = other := Form.reference.inj (hform.symm.trans heq)
        rcases hother with rfl | hminted
        · exact .inr (.inr (.inr ⟨rfl, hfound⟩))
        · exact .inr (.inl hminted)
      · exact ih hrest

section

variable {environment : String} {prologue : Prologue} {span : Span} {statements images : List Node}
  {w : Walk} {helper : String} {s : Session}

theorem of_binding_finished
    (hwalks : Walks (.start environment (.node (.program prologue) span statements)) statements
      images w)
    (herrors : w.errors = []) (hhelper : (require "eventDelegate").run w.session = (.ok helper, s))
    {v : List Frame × Node} (hv : v ∈ (finished prologue span images helper s).reached enclosing [])
    {frame : Frame} (hframe : frame ∈ v.1) {name : String} {place : Span}
    (hplace : (Form.binding name, place) ∈ identifiersOfList frame.parts) :
    (Form.binding name, place) ∈ (Node.node (.program prologue) span statements).identifiers ∨
      place = .synthetic ∧
        (s.Minted (Node.node (.program prologue) span statements).usedNames name ∨
          name = "value") := by
  obtain ⟨-, bound, -, -, -, -, hwoven⟩ := woven_finished hwalks herrors hhelper
  have hparts := (framed_of_mem_reached _ v hv frame hframe).resolve_left List.not_mem_nil
  exact hwoven.of_binding (List.mem_append_left _ (hparts hplace))

/-- In a finished program, a minted name finds the variable that was made for it. -/
theorem makes_of_minted
    (hwalks : Walks (.start environment (.node (.program prologue) span statements)) statements
      images w)
    (herrors : w.errors = []) (hhelper : (require "eventDelegate").run w.session = (.ok helper, s))
    {v : List Frame × Node} (hv : v ∈ (finished prologue span images helper s).reached enclosing [])
    {name : String} (hform : v.2.form = .reference name)
    (hminted : s.Minted (Node.node (.program prologue) span statements).usedNames name) :
    ∃ frame, resolve v.1 name = some frame ∧ (frame.Makes name ∨ frame.Enumerates name) := by
  have hunderscore := underscore_of_walks hwalks hhelper
  have hunknown := not_known_of_minted hunderscore hminted
  have harguments : name ≠ "arguments" := by
    rintro rfl
    simpa using (hunderscore _ hminted.1).resolve_left hminted.2
  have hcount := count_bindings_finished hwalks herrors hhelper hminted
  have hforce : ∀ u ∈ (finished prologue span images helper s).reached inForce [],
      u.2.form = .reference name → name ∈ u.1.map Declaration.name := by
    intro u hu hform'
    obtain ⟨d, hd, rfl, -⟩ :=
      (scoped_finished hwalks herrors hhelper u hu name hform').resolve_left hunknown
    exact List.mem_map_of_mem hd
  obtain ⟨frame, hframe, hdeclared | hmember⟩ :=
    resolve_of_inForce harguments (Nat.le_of_eq hcount) hforce hv hform
  · rw [Frame.declared, List.map_flatMap, List.mem_flatMap] at hdeclared
    obtain ⟨part, hpart, hname⟩ := hdeclared
    refine ⟨frame, hframe, .inl ⟨part, hpart, hname, ?_⟩⟩
    rintro ⟨form, place⟩ hidentifier rfl
    rcases of_binding_finished hwalks herrors hhelper hv (mem_names_of_resolve hframe).1
      (identifiers_subset_of_mem hpart hidentifier) with hwritten | ⟨hmade, -⟩
    · exact absurd (mem_usedNames_of_mem_identifiers rfl _ hwritten) hminted.2
    · exact hmade
  · exact ⟨frame, hframe, .inr hmember⟩

end

/-- A program in which nothing that was written captures what was made. -/
structure Uncaptured (program : Node) (result : Transformed) : Prop where
  /-- A use of a name that does not stand in the program finds a variable that was made, unless it
  is `document`. Only a member of an enumeration around it can come in between. -/
  made : ∀ v ∈ result.program.reached enclosing [], ∀ name, v.2.form = .reference name →
    v.2.place ∉ program.identifiers → name ≠ "document" →
      ∃ frame, resolve v.1 name = some frame ∧ (frame.Makes name ∨ frame.Enumerates name)
  /-- What `document` finds, if it is not the global one, is introduced in the program. -/
  document : ∀ v ∈ result.program.reached enclosing [], v.2.form = .reference "document" →
    ∀ frame, resolve v.1 "document" = some frame →
      (∃ span, (.binding "document", span) ∈ program.identifiers ∧
        (.binding "document", span) ∈ identifiersOfList frame.parts) ∨ frame.Enumerates "document"

theorem transform_uncaptured (environment : String) (prologue : Prologue) (span : Span)
    (statements : List Node)
    (h : (transform environment (.node (.program prologue) span statements)).errors = []) :
    Uncaptured (.node (.program prologue) span statements)
      (transform environment (.node (.program prologue) span statements)) := by
  obtain ⟨images, w, hwalks, ⟨herrors, hresult⟩ | ⟨herrors, helper, s, trace, hhelper, hresult⟩⟩ :=
    transform_cases environment prologue span statements
  · rw [hresult] at h
    exact absurd h herrors
  · rw [hresult]
    constructor
    · intro v hv name hform hplace hdocument
      obtain ⟨-, bound, -, -, -, -, hwoven⟩ := woven_finished hwalks herrors hhelper
      have hv' : v ∈ reachedOfList enclosing [[]] [finished prologue span images helper s] :=
        List.mem_append_left _ hv
      rcases hwoven.of_reference hform hv' with hwritten | hminted | rfl | ⟨-, hfound⟩
      · exact absurd hwritten hplace
      · exact makes_of_minted hwalks herrors hhelper hv hform hminted
      · exact absurd rfl hdocument
      · exact hfound
    · intro v hv _ frame hframe
      obtain ⟨hmem, hnames⟩ := mem_names_of_resolve hframe
      rcases Frame.of_mem_names hnames (by decide) with hbound | hmember
      · obtain ⟨place, hplace⟩ := mem_bindingsOfList_iff.mp hbound
        rcases of_binding_finished hwalks herrors hhelper hv hmem hplace with
          hwritten | ⟨-, hminted | heq⟩
        · exact .inl ⟨place, hwritten, hplace⟩
        · exact absurd (.inr (.inl rfl)) (not_known_of_minted (underscore_of_walks hwalks hhelper)
            hminted)
        · exact absurd heq (by decide)
      · exact .inr hmember

/-- What the uses of names that were made stand for: nothing, or a variable of a
node with this label. -/
def Node.findings (program : Node) : List (String × Option Form) :=
  (program.reached enclosing []).filterMap fun v =>
    match v.2.form, v.2.span == .synthetic with
    | .reference name, true => some (name, (resolve v.1 name).map Frame.form)
    | _, _ => none

/-- A function whose parameters have names that templates could be compiled to, around a paragraph
with a title that is kept current. -/
def shadowingStatements : List Node :=
  let parameter (name : String) (span : Span) : Node :=
    .node (.parameter {}) span [.leaf (.binding name) span, .absent, .absent]
  [.node (.function { isDeclaration := true }) ⟨0, 77⟩
    [.leaf (.binding "f") ⟨9, 10⟩, .absent,
     .node .parameters ⟨10, 37⟩
      [parameter "document" ⟨11, 19⟩, parameter "value" ⟨21, 26⟩, parameter "_element" ⟨28, 36⟩],
     .absent,
     .node .body ⟨38, 77⟩ [.node .returnStatement ⟨40, 75⟩ [.node .element ⟨47, 74⟩
      [.leaf (.plainTag ⟨⟨['p'], by decide⟩, rfl⟩) ⟨48, 49⟩, .absent,
       .node .group ⟨50, 72⟩ [.node .attribute ⟨50, 72⟩
        [.node .tagNamespace ⟨50, 60⟩
          [.leaf (.tagName "bind") ⟨50, 54⟩, .leaf (.tagName "title") ⟨55, 60⟩],
         .node .container ⟨61, 72⟩ [.node (.member false) ⟨62, 71⟩
          [.reference "value" ⟨62, 67⟩, .leaf (.label "get") ⟨68, 71⟩]]]],
       .node .group ⟨72, 72⟩ []]]]]]

theorem transform_uncaptured_sample :
    ((transform "rumious" (.node (.program {}) ⟨0, 77⟩ shadowingStatements)).errors = [] ∧
      Uncaptured (.node (.program {}) ⟨0, 77⟩ shadowingStatements)
        (transform "rumious" (.node (.program {}) ⟨0, 77⟩ shadowingStatements))) ∧
      (transform "rumious" (.node (.program {}) ⟨0, 77⟩ shadowingStatements)).program.findings =
        [("document", some (.function { isDeclaration := true })),
         ("_element2", some (.program {})), ("_root", some .body), ("_ctx", some (.arrow {})),
         ("_reactiveCallback", some (.program {})), ("_ctx", some (.arrow {})),
         ("_ele", some .body), ("value", some (.arrow {})), ("_root", some .body),
         ("_eventDelegate", some (.program {}))] := by
  have herrors : (transform "rumious" (.node (.program {}) ⟨0, 77⟩ shadowingStatements)).errors =
      [] := by
    decide +kernel
  exact ⟨⟨herrors, transform_uncaptured _ _ _ _ herrors⟩, by decide +kernel⟩

/-- A parameter captures the `document` of a closure. -/
theorem findings_documentParameter :
    ((Grammar.readProgram (Metadata.language ⟨"view.jsx", .module⟩)
      "function f(document) \x7b return <p/>; \x7d").node.map fun program =>
        ((transform "rumious" program).errors,
          (transform "rumious" program).program.findings.head?)) =
      some ([], some ("document", some (.function { isDeclaration := true }))) := by
  decide +kernel

end TemplateCompiler
