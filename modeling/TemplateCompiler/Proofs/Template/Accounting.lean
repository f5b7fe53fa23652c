import Mathlib.Algebra.BigOperators.Group.List.Basic
import Mathlib.Data.List.Forall2
import TemplateCompiler.Proofs.Template.Reporting
import TemplateCompiler.Proofs.Template.Tally

namespace TemplateCompiler

open Lower Node Session

/-- A closure that makes a fragment under a context whose name does not belong to the program. -/
def IsClosure (names : List String) (n : Node) : Prop :=
  ∃ root context items, context ∉ names ∧ n = Emit.closure root context items

/-- A call that hands something over to a component whose name does not belong to the program. -/
def IsHandOver (names : List String) (n : Node) : Prop :=
  ∃ target slot, target ∉ names ∧ n = Emit.call (Emit.member (Emit.name target) "setSlot") [slot]

/-- Whether nothing in trees is a literal or could be the image of one. -/
def areFixed (ns : List Node) : Bool :=
  (nodesOfList ns).all fun n => !n.form.isMarkup && n.form != .arrow {}

theorem areFixed_cons (form : Form) (span : Span) (children ns : List Node) :
    areFixed (.node form span children :: ns) =
      (!form.isMarkup && form != .arrow {} && areFixed children && areFixed ns) := by
  simp [areFixed, nodesOfList, nodes, Node.form, Bool.and_assoc]

theorem Images.eq_of_areFixed {ns ns' : List Node} (h : Images ns ns')
    (hfixed : areFixed ns = true ∨ areFixed ns' = true) : ns' = ns := by
  induction h with
  | nil => rfl
  | inner span hform _ _ ihchildren ihrest =>
      simp only [areFixed_cons, Bool.and_eq_true] at hfixed
      rw [ihchildren (hfixed.imp (·.1.2) (·.1.2)), ihrest (hfixed.imp (·.2) (·.2))]
  | @literal literal _ _ _ _ _ _ _ _ hform _ _ _ _ _ =>
      obtain ⟨form, span, children⟩ := literal
      rw [Node.form] at hform
      rw [Emit.closure, Emit.arrow, Emit.made, areFixed_cons, areFixed_cons] at hfixed
      simp [hform] at hfixed

theorem Images.forall₂ {ns ns' : List Node} (h : Images ns ns') :
    List.Forall₂ (fun n n' => Images [n] [n']) ns ns' := by
  induction h with
  | nil => exact .nil
  | inner span hform hchildren _ _ ihrest => exact .cons (.inner span hform hchildren .nil) ihrest
  | literal hform hrun hclosure _ _ ihrest => exact .cons (.literal hform hrun hclosure .nil) ihrest

theorem Images.isHandOver_iff {form : Form} {span : Span} {children images : List Node}
    (h : Images children images) (names : List String) :
    IsHandOver names (.node form span images) ↔ IsHandOver names (.node form span children) := by
  have hparts := h.forall₂
  constructor
  · rintro ⟨target, slot, htarget, heq⟩
    cases heq
    simp only [List.forall₂_cons_right_iff, List.forall₂_nil_right_iff] at hparts
    obtain ⟨callee, -, hcallee, ⟨types, -, htypes, ⟨slot', -, hslot, rfl, rfl⟩, rfl⟩, rfl⟩ := hparts
    cases hcallee.eq_of_areFixed (.inr rfl)
    cases htypes.eq_of_areFixed (.inr rfl)
    exact ⟨target, slot', htarget, rfl⟩
  · rintro ⟨target, slot, htarget, heq⟩
    cases heq
    simp only [List.forall₂_cons_left_iff, List.forall₂_nil_left_iff] at hparts
    obtain ⟨callee, -, hcallee, ⟨types, -, htypes, ⟨slot', -, hslot, rfl, rfl⟩, rfl⟩, rfl⟩ := hparts
    cases hcallee.eq_of_areFixed (.inl rfl)
    cases htypes.eq_of_areFixed (.inl rfl)
    exact ⟨target, slot', htarget, rfl⟩

theorem exists_concat_of_forall₂ {α β : Type} {R : α → β → Prop} {as : List α} {bs : List β} {b : β}
    (h : List.Forall₂ R as (bs ++ [b])) : ∃ as' a, as = as' ++ [a] ∧ R a b := by
  have hlast := List.forall₂_drop_append _ _ _ h
  simp only [List.forall₂_cons_right_iff, List.forall₂_nil_right_iff] at hlast
  obtain ⟨a, _, hR, rfl, hdrop⟩ := hlast
  exact ⟨as.take bs.length, a, by rw [← hdrop, List.take_append_drop], hR⟩

theorem Images.of_closure {form : Form} {span : Span} {children images : List Node}
    (h : Images children images) : (∀ {root context : String} {items : List Node},
      Node.node form span children = Emit.closure root context items →
        ∃ items', Node.node form span images = Emit.closure root context items') ∧
    ∀ {root context : String} {items : List Node},
      Node.node form span images = Emit.closure root context items →
        ∃ items', Node.node form span children = Emit.closure root context items' := by
  have hparts := h.forall₂
  constructor
  · intro root context items heq
    cases heq
    simp only [List.forall₂_cons_left_iff, List.forall₂_nil_left_iff] at hparts
    obtain ⟨types, -, htypes, ⟨parameters, -, hparameters, ⟨result, -, hresult,
      ⟨body, -, hbody, rfl, rfl⟩, rfl⟩, rfl⟩, rfl⟩ := hparts
    cases htypes.eq_of_areFixed (.inl rfl)
    cases hparameters.eq_of_areFixed (.inl rfl)
    cases hresult.eq_of_areFixed (.inl rfl)
    cases hbody with
    | literal hform => cases hform
    | inner _ _ hstatements _ =>
        obtain ⟨create, rest, hcreate, hrest, rfl⟩ :=
          List.forall₂_cons_left_iff.mp hstatements.forall₂
        obtain ⟨items', return', rfl, hreturn⟩ := exists_concat_of_forall₂ hrest.flip
        cases hcreate.eq_of_areFixed (.inl rfl)
        cases Images.eq_of_areFixed hreturn (.inl rfl)
        exact ⟨items', rfl⟩
  · intro root context items heq
    cases heq
    simp only [List.forall₂_cons_right_iff, List.forall₂_nil_right_iff] at hparts
    obtain ⟨types, -, htypes, ⟨parameters, -, hparameters, ⟨result, -, hresult,
      ⟨body, -, hbody, rfl, rfl⟩, rfl⟩, rfl⟩, rfl⟩ := hparts
    cases htypes.eq_of_areFixed (.inr rfl)
    cases hparameters.eq_of_areFixed (.inr rfl)
    cases hresult.eq_of_areFixed (.inr rfl)
    cases hbody with
    | inner _ _ hstatements _ =>
        obtain ⟨create, rest, hcreate, hrest, rfl⟩ :=
          List.forall₂_cons_right_iff.mp hstatements.forall₂
        obtain ⟨items', return', rfl, hreturn⟩ := exists_concat_of_forall₂ hrest
        cases hcreate.eq_of_areFixed (.inr rfl)
        cases Images.eq_of_areFixed hreturn (.inr rfl)
        exact ⟨items', rfl⟩

theorem Images.isClosure_iff {form : Form} {span : Span} {children images : List Node}
    (h : Images children images) (names : List String) :
    IsClosure names (.node form span images) ↔ IsClosure names (.node form span children) := by
  constructor
  · rintro ⟨root, context, items, hcontext, heq⟩
    obtain ⟨items', heq'⟩ := h.of_closure.2 heq
    exact ⟨root, context, items', hcontext, heq'⟩
  · rintro ⟨root, context, items, hcontext, heq⟩
    obtain ⟨items', heq'⟩ := h.of_closure.1 heq
    exact ⟨root, context, items', hcontext, heq'⟩

open Classical in
/-- Closures of literals and of components. -/
noncomputable def closureTally (names : List String) : Tally where
  own form span children := if IsClosure names (.node form span children) then 1 else 0
  literal _ := 1
  closure := 1
  slot := 1

open Classical in
/-- Calls that hand over what stands between the tags of a component. -/
noncomputable def handOverTally (names : List String) : Tally where
  own form span children := if IsHandOver names (.node form span children) then 1 else 0
  literal _ := 0
  closure := 0
  slot := 1

/-- Nodes with a label and a place. -/
def placeTally (place : Form × Span) : Tally where
  own form span _ := if (form, span) = place then 1 else 0
  literal _ := 0
  closure := 0
  slot := 0

def literalTally (count : Node → Nat) : Tally where
  own _ _ _ := 0
  literal := count
  closure := 0
  slot := 0

theorem closureTally_own {form : Form} (hform : Tally.isPlain form = true) (names : List String)
    (span : Span) (children : List Node) : (closureTally names).own form span children = 0 := by
  refine if_neg ?_
  rintro ⟨root, context, items, -, heq⟩
  cases heq
  cases hform

theorem handOverTally_own {form : Form} (hform : Tally.isPlain form = true) (names : List String)
    (span : Span) (children : List Node) : (handOverTally names).own form span children = 0 := by
  refine if_neg ?_
  rintro ⟨target, slot, -, heq⟩
  cases heq
  cases hform

open Classical in
theorem closureTally_fits (names : List String) : (closureTally names).Fits names where
  plain form children hform := closureTally_own hform names .synthetic children
  delayed value := by
    refine if_neg ?_
    rintro ⟨root, context, items, -, heq⟩
    cases heq
  arrow parameter body hbody := by
    refine if_neg ?_
    rintro ⟨root, context, items, -, heq⟩
    cases heq
    exact hbody rfl
  closure root context items hcontext := if_pos ⟨root, context, items, hcontext, rfl⟩
  call callee arguments _ := by
    refine if_neg ?_
    rintro ⟨root, context, items, -, heq⟩
    cases heq
  setSlot target slot _ := by
    have hnot :
        ¬ IsClosure names (Emit.call (Emit.member (Emit.name target) "setSlot") [slot]) := by
      rintro ⟨root, context, items, -, heq⟩
      cases heq
    exact congrArg (· + 1) (if_neg hnot)
  images form span children images h := if_congr (h.isClosure_iff names) rfl rfl

open Classical in
theorem handOverTally_fits (names : List String) : (handOverTally names).Fits names where
  plain form children hform := handOverTally_own hform names .synthetic children
  delayed value := by
    refine if_neg ?_
    rintro ⟨target, slot, -, heq⟩
    cases heq
  arrow parameter body _ := by
    refine if_neg ?_
    rintro ⟨target, slot, -, heq⟩
    cases heq
  closure root context items _ := by
    refine if_neg ?_
    rintro ⟨target, slot, -, heq⟩
    cases heq
  call callee arguments hcall := by
    refine if_neg ?_
    rintro ⟨target, slot, -, heq⟩
    cases heq
    rcases hcall with hlength | ⟨helper, hcallee⟩
    · exact hlength rfl
    · cases hcallee
  setSlot target slot htarget := if_pos ⟨target, slot, htarget, rfl⟩
  images form span children images h := if_congr (h.isHandOver_iff names) rfl rfl

theorem placeTally_fits {place : Form × Span} (h : place.2 ≠ .synthetic) (names : List String) :
    (placeTally place).Fits names := by
  have hnone : ∀ form children, (placeTally place).own form .synthetic children = 0 := by
    intro form children
    refine if_neg ?_
    rintro rfl
    exact h rfl
  constructor
  case images => exact fun _ _ _ _ _ => rfl
  case setSlot =>
    exact fun target slot _ =>
      hnone _ (Emit.call (Emit.member (Emit.name target) "setSlot") [slot]).children
  all_goals
    intros
    exact hnone _ _

theorem literalTally_fits (count : Node → Nat) (names : List String) :
    (literalTally count).Fits names :=
  ⟨fun _ _ _ => rfl, fun _ => rfl, fun _ _ _ => rfl, fun _ _ _ _ => rfl, fun _ _ _ => rfl,
    fun _ _ _ => rfl, fun _ _ _ _ _ => rfl⟩

mutual

theorem total_eq_sum_nodes (t : Tally) : (n : Node) →
    t.total n = (n.nodes.map fun m => t.own m.form m.span m.children).sum
  | .node form span children => by
      rw [Tally.total, nodes, List.map_cons, List.sum_cons, totalOfList_eq_sum_nodes t children]
      rfl

theorem totalOfList_eq_sum_nodes (t : Tally) : (ns : List Node) →
    t.totalOfList ns = ((nodesOfList ns).map fun m => t.own m.form m.span m.children).sum
  | [] => rfl
  | n :: ns => by
      rw [Tally.totalOfList, nodesOfList, List.map_append, List.sum_append, total_eq_sum_nodes t n,
        totalOfList_eq_sum_nodes t ns]

end

theorem sum_map_ite {α : Type} (p : α → Prop) [DecidablePred p] (as : List α) :
    (as.map fun a => if p a then 1 else 0).sum = (as.filter p).length := by
  induction as with
  | nil => rfl
  | cons a as ih =>
      by_cases ha : p a
      · simp [ha, ih, Nat.add_comm]
      · simp [ha, ih]

open Classical in
/-- The closures in a tree that are made under contexts with other names than those given. -/
noncomputable def Node.closures (names : List String) (n : Node) : List Node :=
  n.nodes.filter fun m => IsClosure names m

open Classical in
/-- The calls in a tree that hand something over to components with other names than those given. -/
noncomputable def Node.handOvers (names : List String) (n : Node) : List Node :=
  n.nodes.filter fun m => IsHandOver names m

open Classical in
theorem total_closureTally (names : List String) (n : Node) :
    (closureTally names).total n = (n.closures names).length := by
  rw [total_eq_sum_nodes, Node.closures, ← sum_map_ite]
  simp only [closureTally, Node.node_eta]

open Classical in
theorem total_handOverTally (names : List String) (n : Node) :
    (handOverTally names).total n = (n.handOvers names).length := by
  rw [total_eq_sum_nodes, Node.handOvers, ← sum_map_ite]
  simp only [handOverTally, Node.node_eta]

theorem total_literalTally (count : Node → Nat) (n : Node) : (literalTally count).total n = 0 := by
  rw [total_eq_sum_nodes]
  simp [literalTally]

theorem total_placeTally (place : Form × Span) (n : Node) :
    (placeTally place).total n = n.places.count place := by
  have hsum := sum_map_ite (fun m : Node => m.place = place) n.nodes
  rw [total_eq_sum_nodes, Node.places, List.count, List.countP_map, List.countP_eq_length_filter]
  refine hsum.trans ?_
  congr 1
  apply List.filter_congr
  intro m _
  exact Bool.eq_iff_iff.mpr (by simp)

theorem sum_flatMap {α β : Type} (f : α → List β) (g : β → Nat) (as : List α) :
    ((as.flatMap f).map g).sum = (as.map fun a => ((f a).map g).sum).sum := by
  rw [List.flatMap_def, List.map_flatten, List.sum_flatten, List.map_map, List.map_map]
  rfl

/-- A sum by what is added: literals, components with something between their tags,
what is kept, and copies. -/
theorem Tally.sum_eq (t : Tally) (n : Node) :
    t.sum .value n = (n.survivors.map t.literal).sum + (n.slots.map fun _ => t.slot).sum +
      ((n.reached positions .value).map fun v => t.kept v.1 v.2).sum +
      ((n.reached positions .value).map fun v => t.totalOfList (copiedPaths v.1 v.2)).sum := by
  have hliterals : (n.survivors.map t.literal).sum = ((n.reached positions .value).map fun v =>
      if v.1 = .value ∧ v.2.form.isMarkup = true then t.literal v.2 else 0).sum := by
    rw [Node.survivors, sum_flatMap]
    congr 2
    funext v
    split
    · simp
    · rfl
  have hslots : (n.slots.map fun _ => t.slot).sum = ((n.reached positions .value).map fun v =>
      if (v.1 = .value ∨ v.1 = .child) ∧ hasSlot v.2 = true then t.slot else 0).sum := by
    rw [Node.slots, sum_flatMap]
    congr 2
    funext v
    split
    · simp
    · rfl
  rw [hliterals, hslots, ← List.sum_map_add, ← List.sum_map_add, ← List.sum_map_add]
  rfl

theorem totalOfList_placeTally (place : Form × Span) (ns : List Node) :
    (placeTally place).totalOfList ns = (ns.flatMap Node.places).count place := by
  induction ns with
  | nil => rfl
  | cons n ns ih =>
      rw [Tally.totalOfList, List.flatMap_cons, List.count_append, total_placeTally, ih]

theorem sum_placeTally (place : Form × Span) (n : Node) :
    (placeTally place).sum .value n = n.kept.count place + n.copied.count place := by
  have hkept : ∀ position m, (placeTally place).kept position m =
      (keptPlaces position m).count place := by
    intro position m
    rw [Tally.kept, keptPlaces, List.count_append, totalOfList_placeTally]
    congr 1
    split
    · rw [List.count_singleton, placeTally]
      simp only [beq_iff_eq]
      rfl
    · rfl
  rw [Tally.sum_eq, Node.kept, Node.copied, List.count_flatMap, List.count_flatMap]
  simp only [hkept, totalOfList_placeTally, Function.comp_def]
  simp [placeTally]

theorem isPlain_of_isPath {p : Node} (h : isPath p = true) :
    ∀ m ∈ p.nodes, Tally.isPlain m.form = true := by
  fun_induction isPath p with
  | case1 => simp [nodes, nodesOfList, Node.form, Tally.isPlain]
  | case2 => simp [nodes, nodesOfList, Node.form, Tally.isPlain]
  | case3 isOptional span object name nameSpan ih =>
      simp only [nodes, nodesOfList, List.append_nil, List.forall_mem_cons, List.forall_mem_append]
      exact ⟨rfl, ih h, rfl, List.forall_mem_nil _⟩
  | case4 => cases h

theorem isPlain_of_mem_convertedParts {position : Position} {n part : Node}
    (h : part ∈ convertedParts position n) : ∀ m ∈ part.nodes, Tally.isPlain m.form = true := by
  unfold convertedParts at h
  split at h
  · split at h
    · rename_i path _
      obtain rfl := List.mem_singleton.mp h
      exact isPlain_of_isPath path.isPath_toNode
    · cases h
  · obtain rfl := List.mem_singleton.mp h
    simp [nodes, nodesOfList, Node.form, Tally.isPlain]
  · cases h

theorem isPlain_of_mem_copiedPaths {position : Position} {n path : Node}
    (h : path ∈ copiedPaths position n) : ∀ m ∈ path.nodes, Tally.isPlain m.form = true := by
  apply isPlain_of_isPath
  unfold copiedPaths at h
  split at h
  · cases h
  · exact isPath_of_mem_dependencies _ _ h
  · exact isPath_of_mem_dependencies _ _ h
  · split at h
    · unfold Directive.copiedPaths at h
      split at h
      · exact isPath_of_mem_dependencies _ _ h
      · exact isPath_of_mem_dependencies _ _ h
      · cases h
    · cases h
  · cases h

theorem Tally.sum_of_own_eq_zero (t : Tally) {n : Node}
    (hplain : ∀ form span children, Tally.isPlain form = true → t.own form span children = 0)
    (hown : ∀ m ∈ n.nodes, t.own m.form m.span m.children = 0) :
    t.sum .value n = (n.survivors.map t.literal).sum + (n.slots.map fun _ => t.slot).sum := by
  have htotal : ∀ ns : List Node, (∀ p ∈ ns, ∀ m ∈ p.nodes, Tally.isPlain m.form = true) →
      t.totalOfList ns = 0 := by
    intro ns hns
    induction ns with
    | nil => rfl
    | cons p ns ih =>
        rw [List.forall_mem_cons] at hns
        have hzero : t.total p = 0 := by
          rw [total_eq_sum_nodes]
          apply List.sum_eq_zero
          intro count hcount
          obtain ⟨m, hm, rfl⟩ := List.mem_map.mp hcount
          exact hplain _ _ _ (hns.1 m hm)
        rw [Tally.totalOfList, hzero, ih hns.2]
  have hkept : ((n.reached positions .value).map fun v => t.kept v.1 v.2).sum = 0 := by
    apply List.sum_eq_zero
    intro count hcount
    obtain ⟨v, hv, rfl⟩ := List.mem_map.mp hcount
    have hzero := hown v.2 (mem_nodes_of_mem_reached n hv)
    simp [Tally.kept, hzero, htotal _ fun part hpart => isPlain_of_mem_convertedParts hpart]
  have hcopied : ((n.reached positions .value).map fun v =>
      t.totalOfList (copiedPaths v.1 v.2)).sum = 0 := by
    apply List.sum_eq_zero
    intro count hcount
    obtain ⟨v, -, rfl⟩ := List.mem_map.mp hcount
    exact htotal _ fun path hpath => isPlain_of_mem_copiedPaths hpath
  rw [Tally.sum_eq, hkept, hcopied]
  rfl

open Classical in
theorem sum_closureTally (program : Node) :
    (closureTally program.usedNames).sum .value program =
      program.survivors.length + program.slots.length := by
  rw [Tally.sum_of_own_eq_zero _ fun _ span children hform =>
    closureTally_own hform _ span children]
  · simp [closureTally]
  · intro m hm
    refine if_neg ?_
    rintro ⟨root, context, items, hcontext, heq⟩
    rw [Node.node_eta] at heq
    subst heq
    apply hcontext
    apply usedNames_subset_of_mem_nodes program _ hm
    simp [Emit.closure, Emit.arrow, Emit.made, Emit.binding, usedNames, usedNamesOfList,
      Form.identifier?, Node.absent]

open Classical in
theorem sum_handOverTally (program : Node) :
    (handOverTally program.usedNames).sum .value program = program.slots.length := by
  rw [Tally.sum_of_own_eq_zero _ fun _ span children hform =>
    handOverTally_own hform _ span children]
  · simp [handOverTally]
  · intro m hm
    refine if_neg ?_
    rintro ⟨target, slot, htarget, heq⟩
    rw [Node.node_eta] at heq
    subst heq
    apply htarget
    apply usedNames_subset_of_mem_nodes program _ hm
    simp [Emit.call, Emit.made, Emit.member, Emit.name, usedNames, usedNamesOfList,
      Form.identifier?]

theorem sum_literalTally (count : Node → Nat) (n : Node) :
    (literalTally count).sum .value n = (n.survivors.map count).sum := by
  rw [Tally.sum_of_own_eq_zero _ (fun _ _ _ _ => rfl) fun _ _ => rfl]
  simp [literalTally]

mutual

theorem sums_literals (count : Node → Nat) : (n : Node) →
    (literalTally count).sums n.literals = (literalTally count).sum .value n
  | .node form span children => by
      unfold literals
      split
      · simp
      · rename_i hform
        rw [sums_literalsOfList count children, Tally.sum_value _ (by simpa using hform)]
        exact (Nat.zero_add _).symm

theorem sums_literalsOfList (count : Node → Nat) : (ns : List Node) →
    (literalTally count).sums (literalsOfList ns) = (literalTally count).sums ns
  | [] => rfl
  | n :: ns => by
      rw [literalsOfList, Tally.sums_append, sums_literals count n, sums_literalsOfList count ns,
        Tally.sums_cons]

end

theorem ofTemplate_literalTally (count : Node → Nat) {template : Template}
    (h : firstReported template.violations = none) :
    (literalTally count).ofTemplate template =
      (literalTally count).sums (literalsOfList template.embedded) := by
  obtain ⟨-, hverdict⟩ :=
    decides_lowerTemplate template (({ environment := "" } : Session).enter .absent) rfl
  rcases hrun : (lowerTemplate template).run (({ environment := "" } : Session).enter .absent)
    with ⟨cause | closure, s⟩
  · rw [hrun, verdict, h] at hverdict
    cases hverdict
  · have hsum := sum_of_run_template hrun (literalTally_fits count []) (List.nil_subset _)
    rw [← sums_literals, literals_of_run_template hrun] at hsum
    exact (hsum.trans (Nat.zero_add _)).symm

mutual

theorem isMarkup_of_mem_literals : (n : Node) → ∀ m ∈ n.literals, m.form.isMarkup = true
  | .node form span children => by
      intro m hm
      unfold literals at hm
      split at hm
      · rename_i hform
        obtain rfl := List.mem_singleton.mp hm
        exact hform
      · exact isMarkup_of_mem_literalsOfList children m hm

theorem isMarkup_of_mem_literalsOfList :
    (ns : List Node) → ∀ m ∈ literalsOfList ns, m.form.isMarkup = true
  | [] => by simp [literalsOfList]
  | n :: ns => by
      intro m hm
      rw [literalsOfList, List.mem_append] at hm
      exact hm.elim (isMarkup_of_mem_literals n m) (isMarkup_of_mem_literalsOfList ns m)

end

/-- The literals that a visit without failures meets are those that count. -/
theorem Visits.sum_met {literals met : List Node} {violations : List Violation}
    (h : Visits firstReported literals met violations)
    (hliterals : ∀ n ∈ literals, n.form.isMarkup = true) (hnone : violations = [])
    (count : Node → Nat) : (met.map count).sum = (literalTally count).sums literals := by
  induction h with
  | nil => rfl
  | failing => cases hnone
  | @clean literal rest _ _ hclean _ ih =>
      rw [List.forall_mem_cons] at hliterals
      have hrest :=
        ih (List.forall_mem_append.mpr ⟨isMarkup_of_mem_literalsOfList _, hliterals.2⟩) hnone
      rw [List.map_cons, List.sum_cons, hrest, Tally.sums_append, Tally.sums_cons,
        Tally.sum_literal _ hliterals.1, ofTemplate_literalTally count hclean, ← Nat.add_assoc]
      rfl

theorem Visits.perm_survivors {program : Node} {met : List Node}
    (h : Visits firstReported program.literals met []) : met.Perm program.survivors := by
  classical
  rw [List.perm_iff_count]
  intro literal
  have hcount : ∀ ns : List Node,
      ns.count literal = (ns.map fun n => if n = literal then 1 else 0).sum := by
    intro ns
    rw [sum_map_ite, List.count, List.countP_eq_length_filter]
    congr 1
  have hmet := h.sum_met (isMarkup_of_mem_literals program) rfl
    fun n => if n = literal then 1 else 0
  rw [hcount, hcount, hmet, sums_literals, sum_literalTally]

/-- A program all of whose literals that survive are lowered once. -/
structure LoweredOnce (program : Node) (result : Transformed) : Prop where
  /-- The literals that are lowered, one by one, are those that survive. -/
  met : ∃ met, Visits firstReported program.literals met [] ∧ met.Perm program.survivors
  templates : result.templates = program.survivors.length
  /-- Each of them leaves one closure, and so does each component with
  something between its tags; -/
  closures : (result.program.closures program.usedNames).length =
    program.survivors.length + program.slots.length
  /-- the closures of the latter are handed over to them. -/
  handOvers : (result.program.handOvers program.usedNames).length = program.slots.length
  /-- What is kept of the program stands in the result once, and once more where it is copied. -/
  places : ∀ place : Form × Span, place.2 ≠ .synthetic →
    result.program.places.count place = program.kept.count place + program.copied.count place

theorem transform_loweredOnce (environment : String) (prologue : Prologue) (span : Span)
    (statements : List Node)
    (h : (transform environment (.node (.program prologue) span statements)).errors = []) :
    LoweredOnce (.node (.program prologue) span statements)
      (transform environment (.node (.program prologue) span statements)) := by
  obtain ⟨met, violations, hvisits, hcauses⟩ :=
    visits_transform environment prologue span statements
  obtain rfl : violations = [] := by simpa [h] using hcauses
  obtain ⟨images, w, hwalks, ⟨herrors, hresult⟩ | ⟨herrors, helper, s, trace, -, hresult⟩⟩ :=
    transform_cases environment prologue span statements
  · rw [hresult] at h
    exact absurd h herrors
  · rw [hresult]
    have hvisits' : Visits firstReported (Node.node (.program prologue) span statements).literals
        met [] := hvisits
    have hnames : (Node.node (.program prologue) span statements).usedNames ⊆
      (Walk.start environment (.node (.program prologue) span statements)).session.used :=
        fun _ hname => hname
    refine ⟨⟨met, hvisits', hvisits'.perm_survivors⟩, ?_, ?_, ?_, ?_⟩
    · have hsum :=
        (literalTally_fits (fun _ => 1) _).sum_finished hwalks herrors hnames 1 (fun _ => rfl)
        prologue span helper s fun _ => rfl
      rw [total_literalTally, sum_literalTally] at hsum
      simpa [Walk.start] using hsum
    · have hsum :=
        (closureTally_fits _).sum_finished hwalks herrors hnames 0 (fun _ => rfl) prologue span
        helper s fun children =>
          (closureTally_own rfl _ _ children).trans (closureTally_own rfl _ _ _).symm
      rw [total_closureTally, sum_closureTally] at hsum
      simpa using hsum
    · have hsum :=
        (handOverTally_fits _).sum_finished hwalks herrors hnames 0 (fun _ => rfl) prologue span
        helper s fun children =>
          (handOverTally_own rfl _ _ children).trans (handOverTally_own rfl _ _ _).symm
      rw [total_handOverTally, sum_handOverTally] at hsum
      simpa using hsum
    · intro place hplace
      have hsum :=
        (placeTally_fits hplace _).sum_finished hwalks herrors hnames 0 (fun _ => rfl) prologue span
        helper s fun _ => rfl
      rw [total_placeTally, sum_placeTally] at hsum
      simpa using hsum

theorem transform_loweredOnce_sample :
    (transform "rumious" (.node (.program {}) ⟨0, 79⟩ sampleStatements)).errors = [] ∧
      LoweredOnce (.node (.program {}) ⟨0, 79⟩ sampleStatements)
        (transform "rumious" (.node (.program {}) ⟨0, 79⟩ sampleStatements)) :=
  ⟨errors_transform_sampleStatements,
    transform_loweredOnce _ _ _ _ errors_transform_sampleStatements⟩

/-- A literal in the type arguments of a tag is dropped with them. The program has two literals and
neither attributes nor anything between tags, and one closure is made. -/
theorem templates_typeArguments :
    ((Grammar.readProgram (Metadata.language ⟨"view.tsx", .module⟩)
      "const v = <Foo<\x7b[<p/>]: string\x7d>/>;").node.map fun program =>
        ((program.nodes.filter fun n => n.form.isMarkup).length,
          (program.nodes.filter fun n => n.form == .group).all fun n => n.children.isEmpty,
          (transform "rumious" program).errors, (transform "rumious" program).templates)) =
      some (2, true, [], 1) := by
  decide +kernel

end TemplateCompiler
