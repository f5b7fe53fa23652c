import Mathlib.Data.List.Forall2
import TemplateCompiler.Syntax.Node

/-!
Values that a tree hands down. A rule says what a node that is given a value gives to each of its
parts, and so every node of a tree is reached by one value. The names that are in force at a node,
and what becomes of the parts of a markup literal, are such values.
-/

namespace TemplateCompiler.Node

variable {σ : Type}

/-- What a node that is given a value gives to each of its parts, from left to right. -/
abbrev Rule (σ : Type) := σ → Form → List Node → List σ

mutual

/-- The nodes of a tree with the values that reach them, a node before its parts. -/
def reached (rule : Rule σ) (value : σ) : Node → List (σ × Node)
  | node form span children =>
    (value, node form span children) :: reachedOfList rule (rule value form children) children

/-- The nodes of trees with the values that reach them. A tree for which there is
no value is left out. -/
def reachedOfList (rule : Rule σ) : List σ → List Node → List (σ × Node)
  | value :: values, n :: ns => reached rule value n ++ reachedOfList rule values ns
  | _, _ => []

end

mutual

/-- All nodes of a tree, a node before its parts. -/
def nodes : Node → List Node
  | node form span children => node form span children :: nodesOfList children

def nodesOfList : List Node → List Node
  | [] => []
  | n :: ns => nodes n ++ nodesOfList ns

end

variable {rule : Rule σ}

@[simp] theorem reachedOfList_nil (values : List σ) : reachedOfList rule values [] = [] := by
  cases values with
  | nil => rfl
  | cons value values => rfl

theorem mem_reachedOfList_cons {values : List σ} {n : Node} {ns : List Node} {v : σ × Node}
    (h : v ∈ reachedOfList rule values (n :: ns)) :
    ∃ value rest, values = value :: rest ∧
      (v ∈ reached rule value n ∨ v ∈ reachedOfList rule rest ns) := by
  cases values with
  | nil => cases h
  | cons value rest => exact ⟨value, rest, rfl, List.mem_append.mp h⟩

theorem reachedOfList_replicate (value : σ) (ns : List Node) :
    reachedOfList rule (ns.map fun _ => value) ns = ns.flatMap (reached rule value) := by
  induction ns with
  | nil => rfl
  | cons n ns ih => rw [List.map_cons, reachedOfList, ih, List.flatMap_cons]

mutual

theorem map_snd_reached (h : ∀ value form children,
      (rule value form children).length = children.length) :
    (value : σ) → (n : Node) → (reached rule value n).map Prod.snd = n.nodes
  | value, node form span children => by
      simp only [reached, nodes, List.map_cons, map_snd_reachedOfList h _ children (h ..)]

theorem map_snd_reachedOfList
    (h : ∀ value form children, (rule value form children).length = children.length) :
    (values : List σ) → (ns : List Node) → values.length = ns.length →
      (reachedOfList rule values ns).map Prod.snd = nodesOfList ns
  | values, [], _ => by simp [nodesOfList]
  | [], n :: ns, hlength => by cases hlength
  | value :: values, n :: ns, hlength => by
      simp only [List.length_cons, Nat.add_right_cancel_iff] at hlength
      simp only [reachedOfList, nodesOfList, List.map_append, map_snd_reached h value n,
        map_snd_reachedOfList h values ns hlength]

end

section

variable {τ : Type} {rule' : Rule τ} {R : σ → τ → Prop}

mutual

theorem reached_forall₂ (hrule : ∀ {value value'}, R value value' → ∀ form children,
      List.Forall₂ R (rule value form children) (rule' value' form children)) :
    (n : Node) → ∀ {value : σ} {value' : τ}, R value value' →
      List.Forall₂ (fun v v' => R v.1 v'.1 ∧ v.2 = v'.2) (reached rule value n)
      (reached rule' value' n)
  | node form _ children => fun h =>
      .cons ⟨h, rfl⟩ (reachedOfList_forall₂ hrule children (hrule h form children))

theorem reachedOfList_forall₂ (hrule : ∀ {value value'}, R value value' → ∀ form children,
      List.Forall₂ R (rule value form children) (rule' value' form children)) :
    (ns : List Node) → ∀ {values : List σ} {values' : List τ}, List.Forall₂ R values values' →
      List.Forall₂ (fun v v' => R v.1 v'.1 ∧ v.2 = v'.2) (reachedOfList rule values ns)
        (reachedOfList rule' values' ns)
  | [], _, _, _ => by simp
  | n :: ns, _, _, h => by
      cases h with
      | nil => exact .nil
      | cons hvalue hvalues =>
          exact List.rel_append (reached_forall₂ hrule n hvalue)
            (reachedOfList_forall₂ hrule ns hvalues)

end

end

mutual

theorem mem_nodes_of_mem_reached : (n : Node) → ∀ ⦃value : σ⦄ ⦃v : σ × Node⦄,
    v ∈ n.reached rule value → v.2 ∈ n.nodes
  | .node form span children => by
      intro value v hv
      rw [reached, List.mem_cons] at hv
      rw [nodes, List.mem_cons]
      rcases hv with rfl | hv
      · exact .inl rfl
      · exact .inr (mem_nodesOfList_of_mem_reachedOfList children hv)

theorem mem_nodesOfList_of_mem_reachedOfList : (ns : List Node) →
    ∀ ⦃values : List σ⦄ ⦃v : σ × Node⦄, v ∈ reachedOfList rule values ns → v.2 ∈ nodesOfList ns
  | [] => by simp
  | n :: ns => by
      intro values v hv
      cases values with
      | nil => cases hv
      | cons value values =>
          rw [reachedOfList, List.mem_append] at hv
          rw [nodesOfList, List.mem_append]
          exact hv.imp (mem_nodes_of_mem_reached n ·) (mem_nodesOfList_of_mem_reachedOfList ns ·)

end

mutual

theorem usedNames_subset_of_mem_nodes : (n : Node) → ∀ m ∈ n.nodes, m.usedNames ⊆ n.usedNames
  | .node form span children => by
      intro m hm
      rw [nodes, List.mem_cons] at hm
      rcases hm with rfl | hm
      · exact List.Subset.refl _
      · rw [usedNames]
        exact List.subset_append_of_subset_right _
          (usedNamesOfList_subset_of_mem_nodesOfList children m hm)

theorem usedNamesOfList_subset_of_mem_nodesOfList :
    (ns : List Node) → ∀ m ∈ nodesOfList ns, m.usedNames ⊆ usedNamesOfList ns
  | [] => by simp [nodesOfList]
  | n :: ns => by
      intro m hm
      rw [nodesOfList, List.mem_append] at hm
      rw [usedNamesOfList]
      rcases hm with hm | hm
      · exact List.subset_append_of_subset_left _ (usedNames_subset_of_mem_nodes n m hm)
      · exact List.subset_append_of_subset_right _
          (usedNamesOfList_subset_of_mem_nodesOfList ns m hm)

end

theorem node_eta (n : Node) : Node.node n.form n.span n.children = n := by
  cases n
  rfl

end TemplateCompiler.Node
