import Mathlib.Data.List.Lex
import TemplateCompiler.Proofs.Template.Dependency
import TemplateCompiler.Proofs.Template.SnippetText

namespace TemplateCompiler

namespace Node

/-- The node at an address, which says part by part which way to go from the root. -/
def at? : List Nat → Node → Option Node
  | [], n => some n
  | place :: address, n => n.children[place]?.bind (at? address)

def addresses : Rule (List Nat) := fun here _ parts =>
  (List.range parts.length).map fun place => here ++ [place]

theorem length_addresses (here : List Nat) (form : Form) (parts : List Node) :
    (addresses here form parts).length = parts.length := by
  simp [addresses]

mutual

theorem mem_reached_addresses_iff : (n : Node) → ∀ ⦃here address : List Nat⦄ ⦃m : Node⦄,
    (address, m) ∈ n.reached addresses here ↔ ∃ rest, address = here ++ rest ∧ n.at? rest = some m
  | .node form span children => by
      intro here address m
      rw [reached, List.mem_cons, addresses, List.range_eq_range',
        mem_reachedOfList_addresses_iff children]
      constructor
      · rintro (heq | ⟨place, rest, rfl, hat⟩)
        · cases heq
          exact ⟨[], by simp, rfl⟩
        · exact ⟨place :: rest, by simp, hat⟩
      · rintro ⟨rest, rfl, hat⟩
        cases rest with
        | nil =>
            cases hat
            simp
        | cons place rest => exact .inr ⟨place, rest, by simp, hat⟩

theorem mem_reachedOfList_addresses_iff :
    (ns : List Node) → ∀ ⦃first : Nat⦄ ⦃here address : List Nat⦄ ⦃m : Node⦄, (address, m) ∈
      reachedOfList addresses ((List.range' first ns.length).map fun place => here ++ [place]) ns ↔
      ∃ place rest, address = here ++ (first + place) :: rest ∧ ns[place]?.bind (at? rest) = some m
  | [] => by simp
  | n :: ns => by
      -- The places of the parts are counted on from `first`, so that the rest of
      -- the parts is an instance.
      intro first here address m
      rw [List.length_cons, List.range'_succ, List.map_cons, reachedOfList, List.mem_append,
        mem_reached_addresses_iff n, mem_reachedOfList_addresses_iff ns]
      constructor
      · rintro (⟨rest, rfl, hat⟩ | ⟨place, rest, rfl, hat⟩)
        · exact ⟨0, rest, by simp, hat⟩
        · exact ⟨place + 1, rest, by simp; omega, by simpa using hat⟩
      · rintro ⟨place, rest, rfl, hat⟩
        cases place with
        | zero => exact .inl ⟨rest, by simp, hat⟩
        | succ place => exact .inr ⟨place, rest, by simp; omega, by simpa using hat⟩

end

mutual

/-- The nodes of a tree are reached in the order of their addresses. -/
theorem pairwise_reached_addresses : (n : Node) → (here : List Nat) →
    (n.reached addresses here).Pairwise fun v w => v.1 < w.1
  | .node form span children => by
      intro here
      rw [reached, addresses, List.range_eq_range', List.pairwise_cons]
      refine ⟨?_, pairwise_reachedOfList_addresses children 0 here⟩
      rintro ⟨address, m⟩ hm
      obtain ⟨place, rest, rfl, -⟩ := (mem_reachedOfList_addresses_iff children).mp hm
      have hlt : [] < (0 + place) :: rest := .nil
      simpa using List.Lex.append_left _ hlt here

theorem pairwise_reachedOfList_addresses : (ns : List Node) → (first : Nat) → (here : List Nat) →
    (reachedOfList addresses ((List.range' first ns.length).map fun place => here ++ [place])
      ns).Pairwise fun v w => v.1 < w.1
  | [] => by simp
  | n :: ns => by
      intro first here
      rw [List.length_cons, List.range'_succ, List.map_cons, reachedOfList, List.pairwise_append]
      refine ⟨pairwise_reached_addresses n _, pairwise_reachedOfList_addresses ns _ here, ?_⟩
      rintro ⟨address, m⟩ hm ⟨address', m'⟩ hm'
      obtain ⟨rest, rfl, -⟩ := (mem_reached_addresses_iff n).mp hm
      obtain ⟨place, rest', rfl, -⟩ := (mem_reachedOfList_addresses_iff ns).mp hm'
      rw [List.append_assoc]
      exact List.Lex.append_left _ (.rel (by omega)) here

end

end Node

/-- A variable, `this`, or a chain of named members of one of these. -/
inductive DependencyPath : Node → Prop
  | reference (name : String) (span : Span) : DependencyPath (.leaf (.reference name) span)
  | this (span : Span) : DependencyPath (.leaf .thisValue span)
  | member (isOptional : Bool) (span : Span) {object : Node} (hobject : DependencyPath object)
      (name : String) (nameSpan : Span) :
      DependencyPath (.node (.member isOptional) span [object, .leaf (.label name) nameSpan])

inductive ReadsGet (path : Node) : Node → Prop
  | mk (isOptional : Bool) (span nameSpan : Span) (parts : List Node)
      (hpath : DependencyPath path) :
      ReadsGet path (.node (.member isOptional) span [path, .node (.label "get") nameSpan parts])

theorem isPath_iff {n : Node} : isPath n = true ↔ DependencyPath n := by
  constructor
  · intro h
    fun_induction isPath n with
    | case1 name span => exact .reference name span
    | case2 span => exact .this span
    | case3 isOptional span object name nameSpan ih =>
        exact .member isOptional span (ih h) name nameSpan
    | case4 => cases h
  · intro h
    induction h with
    | reference name span => rfl
    | this span => rfl
    | member isOptional span hobject name nameSpan ih => exact ih

theorem readPath?_eq_some_iff {n path : Node} : readPath? n = some path ↔ ReadsGet path n := by
  constructor
  · intro h
    have hpath := isPath_iff.mp (isPath_of_readPath? h)
    unfold readPath? at h
    split at h
    · split at h
      · cases h
        exact .mk _ _ _ _ hpath
      · cases h
    · cases h
  · rintro ⟨isOptional, span, nameSpan, parts, hpath⟩
    simp [readPath?, isPath_iff.mpr hpath]

theorem mem_reads_iff {e path : Node} {address : List Nat} :
    (address, path) ∈ e.reads Node.addresses [] ↔ ∃ n, e.at? address = some n ∧
      ReadsGet path n := by
  unfold Node.reads
  rw [List.mem_filterMap]
  constructor
  · rintro ⟨⟨here, n⟩, hn, hread⟩
    obtain ⟨rest, rfl, hat⟩ := (Node.mem_reached_addresses_iff e).mp hn
    simp only [Option.map_eq_some_iff, Prod.mk.injEq] at hread
    obtain ⟨other, hother, rfl, rfl⟩ := hread
    exact ⟨n, hat, readPath?_eq_some_iff.mp hother⟩
  · rintro ⟨n, hat, hread⟩
    refine ⟨(address, n), (Node.mem_reached_addresses_iff e).mpr ⟨address, rfl, hat⟩, ?_⟩
    rw [readPath?_eq_some_iff.mpr hread]
    rfl

theorem pairwise_reads (e : Node) : (e.reads Node.addresses []).Pairwise fun v w => v.1 < w.1 := by
  refine (Node.pairwise_reached_addresses e []).filterMap _ ?_
  intro v w hlt v' hv' w' hw'
  obtain ⟨_, -, rfl⟩ := Option.map_eq_some_iff.mp hv'
  obtain ⟨_, -, rfl⟩ := Option.map_eq_some_iff.mp hw'
  exact hlt

/-- What the dependencies of an expression are, and what is handed over for it. -/
structure ExactDependencies (e : Node) : Prop where
  /-- There is one for each place where `get` is read from a path, in the order of the addresses,
  and that is the path. -/
  reads : ∃ occurrences : List (List Nat × Node), dependencies e = occurrences.map Prod.snd ∧
    (occurrences.Pairwise fun v w => v.1 < w.1) ∧
    ∀ address path, (address, path) ∈ occurrences ↔ ∃ n, e.at? address = some n ∧ ReadsGet path n
  /-- If the expression is itself a path, then a read of it comes before those inside it. -/
  outer : DependencyPath e → ∀ isOptional span nameSpan,
    dependencies (.node (.member isOptional) span [e, .leaf (.label "get") nameSpan]) =
      e :: dependencies e
  /-- The function made of it has no parameters, and the expression as it is for its body. -/
  closure : Snippet.arrow "" e =
    .ok (.node (.arrow {}) .synthetic [.absent, .node .parameters .synthetic [], .absent, e])
  /-- This function is handed over if there are dependencies, and else the expression. -/
  value : reactiveValue e =
    if dependencies e = [] then (e, [])
    else (.node (.arrow {}) .synthetic [.absent, .node .parameters .synthetic [], .absent, e],
      dependencies e)

theorem dependencies_exact (e : Node) : ExactDependencies e where
  reads := ⟨e.reads Node.addresses [], dependencies_eq_reads Node.length_addresses [] e,
    pairwise_reads e, fun _ _ => mem_reads_iff⟩
  outer h isOptional span nameSpan := by
    have hread : readPath? (.node (.member isOptional) span [e, .leaf (.label "get") nameSpan]) =
        some e :=
      readPath?_eq_some_iff.mpr (.mk _ _ _ _ h)
    rw [dependencies, hread]
    simp [dependenciesOfList, dependencies, readPath?]
  closure := Snippet.arrow_empty_eq e
  value := by
    rw [reactiveValue_eq]
    split
    · rename_i hnone
      rw [hnone]
    · rfl

/-- A parenthesis, a call or a computed member is not part of a path, an optional member is. -/
example :
    ((Grammar.readExpression {} "a.get.get + (b).get + c?.d.get() + e[0].get").node.map fun e =>
      (dependencies e).map Node.span) = some [⟨0, 5⟩, ⟨0, 1⟩, ⟨22, 26⟩] := by
  decide +kernel

end TemplateCompiler
