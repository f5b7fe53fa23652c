import Mathlib.Data.List.DropRight
import Mathlib.Data.Nat.Find
import Mathlib.Order.Bounds.Defs
import TemplateCompiler.Proofs.Name.Supply

/-!
Counters only save work. The supply remembers for each base how many of its spellings have
been tried, and goes on from there. The names are still those that a search from the first
spelling on would find at every request: all that has been tried is taken, also where the
spellings of different bases meet.
-/

namespace TemplateCompiler.FreshNames

/-- A text, and what is left of it without the underscores at its ends. -/
structure Trims (text core : List Char) : Prop where
  around : ∃ before behind, text = List.replicate before '_' ++ core ++ List.replicate behind '_'
  head : core.head? ≠ some '_'
  last : core.getLast? ≠ some '_'

theorem stripUnderscores_eq (cs : List Char) :
    stripUnderscores cs = (cs.dropWhile (· == '_')).rdropWhile (· == '_') := rfl

theorem trims_stripUnderscores (cs : List Char) : Trims cs (stripUnderscores cs) where
  around := by
    let before := cs.takeWhile (· == '_')
    let behind := (cs.dropWhile (· == '_')).rtakeWhile (· == '_')
    have hbefore : before = List.replicate before.length '_' :=
      List.eq_replicate_of_mem fun c hc => by simpa using List.mem_takeWhile_imp hc
    have hbehind : behind = List.replicate behind.length '_' :=
      List.eq_replicate_of_mem fun c hc => by simpa using List.mem_rtakeWhile_imp hc
    refine ⟨before.length, behind.length, ?_⟩
    rw [← hbefore, ← hbehind, stripUnderscores_eq, List.append_assoc,
      List.rdropWhile_append_rtakeWhile, List.takeWhile_append_dropWhile]
  head := by
    intro h
    -- What is left starts with what is left without the underscores in front.
    obtain ⟨behind, hbehind⟩ := List.rdropWhile_prefix (· == '_') (cs.dropWhile (· == '_'))
    have hhead : (cs.dropWhile (· == '_')).head? = some '_' := by
      rw [← hbehind, List.head?_append, ← stripUnderscores_eq, h]
      rfl
    simpa [hhead] using List.head?_dropWhile_not (· == '_') cs
  last := by
    intro h
    have hne : stripUnderscores cs ≠ [] := by
      rintro hnil
      simp [hnil] at h
    rw [List.getLast?_eq_some_getLast hne, Option.some_inj] at h
    exact List.rdropWhile_last_not (· == '_') (cs.dropWhile (· == '_')) hne (beq_iff_eq.mpr h)

/-- The base that is made from what is left of a name. -/
def baseOf (core : List Char) : String := if core = [] then "temp" else String.ofList core

theorem base_eq_baseOf (name : String) : base name = baseOf (stripUnderscores name.toList) := by
  unfold base baseOf
  cases stripUnderscores name.toList with
  | nil => rfl
  | cons c cs => rfl

/-- A search without a bound: spellings are tried one after the other until one is not taken. -/
inductive Searches (taken : List String) (base : String) : Nat → Nat → Prop
  | found {index : Nat} (hfree : spelling base index ∉ taken) : Searches taken base index index
  | next {index result : Nat} (htaken : spelling base index ∈ taken)
      (hrest : Searches taken base (index + 1) result) : Searches taken base index result

theorem searches_of_not_mem (used : List String) (base : String) :
    ∀ {limit index : Nat}, spelling base (search used base index limit) ∉ used →
      Searches used base index (search used base index limit) := by
  intro limit
  induction limit with
  | zero => exact fun hfree => .found hfree
  | succ limit ih =>
      intro index hfree
      unfold search at hfree ⊢
      split at hfree
      · rename_i htaken
        rw [if_pos htaken]
        exact .next (by simpa using htaken) (ih hfree)
      · rename_i htaken
        rw [if_neg htaken]
        exact .found hfree

theorem searches_search (used : List String) (base : String) (index : Nat) :
    Searches used base index (search used base index used.length) :=
  searches_of_not_mem used base (search_not_mem used base index)

theorem Searches.first {taken : List String} {base : String} {index result : Nat}
    (h : Searches taken base index result) :
    index ≤ result ∧ spelling base result ∉ taken ∧
      ∀ k, index ≤ k → k < result → spelling base k ∈ taken := by
  induction h with
  | found hfree => exact ⟨Nat.le_refl _, hfree, fun k hk hk' => absurd hk' (Nat.not_lt.mpr hk)⟩
  | @next index result htaken _ ih =>
      obtain ⟨hle, hfree, hpassed⟩ := ih
      refine ⟨by omega, hfree, fun k hk hk' => ?_⟩
      rcases Nat.eq_or_lt_of_le hk with rfl | hlt
      · exact htaken
      · exact hpassed k hlt hk'

def freeIndices (taken : List String) (base : String) : Set Nat :=
  {k | 1 ≤ k ∧ spelling base k ∉ taken}

theorem exists_freeIndex (taken : List String) (base : String) :
    ∃ k, 1 ≤ k ∧ spelling base k ∉ taken :=
  ⟨_, (searches_search taken base 1).first.1, search_not_mem taken base 1⟩

theorem le_of_isLeast {taken : List String} {base : String} {index : Nat}
    (h : IsLeast (freeIndices taken base) index) : index ≤ taken.length + 1 := by
  have hpassed : ∀ k, k < index - 1 → spelling base (1 + k) ∈ taken := by
    intro k hk
    by_contra hfree
    have hle := h.2 (show 1 + k ∈ freeIndices taken base from ⟨by omega, hfree⟩)
    omega
  have hlength := le_length_of_spelling_mem hpassed
  omega

theorem lookup_setCounter (counters : List (String × Nat)) (base other : String) (index : Nat) :
    (setCounter counters base index).lookup other =
      if other = base then some index else counters.lookup other := by
  induction counters with
  | nil =>
      by_cases hother : other = base
      · simp [setCounter, hother]
      · simp [setCounter, List.lookup_cons, hother, beq_false_of_ne hother]
  | cons c counters ih =>
      obtain ⟨b, i⟩ := c
      unfold setCounter
      split
      · rename_i hbase
        obtain rfl := beq_iff_eq.mp hbase
        by_cases hother : other = b
        · simp [hother]
        · simp [List.lookup_cons, hother, beq_false_of_ne hother]
      · rename_i hbase
        rw [List.lookup_cons, List.lookup_cons, ih]
        by_cases hother : other = b
        · subst hother
          have hne : other ≠ base := fun h => hbase (beq_iff_eq.mpr h)
          simp [hne]
        · simp [beq_false_of_ne hother]

def nextIndex (s : FreshNames) (name : String) : Nat :=
  search s.used (base name) (s.counter (base name) + 1) s.used.length

theorem generate_eq (s : FreshNames) (name : String) :
    (s.generate name).1 = spelling (base name) (s.nextIndex name) := rfl

theorem counter_generate (s : FreshNames) (name other : String) :
    (s.generate name).2.counter other = if other =
      base name then s.nextIndex name else s.counter other := by
  unfold counter
  rw [show (s.generate name).2.counters =
    setCounter s.counters (base name) (s.nextIndex name) from rfl, lookup_setCounter]
  split
  · rfl
  · rfl

/-- Every spelling that has been tried is taken, whichever base it was taken for. -/
def Exhausted (s : FreshNames) : Prop :=
  ∀ base k, 1 ≤ k → k ≤ s.counter base → spelling base k ∈ s.used

theorem exhausted_initial (initial : List String) : Exhausted { used := initial } := by
  intro base k hk hcounter
  simp only [counter, List.lookup_nil, Option.getD_none] at hcounter
  omega

theorem Exhausted.generate {s : FreshNames} (hs : s.Exhausted) (name : String) :
    (s.generate name).2.Exhausted := by
  intro other k hk hcounter
  rw [counter_generate] at hcounter
  rw [used_generate, generate_eq]
  split at hcounter
  · rename_i hother
    subst hother
    obtain ⟨-, -, hpassed⟩ := (searches_search s.used (base name) (s.counter (base name) + 1)).first
    rcases Nat.eq_or_lt_of_le hcounter with rfl | hlt
    · exact List.mem_cons_self
    · refine List.mem_cons_of_mem _ ?_
      rcases Nat.lt_or_ge (s.counter (base name)) k with hlate | hearly
      · exact hpassed k hlate hlt
      · exact hs (base name) k hk hearly
  · exact List.mem_cons_of_mem _ (hs other k hk hcounter)

/-- Going on from the counter finds what a search from the first spelling on finds. -/
theorem Exhausted.isLeast_nextIndex {s : FreshNames} (hs : s.Exhausted) (name : String) :
    IsLeast (freeIndices s.used (base name)) (s.nextIndex name) := by
  obtain ⟨hle, hfree, hpassed⟩ :=
    (searches_search s.used (base name) (s.counter (base name) + 1)).first
  refine ⟨⟨Nat.le_trans (Nat.le_add_left 1 _) hle, hfree⟩, fun k hk => ?_⟩
  by_contra hlt
  rw [Nat.not_le] at hlt
  rcases Nat.lt_or_ge (s.counter (base name)) k with hlate | hearly
  · exact hk.2 (hpassed k hlate hlt)
  · exact hk.2 (hs (base name) k hk.1 hearly)

/-- The names made from given ones, one after the other, and the supply after that. -/
def generateAll (s : FreshNames) : List String → List String × FreshNames
  | [] => ([], s)
  | name :: names =>
    let (fresh, s) := s.generate name
    let (others, s) := generateAll s names
    (fresh :: others, s)

/-- The names that searches from the first spelling on find, one after the other. -/
def naive (taken : List String) : List String → List String
  | [] => []
  | name :: names =>
    let fresh := spelling (base name) (Nat.find (exists_freeIndex taken (base name)))
    fresh :: naive (fresh :: taken) names

variable {s : FreshNames}

theorem Exhausted.generateAll_eq_naive (hs : s.Exhausted) (names : List String) :
    (s.generateAll names).1 = naive s.used names := by
  induction names generalizing s with
  | nil => rfl
  | cons name names ih =>
      have hindex : s.nextIndex name = Nat.find (exists_freeIndex s.used (base name)) := by
        have hleast := hs.isLeast_nextIndex name
        apply Nat.le_antisymm
        · exact hleast.2 (Nat.find_spec (exists_freeIndex s.used (base name)))
        · exact Nat.find_min' _ hleast.1
      simp only [generateAll, naive, ih (hs.generate name), used_generate, generate_eq, hindex]

theorem Exhausted.generateAll (hs : s.Exhausted) (names : List String) :
    (s.generateAll names).2.Exhausted := by
  induction names generalizing s with
  | nil => exact hs
  | cons name names ih => exact ih (hs.generate name)

theorem used_generateAll (s : FreshNames) (names : List String) :
    (s.generateAll names).2.used = (s.generateAll names).1.reverse ++ s.used := by
  induction names generalizing s with
  | nil => rfl
  | cons name names ih => simp [FreshNames.generateAll, ih]

theorem nodup_generateAll (s : FreshNames) (names : List String) :
    (s.generateAll names).1.Nodup ∧ ∀ fresh ∈ (s.generateAll names).1, fresh ∉ s.used := by
  induction names generalizing s with
  | nil => exact ⟨List.nodup_nil, by simp [FreshNames.generateAll]⟩
  | cons name names ih =>
      obtain ⟨hnodup, hfree⟩ := ih (s.generate name).2
      rw [used_generate] at hfree
      refine ⟨List.nodup_cons.mpr ⟨fun hmem => hfree _ hmem List.mem_cons_self, hnodup⟩, ?_⟩
      refine List.forall_mem_cons.mpr ⟨s.generate_not_mem name, fun fresh hfresh hused => ?_⟩
      exact hfree fresh hfresh (List.mem_cons_of_mem _ hused)

/-- The next name after some names have been handed out: the search for it, which goes on from a
counter, comes to an end, and ends at the first of all the spellings of the base that are not taken.
There are at most as many of them in front of it as there are names taken. -/
structure LeastFree (initial : List String) (returned : List String) (s : FreshNames)
    (name : String) (core : List Char) (index : Nat) : Prop where
  trims : Trims name.toList core
  searches : Searches s.used (baseOf core) (s.counter (baseOf core) + 1) index
  least : IsLeast {k | 1 ≤ k ∧ spelling (baseOf core) k ∉ initial ∧
    spelling (baseOf core) k ∉ returned} index
  written : index = 1 ∧ (s.generate name).1 = "_" ++ baseOf core ∨
    2 ≤ index ∧ (s.generate name).1 = "_" ++ baseOf core ++ Nat.repr index
  bounded : index ≤ initial.length + returned.length + 1

theorem generateAll_naive (initial names : List String) (name : String) :
    let run := generateAll { used := initial } names
    (∃ core index, LeastFree initial run.1 run.2 name core index) ∧
      run.1 = naive initial names ∧ run.1.Nodup ∧ (∀ fresh ∈ run.1, fresh ∉ initial) ∧
      ∀ other, run.2.isUsed other = true ↔ other ∈ initial ∨ other ∈ run.1 := by
  intro run
  have hexhausted : run.2.Exhausted := (exhausted_initial initial).generateAll names
  have hused : run.2.used = run.1.reverse ++ initial := used_generateAll _ names
  have hmem : ∀ other, other ∈ run.2.used ↔ other ∈ initial ∨ other ∈ run.1 := by
    intro other
    rw [hused, List.mem_append, List.mem_reverse, or_comm]
  obtain ⟨hnodup, hfree⟩ := nodup_generateAll { used := initial } names
  refine ⟨?_, (exhausted_initial initial).generateAll_eq_naive names, hnodup, hfree,
    fun other => ?_⟩
  · have hleast := hexhausted.isLeast_nextIndex name
    have hbound := le_of_isLeast hleast
    rw [base_eq_baseOf] at hleast
    refine ⟨stripUnderscores name.toList, run.2.nextIndex name,
      trims_stripUnderscores _, ?_, ?_, ?_, ?_⟩
    · rw [← base_eq_baseOf]
      exact searches_search ..
    · simpa only [freeIndices, hmem, not_or] using hleast
    · rw [generate_eq, ← base_eq_baseOf]
      rcases Nat.eq_or_lt_of_le hleast.1.1 with hone | hmore
      · exact .inl ⟨hone.symm, by simp [spelling, ← hone]⟩
      · exact .inr ⟨hmore, by simp [spelling, Nat.ne_of_gt hmore]⟩
    · rw [hused, List.length_append, List.length_reverse] at hbound
      omega
  · rw [isUsed, List.contains_iff_mem, hmem]

/-- The spellings of `ele` and of `ele2` meet, and `_ele_` has the base of `ele`. -/
example : (generateAll { used := ["_x"] } ["ele", "ele2", "ele", "_ele_", "x", "__"]).1 =
    ["_ele", "_ele2", "_ele3", "_ele4", "_x2", "_temp"] := by
  decide +kernel

end TemplateCompiler.FreshNames
