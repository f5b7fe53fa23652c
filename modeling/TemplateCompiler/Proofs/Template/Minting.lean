import TemplateCompiler.Proofs.Template.Growth

namespace TemplateCompiler.Session

def aliases (s : Session) : List String := s.imports.entries.map Prod.snd

/-- A name that has been taken since the names of a program were. -/
def Minted (program : List String) (s : Session) (name : String) : Prop :=
  name ∈ s.used ∧ name ∉ program

/-- Nothing of the program is free, and no symbol is imported under a name of the program. -/
structure Clean (program : List String) (s : Session) : Prop where
  mem_used : ∀ name ∈ program, name ∈ s.used
  minted_alias : ∀ e ∈ s.imports.entries, s.Minted program e.2

theorem Minted.mono {program : List String} {s s' : Session} {name : String}
    (h : s.Minted program name) (hgrows : s.Grows s') : s'.Minted program name :=
  ⟨hgrows.mem_used h.1, h.2⟩

/-- The names between two states of a session: what is emitted introduces `bound`, and the other
names that have been taken are local names of symbols. -/
structure Mints (program : List String) (s s' : Session) (bound : List String) : Prop where
  grows : s.Grows s'
  clean : s'.Clean program
  count_used : ∀ name, s'.used.count name + s.aliases.count name =
    bound.count name + s.used.count name + s'.aliases.count name

namespace Mints

variable {program bound bound' : List String} {s s₁ s₂ : Session}

theorem refl (h : s.Clean program) : Mints program s s [] :=
  ⟨.refl s, h, fun _ => by simp⟩

theorem trans (h : Mints program s s₁ bound) (h' : Mints program s₁ s₂ bound') :
    Mints program s s₂ (bound ++ bound') := by
  refine ⟨h.grows.trans h'.grows, h'.clean, fun name => ?_⟩
  have hfirst := h.count_used name
  have hsecond := h'.count_used name
  rw [List.count_append]
  omega

theorem perm (h : Mints program s s₁ bound) (hperm : bound.Perm bound') :
    Mints program s s₁ bound' := by
  refine ⟨h.grows, h.clean, fun name => ?_⟩
  rw [← hperm.count_eq]
  exact h.count_used name

theorem listen (h : Mints program s s₁ bound) (event : String) :
    Mints program s { s₁ with events := s₁.events ++ [event] } bound :=
  ⟨⟨h.grows.environment, h.grows.scope, h.grows.used, h.grows.entries⟩,
    ⟨h.clean.mem_used, h.clean.minted_alias⟩, h.count_used⟩

theorem note (h : Mints program s s₁ bound) (trace : List String) :
    Mints program s { s₁ with trace } bound :=
  ⟨⟨h.grows.environment, h.grows.scope, h.grows.used, h.grows.entries⟩,
    ⟨h.clean.mem_used, h.clean.minted_alias⟩, h.count_used⟩

end Mints

theorem mints_fresh {program : List String} {s s' : Session} {base name : String}
    (hclean : s.Clean program) (h : (Lower.fresh base).run s = (.ok name, s')) :
    Mints program s s' [name] ∧ s'.Minted program name := by
  obtain ⟨hgrows, hfree, htaken, himports, -⟩ := of_run_fresh h
  have hused : s'.used = name :: s.used := by
    obtain ⟨names, hnames, rfl, rfl⟩ := Lower.run_fresh_ok h
    simp [used, hnames]
  refine ⟨⟨hgrows, ⟨?_, ?_⟩, fun x => ?_⟩, htaken, ?_⟩
  · intro x hx
    exact hgrows.mem_used (hclean.mem_used x hx)
  · rw [himports]
    intro e he
    exact (hclean.minted_alias e he).mono hgrows
  · rw [hused, ← List.singleton_append, List.count_append, aliases, aliases, himports]
  · exact fun hname => hfree (hclean.mem_used name hname)

theorem mints_require {program : List String} {s s' : Session} {symbol name : String}
    (hclean : s.Clean program) (h : (Lower.require symbol).run s = (.ok name, s')) :
    Mints program s s' [] ∧ s'.Minted program name := by
  obtain ⟨hgrows, hlisted⟩ := of_run_require h
  have hmem : ∀ x ∈ program, x ∈ s'.used := fun x hx => hgrows.mem_used (hclean.mem_used x hx)
  obtain ⟨names, hnames, rfl, rfl⟩ := Lower.run_require_ok h
  rcases s.imports.require_cases names symbol s.environment with ⟨old, hold, heq⟩ | heq
  · simp only [heq] at hgrows hlisted hmem ⊢
    have hclean' : Clean program { s with names := some names } :=
      ⟨hmem, fun e he => (hclean.minted_alias e he).mono hgrows⟩
    refine ⟨⟨hgrows, hclean', fun x => ?_⟩, hclean'.minted_alias _ hlisted⟩
    simp [used, aliases, hnames]
  · simp only [heq] at hgrows hlisted hmem ⊢
    have hfree : (names.generate symbol).1 ∉ s.used := by
      simpa [used, hnames] using names.generate_not_mem symbol
    have hclean' : Clean program
        { s with
          imports := ⟨Imports.add symbol (names.generate symbol).1 s.environment s.imports.modules⟩
          names := some (names.generate symbol).2 } := by
      refine ⟨hmem, fun e he => ?_⟩
      rcases (Imports.mem_entries_add ..).mp he with rfl | hold
      · exact ⟨by simp [used], fun hname => hfree (hclean.mem_used _ hname)⟩
      · exact (hclean.minted_alias e hold).mono hgrows
    refine ⟨⟨hgrows, hclean', fun x => ?_⟩, hclean'.minted_alias _ hlisted⟩
    simp only [used, aliases, hnames, FreshNames.used_generate, Imports.count_aliases_add,
      List.count_nil]
    rw [← List.singleton_append, List.count_append]
    omega

end TemplateCompiler.Session
