import TemplateCompiler.Proofs.Name.Registry
import TemplateCompiler.Proofs.Template.Steps

namespace TemplateCompiler

namespace Session

def used (s : Session) : List String :=
  match s.names with
  | some names => names.used
  | none => []

/-- A session and a later state of it. -/
structure Grows (s s' : Session) : Prop where
  environment : s'.environment = s.environment
  scope : s.hasScope = true → s'.hasScope = true
  used : ∃ minted, s'.used = minted ++ s.used ∧ minted.Nodup ∧ ∀ name ∈ minted, name ∉ s.used
  entries : ∀ e ∈ s.imports.entries, e ∈ s'.imports.entries

namespace Grows

variable {s s₁ s₂ : Session}

theorem refl (s : Session) : s.Grows s :=
  ⟨rfl, id, ⟨[], rfl, List.nodup_nil, by simp⟩, fun _ h => h⟩

theorem trans (h : s.Grows s₁) (h' : s₁.Grows s₂) : s.Grows s₂ := by
  obtain ⟨minted, hused, hnodup, hfresh⟩ := h.used
  obtain ⟨minted', hused', hnodup', hfresh'⟩ := h'.used
  refine ⟨h'.environment.trans h.environment, h'.scope ∘ h.scope,
    ⟨minted' ++ minted, ?_, ?_, ?_⟩, fun e he => h'.entries e (h.entries e he)⟩
  · rw [hused', hused, List.append_assoc]
  · refine List.nodup_append.mpr ⟨hnodup', hnodup, ?_⟩
    rintro a ha b hb rfl
    exact hfresh' a ha (by simp [hused, hb])
  · intro name hname hs
    rcases List.mem_append.mp hname with hlate | hearly
    · exact hfresh' name hlate (by simp [hused, hs])
    · exact hfresh name hearly hs

theorem mem_used (h : s.Grows s₁) {name : String} (hname : name ∈ s.used) : name ∈ s₁.used := by
  obtain ⟨minted, hused, -, -⟩ := h.used
  simp [hused, hname]

end Grows

theorem grows_generate {s : Session} {names : FreshNames} (hnames : s.names = some names)
    (name : String) : s.Grows { s with names := some (names.generate name).2 } := by
  refine ⟨rfl, fun _ => rfl, ⟨[(names.generate name).1], ?_, List.nodup_singleton _, ?_⟩,
    fun _ he => he⟩
  · simp [used, hnames]
  · intro x hx
    obtain rfl := List.mem_singleton.mp hx
    simpa [used, hnames] using names.generate_not_mem name

theorem grows_require {s : Session} {names : FreshNames} (hnames : s.names = some names)
    (symbol : String) :
    s.Grows { s with
      imports := (s.imports.require names symbol s.environment).2.1
      names := some (s.imports.require names symbol s.environment).2.2 } := by
  rcases s.imports.require_cases names symbol s.environment with ⟨name, -, heq⟩ | heq
  · rw [heq]
    refine ⟨rfl, fun _ => rfl, ⟨[], ?_, List.nodup_nil, by simp⟩, fun _ he => he⟩
    simp [used, hnames]
  · rw [heq]
    have hgrows := grows_generate hnames symbol
    refine ⟨rfl, fun _ => rfl, hgrows.used, ?_⟩
    intro e he
    exact (Imports.mem_entries_add ..).mpr (.inr he)

theorem stable_grows (s₀ : Session) : Stable s₀.Grows where
  fresh name := .fresh fun _ _ hnames hs => hs.trans (grows_generate hnames name)
  require symbol _ := .require fun _ _ hnames hs => hs.trans (grows_require hnames symbol)
  listen _ _ hs := ⟨hs.environment, hs.scope, hs.used, hs.entries⟩
  note _ _ hs := ⟨hs.environment, hs.scope, hs.used, hs.entries⟩

theorem of_run_fresh {s s' : Session} {base name : String}
    (h : (Lower.fresh base).run s = (.ok name, s')) :
    s.Grows s' ∧ name ∉ s.used ∧ name ∈ s'.used ∧ s'.imports = s.imports ∧
      ∃ index, name = FreshNames.spelling (FreshNames.base base) index := by
  obtain ⟨names, hnames, rfl, rfl⟩ := Lower.run_fresh_ok h
  refine ⟨grows_generate hnames base, ?_, ?_, rfl, names.generate_eq_spelling base⟩
  · simpa [used, hnames] using names.generate_not_mem base
  · simp [used]

theorem of_run_require {s s' : Session} {symbol name : String}
    (h : (Lower.require symbol).run s = (.ok name, s')) :
    s.Grows s' ∧ (symbol, name) ∈ s'.imports.entries := by
  obtain ⟨names, hnames, rfl, rfl⟩ := Lower.run_require_ok h
  refine ⟨grows_require hnames symbol, ?_⟩
  rcases s.imports.require_cases names symbol s.environment with ⟨old, hold, heq⟩ | heq
  · simpa only [heq] using hold
  · simp only [heq]
    exact (Imports.mem_entries_add ..).mpr (.inl rfl)

def helperName? (s : Session) (symbol : String) : Option String :=
  s.imports.localName? symbol s.environment

theorem helperName?_of_run_fresh {s s' : Session} {base name : String}
    (h : (Lower.fresh base).run s = (.ok name, s')) : s'.helperName? = s.helperName? := by
  obtain ⟨hgrows, -, -, himports, -⟩ := of_run_fresh h
  funext symbol
  rw [helperName?, helperName?, himports, hgrows.environment]

theorem helperName?_of_run_require {s s' : Session} {symbol name : String}
    (h : (Lower.require symbol).run s = (.ok name, s')) :
    s'.helperName? symbol = some name ∧
      ∀ other known, s.helperName? other = some known → s'.helperName? other = some known := by
  obtain ⟨names, -, rfl, rfl⟩ := Lower.run_require_ok h
  unfold helperName? Imports.require
  cases hlocal : s.imports.localName? symbol s.environment with
  | some localName => exact ⟨hlocal, fun _ _ hknown => hknown⟩
  | none =>
      simp only [Imports.localName?_add]
      refine ⟨by simp [hlocal], fun other known hknown => ?_⟩
      simp [hknown]

/-- The words that names of nodes, contexts and parameters are made from. -/
def localBases : List String := ["root", "ctx", "ele", "comp", "if_comp", "for_comp", "value"]

/-- The local name of a symbol is spelt from the symbol, and only helpers are imported. -/
def Spelt (s : Session) : Prop :=
  ∀ e ∈ s.imports.entries, e.1 ∈ helperSymbols ∧ ∃ index, e.2 = FreshNames.spelling e.1 index

theorem base_of_mem_helperSymbols :
    ∀ symbol ∈ helperSymbols, FreshNames.base symbol = symbol := by
  decide

theorem isStem_of_mem_helperSymbols : ∀ symbol ∈ helperSymbols, FreshNames.IsStem symbol := by
  decide

theorem base_of_mem_localBases : ∀ base ∈ localBases, FreshNames.base base = base := by
  decide

theorem isStem_of_mem_localBases : ∀ base ∈ localBases, FreshNames.IsStem base := by
  decide

theorem localBases_disjoint : ∀ base ∈ localBases, base ∉ helperSymbols := by
  decide

/-- A name of a node, a context or a parameter. -/
def IsLocal (name : String) : Prop :=
  ∃ base ∈ localBases, ∃ index, name = FreshNames.spelling base index

theorem not_isLocal_document : ¬ IsLocal "document" := by
  rintro ⟨base, -, index, hname⟩
  have hhead := congrArg (fun name => name.toList.head?) hname
  simp [FreshNames.toList_spelling] at hhead

theorem isLocal_of_run_fresh {s s' : Session} {base name : String} (hbase : base ∈ localBases)
    (h : (Lower.fresh base).run s = (.ok name, s')) : IsLocal name := by
  obtain ⟨-, -, -, -, index, hname⟩ := of_run_fresh h
  rw [base_of_mem_localBases base hbase] at hname
  exact ⟨base, hbase, index, hname⟩

/-- No helper is imported under the name of a node. -/
theorem Spelt.not_isLocal {s : Session} (hs : s.Spelt) {e : String × String}
    (he : e ∈ s.imports.entries) : ¬ IsLocal e.2 := by
  rintro ⟨base, hbase, i, hlocal⟩
  obtain ⟨hsymbol, j, hname⟩ := hs e he
  have heq := FreshNames.eq_of_spelling_eq (isStem_of_mem_localBases base hbase)
    (isStem_of_mem_helperSymbols e.1 hsymbol) (hlocal.symm.trans hname)
  exact localBases_disjoint base hbase (heq ▸ hsymbol)

theorem Spelt.symbol_eq {s : Session} (hs : s.Spelt) {e e' : String × String}
    (he : e ∈ s.imports.entries) (he' : e' ∈ s.imports.entries) (h : e.2 = e'.2) : e.1 = e'.1 := by
  obtain ⟨hsymbol, i, hname⟩ := hs e he
  obtain ⟨hsymbol', j, hname'⟩ := hs e' he'
  exact FreshNames.eq_of_spelling_eq (isStem_of_mem_helperSymbols e.1 hsymbol)
    (isStem_of_mem_helperSymbols e'.1 hsymbol') (hname.symm.trans (h.trans hname'))

theorem stable_spelt : Stable Spelt where
  fresh _ := .fresh fun _ _ _ hs => hs
  require symbol hsymbol := .require fun s names _ hs => by
    rcases s.imports.require_cases names symbol s.environment with ⟨name, -, heq⟩ | heq
    · simp only [heq]
      exact hs
    · simp only [heq]
      intro e he
      rcases (Imports.mem_entries_add ..).mp he with rfl | hold
      · obtain ⟨index, hname⟩ := names.generate_eq_spelling symbol
        rw [base_of_mem_helperSymbols symbol hsymbol] at hname
        exact ⟨hsymbol, index, hname⟩
      · exact hs e hold
  listen _ _ hs := hs
  note _ _ hs := hs

/-- The sessions that a compiler can get into: it starts without a program, and enters programs,
lowers templates and finishes programs in any order, whether or not these steps succeed. -/
inductive Reachable : Session → Prop
  | start (environment : String) : Reachable { environment }
  | enter {s : Session} (program : Node) : Reachable s → Reachable (s.enter program)
  | lower {s : Session} (t : Template) : Reachable s → Reachable ((lowerTemplate t).run s).2
  | finish {s : Session} (body : List Node) : Reachable s → Reachable ((finishProgram body).run s).2

theorem Reachable.spelt {s : Session} (h : Reachable s) : s.Spelt := by
  induction h with
  | start environment =>
      intro e he
      cases he
  | enter program _ ih => exact ih
  | lower t _ ih => exact stable_spelt.lowerTemplate t _ ih
  | finish body _ ih => exact stable_spelt.finishProgram body _ ih

end Session

end TemplateCompiler
