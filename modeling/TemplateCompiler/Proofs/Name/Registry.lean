import Mathlib.Data.List.Nodup
import TemplateCompiler.Name.Imports
import TemplateCompiler.Proofs.Name.Supply

namespace TemplateCompiler

theorem eraseDups_concat {α : Type} [BEq α] [LawfulBEq α] (l : List α) (a : α) [Decidable (a ∈ l)] :
    (l ++ [a]).eraseDups = if a ∈ l then l.eraseDups else l.eraseDups ++ [a] := by
  rw [List.eraseDups_append]
  split
  · rename_i hmem
    simp [List.removeAll, hmem]
  · rename_i hmem
    simp [List.removeAll, hmem, List.eraseDups_cons]

namespace Imports

/-- The imported symbols with their local names, whatever module they come from. -/
def entries (r : Imports) : List (String × String) := r.modules.flatMap (·.symbols)

/-- The symbols that are imported from a module with their local names. -/
def listed (r : Imports) (source : String) : List (String × String) :=
  match r.modules.find? (·.source == source) with
  | some m => m.symbols
  | none => []

theorem mem_of_lookup {α : Type} {key : String} {value : α} {entries : List (String × α)}
    (h : entries.lookup key = some value) : (key, value) ∈ entries := by
  obtain ⟨before, after, rfl, -⟩ := List.lookup_eq_some_iff.mp h
  simp

theorem localName?_eq_lookup (r : Imports) (symbol source : String) :
    r.localName? symbol source = (r.listed source).lookup symbol := by
  unfold localName? listed
  cases r.modules.find? (·.source == source) with
  | none => rfl
  | some m => rfl

theorem mem_entries_of_localName? {r : Imports} {symbol source name : String}
    (h : r.localName? symbol source = some name) : (symbol, name) ∈ r.entries := by
  unfold localName? at h
  split at h
  · rename_i m hm
    exact List.mem_flatMap.mpr ⟨m, List.mem_of_find?_eq_some hm, mem_of_lookup h⟩
  · cases h

theorem listed_add (symbol localName source other : String) (ms : List ModuleImports) :
    (⟨add symbol localName source ms⟩ : Imports).listed other =
      (⟨ms⟩ : Imports).listed other ++ if other = source then [(symbol, localName)] else [] := by
  induction ms with
  | nil =>
      by_cases hother : source = other
      · simp [add, listed, hother]
      · simp [add, listed, hother, Ne.symm hother]
  | cons m ms ih =>
      unfold add
      by_cases hsource : m.source = source
      · by_cases hother : m.source = other
        · simp [listed, ← hsource, hother]
        · simp [listed, ← hsource, hother, Ne.symm hother]
      · by_cases hother : m.source = other
        · simp [listed, ← hother, hsource]
        · simpa [listed, hsource, hother] using ih

theorem localName?_add (symbol localName source other : String) (ms : List ModuleImports) :
    (⟨add symbol localName source ms⟩ : Imports).localName? other source =
      ((⟨ms⟩ : Imports).localName? other source).or (if other =
        symbol then some localName else none) := by
  have hlookup : [(symbol, localName)].lookup other = if other =
      symbol then some localName else none := by
    by_cases hother : other = symbol
    · simp [hother]
    · simp [List.lookup_cons, hother, beq_false_of_ne hother]
  rw [localName?_eq_lookup, localName?_eq_lookup, listed_add, if_pos rfl, List.lookup_append,
    hlookup]

theorem perm_entries_add (symbol name source : String) (ms : List ModuleImports) :
    (⟨add symbol name source ms⟩ : Imports).entries.Perm
      ((symbol, name) :: (⟨ms⟩ : Imports).entries) := by
  simp only [entries]
  induction ms with
  | nil => simp [add]
  | cons m ms ih =>
      unfold add
      split
      · simp only [List.flatMap_cons, List.append_assoc, List.singleton_append]
        exact List.perm_middle
      · simp only [List.flatMap_cons]
        exact (ih.append_left m.symbols).trans List.perm_middle

theorem mem_entries_add (symbol name source : String) (ms : List ModuleImports)
    (e : String × String) :
    e ∈ (⟨add symbol name source ms⟩ : Imports).entries ↔
      e = (symbol, name) ∨ e ∈ (⟨ms⟩ : Imports).entries := by
  rw [(perm_entries_add ..).mem_iff, List.mem_cons]

theorem count_aliases_add (symbol name source : String) (r : Imports) (x : String) :
    (((⟨add symbol name source r.modules⟩ : Imports).entries).map Prod.snd).count x =
      [name].count x + (r.entries.map Prod.snd).count x := by
  rw [((perm_entries_add ..).map Prod.snd).count_eq, List.map_cons, ← List.singleton_append,
    List.count_append]

/-- A request either finds the symbol or adds it under a fresh name. -/
theorem require_cases (r : Imports) (names : FreshNames) (symbol source : String) :
    (∃ name, (symbol, name) ∈ r.entries ∧
      r.require names symbol source = (name, r, names)) ∨
    r.require names symbol source =
      ((names.generate symbol).1, ⟨add symbol (names.generate symbol).1 source r.modules⟩,
        (names.generate symbol).2) := by
  unfold require
  split
  · rename_i name hname
    exact .inl ⟨name, mem_entries_of_localName? hname, rfl⟩
  · exact .inr rfl

end Imports

/-- A module with symbols added behind those that it had. -/
structure ModuleImports.Extends (m m' : ModuleImports) : Prop where
  source : m'.source = m.source
  symbols : m.symbols <+: m'.symbols

namespace ModuleImports.Extends

theorem refl (m : ModuleImports) : m.Extends m := ⟨rfl, List.prefix_refl _⟩

theorem trans {m₁ m₂ m₃ : ModuleImports} (h : m₁.Extends m₂) (h' : m₂.Extends m₃) : m₁.Extends m₃ :=
  ⟨h'.source.trans h.source, h.symbols.trans h'.symbols⟩

end ModuleImports.Extends

namespace Imports

/-- Imports with symbols added to their modules, and modules added behind those that there were:
every module is still in its place. -/
def Extends (r r' : Imports) : Prop :=
  ∀ (i : Nat) (m : ModuleImports), r.modules[i]? = some m →
    ∃ m', r'.modules[i]? = some m' ∧ m.Extends m'

/-- No module is listed twice, and no module lists a symbol twice. -/
structure Distinct (r : Imports) : Prop where
  sources : (r.modules.map ModuleImports.source).Nodup
  symbols : ∀ m ∈ r.modules, (m.symbols.map Prod.fst).Nodup

namespace Extends

theorem refl (r : Imports) : r.Extends r := fun _ m hm => ⟨m, hm, .refl m⟩

theorem trans {r₁ r₂ r₃ : Imports} (h : r₁.Extends r₂) (h' : r₂.Extends r₃) : r₁.Extends r₃ := by
  intro i m hm
  obtain ⟨m', hm', hextends⟩ := h i m hm
  obtain ⟨m'', hm'', hextends'⟩ := h' i m' hm'
  exact ⟨m'', hm'', hextends.trans hextends'⟩

end Extends

theorem extends_add (symbol localName source : String) (ms : List ModuleImports) :
    Extends ⟨ms⟩ ⟨add symbol localName source ms⟩ := by
  induction ms with
  | nil =>
      intro i m hm
      cases hm
  | cons first ms ih =>
      intro i m hm
      unfold add
      split
      · cases i with
        | zero =>
            cases hm
            exact ⟨_, rfl, rfl, List.prefix_append _ _⟩
        | succ i => exact ⟨m, hm, .refl m⟩
      · cases i with
        | zero => exact ⟨m, hm, .refl m⟩
        | succ i => exact ih i m hm

theorem extends_require (r : Imports) (names : FreshNames) (symbol source : String) :
    r.Extends (r.require names symbol source).2.1 := by
  unfold require
  split
  · exact .refl r
  · exact extends_add symbol _ source r.modules

theorem sources_add (symbol localName source : String) (ms : List ModuleImports) :
    (add symbol localName source ms).map ModuleImports.source =
      if source ∈ ms.map ModuleImports.source then ms.map ModuleImports.source
      else ms.map ModuleImports.source ++ [source] := by
  induction ms with
  | nil => simp [add]
  | cons m ms ih =>
      unfold add
      split
      · rename_i hsource
        simp [beq_iff_eq.mp hsource]
      · rename_i hsource
        have hne : source ≠ m.source := fun h => hsource (beq_iff_eq.mpr h.symm)
        simp only [List.map_cons, ih, List.mem_cons, hne, false_or]
        split
        · rfl
        · rfl

theorem mem_add {symbol localName source : String} {ms : List ModuleImports} {m : ModuleImports}
    (hm : m ∈ add symbol localName source ms) :
    m ∈ ms ∨ ∃ symbols, m = ⟨source, symbols ++ [(symbol, localName)]⟩ ∧
      (symbols = [] ∨ ⟨source, symbols⟩ ∈ ms) := by
  induction ms with
  | nil => exact .inr ⟨[], by simpa [add] using hm, .inl rfl⟩
  | cons first ms ih =>
      unfold add at hm
      split at hm
      · rename_i hsource
        obtain rfl := beq_iff_eq.mp hsource
        rcases List.mem_cons.mp hm with rfl | hlater
        · exact .inr ⟨first.symbols, rfl, .inr (List.mem_cons_self ..)⟩
        · exact .inl (List.mem_cons_of_mem _ hlater)
      · rcases List.mem_cons.mp hm with rfl | hlater
        · exact .inl (List.mem_cons_self ..)
        · rcases ih hlater with hold | ⟨symbols, rfl, hempty | hold⟩
          · exact .inl (List.mem_cons_of_mem _ hold)
          · exact .inr ⟨symbols, rfl, .inl hempty⟩
          · exact .inr ⟨symbols, rfl, .inr (List.mem_cons_of_mem _ hold)⟩

theorem Distinct.listed_eq {r : Imports} (hr : r.Distinct) {m : ModuleImports}
    (hm : m ∈ r.modules) :
    r.listed m.source = m.symbols := by
  unfold listed
  split
  · rename_i found hfound
    have hsource : found.source = m.source := by simpa using List.find?_some hfound
    rw [List.inj_on_of_nodup_map hr.sources (List.mem_of_find?_eq_some hfound) hm hsource]
  · rename_i hfound
    simpa using List.find?_eq_none.mp hfound m hm

theorem Distinct.not_mem_symbols {r : Imports} (hr : r.Distinct) {symbol source : String}
    (h : r.localName? symbol source = none) {symbols : List (String × String)}
    (hm : ⟨source, symbols⟩ ∈ r.modules) : symbol ∉ symbols.map Prod.fst := by
  rw [localName?_eq_lookup, hr.listed_eq hm] at h
  intro hmem
  obtain ⟨⟨_, localName⟩, hentry, rfl⟩ := List.mem_map.mp hmem
  exact absurd h (by simpa [List.lookup_eq_none_iff] using ⟨localName, hentry⟩)

theorem Distinct.add {r : Imports} (hr : r.Distinct) {symbol source : String} (localName : String)
    (h : r.localName? symbol source = none) : Distinct ⟨add symbol localName source r.modules⟩ where
  sources := by
    rw [sources_add]
    split
    · exact hr.sources
    · rename_i hnew
      exact hr.sources.append (List.nodup_singleton source) (List.disjoint_singleton.mpr hnew)
  symbols m hm := by
    rcases mem_add hm with hold | ⟨symbols, rfl, rfl | hold⟩
    · exact hr.symbols m hold
    · exact List.nodup_singleton symbol
    · rw [List.map_append]
      refine (hr.symbols _ hold).append (List.nodup_singleton symbol) ?_
      exact List.disjoint_singleton.mpr (hr.not_mem_symbols h hold)

end Imports

/-- What is asked for: the local name of a symbol of a module, or a fresh
name for something else. -/
inductive Request where
  | symbol (symbol source : String)
  | name (name : String)
deriving DecidableEq, Repr

namespace Request

def source? : Request → Option String
  | .symbol _ source => some source
  | .name _ => none

def symbolOf? (source : String) : Request → Option String
  | .symbol asked other => if other = source then some asked else none
  | .name _ => none

end Request

/-- Requests with the answers to them, in their order. -/
abbrev Transcript := List (Request × String)

namespace Transcript

def sources (log : Transcript) : List String := log.filterMap fun e => e.1.source?

def symbolsOf (log : Transcript) (source : String) : List String :=
  log.filterMap fun e => e.1.symbolOf? source

/-- The fresh names that were not asked for as local names. -/
def freshNames (log : Transcript) : List String :=
  log.filterMap fun
    | (.name _, fresh) => some fresh
    | (.symbol _ _, _) => none

theorem sources_symbol (log : Transcript) (symbol source answer : String) :
    sources (log ++ [(.symbol symbol source, answer)]) = log.sources ++ [source] := by
  simp [sources, Request.source?]

theorem symbolsOf_symbol (log : Transcript) (symbol source answer other : String) :
    symbolsOf (log ++ [(.symbol symbol source, answer)]) other =
      log.symbolsOf other ++ if other = source then [symbol] else [] := by
  by_cases hother : other = source
  · simp [symbolsOf, Request.symbolOf?, hother]
  · simp [symbolsOf, Request.symbolOf?, hother, Ne.symm hother]

theorem mem_symbolsOf_iff {log : Transcript} {symbol source : String} :
    symbol ∈ log.symbolsOf source ↔ ∃ answer, (.symbol symbol source, answer) ∈ log := by
  unfold symbolsOf
  rw [List.mem_filterMap]
  constructor
  · rintro ⟨⟨_ | _, answer⟩, he, hsymbol⟩
    · rename_i other module
      simp only [Request.symbolOf?, Option.ite_none_right_eq_some, Option.some_inj] at hsymbol
      obtain ⟨rfl, rfl⟩ := hsymbol
      exact ⟨answer, he⟩
    · cases hsymbol
  · rintro ⟨answer, he⟩
    exact ⟨_, he, by simp [Request.symbolOf?]⟩

theorem mem_sources_iff {log : Transcript} {source : String} :
    source ∈ log.sources ↔ ∃ symbol, symbol ∈ log.symbolsOf source := by
  unfold sources
  rw [List.mem_filterMap]
  constructor
  · rintro ⟨⟨_ | _, answer⟩, he, hsource⟩
    · rename_i symbol module
      cases hsource
      exact ⟨symbol, mem_symbolsOf_iff.mpr ⟨answer, he⟩⟩
    · cases hsource
  · rintro ⟨symbol, hsymbol⟩
    obtain ⟨answer, he⟩ := mem_symbolsOf_iff.mp hsymbol
    exact ⟨_, he, rfl⟩

theorem mem_freshNames_iff {log : Transcript} {fresh : String} :
    fresh ∈ log.freshNames ↔ ∃ name, (.name name, fresh) ∈ log := by
  unfold freshNames
  rw [List.mem_filterMap]
  constructor
  · rintro ⟨⟨_ | name, answer⟩, he, hfresh⟩
    · cases hfresh
    · cases hfresh
      exact ⟨name, he⟩
  · rintro ⟨name, he⟩
    exact ⟨_, he, rfl⟩

end Transcript

/-- Imports, and the supply of names that they share with the rest of a file. -/
structure Registry where
  imports : Imports := {}
  names : FreshNames

namespace Registry

def answer (r : Registry) : Request → String × Registry
  | .symbol symbol source =>
    let (localName, imports, names) := r.imports.require r.names symbol source
    (localName, { imports, names })
  | .name name =>
    let (fresh, names) := r.names.generate name
    (fresh, { r with names })

/-- The answers to requests one after the other, and what they leave behind. -/
def answerAll (r : Registry) : List Request → Transcript × Registry
  | [] => ([], r)
  | request :: requests =>
    let (answer, r) := r.answer request
    let (later, r) := answerAll r requests
    ((request, answer) :: later, r)

/-- A registry that has answered requests, from a supply in which the initial names were taken. The
names that the supply has made since then are, one by one, the local names and the fresh names
handed out, so no two of these are the same. -/
structure Records (initial : List String) (log : Transcript) (r : Registry) : Prop where
  distinct : r.imports.Distinct
  sources : r.imports.modules.map ModuleImports.source = log.sources.eraseDups
  symbols : ∀ source, (r.imports.listed source).map Prod.fst = (log.symbolsOf source).eraseDups
  answered : ∀ symbol source answer, (.symbol symbol source, answer) ∈ log →
    r.imports.localName? symbol source = some answer
  minted : ∃ minted, r.names.used = minted ++ initial ∧ minted.Nodup ∧
    (∀ name ∈ minted, name ∉ initial) ∧
    minted.Perm (r.imports.entries.map Prod.snd ++ log.freshNames)

namespace Records

variable {initial : List String} {log : Transcript} {r : Registry}

theorem start (initial : List String) : Records initial [] { names := { used := initial } } where
  distinct := ⟨List.nodup_nil, by simp⟩
  sources := rfl
  symbols _ := rfl
  answered := by simp
  minted := ⟨[], rfl, List.nodup_nil, by simp, .refl _⟩

theorem localName?_isSome_iff (h : Records initial log r) (symbol source : String) :
    (r.imports.localName? symbol source).isSome = true ↔ symbol ∈ log.symbolsOf source := by
  rw [← List.mem_eraseDups, ← h.symbols, Imports.localName?_eq_lookup]
  simp

theorem minted_generate (h : Records initial log r) {name : String} {later : List String}
    (hlater : later.Perm ((r.names.generate name).1 ::
      (r.imports.entries.map Prod.snd ++ log.freshNames))) :
    ∃ minted, (r.names.generate name).2.used = minted ++ initial ∧ minted.Nodup ∧
      (∀ other ∈ minted, other ∉ initial) ∧ minted.Perm later := by
  obtain ⟨minted, hused, hnodup, hfree, hperm⟩ := h.minted
  have hfresh := r.names.generate_not_mem name
  rw [hused, List.mem_append, not_or] at hfresh
  refine ⟨(r.names.generate name).1 :: minted, ?_, List.nodup_cons.mpr ⟨hfresh.1, hnodup⟩,
    List.forall_mem_cons.mpr ⟨hfresh.2, hfree⟩, (hperm.cons _).trans hlater.symm⟩
  rw [FreshNames.used_generate, hused, List.cons_append]

theorem fresh (h : Records initial log r) (name : String) :
    Records initial (log ++ [(.name name, (r.names.generate name).1)])
      { r with names := (r.names.generate name).2 } where
  distinct := h.distinct
  sources := by simpa [Transcript.sources, Request.source?] using h.sources
  symbols source := by simpa [Transcript.symbolsOf, Request.symbolOf?] using h.symbols source
  answered := by simpa using h.answered
  minted := by
    refine h.minted_generate ?_
    simp only [Transcript.freshNames, List.filterMap_append, List.filterMap_cons,
      List.filterMap_nil, ← List.append_assoc]
    exact List.perm_append_singleton _ _

theorem again (h : Records initial log r) {symbol source localName : String}
    (hlocal : r.imports.localName? symbol source = some localName) :
    Records initial (log ++ [(.symbol symbol source, localName)]) r := by
  have hsymbol : symbol ∈ log.symbolsOf source := by
    rw [← h.localName?_isSome_iff, hlocal]
    rfl
  refine ⟨h.distinct, ?_, fun other => ?_, fun s m answer he => ?_, ?_⟩
  · have hsource : source ∈ log.sources := Transcript.mem_sources_iff.mpr ⟨symbol, hsymbol⟩
    rw [Transcript.sources_symbol, eraseDups_concat, if_pos hsource]
    exact h.sources
  · rw [h.symbols other, Transcript.symbolsOf_symbol]
    split
    · rename_i hother
      subst hother
      rw [eraseDups_concat, if_pos hsymbol]
    · rw [List.append_nil]
  · rcases List.mem_append.mp he with hold | hnew
    · exact h.answered s m answer hold
    · cases List.mem_singleton.mp hnew
      exact hlocal
  · simpa [Transcript.freshNames] using h.minted

theorem first (h : Records initial log r) {symbol source : String}
    (hlocal : r.imports.localName? symbol source = none) :
    Records initial (log ++ [(.symbol symbol source, (r.names.generate symbol).1)])
      ⟨⟨Imports.add symbol (r.names.generate symbol).1 source r.imports.modules⟩,
        (r.names.generate symbol).2⟩ := by
  have hsymbol : symbol ∉ log.symbolsOf source := by
    rw [← h.localName?_isSome_iff, hlocal]
    exact Bool.false_ne_true
  refine ⟨h.distinct.add _ hlocal, ?_, fun other => ?_, fun s m answer he => ?_, ?_⟩
  · rw [Imports.sources_add, h.sources, Transcript.sources_symbol, eraseDups_concat]
    simp only [List.mem_eraseDups]
  · rw [Imports.listed_add, List.map_append, h.symbols other, Transcript.symbolsOf_symbol]
    split
    · rename_i hother
      subst hother
      rw [eraseDups_concat, if_neg hsymbol]
      rfl
    · rw [List.map_nil, List.append_nil, List.append_nil]
  · -- Earlier answers are found in front of the symbol that is added.
    rw [Imports.localName?_eq_lookup, Imports.listed_add, List.lookup_append,
      ← Imports.localName?_eq_lookup]
    rcases List.mem_append.mp he with hold | hnew
    · rw [h.answered s m answer hold]
      rfl
    · cases List.mem_singleton.mp hnew
      simp [hlocal]
  · refine h.minted_generate ?_
    have hperm :=
      (Imports.perm_entries_add symbol (r.names.generate symbol).1 source r.imports.modules).map
        Prod.snd
    simpa [Transcript.freshNames] using hperm.append_right log.freshNames

theorem answer (h : Records initial log r) (request : Request) :
    Records initial (log ++ [(request, (r.answer request).1)]) (r.answer request).2 := by
  cases request with
  | name name => exact h.fresh name
  | symbol symbol source =>
      simp only [Registry.answer, Imports.require]
      cases hlocal : r.imports.localName? symbol source with
      | some localName => exact h.again hlocal
      | none => exact h.first hlocal

theorem answerAll (h : Records initial log r) (requests : List Request) :
    Records initial (log ++ (r.answerAll requests).1) (r.answerAll requests).2 := by
  induction requests generalizing log r with
  | nil => simpa [Registry.answerAll] using h
  | cons request requests ih => simpa [Registry.answerAll] using ih (h.answer request)

end Records

theorem map_fst_answerAll (r : Registry) (requests : List Request) :
    (r.answerAll requests).1.map Prod.fst = requests := by
  induction requests generalizing r with
  | nil => rfl
  | cons request requests ih => simp [Registry.answerAll, ih]

/-- What has become of requests: the imports are a map in the order of the first requests, which
gives every pair of a module and a symbol one local name for good, and no name twice. -/
structure Orderly (initial : List String) (requests : List Request) (log : Transcript)
    (r : Registry) : Prop where
  requests_eq : log.map Prod.fst = requests
  distinct : r.imports.Distinct
  /-- Modules are listed in the order of their first requests. -/
  sources : r.imports.modules.map ModuleImports.source =
    (requests.filterMap Request.source?).eraseDups
  /-- Each of them lists at least one symbol, and its symbols in the order of
  their first requests. -/
  symbols : ∀ m ∈ r.imports.modules, m.symbols ≠ [] ∧
    m.symbols.map Prod.fst = (requests.filterMap (Request.symbolOf? m.source)).eraseDups
  /-- All requests of a symbol are answered alike, by the name that it is listed under. -/
  answered : ∀ symbol source answer, (.symbol symbol source, answer) ∈ log →
    r.imports.localName? symbol source = some answer
  /-- To ask again changes nothing. -/
  repeated : ∀ symbol source answer, (.symbol symbol source, answer) ∈ log →
    r.answer (.symbol symbol source) = (answer, r)
  /-- No two symbols of any modules have the same local name, and nothing else has it. -/
  nodup : (r.imports.entries.map Prod.snd).Nodup
  unused : ∀ e ∈ r.imports.entries, e.2 ∉ initial
  apart : ∀ e ∈ r.imports.entries, ∀ name, (.name name, e.2) ∉ log

theorem answerAll_orderly (initial : List String) (requests : List Request) :
    let run := answerAll { names := { used := initial } } requests
    Orderly initial requests run.1 run.2 := by
  intro run
  have h : Records initial run.1 run.2 := (Records.start initial).answerAll requests
  have hrequests : run.1.map Prod.fst = requests := map_fst_answerAll _ requests
  obtain ⟨minted, -, hnodup, hfree, hperm⟩ := h.minted
  rw [hperm.nodup_iff, List.nodup_append] at hnodup
  have hsources : run.1.sources = requests.filterMap Request.source? := by
    rw [← hrequests, List.filterMap_map]
    rfl
  have hsymbols : ∀ source, run.1.symbolsOf source =
      requests.filterMap (Request.symbolOf? source) := by
    intro source
    rw [← hrequests, List.filterMap_map]
    rfl
  refine ⟨hrequests, h.distinct, hsources ▸ h.sources, fun m hm => ?_, h.answered,
    fun s m answer he => ?_, hnodup.1, fun e he => ?_, fun e he name hname => ?_⟩
  · have hlisted : m.symbols.map Prod.fst = (run.1.symbolsOf m.source).eraseDups := by
      rw [← h.symbols, h.distinct.listed_eq hm]
    refine ⟨fun hnil => ?_, hsymbols _ ▸ hlisted⟩
    have hsource : m.source ∈ run.1.sources := by
      rw [← List.mem_eraseDups, ← h.sources]
      exact List.mem_map_of_mem hm
    obtain ⟨symbol, hsymbol⟩ := Transcript.mem_sources_iff.mp hsource
    rw [← List.mem_eraseDups, ← hlisted, hnil] at hsymbol
    cases hsymbol
  · simp only [Registry.answer, Imports.require, h.answered s m answer he]
  · exact hfree _ (hperm.mem_iff.mpr (List.mem_append_left _ (List.mem_map_of_mem he)))
  · exact hnodup.2.2 _ (List.mem_map_of_mem he) _ (Transcript.mem_freshNames_iff.mpr ⟨name, hname⟩)
      rfl

/-- The same symbol of two modules, a repeated request, and fresh names in between. -/
example :
    let run := answerAll { names := { used := ["_ref"] } }
      [.symbol "ref" "a", .name "ref", .symbol "ref" "b", .symbol "_ref" "a", .symbol "ref" "a",
        .name "view"]
    run.1.map Prod.snd = ["_ref2", "_ref3", "_ref4", "_ref5", "_ref2", "_view"] ∧
      run.2.imports.modules = [⟨"a", [("ref", "_ref2"), ("_ref", "_ref5")]⟩,
        ⟨"b", [("ref", "_ref4")]⟩] := by
  decide +kernel

end Registry

end TemplateCompiler
