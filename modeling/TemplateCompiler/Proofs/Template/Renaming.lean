import TemplateCompiler.Proofs.Template.Delegation
import TemplateCompiler.Proofs.Template.Lifetime

/-!
What a template becomes does not depend on what was lowered before. Two sessions that have entered
programs with the names of a literal lower it with the same outcome, and to closures that differ in
the minted names only. The minted names of the two runs are paired as they are handed out: a fresh
name with a fresh name, and the local name of a helper with the local name of the same helper,
whether it was imported before or is imported now.
-/

namespace TemplateCompiler

open Lower Node Session

def Form.rename (ρ : String → String) : Form → Form
  | .reference name => .reference (ρ name)
  | .binding name => .binding (ρ name)
  | form => form

theorem Form.rename_of_identifier? {form : Form} (h : form.identifier? = none)
    (ρ : String → String) :
    form.rename ρ = form := by
  cases form with
  | reference name => cases h
  | binding name => cases h
  | _ => rfl

namespace Node

mutual

def rename (ρ : String → String) : Node → Node
  | node form span children => node (form.rename ρ) span (renameList ρ children)

def renameList (ρ : String → String) : List Node → List Node
  | [] => []
  | n :: ns => rename ρ n :: renameList ρ ns

end

end Node

/-- Trees with the same labels at the same places, but for the names, which are related. -/
inductive Alike (N : String → String → Prop) : List Node → List Node → Prop
  | nil : Alike N [] []
  | plain {form : Form} {children children' rest rest' : List Node} (span : Span)
      (hform : form.identifier? = none) (hchildren : Alike N children children')
        (hrest : Alike N rest rest') :
      Alike N (.node form span children :: rest) (.node form span children' :: rest')
  | reference {name name' : String} {children children' rest rest' : List Node} (span : Span)
      (hname : N name name') (hchildren : Alike N children children') (hrest : Alike N rest rest') :
      Alike N (.node (.reference name) span children :: rest)
        (.node (.reference name') span children' :: rest')
  | binding {name name' : String} {children children' rest rest' : List Node} (span : Span)
      (hname : N name name') (hchildren : Alike N children children') (hrest : Alike N rest rest') :
      Alike N (.node (.binding name) span children :: rest)
        (.node (.binding name') span children' :: rest')

namespace Alike

variable {N : String → String → Prop} {n n' : Node} {ns ns' ms ms' : List Node}

theorem renameList_eq (h : Alike N ns ns') {ρ : String → String} (hρ : ∀ a b, N a b → ρ a = b) :
    renameList ρ ns = ns' := by
  induction h with
  | nil => rfl
  | plain span hform _ _ ihchildren ihrest =>
      rw [renameList, rename, Form.rename_of_identifier? hform, ihchildren, ihrest]
  | reference span hname _ _ ihchildren ihrest =>
      rw [renameList, rename, Form.rename, hρ _ _ hname, ihchildren, ihrest]
  | binding span hname _ _ ihchildren ihrest =>
      rw [renameList, rename, Form.rename, hρ _ _ hname, ihchildren, ihrest]

theorem exists_of_mem_usedNames (h : Alike N ns ns') {name : String}
    (hname : name ∈ usedNamesOfList ns) :
    ∃ name', N name name' := by
  induction h with
  | nil => cases hname
  | plain span hform _ _ ihchildren ihrest =>
      simp only [usedNamesOfList, usedNames, hform, Option.toList_none, List.nil_append,
        List.mem_append] at hname
      exact hname.elim ihchildren ihrest
  | reference span hpair _ _ ihchildren ihrest | binding span hpair _ _ ihchildren ihrest =>
      simp only [usedNamesOfList, usedNames, Form.identifier?, Option.toList_some, List.cons_append,
        List.nil_append, List.mem_cons, List.mem_append] at hname
      rcases hname with rfl | hinner | hlater
      · exact ⟨_, hpair⟩
      · exact ihchildren hinner
      · exact ihrest hlater

theorem append (h : Alike N ns ns') (h' : Alike N ms ms') : Alike N (ns ++ ms) (ns' ++ ms') := by
  induction h with
  | nil => exact h'
  | plain span hform hchildren _ _ ihrest => exact .plain span hform hchildren ihrest
  | reference span hname hchildren _ _ ihrest => exact .reference span hname hchildren ihrest
  | binding span hname hchildren _ _ ihrest => exact .binding span hname hchildren ihrest

theorem cons (h : Alike N [n] [n']) (h' : Alike N ns ns') : Alike N (n :: ns) (n' :: ns') :=
  h.append h'

mutual

theorem of_within {literal : Node} (hN : ∀ name ∈ literal.usedNames, N name name) :
    (n : Node) → Within literal n → Alike N [n] [n]
  | .node form span children => by
      intro h
      obtain ⟨hform, hchildren⟩ := within_node_iff.mp h
      have hparts := ofList_within hN children hchildren
      have hname : ∀ name, form.identifier? = some name → N name name := by
        intro name hname
        have hplace : (form, span) ∈ literal.identifiers :=
          hform (by simp [identifiers, identifiersOfList, hname])
        exact hN name (mem_usedNames_of_mem_identifiers hname literal hplace)
      cases form with
      | reference name => exact .reference span (hname name rfl) hparts .nil
      | binding name => exact .binding span (hname name rfl) hparts .nil
      | _ => exact .plain span rfl hparts .nil

theorem ofList_within {literal : Node} (hN : ∀ name ∈ literal.usedNames, N name name) :
    (ns : List Node) → (∀ n ∈ ns, Within literal n) → Alike N ns ns
  | [] => fun _ => .nil
  | n :: ns => by
      intro h
      obtain ⟨hn, hns⟩ := List.forall_mem_cons.mp h
      exact (of_within hN n hn).cons (ofList_within hN ns hns)

end

theorem made {form : Form} (hform : form.identifier? = none) (h : Alike N ns ns') :
    Alike N [Emit.made form ns] [Emit.made form ns'] :=
  .plain .synthetic hform h .nil

theorem name {a b : String} (h : N a b) : Alike N [Emit.name a] [Emit.name b] :=
  .reference .synthetic h .nil .nil

theorem bound {a b : String} (h : N a b) : Alike N [Emit.binding a] [Emit.binding b] :=
  .binding .synthetic h .nil .nil

theorem string (text : String) : Alike N [Emit.string text] [Emit.string text] := made rfl .nil

theorem absent : Alike N [Node.absent] [Node.absent] := made rfl .nil

theorem array (h : Alike N ns ns') : Alike N [Emit.array ns] [Emit.array ns'] := made rfl h

theorem object (h : Alike N ns ns') : Alike N [Emit.object ns] [Emit.object ns'] := made rfl h

theorem statement (h : Alike N [n] [n']) : Alike N [Emit.statement n] [Emit.statement n'] :=
  made rfl h

theorem spread (h : Alike N [n] [n']) : Alike N [Emit.spread n] [Emit.spread n'] := made rfl h

theorem property (key : String) (h : Alike N [n] [n']) :
    Alike N [Emit.property key n] [Emit.property key n'] :=
  made rfl ((string key).cons h)

theorem call (hcallee : Alike N [n] [n']) (h : Alike N ns ns') :
    Alike N [Emit.call n ns] [Emit.call n' ns'] :=
  made rfl (hcallee.cons (absent.cons h))

theorem member (h : Alike N [n] [n']) (property : String) :
    Alike N [Emit.member n property] [Emit.member n' property] :=
  made rfl (h.cons (made rfl .nil))

theorem access (h : Alike N [n] [n']) (property : String) :
    Alike N [Emit.access n property] [Emit.access n' property] := by
  unfold Emit.access
  split
  · exact h.member property
  · exact made rfl (h.cons (string property))

theorem constant {a b : String} (hname : N a b) (h : Alike N [n] [n']) :
    Alike N [Emit.constant (Emit.binding a) n] [Emit.constant (Emit.binding b) n'] :=
  made rfl (made rfl ((bound hname).cons (absent.cons h)))

theorem arrow {a b : String} (hname : N a b) (h : Alike N [n] [n']) :
    Alike N [Emit.arrow a n] [Emit.arrow b n'] :=
  made rfl
    (absent.cons ((made rfl (made rfl ((bound hname).cons (absent.cons absent)))).cons
      (absent.cons h)))

theorem closure {root root' context context' : String} (hdocument : N "document" "document")
    (hroot : N root root') (hcontext : N context context') (h : Alike N ns ns') :
    Alike N [Emit.closure root context ns] [Emit.closure root' context' ns'] := by
  have hcreate :
      Alike N [Emit.call (Emit.member (Emit.name "document") "createDocumentFragment") []]
      [Emit.call (Emit.member (Emit.name "document") "createDocumentFragment") []] :=
    .call ((name hdocument).member _) .nil
  have hreturn : Alike N [Emit.made .returnStatement [Emit.name root]]
      [Emit.made .returnStatement [Emit.name root']] :=
    made rfl (name hroot)
  exact arrow hcontext (made rfl ((constant hroot hcreate).cons (h.append hreturn)))

theorem reactiveValue {literal value : Node} (hN : ∀ name ∈ literal.usedNames, N name name)
    (h : Within literal value) :
    Alike N [(TemplateCompiler.reactiveValue value).1,
      Emit.array (TemplateCompiler.reactiveValue value).2]
      [(TemplateCompiler.reactiveValue value).1,
        Emit.array (TemplateCompiler.reactiveValue value).2] := by
  have hvalue := of_within hN value h
  have hpaths := ofList_within hN (dependencies value) fun p hp place hplace =>
    h (within_of_mem_dependencies value p hp hplace)
  rw [reactiveValue_eq]
  refine cons ?_ (array hpaths)
  split
  · exact hvalue
  · exact made rfl (absent.cons ((made rfl .nil).cons (absent.cons hvalue)))

theorem creation {helper helper' target target' : String} {scope scope' : Scope}
    {subject : List Node} {lowered lowered' : LoweredAttributes} (hhelper : N helper helper')
    (htarget : N target target') (hanchor : N scope.anchor scope'.anchor)
    (hcontext : N scope.context scope'.context) (hsubject : Alike N subject subject)
    (hprops : Alike N lowered.props lowered'.props)
    (hdirectives : Alike N lowered.directives lowered'.directives) :
    Alike N (creation helper target scope subject lowered)
      (creation helper' target' scope' subject lowered') := by
  have harguments := (((name hanchor).cons (name hcontext)).append hsubject).append (object hprops)
  exact (constant htarget (call (name hhelper) harguments)).cons hdirectives

theorem flush {helper helper' : String} {scope scope' : Scope} (hhelper : N helper helper')
    (hanchor : N scope.anchor scope'.anchor) (text : String) :
    Alike N (flush helper scope text) (flush helper' scope' text) := by
  unfold TemplateCompiler.flush
  split
  · exact .nil
  · exact statement (call (name hhelper) ((name hanchor).cons (string text)))

end Alike

namespace Session

theorem Spelt.of_helperName? {s : Session} (hs : s.Spelt) {symbol name : String}
    (h : s.helperName? symbol = some name) :
    ¬ IsLocal name ∧ ∀ other, s.helperName? other = some name → symbol = other := by
  have hlisted := Imports.mem_entries_of_localName? h
  refine ⟨hs.not_isLocal hlisted, fun other hother => ?_⟩
  exact hs.symbol_eq hlisted (Imports.mem_entries_of_localName? hother) rfl

/-- What is true of a session at any time after it has entered a program. -/
structure Sound (program : Node) (s : Session) : Prop where
  scope : s.hasScope = true
  clean : s.Clean program.usedNames
  spelt : s.Spelt
  underscore : ∀ name ∈ s.used, name ∈ program.usedNames ∨ name.toList.head? = some '_'

theorem stable_scope : Stable fun s => s.hasScope = true where
  fresh base s hs := (decides_fresh base s hs).1
  require symbol _ s hs := (decides_require symbol s hs).1
  listen _ _ hs := hs
  note _ _ hs := hs

theorem stable_sound (program : Node) : Stable (Sound program) where
  fresh base s hs := ⟨stable_scope.fresh base s hs.scope, (stable_clean _).fresh base s hs.clean,
    stable_spelt.fresh base s hs.spelt, (stable_underscore _).fresh base s hs.underscore⟩
  require symbol hsymbol s hs := ⟨stable_scope.require symbol hsymbol s hs.scope,
    (stable_clean _).require symbol hsymbol s hs.clean,
    stable_spelt.require symbol hsymbol s hs.spelt,
    (stable_underscore _).require symbol hsymbol s hs.underscore⟩
  listen _ _ hs := ⟨hs.scope, ⟨hs.clean.mem_used, hs.clean.minted_alias⟩, hs.spelt, hs.underscore⟩
  note _ _ hs := ⟨hs.scope, ⟨hs.clean.mem_used, hs.clean.minted_alias⟩, hs.spelt, hs.underscore⟩

theorem Entered.sound {program : Node} {s : Session} (h : s.Entered program) : s.Sound program where
  scope := h.keeps stable_scope fun _ => rfl
  clean := h.clean
  spelt := h.spelt
  underscore := h.keeps (stable_underscore program.usedNames) fun _ _ hname => .inl hname

theorem Sound.not_known {program literal : Node} {s : Session} {name : String}
    (hs : s.Sound program) (hliteral : literal.usedNames ⊆ program.usedNames)
    (hname : s.Minted program.usedNames name) : ¬ Known literal name := by
  intro hknown
  exact not_known_of_minted hs.underscore hname (hknown.imp_left fun hused => hliteral hused)

end Session

/-- Two names that two sessions have minted for the same thing. -/
inductive Counterparts (s₁ s₂ : Session) : String × String → Prop
  | fresh {a b : String} (ha : IsLocal a) (hb : IsLocal b) : Counterparts s₁ s₂ (a, b)
  | helper {a b symbol : String} (ha : s₁.helperName? symbol = some a)
      (hb : s₂.helperName? symbol = some b) :
      Counterparts s₁ s₂ (a, b)

theorem Counterparts.mono {s₁ s₂ t₁ t₂ : Session} {p : String × String} (h : Counterparts s₁ s₂ p)
    (h₁ : ∀ symbol name, s₁.helperName? symbol = some name → t₁.helperName? symbol = some name)
    (h₂ : ∀ symbol name, s₂.helperName? symbol = some name → t₂.helperName? symbol = some name) :
    Counterparts t₁ t₂ p := by
  cases h with
  | fresh ha hb => exact .fresh ha hb
  | helper ha hb => exact .helper (h₁ _ _ ha) (h₂ _ _ hb)

/-- Two runs to be compared: a literal is lowered in two sessions, each of which
has entered a program. -/
structure Comparison where
  literal : Node
  program₁ : Node
  program₂ : Node
  start₁ : Session
  start₂ : Session

namespace Comparison

/-- The sessions are in step: what they have minted since the start is paired, and they have
noted the same events. -/
structure InStep (c : Comparison) (pairs : List (String × String)) (s₁ s₂ : Session) : Prop where
  sound₁ : s₁.Sound c.program₁
  sound₂ : s₂.Sound c.program₂
  minted₁ : ∀ p ∈ pairs, s₁.Minted c.program₁.usedNames p.1
  minted₂ : ∀ p ∈ pairs, s₂.Minted c.program₂.usedNames p.2
  counterparts : ∀ p ∈ pairs, Counterparts s₁ s₂ p
  matched : ∀ p ∈ pairs, ∀ q ∈ pairs, p.1 = q.1 ↔ p.2 = q.2
  events : ∃ noted, s₁.events = c.start₁.events ++ noted ∧ s₂.events = c.start₂.events ++ noted

/-- A relation of names that relates to itself what the literal and the compiler itself say. -/
def Fixes (c : Comparison) (N : String → String → Prop) : Prop :=
  ∀ name, Known c.literal name → N name name

/-- A relation of names that also has all the pairs in it. -/
structure Covers (c : Comparison) (pairs : List (String × String)) (N : String → String → Prop) :
    Prop where
  pair : ∀ p ∈ pairs, N p.1 p.2
  known : c.Fixes N

theorem Fixes.written {c : Comparison} {N : String → String → Prop} (h : c.Fixes N) {n : Node}
    (hn : Within c.literal n) : Alike N [n] [n] :=
  .of_within (fun name hname => h name (.inl hname)) n hn

theorem Covers.mono {c : Comparison} {pairs pairs' : List (String × String)}
    {N : String → String → Prop} (h : c.Covers pairs' N) (hsub : pairs ⊆ pairs') :
    c.Covers pairs N :=
  ⟨fun p hp => h.pair p (hsub hp), h.known⟩

/-- Both results are there and related, or both runs fail for the same cause. -/
def Outcome {α : Type} (R : α → α → Prop) : Except Cause α → Except Cause α → Prop
  | .ok a, .ok b => R a b
  | .error cause, .error cause' => cause = cause'
  | _, _ => False

theorem Outcome.imp {α : Type} {R S : α → α → Prop} {x y : Except Cause α} (h : Outcome R x y)
    (himp : ∀ a b, R a b → S a b) : Outcome S x y := by
  cases x with
  | error cause =>
      cases y with
      | error cause' => exact h
      | ok b => cases h
  | ok a =>
      cases y with
      | error cause' => cases h
      | ok b => exact himp a b h

/-- Steps that keep sessions in step and have the same outcome. Their results are related by
every relation of names that covers what has been minted by then; so a result stays related while
more names are minted. -/
def Twin {α : Type} (c : Comparison) (R : (String → String → Prop) → α → α → Prop) (x y : Lower α) :
    Prop :=
  ∀ pairs s₁ s₂, c.InStep pairs s₁ s₂ →
    ∃ pairs', pairs ⊆ pairs' ∧ c.InStep pairs' (x.run s₁).2 (y.run s₂).2 ∧
      Outcome (fun a b => ∀ N, c.Covers pairs' N → R N a b) (x.run s₁).1 (y.run s₂).1

namespace Twin

variable {α β : Type} {c : Comparison} {R : (String → String → Prop) → α → α → Prop}
  {S : (String → String → Prop) → β → β → Prop}

/-- One step behind the other. The second one may rely on what is so of the first
results under every relation of names, and what it gives may rest on how they are
related under the one in question. -/
theorem bind {x y : Lower α} {f g : α → Lower β} (h : c.Twin R x y)
    (hf : ∀ a b, R (fun _ _ => True) a b →
      c.Twin (fun N a' b' => R N a b → S N a' b') (f a) (g b)) :
    c.Twin S (x >>= f) (y >>= g) := by
  intro pairs s₁ s₂ hs
  obtain ⟨pairs₁, hsub₁, hs₁, houtcome⟩ := h pairs s₁ s₂ hs
  rw [run_bind, run_bind]
  rcases hx : x.run s₁ with ⟨cause | a, t₁⟩
  · rcases hy : y.run s₂ with ⟨cause' | b, t₂⟩
    · rw [hx, hy] at hs₁ houtcome
      exact ⟨pairs₁, hsub₁, hs₁, houtcome⟩
    · rw [hx, hy] at houtcome
      cases houtcome
  · rcases hy : y.run s₂ with ⟨cause' | b, t₂⟩
    · rw [hx, hy] at houtcome
      cases houtcome
    · rw [hx, hy] at hs₁ houtcome
      have hloose := houtcome (fun _ _ => True) ⟨fun _ _ => trivial, fun _ _ => trivial⟩
      obtain ⟨pairs₂, hsub₂, hs₂, hlater⟩ := hf a b hloose pairs₁ t₁ t₂ hs₁
      refine ⟨pairs₂, List.Subset.trans hsub₁ hsub₂, hs₂, hlater.imp fun a' b' hrelated N hN => ?_⟩
      exact hrelated N hN (houtcome N (hN.mono hsub₂))

theorem pure {a b : α} (h : ∀ N, c.Fixes N → R N a b) :
    c.Twin R (Pure.pure a) (Pure.pure b) :=
  fun pairs _ _ hs => ⟨pairs, List.Subset.refl _, hs, fun N hN => h N hN.known⟩

theorem imp {x y : Lower α} {R' : (String → String → Prop) → α → α → Prop} (h : c.Twin R x y)
    (himp : ∀ N a b, c.Fixes N → R N a b → R' N a b) : c.Twin R' x y := by
  intro pairs s₁ s₂ hs
  obtain ⟨pairs', hsub, hs', houtcome⟩ := h pairs s₁ s₂ hs
  exact ⟨pairs', hsub, hs', houtcome.imp fun a b hrelated N hN =>
    himp N a b hN.known (hrelated N hN)⟩

theorem check (result : Except Cause α) :
    c.Twin (fun _ a b => result = .ok a ∧ a = b) (Lower.check result) (Lower.check result) := by
  cases result with
  | ok a => exact pure fun _ _ => ⟨rfl, rfl⟩
  | error cause => exact fun pairs _ _ hs => ⟨pairs, List.Subset.refl _, hs, rfl⟩

end Twin

variable {c : Comparison}

theorem InStep.extend {pairs : List (String × String)} {s₁ s₂ t₁ t₂ : Session} {a b : String}
    (hs : c.InStep pairs s₁ s₂) (hsound₁ : t₁.Sound c.program₁) (hsound₂ : t₂.Sound c.program₂)
    (hgrows₁ : s₁.Grows t₁) (hgrows₂ : s₂.Grows t₂)
    (hhelpers₁ : ∀ symbol name, s₁.helperName? symbol = some name →
      t₁.helperName? symbol = some name)
    (hhelpers₂ : ∀ symbol name, s₂.helperName? symbol = some name →
      t₂.helperName? symbol = some name)
    (hevents₁ : t₁.events = s₁.events) (hevents₂ : t₂.events = s₂.events)
    (hminted₁ : t₁.Minted c.program₁.usedNames a) (hminted₂ : t₂.Minted c.program₂.usedNames b)
    (hnew : Counterparts t₁ t₂ (a, b)) (hmatched : ∀ q ∈ pairs, a = q.1 ↔ b = q.2) :
    c.InStep ((a, b) :: pairs) t₁ t₂ where
  sound₁ := hsound₁
  sound₂ := hsound₂
  minted₁ := List.forall_mem_cons.mpr ⟨hminted₁, fun p hp => (hs.minted₁ p hp).mono hgrows₁⟩
  minted₂ := List.forall_mem_cons.mpr ⟨hminted₂, fun p hp => (hs.minted₂ p hp).mono hgrows₂⟩
  counterparts :=
    List.forall_mem_cons.mpr ⟨hnew, fun p hp => (hs.counterparts p hp).mono hhelpers₁ hhelpers₂⟩
  matched := by
    intro p hp q hq
    rcases List.mem_cons.mp hp with rfl | hp
    · rcases List.mem_cons.mp hq with rfl | hq
      · simp
      · exact hmatched q hq
    · rcases List.mem_cons.mp hq with rfl | hq
      · rw [eq_comm, eq_comm (a := p.2)]
        exact hmatched p hp
      · exact hs.matched p hp q hq
  events := by
    rw [hevents₁, hevents₂]
    exact hs.events

theorem exists_run_fresh {s : Session} (h : s.hasScope = true) (base : String) :
    ∃ name s', (fresh base).run s = (.ok name, s') := by
  rw [run_fresh]
  cases hnames : s.names with
  | none => simp [hasScope, hnames] at h
  | some names => exact ⟨_, _, rfl⟩

theorem twin_fresh {base : String} (hbase : base ∈ localBases) :
    c.Twin (fun N a b => N a b) (fresh base) (fresh base) := by
  intro pairs s₁ s₂ hs
  have hsound₁ := (stable_sound c.program₁).fresh base s₁ hs.sound₁
  have hsound₂ := (stable_sound c.program₂).fresh base s₂ hs.sound₂
  obtain ⟨a, t₁, ha⟩ := exists_run_fresh hs.sound₁.scope base
  obtain ⟨b, t₂, hb⟩ := exists_run_fresh hs.sound₂.scope base
  rw [ha] at hsound₁ ⊢
  rw [hb] at hsound₂ ⊢
  obtain ⟨hgrows₁, hfree₁, -⟩ := of_run_fresh ha
  obtain ⟨hgrows₂, hfree₂, -⟩ := of_run_fresh hb
  refine ⟨(a, b) :: pairs, List.subset_cons_self .., ?_,
    fun N hN => hN.pair _ (List.mem_cons_self ..)⟩
  refine hs.extend hsound₁ hsound₂ hgrows₁ hgrows₂ ?_ ?_ (events_of_run_fresh ha)
    (events_of_run_fresh hb)
    (mints_fresh hs.sound₁.clean ha).2 (mints_fresh hs.sound₂.clean hb).2
    (.fresh (isLocal_of_run_fresh hbase ha) (isLocal_of_run_fresh hbase hb)) ?_
  · rw [helperName?_of_run_fresh ha]
    exact fun _ _ hname => hname
  · rw [helperName?_of_run_fresh hb]
    exact fun _ _ hname => hname
  · intro q hq
    have hne₁ : a ≠ q.1 := fun h => hfree₁ (h ▸ (hs.minted₁ q hq).1)
    have hne₂ : b ≠ q.2 := fun h => hfree₂ (h ▸ (hs.minted₂ q hq).1)
    simp [hne₁, hne₂]

/-- The local names of a helper are paired, however long it has had them in either session. -/
theorem twin_require {symbol : String} (hsymbol : symbol ∈ helperSymbols) :
    c.Twin (fun N a b => N a b) (require symbol) (require symbol) := by
  intro pairs s₁ s₂ hs
  have hsound₁ := (stable_sound c.program₁).require symbol hsymbol s₁ hs.sound₁
  have hsound₂ := (stable_sound c.program₂).require symbol hsymbol s₂ hs.sound₂
  obtain ⟨a, t₁, ha⟩ := exists_run_require hs.sound₁.scope symbol
  obtain ⟨b, t₂, hb⟩ := exists_run_require hs.sound₂.scope symbol
  rw [ha] at hsound₁ ⊢
  rw [hb] at hsound₂ ⊢
  obtain ⟨hname₁, hhelpers₁⟩ := helperName?_of_run_require ha
  obtain ⟨hname₂, hhelpers₂⟩ := helperName?_of_run_require hb
  refine ⟨(a, b) :: pairs, List.subset_cons_self .., ?_,
    fun N hN => hN.pair _ (List.mem_cons_self ..)⟩
  refine hs.extend hsound₁ hsound₂ (of_run_require ha).1 (of_run_require hb).1 hhelpers₁ hhelpers₂
    (events_of_run_require ha) (events_of_run_require hb) (mints_require hs.sound₁.clean ha).2
    (mints_require hs.sound₂.clean hb).2 (.helper hname₁ hname₂) fun q hq => ?_
  obtain ⟨hlocal₁, honly₁⟩ := hsound₁.spelt.of_helperName? hname₁
  obtain ⟨hlocal₂, honly₂⟩ := hsound₂.spelt.of_helperName? hname₂
  cases hs.counterparts q hq with
  | fresh hqa hqb =>
      have hne₁ : a ≠ _ := fun h => hlocal₁ (h ▸ hqa)
      have hne₂ : b ≠ _ := fun h => hlocal₂ (h ▸ hqb)
      simp [hne₁, hne₂]
  | helper hqa hqb =>
      constructor
      · rintro rfl
        cases honly₁ _ (hhelpers₁ _ _ hqa)
        exact Option.some.inj (hname₂.symm.trans (hhelpers₂ _ _ hqb))
      · rintro rfl
        cases honly₂ _ (hhelpers₂ _ _ hqb)
        exact Option.some.inj (hname₁.symm.trans (hhelpers₁ _ _ hqa))

theorem twin_listen (event : String) :
    c.Twin (fun _ _ _ => True) (listen event) (listen event) := by
  intro pairs s₁ s₂ hs
  refine ⟨pairs, List.Subset.refl _, ?_, fun _ _ => trivial⟩
  obtain ⟨noted, hnoted₁, hnoted₂⟩ := hs.events
  refine ⟨(stable_sound _).listen event s₁ hs.sound₁, (stable_sound _).listen event s₂ hs.sound₂,
    hs.minted₁, hs.minted₂, ?_, hs.matched, noted ++ [event], ?_, ?_⟩
  · exact fun p hp => (hs.counterparts p hp).mono (fun _ _ hname => hname) fun _ _ hname => hname
  · simp [run_listen, hnoted₁]
  · simp [run_listen, hnoted₂]

theorem twin_note (line line' : String) : c.Twin (fun _ _ _ => True) (note line) (note line') := by
  intro pairs s₁ s₂ hs
  refine ⟨pairs, List.Subset.refl _, ?_, fun _ _ => trivial⟩
  refine ⟨(stable_sound _).note line s₁ hs.sound₁, (stable_sound _).note line' s₂ hs.sound₂,
    hs.minted₁, hs.minted₂, ?_, hs.matched, hs.events⟩
  exact fun p hp => (hs.counterparts p hp).mono (fun _ _ hname => hname) fun _ _ hname => hname

theorem twin_newScope :
    c.Twin (fun N scope scope' => N scope.anchor scope'.anchor ∧ N scope.context scope'.context)
      newScope newScope := by
  refine (twin_fresh (by decide)).bind fun anchor anchor' _ => ?_
  refine (twin_fresh (by decide)).bind fun context context' _ => ?_
  exact .pure fun N _ hcontext hanchor => ⟨hanchor, hcontext⟩

section

variable {scope scope' : Scope} {target target' : String}

theorem twin_reactiveCallback {apply apply' value : Node} (hvalue : Within c.literal value) :
    c.Twin (fun N a b => N scope.context scope'.context → Alike N [apply] [apply'] →
      Alike N [a] [b])
      (reactiveCallback scope apply value) (reactiveCallback scope' apply' value) := by
  refine (twin_require (by decide)).bind fun helper helper' _ =>
    .pure fun N hknown hhelper hcontext happly => ?_
  have hvalue := Alike.reactiveValue (fun name hname => hknown name (.inl hname)) hvalue
  exact .call (.name hhelper) ((Alike.name hcontext).cons (happly.cons hvalue))

theorem twin_lowerDirective {value : Node} (hvalue : Within c.literal value)
    (directive : Directive) :
    c.Twin (fun N a b => N scope.context scope'.context → N target target' → Alike N [a] [b])
      (lowerDirective scope target value directive)
        (lowerDirective scope' target' value directive) := by
  cases directive with
  | bind property =>
      refine (twin_reactiveCallback hvalue).imp fun N a b hN hcall hcontext htarget =>
        hcall hcontext ?_
      have hparameter : N "value" "value" := hN _ (.inr (.inr rfl))
      exact .arrow hparameter
        (.made rfl (((Alike.name htarget).access property).cons (.name hparameter)))
  | attr key =>
      refine (twin_reactiveCallback hvalue).imp fun N a b hN hcall hcontext htarget =>
        hcall hcontext ?_
      have hparameter : N "value" "value" := hN _ (.inr (.inr rfl))
      exact .arrow hparameter (.call ((Alike.name htarget).member _)
        ((Alike.string key).cons (.name hparameter)))
  | ref | view =>
      refine (twin_require (by decide)).bind fun helper helper' _ =>
        .pure fun N hN hhelper hcontext htarget => ?_
      exact .call (.name hhelper)
        ((Alike.name hcontext).cons ((Alike.name htarget).cons (hN.written hvalue)))
  | model =>
      refine (twin_require (by decide)).bind fun detect detect' _ => ?_
      refine (twin_require (by decide)).bind fun setState setState' _ => ?_
      refine (twin_fresh (by decide)).bind fun parameter parameter' _ => ?_
      refine .pure fun N hN hparameter hsetState hdetect _ htarget => ?_
      have hwrite := Alike.call (.name hsetState) ((hN.written hvalue).cons (.name hparameter))
      exact .call (.name hdetect) ((Alike.arrow hparameter hwrite).cons (.name htarget))
  | on event =>
      refine (twin_require (by decide)).bind fun helper helper' _ => ?_
      refine (twin_listen event).bind fun _ _ _ => .pure fun N hN _ hhelper hcontext htarget => ?_
      exact .call (.name hhelper) ((Alike.name hcontext).cons ((Alike.name htarget).cons
        ((Alike.string event).cons (hN.written hvalue))))
  | custom name modifier =>
      refine (twin_require (by decide)).bind fun registry registry' _ => ?_
      refine .pure fun N hN hregistry hcontext htarget => ?_
      exact .call ((Alike.name hregistry).access name)
        ((Alike.name hcontext).cons ((Alike.name htarget).cons
        ((Alike.string modifier).cons (hN.written hvalue))))

/-- What attributes become in two runs: with the same options, and alike if the names
that they are given are. -/
def AttributesAlike (scope scope' : Scope) (target target' : String) (N : String → String → Prop)
    (lowered lowered' : LoweredAttributes) : Prop :=
  lowered.options = lowered'.options ∧ (N scope.context scope'.context → N target target' →
    Alike N lowered.props lowered'.props ∧ Alike N lowered.directives lowered'.directives)

theorem twin_lowerAttribute {a : Attribute} (ha : ∀ n ∈ a.embedded, Within c.literal n) :
    c.Twin (AttributesAlike scope scope' target target') (lowerAttribute scope target a)
      (lowerAttribute scope' target' a) := by
  cases a with
  | spread value =>
      refine .pure fun N hN => ⟨rfl, fun _ _ => ⟨?_, .nil⟩⟩
      exact .spread (hN.written (ha value (by simp [Attribute.embedded])))
  | named name value start =>
      have hvalue : ∀ fallback, Within c.literal fallback →
          Within c.literal (value.toNode fallback) :=
        fun _ hfallback => within_toNode ha hfallback
      simp only [lowerAttribute]
      split
      · refine (Twin.check _).bind fun options options' hoptions => ?_
        exact .pure fun N _ _ => ⟨hoptions.2, fun _ _ => ⟨.nil, .nil⟩⟩
      · rename_i directive _
        refine (twin_lowerDirective (hvalue _ (within_leaf rfl _ .synthetic)) directive).bind
          fun call call' _ => ?_
        exact .pure fun N _ hcall =>
          ⟨rfl, fun hcontext htarget => ⟨.nil, .statement (hcall hcontext htarget)⟩⟩
      · refine .pure fun N hN => ⟨rfl, fun _ _ => ⟨?_, .nil⟩⟩
        exact .property name (hN.written (hvalue _ (within_leaf rfl _ .synthetic)))

theorem twin_lowerAttributes {as : List Attribute} (has : AttributesWithin c.literal as) :
    c.Twin (AttributesAlike scope scope' target target') (lowerAttributes scope target as)
      (lowerAttributes scope' target' as) := by
  induction as with
  | nil => exact .pure fun N _ => ⟨rfl, fun _ _ => ⟨.nil, .nil⟩⟩
  | cons a as ih =>
      obtain ⟨ha, has⟩ := List.forall_mem_cons.mp has
      refine (twin_lowerAttribute ha).bind fun first first' _ => ?_
      refine (ih has).bind fun rest rest' _ => ?_
      refine .pure fun N _ hrest hfirst => ⟨?_, fun hcontext htarget => ?_⟩
      · simp only [LoweredAttributes.append, hfirst.1, hrest.1]
      · obtain ⟨hprops, hdirectives⟩ := hfirst.2 hcontext htarget
        obtain ⟨hprops', hdirectives'⟩ := hrest.2 hcontext htarget
        exact ⟨hprops.append hprops', hdirectives.append hdirectives'⟩

end

/-- Statements that are alike if the names of the anchors and of the contexts are. -/
def StatementsAlike (scope scope' : Scope) (N : String → String → Prop) (items items' : List Node) :
    Prop :=
  N scope.anchor scope'.anchor → N scope.context scope'.context → Alike N items items'

theorem twin_lowerPart {scope scope' : Scope} {value : Node} (hvalue : Within c.literal value) :
    c.Twin (StatementsAlike scope scope') (lowerPart scope value) (lowerPart scope' value) := by
  refine (twin_require (by decide)).bind fun helper helper' _ =>
    .pure fun N hN hhelper hanchor hcontext => ?_
  have hvalue := Alike.reactiveValue (fun name hname => hN name (.inl hname)) hvalue
  exact .statement
    (.call (.name hhelper) ((Alike.name hcontext).cons ((Alike.name hanchor).cons hvalue)))

mutual

theorem twin_lowerTree (scope scope' : Scope) (options : TextOptions) :
    (t : Template) → t.Within c.literal →
      c.Twin (StatementsAlike scope scope') (lowerTree scope options t) (lowerTree scope' options t)
  | .element tag attributes children => by
      rintro ⟨htagWithin, hattributes, hchildren⟩
      unfold lowerTree
      split
      · refine (twin_require (by decide)).bind fun helper helper' _ => ?_
        refine (twin_fresh (by decide)).bind fun target target' _ => ?_
        refine (twin_lowerAttributes hattributes).bind fun lowered lowered' hlowered => ?_
        rw [hlowered.1]
        split
        · refine .pure fun N _ hlowered htarget hhelper hanchor hcontext => ?_
          obtain ⟨hprops, hdirectives⟩ := hlowered.2 hcontext htarget
          exact .creation hhelper htarget hanchor hcontext (.string _) hprops hdirectives
        · refine (twin_require (by decide)).bind fun text text' _ => ?_
          refine (twin_lowerRun { scope with anchor := target } { scope' with anchor := target' } _
            text text' "" children hchildren).bind fun inner inner' _ => ?_
          refine .pure fun N _ hinner htext hlowered htarget hhelper hanchor hcontext => ?_
          obtain ⟨hprops, hdirectives⟩ := hlowered.2 hcontext htarget
          exact (Alike.creation hhelper htarget hanchor hcontext (.string _) hprops
            hdirectives).append (hinner htext htarget hcontext)
      · rename_i htag
        simp only [Bool.not_eq_true', Bool.not_eq_false] at htag
        split
        · rename_i control _
          cases control with
          | conditional | loop =>
              refine (twin_require (by decide)).bind fun helper helper' _ => ?_
              refine (twin_fresh (by decide)).bind fun target target' _ => ?_
              refine (twin_lowerAttributes hattributes).bind fun lowered lowered' _ => ?_
              refine .pure fun N _ hlowered htarget hhelper hanchor hcontext => ?_
              obtain ⟨hprops, hdirectives⟩ := hlowered.2 hcontext htarget
              exact .creation hhelper htarget hanchor hcontext .nil hprops hdirectives
          | fragment =>
              refine (Twin.check _).bind fun own own' hown => ?_
              obtain ⟨-, rfl⟩ := hown
              refine (twin_require (by decide)).bind fun text text' _ => ?_
              exact (twin_lowerRun scope scope' _ text text' "" children hchildren).imp
                fun N _ _ _ hitems htext _ => hitems htext
        · refine (Twin.check _).bind fun component component' hcomponent => ?_
          obtain ⟨hcomponent, rfl⟩ := hcomponent
          have hwritten : Within c.literal component := htagWithin htag component hcomponent
          refine (twin_require (by decide)).bind fun helper helper' _ => ?_
          refine (twin_fresh (by decide)).bind fun target target' _ => ?_
          refine (twin_lowerAttributes hattributes).bind fun lowered lowered' hlowered => ?_
          rw [hlowered.1]
          split
          · refine .pure fun N hN hlowered htarget hhelper _ hanchor hcontext => ?_
            obtain ⟨hprops, hdirectives⟩ := hlowered.2 hcontext htarget
            exact .creation hhelper htarget hanchor hcontext (hN.written hwritten) hprops
              hdirectives
          · refine twin_newScope.bind fun slot slot' _ => ?_
            refine (twin_require (by decide)).bind fun text text' _ => ?_
            refine (twin_lowerRun slot slot' _ text text' "" children hchildren).bind
              fun inner inner' _ => ?_
            refine .pure
              fun N hN hinner htext hslot hlowered htarget hhelper _ hanchor hcontext => ?_
            obtain ⟨hprops, hdirectives⟩ := hlowered.2 hcontext htarget
            have hclosure :=
              Alike.closure (hN _ (.inr (.inl rfl))) hslot.1 hslot.2 (hinner htext hslot.1 hslot.2)
            exact (Alike.creation hhelper htarget hanchor hcontext (hN.written hwritten) hprops
              hdirectives).append (.statement (.call ((Alike.name htarget).member _) hclosure))
  | .fragment children => by
      intro hchildren
      unfold lowerTree
      refine (twin_require (by decide)).bind fun text text' _ => ?_
      exact (twin_lowerRun scope scope' options text text' "" children hchildren).imp
        fun N _ _ _ hitems htext => hitems htext
  | .part value => by
      intro hvalue
      unfold lowerTree
      exact twin_lowerPart hvalue
  | .text _ | .nothing => by
      intro _
      unfold lowerTree
      exact .pure fun N _ _ _ => .nil

theorem twin_lowerRun (scope scope' : Scope) (options : TextOptions)
    (helper helper' pending : String) : (ts : List Template) → Template.WithinList c.literal ts →
      c.Twin (fun N items items' => N helper helper' → StatementsAlike scope scope' N items items')
        (lowerRun scope options helper pending ts) (lowerRun scope' options helper' pending ts)
  | [] => by
      intro _
      unfold lowerRun
      exact .pure fun N _ hhelper hanchor _ => .flush hhelper hanchor pending
  | t :: ts => by
      rintro ⟨ht, hts⟩
      unfold lowerRun
      split
      · rename_i heq
        cases heq
      · rename_i raw rest heq
        cases heq
        exact twin_lowerRun scope scope' options helper helper' _ ts hts
      · rename_i t' rest _ heq
        cases heq
        refine (twin_lowerTree scope scope' options t ht).bind fun first first' _ => ?_
        refine (twin_lowerRun scope scope' options helper helper' "" ts hts).bind
          fun later later' _ => ?_
        refine .pure fun N _ hlater hfirst hhelper hanchor hcontext => ?_
        exact ((Alike.flush hhelper hanchor pending).append (hfirst hanchor hcontext)).append
          (hlater hhelper hanchor hcontext)

end

theorem twin_lowerTemplate {t : Template} (ht : t.Within c.literal) :
    c.Twin (fun N closure closure' => Alike N [closure] [closure']) (lowerTemplate t)
      (lowerTemplate t) := by
  have hclosure : ∀ scope scope', c.Twin
      (fun N closure closure' => N scope.anchor scope'.anchor ∧ N scope.context scope'.context →
        Alike N [closure] [closure'])
      (lowerTree scope .root t >>= fun items =>
        pure (Emit.closure scope.anchor scope.context items))
      (lowerTree scope' .root t >>= fun items =>
        pure (Emit.closure scope'.anchor scope'.context items)) := by
    intro scope scope'
    refine (twin_lowerTree scope scope' .root t ht).bind fun items items' _ => ?_
    exact .pure fun N hN hitems hscope =>
      .closure (hN _ (.inr (.inl rfl))) hscope.1 hscope.2 (hitems hscope.1 hscope.2)
  refine twin_newScope.bind fun scope scope' _ => ?_
  cases t with
  | element tag attributes children =>
      exact (twin_note _ _).bind fun _ _ _ => (hclosure scope scope').imp fun N _ _ _ h _ => h
  | fragment children => exact hclosure scope scope'
  | text raw => exact hclosure scope scope'
  | part value => exact hclosure scope scope'
  | nothing => exact hclosure scope scope'

/-- The first name of each pair becomes the second one, and other names stay as they are. -/
def counterpart (pairs : List (String × String)) (name : String) : String :=
  ((pairs.find? fun p => p.1 == name).map Prod.snd).getD name

theorem counterpart_cases (pairs : List (String × String)) (name : String) :
    (name, counterpart pairs name) ∈ pairs ∨ (∀ p ∈ pairs, p.1 ≠ name) ∧
      counterpart pairs name = name := by
  unfold counterpart
  cases hfind : pairs.find? fun p => p.1 == name with
  | none =>
      refine .inr ⟨fun p hp => ?_, rfl⟩
      simpa using List.find?_eq_none.mp hfind p hp
  | some p =>
      obtain rfl : p.1 = name := by simpa using List.find?_some hfind
      exact .inl (List.mem_of_find?_eq_some hfind)

/-- The pairs, and what the literal and the compiler itself say. -/
def Renames (c : Comparison) (pairs : List (String × String)) (a b : String) : Prop :=
  (a, b) ∈ pairs ∨ a = b ∧ Known c.literal a

theorem covers_renames (c : Comparison) (pairs : List (String × String)) :
    c.Covers pairs (c.Renames pairs) :=
  ⟨fun _ hp => .inl hp, fun _ hname => .inr ⟨rfl, hname⟩⟩

section

variable {pairs : List (String × String)} {s₁ s₂ : Session}

theorem InStep.counterpart_eq (hs : c.InStep pairs s₁ s₂)
    (hnames : c.literal.usedNames ⊆ c.program₁.usedNames) {a b : String} (h : c.Renames pairs a b) :
    counterpart pairs a = b := by
  rcases counterpart_cases pairs a with hpair | ⟨hother, hsame⟩
  · rcases h with h | ⟨rfl, hknown⟩
    · exact (hs.matched _ hpair _ h).mp rfl
    · exact absurd hknown (hs.sound₁.not_known hnames (hs.minted₁ _ hpair))
  · rcases h with h | ⟨rfl, -⟩
    · exact absurd rfl (hother _ h)
    · exact hsame

theorem InStep.minted_of_counterpart_ne (hs : c.InStep pairs s₁ s₂) {name : String}
    (h : counterpart pairs name ≠ name) :
    s₁.Minted c.program₁.usedNames name ∧
      s₂.Minted c.program₂.usedNames (counterpart pairs name) := by
  rcases counterpart_cases pairs name with hpair | ⟨-, hsame⟩
  · exact ⟨hs.minted₁ _ hpair, hs.minted₂ _ hpair⟩
  · exact absurd hsame h

theorem InStep.eq_of_renames (hs : c.InStep pairs s₁ s₂)
    (hnames : c.literal.usedNames ⊆ c.program₂.usedNames) {a a' b : String}
    (h : c.Renames pairs a b) (h' : c.Renames pairs a' b) : a = a' := by
  rcases h with h | ⟨rfl, hknown⟩
  · rcases h' with h' | ⟨rfl, hknown'⟩
    · exact (hs.matched _ h _ h').mpr rfl
    · exact absurd hknown' (hs.sound₂.not_known hnames (hs.minted₂ _ h))
  · rcases h' with h' | ⟨rfl, -⟩
    · exact absurd hknown (hs.sound₂.not_known hnames (hs.minted₂ _ h'))
    · rfl

end

end Comparison

/-- The first closure becomes the second one by renaming, one to one, some of what its session
has minted to what the other session has minted. No name of the program that the first session
has entered is touched. -/
structure RenamedBy (ρ : String → String) (program₁ program₂ : Node) (s₁ s₂ : Session)
    (closure₁ closure₂ : Node) :
    Prop where
  rename_eq : closure₁.rename ρ = closure₂
  injOn : ∀ a ∈ closure₁.usedNames, ∀ b ∈ closure₁.usedNames, ρ a = ρ b → a = b
  minted : ∀ name, ρ name ≠ name → s₁.Minted program₁.usedNames name ∧
    s₂.Minted program₂.usedNames (ρ name)
  fixed : ∀ name ∈ program₁.usedNames, ρ name = name

open Comparison in
/-- What a literal becomes does not depend on the programs that have been entered or on the
templates that have been lowered before, whether they failed or not: both sessions fail for
the same cause, or give closures that differ by the choice of minted names only, and both
note the same events. -/
theorem lowerTemplate_independent (literal : Node) {program₁ program₂ : Node} {s₁ s₂ : Session}
    (hentered₁ : s₁.Entered program₁) (hentered₂ : s₂.Entered program₂)
    (hnames₁ : literal.usedNames ⊆ program₁.usedNames)
    (hnames₂ : literal.usedNames ⊆ program₂.usedNames) :
    let run₁ := (lowerTemplate (.ofNode literal)).run s₁
    let run₂ := (lowerTemplate (.ofNode literal)).run s₂
    (∃ noted, run₁.2.events = s₁.events ++ noted ∧ run₂.2.events = s₂.events ++ noted) ∧
      ((∃ cause, run₁.1 = .error cause ∧ run₂.1 = .error cause) ∨
        ∃ closure₁ closure₂ ρ, run₁.1 = .ok closure₁ ∧ run₂.1 = .ok closure₂ ∧
          RenamedBy ρ program₁ program₂ run₁.2 run₂.2 closure₁ closure₂) := by
  intro run₁ run₂
  let c : Comparison := ⟨literal, program₁, program₂, s₁, s₂⟩
  have hstart : c.InStep [] s₁ s₂ :=
    ⟨hentered₁.sound, hentered₂.sound, by simp, by simp, by simp, by simp, [], by simp [c]⟩
  have hliteral : (Template.ofNode literal).Within c.literal :=
    Template.within_ofNode.1 literal (within_self literal)
  obtain ⟨pairs, -, hs, houtcome⟩ := twin_lowerTemplate hliteral [] s₁ s₂ hstart
  refine ⟨hs.events, ?_⟩
  rcases hrun₁ : run₁.1 with cause | closure₁
  · rcases hrun₂ : run₂.1 with cause' | closure₂
    · rw [hrun₁, hrun₂] at houtcome
      cases houtcome
      exact .inl ⟨cause, rfl, rfl⟩
    · rw [hrun₁, hrun₂] at houtcome
      cases houtcome
  · rcases hrun₂ : run₂.1 with cause' | closure₂
    · rw [hrun₁, hrun₂] at houtcome
      cases houtcome
    · rw [hrun₁, hrun₂] at houtcome
      have halike := houtcome _ (covers_renames c pairs)
      have hrenamed : ∀ a b, c.Renames pairs a b → counterpart pairs a = b :=
        fun _ _ => hs.counterpart_eq hnames₁
      refine .inr ⟨closure₁, closure₂, counterpart pairs, rfl, rfl, ?_, ?_, ?_, ?_⟩
      · exact (List.cons.inj (halike.renameList_eq hrenamed)).1
      · intro a ha b hb heq
        obtain ⟨a', ha'⟩ := halike.exists_of_mem_usedNames (by simpa [usedNamesOfList] using ha)
        obtain ⟨b', hb'⟩ := halike.exists_of_mem_usedNames (by simpa [usedNamesOfList] using hb)
        rw [hrenamed a a' ha', hrenamed b b' hb'] at heq
        exact hs.eq_of_renames hnames₂ ha' (heq ▸ hb')
      · exact fun name hmoved => hs.minted_of_counterpart_ne hmoved
      · intro name hname
        by_contra hmoved
        exact (hs.minted_of_counterpart_ne hmoved).1.2 hname

/-- A component with a listener and a text. -/
def listeningLiteral : Node :=
  .node .element ⟨0, 20⟩
    [.reference "Item" ⟨1, 2⟩, .absent, .node .group ⟨3, 15⟩ [sampleListener "click"],
     .node .group ⟨16, 17⟩ [.leaf (.text "a") ⟨16, 17⟩]]

/-- A program around the literal that uses a name as well. -/
def programAround (name : String) : Node :=
  .node (.program {}) ⟨0, 40⟩
    [.node .expressionStatement ⟨0, 20⟩ [listeningLiteral],
     .node .expressionStatement ⟨30, 40⟩ [.reference name ⟨30, 40⟩]]

/-- A session that starts with the literal, and one in which a template has failed before. -/
theorem lowerTemplate_independent_listeningLiteral :
    let s₁ := ({ environment := "rumious" } : Session).enter (programAround "f")
    let s₂ := ((lowerTemplate halfwayTemplate).run
      (({ environment := "rumious" } : Session).enter (programAround "_createEvent"))).2
    let run₁ := (lowerTemplate (.ofNode listeningLiteral)).run s₁
    let run₂ := (lowerTemplate (.ofNode listeningLiteral)).run s₂
    run₁.2.events = ["click"] ∧ run₂.2.events = ["click", "click"] ∧
      ∃ closure₁ closure₂ ρ, run₁.1 = .ok closure₁ ∧ run₂.1 = .ok closure₂ ∧
        RenamedBy ρ (programAround "f") (programAround "_createEvent") run₁.2 run₂.2 closure₁
          closure₂ ∧
        closure₁.usedNames = ["_ctx", "_root", "document", "_comp", "_createComponent", "_root",
          "_ctx", "Item", "_createEvent", "_ctx", "_comp", "f", "_comp", "_ctx2", "_root2",
          "document", "_appendText", "_root2", "_root2", "_root"] ∧
        closure₂.usedNames = ["_ctx2", "_root2", "document", "_comp2", "_createComponent", "_root2",
          "_ctx2", "Item", "_createEvent2", "_ctx2", "_comp2", "f", "_comp2", "_ctx3", "_root3",
          "document", "_appendText", "_root3", "_root3", "_root2"] := by
  intro s₁ s₂ run₁ run₂
  have hentered₁ : s₁.Entered (programAround "f") := .start "rumious"
  have hentered₂ : s₂.Entered (programAround "_createEvent") :=
    .lower halfwayTemplate (.start "rumious")
  have hnames₁ : run₁.1.toOption.map usedNames = some ["_ctx", "_root", "document", "_comp",
      "_createComponent", "_root", "_ctx", "Item", "_createEvent", "_ctx", "_comp", "f", "_comp",
      "_ctx2", "_root2", "document", "_appendText", "_root2", "_root2", "_root"] := by
    decide +kernel
  have hnames₂ : run₂.1.toOption.map usedNames = some ["_ctx2", "_root2", "document", "_comp2",
      "_createComponent", "_root2", "_ctx2", "Item", "_createEvent2", "_ctx2", "_comp2", "f",
      "_comp2", "_ctx3", "_root3", "document", "_appendText", "_root3", "_root3", "_root2"] := by
    decide +kernel
  refine ⟨by decide +kernel, by decide +kernel, ?_⟩
  obtain ⟨-, ⟨cause, hfails, -⟩ | ⟨closure₁, closure₂, ρ, hrun₁, hrun₂, hrenamed⟩⟩ :=
    lowerTemplate_independent listeningLiteral hentered₁ hentered₂ (by decide +kernel)
      (by decide +kernel)
  · rw [hfails] at hnames₁
    cases hnames₁
  · rw [hrun₁] at hnames₁
    rw [hrun₂] at hnames₂
    exact ⟨closure₁, closure₂, ρ, hrun₁, hrun₂, hrenamed, Option.some.inj hnames₁,
      Option.some.inj hnames₂⟩

end TemplateCompiler
