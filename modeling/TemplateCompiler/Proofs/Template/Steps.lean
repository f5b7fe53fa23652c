import TemplateCompiler.Proofs.Name.Supply
import TemplateCompiler.Template.Lowering

namespace TemplateCompiler

namespace Lower

variable {α β : Type}

theorem run_bind (x : Lower α) (f : α → Lower β) (s : Session) :
    (x >>= f).run s =
      match x.run s with
      | (.ok a, s₁) => (f a).run s₁
      | (.error cause, s₁) => (.error cause, s₁) := by
  rw [ExceptT.run_bind]
  change (StateT.bind (ExceptT.run x) _ s) = _
  unfold StateT.bind
  change (match x.run s with | (a, s₁) => _) = _
  rcases x.run s with ⟨_ | _, s₁⟩
  · rfl
  · rfl

theorem run_pure (a : α) (s : Session) : (pure a : Lower α).run s = (.ok a, s) := rfl

theorem run_get (s : Session) : (get : Lower Session).run s = (.ok s, s) := rfl

theorem run_listen (event : String) (s : Session) :
    (listen event).run s = (.ok (), { s with events := s.events ++ [event] }) := rfl

theorem run_note (line : String) (s : Session) :
    (note line).run s = (.ok (), { s with trace := s.trace ++ [line] }) := rfl

theorem run_check_ok (a : α) (s : Session) : (check (.ok a)).run s = (.ok a, s) := rfl

theorem run_check_error (cause : Cause) (s : Session) :
    (check (.error cause : Except Cause α)).run s = (.error cause, s) := rfl

theorem run_fresh (name : String) (s : Session) :
    (fresh name).run s =
      match s.names with
      | none => (.error .noScope, s)
      | some names =>
        (.ok (names.generate name).1, { s with names := some (names.generate name).2 }) := by
  unfold fresh
  rw [run_bind, run_get]
  cases h : s.names with
  | none =>
      simp only [h]
      rfl
  | some names =>
      simp only [h]
      rfl

theorem run_require (symbol : String) (s : Session) :
    (require symbol).run s =
      match s.names with
      | none => (.error .noScope, s)
      | some names =>
        let answer := s.imports.require names symbol s.environment
        (.ok answer.1, { s with imports := answer.2.1, names := some answer.2.2 }) := by
  unfold require
  rw [run_bind, run_get]
  cases h : s.names with
  | none =>
      simp only [h]
      rfl
  | some names =>
      simp only [h]
      rfl

theorem run_bind_ok {x : Lower α} {f : α → Lower β} {s s' : Session} {b : β}
    (h : (x >>= f).run s = (.ok b, s')) :
    ∃ a s₁, x.run s = (.ok a, s₁) ∧ (f a).run s₁ = (.ok b, s') := by
  rw [run_bind] at h
  rcases hx : x.run s with ⟨cause | a, s₁⟩
  · rw [hx] at h
    cases h
  · rw [hx] at h
    exact ⟨a, s₁, rfl, h⟩

theorem run_fresh_ok {s s' : Session} {base name : String}
    (h : (fresh base).run s = (.ok name, s')) :
    ∃ names, s.names = some names ∧ name = (names.generate base).1 ∧
      s' = { s with names := some (names.generate base).2 } := by
  rw [run_fresh] at h
  split at h
  · cases h
  · rename_i names hnames
    cases h
    exact ⟨names, hnames, rfl, rfl⟩

theorem run_require_ok {s s' : Session} {symbol name : String}
    (h : (require symbol).run s = (.ok name, s')) :
    ∃ names, s.names = some names ∧ name = (s.imports.require names symbol s.environment).1 ∧
      s' = { s with
        imports := (s.imports.require names symbol s.environment).2.1
        names := some (s.imports.require names symbol s.environment).2.2 } := by
  rw [run_require] at h
  split at h
  · cases h
  · rename_i names hnames
    cases h
    exact ⟨names, hnames, rfl, rfl⟩

theorem run_pure_ok {a b : α} {s s' : Session} (h : (pure a : Lower α).run s = (.ok b, s')) :
    a = b ∧ s = s' := by
  rw [run_pure] at h
  cases h
  exact ⟨rfl, rfl⟩

theorem run_check_of_ok {result : Except Cause α} {a : α} {s s' : Session}
    (h : (check result).run s = (.ok a, s')) : result = .ok a ∧ s = s' := by
  cases result with
  | ok b =>
      rw [run_check_ok] at h
      cases h
      exact ⟨rfl, rfl⟩
  | error cause =>
      rw [run_check_error] at h
      cases h

end Lower

/-- The symbols that templates import. -/
def helperSymbols : List String :=
  ["element", "appendText", "reactivePart", "createComponent", "createIfComponent",
   "createForComponent", "reactiveCallback", "ref", "view", "detectValueChange", "setStateValue",
   "createEvent", "directives", "eventDelegate"]

/-- A step that is put together from the single steps of lowering. -/
inductive Lower.Composed : {α : Type} → Lower α → Prop
  | pure {α : Type} (a : α) : Composed (Pure.pure a : Lower α)
  | check {α : Type} (result : Except Cause α) : Composed (check result)
  | fresh (name : String) : Composed (fresh name)
  | require {symbol : String} (hsymbol : symbol ∈ helperSymbols) : Composed (require symbol)
  | listen (event : String) : Composed (listen event)
  | note (line : String) : Composed (note line)
  | bind {α β : Type} {x : Lower α} {f : α → Lower β} (hx : Composed x) (hf : ∀ a, Composed (f a)) :
      Composed (x >>= f)

section Composition

open Lower

theorem composed_newScope : newScope.Composed :=
  (Composed.fresh "root").bind fun _ => (Composed.fresh "ctx").bind fun _ => .pure _

theorem composed_reactiveCallback (scope : Scope) (apply value : Node) :
    (reactiveCallback scope apply value).Composed :=
  (Composed.require (by decide)).bind fun _ => .pure _

theorem composed_lowerDirective (scope : Scope) (target : String) (value : Node)
    (directive : Directive) : (lowerDirective scope target value directive).Composed := by
  cases directive with
  | bind property => exact composed_reactiveCallback scope _ value
  | attr key => exact composed_reactiveCallback scope _ value
  | ref => exact (Composed.require (by decide)).bind fun _ => .pure _
  | view => exact (Composed.require (by decide)).bind fun _ => .pure _
  | model =>
      refine (Composed.require (by decide)).bind fun _ => ?_
      refine (Composed.require (by decide)).bind fun _ => ?_
      exact (Composed.fresh _).bind fun _ => .pure _
  | on event =>
      refine (Composed.require (by decide)).bind fun _ => ?_
      exact (Composed.listen event).bind fun _ => .pure _
  | custom name modifier => exact (Composed.require (by decide)).bind fun _ => .pure _

theorem composed_lowerAttribute (scope : Scope) (target : String) (a : Attribute) :
    (lowerAttribute scope target a).Composed := by
  cases a with
  | spread value => exact .pure _
  | named name value start =>
      simp only [lowerAttribute]
      split
      · exact (Composed.check _).bind fun _ => .pure _
      · rename_i directive _
        exact (composed_lowerDirective scope target _ directive).bind fun _ => .pure _
      · exact .pure _

theorem composed_lowerAttributes (scope : Scope) (target : String) (as : List Attribute) :
    (lowerAttributes scope target as).Composed := by
  induction as with
  | nil => exact .pure _
  | cons a as ih =>
      exact (composed_lowerAttribute scope target a).bind fun _ => ih.bind fun _ => .pure _

theorem composed_lowerPart (scope : Scope) (value : Node) : (lowerPart scope value).Composed :=
  (Composed.require (by decide)).bind fun _ => .pure _

mutual

theorem composed_lowerTree (scope : Scope) (options : TextOptions) :
    (t : Template) → (lowerTree scope options t).Composed
  | .element tag attributes children => by
      unfold lowerTree
      split
      · refine (Composed.require (by decide)).bind fun helper => ?_
        refine (Composed.fresh _).bind fun target => ?_
        refine (composed_lowerAttributes scope target attributes).bind fun lowered => ?_
        split
        · exact .pure _
        · refine (Composed.require (by decide)).bind fun text => ?_
          exact (composed_lowerRun _ _ text "" children).bind fun _ => .pure _
      · split
        · rename_i control _
          cases control with
          | conditional | loop =>
              refine (Composed.require (by decide)).bind fun helper => ?_
              refine (Composed.fresh _).bind fun target => ?_
              exact (composed_lowerAttributes scope target attributes).bind fun _ => .pure _
          | fragment =>
              refine (Composed.check _).bind fun own => ?_
              refine (Composed.require (by decide)).bind fun text => ?_
              exact composed_lowerRun _ _ text "" children
        · refine (Composed.check _).bind fun component => ?_
          refine (Composed.require (by decide)).bind fun helper => ?_
          refine (Composed.fresh _).bind fun target => ?_
          refine (composed_lowerAttributes scope target attributes).bind fun lowered => ?_
          split
          · exact .pure _
          · refine composed_newScope.bind fun slot => ?_
            refine (Composed.require (by decide)).bind fun text => ?_
            exact (composed_lowerRun slot _ text "" children).bind fun _ => .pure _
  | .fragment children => by
      unfold lowerTree
      refine (Composed.require (by decide)).bind fun text => ?_
      exact composed_lowerRun scope options text "" children
  | .part value => by
      unfold lowerTree
      exact composed_lowerPart scope value
  | .text _ => by
      unfold lowerTree
      exact .pure _
  | .nothing => by
      unfold lowerTree
      exact .pure _

theorem composed_lowerRun (scope : Scope) (options : TextOptions) (helper pending : String) :
    (ts : List Template) → (lowerRun scope options helper pending ts).Composed
  | [] => by
      unfold lowerRun
      exact .pure _
  | t :: ts => by
      unfold lowerRun
      split
      · exact .pure _
      · rename_i raw rest heq
        cases heq
        exact composed_lowerRun scope options helper _ ts
      · rename_i t' rest _ heq
        cases heq
        refine (composed_lowerTree scope options t).bind fun first => ?_
        exact (composed_lowerRun scope options helper "" ts).bind fun _ => .pure _

end

theorem composed_lowerTemplate (t : Template) : (lowerTemplate t).Composed := by
  unfold lowerTemplate
  refine composed_newScope.bind fun scope => ?_
  split
  · refine (Composed.note _).bind fun _ => ?_
    exact (composed_lowerTree scope .root _).bind fun _ => .pure _
  · exact (composed_lowerTree scope .root t).bind fun _ => .pure _

end Composition

/-- A property of sessions that a step keeps, also when it fails. -/
def Lower.Keeps {α : Type} (I : Session → Prop) (x : Lower α) : Prop :=
  ∀ s, I s → I (x.run s).2

/-- A property of sessions that the single steps of lowering keep. -/
structure Stable (I : Session → Prop) : Prop where
  fresh : ∀ name, (Lower.fresh name).Keeps I
  require : ∀ symbol ∈ helperSymbols, (Lower.require symbol).Keeps I
  listen : ∀ event, (Lower.listen event).Keeps I
  note : ∀ line, (Lower.note line).Keeps I

namespace Lower.Keeps

variable {α β : Type} {I : Session → Prop}

theorem bind {x : Lower α} {f : α → Lower β} (hx : x.Keeps I) (hf : ∀ a, (f a).Keeps I) :
    (x >>= f).Keeps I := by
  intro s hs
  have hnext := hx s hs
  rw [run_bind]
  rcases hrun : x.run s with ⟨cause | a, s₁⟩
  · simpa [hrun] using hnext
  · exact hf a s₁ (by simpa [hrun] using hnext)

theorem pure (a : α) : (Pure.pure a : Lower α).Keeps I := fun _ hs => hs

theorem check (result : Except Cause α) : (Lower.check result).Keeps I := by
  intro s hs
  cases result with
  | ok a => exact hs
  | error cause => exact hs

theorem fresh {name : String}
    (h : ∀ s names, s.names = some names → I s →
      I { s with names := some (names.generate name).2 }) :
    (Lower.fresh name).Keeps I := by
  intro s hs
  rw [run_fresh]
  split
  · exact hs
  · rename_i names hnames
    exact h s names hnames hs

theorem require {symbol : String}
    (h : ∀ s names, s.names = some names → I s → I { s with
      imports := (s.imports.require names symbol s.environment).2.1
      names := some (s.imports.require names symbol s.environment).2.2 }) :
    (Lower.require symbol).Keeps I := by
  intro s hs
  rw [run_require]
  split
  · exact hs
  · rename_i names hnames
    exact h s names hnames hs

end Lower.Keeps

namespace Stable

open Lower

variable {I : Session → Prop}

/-- What the single steps keep, every step keeps that is put together from them. -/
theorem keeps (hI : Stable I) {α : Type} {x : Lower α} (h : x.Composed) : x.Keeps I := by
  induction h with
  | pure a => exact Keeps.pure a
  | check result => exact Keeps.check result
  | fresh name => exact hI.fresh name
  | require hsymbol => exact hI.require _ hsymbol
  | listen event => exact hI.listen event
  | note line => exact hI.note line
  | bind _ _ ihx ihf => exact ihx.bind ihf

theorem lowerTemplate (hI : Stable I) (t : Template) : (lowerTemplate t).Keeps I :=
  hI.keeps (composed_lowerTemplate t)

theorem finishProgram (hI : Stable I) (body : List Node) : (finishProgram body).Keeps I := by
  unfold TemplateCompiler.finishProgram
  refine (hI.require _ (by decide)).bind fun helper => ?_
  intro s hs
  rw [run_bind, run_get]
  exact ((Keeps.check _).bind fun _ => Keeps.pure _) s hs

end Stable

end TemplateCompiler
