import TemplateCompiler.Proofs.Template.Derivation
import TemplateCompiler.Proofs.Template.Document

namespace TemplateCompiler

open Lower

/-- The symbol that a local name was imported for. -/
def Imports.symbol? (r : Imports) (name : String) : Option String :=
  (r.entries.find? fun e => e.2 == name).map Prod.fst

namespace Runtime

/-- Statements take one state to another, whatever comes behind them. -/
def Runs (helper? : String → Option String) (level : Nat) (env : Bindings) (doc : Document)
    (items : List Node) (env' : Bindings) (doc' : Document) : Prop :=
  ∀ rest, runBody helper? level env doc (items ++ rest) = runBody helper? level env' doc' rest

section

variable {helper? : String → Option String} {level : Nat} {env env₁ env' : Bindings}
  {doc doc₁ doc' : Document}

theorem Runs.nil : Runs helper? level env doc [] env doc := fun _ => rfl

theorem Runs.append {items items' : List Node} (h : Runs helper? level env doc items env₁ doc₁)
    (h' : Runs helper? level env₁ doc₁ items' env' doc') :
    Runs helper? level env doc (items ++ items') env' doc' := by
  intro rest
  rw [List.append_assoc, h, h']

theorem Runs.single {n : Node} (h : runStatement helper? level env doc n = .ok (env', doc')) :
    Runs helper? level env doc [n] env' doc' := by
  intro rest
  rw [List.singleton_append]
  conv_lhs => unfold runBody
  split
  · rename_i heq
    cases heq
  · rename_i span value rest' heq
    cases heq
    cases h
  · rename_i n' rest' _ heq
    cases heq
    rw [h]
    rfl

theorem Runs.cons {n : Node} {items : List Node}
    (h : runStatement helper? level env doc n = .ok (env₁, doc₁))
    (h' : Runs helper? level env₁ doc₁ items env' doc') :
    Runs helper? level env doc (n :: items) env' doc' :=
  (Runs.single h).append h'

theorem nodeOf_name {name : String} {place : Place} (h : env.lookup name = some (.node place)) :
    nodeOf env (Emit.name name) = .ok place := by
  simp [nodeOf, Emit.name, Node.reference, Node.leaf, h]

theorem checkContext_name {name : String} (h : env.lookup name = some (.context level)) :
    checkContext env level (Emit.name name) = .ok () := by
  simp [checkContext, Emit.name, Node.reference, Node.leaf, h]

end

/-- Names that the environment binds are names of nodes and contexts, and are taken. -/
def Owned (s : Session) (env : Bindings) : Prop :=
  ∀ b ∈ env, Session.IsLocal b.1 ∧ b.1 ∈ s.used

theorem lookup_eq_none_of_not_isLocal {s : Session} {env : Bindings} {name : String}
    (henv : Owned s env) (h : ¬ Session.IsLocal name) : env.lookup name = none := by
  rw [List.lookup_eq_none_iff]
  intro b hb
  rw [bne_iff_ne]
  rintro rfl
  exact h (henv b hb).1

theorem mem_used_of_lookup {s : Session} {env : Bindings} {name : String} {value : Value}
    (henv : Owned s env) (h : env.lookup name = some value) : name ∈ s.used :=
  (henv _ (Imports.mem_of_lookup h)).2

/-- Helpers are known by the local names of a session, and by no name that could be bound. -/
def Knows (helper? : String → Option String) (s : Session) : Prop :=
  ∀ e ∈ s.imports.entries, helper? e.2 = some e.1 ∧ ¬ Session.IsLocal e.2

theorem knows_symbol? {s : Session} (hs : s.Spelt) : Knows s.imports.symbol? s := by
  intro e he
  refine ⟨?_, hs.not_isLocal he⟩
  unfold Imports.symbol?
  cases hfind : s.imports.entries.find? (fun e' => e'.2 == e.2) with
  | none => exact absurd (List.find?_eq_none.mp hfind e he) (by simp)
  | some e' =>
      have hname : e'.2 = e.2 := by simpa using List.find?_some hfind
      simp [hs.symbol_eq (List.mem_of_find?_eq_some hfind) he hname]

theorem helperOf_name {helper? : String → Option String} {s final : Session} {env : Bindings}
    {symbol name : String} (hknows : Knows helper? final) (henv : Owned s env)
    (hentry : (symbol, name) ∈ final.imports.entries) :
    helperOf helper? env (Emit.name name) = .ok symbol := by
  obtain ⟨hhelper, hlocal⟩ := hknows _ hentry
  simp [helperOf, Emit.name, Node.reference, Node.leaf, hhelper,
    lookup_eq_none_of_not_isLocal henv hlocal]

theorem helperOf_required {helper? : String → Option String} {s s₁ s₂ final : Session}
    {env : Bindings} {symbol name : String} (hknows : Knows helper? final) (henv : Owned s env)
    (h : (Lower.require symbol).run s₁ = (.ok name, s₂)) (hfinal : s₂.Grows final) :
    helperOf helper? env (Emit.name name) = .ok symbol :=
  helperOf_name hknows henv (hfinal.entries _ (Session.of_run_require h).2)

section

variable {helper? : String → Option String} {level : Nat} {env : Bindings} {doc : Document}

theorem runStatement_constant (target : String) (callee : Node) (arguments : List Node) :
    runStatement helper? level env doc
        (Emit.constant (Emit.binding target) (Emit.call callee arguments)) =
      (create helper? level env doc callee arguments).map
        fun made => ((target, .node made.1) :: env, made.2) := by
  simp only [Emit.constant, Emit.call, Emit.binding, Emit.made, Node.leaf, runStatement]
  cases create helper? level env doc callee arguments <;> rfl

theorem runStatement_call {symbol : String} {callee a b : Node} {rest : List Node}
    (hcallee : helperOf helper? env (calleeHead callee) = .ok symbol) :
    runStatement helper? level env doc (Emit.statement (Emit.call callee (a :: b :: rest))) =
      (effect helper? level env doc symbol (a :: b :: rest)).map fun doc => (env, doc) := by
  simp only [Emit.statement, Emit.call, Emit.made, runStatement, hcallee, bind, Except.bind]
  cases effect helper? level env doc symbol (a :: b :: rest) <;> rfl

/-- The statements of a closure, around those that it was made for. -/
def closureItems (anchor : String) (items : List Node) : List Node :=
  Emit.constant (Emit.binding anchor)
      (Emit.call (Emit.member (Emit.name "document") "createDocumentFragment") []) ::
    items ++ [Emit.made .returnStatement [Emit.name anchor]]

theorem runStatement_slot {target : String} {slot : Scope} {items : List Node} {place root : Place}
    {doc₁ doc₂ : Document} {views : List View} (htarget : env.lookup target = some (.node place))
    (hbody : runBody helper? doc.length ((slot.context, .context doc.length) :: env) doc
      (closureItems slot.anchor items) = .ok (root, doc₁))
    (hviews : viewsUnder root doc₁ = .ok views)
    (hchange : change (slotAt views) place doc₁ = .ok doc₂) :
    runStatement helper? level env doc (slotStatement target slot items) = .ok (env, doc₂) := by
  have hclosure : Emit.closure slot.anchor slot.context items =
      Emit.arrow slot.context (Emit.made .body (closureItems slot.anchor items)) := rfl
  simp only [slotStatement, hclosure, Emit.statement, Emit.call, Emit.made, Emit.member,
    Emit.arrow, Emit.binding, runStatement, nodeOf_name htarget, hbody, hviews, hchange, bind,
    Except.bind, pure, Except.pure]

theorem runStatement_fragment (anchor : String) (hdocument : env.lookup "document" = none) :
    runStatement helper? level env doc (Emit.constant (Emit.binding anchor)
        (Emit.call (Emit.member (Emit.name "document") "createDocumentFragment") [])) =
      .ok ((anchor, .node ⟨doc.length, []⟩) :: env, doc ++ [[]]) := by
  rw [runStatement_constant]
  simp [create, Emit.member, Emit.name, hdocument, Except.map]

theorem touch_eq (doc : Document) {context target : String} {place : Place}
    (hcontext : env.lookup context = some (.context level))
    (htarget : env.lookup target = some (.node place)) :
    touch level env doc (Emit.name context) (Emit.name target) = .ok doc := by
  simp only [touch, checkContext_name hcontext, nodeOf_name htarget]
  rfl

theorem callbackTarget?_assign (parameter target property : String) :
    callbackTarget? (Emit.arrow parameter (Emit.made (.assignment "=")
      [Emit.access (Emit.name target) property, Emit.name parameter])) =
        some (Emit.name target) := by
  unfold Emit.access
  split <;> rfl

theorem calleeHead_access (object : Node) (property : String) :
    calleeHead (Emit.access object property) = object := by
  unfold Emit.access
  split <;> rfl

end

theorem runStatement_directive {helper? : String → Option String} {level : Nat} {env : Bindings}
    {doc : Document} {scope : Scope} {target : String} {value call : Node} {directive : Directive}
    {s s₀ s' final : Session} {place : Place}
    (h : LowersDirective scope target value s directive call s') (hfinal : s'.Grows final)
    (hknows : Knows helper? final) (henv : Owned s₀ env)
    (hcontext : env.lookup scope.context = some (.context level))
    (htarget : env.lookup target = some (.node place)) :
    runStatement helper? level env doc (Emit.statement call) = .ok (env, doc) := by
  have htouch := touch_eq doc hcontext htarget
  cases h with
  | bind property hcallback =>
      rw [runStatement_call (helperOf_required hknows henv hcallback hfinal)]
      simp [effect, callbackTarget?_assign, htouch, Except.map]
  | attr key hcallback =>
      rw [runStatement_call (helperOf_required hknows henv hcallback hfinal)]
      simp only [effect, callbackTarget?, Emit.arrow, Emit.made, Emit.call, Emit.member]
      simp [htouch, Except.map]
  | ref hhelper | view hhelper =>
      rw [runStatement_call (helperOf_required hknows henv hhelper hfinal)]
      simp [effect, htouch, Except.map]
  | model hdetect hsetState hparameter =>
      have hgrows := (Session.of_run_fresh hparameter).1.trans hfinal
      have hinner := helperOf_required hknows henv hsetState hgrows
      have hplace := nodeOf_name htarget
      rw [runStatement_call (helperOf_required hknows henv hdetect
        ((Session.of_run_require hsetState).1.trans hgrows))]
      simp [effect, callbackHelper?, Emit.arrow, Emit.made, Emit.call, hinner, hplace, bind,
        Except.bind, Except.map]
  | on event hhelper =>
      have hgrows := ((Session.stable_grows _).listen event _ (.refl _)).trans hfinal
      rw [runStatement_call (helperOf_required hknows henv hhelper hgrows)]
      simp [effect, htouch, Except.map]
  | custom name modifier hregistry =>
      have hcallee := helperOf_required hknows henv hregistry hfinal
      rw [← calleeHead_access (Emit.name _) name] at hcallee
      rw [runStatement_call hcallee]
      simp [effect, htouch, Except.map]

theorem runs_directives {helper? : String → Option String} {level : Nat} {env : Bindings}
    {doc : Document} {scope : Scope} {target : String} {attributes : List Attribute}
    {lowered : LoweredAttributes} {s s₀ s' final : Session} {place : Place}
    (h : LowersAttributes scope target s attributes lowered s') (hfinal : s'.Grows final)
    (hknows : Knows helper? final) (henv : Owned s₀ env)
    (hcontext : env.lookup scope.context = some (.context level))
    (htarget : env.lookup target = some (.node place)) :
    Runs helper? level env doc lowered.directives env doc := by
  induction h with
  | nil => exact .nil
  | spread _ ih => exact ih hfinal
  | compile _ _ _ ih => exact ih hfinal
  | directive _ hcall hrest ih =>
      exact .cons (runStatement_directive hcall (hrest.grows.trans hfinal) hknows henv hcontext
        htarget) (ih hfinal)
  | prop _ _ ih => exact ih hfinal

end Runtime

end TemplateCompiler
