import TemplateCompiler.Proofs.Syntax.Scope
import TemplateCompiler.Proofs.Template.Hygiene
import TemplateCompiler.Proofs.Template.Image

namespace TemplateCompiler

open Lower Node Session

inductive Binder where
  | imported
  | constant
  | parameter
deriving DecidableEq, Repr

structure Declaration where
  binder : Binder
  name : String
deriving DecidableEq, Repr

/-- What a part of a node declares for the parts behind it: an import in a program, a constant in
the body of a function, and the parameters of an arrow. -/
def declarations (parent : Form) (n : Node) : List Declaration :=
  match parent, n.form with
  | .program _, .importDeclaration _ => n.introduced.map (.mk .imported)
  | .body, .variableDeclaration .constVar _ => n.introduced.map (.mk .constant)
  | .arrow _, .parameters => n.introduced.map (.mk .parameter)
  | _, _ => []

/-- The declarations in force at the parts of a node. What a part declares is not yet in
force in the part itself. -/
def inForce (visible : List Declaration) (parent : Form) : List Node → List (List Declaration)
  | [] => []
  | n :: ns => visible :: inForce (declarations parent n ++ visible) parent ns

/-- How the names made from a word are declared. -/
def Binder.ofStem (stem : String) : Binder :=
  if stem ∈ helperSymbols then .imported
  else if stem ∈ ["ctx", "value"] then .parameter
  else .constant

/-- A name that is made from one of the compiler's words, declared as names
made from that word are. -/
def Declaration.IsGenerated (d : Declaration) : Prop :=
  ∃ stem ∈ helperSymbols ++ localBases, ∃ index,
    d = ⟨.ofStem stem, FreshNames.spelling stem index⟩

/-- A generated declaration of the name is in force. -/
def Declares (visible : List Declaration) (name : String) : Prop :=
  ∃ d ∈ visible, d.name = name ∧ d.IsGenerated

/-- A name that is used is known, or a generated declaration of it is in force. -/
def Bound (known : String → Prop) (visible : List Declaration) (form : Form) : Prop :=
  ∀ name, form = .reference name → known name ∨ Declares visible name

/-- Every name that is used in the tree is known or bound. -/
def Scoped (known : String → Prop) (visible : List Declaration) (n : Node) : Prop :=
  ∀ v ∈ n.reached inForce visible, Bound known v.1 v.2.form

/-- The same of trees that stand one behind the other in a node. -/
def ScopedList (known : String → Prop) (visible : List Declaration) (parent : Form)
    (ns : List Node) : Prop :=
  ∀ v ∈ reachedOfList inForce (inForce visible parent ns) ns, Bound known v.1 v.2.form

section

variable {known : String → Prop} {visible visible' : List Declaration} {parent form : Form}
  {n : Node} {ns ms : List Node}

theorem scoped_node_iff {span : Span} {children : List Node} :
    Scoped known visible (.node form span children) ↔
      Bound known visible form ∧ ScopedList known visible form children := by
  simp [Scoped, ScopedList, reached, Node.form]

theorem scopedList_nil : ScopedList known visible parent [] := by
  simp [ScopedList]

theorem scopedList_cons_iff :
    ScopedList known visible parent (n :: ns) ↔
      Scoped known visible n ∧ ScopedList known (declarations parent n ++ visible) parent ns := by
  simp [Scoped, ScopedList, inForce, reachedOfList, or_imp, forall_and]

/-- What is in force behind trees that stand one behind the other. -/
def afterwards (parent : Form) (visible : List Declaration) (ns : List Node) : List Declaration :=
  ns.foldl (fun visible n => declarations parent n ++ visible) visible

theorem subset_afterwards : visible ⊆ afterwards parent visible ns := by
  induction ns generalizing visible with
  | nil => exact List.Subset.refl visible
  | cons n ns ih =>
      intro d hd
      exact ih (List.mem_append_right _ hd)

theorem scopedList_append_iff :
    ScopedList known visible parent (ns ++ ms) ↔
      ScopedList known visible parent ns ∧
        ScopedList known (afterwards parent visible ns) parent ms := by
  induction ns generalizing visible with
  | nil => simp [scopedList_nil, afterwards]
  | cons n ns ih =>
      rw [List.cons_append, scopedList_cons_iff, scopedList_cons_iff, ih, and_assoc]
      rfl

theorem Declares.mono {name : String} (h : Declares visible name) (hsubset : visible ⊆ visible') :
    Declares visible' name := by
  obtain ⟨d, hd, hgenerated⟩ := h
  exact ⟨d, hsubset hd, hgenerated⟩

theorem scopedList_iff_forall (hparent : ∀ n, declarations parent n = []) :
    ScopedList known visible parent ns ↔ ∀ n ∈ ns, Scoped known visible n := by
  induction ns with
  | nil => simp [scopedList_nil]
  | cons n ns ih => simp [scopedList_cons_iff, hparent, ih]

theorem scoped_made (hform : ∀ name, form ≠ .reference name) :
    Scoped known visible (Emit.made form ns) ↔ ScopedList known visible form ns := by
  refine scoped_node_iff.trans ⟨fun h => h.2, fun h => ⟨?_, h⟩⟩
  intro name hname
  exact absurd hname (hform name)

theorem scoped_plain (hform : ∀ name, form ≠ .reference name)
    (hparent : ∀ n, declarations form n = []) :
    Scoped known visible (Emit.made form ns) ↔ ∀ n ∈ ns, Scoped known visible n := by
  rw [scoped_made hform, scopedList_iff_forall hparent]

theorem scoped_name {text : String} (h : Declares visible text) :
    Scoped known visible (Emit.name text) := by
  refine scoped_node_iff.mpr ⟨?_, scopedList_nil⟩
  rintro name ⟨rfl⟩
  exact .inr h

theorem scoped_known {text : String} (h : known text) : Scoped known visible (Emit.name text) := by
  refine scoped_node_iff.mpr ⟨?_, scopedList_nil⟩
  rintro name ⟨rfl⟩
  exact .inl h

theorem scoped_leaf (hform : ∀ name, form ≠ .reference name) :
    Scoped known visible (Emit.made form []) :=
  (scoped_made hform).mpr scopedList_nil

theorem scoped_call {callee : Node} :
    Scoped known visible (Emit.call callee ns) ↔
      Scoped known visible callee ∧ ∀ n ∈ ns, Scoped known visible n := by
  have habsent : Scoped known visible Node.absent := scoped_leaf (by simp)
  rw [Emit.call, scoped_plain (by simp) (fun _ => rfl)]
  simp [habsent]

theorem scoped_statement : Scoped known visible (Emit.statement n) ↔ Scoped known visible n := by
  rw [Emit.statement, scoped_plain (by simp) (fun _ => rfl)]
  simp

theorem scoped_string (text : String) : Scoped known visible (Emit.string text) :=
  scoped_leaf (by simp)

theorem scoped_member (property : String) :
    Scoped known visible (Emit.member n property) ↔ Scoped known visible n := by
  have hlabel : Scoped known visible (.leaf (.label property) .synthetic) := scoped_leaf (by simp)
  change Scoped known visible
    (Emit.made (.member false) [n, .leaf (.label property) .synthetic]) ↔ _
  rw [scoped_plain (by simp) (fun _ => rfl)]
  simp [hlabel]

theorem scoped_access (property : String) :
    Scoped known visible (Emit.access n property) ↔ Scoped known visible n := by
  unfold Emit.access
  split
  · exact scoped_member property
  · rw [scoped_plain (by simp) (fun _ => rfl)]
    simp [scoped_string]

theorem scoped_absent : Scoped known visible Node.absent := scoped_leaf (by simp)

theorem scoped_binding (text : String) : Scoped known visible (Emit.binding text) :=
  scoped_leaf (by simp)

theorem scoped_constant (target : String) :
    Scoped known visible (Emit.constant (Emit.binding target) n) ↔ Scoped known visible n := by
  rw [Emit.constant, scoped_plain (by simp) (fun _ => rfl), List.forall_mem_singleton,
    scoped_plain (by simp) (fun _ => rfl)]
  simp [scoped_binding, scoped_absent]

theorem declarations_constant (target : String) (value : Node) :
    declarations .body (Emit.constant (Emit.binding target) value) = [⟨.constant, target⟩] := rfl

theorem scoped_arrow (parameter : String) :
    Scoped known visible (Emit.arrow parameter n) ↔
      Scoped known (⟨.parameter, parameter⟩ :: visible) n := by
  have hparameters : Scoped known visible (Emit.made .parameters
      [Emit.made (.parameter {}) [Emit.binding parameter, .absent, .absent]]) := by
    rw [scoped_plain (by simp) (fun _ => rfl), List.forall_mem_singleton,
      scoped_plain (by simp) (fun _ => rfl)]
    simp [scoped_binding, scoped_absent]
  rw [Emit.arrow, scoped_made (by simp)]
  simp only [scopedList_cons_iff, scoped_absent, scopedList_nil, true_and, and_true]
  exact and_iff_right hparameters

theorem scoped_closure {root context : String} (hdocument : known "document")
    (hroot : Declaration.IsGenerated ⟨.constant, root⟩)
    (h : ScopedList known (⟨.constant, root⟩ :: ⟨.parameter, context⟩ :: visible) .body ns) :
    Scoped known visible (Emit.closure root context ns) := by
  have hcreate : Scoped known (⟨.parameter, context⟩ :: visible)
      (Emit.call (Emit.member (Emit.name "document") "createDocumentFragment") []) :=
    scoped_call.mpr ⟨(scoped_member _).mpr (scoped_known hdocument), by simp⟩
  refine (scoped_arrow context).mpr ((scoped_made (by simp)).mpr ?_)
  rw [List.cons_append, scopedList_cons_iff, scopedList_append_iff]
  refine ⟨(scoped_constant root).mpr hcreate, h, scopedList_cons_iff.mpr ⟨?_, scopedList_nil⟩⟩
  rw [scoped_plain (by simp) (fun _ => rfl), List.forall_mem_singleton]
  exact scoped_name ⟨⟨.constant, root⟩, subset_afterwards (by simp [declarations_constant]), rfl,
    hroot⟩

end

/-- A name that is not generated: one of the program, the document, or the
parameter of a value callback. -/
def Known (program : Node) (name : String) : Prop :=
  name ∈ program.usedNames ∨ name = "document" ∨ name = "value"

mutual

/-- What was written in the program uses names of the program only, so it may stand anywhere. -/
theorem scoped_of_within {program : Node} : (n : Node) → Within program n →
    ∀ visible, Scoped (Known program) visible n
  | .node form span children => by
      intro h visible
      obtain ⟨hform, hchildren⟩ := within_node_iff.mp h
      refine scoped_node_iff.mpr ⟨?_, scopedList_of_within children hchildren visible form⟩
      rintro name rfl
      have hplace : (Form.reference name, span) ∈ program.identifiers :=
        hform (by simp [identifiers, Form.identifier?])
      exact .inl (.inl (mem_usedNames_of_mem_identifiers rfl program hplace))

theorem scopedList_of_within {program : Node} : (ns : List Node) → (∀ n ∈ ns, Within program n) →
    ∀ visible parent, ScopedList (Known program) visible parent ns
  | [] => fun _ _ _ => scopedList_nil
  | n :: ns => by
      intro h visible parent
      obtain ⟨hn, hns⟩ := List.forall_mem_cons.mp h
      exact scopedList_cons_iff.mpr
        ⟨scoped_of_within n hn visible, scopedList_of_within ns hns _ parent⟩

end

theorem isGenerated_of_run_fresh {base name : String} {s s' : Session} (hbase : base ∈ localBases)
    (h : (fresh base).run s = (.ok name, s')) : Declaration.IsGenerated ⟨.ofStem base, name⟩ := by
  obtain ⟨-, -, -, -, index, rfl⟩ := of_run_fresh h
  rw [base_of_mem_localBases base hbase]
  exact ⟨base, List.mem_append_right _ hbase, index, rfl⟩

/-- The symbols that a session imports are declared. -/
def Session.Declared (visible : List Declaration) (s : Session) : Prop :=
  ∀ e ∈ s.imports.entries, Declares visible e.2

section

variable {program : Node} {visible visible' : List Declaration} {scope : Scope} {target : String}
  {s s' : Session}

theorem Session.Declared.mono (h : s.Declared visible) (hsubset : visible ⊆ visible') :
    s.Declared visible' :=
  fun e he => (h e he).mono hsubset

theorem Session.Declared.of_grows (h : s'.Declared visible) (hgrows : s.Grows s') :
    s.Declared visible :=
  fun e he => h e (hgrows.entries e he)

theorem Session.Declared.helper {symbol helper : String} (h : s'.Declared visible)
    (hrun : (require symbol).run s = (.ok helper, s')) : Declares visible helper :=
  h _ (of_run_require hrun).2

theorem scoped_reactiveValue {value : Node} (h : Within program value)
    (visible : List Declaration) :
    Scoped (Known program) visible (reactiveValue value).1 ∧
      ∀ p ∈ (reactiveValue value).2, Scoped (Known program) visible p := by
  rw [reactiveValue_eq]
  constructor
  · have hvalue : ∀ visible, Scoped (Known program) visible value := scoped_of_within value h
    split
    · exact hvalue visible
    · have hparameters : Scoped (Known program) visible (Emit.made .parameters []) :=
        scoped_leaf (by simp)
      change Scoped _ _ (Emit.made (.arrow {}) [.absent, Emit.made .parameters [], .absent, value])
      rw [scoped_made (by simp)]
      simp only [scopedList_cons_iff, scoped_absent, scopedList_nil, true_and, and_true]
      exact ⟨hparameters, hvalue _⟩
  · intro p hp
    exact scoped_of_within p (fun place hplace => h (within_of_mem_dependencies value p hp hplace))
      visible

theorem scoped_reactiveArguments {value : Node} (h : Within program value)
    (visible : List Declaration) :
    ∀ n ∈ [(reactiveValue value).1, Emit.array (reactiveValue value).2],
      Scoped (Known program) visible n := by
  obtain ⟨hvalue, hpaths⟩ := scoped_reactiveValue h visible
  have harray : Scoped (Known program) visible (Emit.array (reactiveValue value).2) :=
    (scoped_plain (by simp) (fun _ => rfl)).mpr hpaths
  simp [hvalue, harray]

theorem LowersDirective.scoped {value call : Node} {directive : Directive}
    (h : LowersDirective scope target value s directive call s') (hvalue : Within program value)
    (hsession : s'.Declared visible) (hcontext : Declares visible scope.context)
    (htarget : Declares visible target) : Scoped (Known program) visible call := by
  have hsource : Scoped (Known program) visible value := scoped_of_within value hvalue visible
  -- The parameter of a value callback is in force in its body, like everything around it.
  have hwiden : ∀ parameter : String, visible ⊆ ⟨.parameter, parameter⟩ :: visible :=
    fun _ _ hd => List.mem_cons_of_mem _ hd
  have hparameter : ∀ visible, Scoped (Known program) visible (Emit.name "value") :=
    fun _ => scoped_known (.inr (.inr rfl))
  cases h with
  | bind property hcallback =>
      have hsetter : Scoped (Known program) visible (Emit.arrow "value" (Emit.made (.assignment "=")
          [Emit.access (Emit.name target) property, Emit.name "value"])) := by
        rw [scoped_arrow, scoped_plain (by simp) (fun _ => rfl)]
        simp [scoped_access, scoped_name (htarget.mono (hwiden "value")), hparameter]
      refine scoped_call.mpr ⟨scoped_name (hsession.helper hcallback), ?_⟩
      simpa [scoped_name hcontext, hsetter] using scoped_reactiveArguments hvalue visible
  | attr key hcallback =>
      have hsetter : Scoped (Known program) visible (Emit.arrow "value"
          (Emit.call (Emit.member (Emit.name target) "setAttribute")
            [Emit.string key, Emit.name "value"])) := by
        rw [scoped_arrow, scoped_call, scoped_member]
        simp [scoped_string, scoped_name (htarget.mono (hwiden "value")), hparameter]
      refine scoped_call.mpr ⟨scoped_name (hsession.helper hcallback), ?_⟩
      simpa [scoped_name hcontext, hsetter] using scoped_reactiveArguments hvalue visible
  | ref hhelper | view hhelper =>
      refine scoped_call.mpr ⟨scoped_name (hsession.helper hhelper), ?_⟩
      simp [scoped_name hcontext, scoped_name htarget, hsource]
  | @model _ _ _ detect setState parameter hdetect hsetState hfresh =>
      have hgrows := (of_run_require hsetState).1.trans (of_run_fresh hfresh).1
      have hdetect' := (hsession.of_grows hgrows).helper hdetect
      have hsetState' := (hsession.of_grows (of_run_fresh hfresh).1).helper hsetState
      have hwrite : Scoped (Known program) visible (Emit.arrow parameter
          (Emit.call (Emit.name setState) [value, Emit.name parameter])) := by
        rw [scoped_arrow, scoped_call]
        refine ⟨scoped_name (hsetState'.mono (hwiden parameter)), ?_⟩
        have hname : Declares (⟨.parameter, parameter⟩ :: visible) parameter :=
          ⟨_, List.mem_cons_self, rfl, isGenerated_of_run_fresh (by decide) hfresh⟩
        simp [scoped_of_within value hvalue, scoped_name hname]
      refine scoped_call.mpr ⟨scoped_name hdetect', ?_⟩
      simp [hwrite, scoped_name htarget]
  | on event hhelper =>
      have hhelper' : Declares visible _ := hsession _ (of_run_require hhelper).2
      refine scoped_call.mpr ⟨scoped_name hhelper', ?_⟩
      simp [scoped_name hcontext, scoped_name htarget, scoped_string, hsource]
  | custom name modifier hregistry =>
      refine scoped_call.mpr ⟨(scoped_access name).mpr (scoped_name (hsession.helper hregistry)),
        ?_⟩
      simp [scoped_name hcontext, scoped_name htarget, scoped_string, hsource]

theorem LowersAttributes.scoped_props {as : List Attribute} {lowered : LoweredAttributes}
    (h : LowersAttributes scope target s as lowered s') (has : AttributesWithin program as) :
    ∀ n ∈ lowered.props, Scoped (Known program) visible n := by
  induction h with
  | nil s => simp
  | @spread _ _ value _ _ _ ih =>
      obtain ⟨ha, has⟩ := List.forall_mem_cons.mp has
      have hvalue : Scoped (Known program) visible value :=
        scoped_of_within value (ha _ (List.mem_singleton_self _)) visible
      have hspread : Scoped (Known program) visible (Emit.spread value) := by
        rw [Emit.spread, scoped_plain (by simp) (fun _ => rfl)]
        simpa using hvalue
      exact List.forall_mem_cons.mpr ⟨hspread, ih has⟩
  | compile _ _ _ ih => exact ih (List.forall_mem_cons.mp has).2
  | directive _ _ _ ih => exact ih (List.forall_mem_cons.mp has).2
  | @prop _ _ name value _ _ _ _ _ ih =>
      obtain ⟨ha, has⟩ := List.forall_mem_cons.mp has
      have hvalue : Scoped (Known program) visible (value.toNode Emit.yes) :=
        scoped_of_within _ (within_toNode ha (within_leaf rfl program .synthetic)) visible
      have hproperty : Scoped (Known program) visible
          (Emit.property name (value.toNode Emit.yes)) := by
        rw [Emit.property, scoped_plain (by simp) (fun _ => rfl)]
        simp [scoped_string, hvalue]
      exact List.forall_mem_cons.mpr ⟨hproperty, ih has⟩

theorem LowersAttributes.scoped_directives {as : List Attribute} {lowered : LoweredAttributes}
    (h : LowersAttributes scope target s as lowered s') (has : AttributesWithin program as)
    (hsession : s'.Declared visible) (hcontext : Declares visible scope.context)
    (htarget : Declares visible target) :
    ScopedList (Known program) visible .body lowered.directives := by
  induction h with
  | nil s => exact scopedList_nil
  | spread _ ih => exact ih (List.forall_mem_cons.mp has).2 hsession
  | compile _ _ _ ih => exact ih (List.forall_mem_cons.mp has).2 hsession
  | directive _ hcall hrest ih =>
      obtain ⟨ha, has⟩ := List.forall_mem_cons.mp has
      refine scopedList_cons_iff.mpr ⟨scoped_statement.mpr ?_, ih has hsession⟩
      exact hcall.scoped (within_toNode ha (within_leaf rfl program .synthetic))
        (hsession.of_grows hrest.grows) hcontext htarget
  | prop _ _ ih => exact ih (List.forall_mem_cons.mp has).2 hsession

theorem scopedList_flush {helper : String} (hhelper : Declares visible helper)
    (hanchor : Declares visible scope.anchor) (text : String) :
    ScopedList (Known program) visible .body (flush helper scope text) := by
  unfold flush
  split
  · exact scopedList_nil
  · refine scopedList_cons_iff.mpr
      ⟨scoped_statement.mpr (scoped_call.mpr ⟨scoped_name hhelper, ?_⟩), scopedList_nil⟩
    simp [scoped_name hanchor, scoped_string]

theorem scopedList_creation {symbol base helper : String} {subject : List Node}
    {as : List Attribute} {lowered : LoweredAttributes} {s₁ s₂ : Session}
    (hbase : base ∈ localBases) (hbinder : Binder.ofStem base = .constant)
    (hhelper : (require symbol).run s = (.ok helper, s₁))
    (htarget : (fresh base).run s₁ = (.ok target, s₂))
    (hattributes : LowersAttributes scope target s₂ as lowered s')
    (has : AttributesWithin program as) (hsubject : ∀ n ∈ subject, Scoped (Known program) visible n)
    (hsession : s'.Declared visible) (hanchor : Declares visible scope.anchor)
    (hcontext : Declares visible scope.context) :
    ScopedList (Known program) visible .body (creation helper target scope subject lowered) ∧
      Declares (afterwards .body visible (creation helper target scope subject lowered))
        target := by
  have hgenerated := isGenerated_of_run_fresh hbase htarget
  rw [hbinder] at hgenerated
  have hdeclares : Declares (⟨.constant, target⟩ :: visible) target :=
    ⟨_, List.mem_cons_self, rfl, hgenerated⟩
  have hwiden : visible ⊆ ⟨.constant, target⟩ :: visible := fun _ hd => List.mem_cons_of_mem _ hd
  have hgrows := (of_run_fresh htarget).1.trans hattributes.grows
  have hprops : Scoped (Known program) visible (Emit.object lowered.props) :=
    (scoped_plain (by simp) (fun _ => rfl)).mpr (hattributes.scoped_props has)
  refine ⟨scopedList_cons_iff.mpr ⟨(scoped_constant target).mpr (scoped_call.mpr
    ⟨scoped_name ((hsession.of_grows hgrows).helper hhelper), ?_⟩), ?_⟩, ?_⟩
  · simpa [scoped_name hanchor, scoped_name hcontext, or_imp, forall_and, hprops] using hsubject
  · exact hattributes.scoped_directives has (hsession.mono hwiden) (hcontext.mono hwiden) hdeclares
  · exact hdeclares.mono subset_afterwards

/-- Whatever is built under a new scope sees the fragment and the context of that scope, and all
that is in force around it. -/
theorem scoped_newClosure {items : List Node} {s₁ s₂ : Session}
    (hroot : (fresh "root").run s = (.ok scope.anchor, s₁))
    (hctx : (fresh "ctx").run s₁ = (.ok scope.context, s₂))
    (h : ∀ visible', visible ⊆ visible' → Declares visible' scope.anchor →
      Declares visible' scope.context → ScopedList (Known program) visible' .body items) :
    Scoped (Known program) visible (Emit.closure scope.anchor scope.context items) := by
  have hroot' : Declaration.IsGenerated ⟨.constant, scope.anchor⟩ :=
    isGenerated_of_run_fresh (by decide) hroot
  have hctx' : Declaration.IsGenerated ⟨.parameter, scope.context⟩ :=
    isGenerated_of_run_fresh (by decide) hctx
  refine scoped_closure (.inr (.inl rfl)) hroot' (h _ ?_ ?_ ?_)
  · exact fun _ hd => List.mem_cons_of_mem _ (List.mem_cons_of_mem _ hd)
  · exact ⟨_, List.mem_cons_self, rfl, hroot'⟩
  · exact ⟨_, List.mem_cons_of_mem _ List.mem_cons_self, rfl, hctx'⟩

end

/-- What is lowered was written in the program, and the helper that appends text is declared. -/
def Job.Ready (program : Node) (visible : List Declaration) : Job → Prop
  | .tree t => t.Within program
  | .run helper _ ts => Declares visible helper ∧ Template.WithinList program ts

/-- The statements of a template use no generated name before it is declared. -/
theorem Lowers.scoped {program : Node} {visible : List Declaration} {s s' : Session} {scope : Scope}
    {options : TextOptions} {job : Job} {items : List Node}
    (h : Lowers s scope options job items s') (hjob : job.Ready program visible)
    (hsession : s'.Declared visible) (hanchor : Declares visible scope.anchor)
    (hcontext : Declares visible scope.context) :
    ScopedList (Known program) visible .body items := by
  induction h generalizing visible with
  | leafElement _ hhelper htarget hattributes =>
      exact (scopedList_creation (by decide) (by decide) hhelper htarget hattributes hjob.2.1
        (List.forall_mem_singleton.mpr (scoped_string _)) hsession hanchor hcontext).1
  | element _ hhelper htarget hattributes htext hinner ih =>
      have hafter := hsession.of_grows hinner.grows
      obtain ⟨hhead, htarget'⟩ :=
        scopedList_creation (by decide) (by decide) hhelper htarget hattributes
        hjob.2.1 (List.forall_mem_singleton.mpr (scoped_string _))
        (hafter.of_grows (of_run_require htext).1) hanchor hcontext
      refine scopedList_append_iff.mpr ⟨hhead, ?_⟩
      exact ih ⟨(hafter.helper htext).mono subset_afterwards,
        hjob.2.2⟩ (hsession.mono subset_afterwards)
        htarget' (hcontext.mono subset_afterwards)
  | @control _ _ _ _ _ _ _ _ _ control _ _ _ _ _ _ _ hconstructor hhelper htarget hattributes =>
      cases control with
      | conditional | loop =>
          cases hconstructor
          exact (scopedList_creation (by decide) (by decide) hhelper htarget hattributes hjob.2.1
            (List.forall_mem_nil _) hsession hanchor hcontext).1
      | fragment => cases hconstructor
  | splice _ _ _ htext hinner ih =>
      exact ih ⟨(hsession.of_grows hinner.grows).helper htext, hjob.2.2⟩ hsession hanchor hcontext
  | leafComponent htag _ hcomponent hhelper htarget hattributes =>
      have hsubject := scoped_of_within _ (hjob.1 htag _ hcomponent) visible
      exact (scopedList_creation (by decide) (by decide) hhelper htarget hattributes hjob.2.1
        (List.forall_mem_singleton.mpr hsubject) hsession hanchor hcontext).1
  | component htag _ hcomponent hhelper htarget hattributes hroot hctx htext hinner ih =>
      have hsubject := scoped_of_within _ (hjob.1 htag _ hcomponent) visible
      have hafter := hsession.of_grows hinner.grows
      have hgrows :=
        ((of_run_fresh hroot).1.trans (of_run_fresh hctx).1).trans (of_run_require htext).1
      obtain ⟨hhead, htarget'⟩ :=
        scopedList_creation (by decide) (by decide) hhelper htarget hattributes
        hjob.2.1 (List.forall_mem_singleton.mpr hsubject) (hafter.of_grows hgrows) hanchor hcontext
      refine scopedList_append_iff.mpr ⟨hhead, scopedList_cons_iff.mpr ⟨?_, scopedList_nil⟩⟩
      refine scoped_statement.mpr (scoped_call.mpr
        ⟨(scoped_member _).mpr (scoped_name htarget'), List.forall_mem_singleton.mpr ?_⟩)
      refine scoped_newClosure hroot hctx fun visible' hsubset hroot' hctx' => ?_
      have hwiden : visible ⊆ visible' := fun _ hd => hsubset (subset_afterwards hd)
      exact ih ⟨(hafter.helper htext).mono hwiden, hjob.2.2⟩ (hsession.mono hwiden) hroot' hctx'
  | fragment htext hinner ih =>
      exact ih ⟨(hsession.of_grows hinner.grows).helper htext, hjob⟩ hsession hanchor hcontext
  | part value hhelper =>
      refine scopedList_cons_iff.mpr ⟨scoped_statement.mpr (scoped_call.mpr
        ⟨scoped_name (hsession.helper hhelper), ?_⟩), scopedList_nil⟩
      simpa [scoped_name hcontext, scoped_name hanchor] using
        scoped_reactiveArguments hjob visible
  | text => exact scopedList_nil
  | nothing => exact scopedList_nil
  | done s scope options helper pending => exact scopedList_flush hjob.1 hanchor pending
  | gather _ ih => exact ih ⟨hjob.1, hjob.2.2⟩ hsession hanchor hcontext
  | next _ _ hlater ihfirst ihlater =>
      obtain ⟨hhelper, ht, hts⟩ := hjob
      refine scopedList_append_iff.mpr ⟨scopedList_append_iff.mpr
        ⟨scopedList_flush hhelper hanchor _, ?_⟩, ?_⟩
      · exact ihfirst ht ((hsession.of_grows hlater.grows).mono subset_afterwards)
          (hanchor.mono subset_afterwards) (hcontext.mono subset_afterwards)
      · exact ihlater ⟨hhelper.mono subset_afterwards, hts⟩ (hsession.mono subset_afterwards)
          (hanchor.mono subset_afterwards) (hcontext.mono subset_afterwards)

theorem scoped_of_run_template {program closure : Node} {visible : List Declaration} {t : Template}
    {s s' : Session} (ht : t.Within program) (hsession : s'.Declared visible)
    (h : (lowerTemplate t).run s = (.ok closure, s')) : Scoped (Known program) visible closure := by
  obtain ⟨scope, s₁, s₂, items, trace, hroot, hctx, hitems, rfl⟩ := lowers_of_run_template h
  refine scoped_newClosure hroot hctx fun visible' hsubset hroot' hctx' => ?_
  exact hitems.scoped ht (hsession.mono hsubset) hroot' hctx'

theorem Images.introducedEach_eq {ns ns' : List Node} (h : Images ns ns') :
    introducedEach ns' = introducedEach ns := by
  induction h with
  | nil => rfl
  | inner span hform _ _ ihchildren ihrest =>
      simp only [introducedEach, introduced, ihchildren, ihrest]
  | @literal literal _ _ _ _ _ _ _ _ hform _ _ _ _ ihrest =>
      obtain ⟨form, span, children⟩ := literal
      have hnone : (Node.node form span children).introduced = [] := by
        cases form with
        | element => rfl
        | fragment => rfl
        | _ => cases hform
      rw [introducedEach, introducedEach, ihrest, hnone]
      rfl

theorem declarations_eq_nil {n : Node} (h : n.form.isMarkup = true ∨ ∃ traits,
      n.form = .arrow traits)
    (parent : Form) : declarations parent n = [] := by
  unfold declarations
  split
  · simp_all [Form.isMarkup]
  · simp_all [Form.isMarkup]
  · simp_all [Form.isMarkup]
  · rfl

mutual

theorem within_of_mem_literals : (n : Node) → ∀ literal ∈ n.literals, Within n literal
  | .node form span children => by
      intro literal hliteral
      unfold literals at hliteral
      split at hliteral
      · obtain rfl := List.mem_singleton.mp hliteral
        exact within_self _
      · obtain ⟨n, hn, hwithin⟩ := within_of_mem_literalsOfList children literal hliteral
        have hchildren := (within_node_iff.mp (within_self (.node form span children))).2
        exact fun place hplace => hchildren n hn (hwithin hplace)

theorem within_of_mem_literalsOfList :
    (ns : List Node) → ∀ literal ∈ literalsOfList ns, ∃ n ∈ ns, Within n literal
  | [] => by simp [literalsOfList]
  | n :: ns => by
      intro literal hliteral
      rw [literalsOfList, List.mem_append] at hliteral
      rcases hliteral with hfirst | hrest
      · exact ⟨n, List.mem_cons_self, within_of_mem_literals n literal hfirst⟩
      · obtain ⟨m, hm, hwithin⟩ := within_of_mem_literalsOfList ns literal hrest
        exact ⟨m, List.mem_cons_of_mem n hm, hwithin⟩

end

theorem literals_within {program : Node} {ns : List Node} (h : ∀ n ∈ ns, Within program n) :
    ∀ literal ∈ literalsOfList ns, Within program literal := by
  intro literal hliteral
  obtain ⟨n, hn, hwithin⟩ := within_of_mem_literalsOfList ns literal hliteral
  exact fun place hplace => h n hn (hwithin hplace)

theorem Walks.scoped {program : Node} {visible : List Declaration} {parent : Form} {w w' : Walk}
    {ns ns' : List Node} (h : Walks w ns ns' w') (herrors : w'.errors = [])
    (hliterals : ∀ literal ∈ literalsOfList ns, Within program literal)
    (hsession : w'.session.Declared visible)
    (hns : ScopedList (Known program) visible parent ns) :
    ScopedList (Known program) visible parent ns' := by
  induction h generalizing visible parent with
  | nil w => exact hns
  | @inner _ _ _ form children images _ _ span hform hchildren hrest ihchildren ihrest =>
      simp only [literalsOfList, literals, hform, Bool.false_eq_true, if_false,
        List.forall_mem_append]
        at hliterals
      have hbefore := hrest.errors_eq_nil herrors
      have hgrows := hrest.keeps (stable_grows _) (.refl _)
      obtain ⟨hn, hns⟩ := scopedList_cons_iff.mp hns
      obtain ⟨hform', hparts⟩ := scoped_node_iff.mp hn
      have himages := ihchildren hbefore hliterals.1 (hsession.of_grows hgrows) hparts
      have hdeclarations : declarations parent (.node form span images) =
          declarations parent (.node form span children) := by
        have heq := (hchildren.images hbefore).introducedEach_eq
        simp only [declarations, introduced, heq]
        rfl
      refine scopedList_cons_iff.mpr ⟨scoped_node_iff.mpr ⟨hform', himages⟩, ?_⟩
      rw [hdeclarations]
      exact ihrest herrors hliterals.2 (hsession.mono (List.subset_append_right _ _)) hns
  | @replaced w w₁ w₂ literal closure image _ _ session hform hrun hclosure hrest ihclosure
      ihrest =>
      simp only [literalsOfList, literals_of_isMarkup hform, List.forall_mem_append,
        List.forall_mem_singleton] at hliterals
      have hbefore := hrest.errors_eq_nil herrors
      have hafter := hsession.of_grows (hrest.keeps (stable_grows _) (.refl _))
      have ht := Template.within_ofNode.1 literal hliterals.1
      have hscoped : Scoped (Known program) visible closure :=
        scoped_of_run_template ht (hafter.of_grows (hclosure.keeps (stable_grows _) (.refl _))) hrun
      have hembedded : ∀ literal ∈ literalsOfList [closure], Within program literal := by
        rw [literalsOfList, literals_of_run_template hrun, literalsOfList, List.append_nil]
        exact literals_within (Template.of_mem_embedded _ ht)
      have himage : ScopedList (Known program) visible parent [image] :=
        ihclosure hbefore hembedded hafter (scopedList_cons_iff.mpr ⟨hscoped, scopedList_nil⟩)
      refine scopedList_cons_iff.mpr ⟨(scopedList_cons_iff.mp himage).1, ?_⟩
      obtain ⟨scope, -, -, items, -, -, -, -, rfl⟩ := lowers_of_run_template hrun
      obtain ⟨images, rfl⟩ := hclosure.of_closure
      have hrest' := (scopedList_cons_iff.mp hns).2
      rw [declarations_eq_nil (.inl hform)] at hrest'
      rw [declarations_eq_nil (.inr ⟨_, rfl⟩)]
      exact ihrest herrors hliterals.2 hsession hrest'
  | failed _ _ hrest =>
      have hfail := hrest.errors_eq_nil herrors
      simp [Walk.fail] at hfail

end TemplateCompiler
