import TemplateCompiler.Proofs.Template.Execution
import TemplateCompiler.Proofs.Template.Instruction

namespace TemplateCompiler

open Lower TemplateCompiler.Runtime

theorem Tag.expression_of_component {tag : Tag} {component : Node}
    (h : tag.component = .ok component) : tag.expression = component := by
  unfold Tag.component at h
  split at h
  · cases h
  · cases h
    rfl
  · split at h
    · cases h
      rfl
    · cases h
  · cases h

theorem Template.viewsOfList_eq (options : TextOptions) (ts : List Template) :
    viewsOfList options false ts =
      textViews (leadingText options ts) ++ viewsOfList options true ts := by
  cases ts with
  | nil => rfl
  | cons t ts => cases t <;> rfl

/-- The views that a job is to add. -/
def Job.views (options : TextOptions) : Job → List View
  | .tree t => t.views options
  | .run _ pending ts =>
    Template.textViews (pending ++ Template.leadingText options ts) ++
      Template.viewsOfList options true ts

theorem Job.views_run (options : TextOptions) (helper : String) (ts : List Template) :
    (Job.run helper "" ts).views options = Template.viewsOfList options false ts := by
  rw [Template.viewsOfList_eq, Job.views, String.empty_append]

/-- The helper for texts is imported where texts may come up. -/
def Job.Listed (s : Session) : Job → Prop
  | .tree _ => True
  | .run helper _ _ => ("appendText", helper) ∈ s.imports.entries

/-- A run that is inside a closure: anchor and context are bound, and views can
be added at the anchor. -/
structure Ready (s : Session) (scope : Scope) (level : Nat) (place : Place) (env : Bindings)
    (doc : Document) : Prop where
  owned : Owned s env
  anchor : env.lookup scope.anchor = some (.node place)
  context : env.lookup scope.context = some (.context level)
  isOpen : IsOpen place doc

/-- Bindings and what becomes of them: names that were taken keep their meaning. -/
structure Follows (s s' : Session) (env env' : Bindings) : Prop where
  owned : Owned s' env'
  lookup : ∀ name ∈ s.used, env'.lookup name = env.lookup name

theorem Follows.refl {s s' : Session} {env : Bindings} (henv : Owned s env) (h : s.Grows s') :
    Follows s s' env env :=
  ⟨fun b hb => ⟨(henv b hb).1, h.mem_used (henv b hb).2⟩, fun _ _ => rfl⟩

theorem Follows.trans {s s₁ s₂ : Session} {env env₁ env₂ : Bindings} (hgrows : s.Grows s₁)
    (h : Follows s s₁ env env₁) (h' : Follows s₁ s₂ env₁ env₂) : Follows s s₂ env env₂ :=
  ⟨h'.owned, fun name hname => (h'.lookup name (hgrows.mem_used hname)).trans (h.lookup name hname)⟩

theorem Follows.bind {s s₁ s₂ : Session} {env : Bindings} {base name : String} {value : Value}
    (henv : Owned s env) (hbase : base ∈ Session.localBases) (hgrows : s.Grows s₁)
    (h : (fresh base).run s₁ = (.ok name, s₂)) : Follows s s₂ env ((name, value) :: env) := by
  obtain ⟨hgrows', hfresh, hused, -, -⟩ := Session.of_run_fresh h
  refine ⟨?_, ?_⟩
  · intro b hb
    rcases List.mem_cons.mp hb with rfl | hb
    · exact ⟨Session.isLocal_of_run_fresh hbase h, hused⟩
    · exact ⟨(henv b hb).1, (hgrows.trans hgrows').mem_used (henv b hb).2⟩
  · intro x hx
    have hne : x ≠ name := by
      rintro rfl
      exact hfresh (hgrows.mem_used hx)
    rw [List.lookup_cons, beq_false_of_ne hne]

theorem Follows.mono {s s₁ s₂ : Session} {env env' : Bindings} (h : Follows s s₁ env env')
    (hgrows : s₁.Grows s₂) : Follows s s₂ env env' :=
  ⟨fun b hb => ⟨(h.owned b hb).1, hgrows.mem_used (h.owned b hb).2⟩, h.lookup⟩

theorem Ready.mono {s s' : Session} {scope : Scope} {level : Nat} {place : Place} {env : Bindings}
    {doc : Document} (h : Ready s scope level place env doc) (hgrows : s.Grows s') :
    Ready s' scope level place env doc :=
  ⟨(Follows.refl h.owned hgrows).owned, h.anchor, h.context, h.isOpen⟩

theorem Ready.follows {s s' : Session} {scope : Scope} {level : Nat} {place : Place}
    {env env' : Bindings} {doc doc' : Document} {added : List View}
    (h : Ready s scope level place env doc) (henv : Follows s s' env env')
    (hdoc : Adds place added doc doc') : Ready s' scope level place env' doc' := by
  refine ⟨henv.owned, ?_, ?_, h.isOpen.adds hdoc⟩
  · rw [henv.lookup _ (mem_used_of_lookup h.owned h.anchor)]
    exact h.anchor
  · rw [henv.lookup _ (mem_used_of_lookup h.owned h.context)]
    exact h.context

theorem Ready.enter {s s' : Session} {scope : Scope} {level : Nat} {place inner : Place}
    {env : Bindings} {doc doc' : Document} {target : String}
    (h : Ready s scope level place env doc)
    (henv : Follows s s' env ((target, .node inner) :: env)) (hopen : IsOpen inner doc') :
    Ready s' { scope with anchor := target } level inner ((target, .node inner) :: env) doc' := by
  refine ⟨henv.owned, List.lookup_cons_self, ?_, hopen⟩
  rw [henv.lookup _ (mem_used_of_lookup h.owned h.context)]
  exact h.context

/-- Statements that add views at the anchor and bind names that were not taken. -/
def Constructs (helper? : String → Option String) (s s' : Session) (level : Nat) (place : Place)
    (env : Bindings) (doc : Document) (items : List Node) (added : List View) : Prop :=
  ∃ env' doc', Runs helper? level env doc items env' doc' ∧ Adds place added doc doc' ∧
    Follows s s' env env'

section

variable {helper? : String → Option String} {final s s₁ s₂ s₃ s' : Session} {scope : Scope}
  {level : Nat} {place : Place} {env : Bindings} {doc : Document}

theorem Ready.constructs_flush {helper : String} (h : Ready s scope level place env doc)
    (hknows : Knows helper? final) (hentry : ("appendText", helper) ∈ final.imports.entries)
    (text : String) :
    Constructs helper? s s level place env doc (flush helper scope text)
      (Template.textViews text) := by
  unfold flush Template.textViews
  split
  · exact ⟨env, doc, .nil, .refl h.isOpen, .refl h.owned (.refl s)⟩
  · obtain ⟨doc', hchange, hadds⟩ := change_appendAt h.isOpen [.text text]
    refine ⟨env, doc', .single ?_, hadds, .refl h.owned (.refl s)⟩
    rw [runStatement_call (helperOf_name hknows h.owned hentry)]
    simp [effect, Emit.string, nodeOf_name h.anchor, hchange, bind, Except.bind, Except.map]

theorem Ready.runs_creation {symbol base helper target : String} {attributes : List Attribute}
    {lowered : LoweredAttributes} {view : View} {inner : Place} {doc₁ : Document}
    (h : Ready s scope level place env doc) (subject : List Node)
    (hbase : base ∈ Session.localBases) (hknows : Knows helper? final) (hfinal : s₃.Grows final)
    (hhelper : (require symbol).run s = (.ok helper, s₁))
    (htarget : (fresh base).run s₁ = (.ok target, s₂))
    (hattributes : LowersAttributes scope target s₂ attributes lowered s₃)
    (hcreated : created? symbol (subject ++ [Emit.object lowered.props]) = some view)
    (hattach : attach view place doc = .ok (inner, doc₁)) :
    Runs helper? level env doc (creation helper target scope subject lowered)
        ((target, .node inner) :: env) doc₁ ∧
      Follows s s₃ env ((target, .node inner) :: env) := by
  have hgrows₁ := (Session.of_run_require hhelper).1
  obtain ⟨hgrows₂, -⟩ := Session.of_run_fresh htarget
  have hfollows : Follows s s₂ env ((target, .node inner) :: env) :=
    .bind h.owned hbase hgrows₁ htarget
  have hcallee := helperOf_required hknows h.owned hhelper
    ((hgrows₂.trans hattributes.grows).trans hfinal)
  have hcreate : create helper? level env doc (Emit.name helper)
      ([Emit.name scope.anchor, Emit.name scope.context] ++ subject ++
        [Emit.object lowered.props]) = .ok (inner, doc₁) := by
    simp only [List.cons_append, List.nil_append, create, hcallee, nodeOf_name h.anchor,
      checkContext_name h.context, hcreated, hattach, bind, Except.bind]
  have hcontext : List.lookup scope.context ((target, .node inner) :: env) =
      some (.context level) := by
    rw [hfollows.lookup _ (mem_used_of_lookup h.owned h.context)]
    exact h.context
  have hconstant : runStatement helper? level env doc (Emit.constant (Emit.binding target)
      (Emit.call (Emit.name helper) ([Emit.name scope.anchor, Emit.name scope.context] ++ subject ++
        [Emit.object lowered.props]))) = .ok ((target, .node inner) :: env, doc₁) := by
    rw [runStatement_constant, hcreate]
    rfl
  refine ⟨.cons hconstant ?_, hfollows.mono hattributes.grows⟩
  exact runs_directives hattributes hfinal hknows hfollows.owned hcontext List.lookup_cons_self

theorem Ready.constructs_component {symbol base helper target : String}
    {attributes : List Attribute} {lowered : LoweredAttributes} {kind : ComponentKind}
    (h : Ready s scope level place env doc) (subject : List Node)
    (hbase : base ∈ Session.localBases) (hknows : Knows helper? final) (hfinal : s₃.Grows final)
    (hhelper : (require symbol).run s = (.ok helper, s₁))
    (htarget : (fresh base).run s₁ = (.ok target, s₂))
    (hattributes : LowersAttributes scope target s₂ attributes lowered s₃)
    (hcreated : created? symbol (subject ++ [Emit.object lowered.props]) =
      some (.component kind none)) :
    Constructs helper? s s₃ level place env doc (creation helper target scope subject lowered)
      [.component kind none] := by
  obtain ⟨inner, doc₁, hattach, hadds, -⟩ := attach_component h.isOpen kind
  obtain ⟨hruns, hfollows⟩ :=
    h.runs_creation subject hbase hknows hfinal hhelper htarget hattributes hcreated hattach
  exact ⟨_, _, hruns, hadds, hfollows⟩

theorem runBody_closureItems {slot : Scope} {items : List Node} {views : List View}
    (env : Bindings) (doc : Document) (henv : Owned s env)
    (hanchor : (fresh "root").run s = (.ok slot.anchor, s₁))
    (hcontext : (fresh "ctx").run s₁ = (.ok slot.context, s₂)) (hgrows : s₂.Grows s₃)
    (hitems : ∀ {level : Nat} {place : Place} {env : Bindings} {doc : Document},
      Ready s₃ slot level place env doc →
        Constructs helper? s₃ s' level place env doc items views) :
    ∃ root made,
      runBody helper? doc.length ((slot.context, .context doc.length) :: env) doc
          (closureItems slot.anchor items) = .ok (root, doc ++ made) ∧
        viewsUnder root (doc ++ made) = .ok views := by
  obtain ⟨hgrows₁, -, hroot, -⟩ := Session.of_run_fresh hanchor
  obtain ⟨hgrows₂, hfresh, -⟩ := Session.of_run_fresh hcontext
  have hne : slot.context ≠ slot.anchor := by
    intro heq
    exact hfresh (heq ▸ hroot)
  -- The context is bound first, by the parameter of the closure, and the
  -- anchor by its first statement.
  have howned : Owned s₂ ((slot.context, .context doc.length) :: env) :=
    (Follows.bind henv (by decide) hgrows₁ hcontext).owned
  have hdocument : List.lookup "document" ((slot.context, .context doc.length) :: env) = none :=
    lookup_eq_none_of_not_isLocal howned Session.not_isLocal_document
  have hready : Ready s₃ slot doc.length ⟨doc.length, []⟩
      ((slot.anchor, .node ⟨doc.length, []⟩) :: (slot.context, .context doc.length) :: env)
      (doc ++ [[]]) := by
    refine ⟨?_, List.lookup_cons_self, ?_, ⟨[], [], by simp, rfl⟩⟩
    · intro b hb
      rcases List.mem_cons.mp hb with rfl | hb
      · exact ⟨Session.isLocal_of_run_fresh (by decide) hanchor,
          (hgrows₂.trans hgrows).mem_used hroot⟩
      · exact ⟨(howned b hb).1, hgrows.mem_used (howned b hb).2⟩
    · rw [List.lookup_cons, beq_false_of_ne hne]
      exact List.lookup_cons_self
  obtain ⟨env', doc', hruns, ⟨views₀, views', made, hviews, happend, rfl⟩, hfollows⟩ :=
    hitems hready
  simp only [List.getElem?_concat_length, Option.some.injEq] at hviews
  subst hviews
  simp only [appendAt, List.nil_append, Option.some.injEq] at happend
  subst happend
  have hlookup : env'.lookup slot.anchor = some (.node ⟨doc.length, []⟩) := by
    rw [hfollows.lookup _ ((hgrows₂.trans hgrows).mem_used hroot)]
    exact List.lookup_cons_self
  have hdoc : (doc ++ [[]]).set doc.length views ++ made = doc ++ (views :: made) := by simp
  refine ⟨⟨doc.length, []⟩, views :: made, ?_, by simp [viewsUnder, viewsAt]⟩
  have hbody := ((Runs.single (runStatement_fragment slot.anchor hdocument)).append hruns)
    [Emit.made .returnStatement [Emit.name slot.anchor]]
  rw [hdoc] at hbody
  refine hbody.trans ?_
  simp only [Emit.made, runBody, nodeOf_name hlookup]
  rfl

end

/-- Statements that a job is lowered to add the views that it denotes, wherever they are run. -/
theorem Lowers.constructs {helper? : String → Option String} {final s s' : Session} {scope : Scope}
    {options : TextOptions} {job : Job} {items : List Node}
    (h : Lowers s scope options job items s') (hknows : Knows helper? final) :
    s'.Grows final → job.Listed final →
      ∀ {level : Nat} {place : Place} {env : Bindings} {doc : Document},
        Ready s scope level place env doc →
          Constructs helper? s s' level place env doc items (job.views options) := by
  induction h with
  | @leafElement _ _ _ _ _ _ tag _ _ _ _ htag hhelper htarget hattributes =>
      intro hfinal _ level place env doc hready
      obtain ⟨inner, doc₁, hattach, hopen, hinside⟩ := attach_element hready.isOpen tag.spelling
      obtain ⟨hruns, hfollows⟩ := hready.runs_creation [Emit.string tag.spelling] (by decide)
        hknows hfinal hhelper htarget hattributes rfl hattach
      refine ⟨_, _, hruns, ?_, hfollows⟩
      simpa [Job.views, Template.views, Template.viewsOfList, htag] using
        hinside [] doc₁ (.refl hopen)
  | @element _ _ _ _ _ _ _ _ tag _ _ _ _ target _ _ _ htag hhelper htarget hattributes htext hinner
      ih =>
      intro hfinal _ level place env doc hready
      obtain ⟨hgrows, hlisted⟩ := Session.of_run_require htext
      have hlater := hinner.grows.trans hfinal
      obtain ⟨inner, doc₁, hattach, hopen, hinside⟩ := attach_element hready.isOpen tag.spelling
      obtain ⟨hruns, hfollows⟩ := hready.runs_creation [Emit.string tag.spelling] (by decide)
        hknows (hgrows.trans hlater) hhelper htarget hattributes rfl hattach
      have hready' := hready.enter (hfollows.mono hgrows) hopen
      obtain ⟨env', doc', hruns', hadds, hfollows'⟩ := ih hfinal (hlater.entries _ hlisted) hready'
      refine ⟨env', doc', hruns.append hruns', ?_, ?_⟩
      · rw [Job.views_run, hattributes.options_eq] at hadds
        simpa [Job.views, Template.views, htag] using hinside _ _ hadds
      · have hbefore := ((Session.of_run_require hhelper).1.trans
          (Session.of_run_fresh htarget).1).trans hattributes.grows
        exact .trans (hbefore.trans hgrows) (hfollows.mono hgrows) hfollows'
  | @control _ _ _ _ _ _ tag _ _ control _ _ _ _ _ htag hcontrol hconstructor hhelper htarget
      hattributes =>
      intro hfinal _ level place env doc hready
      cases control with
      | conditional | loop =>
          cases hconstructor
          simpa [Job.views, Template.views, htag, hcontrol] using
            hready.constructs_component [] (by decide) hknows hfinal hhelper htarget hattributes rfl
      | fragment => cases hconstructor
  | splice htag hcontrol hown htext hinner ih =>
      intro hfinal _ level place env doc hready
      obtain ⟨hgrows, hlisted⟩ := Session.of_run_require htext
      obtain ⟨env', doc', hruns, hadds, hfollows⟩ :=
        ih hfinal ((hinner.grows.trans hfinal).entries _ hlisted) (hready.mono hgrows)
      refine ⟨env', doc', hruns, ?_, .trans hgrows (.refl hready.owned hgrows) hfollows⟩
      rw [Job.views_run, ownOptions_of_instructions hown] at hadds
      simpa [Job.views, Template.views, htag, hcontrol] using hadds
  | @leafComponent _ _ _ _ _ _ tag _ _ _ component _ htag hcontrol hcomponent hhelper htarget
      hattributes =>
      intro hfinal _ level place env doc hready
      simpa [Job.views, Template.views, htag, hcontrol, Tag.expression_of_component hcomponent]
        using
        hready.constructs_component [component] (by decide) hknows hfinal hhelper htarget
          hattributes rfl
  | @component _ _ _ _ _ _ _ _ _ slot _ tag _ _ _ _ _ _ component _ _ htag hcontrol hcomponent
      hhelper htarget hattributes hanchor hcontext htext hinner ih =>
      intro hfinal _ level place env doc hready
      obtain ⟨hgrows, hlisted⟩ := Session.of_run_require htext
      have hlater := hinner.grows.trans hfinal
      have hslot := (Session.of_run_fresh hanchor).1.trans (Session.of_run_fresh hcontext).1
      obtain ⟨inner, doc₁, hattach, hadds, hfill⟩ :=
        attach_component hready.isOpen (.custom component)
      obtain ⟨hruns, hfollows⟩ := hready.runs_creation [component] (by decide) hknows
        ((hslot.trans hgrows).trans hlater) hhelper htarget hattributes rfl hattach
      obtain ⟨root, made, hbody, hviews⟩ := runBody_closureItems _ _ hfollows.owned hanchor
        hcontext hgrows (fun hready' => ih hfinal (hlater.entries _ hlisted) hready')
      obtain ⟨doc₂, hchange, hadds₂⟩ := hfill _ made
      refine ⟨_, doc₂, hruns.append (.single (runStatement_slot List.lookup_cons_self hbody hviews
        hchange)), ?_, hfollows.mono ((hslot.trans hgrows).trans hinner.grows)⟩
      rw [Job.views_run, hattributes.options_eq] at hadds₂
      simpa [Job.views, Template.views, htag, hcontrol, Tag.expression_of_component hcomponent]
        using hadds₂
  | fragment htext hinner ih =>
      intro hfinal _ level place env doc hready
      obtain ⟨hgrows, hlisted⟩ := Session.of_run_require htext
      obtain ⟨env', doc', hruns, hadds, hfollows⟩ :=
        ih hfinal ((hinner.grows.trans hfinal).entries _ hlisted) (hready.mono hgrows)
      refine ⟨env', doc', hruns, ?_, .trans hgrows (.refl hready.owned hgrows) hfollows⟩
      rw [Job.views_run] at hadds
      simpa [Job.views, Template.views] using hadds
  | part value hhelper =>
      intro hfinal _ level place env doc hready
      have hgrows := (Session.of_run_require hhelper).1
      obtain ⟨doc', hchange, hadds⟩ := change_appendAt hready.isOpen
        [.part (reactiveValue value).1 (reactiveValue value).2]
      refine ⟨env, doc', .single ?_, ?_, .refl hready.owned hgrows⟩
      · rw [runStatement_call (helperOf_required hknows hready.owned hhelper hfinal)]
        simp [effect, Emit.array, Emit.made, checkContext_name hready.context,
          nodeOf_name hready.anchor, hchange, bind, Except.bind, Except.map]
      · simpa [Job.views, Template.views] using hadds
  | text s =>
      intro _ _ level place env doc hready
      exact ⟨env, doc, .nil, .refl hready.isOpen, .refl hready.owned (.refl s)⟩
  | nothing s =>
      intro _ _ level place env doc hready
      exact ⟨env, doc, .nil, .refl hready.isOpen, .refl hready.owned (.refl s)⟩
  | done s scope options helper pending =>
      intro _ hlisted level place env doc hready
      simpa [Job.views, Template.leadingText, Template.viewsOfList] using
        hready.constructs_flush hknows hlisted pending
  | gather _ ih =>
      intro hfinal hlisted level place env doc hready
      simpa [Job.views, Template.leadingText, Template.viewsOfList, Template.normalText,
        String.append_assoc] using ih hfinal hlisted hready
  | @next _ _ _ _ _ _ pending t ts _ _ htree hfirst hlater ihfirst ihlater =>
      intro hfinal hlisted level place env doc hready
      -- First the text that was gathered, then the template, then the ones behind it.
      obtain ⟨env₁, doc₁, hruns₁, hadds₁, hfollows₁⟩ :=
        hready.constructs_flush hknows hlisted pending
      have hready₁ := hready.follows hfollows₁ hadds₁
      obtain ⟨env₂, doc₂, hruns₂, hadds₂, hfollows₂⟩ :=
        ihfirst (hlater.grows.trans hfinal) trivial hready₁
      have hready₂ := hready₁.follows hfollows₂ hadds₂
      obtain ⟨env₃, doc₃, hruns₃, hadds₃, hfollows₃⟩ := ihlater hfinal hlisted hready₂
      refine ⟨env₃, doc₃, (hruns₁.append hruns₂).append hruns₃, ?_,
        .trans hfirst.grows (.trans (.refl _) hfollows₁ hfollows₂) hfollows₃⟩
      have hadds := (hadds₁.trans hadds₂).trans hadds₃
      rw [Job.views_run] at hadds
      cases t with
      | text raw => exact absurd rfl (htree raw)
      | element | fragment | part | nothing =>
          simpa [Job.views, Template.leadingText, Template.viewsOfList] using hadds

/-- Calling the closure that a template was lowered to builds the views that the template denotes,
in every session that can come up. The run does not get stuck: every node that it looks up is bound,
and the context that it hands over is the one of the closure it is in. -/
theorem build_lowerTemplate {t : Template} {closure : Node} {s s' : Session} (hs : s.Reachable)
    (h : (lowerTemplate t).run s = (.ok closure, s')) :
    build s'.imports.symbol? closure = .ok (t.views .root) := by
  have hspelt : s'.Spelt := by
    have hkept := Session.stable_spelt.lowerTemplate t s hs.spelt
    rwa [h] at hkept
  obtain ⟨scope, s₁, s₂, items, trace, hanchor, hcontext, hlowers, rfl⟩ := lowers_of_run_template h
  have hgrows : s₂.Grows { s₂ with trace } :=
    ⟨rfl, id, ⟨[], rfl, List.nodup_nil, by simp⟩, fun _ => id⟩
  obtain ⟨root, made, hbody, hviews⟩ := runBody_closureItems [] [] (by simp [Owned]) hanchor
    hcontext hgrows
    (fun hready => hlowers.constructs (knows_symbol? hspelt) (.refl s') trivial hready)
  have hbuild : build s'.imports.symbol? (Emit.closure scope.anchor scope.context items) =
      (runBody s'.imports.symbol? 0 [(scope.context, .context 0)] []
        (closureItems scope.anchor items)).bind fun made => viewsUnder made.1 made.2 := rfl
  rw [hbuild]
  simp only [List.length_nil, List.nil_append] at hbody hviews
  rw [hbody]
  exact hviews

/-- A list with an item that is a component, text on both sides of a value, and
the three control tags. -/
def sampleTemplate : Template :=
  .element (.plain ⟨⟨"ul".toList, by decide⟩, by decide⟩ ⟨1, 3⟩)
    [.named "on:click" (.expression (.reference "pick" ⟨14, 18⟩)) 4]
    [.text "a ", .part (.reference "count" ⟨23, 28⟩), .text " b",
     .element (.path (.reference "Item" ⟨33, 37⟩)) []
      [.fragment [.text "x",
        .element (.plain ⟨⟨"br".toList, by decide⟩, by decide⟩ ⟨42, 44⟩) [] []]],
     .element (.path (.reference "If" ⟨60, 62⟩))
      [.named "when" (.expression (.reference "open" ⟨69, 73⟩)) 63] [.text "x"],
     .element (.path (.reference "For" ⟨101, 104⟩))
      [.named "each" (.expression (.reference "items" ⟨111, 116⟩)) 105] [],
     .element (.path (.reference "Fragment" ⟨121, 129⟩)) []
      [.text "c", .element (.path (.reference "If" ⟨132, 134⟩)) [] []]]

theorem build_lowerTemplate_sampleTemplate :
    ∃ closure s', (lowerTemplate sampleTemplate).run
        (({ environment := "rumious" } : Session).enter (.leaf (.reference "_ele") ⟨0, 4⟩)) =
          (.ok closure, s') ∧
      build s'.imports.symbol? closure =
        .ok [.element "ul"
          [.text "a ", .part (.reference "count" ⟨23, 28⟩) [], .text " b",
           .component (.custom (.reference "Item" ⟨33, 37⟩))
            (some [.text "x", .element "br" []]),
           .component .conditional none, .component .loop none,
           .text "c", .component .conditional none]] := by
  have hok : ((lowerTemplate sampleTemplate).run
      (({ environment := "rumious" } : Session).enter (.leaf (.reference "_ele") ⟨0, 4⟩))).1.isOk =
        true := by
    decide +kernel
  cases hrun : (lowerTemplate sampleTemplate).run
      (({ environment := "rumious" } : Session).enter (.leaf (.reference "_ele") ⟨0, 4⟩)) with
  | mk result s' =>
      cases result with
      | error cause =>
          rw [hrun] at hok
          cases hok
      | ok closure => exact ⟨closure, s', rfl, build_lowerTemplate (.enter _ (.start _)) hrun⟩

end TemplateCompiler
