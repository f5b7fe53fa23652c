import Mathlib.Logic.Relation
import TemplateCompiler.Proofs.Template.Partition

namespace TemplateCompiler

open Lower Node

namespace Template

/-- Two templates that cannot be told apart by what is lowered, alone or in front of others. -/
structure Alike (t t' : Template) : Prop where
  tree : ∀ scope options, lowerTree scope options t = lowerTree scope options t'
  run : ∀ scope options helper pending rest,
    lowerRun scope options helper pending (t :: rest) =
    lowerRun scope options helper pending (t' :: rest)

def isText : Template → Bool
  | .text _ => true
  | _ => false

/-- The tag that is noted for the reader when a template is lowered. -/
def heading : Template → Option String
  | .element tag _ _ => some tag.spelling
  | _ => none

theorem lowerRun_cons {t : Template} (h : t.isText = false) (scope : Scope) (options : TextOptions)
    (helper pending : String) (rest : List Template) :
    lowerRun scope options helper pending (t :: rest) = do
      let first ← lowerTree scope options t
      let later ← lowerRun scope options helper "" rest
      return flush helper scope pending ++ first ++ later := by
  cases t with
  | text raw => cases h
  | element tag attributes children => rfl
  | fragment children => rfl
  | part value => rfl
  | nothing => rfl

namespace Alike

theorem equivalence : Equivalence Alike where
  refl _ := ⟨fun _ _ => rfl, fun _ _ _ _ _ => rfl⟩
  symm h := ⟨fun scope options => (h.tree scope options).symm,
    fun scope options helper pending rest => (h.run scope options helper pending rest).symm⟩
  trans h h' := ⟨fun scope options => (h.tree scope options).trans (h'.tree scope options),
    fun scope options helper pending rest =>
      (h.run scope options helper pending rest).trans (h'.run scope options helper pending rest)⟩

theorem of_tree {t t' : Template} (ht : t.isText = false) (ht' : t'.isText = false)
    (htree : ∀ scope options, lowerTree scope options t = lowerTree scope options t') :
    Alike t t' := by
  -- only text is gathered before it is lowered, so nothing else can be seen in a run
  refine ⟨htree, fun scope options helper pending rest => ?_⟩
  rw [lowerRun_cons ht, lowerRun_cons ht', htree]

variable {t t' : Template}

theorem lowerRun_append (h : Alike t t') (before after : List Template) (scope : Scope)
    (options : TextOptions) (helper pending : String) :
    lowerRun scope options helper pending (before ++ t :: after) =
      lowerRun scope options helper pending (before ++ t' :: after) := by
  induction before generalizing pending with
  | nil => exact h.run scope options helper pending after
  | cons first before ih =>
      cases hfirst : first.isText with
      | true =>
          cases first with
          | text raw => exact ih _
          | element | fragment | part | nothing => cases hfirst
      | false =>
          rw [List.cons_append, List.cons_append, lowerRun_cons hfirst, lowerRun_cons hfirst, ih]

theorem element (h : Alike t t') (tag : Tag) (attributes : List Attribute)
    (before after : List Template) :
    Alike (.element tag attributes (before ++ t :: after))
      (.element tag attributes (before ++ t' :: after)) := by
  refine of_tree rfl rfl fun scope options => ?_
  have hempty : ∀ u : Template, (before ++ u :: after).isEmpty = false := by simp
  simp only [lowerTree, hempty, h.lowerRun_append]

theorem fragment (h : Alike t t') (before after : List Template) :
    Alike (.fragment (before ++ t :: after)) (.fragment (before ++ t' :: after)) := by
  refine of_tree rfl rfl fun scope options => ?_
  simp only [lowerTree, h.lowerRun_append]

end Alike

end Template

/-- A pair of tags: what an element has besides its attributes and its children. -/
structure TagPair where
  tag : Node
  types : Node
  span : Span
  attributesSpan : Span
  childrenSpan : Span

namespace TagPair

def element (pair : TagPair) (attributes children : List Node) : Node :=
  .node .element pair.span
    [pair.tag, pair.types, .node .group pair.attributesSpan attributes,
      .node .group pair.childrenSpan children]

def control? (pair : TagPair) : Option ControlTag := (Tag.ofNode pair.tag).control?

theorem ofNode_element (pair : TagPair) (attributes children : List Node) :
    Template.ofNode (pair.element attributes children) =
      .element (.ofNode pair.tag) (attributes.map .ofNode) (Template.ofNodes children) := rfl

end TagPair

/-- A literal in which one part is put in the place of another: the literal itself, or what stands
between two of its tags, at any depth. An expression in a literal is no such part, and a literal in
an expression is one of its own. -/
inductive Node.Altered (r : Node → Node → Prop) : Node → Node → Prop
  | here {n n' : Node} (h : r n n') : Altered r n n'
  | element {n n' : Node} (pair : TagPair) (attributes before after : List Node)
      (h : Altered r n n') :
      Altered r (pair.element attributes (before ++ n :: after))
        (pair.element attributes (before ++ n' :: after))
  | fragment {n n' : Node} (span : Span) (before after : List Node) (h : Altered r n n') :
      Altered r (.node .fragment span (before ++ n :: after))
        (.node .fragment span (before ++ n' :: after))

theorem Template.ofNodes_append (ns ms : List Node) :
    ofNodes (ns ++ ms) = ofNodes ns ++ ofNodes ms := by
  induction ns with
  | nil => rfl
  | cons n ns ih => simp only [List.cons_append, ofNodes, ih]

section Altering

variable {r : Node → Node → Prop} {n n' : Node}

theorem Node.Altered.alike (hr : ∀ m m', r m m' → (Template.ofNode m).Alike (.ofNode m'))
    (h : Altered r n n') : (Template.ofNode n).Alike (.ofNode n') := by
  induction h with
  | here h => exact hr _ _ h
  | element pair attributes before after _ ih =>
      simpa only [TagPair.ofNode_element, Template.ofNodes_append, Template.ofNodes]
        using ih.element _ _ _ _
  | fragment span before after _ ih =>
      simpa only [Template.ofNode, Template.ofNodes_append, Template.ofNodes] using ih.fragment _ _

theorem alike_of_eqvGen (hr : ∀ m m', r m m' → (Template.ofNode m).Alike (.ofNode m'))
    (h : Relation.EqvGen (Altered r) n n') : (Template.ofNode n).Alike (.ofNode n') :=
  (Template.Alike.equivalence.comap Template.ofNode).eqvGen_iff.mp (h.mono fun _ _ h => h.alike hr)

theorem Node.Altered.heading_eq
    (hr : ∀ m m', r m m' → (Template.ofNode m).heading = (Template.ofNode m').heading)
    (h : Altered r n n') : (Template.ofNode n).heading = (Template.ofNode n').heading := by
  cases h with
  | here h => exact hr _ _ h
  | element => rfl
  | fragment => rfl

end Altering

theorem Lower.Composed.run_trace {α : Type} {x : Lower α} (h : x.Composed) (s : Session)
    (trace : List String) :
    ∃ trace', x.run { s with trace } = ((x.run s).1, { (x.run s).2 with trace := trace' }) := by
  induction h generalizing s trace with
  | pure a => exact ⟨trace, rfl⟩
  | check result =>
      cases result with
      | ok a => exact ⟨trace, rfl⟩
      | error cause => exact ⟨trace, rfl⟩
  | fresh name =>
      obtain ⟨environment, names, imports, events, noted⟩ := s
      rw [run_fresh, run_fresh]
      cases names with
      | none => exact ⟨trace, rfl⟩
      | some names => exact ⟨trace, rfl⟩
  | require hsymbol =>
      obtain ⟨environment, names, imports, events, noted⟩ := s
      rw [run_require, run_require]
      cases names with
      | none => exact ⟨trace, rfl⟩
      | some names => exact ⟨trace, rfl⟩
  | listen event => exact ⟨trace, rfl⟩
  | note line => exact ⟨trace ++ [line], rfl⟩
  | @bind _ _ x f _ _ ihx ihf =>
      obtain ⟨trace', hx⟩ := ihx s trace
      rw [run_bind, run_bind, hx]
      rcases x.run s with ⟨cause | a, s₁⟩
      · exact ⟨trace', rfl⟩
      · exact ihf a s₁ trace'

def announce (scope : Scope) : Option String → Lower Unit
  | some spelling => note ("[RumiousNative] Lowering <" ++ spelling ++ "> into " ++ scope.anchor)
  | none => pure ()

theorem exists_run_announce (scope : Scope) (heading : Option String) (s : Session) :
    ∃ trace, (announce scope heading).run s = (.ok (), { s with trace }) := by
  cases heading with
  | none => exact ⟨s.trace, rfl⟩
  | some spelling => exact ⟨_, rfl⟩

theorem lowerTemplate_eq_announce (t : Template) :
    lowerTemplate t = do
      let scope ← newScope
      announce scope t.heading
      let items ← lowerTree scope .root t
      return Emit.closure scope.anchor scope.context items := by
  cases t with
  | element tag attributes children => rfl
  | fragment children => rfl
  | text raw => rfl
  | part value => rfl
  | nothing => rfl

namespace Template.Alike

variable {t t' : Template}

theorem lowerTemplate_eq (h : Alike t t') (hheading : t.heading = t'.heading) :
    lowerTemplate t = lowerTemplate t' := by
  simp only [lowerTemplate_eq_announce, hheading, h.tree]

/-- Templates that are lowered alike become the same closure, or fail with the same cause, and leave
the same session behind, up to the line that names the tag of an element. -/
theorem exists_run_lowerTemplate (h : Alike t t') (s : Session) :
    ∃ trace, (lowerTemplate t').run s = (((lowerTemplate t).run s).1,
      { ((lowerTemplate t).run s).2 with trace }) := by
  rw [lowerTemplate_eq_announce, lowerTemplate_eq_announce, run_bind, run_bind]
  rcases newScope.run s with ⟨cause | scope, s₁⟩
  · exact ⟨s₁.trace, rfl⟩
  · obtain ⟨noted, hnoted⟩ := exists_run_announce scope t.heading s₁
    obtain ⟨noted', hnoted'⟩ := exists_run_announce scope t'.heading s₁
    have hcomposed : (lowerTree scope .root t >>= fun items =>
        (pure (Emit.closure scope.anchor scope.context items) : Lower Node)).Composed :=
      (composed_lowerTree scope .root t).bind fun _ => .pure _
    dsimp only
    rw [run_bind, run_bind, hnoted, hnoted', ← h.tree]
    exact hcomposed.run_trace { s₁ with trace := noted } noted'

end Template.Alike

/-- Elements that differ in a part that lowering leaves out: in the children of a conditional or a
loop, or in attributes of a fragment that are no instructions to the compiler. -/
inductive Node.DiffersInOmitted : Node → Node → Prop
  | children {pair : TagPair}
      (hcontrol : pair.control? = some .conditional ∨ pair.control? = some .loop)
      (attributes children children' : List Node) :
      DiffersInOmitted (pair.element attributes children) (pair.element attributes children')
  | attributes {pair : TagPair} (hcontrol : pair.control? = some .fragment)
      {attributes attributes' : List Node}
      (hkept : attributes.filter (fun a => (Attribute.ofNode a).isInstruction) =
        attributes'.filter fun a => (Attribute.ofNode a).isInstruction) (children : List Node) :
      DiffersInOmitted (pair.element attributes children) (pair.element attributes' children)

theorem instructions_filter (as : List Attribute) :
    instructions (as.filter Attribute.isInstruction) = instructions as := by
  induction as with
  | nil => rfl
  | cons a as ih =>
      cases a with
      | spread value => simpa [instructions, Attribute.isInstruction] using ih
      | named name value start =>
          cases hkind : AttributeKind.ofName name with
          | compile modifier =>
              have hkept : (Attribute.named name value start).isInstruction = true :=
                Attribute.isInstruction_named_iff.mpr ⟨modifier, hkind⟩
              rw [List.filter_cons_of_pos hkept]
              simp only [instructions, hkind, ih]
          | directive _ | prop =>
              have hleft : ¬(Attribute.named name value start).isInstruction = true := by
                simp [Attribute.isInstruction_named_iff, hkind]
              rw [List.filter_cons_of_neg hleft]
              simp only [instructions, hkind, ih]

theorem instructions_map_ofNode (attributes : List Node) :
    instructions (attributes.map Attribute.ofNode) =
      instructions ((attributes.filter fun a => (Attribute.ofNode a).isInstruction).map
        Attribute.ofNode) := by
  rw [← instructions_filter, List.filter_map]
  rfl

theorem lowerTree_fragmentTag {tag : Tag} (hcontrol : tag.control? = some .fragment) (scope : Scope)
    (options : TextOptions) (attributes : List Attribute) (children : List Template) :
    lowerTree scope options (.element tag attributes children) =
      check (instructions attributes) >>= fun own =>
        require "appendText" >>= fun text =>
          lowerRun scope (options.merge own) text "" children := by
  simp [lowerTree, Tag.isComponent_of_control? hcontrol, hcontrol, ControlTag.constructor?]

theorem lowerTree_dropsChildren {tag : Tag}
    (h : tag.control? = some .conditional ∨ tag.control? = some .loop) (scope : Scope)
    (options : TextOptions) (attributes : List Attribute) (children : List Template) :
    lowerTree scope options (.element tag attributes children) =
      lowerTree scope options (.element tag attributes []) := by
  rcases h with h | h
  · simp [lowerTree, Tag.isComponent_of_control? h, h, ControlTag.constructor?]
  · simp [lowerTree, Tag.isComponent_of_control? h, h, ControlTag.constructor?]

theorem Node.DiffersInOmitted.alike {n n' : Node} (h : DiffersInOmitted n n') :
    (Template.ofNode n).Alike (.ofNode n') := by
  cases h with
  | children hcontrol attributes children children' =>
      refine .of_tree rfl rfl fun scope options => ?_
      rw [TagPair.ofNode_element, TagPair.ofNode_element, lowerTree_dropsChildren hcontrol,
        ← lowerTree_dropsChildren hcontrol _ _ _ (Template.ofNodes children')]
  | @attributes _ hcontrol attributes attributes' hkept children =>
      refine .of_tree rfl rfl fun scope options => ?_
      have hown : instructions (attributes.map Attribute.ofNode) =
          instructions (attributes'.map Attribute.ofNode) := by
        rw [instructions_map_ofNode, hkept, ← instructions_map_ofNode]
      rw [TagPair.ofNode_element, TagPair.ofNode_element, lowerTree_fragmentTag hcontrol,
        lowerTree_fragmentTag hcontrol, hown]

theorem Node.DiffersInOmitted.heading_eq {n n' : Node} (h : DiffersInOmitted n n') :
    (Template.ofNode n).heading = (Template.ofNode n').heading := by
  cases h with
  | children => rfl
  | attributes => rfl

/-- Parts that are left out have no influence, whatever they hold: listeners, tags that are refused,
instructions that are not known. -/
theorem lowerTemplate_omits {literal literal' : Node}
    (h : Relation.EqvGen (Altered DiffersInOmitted) literal literal') (s : Session) :
    (lowerTemplate (.ofNode literal)).run s = (lowerTemplate (.ofNode literal')).run s := by
  have hsame : ∀ n n', Altered DiffersInOmitted n n' →
      lowerTemplate (.ofNode n) = lowerTemplate (.ofNode n') :=
    fun n n' h => (h.alike fun _ _ => DiffersInOmitted.alike).lowerTemplate_eq
      (h.heading_eq fun _ _ => DiffersInOmitted.heading_eq)
  have heq : lowerTemplate (.ofNode literal) = lowerTemplate (.ofNode literal') :=
    (eq_equivalence.comap fun n => lowerTemplate (.ofNode n)).eqvGen_iff.mp (h.mono hsame)
  rw [heq]

def sampleTags (name : String) :
    TagPair := ⟨.reference name ⟨1, 5⟩, .absent, ⟨0, 9⟩, ⟨5, 5⟩, ⟨6, 6⟩⟩

def sampleAttribute (space name : String) : Node :=
  .node .attribute ⟨5, 9⟩
    [.node .tagNamespace ⟨5, 7⟩ [.leaf (.tagName space) ⟨5, 6⟩, .leaf (.tagName name) ⟨6, 7⟩],
     .node .container ⟨8, 9⟩ [.reference "f" ⟨8, 9⟩]]

def sampleText : Node := .leaf (.text " a ") ⟨6, 8⟩

/-- A slot with a condition and a fragment in it. -/
def sampleSlot (condition attributes : List Node) : Node :=
  (sampleTags "Card").element []
    [(sampleTags "If").element [] condition,
     (sampleTags "Fragment").element (attributes ++
       [sampleAttribute "compile" "preserveWhitespace"]) [sampleText]]

/-- A component below a condition that would be refused and a listener on a
fragment, and neither of them. -/
theorem lowerTemplate_omits_sampleSlot :
    let s := ({ environment := "rumious" } : Session).enter (.reference "f" ⟨8, 9⟩)
    let full := sampleSlot [(sampleTags "Item").element [sampleAttribute "compile" "other"] []]
      [sampleAttribute "on" "tap"]
    let bare := sampleSlot [] []
    Relation.EqvGen (Altered DiffersInOmitted) full bare ∧
      (lowerTemplate (.ofNode full)).run s = (lowerTemplate (.ofNode bare)).run s ∧
      ((lowerTemplate (.ofNode full)).run s).1.isOk = true ∧
      ((lowerTemplate (.ofNode full)).run s).2.events = [] := by
  intro s full bare
  have hcondition : Altered DiffersInOmitted full (sampleSlot [] [sampleAttribute "on" "tap"]) :=
    .element _ _ [] _ (.here (.children (.inl rfl) _ _ _))
  have hfragment : Altered DiffersInOmitted (sampleSlot [] [sampleAttribute "on" "tap"]) bare :=
    .element _ _ [(sampleTags "If").element [] []] [] (.here (.attributes rfl (by rfl) _))
  have hsteps : Relation.EqvGen (Altered DiffersInOmitted) full bare :=
    .trans _ _ _ (.rel _ _ hcondition) (.rel _ _ hfragment)
  exact ⟨hsteps, lowerTemplate_omits hsteps s, by decide +kernel, by decide +kernel⟩

/-- A fragment that is written with its name and gives no instructions to the compiler, and
the same one without. -/
inductive Node.Unnames : Node → Node → Prop
  | intro {pair : TagPair} (hcontrol : pair.control? = some .fragment) {attributes : List Node}
      (hplain : ∀ a ∈ attributes, (Attribute.ofNode a).isInstruction = false) (children : List Node)
      (span : Span) :
      Unnames (pair.element attributes children) (.node .fragment span children)

theorem Node.Unnames.alike {n n' : Node} (h : Unnames n n') :
    (Template.ofNode n).Alike (.ofNode n') := by
  cases h with
  | @intro _ hcontrol attributes hplain children span =>
      refine .of_tree rfl rfl fun scope options => ?_
      have hown : instructions (attributes.map Attribute.ofNode) = .ok {} := by
        rw [instructions_map_ofNode, List.filter_eq_nil_iff.mpr (by simpa using hplain)]
        rfl
      have hoptions : options.merge {} = options := rfl
      rw [TagPair.ofNode_element, lowerTree_fragmentTag hcontrol, hown]
      simp only [check, pure_bind, hoptions, Template.ofNode, lowerTree]

/-- A fragment can be written with its name or without, at the root of a literal or at any depth
in it: the closure or the cause of failure is the same, and so is the session, up to what is
noted for the reader. -/
theorem lowerTemplate_unnames {literal literal' : Node}
    (h : Relation.EqvGen (Altered Unnames) literal literal') (s : Session) :
    ∃ trace, (lowerTemplate (.ofNode literal')).run s =
      (((lowerTemplate (.ofNode literal)).run s).1,
        { ((lowerTemplate (.ofNode literal)).run s).2 with trace }) :=
  (alike_of_eqvGen (fun _ _ => Unnames.alike) h).exists_run_lowerTemplate s

/-- Two fragments, one of which has its name: the outer one, or the inner one.
Only the reader can tell. -/
theorem lowerTemplate_unnames_sampleTags :
    let s := ({ environment := "rumious" } : Session).enter (.reference "f" ⟨8, 9⟩)
    let card := fun inner => (sampleTags "Card").element [] [sampleText, inner]
    let unnamed := Node.node .fragment ⟨0, 9⟩ [sampleText]
    let outer := (sampleTags "Fragment").element [] [card unnamed]
    let inner := Node.node .fragment ⟨0, 9⟩
      [card ((sampleTags "Fragment").element [sampleAttribute "on" "tap"] [sampleText])]
    Relation.EqvGen (Altered Unnames) outer inner ∧
      (∃ trace, (lowerTemplate (.ofNode inner)).run s =
        (((lowerTemplate (.ofNode outer)).run s).1,
          { ((lowerTemplate (.ofNode outer)).run s).2 with trace })) ∧
      ((lowerTemplate (.ofNode outer)).run s).1.isOk = true ∧
      ((lowerTemplate (.ofNode outer)).run s).2.trace =
      ["[RumiousNative] Lowering <Fragment> into _root"] ∧
      ((lowerTemplate (.ofNode inner)).run s).2.trace = [] := by
  intro s card unnamed outer inner
  have houter : Altered Unnames outer (.node .fragment ⟨0, 9⟩ [card unnamed]) :=
    .here (.intro rfl (by simp) _ _)
  have hinner : Altered Unnames inner (.node .fragment ⟨0, 9⟩ [card unnamed]) :=
    .fragment _ [] [] (.element _ _ [sampleText] [] (.here (.intro rfl (by decide +kernel) _ _)))
  have hsteps : Relation.EqvGen (Altered Unnames) outer inner :=
    .trans _ _ _ (.rel _ _ houter) (.symm _ _ (.rel _ _ hinner))
  exact ⟨hsteps, lowerTemplate_unnames hsteps s, by decide +kernel, by decide +kernel,
    by decide +kernel⟩

end TemplateCompiler
