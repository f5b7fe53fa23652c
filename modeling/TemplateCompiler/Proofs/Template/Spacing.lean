import TemplateCompiler.Proofs.Template.Lifetime
import TemplateCompiler.Proofs.Template.Delegation

namespace TemplateCompiler

open Collector Lower Node Session

/-- The treatment of white space inside tags with these attributes, the innermost tag first. -/
def modeWithin (around : List (List Attribute)) : SpaceMode :=
  (around.findSome? fun attributes => (ownOptions attributes).spaceMode).getD .preserve

/-- Texts that follow one another, and the attributes of the tags around them,
the innermost tag first. -/
structure TextRun where
  around : List (List Attribute)
  raws : List String

/-- What is appended for texts that follow one another. -/
def TextRun.content (run : TextRun) : String :=
  String.join (run.raws.map fun raw =>
    Text.normalize (modeWithin run.around) (Text.decodeEntities raw))

namespace Template

def leadingRaws : List Template → List String
  | .text raw :: rest => raw :: leadingRaws rest
  | _ => []

mutual

/-- The texts of a template inside other tags. Tags add their attributes to what stands
around; what has no tag of its own adds nothing, and what stands between the tags of a
conditional or a loop is not lowered. -/
def textRuns (around : List (List Attribute)) : Template → List TextRun
  | .element tag attributes children =>
    match tag.control? with
    | some .conditional => []
    | some .loop => []
    | _ => textRunsOfList (attributes :: around) false children
  | .fragment children => textRunsOfList around false children
  | _ => []

/-- The texts of children; `inText` if the child before was a text. -/
def textRunsOfList (around : List (List Attribute)) (inText : Bool) : List Template → List TextRun
  | [] => []
  | .text raw :: rest =>
    (if inText then [] else [⟨around, raw :: leadingRaws rest⟩]) ++ textRunsOfList around true rest
  | t :: rest => textRuns around t ++ textRunsOfList around false rest

end

end Template

/-- The contents of texts, where something is left of them. -/
def contents (runs : List TextRun) : List String :=
  (runs.map TextRun.content).filter fun text => !text.isEmpty

def Node.literalTexts (literal : Node) : List String :=
  contents ((Template.ofNode literal).textRuns [])

@[simp] theorem contents_nil : contents [] = [] := rfl

@[simp] theorem contents_append (runs later : List TextRun) :
    contents (runs ++ later) = contents runs ++ contents later := by
  simp [contents]

/-- The options that lowering goes on with inside tags. -/
def optionsWithin (around : List (List Attribute)) : TextOptions := ⟨some (modeWithin around)⟩

theorem merge_optionsWithin (around : List (List Attribute)) (attributes : List Attribute) :
    (optionsWithin around).merge (ownOptions attributes) =
      optionsWithin (attributes :: around) := by
  unfold optionsWithin TextOptions.merge modeWithin
  rw [List.findSome?_cons]
  cases (ownOptions attributes).spaceMode with
  | none => rfl
  | some mode => rfl

/-- What a call that appends a text is handed for it. -/
def appendCall? (helper? : String → Option String) : Form → List Node → Option (Option String) :=
  handedText? helper? "appendText" 1

namespace Node

/-- What the calls in trees that append texts are handed for them, from left to right. -/
def appendedOfList (helper? : String → Option String) (ns : List Node) : List (Option String) :=
  (nodesOfList ns).filterMap fun m => appendCall? helper? m.form m.children

/-- What the calls in a tree that append texts are handed for them, from left to right. -/
def appended (helper? : String → Option String) (n : Node) : List (Option String) :=
  n.nodes.filterMap fun m => appendCall? helper? m.form m.children

end Node

section

variable {helper? : String → Option String}

def textCollector (helper? : String → Option String) : Collector Unit (Option String) where
  own _ form _ children := (appendCall? helper? form children).toList
  inner _ _ _ := some ()

theorem textCollector_agrees (helper? : String → Option String) :
    (textCollector helper?).Agrees (fun _ => appended helper?) fun _ => appendedOfList helper? where
  node _ form span children := by
    rw [appended, nodes, filterMap_cons_toList]
    rfl
  nil _ := rfl
  cons _ n ns := by simp [appendedOfList, appended, nodesOfList]

theorem appended_eq_collect (n : Node) :
    n.appended helper? = (textCollector helper?).collect () n :=
  (textCollector_agrees helper?).eq_collect () n

theorem appendedOfList_eq_collect (ns : List Node) :
    appendedOfList helper? ns = (textCollector helper?).collectOfList () ns :=
  (textCollector_agrees helper?).eq_collectOfList () ns

@[simp] theorem appendedOfList_cons (n : Node) (ns : List Node) :
    appendedOfList helper? (n :: ns) = n.appended helper? ++ appendedOfList helper? ns :=
  (textCollector_agrees helper?).cons () n ns

theorem appended_node (form : Form) (span : Span) (children : List Node) :
    (Node.node form span children).appended helper? =
      (appendCall? helper? form children).toList ++ appendedOfList helper? children :=
  (textCollector_agrees helper?).node () form span children

variable {program : Node} {final : Session}

mutual

theorem Reads.appended_of_within (h : Reads helper? program final) :
    (n : Node) → Within program n → n.appended helper? = []
  | .node form span children => by
      intro hn
      have hchildren := (within_node_iff.mp hn).2
      have hcall : appendCall? helper? form children = none :=
        h.handedText?_of_within hchildren "appendText" 1 form
      rw [appended_node, hcall, h.appendedOfList_of_within children hchildren]
      rfl

theorem Reads.appendedOfList_of_within (h : Reads helper? program final) :
    (ns : List Node) → (∀ n ∈ ns, Within program n) → appendedOfList helper? ns = []
  | [] => fun _ => rfl
  | n :: ns => by
      intro hns
      obtain ⟨hn, hrest⟩ := List.forall_mem_cons.mp hns
      rw [appendedOfList_cons, h.appended_of_within n hn, h.appendedOfList_of_within ns hrest]
      rfl

end

/-- What made code appends. -/
def textAccount : Account (Option String) where
  use _ := []
  event _ := []
  text content := [some content]
  expression _ := []

theorem Reads.renders_texts (h : Reads helper? program final) :
    (textCollector helper?).Renders () textAccount (.ofProgram helper? program) where
  plain _ form span children hform := by
    simp [textCollector, appendCall?, handedText?_of_isPlain hform]
  arrow _ _ := ⟨rfl, rfl⟩
  call _ := rfl
  helperName _ _ _ _ := rfl
  localName _ _ _ := rfl
  callHelper _ symbol helper arguments hhelper _ htext := by
    simp [textCollector, appendCall?, handedText?_helper hhelper, htext]
  callEvent _ _ _ _ event _ hhelper := by
    simp [textCollector, appendCall?, handedText?_helper hhelper, textAccount]
  callText _ _ _ _ hhelper := by
    simp [textCollector, appendCall?, handedText?_helper hhelper, textAccount]
    rfl
  callMember _ _ _ hcallee := by
    simp [textCollector, appendCall?, handedText?_member hcallee]
  written n hn := by
    rw [← appended_eq_collect, h.appended_of_within n hn]
    rfl
  path _ _ := rfl
  dependency _ hn := hn.dependency

end

theorem ofText_textAccount (run : TextRun) :
    textAccount.ofText run.content = (contents [run]).map some := by
  unfold Account.ofText contents
  cases hempty : run.content.isEmpty with
  | true => simp [hempty]
  | false =>
      simp [hempty]
      rfl

theorem content_leadingRaws (around : List (List Attribute)) (ts : List Template) :
    TextRun.content ⟨around, Template.leadingRaws ts⟩ =
      Template.leadingText (optionsWithin around) ts := by
  induction ts with
  | nil => rfl
  | cons t ts ih =>
      cases t with
      | text raw =>
          rw [Template.leadingText, ← ih]
          simp [TextRun.content, Template.leadingRaws, Template.normalText, optionsWithin,
            TextOptions.mode]
      | element | fragment | part | nothing => rfl

theorem ofDirectives_textAccount (as : List Attribute) : textAccount.ofDirectives as = [] := by
  induction as with
  | nil => rfl
  | cons a as ih =>
      cases a with
      | spread value => exact ih
      | named name value start =>
          unfold Account.ofDirectives
          split
          · rw [ih]
            simp [Account.ofDirective, textAccount]
          · exact ih

theorem ofCreation_textAccount (symbol : String) (as : List Attribute) :
    textAccount.ofCreation symbol as = [] := by
  rw [Account.ofCreation, ofDirectives_textAccount]
  simp [textAccount]

mutual

/-- The texts of a template are treated as the tags around them ask for. Every tag that is entered
adds its attributes to `around`, as lowering merges them into the options. -/
theorem ofTemplate_textAccount (around : List (List Attribute)) : (t : Template) →
    textAccount.ofTemplate (optionsWithin around) t = (contents (t.textRuns around)).map some
  | .element tag attributes children => by
      have hchildren := ofTemplates_textAccount (attributes :: around) false children
      rw [← merge_optionsWithin] at hchildren
      unfold Account.ofTemplate Template.textRuns
      cases tag.control? with
      | none => simpa [ofCreation_textAccount] using hchildren
      | some control =>
          cases control with
          | conditional | loop => simp [ofCreation_textAccount]
          | fragment => exact hchildren
  | .fragment children => ofTemplates_textAccount around false children
  | .part value => rfl
  | .text _ => rfl
  | .nothing => rfl

theorem ofTemplates_textAccount (around : List (List Attribute)) (inText : Bool) :
    (ts : List Template) → textAccount.ofTemplates (optionsWithin around) inText ts =
      (contents (Template.textRunsOfList around inText ts)).map some
  | [] => rfl
  | t :: ts => by
      have hfirst := ofTemplate_textAccount around t
      have hrest := fun inText => ofTemplates_textAccount around inText ts
      cases t with
      | text raw =>
          have hrun := content_leadingRaws around (.text raw :: ts)
          rw [Template.leadingRaws, Template.leadingText] at hrun
          cases inText with
          | true => simp [Account.ofTemplates, Template.textRunsOfList, hrest]
          | false =>
              rw [Account.ofTemplates, Template.textRunsOfList, contents_append, List.map_append,
                ← hrest true, ← hrun, ofText_textAccount]
              rfl
      | element | fragment | part | nothing =>
          simp [Account.ofTemplates, Template.textRunsOfList, hfirst, hrest]

end

theorem appended_of_run_template {helper? : String → Option String} {program closure literal : Node}
    {final s s' : Session} (h : (lowerTemplate (.ofNode literal)).run s = (.ok closure, s'))
    (hreads : Reads helper? program final) (hfinal : s'.Grows final)
    (hliteral : Within program literal) :
    closure.appended helper? = literal.literalTexts.map some := by
  rw [appended_eq_collect, collect_of_run_template h hreads.renders_texts hreads.covers hfinal
    (Template.within_ofNode.1 literal hliteral)]
  exact ofTemplate_textAccount [] (.ofNode literal)

def textsOfLiterals (literals : List Node) : List (Option String) :=
  literals.flatMap fun literal => literal.literalTexts.map some

/-- A walk without failures adds the texts of the literals that are met where
its trees are visited. -/
theorem Walks.appended {helper? : String → Option String} {program : Node} {final : Session}
    {w w' : Walk} {ns ns' : List Node} (h : Walks w ns ns' w') (herrors : w'.errors = [])
    (hreads : Reads helper? program final) (hfinal : w'.session.Grows final)
    (hliterals : ∀ literal ∈ literalsOfList ns, Within program literal) {later met : List Node}
    (hvisits : Visits firstReported (literalsOfList ns ++ later) met []) :
    ∃ here there, met = here ++ there ∧ Visits firstReported later there [] ∧
      (appendedOfList helper? ns').Perm (appendedOfList helper? ns ++ textsOfLiterals here) := by
  induction h generalizing later met with
  | nil => exact ⟨[], met, rfl, hvisits, .refl _⟩
  | @inner _ _ _ form children images rest rest' span hform hchildren hrest ihchildren ihrest =>
      simp only [literalsOfList, literals, hform, Bool.false_eq_true, if_false,
        List.forall_mem_append, List.append_assoc] at hliterals hvisits
      have hbefore := hrest.errors_eq_nil herrors
      have hgrows := (hrest.keeps (stable_grows _) (.refl _)).trans hfinal
      obtain ⟨here, _, rfl, hvisits₁, hperm⟩ := ihchildren hbefore hgrows hliterals.1 hvisits
      obtain ⟨here', there, rfl, hvisits₂, hperm'⟩ := ihrest herrors hfinal hliterals.2 hvisits₁
      refine ⟨here ++ here', there, (List.append_assoc ..).symm, hvisits₂, ?_⟩
      rw [List.perm_iff_count] at hperm hperm' ⊢
      intro text
      have hcount := hperm text
      have hcount' := hperm' text
      simp only [appendedOfList_cons, appended_node, appendCall?,
        (hchildren.images hbefore).handedText?_eq, textsOfLiterals, List.flatMap_append,
        List.count_append] at hcount hcount' ⊢
      omega
  | @replaced w w₁ w₂ literal closure image rest rest' session hform hrun hclosure hrest ihclosure
      ihrest =>
      simp only [literalsOfList, literals_of_isMarkup hform, List.cons_append, List.nil_append,
        List.forall_mem_cons] at hliterals hvisits
      have hbefore := hrest.errors_eq_nil herrors
      have hafter := (hrest.keeps (stable_grows _) (.refl _)).trans hfinal
      have hsession := (hclosure.keeps (stable_grows _) (.refl _)).trans hafter
      have hembedded : literalsOfList [closure] =
          literalsOfList (Template.ofNode literal).embedded := by
        rw [literalsOfList, literals_of_run_template hrun, literalsOfList, List.append_nil]
      have hwithin : ∀ literal ∈ literalsOfList [closure], Within program literal := by
        rw [hembedded]
        exact literals_within
          (Template.of_mem_embedded _ (Template.within_ofNode.1 literal hliterals.1))
      cases hvisits with
      | clean _ hvisits =>
          obtain ⟨here, _, rfl, hvisits₁, hperm⟩ :=
            ihclosure hbefore hafter hwithin (hembedded ▸ hvisits)
          obtain ⟨here', there, rfl, hvisits₂, hperm'⟩ := ihrest herrors hfinal hliterals.2 hvisits₁
          refine ⟨literal :: (here ++ here'), there, by simp, hvisits₂, ?_⟩
          rw [List.perm_iff_count] at hperm hperm' ⊢
          intro text
          have hcount := hperm text
          have hcount' := hperm' text
          simp only [appendedOfList_cons, show appendedOfList helper? [] = [] from rfl,
            appended_of_run_template hrun hreads hsession hliterals.1,
            hreads.appended_of_within literal hliterals.1, textsOfLiterals, List.flatMap_cons,
            List.flatMap_append, List.count_append, List.append_nil,
            List.nil_append] at hcount hcount' ⊢
          omega
  | failed _ _ hrest =>
      have hfail := hrest.errors_eq_nil herrors
      simp [Walk.fail] at hfail

/-- A session that has entered a program reads none of its names as a helper, nor any name of a tree
that has no other names. -/
theorem Session.Entered.reads {program n : Node} {s : Session} (h : s.Entered program)
    (hnames : n.usedNames ⊆ program.usedNames) : Reads s.imports.symbol? n s := by
  refine reads_symbol? h.spelt fun e he => ?_
  have hunderscore := h.keeps (stable_underscore program.usedNames) fun _ _ hname => .inl hname
  have hknown := not_known_of_minted hunderscore (h.clean.minted_alias e he)
  exact fun hn => hknown (hn.imp_left fun hname => hnames hname)

/-- The texts that are appended, by the closure of a literal and by a compiled program, are those of
the literals, each treated as the tags around it in its own literal ask for. -/
theorem texts_spacedByTags (environment : String) (prologue : Prologue) (span : Span)
    (statements : List Node) :
    (∀ (program literal closure : Node) (s s' : Session), s.Entered program →
      literal.usedNames ⊆ program.usedNames →
      (lowerTemplate (.ofNode literal)).run s = (.ok closure, s') →
        closure.appended s'.imports.symbol? = literal.literalTexts.map some) ∧
    ((transform environment (.node (.program prologue) span statements)).errors = [] →
      ((transform environment (.node (.program prologue) span statements)).program.appended
        (transform environment
          (.node (.program prologue) span statements)).session.imports.symbol?).Perm
          (textsOfLiterals (Node.node (.program prologue) span statements).survivors)) := by
  constructor
  · intro program literal closure s s' hs hnames hrun
    have hs' : s'.Entered program := by simpa only [hrun] using hs.lower (.ofNode literal)
    exact appended_of_run_template hrun (hs'.reads hnames) (.refl s') (within_self literal)
  · intro h
    obtain ⟨images, w, hwalks,
        ⟨herrors, hresult⟩ | ⟨herrors, helper, s, trace, hhelper, hresult⟩⟩ :=
      transform_cases environment prologue span statements
    · rw [hresult] at h
      exact absurd h herrors
    · obtain ⟨-, hstatements⟩ :=
        within_node_iff.mp (within_self (.node (.program prologue) span statements))
      obtain ⟨hreads, -⟩ := unfolds_finished hwalks herrors hhelper
      obtain ⟨met, -, hvisits⟩ := hwalks.lowersEach herrors rfl
      have hvisits' : Visits firstReported (literalsOfList statements) met [] := by
        simpa using hvisits .nil
      have hmet : met.Perm (Node.node (.program prologue) span statements).survivors :=
        Visits.perm_survivors hvisits'
      obtain ⟨here, there, hsplit, hthere, hperm⟩ :=
        hwalks.appended herrors hreads (of_run_require hhelper).1
        (literals_within hstatements) (hvisits .nil)
      cases hthere
      rw [List.append_nil, List.append_nil] at hsplit
      rw [hreads.appendedOfList_of_within statements hstatements, List.nil_append,
        ← hsplit] at hperm
      rw [hresult]
      simp only
      rw [appended_eq_collect, hreads.renders_texts.collect_finished
        (hreads.helper hhelper (.refl s)), ← appendedOfList_eq_collect]
      simp only [textAccount, List.append_nil]
      exact hperm.trans (hmet.flatMap_right _)

/-- The attribute that asks for a treatment of white space, with or without a value. -/
def sampleSpacing (value : Node) : Node :=
  .node .attribute ⟨0, 9⟩
    [.node .tagNamespace ⟨0, 5⟩ [.leaf (.tagName "compile") ⟨0, 2⟩,
      .leaf (.tagName "preserveWhitespace") ⟨3, 5⟩], value]

/-- A component with attributes and something between its tags. -/
def sampleComponent (name : String) (attributes children : List Node) : Node :=
  .node .element ⟨0, 9⟩ [.reference name ⟨1, 2⟩, .absent, .node .group ⟨3, 4⟩ attributes,
    .node .group ⟨4, 5⟩ children]

/-- A literal whose white space is collapsed, except inside the component with an instruction of its
own. Between the tags of a fragment without a name there is another literal, and a fragment by name
takes the last of its instructions. -/
def spacedLiteral : Node :=
  sampleComponent "Card" [sampleSpacing (.node .container ⟨0, 1⟩ [.leaf (.boolean false) ⟨0, 1⟩])]
    [.leaf (.text " a  b ") ⟨0, 1⟩,
     sampleComponent "Item" [sampleSpacing .absent] [.leaf (.text " c  d ") ⟨0, 1⟩],
     .node .fragment ⟨0, 1⟩ [.leaf (.text " e  f ") ⟨0, 1⟩,
       .node .container ⟨0, 1⟩ [sampleComponent "Item" [] [.leaf (.text " g  h ") ⟨0, 1⟩]]],
     sampleComponent "Fragment" [sampleSpacing .absent,
       sampleSpacing (.leaf (.string "smart") ⟨0, 1⟩)]
      [.leaf (.text " i\n  j ") ⟨0, 1⟩],
     .leaf (.text " k  l ") ⟨0, 1⟩]

def spacedStatements : List Node := [.node .expressionStatement ⟨0, 99⟩ [spacedLiteral]]

theorem texts_spacedByTags_spacedLiteral :
    ((transform "rumious" (.node (.program {}) ⟨0, 99⟩ spacedStatements)).errors = [] ∧
      ((transform "rumious" (.node (.program {}) ⟨0, 99⟩ spacedStatements)).program.appended
        (transform "rumious"
          (.node (.program {}) ⟨0, 99⟩ spacedStatements)).session.imports.symbol?).Perm
          (["a b", " c  d ", "e f", "i j", "k l", " g  h "].map some)) ∧
    ∃ closure s', (lowerTemplate (.ofNode spacedLiteral)).run
        (({ environment := "rumious" } : Session).enter
          (.node (.program {}) ⟨0, 99⟩ spacedStatements)) =
          (.ok closure, s') ∧
      closure.appended s'.imports.symbol? = ["a b", " c  d ", "e f", "i j", "k l"].map some := by
  have herrors : (transform "rumious" (.node (.program {}) ⟨0, 99⟩ spacedStatements)).errors =
      [] := by
    decide +kernel
  have htexts : textsOfLiterals (Node.node (.program {}) ⟨0, 99⟩ spacedStatements).survivors =
      ["a b", " c  d ", "e f", "i j", "k l", " g  h "].map some := by
    decide +kernel
  have hown : spacedLiteral.literalTexts = ["a b", " c  d ", "e f", "i j", "k l"] := by
    decide +kernel
  have hok :
      ((lowerTemplate (.ofNode spacedLiteral)).run (({ environment := "rumious" } : Session).enter
      (.node (.program {}) ⟨0, 99⟩ spacedStatements))).1.isOk = true := by
    decide +kernel
  obtain ⟨hlowered, happended⟩ := texts_spacedByTags "rumious" {} ⟨0, 99⟩ spacedStatements
  have hperm := happended herrors
  rw [htexts] at hperm
  refine ⟨⟨herrors, hperm⟩, ?_⟩
  rcases hrun : (lowerTemplate (.ofNode spacedLiteral)).run
    (({ environment := "rumious" } : Session).enter
      (.node (.program {}) ⟨0, 99⟩ spacedStatements)) with ⟨cause | closure, s'⟩
  · rw [hrun] at hok
    cases hok
  · have hclosure := hlowered _ _ _ _ _ (.start "rumious") (by decide +kernel) hrun
    rw [hown] at hclosure
    exact ⟨closure, s', rfl, hclosure⟩

end TemplateCompiler
