import TemplateCompiler.Proofs.Template.Accounting
import TemplateCompiler.Proofs.Template.Binding
import TemplateCompiler.Proofs.Template.Execution

namespace TemplateCompiler

open Collector Lower Node Session TemplateCompiler.Runtime

inductive Mark where
  /-- A use of a helper, by the symbol that it is imported as. -/
  | use (symbol : String)
  /-- A call that listens to an event, if the name of the event is a string. -/
  | event (name : Option String)
  /-- A literal that has not been replaced. -/
  | literal (n : Node)

namespace Mark

def use? : Mark → Option String
  | use symbol => some symbol
  | _ => none

def event? : Mark → Option (Option String)
  | event name => some name
  | _ => none

def literal? : Mark → Option Node
  | literal n => some n
  | _ => none

end Mark

def Node.text? (n : Node) : Option String :=
  match n.form with
  | .string text => some text
  | _ => none

/-- The symbol of the helper that a node is a use of. -/
def helperUse? (helper? : String → Option String) : Form → Option String
  | .reference name => helper? name
  | _ => none

/-- What a call of the helper with a symbol is handed at an index, if that is a string. -/
def handedText? (helper? : String → Option String) (symbol : String) (index : Nat) :
    Form → List Node → Option (Option String)
  | .call _ _, callee :: _ :: arguments =>
    if helperUse? helper? callee.form = some symbol then some (arguments[index]?.bind Node.text?)
    else none
  | _, _ => none

/-- What a call that listens to an event is handed for its name. -/
def eventCall? (helper? : String → Option String) : Form → List Node → Option (Option String) :=
  handedText? helper? "createEvent" 2

def ownMarks (helper? : String → Option String) (form : Form) (children : List Node) : List Mark :=
  ((helperUse? helper? form).map .use).toList ++
    ((eventCall? helper? form children).map .event).toList

namespace Node

mutual

/-- The marks of a tree, from left to right. -/
def marks (helper? : String → Option String) : Node → List Mark
  | node form span children =>
    if form.isMarkup then [.literal (node form span children)]
    else ownMarks helper? form children ++ marksOfList helper? children

def marksOfList (helper? : String → Option String) : List Node → List Mark
  | [] => []
  | n :: ns => marks helper? n ++ marksOfList helper? ns

end

/-- The uses of helpers in a tree, from left to right. -/
def helperUses (helper? : String → Option String) (n : Node) : List String :=
  n.nodes.filterMap fun m => helperUse? helper? m.form

/-- The names that the calls in a tree that listen to events are handed, from left to right. -/
def eventNames (helper? : String → Option String) (n : Node) : List (Option String) :=
  n.nodes.filterMap fun m => eventCall? helper? m.form m.children

end Node

section

variable {helper? : String → Option String} {symbol : String} {index : Nat}

theorem handedText?_of_isPlain {form : Form} (h : form.isPlain = true) (children : List Node) :
    handedText? helper? symbol index form children = none := by
  unfold handedText?
  split
  · cases h
  · rfl

theorem handedText?_reference (name : String) (children : List Node) :
    handedText? helper? symbol index (.reference name) children = none := rfl

theorem handedText?_helper {helper symbol' : String} (h : helper? helper = some symbol')
    (arguments : List Node) :
    handedText? helper? symbol index (.call false false)
      (Emit.name helper :: .absent :: arguments) =
      if symbol' = symbol then some (arguments[index]?.bind Node.text?) else none := by
  have huse : helperUse? helper? (Emit.name helper).form = some symbol' := h
  rw [handedText?, huse]
  simp only [Option.some.injEq]

theorem handedText?_member {callee : Node} (h : callee.form.isPlain = true)
    (arguments : List Node) :
    handedText? helper? symbol index (.call false false) (callee :: .absent :: arguments) =
      none := by
  refine if_neg ?_
  unfold helperUse?
  split
  · rename_i heq
    rw [heq] at h
    cases h
  · rintro ⟨⟩

theorem use?_ownMarks (form : Form) (children : List Node) :
    (ownMarks helper? form children).filterMap Mark.use? = (helperUse? helper? form).toList := by
  unfold ownMarks
  cases helperUse? helper? form <;> cases eventCall? helper? form children <;> rfl

theorem event?_ownMarks (form : Form) (children : List Node) :
    (ownMarks helper? form children).filterMap Mark.event? =
      (eventCall? helper? form children).toList := by
  unfold ownMarks
  cases helperUse? helper? form <;> cases eventCall? helper? form children <;> rfl

theorem literal?_ownMarks (form : Form) (children : List Node) :
    (ownMarks helper? form children).filterMap Mark.literal? = [] := by
  unfold ownMarks
  cases helperUse? helper? form <;> cases eventCall? helper? form children <;> rfl

theorem filterMap_cons_toList {α β : Type} (f : α → Option β) (a : α) (as : List α) :
    (a :: as).filterMap f = (f a).toList ++ as.filterMap f := by
  cases h : f a <;> simp [h]

mutual

theorem marks_of_literals : (n : Node) → n.literals = [] →
    (n.marks helper?).filterMap Mark.use? = n.helperUses helper? ∧
      (n.marks helper?).filterMap Mark.event? = n.eventNames helper?
  | .node form span children => by
      intro h
      unfold literals at h
      split at h
      · cases h
      · rename_i hform
        obtain ⟨huses, hevents⟩ := marksOfList_of_literals children h
        rw [marks, if_neg hform, helperUses, eventNames, nodes]
        simp only [List.filterMap_append, filterMap_cons_toList, use?_ownMarks, event?_ownMarks,
          huses, hevents]
        exact ⟨rfl, rfl⟩

theorem marksOfList_of_literals : (ns : List Node) → literalsOfList ns = [] →
    (marksOfList helper? ns).filterMap Mark.use? =
        (nodesOfList ns).filterMap (fun m => helperUse? helper? m.form) ∧
      (marksOfList helper? ns).filterMap Mark.event? =
        (nodesOfList ns).filterMap (fun m => eventCall? helper? m.form m.children)
  | [] => fun _ => ⟨rfl, rfl⟩
  | n :: ns => by
      intro h
      rw [literalsOfList, List.append_eq_nil_iff] at h
      obtain ⟨huses, hevents⟩ := marks_of_literals n h.1
      obtain ⟨huses', hevents'⟩ := marksOfList_of_literals ns h.2
      simp only [marksOfList, nodesOfList, List.filterMap_append, huses, hevents, huses', hevents']
      exact ⟨rfl, rfl⟩

end

def markCollector (helper? : String → Option String) : Collector Unit Mark where
  own _ form span children :=
    if form.isMarkup then [.literal (.node form span children)] else ownMarks helper? form children
  inner _ form _ := if form.isMarkup then none else some ()

theorem markCollector_agrees (helper? : String → Option String) :
    (markCollector helper?).Agrees (fun _ => marks helper?) fun _ => marksOfList helper? where
  node _ form span children := by
    cases hmarkup : form.isMarkup <;> simp [marks, markCollector, hmarkup]
  nil _ := rfl
  cons _ _ _ := rfl

theorem marks_eq_collect (n : Node) : n.marks helper? = (markCollector helper?).collect () n :=
  (markCollector_agrees helper?).eq_collect () n

theorem marksOfList_eq_collect (ns : List Node) :
    marksOfList helper? ns = (markCollector helper?).collectOfList () ns :=
  (markCollector_agrees helper?).eq_collectOfList () ns

end

def literalMarks (ns : List Node) : List Mark := (literalsOfList ns).map .literal

theorem literalMarks_append (ns ms : List Node) :
    literalMarks (ns ++ ms) = literalMarks ns ++ literalMarks ms := by
  rw [literalMarks, literalsOfList_append, List.map_append]
  rfl

theorem literalMarks_singleton (n : Node) : literalMarks [n] = n.literals.map .literal := by
  rw [literalMarks, literalsOfList, literalsOfList, List.append_nil]

/-- What made code reads like. -/
def markAccount : Account Mark where
  use symbol := [.use symbol]
  event name := [.event (some name)]
  text _ := []
  expression n := n.literals.map .literal

theorem flatMap_expression_markAccount (ns : List Node) :
    ns.flatMap markAccount.expression = literalMarks ns := by
  rw [literalMarks, literalsOfList_eq_flatMap, List.map_flatMap]
  rfl

/-- Helpers are known by the local names of a session, and by no name of a program or of a node. -/
structure Reads (helper? : String → Option String) (program : Node) (s : Session) : Prop where
  knows : Knows helper? s
  other : ∀ name, IsLocal name ∨ Known program name → helper? name = none

theorem reads_symbol? {program : Node} {s : Session} (hspelt : s.Spelt)
    (hminted : ∀ e ∈ s.imports.entries, ¬ Known program e.2) :
    Reads s.imports.symbol? program s := by
  refine ⟨knows_symbol? hspelt, fun name hname => ?_⟩
  unfold Imports.symbol?
  rw [Option.map_eq_none_iff, List.find?_eq_none]
  rintro e he heq
  obtain rfl : e.2 = name := by simpa using heq
  rcases hname with hlocal | hknown
  · exact hspelt.not_isLocal he hlocal
  · exact hminted e he hknown

/-- The names as they are read in a program. -/
def Lexicon.ofProgram (helper? : String → Option String) (program : Node) : Lexicon where
  Helper symbol name := helper? name = some symbol
  Local name := helper? name = none
  Written := Node.Within program

section

variable {helper? : String → Option String} {program : Node} {final : Session}

theorem Reads.helper (h : Reads helper? program final) {symbol helper : String} {s s' : Session}
    (hrun : (require symbol).run s = (.ok helper, s')) (hgrows : s'.Grows final) :
    helper? helper = some symbol :=
  (h.knows _ (hgrows.entries _ (of_run_require hrun).2)).1

theorem Reads.covers (h : Reads helper? program final) :
    (Lexicon.ofProgram helper? program).Covers final where
  helper := h.helper
  fresh hbase hrun := h.other _ (.inl (isLocal_of_run_fresh hbase hrun))
  parameter := h.other _ (.inr (.inr (.inr rfl)))
  document := h.other _ (.inr (.inr (.inl rfl)))

theorem Node.Within.dependency {n : Node} (h : Within program n) :
    ∀ p ∈ dependencies n, Within program p :=
  fun p hp _ hplace => h (within_of_mem_dependencies n p hp hplace)

theorem Reads.helperUse?_of_within (h : Reads helper? program final) {n : Node}
    (hn : Within program n) :
    helperUse? helper? n.form = none := by
  obtain ⟨form, span, children⟩ := n
  cases form with
  | reference name =>
      have hplace : (Form.reference name, span) ∈ program.identifiers :=
        (within_node_iff.mp hn).1 (by simp [identifiers, Form.identifier?])
      exact h.other name (.inr (.inl (mem_usedNames_of_mem_identifiers rfl program hplace)))
  | _ => rfl

theorem Reads.handedText?_of_within (h : Reads helper? program final) {children : List Node}
    (hchildren : ∀ n ∈ children, Within program n) (symbol : String) (index : Nat) (form : Form) :
    handedText? helper? symbol index form children = none := by
  unfold handedText?
  split
  · rename_i callee _ _
    simp [h.helperUse?_of_within (hchildren callee List.mem_cons_self)]
  · rfl

mutual

/-- What was written in the program reads like its literals. -/
theorem Reads.marks_of_within (h : Reads helper? program final) :
    (n : Node) → Within program n → n.marks helper? = n.literals.map .literal
  | .node form span children => by
      intro hn
      have hchildren := (within_node_iff.mp hn).2
      have huse : helperUse? helper? form = none := h.helperUse?_of_within hn
      have hevent : eventCall? helper? form children = none :=
        h.handedText?_of_within hchildren "createEvent" 2 form
      unfold marks literals
      split
      · rfl
      · rw [ownMarks, huse, hevent, h.marksOfList_of_within children hchildren]
        rfl

theorem Reads.marksOfList_of_within (h : Reads helper? program final) :
    (ns : List Node) → (∀ n ∈ ns, Within program n) → marksOfList helper? ns = literalMarks ns
  | [] => fun _ => rfl
  | n :: ns => by
      intro hns
      obtain ⟨hn, hrest⟩ := List.forall_mem_cons.mp hns
      rw [marksOfList, h.marks_of_within n hn, h.marksOfList_of_within ns hrest,
        ← literalMarks_singleton, ← literalMarks_append]
      rfl

end

theorem Reads.renders_marks (h : Reads helper? program final) :
    (markCollector helper?).Renders () markAccount (.ofProgram helper? program) where
  plain _ form span children hform := by
    have huse : helperUse? helper? form = none := by
      cases form with
      | reference name => cases hform
      | _ => rfl
    simp [markCollector, Form.isMarkup_of_isQuiet (Form.isQuiet_of_isPlain hform), ownMarks, huse,
      eventCall?, handedText?_of_isPlain hform]
  arrow _ _ := ⟨rfl, rfl⟩
  call _ := rfl
  helperName _ symbol name hname := by
    have huse : helperUse? helper? (.reference name) = some symbol := hname
    simp [markCollector, Form.isMarkup, ownMarks, huse, eventCall?, handedText?_reference,
      markAccount]
  localName _ name hname := by
    have huse : helperUse? helper? (.reference name) = none := hname
    simp [markCollector, Form.isMarkup, ownMarks, huse, eventCall?, handedText?_reference]
  callHelper _ symbol helper arguments hhelper hevent _ := by
    simp [markCollector, Form.isMarkup, ownMarks, helperUse?, eventCall?,
      handedText?_helper hhelper, hevent]
  callEvent _ _ _ _ event _ hhelper := by
    simp [markCollector, Form.isMarkup, ownMarks, helperUse?, eventCall?,
      handedText?_helper hhelper, markAccount]
    rfl
  callText _ _ _ _ hhelper := by
    simp [markCollector, Form.isMarkup, ownMarks, helperUse?, eventCall?,
      handedText?_helper hhelper, markAccount]
  callMember _ _ _ hcallee := by
    simp [markCollector, Form.isMarkup, ownMarks, helperUse?, eventCall?,
      handedText?_member hcallee]
  written n hn := by
    rw [← marks_eq_collect, h.marks_of_within n hn]
    rfl
  path n hn := by
    change n.literals.map Mark.literal = []
    rw [literals_of_isPath hn]
    rfl
  dependency _ hn := hn.dependency

def Template.outline (t : Template) : List Mark := markAccount.ofTemplate .root t

theorem marks_of_run_template {closure : Node} {s s' : Session} {t : Template}
    (h : (lowerTemplate t).run s = (.ok closure, s')) (hreads : Reads helper? program final)
    (hfinal : s'.Grows final) (ht : t.Within program) : closure.marks helper? = t.outline := by
  rw [marks_eq_collect]
  exact collect_of_run_template h hreads.renders_marks hreads.covers hfinal ht ()

end

/-- Marks and what becomes of them: every literal gives way to the outline of its template. -/
inductive Unfolds : List Mark → List Mark → Prop
  | nil : Unfolds [] []
  | keep {m : Mark} {rest rest' : List Mark} (hm : m.literal? = none) (hrest : Unfolds rest rest') :
      Unfolds (m :: rest) (m :: rest')
  | literal {n : Node} {rest marks : List Mark}
      (hmarks : Unfolds ((Template.ofNode n).outline ++ rest) marks) :
      Unfolds (.literal n :: rest) marks

theorem Unfolds.prepend {own later later' : List Mark} (hown : own.filterMap Mark.literal? = [])
    (h : Unfolds later later') : Unfolds (own ++ later) (own ++ later') := by
  rw [List.filterMap_eq_nil_iff] at hown
  induction own with
  | nil => exact h
  | cons m own ih =>
      rw [List.forall_mem_cons] at hown
      exact .keep hown.1 (ih hown.2)

theorem Images.text?_eq {n n' : Node} (h : Images [n] [n']) : n'.text? = n.text? := by
  cases h with
  | inner => rfl
  | @literal n _ _ _ _ _ _ _ _ hform _ _ _ =>
      obtain ⟨form, span, children⟩ := n
      cases form with
      | string text => cases hform
      | _ => rfl

theorem Images.helperUse?_eq {n n' : Node} (h : Images [n] [n'])
    (helper? : String → Option String) :
    helperUse? helper? n'.form = helperUse? helper? n.form := by
  cases h with
  | inner => rfl
  | @literal n _ _ _ _ _ _ _ _ hform _ _ _ =>
      obtain ⟨form, span, children⟩ := n
      cases form with
      | reference name => cases hform
      | _ => rfl

theorem Images.map_text? {ns ns' : List Node} (h : Images ns ns') :
    ns'.map text? = ns.map text? := by
  have hparts := h.forall₂
  induction hparts with
  | nil => rfl
  | cons hn _ ih =>
      cases h with
      | inner _ _ _ hrest | literal _ _ _ hrest =>
          rw [List.map_cons, List.map_cons, Images.text?_eq hn, ih hrest]

theorem Images.handedText?_eq {children images : List Node} (h : Images children images)
    (helper? : String → Option String) (symbol : String) (index : Nat) (form : Form) :
    handedText? helper? symbol index form images =
      handedText? helper? symbol index form children := by
  have hjoin : ∀ ns : List Node, ns[index]?.bind text? = (ns.map text?)[index]?.join := by
    intro ns
    rw [List.getElem?_map]
    cases ns[index]? <;> rfl
  have htexts := h.map_text?
  cases form with
  | call =>
      cases h.forall₂ with
      | nil => rfl
      | cons hcallee hrest =>
          cases hrest with
          | nil => rfl
          | cons _ _ =>
              simp only [List.map_cons, List.cons.injEq] at htexts
              simp only [handedText?, Images.helperUse?_eq hcallee, hjoin, htexts.2.2]
  | _ => rfl

theorem Images.ownMarks_eq {children images : List Node} (h : Images children images)
    (helper? : String → Option String) (form : Form) :
    ownMarks helper? form images = ownMarks helper? form children := by
  rw [ownMarks, ownMarks, eventCall?, h.handedText?_eq]

/-- A walk without failures unfolds the literals that it meets, whatever stands behind them. -/
theorem Walks.unfolds {helper? : String → Option String} {program : Node} {final : Session}
    {w w' : Walk} {ns ns' : List Node} (h : Walks w ns ns' w') (herrors : w'.errors = [])
    (hreads : Reads helper? program final) (hfinal : w'.session.Grows final)
    (hliterals : ∀ literal ∈ literalsOfList ns, Within program literal) :
    ∀ {later later' : List Mark}, Unfolds later later' →
      Unfolds (marksOfList helper? ns ++ later) (marksOfList helper? ns' ++ later') := by
  induction h with
  | nil => exact fun hlater => hlater
  | @inner _ _ _ form children images rest rest' span hform hchildren hrest ihchildren ihrest =>
      intro later later' hlater
      simp only [literalsOfList, literals, hform, Bool.false_eq_true, if_false,
        List.forall_mem_append] at hliterals
      have hbefore := hrest.errors_eq_nil herrors
      have hgrows := (hrest.keeps (stable_grows _) (.refl _)).trans hfinal
      have hinner :=
        ihchildren hbefore hgrows hliterals.1 (ihrest herrors hfinal hliterals.2 hlater)
      have hown := hinner.prepend (@literal?_ownMarks helper? form children)
      simpa [marksOfList, marks, hform, (hchildren.images hbefore).ownMarks_eq] using hown
  | @replaced w w₁ w₂ literal closure image rest rest' session hform hrun hclosure hrest ihclosure
      ihrest =>
      intro later later' hlater
      simp only [literalsOfList, literals_of_isMarkup hform, List.forall_mem_append,
        List.forall_mem_singleton]
        at hliterals
      have hbefore := hrest.errors_eq_nil herrors
      have hafter := (hrest.keeps (stable_grows _) (.refl _)).trans hfinal
      have hsession := (hclosure.keeps (stable_grows _) (.refl _)).trans hafter
      have ht := Template.within_ofNode.1 literal hliterals.1
      have hembedded : ∀ literal ∈ literalsOfList [closure], Within program literal := by
        rw [literalsOfList, literals_of_run_template hrun, literalsOfList, List.append_nil]
        exact literals_within (Template.of_mem_embedded _ ht)
      have hinner := ihclosure hbefore hafter hembedded (ihrest herrors hfinal hliterals.2 hlater)
      have hmarks : literal.marks helper? = [.literal literal] := by
        obtain ⟨form, span, children⟩ := literal
        exact if_pos hform
      simp only [marksOfList, marks_of_run_template hrun hreads hsession ht,
        List.append_nil] at hinner
      rw [marksOfList, marksOfList, hmarks, List.append_assoc, List.append_assoc]
      exact .literal hinner
  | failed _ _ hrest =>
      have hfail := hrest.errors_eq_nil herrors
      simp [Walk.fail] at hfail

/-- A finished program reads like its literals unfolded, with the use of the helper
for events behind them. -/
theorem unfolds_finished {environment : String} {prologue : Prologue} {span : Span}
    {statements images : List Node} {w : Walk} {helper : String} {s : Session}
    (hwalks : Walks (.start environment (.node (.program prologue) span statements)) statements
      images w)
    (herrors : w.errors = [])
    (hhelper : (require "eventDelegate").run w.session = (.ok helper, s)) :
    Reads s.imports.symbol? (.node (.program prologue) span statements) s ∧
      ∃ marks, Unfolds (literalMarks statements) marks ∧
        marksOfList s.imports.symbol? (images ++ [delegateStatement helper s.events]) =
          marks ++ [.use "eventDelegate"] ∧
        (finished prologue span images helper s).marks s.imports.symbol? =
          marks ++ [.use "eventDelegate"] := by
  obtain ⟨-, hstatements⟩ :=
    within_node_iff.mp (within_self (.node (.program prologue) span statements))
  have hclean := Walk.clean_start environment (.node (.program prologue) span statements)
  obtain ⟨_, _, -, hmints, -⟩ := hwalks.woven herrors hclean (.sources hstatements)
  obtain ⟨hmints', -⟩ := mints_require hmints.clean hhelper
  have hreads := reads_symbol? (spelt_of_walks hwalks hhelper) fun e he =>
    not_known_of_minted (underscore_of_walks hwalks hhelper) (hmints'.clean.minted_alias e he)
  have hunfolds := hwalks.unfolds herrors hreads hmints'.grows (literals_within hstatements) .nil
  rw [hreads.marksOfList_of_within statements hstatements, List.append_nil,
    List.append_nil] at hunfolds
  have hhelper' := hreads.helper hhelper (.refl s)
  refine ⟨hreads, _, hunfolds, ?_, ?_⟩
  · rw [marksOfList_eq_collect, marksOfList_eq_collect, collectOfList_append, collectOfList_cons,
      hreads.renders_marks.collect_delegateStatement hhelper']
    rfl
  · rw [marks_eq_collect, marksOfList_eq_collect, hreads.renders_marks.collect_finished hhelper']
    rfl

end TemplateCompiler
