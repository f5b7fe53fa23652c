import TemplateCompiler.Proofs.Grammar.Outcome
import TemplateCompiler.Proofs.Grammar.Skeleton
import TemplateCompiler.Proofs.Template.Program

namespace TemplateCompiler

open Scanner Text Grammar

theorem not_mem_of_underscore {words : List String}
    (hwords : words.all (fun w => w.toList.head? != some '_') = true) {name : String}
    (hname : name.toList.head? = some '_') : name ∉ words := by
  intro hmem
  have hhead := List.all_eq_true.mp hwords name hmem
  rw [hname] at hhead
  exact absurd hhead (by decide)

theorem FreshNames.plainName_spelling {base : String} (h : isName base.toList = true)
    (index : Nat) :
    PlainName (spelling base index) := by
  have hhead : (spelling base index).toList.head? = some '_' := by
    rw [toList_spelling]
    rfl
  exact ⟨isName_spelling (all_isNamePart_of_isName h) index,
    not_mem_of_underscore (by decide) hhead, not_mem_of_underscore (by decide) hhead⟩

namespace Snippet

/-- The value that stands in a text until another one is put in. -/
def nought : Node := Emit.made (.number "0") []

theorem statements_constText {name : String} (h : PlainName name) :
    statements (constText name) = .ok [Emit.constant (Emit.binding name) nought] := by
  have htext : (constText name).toList = constantChars ⟨name, h⟩ ('0' :: [';']) := by
    simp [constText, constantChars]
  refine statements_eq 1 (by rw [htext]; rfl) ?_ ?_ ?_
  · rw [htext]
    refine (reads_stepLimit (lexes_constantChars _ _)).mono fun limit hlimit => ?_
    simp only [List.length_cons, List.length_append] at hlimit
    omega
  · intro depth limit hlimit
    obtain ⟨rest, rfl, hread⟩ := reads_bodyItems (rulesTo (depth + 16)) place none
      (fun cs (items : List Unit) =>
        cs = items.foldr (fun _ rest => constantChars ⟨name, h⟩ ('0' :: ';' :: rest)) [])
      (fun _ => show (Emit.constant (Emit.binding name) nought).form ≠ .expressionStatement by
        intro hform
        cases hform)
      (by
        rintro cs rfl
        exact (reads_get lexes_nil).mono fun s hs => by simp [hs.kind_eq])
      (by
        rintro cs i items rfl
        refine ⟨⟨_, _, lexes_constantChars _ _⟩, _, rfl, ?_⟩
        exact reads_constantStatement (readsNames_rulesTo (depth + 14)) rfl
          (reads_operand_assignment (depth + 10) _ Atom.nought.operand (.semicolon _) (by decide))
          (by
            intro hform
            cases hform))
      [()] (constText name).toList true limit htext hlimit
    exact ⟨_, lexes_nil, hread⟩
  · simp [isStatement, Emit.constant, Emit.made, Node.form]

theorem constDeclaration_eq {name : String} (h : PlainName name) (value : Node) :
    constDeclaration name value = .ok (Emit.constant (Emit.binding name) value) := by
  simp only [constDeclaration, statements_constText h]
  rfl

theorem expression_of_arrow {code : String} {body : List Char} {value : Node} (ws : List Variable)
    (hcode : code.toList = arrowChars ws body)
    (hbody : ∀ depth, Reads (arrowBody (rulesTo (depth + 14)) place false) (' ' :: body)
      (fun n => n.erase = value) []) : expression code = .ok (arrowNode ws value) := by
  apply expression_eq
  intro depth
  rw [hcode]
  have harrow : Reads (assignmentRule (rulesTo (depth + 14)) place true) (arrowChars ws body)
      (fun n => n.erase = arrowNode ws value) [] :=
    reads_assignmentRule_arrow ws body (readsNames_rulesTo (depth + 13)) rfl (hbody depth)
  refine .bind reads_position fun start _ => .bind harrow fun n hn => ?_
  refine .bind (reads_atMark_stop .ending "," (by decide)) fun b hb => ?_
  subst hb
  exact reads_pure hn

theorem expression_of_operand {code : String} (ws : List Variable) (o : Operand)
    (hcode : code.toList = arrowChars ws o.chars) :
    expression code = .ok (arrowNode ws o.node) := by
  refine expression_of_arrow ws hcode fun depth => ?_
  rw [← List.append_nil o.chars]
  exact reads_arrowBody_expression (o.startsItem .ending) fun ctx =>
    reads_operand_assignment (depth + 9) ctx o .ending (by decide)

theorem expression_arrowText {name : String} (h : PlainName name) :
    expression (arrowText name) = .ok (Emit.arrow name nought) :=
  expression_of_operand [⟨name, h⟩] Atom.nought.operand
    (by simp [arrowText, arrowChars, Atom.chars_operand, Atom.chars])

theorem expression_arrowText_empty : expression (arrowText "") = .ok (thunk nought) :=
  expression_of_operand [] Atom.nought.operand
    (by simp [arrowText, arrowChars, Atom.chars_operand, Atom.chars])

theorem arrow_eq {name : String} (h : PlainName name) (body : Node) :
    arrow name body = .ok (Emit.arrow name body) := by
  unfold arrow
  rw [expression_arrowText h]
  rfl

theorem arrow_empty_eq (body : Node) : arrow "" body = .ok (thunk body) := by
  unfold arrow
  rw [expression_arrowText_empty]
  rfl

/-- The expression that makes a fragment. -/
def fragmentOperand : Operand :=
  { head := .name "document" (by decide)
    suffixes := [.member "createDocumentFragment" (by decide), .call []]
    head_ne := by simp }

def fragmentConstant (root : Variable) : StatementText where
  chars := constantChars root (fragmentOperand.chars ++ [';'])
  node := Emit.constant (Emit.binding root.1) fragmentOperand.node
  starts := ⟨_, ' ' :: (root.1.toList ++ ' ' :: '=' :: ' ' :: (fragmentOperand.chars ++ [';'])),
    fun rest => by
      rw [constantChars, List.append_assoc]
      exact lexes_word rfl rfl⟩
  form_ne := by
    intro hform
    cases hform

def rootReturn (root : Variable) : StatementText where
  chars := returnChars (root.1.toList ++ [';'])
  node := Emit.made .returnStatement [Emit.name root.1]
  starts := ⟨_, ' ' :: (root.1.toList ++ [';']), fun rest => by
    rw [returnChars, List.append_assoc]
    exact lexes_word rfl rfl⟩
  form_ne := by
    intro hform
    cases hform

theorem readBy_fragmentConstant (depth : Nat) {ctx : Context} (hctx : ctx.isTyped = false)
    (root : Variable) : (fragmentConstant root).ReadBy (rulesTo (depth + 6)) ctx := by
  intro rest
  have hchars : (fragmentConstant root).chars ++ rest =
      constantChars root (fragmentOperand.chars ++ ';' :: rest) := by
    simp [fragmentConstant, constantChars]
  rw [hchars]
  exact reads_constantStatement (readsNames_rulesTo (depth + 4)) hctx
    (reads_operand_assignment depth _ fragmentOperand (.semicolon rest) (by decide))
    (by
      intro hform
      cases hform)

theorem readBy_rootReturn (depth : Nat) {ctx : Context} (hctx : ctx.inFunction = true)
    (root : Variable) : (rootReturn root).ReadBy (rulesTo (depth + 7)) ctx := by
  intro rest
  have hchars : (rootReturn root).chars ++ rest =
      returnChars ((Atom.name root.1 root.2).operand.chars ++ ';' :: rest) := by
    simp [rootReturn, returnChars, Atom.chars_operand, Atom.chars]
  rw [hchars]
  refine reads_returnStatement hctx (Operand.startsItem _ (.semicolon rest)) ?_
    (reads_operand_expression depth _ _ (.semicolon rest) (by decide) (by decide))
  rw [Atom.chars_operand]
  exact sameLine_of_isName root.2.isName _

theorem expression_closureText {root context : String} (hroot : PlainName root)
    (hcontext : PlainName context) :
    expression (closureText root context) = .ok (Emit.closure root context []) := by
  have hbody : ∀ depth, Reads (arrowBody (rulesTo (depth + 14)) place false)
      (' ' :: '{' :: bodyChars [fragmentConstant ⟨root, hroot⟩, rootReturn ⟨root, hroot⟩] [])
      (fun n => n.erase = Emit.made .body
        ([fragmentConstant ⟨root, hroot⟩, rootReturn ⟨root, hroot⟩].map StatementText.node))
        [] := by
    intro depth
    refine .blank (.bind (reads_atMark (lexes_mark (by decide) _) _) fun b hb => ?_)
    subst hb
    refine reads_functionBodyRule (List.forall_mem_cons.mpr ⟨?_, List.forall_mem_singleton.mpr ?_⟩)
      []
    · exact readBy_fragmentConstant (depth + 7) rfl _
    · exact readBy_rootReturn (depth + 6) rfl _
  refine expression_of_arrow [⟨context, hcontext⟩] ?_ hbody
  simp [closureText, arrowChars, bodyChars, fragmentConstant, rootReturn, constantChars,
    returnChars, fragmentOperand, Operand.chars, Suffix.chars, Atom.chars]

/-- A closure can have every two minted names, and the statements stand where they are put. -/
theorem fragmentClosure_eq {root context : String} (hroot : PlainName root)
    (hcontext : PlainName context) (items : List Node) :
    fragmentClosure root context items = .ok (Emit.closure root context items) := by
  unfold fragmentClosure
  rw [expression_closureText hroot hcontext]
  rfl

/-- The text of a member, which is written in brackets where its name cannot
stand behind a point. -/
def accessText (object property : String) : String :=
  if isName property.toList then object ++ "." ++ property
  else object ++ "[" ++ Quoted.moduleText property ++ "]"

/-- The text of a function that writes a member. -/
def bindText (target property : String) : String :=
  "(value) => " ++ accessText target property ++ " = value"

/-- The text of a function that writes an attribute. -/
def attrText (target key : String) : String :=
  "(value) => " ++ target ++ ".setAttribute(" ++ Quoted.moduleText key ++ ", value)"

def accessOperand (object : Variable) (property : String) : Operand :=
  { head := .name object.1 object.2
    suffixes :=
      [if h : isName property.toList = true then .member property h else .index property]
    head_ne := by simp }

def attrOperand (target : Variable) (key : String) : Operand :=
  { head := .name target.1 target.2
    suffixes :=
      [.member "setAttribute" (by decide), .call [.text key, .name "value" (by decide)]]
    head_ne := by simp }

theorem chars_accessOperand (object : Variable) (property : String) :
    (accessOperand object property).chars = (accessText object.1 property).toList := by
  by_cases h : isName property.toList = true
  · simp [accessOperand, accessText, Operand.chars, Suffix.chars, Atom.chars, h]
  · simp [accessOperand, accessText, Operand.chars, Suffix.chars, Atom.chars, h]

theorem node_accessOperand (object : Variable) (property : String) :
    (accessOperand object property).node = Emit.access (Emit.name object.1) property := by
  by_cases h : isName property.toList = true
  · simp [accessOperand, Emit.access, Operand.node, Suffix.apply, Atom.node, h]
  · simp [accessOperand, Emit.access, Operand.node, Suffix.apply, Atom.node, h]

theorem isPlace_accessOperand (object : Variable) (property : String) :
    (accessOperand object property).isPlace = true := by
  by_cases h : isName property.toList = true
  · simp [Operand.isPlace, node_accessOperand, Emit.access, h, Emit.member, Node.member, Node.form]
  · simp [Operand.isPlace, node_accessOperand, Emit.access, h, Emit.made, Node.form]

theorem expression_accessText {object : String} (h : PlainName object) (property : String) :
    expression (accessText object property) = .ok (Emit.access (Emit.name object) property) := by
  apply expression_eq
  intro depth
  have hread :=
    reads_operand_expression (depth + 10) place (accessOperand ⟨object, h⟩ property) .ending
    (by decide) (by decide)
  rwa [List.append_nil, chars_accessOperand, node_accessOperand] at hread

theorem expression_bindText {target : String} (h : PlainName target) (property : String) :
    expression (bindText target property) = .ok (Emit.arrow "value" <|
      Emit.made (.assignment "=") [Emit.access (Emit.name target) property,
        Emit.name "value"]) := by
  have hvalue : PlainName "value" := by decide
  have hcode : (bindText target property).toList = arrowChars [⟨"value", hvalue⟩]
      ((accessOperand ⟨target, h⟩ property).chars ++ " = value".toList) := by
    rw [chars_accessOperand]
    simp [bindText, arrowChars]
  refine expression_of_arrow _ hcode fun depth => ?_
  refine reads_arrowBody_expression (Operand.startsItem _ (.equals _)) fun ctx => ?_
  have hread := reads_place_assignment (depth + 9) ctx (isPlace_accessOperand ⟨target, h⟩ property)
    (.name "value" hvalue) .ending (by decide)
  rwa [node_accessOperand] at hread

theorem expression_attrText {target : String} (h : PlainName target) (key : String) :
    expression (attrText target key) = .ok (Emit.arrow "value" <|
      Emit.call (Emit.member (Emit.name target) "setAttribute")
        [Emit.string key, Emit.name "value"]) :=
  expression_of_operand [⟨"value", by decide⟩] (attrOperand ⟨target, h⟩ key) (by
    simp [attrText, arrowChars, attrOperand, Operand.chars, Suffix.chars, Atom.chars])

end Snippet

end TemplateCompiler
