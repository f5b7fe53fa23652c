import TemplateCompiler.Proofs.Grammar.Operand

namespace TemplateCompiler.Grammar

open Scanner Text

theorem eraseList_append (ns ms : List Node) :
    Node.eraseList (ns ++ ms) = Node.eraseList ns ++ Node.eraseList ms := by
  induction ns with
  | nil => rfl
  | cons n ns ih => simp [Node.eraseList, ih]

section

variable (rules : Rules) {ctx : Context} (hctx : ctx.isTyped = false) (cs : List Char)
include hctx

theorem reads_untyped : Reads ( typeAnnotation rules ctx) cs (fun n => n = .absent) cs := by
  refine .bind (quiet_atMark _).reads fun _ _ => ?_
  rw [hctx]
  exact reads_pure rfl

theorem reads_untyped_result :
    Reads ( resultAnnotation rules ctx) cs (fun n => n = .absent) cs := by
  refine .bind (quiet_atMark _).reads fun _ _ => ?_
  rw [hctx]
  exact reads_pure rfl

theorem reads_untyped_generics :
    Reads (typeParameters? rules ctx) cs (fun n => n = .absent) cs := by
  refine .bind (quiet_atMark _).reads fun _ _ => ?_
  rw [hctx]
  exact reads_pure rfl

end

/-- The name of a variable. -/
abbrev Variable := {w : String // PlainName w}

def parameterNode (w : Variable) : Node :=
  Emit.made (.parameter {}) [Emit.binding w.1, .absent, .absent]

def parametersNode (ws : List Variable) : Node :=
  Emit.made .parameters (ws.map parameterNode)

/-- Rules that read a name where a pattern may stand. -/
def ReadsNames (rules : Rules) : Prop :=
  ∀ (ctx : Context) {w : String} {rest : List Char}, PlainName w → endsName rest = true →
    Reads (rules ctx .pattern) (w.toList ++ rest) (fun n => n.erase = Emit.binding w) rest

theorem readsNames_rulesTo (depth : Nat) : ReadsNames (rulesTo (depth + 1)) := by
  intro ctx w rest hw h
  have hlexes := lexes_word hw.isName h
  refine .bind reads_position fun start _ => ?_
  refine .bind (reads_atMark hlexes _) fun b hb => ?_
  subst hb
  refine .bind (reads_atMark hlexes _) fun b hb => ?_
  subst hb
  exact reads_bindingName ctx hw h

theorem reads_eatMark_equals {rest : List Char} {m : String} (hstop : Stop rest m) (hm : m ≠ "=") :
    Reads (eatMark "=") rest (fun b => b = false) rest := by
  refine .bind (reads_atMark_stop hstop "=" (by decide)) fun b hb => ?_
  rw [beq_false_of_ne hm] at hb
  subst hb
  exact reads_pure rfl

theorem reads_parameter {rules : Rules} (hrules : ReadsNames rules) {ctx : Context}
    (hctx : ctx.isTyped = false) (w : Variable) {rest : List Char} {m : String}
    (hstop : Stop rest m) (hm : m ≠ "=") :
    Reads (parameter rules ctx) (w.1.toList ++ rest) (fun n => n.erase = parameterNode w) rest := by
  have hlexes := lexes_word w.2.isName hstop.endsName
  refine .bind reads_position fun start _ => ?_
  refine .bind (reads_eatMark_other hlexes rfl) fun b hb => ?_
  subst hb
  refine .bind (quiet_atWord _).reads fun _ _ => ?_
  simp only [hctx, Bool.false_and, Bool.false_eq_true, if_false, pure_bind]
  refine .bind (hrules ctx w.2 hstop.endsName) fun target htarget => ?_
  refine .bind (reads_untyped rules hctx _) fun type htype => ?_
  subst htype
  refine .bind (reads_eatMark_equals hstop hm) fun b hb => ?_
  subst hb
  refine (reads_finish _ _ _).mono fun n hn => ?_
  obtain ⟨span, rfl⟩ := hn
  simp only [Node.erase, Node.eraseList, htarget]
  rfl

theorem stop_variables (ws : List Variable) (rest : List Char) :
    ∃ m, Stop (following (·.1.toList) ws (')' :: rest)) m ∧ (m = ")" ∨ m = ",") := by
  cases ws with
  | nil => exact ⟨_, .parenthesis rest, .inl rfl⟩
  | cons w ws => exact ⟨_, .comma _, .inr rfl⟩

theorem reads_parameterList {rules : Rules} (hrules : ReadsNames rules) {ctx : Context}
    (hctx : ctx.isTyped = false) (ws : List Variable) (rest : List Char) :
    Reads (parameterList rules ctx)
      ('(' :: ([',', ' '].intercalate (ws.map (·.1.toList)) ++ ')' :: rest))
      (fun n => n.erase = parametersNode ws) rest := by
  have hclose : Lexes (')' :: rest) .punctuator [')'] rest := lexes_mark (by decide) rest
  have hitems : Reads (commaItems ")" (parameter rules { ctx with allowIn := true }))
      ([',', ' '].intercalate (ws.map (·.1.toList)) ++ ')' :: rest)
      (fun ns => List.Forall₂ (fun w n => n.erase = parameterNode w) ws ns) (')' :: rest) := by
    refine reads_commaItems (by decide) hclose rfl ?_
    rintro before w after rfl
    obtain ⟨m, hstop, hm⟩ := stop_variables after rest
    have hstart := lexes_word w.2.isName hstop.endsName
    refine ⟨⟨_, _, _, hstart, by decide, by decide, by decide⟩,
      reads_parameter hrules ?_ w hstop ?_⟩
    · exact hctx
    · rcases hm with rfl | rfl <;> decide
  refine .bind reads_position fun start _ => ?_
  refine .bind (.bind (reads_expectMark (lexes_mark (by decide) _) rfl) fun _ _ =>
    .bind hitems fun ns hns => .bind (reads_expectMark hclose rfl) fun _ _ =>
    reads_pure hns) fun ns hns => ?_
  refine (reads_finish _ _ _).mono fun n hn => ?_
  obtain ⟨span, rfl⟩ := hn
  simp only [Node.erase, eraseList_of_forall₂ hns]
  rfl

/-- An arrow function as it is written: its parameters, and the text of its body. -/
def arrowChars (ws : List Variable) (body : List Char) : List Char :=
  '(' :: ([',', ' '].intercalate (ws.map (·.1.toList)) ++ ')' :: ' ' :: '=' :: '>' :: ' ' :: body)

def arrowNode (ws : List Variable) (body : Node) : Node :=
  Emit.made (.arrow {}) [.absent, parametersNode ws, .absent, body]

theorem reads_takeArrow (rest : List Char) :
    Reads takeArrow (' ' :: '=' :: '>' :: rest) (fun _ => True) rest := by
  have hlexes := lexes_blank (lexes_arrow rest)
  have hline := (sameLine_of_startsToken (show startsToken '=' = true from rfl) ('>' :: rest)).blank
  refine .bind (reads_sameLine hline) fun t ht => ?_
  rw [ht, Bool.and_false]
  exact reads_expectMark hlexes rfl

section

variable {rules : Rules} {ctx : Context} (ws : List Variable) (body : List Char)

theorem lexes_arrowChars : Lexes (arrowChars ws body) .punctuator ['(']
    ([',', ' '].intercalate (ws.map (·.1.toList)) ++ ')' :: ' ' :: '=' :: '>' :: ' ' :: body) :=
  lexes_mark (by decide) _

theorem reads_guessArrowHere :
    Reads (guessArrowHere ctx) (arrowChars ws body) (fun guess => guess ≠ .no)
      ([',', ' '].intercalate (ws.map (·.1.toList)) ++ ')' :: ' ' :: '=' :: '>' :: ' ' ::
        body) := by
  have hopen := lexes_arrowChars ws body
  refine .bind (reads_atMark hopen _) fun b hb => ?_
  subst hb
  refine .bind (reads_advance hopen) fun _ _ => ?_
  cases ws with
  | nil =>
      have hclose : Lexes (')' :: ' ' :: '=' :: '>' :: ' ' :: body) .punctuator [')']
          (' ' :: '=' :: '>' :: ' ' :: body) := lexes_mark (by decide) _
      refine .bind (reads_current hclose) fun second hsecond => ?_
      refine .bind (reads_peek hclose (lexes_blank (lexes_arrow _))) fun third hthird => ?_
      have hmark : second.isMark ")" = true := by
        simp [Token.isMark, hsecond.kind_eq, hsecond.text_eq]
      have harrow : third.isMark "=>" = true := by
        simp [Token.isMark, hthird.kind_eq, hthird.text_eq]
      simp only [hmark, harrow, Bool.or_true, Bool.true_or, if_true]
      exact reads_pure (by decide)
  | cons w ws =>
      rw [intercalate_cons]
      obtain ⟨m, hstop, hm⟩ := stop_variables ws (' ' :: '=' :: '>' :: ' ' :: body)
      have hword := lexes_word w.2.isName hstop.endsName
      refine .bind (reads_current hword) fun second hsecond => ?_
      refine .bind (reads_peek_stop hword hstop) fun third hthird => ?_
      have hmark : ∀ mark, second.isMark mark = false := fun mark => by
        simp [Token.isMark, hsecond.kind_eq]
      have hcolon : third.isMark ":" = false := hthird.isMark_eq_false (by decide)
      have hquestion : third.isMark "?" = false := hthird.isMark_eq_false (by decide)
      have hlast : (third.isMark "," || third.isMark "=" || third.isMark ")") = true := by
        rw [hthird.isMark_eq _ (by decide), hthird.isMark_eq _ (by decide),
          hthird.isMark_eq _ (by decide)]
        rcases hm with rfl | rfl <;> rfl
      simp only [hmark, hcolon, hquestion, hlast,
        isVariable_of_matches w.2 hsecond, Bool.true_or, Bool.not_true, Bool.or_self,
        Bool.false_eq_true, if_false, if_true]
      exact reads_pure (by decide)

theorem reads_guessArrow :
    Reads (guessArrow ctx) (arrowChars ws body) (fun guess => guess ≠ .no)
      (arrowChars ws body) := by
  refine .bind (reads_current (lexes_arrowChars ws body)) fun t ht => ?_
  have hmark : t.isMark "(" = true := by simp [Token.isMark, ht.kind_eq, ht.text_eq]
  simp only [hmark, Bool.true_or, if_true]
  refine .bind (reads_guessArrowHere ws body).lookahead fun answer hanswer => ?_
  obtain ⟨guess, rfl, hguess⟩ := hanswer
  exact reads_pure hguess

theorem reads_arrowHead (hrules : ReadsNames rules) (hctx : ctx.isTyped = false) :
    Reads (arrowHead rules ctx) (arrowChars ws body)
      (fun head => head.1 = false ∧ Node.eraseList head.2 = [.absent, parametersNode ws, .absent])
      (' ' :: body) := by
  have hopen := lexes_arrowChars ws body
  refine .bind (reads_eatWord_other hopen rfl) fun isAsync hasync => ?_
  subst hasync
  refine .bind (reads_untyped_generics rules ?_ _) fun generics hgenerics => ?_
  · exact hctx
  refine .bind (reads_parameterList hrules ?_ ws _) fun params hparams => ?_
  · exact hctx
  refine .bind (reads_untyped_result rules ?_ _) fun result hresult => ?_
  · exact hctx
  refine .bind (reads_takeArrow _) fun _ _ => reads_pure ⟨rfl, ?_⟩
  subst hgenerics
  subst hresult
  rw [Node.eraseList, Node.eraseList, hparams]
  rfl

theorem reads_arrow {value : Node} {rest : List Char} (hrules : ReadsNames rules)
    (hctx : ctx.isTyped = false)
    (hbody : Reads (arrowBody rules ctx false) (' ' :: body) (fun n => n.erase = value) rest) :
    Reads (arrow? rules ctx true) (arrowChars ws body)
      (fun answer => ∃ n, answer = some n ∧ n.erase = arrowNode ws value) rest := by
  have hhead := reads_arrowHead ws body hrules hctx
  have hfrom : ∀ start head, head.1 = false →
      Node.eraseList head.2 = [.absent, parametersNode ws, .absent] →
      Reads (arrowFrom rules ctx start head) (' ' :: body) (fun n => n.erase = arrowNode ws value)
        rest := by
    rintro start ⟨isAsync, parts⟩ rfl hparts
    refine .bind hbody fun n hn => (reads_finish _ _ _).mono fun f hf => ?_
    obtain ⟨span, rfl⟩ := hf
    rw [Node.erase, eraseList_append, hparts, Node.eraseList, hn]
    rfl
  refine .bind reads_position fun start _ => .bind (reads_guessArrow ws body) fun guess hguess => ?_
  cases guess with
  | no => exact absurd rfl hguess
  | yes =>
      refine .bind hhead fun head hhead => ?_
      exact .bind (hfrom start head hhead.1 hhead.2) fun n hn => reads_pure ⟨n, rfl, hn⟩
  | maybe =>
      refine .bind (reads_notArrows (lexes_arrowChars ws body)) fun s hs => ?_
      simp only [hs, List.contains_nil, Bool.false_eq_true, if_false]
      refine .bind hhead.attempt fun answer hanswer => ?_
      obtain ⟨head, rfl, hhead⟩ := hanswer
      exact .bind (hfrom start head hhead.1 hhead.2) fun n hn => reads_pure ⟨n, rfl, hn⟩

theorem reads_assignmentRule_arrow {value : Node} {rest : List Char} (hrules : ReadsNames rules)
    (hctx : ctx.isTyped = false)
    (hbody : Reads (arrowBody rules ctx false) (' ' :: body) (fun n => n.erase = value) rest) :
    Reads (assignmentRule rules ctx true) (arrowChars ws body)
      (fun n => n.erase = arrowNode ws value)
      rest := by
  have hopen := lexes_arrowChars ws body
  refine .bind reads_position fun start _ => .bind (reads_current hopen) fun t ht => ?_
  have hword : ∀ word, t.isWord word = false := fun word => by simp [Token.isWord, ht.kind_eq]
  refine .bind quiet_peek.reads fun _ _ => ?_
  have hasync : Reads (asyncSimpleArrow? rules ctx) (arrowChars ws body)
      (fun answer => answer = none)
      (arrowChars ws body) := by
    refine .bind (reads_current hopen) fun t' ht' => ?_
    have hword' : t'.isWord "async" = false := by simp [Token.isWord, ht'.kind_eq]
    rw [hword']
    exact reads_pure rfl
  simp only [hword, Bool.false_and, Bool.false_eq_true, if_false, ht.silent, ht.unmarked]
  refine .bind hasync fun answer hanswer => ?_
  subst hanswer
  refine .bind (reads_arrow ws body hrules hctx hbody) fun answer hanswer => ?_
  obtain ⟨n, rfl, hn⟩ := hanswer
  exact reads_pure hn

end

theorem reads_arrowBody_expression {rules : Rules} {ctx : Context} {cs rest : List Char}
    {good : Node → Prop} (hstart : StartsItem cs)
    (hread : ∀ ctx : Context, Reads (rules ctx .assignment) cs good rest) :
    Reads (arrowBody rules ctx false) (' ' :: cs) good rest := by
  obtain ⟨kind, text, after, hlexes, hkind, -, -⟩ := hstart
  refine .blank (.bind (reads_atMark hlexes _) fun b hb => ?_)
  have hopen : b = false := by simp [hb, hkind]
  subst hopen
  exact hread _

theorem Operand.startsItem (o : Operand) {rest : List Char} {m : String} (hstop : Stop rest m) :
    StartsItem (o.chars ++ rest) := by
  rw [Operand.chars, List.append_assoc]
  exact Atom.startsItem (o.endsBefore hstop)

/-- A statement as it is written. It starts with a word, and is not taken for a directive. -/
structure StatementText where
  chars : List Char
  node : Node
  starts : ∃ word after, ∀ rest, Lexes (chars ++ rest) .word word (after ++ rest)
  form_ne : node.form ≠ .expressionStatement

/-- The rules read a statement as it is written. -/
def StatementText.ReadBy (rules : Rules) (ctx : Context) (t : StatementText) : Prop :=
  ∀ rest, Reads (rules ctx .statement) (t.chars ++ rest) (fun n => n.erase = t.node) rest

/-- The statements of a body, each with a blank in front, and the brace that closes it. -/
def bodyChars (ts : List StatementText) (rest : List Char) : List Char :=
  ts.foldr (fun t r => ' ' :: (t.chars ++ r)) (' ' :: '}' :: rest)

theorem lexes_bodyChars_cons (t : StatementText) (ts : List StatementText) (rest : List Char) :
    ∃ word after, Lexes (bodyChars (t :: ts) rest) .word word (after ++ bodyChars ts rest) := by
  obtain ⟨word, after, hlexes⟩ := t.starts
  exact ⟨word, after, lexes_blank (hlexes _)⟩

theorem length_bodyChars (ts : List StatementText) (rest : List Char) :
    ts.length < (bodyChars ts rest).length := by
  induction ts with
  | nil => simp [bodyChars]
  | cons t ts ih =>
      simp only [bodyChars, List.foldr_cons, List.length_cons, List.length_append] at ih ⊢
      omega

theorem reads_stepLimit_bodyChars (ts : List StatementText) (rest : List Char) :
    Reads stepLimit (bodyChars ts rest) (fun limit => ts.length < limit) (bodyChars ts rest) := by
  cases ts with
  | nil =>
      have hclose : Lexes (' ' :: '}' :: rest) .punctuator ['}'] rest :=
        lexes_blank (lexes_mark (by decide) rest)
      exact (reads_stepLimit hclose).mono fun limit hlimit => Nat.zero_lt_of_lt hlimit
  | cons t ts =>
      obtain ⟨word, after, hlexes⟩ := lexes_bodyChars_cons t ts rest
      have hlength := length_bodyChars ts rest
      refine (reads_stepLimit hlexes).mono fun limit hlimit => ?_
      simp only [List.length_append, List.length_cons] at hlimit ⊢
      omega

theorem reads_functionBodyRule {rules : Rules} {ctx : Context} {ts : List StatementText}
    (hts : ∀ t ∈ ts, t.ReadBy rules { ctx with allowIn := true, inFunction := true })
    (rest : List Char) :
    Reads (functionBodyRule rules ctx) ('{' :: bodyChars ts rest)
      (fun n => n.erase = Emit.made .body (ts.map StatementText.node)) rest := by
  have hclose : Lexes (' ' :: '}' :: rest) .punctuator ['}'] rest :=
    lexes_blank (lexes_mark (by decide) rest)
  refine .bind reads_position fun start _ => ?_
  refine .bind (reads_expectMark (lexes_mark (by decide) _) rfl) fun _ _ => ?_
  refine .bind (reads_stepLimit_bodyChars ts rest) fun limit hlimit => ?_
  obtain ⟨after, ⟨rfl, -⟩, hitems⟩ := reads_bodyItems rules
    { ctx with allowIn := true, inFunction := true } (some "\x7d")
    (fun cs ts => cs = bodyChars ts rest ∧
      ∀ t ∈ ts, t.ReadBy rules { ctx with allowIn := true, inFunction := true })
    StatementText.form_ne
    (by
      rintro cs ⟨rfl, -⟩
      refine (reads_get hclose).mono fun s hs => ?_
      simp [Token.isMark, hs.kind_eq, hs.text_eq])
    (by
      rintro cs t ts ⟨rfl, hts⟩
      obtain ⟨ht, hrest⟩ := List.forall_mem_cons.mp hts
      obtain ⟨word, after, hlexes⟩ := lexes_bodyChars_cons t ts rest
      exact ⟨⟨_, _, hlexes⟩, _, ⟨rfl, hrest⟩, (ht _).blank⟩)
    ts _ true limit ⟨rfl, hts⟩ hlimit
  refine .bind hitems fun ns hns => .bind (reads_expectMark hclose rfl) fun _ _ => ?_
  refine (reads_finish _ _ _).mono fun n hn => ?_
  obtain ⟨span, rfl⟩ := hn
  rw [Node.erase, hns]
  rfl

theorem quiet_atLet : Quiet atLet := by
  unfold atLet
  refine (quiet_atWord _).bind fun isLet => .ite (quiet_pure _) ?_
  exact quiet_peek.bind fun next => quiet_pure _

theorem quiet_atTypeDeclaration (depth : Nat) : Quiet (atTypeDeclaration depth) := by
  cases depth with
  | zero => exact quiet_pure _
  | succ depth =>
      unfold atTypeDeclaration
      refine quiet_current.bind fun t => quiet_peek.bind fun next => .ite (quiet_pure _) ?_
      refine .ite (quiet_pure _) ?_
      split
      case h_9 => exact .ite (quiet_pure _) ((quiet_lookahead _).bind fun answer => quiet_pure _)
      all_goals exact quiet_pure _

def constantChars (w : Variable) (value : List Char) : List Char :=
  ['c', 'o', 'n', 's', 't'] ++ ' ' :: (w.1.toList ++ ' ' :: '=' :: ' ' :: value)

theorem lexes_constantChars (w : Variable) (value : List Char) :
    Lexes (constantChars w value) .word ['c', 'o', 'n', 's', 't']
      (' ' :: (w.1.toList ++ ' ' :: '=' :: ' ' :: value)) := lexes_word rfl rfl

section

variable {rules : Rules} {ctx : Context} {w : Variable} {value : Node} {cs rest : List Char}

theorem reads_declarator (hrules : ReadsNames rules) (hctx : ctx.isTyped = false)
    (hvalue : Reads (rules ctx .assignment) cs (fun n => n.erase = value) rest)
    (hpresent : value.form ≠ .absent) :
    Reads (declarator rules ctx .constVar true) (w.1.toList ++ ' ' :: '=' :: ' ' :: cs)
      (fun n => n.erase = Emit.made (.declarator false) [Emit.binding w.1, .absent, value])
        rest := by
  refine .bind reads_position fun start _ => .bind (hrules ctx w.2 rfl) fun target htarget => ?_
  refine .bind (quiet_atMark _).reads fun _ _ => ?_
  simp only [hctx, Bool.false_and, Bool.false_eq_true, if_false, pure_bind]
  refine .bind (reads_untyped rules hctx _) fun type htype => ?_
  subst htype
  refine .bind (reads_eatMark (lexes_blank (lexes_equals cs)) rfl) fun b hb => ?_
  subst hb
  refine .bind hvalue.blank fun n hn => ?_
  have hn' : n.isAbsent = false := by
    rw [Node.isAbsent, show n.form = n.erase.form by cases n; rfl, hn]
    exact beq_false_of_ne hpresent
  refine .bind (reads_finish _ _ _) fun node hnode => ?_
  simp only [hn', Bool.and_false, Bool.false_and, Bool.false_eq_true, if_false]
  refine reads_pure ?_
  obtain ⟨span, rfl⟩ := hnode
  simp only [Node.erase, Node.eraseList, htarget, hn]
  rfl

theorem reads_variableStatement (start : Nat) (hrules : ReadsNames rules)
    (hctx : ctx.isTyped = false)
    (hvalue : Reads (rules ctx .assignment) cs (fun n => n.erase = value) (';' :: rest))
    (hpresent : value.form ≠ .absent) :
    Reads (variableStatement rules ctx start false) (constantChars w cs)
      (fun n => n.erase = Emit.constant (Emit.binding w.1) value) rest := by
  have hconst := lexes_constantChars w cs
  have hend : Lexes (';' :: rest) .punctuator [';'] rest := lexes_mark (by decide) rest
  have hkind : Reads variableKind (constantChars w cs) (fun kind => kind = .constVar)
      (' ' :: (w.1.toList ++ ' ' :: '=' :: ' ' :: cs)) := by
    refine .bind (reads_eatWord hconst (by decide)) fun b hb => ?_
    subst hb
    exact reads_pure rfl
  have hlist : Reads (commaSeparated (declarator rules ctx .constVar true))
      (' ' :: (w.1.toList ++ ' ' :: '=' :: ' ' :: cs))
      (fun ns => Node.eraseList ns =
        [Emit.made (.declarator false) [Emit.binding w.1, .absent, value]]) (';' :: rest) := by
    refine .bind (reads_declarator hrules hctx hvalue hpresent).blank fun n hn => ?_
    refine .bind (reads_many_none hend (.bind (reads_eatMark_other hend rfl) fun b hb => ?_))
      fun more hmore => reads_pure ?_
    · subst hb
      exact reads_pure rfl
    · subst hmore
      rw [Node.eraseList, hn]
      rfl
  have hdeclaration : Reads (variableList rules ctx start false true) (constantChars w cs)
      (fun n => n.erase = Emit.constant (Emit.binding w.1) value) (';' :: rest) := by
    refine .bind hkind fun kind hkind => ?_
    subst hkind
    refine .bind hlist fun ns hns => (reads_finish _ _ _).mono fun n hn => ?_
    obtain ⟨span, rfl⟩ := hn
    rw [Node.erase, hns]
    rfl
  refine .bind hdeclaration fun n hn => .bind (reads_endStatement hend) fun _ _ => ?_
  intro s hs
  refine ⟨_, s, rfl, hs, ?_⟩
  obtain ⟨form, span, children⟩ := n
  exact hn

theorem reads_constantStatement (hrules : ReadsNames rules) (hctx : ctx.isTyped = false)
    (hvalue : Reads (rules { ctx with allowIn := true } .assignment) cs (fun n => n.erase = value)
      (';' :: rest))
    (hpresent : value.form ≠ .absent) :
    Reads (statementRule rules ctx) (constantChars w cs)
      (fun n => n.erase = Emit.constant (Emit.binding w.1) value) rest := by
  have hconst := lexes_constantChars w cs
  have hplain : Reads (plainStatement rules ctx) (constantChars w cs)
      (fun n => n.erase = Emit.constant (Emit.binding w.1) value) rest := by
    refine .bind reads_position fun start _ => .bind (reads_current hconst) fun t ht => ?_
    have htext : t.text = "const" := ht.text_eq.trans (by decide)
    have hmark : ∀ mark, t.isMark mark = false := fun mark => by simp [Token.isMark, ht.kind_eq]
    have hword : (t.kind != .word || t.isEscaped) = false := by simp [ht.kind_eq, ht.plain]
    simp only [hmark, hword, htext, keywordStatement?, Bool.false_eq_true, if_false]
    refine .bind quiet_peek.reads fun _ _ => .bind quiet_peek.reads fun _ _ => ?_
    refine .bind (quiet_atTypeDeclaration 4).reads fun isType _ => ?_
    have huntyped : (ctx.isTyped && isType) = false := by rw [hctx, Bool.false_and]
    rw [huntyped]
    refine .bind quiet_atLet.reads fun _ _ => ?_
    refine reads_variableStatement start hrules ?_ hvalue hpresent
    exact hctx
  exact reads_statementRule hconst hplain

end

/-- The end of a function as it is written, up to the value that it gives. -/
def returnChars (value : List Char) : List Char := ['r', 'e', 't', 'u', 'r', 'n'] ++ ' ' :: value

theorem lexes_returnChars (value : List Char) :
    Lexes (returnChars value) .word ['r', 'e', 't', 'u', 'r', 'n'] (' ' :: value) :=
  lexes_word rfl rfl

theorem reads_returnStatement {rules : Rules} {ctx : Context} {cs rest : List Char} {value : Node}
    (hctx : ctx.inFunction = true) (hstart : StartsItem cs) (hline : SameLine cs)
    (hvalue : Reads (rules { ctx with allowIn := true } .expression) cs (fun n => n.erase = value)
      (';' :: rest)) :
    Reads (statementRule rules ctx) (returnChars cs)
      (fun n => n.erase = Emit.made .returnStatement [value]) rest := by
  have hreturn := lexes_returnChars cs
  have hend : Lexes (';' :: rest) .punctuator [';'] rest := lexes_mark (by decide) rest
  have hinsert : Reads canInsertSemicolon (' ' :: cs) (fun b => b = false) (' ' :: cs) := by
    obtain ⟨kind, text, after, hlexes, hmark, heof, -⟩ := hstart
    refine .bind ((reads_current (lexes_blank hlexes)).and (reads_sameLine hline.blank))
      fun t ht => reads_pure ?_
    simp [Token.isMark, ht.1.kind_eq, ht.2, hmark, heof]
  have hrule : Reads (returnStatement rules ctx) (returnChars cs)
      (fun n => n.erase = Emit.made .returnStatement [value]) rest := by
    refine .bind reads_position fun start _ => .bind (reads_advance hreturn) fun _ _ => ?_
    refine .bind hinsert fun b hb => ?_
    subst hb
    refine .bind hvalue.blank fun v hv => .bind (reads_endStatement hend) fun _ _ => ?_
    simp only [hctx, Bool.not_true, Bool.false_eq_true, if_false]
    refine (reads_finish _ _ _).mono fun n hn => ?_
    obtain ⟨span, rfl⟩ := hn
    rw [Node.erase, Node.eraseList, hv]
    rfl
  have hplain : Reads (plainStatement rules ctx) (returnChars cs)
      (fun n => n.erase = Emit.made .returnStatement [value]) rest := by
    refine .bind reads_position fun start _ => .bind (reads_current hreturn) fun t ht => ?_
    have htext : t.text = "return" := ht.text_eq.trans (by decide)
    have hmark : ∀ mark, t.isMark mark = false := fun mark => by simp [Token.isMark, ht.kind_eq]
    have hword : (t.kind != .word || t.isEscaped) = false := by simp [ht.kind_eq, ht.plain]
    simp only [hmark, hword, htext, keywordStatement?, Bool.false_eq_true, if_false]
    exact hrule
  exact reads_statementRule hreturn hplain

end TemplateCompiler.Grammar
