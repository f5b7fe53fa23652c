import TemplateCompiler.Grammar.Program
import TemplateCompiler.Proofs.Grammar.Reading
import TemplateCompiler.Template.Emit

namespace TemplateCompiler.Grammar

open Scanner Text

/-- A name that no rule of the grammar takes for a word of its own. -/
structure PlainName (w : String) : Prop where
  isName : isName w.toList = true
  not_reserved : w ∉ reservedWords
  not_contextual : w ∉ contextualWords

instance (w : String) : Decidable (PlainName w) :=
  decidable_of_iff (isName w.toList = true ∧ w ∉ reservedWords ∧ w ∉ contextualWords)
    ⟨fun h => ⟨h.1, h.2.1, h.2.2⟩, fun h => ⟨h.isName, h.not_reserved, h.not_contextual⟩⟩

theorem PlainName.ne {w v : String} (h : PlainName w) (hv : v ∈ reservedWords ++ contextualWords) :
    w ≠ v := by
  rintro rfl
  rcases List.mem_append.mp hv with hv | hv
  · exact h.not_reserved hv
  · exact h.not_contextual hv

/-- An operand of a single token. -/
inductive Atom where
  | name (w : String) (h : PlainName w)
  | text (value : String)
  | nought

namespace Atom

def kind : Atom → TokenKind
  | name _ _ => .word
  | text _ => .string
  | nought => .number

def content : Atom → String
  | name w _ => w
  | text value => value
  | nought => "0"

def chars : Atom → List Char
  | name w _ => w.toList
  | text value => (Quoted.moduleText value).toList
  | nought => ['0']

def node : Atom → Node
  | name w _ => Emit.name w
  | text value => Emit.string value
  | nought => Emit.made (.number "0") []

end Atom

/-- What may stand behind an operand and is part of it. -/
inductive Suffix where
  | member (property : String) (h : isName property.toList = true)
  | index (key : String)
  | call (arguments : List Atom)

namespace Suffix

def chars : Suffix → List Char
  | member property _ => '.' :: property.toList
  | index key => '[' :: ((Quoted.moduleText key).toList ++ [']'])
  | call arguments => '(' :: ([',', ' '].intercalate (arguments.map Atom.chars) ++ [')'])

def apply (object : Node) : Suffix → Node
  | member property _ => Emit.member object property
  | index key => Emit.made (.index false) [object, Emit.string key]
  | call arguments => Emit.call object (arguments.map Atom.node)

end Suffix

/-- An operand with what stands behind it. A point behind a nought would be part of the number. -/
structure Operand where
  head : Atom
  suffixes : List Suffix := []
  head_ne : suffixes ≠ [] → head ≠ .nought := by simp

namespace Operand

def chars (o : Operand) : List Char := o.head.chars ++ o.suffixes.flatMap Suffix.chars

def node (o : Operand) : Node := o.suffixes.foldl Suffix.apply o.head.node

end Operand

/-- An atom that nothing stands behind. -/
def Atom.operand (a : Atom) : Operand := { head := a }

theorem Atom.chars_operand (a : Atom) : a.operand.chars = a.chars := List.append_nil _

/-- A text that an operand ends before, and the mark that it starts with; no mark
at the end of the text. -/
inductive Stop : List Char → String → Prop
  | ending : Stop [] ""
  | parenthesis (rest : List Char) : Stop (')' :: rest) ")"
  | bracket (rest : List Char) : Stop (']' :: rest) "]"
  | comma (rest : List Char) : Stop (',' :: rest) ","
  | semicolon (rest : List Char) : Stop (';' :: rest) ";"
  | equals (rest : List Char) : Stop (' ' :: '=' :: ' ' :: rest) "="

/-- The token that such a text starts with. -/
structure Stops (t : Token) (m : String) : Prop where
  kind_eq : t.kind = if m = "" then .eof else .punctuator
  text_eq : t.text = m
  mem : m ∈ ["", ")", "]", ",", ";", "="]

section

variable {t : Token} {cs rest : List Char} {m : String}

theorem Stop.lexes (h : Stop cs m) :
    ∃ text rest, Lexes cs (if m = "" then .eof else .punctuator) text rest ∧
      String.ofList text = m := by
  cases h with
  | ending => exact ⟨[], [], lexes_nil, rfl⟩
  | parenthesis rest => exact ⟨_, rest, lexes_mark (by decide) rest, rfl⟩
  | bracket rest => exact ⟨_, rest, lexes_mark (by decide) rest, rfl⟩
  | comma rest => exact ⟨_, rest, lexes_mark (by decide) rest, rfl⟩
  | semicolon rest => exact ⟨_, rest, lexes_mark (by decide) rest, rfl⟩
  | equals rest => exact ⟨_, _, lexes_blank (lexes_equals rest), rfl⟩

theorem Stop.mem (h : Stop cs m) : m ∈ ["", ")", "]", ",", ";", "="] := by
  cases h <;> decide

theorem reads_stop (h : Stop cs m) : Reads current cs (fun t => Stops t m) cs := by
  obtain ⟨text, rest, hlexes, htext⟩ := h.lexes
  exact (reads_current hlexes).mono fun t ht => ⟨ht.kind_eq, ht.text_eq.trans htext, h.mem⟩

theorem reads_peek_stop {kind : TokenKind} {text : List Char} (h : Lexes cs kind text rest)
    (hstop : Stop rest m) : Reads peek cs (fun t => Stops t m) cs := by
  obtain ⟨text, rest', hlexes, htext⟩ := hstop.lexes
  exact (reads_peek h hlexes).mono fun t ht => ⟨ht.kind_eq, ht.text_eq.trans htext, hstop.mem⟩

theorem Stops.isMark_eq (h : Stops t m) (mark : String) (hmark : mark ≠ "") :
    t.isMark mark = (m == mark) := by
  unfold Token.isMark
  rw [h.kind_eq, h.text_eq]
  split
  · rename_i hm
    simp [hm, Ne.symm hmark]
  · simp

theorem Stops.isMark_eq_false (h : Stops t m) {mark : String}
    (hmark : mark ∉ ["", ")", "]", ",", ";", "="]) : t.isMark mark = false := by
  have hempty : mark ≠ "" := by
    rintro rfl
    exact hmark (by decide)
  rw [h.isMark_eq mark hempty]
  apply beq_false_of_ne
  rintro rfl
  exact hmark h.mem

theorem reads_atMark_stop (h : Stop cs m) (mark : String) (hmark : mark ≠ "") :
    Reads (atMark mark) cs (fun b => b = (m == mark)) cs :=
  .bind (reads_stop h) fun _ ht => reads_pure (ht.isMark_eq mark hmark)

theorem reads_atMark_stop_other (h : Stop cs m) {mark : String}
    (hmark : mark ∉ ["", ")", "]", ",", ";", "="]) :
    Reads (atMark mark) cs (fun b => b = false) cs :=
  .bind (reads_stop h) fun _ ht => reads_pure (ht.isMark_eq_false hmark)

theorem reads_eatMark_stop_other (h : Stop cs m) {mark : String}
    (hmark : mark ∉ ["", ")", "]", ",", ";", "="]) :
    Reads (eatMark mark) cs (fun b => b = false) cs := by
  refine .bind (reads_atMark_stop_other h hmark) fun b hb => ?_
  subst hb
  exact reads_pure rfl

theorem Stop.endsName (h : Stop cs m) : endsName cs = true := by
  cases h <;> rfl

theorem Stop.lexes_nought (h : Stop cs m) : Lexes ('0' :: cs) .number ['0'] cs := by
  cases h <;> exact lexes_of_lexeme rfl rfl rfl rfl rfl rfl rfl

end

namespace Atom

/-- The text of the token is not longer than the atom in front of another text. -/
def EndsBefore (rest : List Char) : Atom → Prop
  | name _ _ => endsName rest = true
  | text _ => True
  | nought => ∃ m, Stop rest m

theorem endsBefore_of_stop {rest : List Char} {m : String} (h : Stop rest m) (a : Atom) :
    a.EndsBefore rest := by
  cases a with
  | name w hw => exact h.endsName
  | text value => trivial
  | nought => exact ⟨m, h⟩

theorem lexes {a : Atom} {rest : List Char} (h : a.EndsBefore rest) :
    Lexes (a.chars ++ rest) a.kind a.content.toList rest := by
  cases a with
  | name w hw => exact lexes_word hw.isName h
  | text value => exact lexes_moduleText value rest
  | nought =>
      obtain ⟨m, hstop⟩ := h
      exact hstop.lexes_nought

end Atom

section

variable {t : Token} {a : Atom} {rest : List Char}

theorem reads_head (h : a.EndsBefore rest) :
    Reads current (a.chars ++ rest) (fun t => Matches t a.kind a.content.toList)
      (a.chars ++ rest) :=
  reads_current (Atom.lexes h)

theorem Atom.isMark_eq (h : Matches t a.kind a.content.toList) (mark : String) :
    t.isMark mark = false := by
  rw [Token.isMark, h.kind_eq]
  cases a <;> rfl

theorem Atom.isWord_eq (h : Matches t a.kind a.content.toList) {word : String}
    (hword : word ∈ reservedWords ++ contextualWords) : t.isWord word = false := by
  rw [Token.isWord, h.kind_eq, h.text_eq, String.ofList_toList]
  cases a with
  | name w hw => simp [content, hw.ne hword]
  | text value => rfl
  | nought => rfl

theorem reads_takeLeaf_atom (h : a.EndsBefore rest) (form : String → Form) :
    Reads (takeLeaf form) (a.chars ++ rest) (fun n => n.erase = .leaf (form a.content) .synthetic)
      rest := by
  refine (reads_takeLeaf form (Atom.lexes h)).mono fun n hn => ?_
  obtain ⟨span, rfl⟩ := hn
  rw [String.ofList_toList]
  rfl

end

section

variable {w : String} {rest : List Char}

theorem reads_checkVariable (ctx : Context) (hw : PlainName w) (h : endsName rest = true) :
    Reads (checkVariable ctx) (w.toList ++ rest) (fun _ => True) (w.toList ++ rest) := by
  refine .bind (reads_current (lexes_word hw.isName h)) fun t ht => ?_
  have htext : t.text = w := ht.text_eq.trans String.ofList_toList
  have hawait : (t.text == "await") = false := beq_false_of_ne (htext ▸ hw.ne (by decide))
  have hyield : (t.text == "yield") = false := beq_false_of_ne (htext ▸ hw.ne (by decide))
  simp only [hawait, hyield, Bool.and_false, Bool.false_eq_true, if_false]
  exact reads_pure trivial

theorem isVariable_of_matches {t : Token} (hw : PlainName w) (h : Matches t .word w.toList) :
    t.isVariable = true := by
  simp [Token.isVariable, h.kind_eq, h.text_eq, hw.not_reserved]

theorem reads_variable (ctx : Context) (form : String → Form) (hw : PlainName w)
    (h : endsName rest = true) :
    Reads (do if (← current).isVariable then
                checkVariable ctx
                takeLeaf form
              else unexpected)
      (w.toList ++ rest) (fun n => n.erase = .leaf (form w) .synthetic) rest := by
  have hends : (Atom.name w hw).EndsBefore rest := h
  refine .bind (reads_head hends) fun t ht => ?_
  rw [if_pos (isVariable_of_matches hw ht)]
  exact .bind (reads_checkVariable ctx hw h) fun _ _ => reads_takeLeaf_atom hends form

theorem reads_referenceName (ctx : Context) (hw : PlainName w) (h : endsName rest = true) :
    Reads (referenceName ctx) (w.toList ++ rest) (fun n => n.erase = Emit.name w) rest :=
  reads_variable ctx .reference hw h

theorem reads_bindingName (ctx : Context) (hw : PlainName w) (h : endsName rest = true) :
    Reads (bindingName ctx) (w.toList ++ rest) (fun n => n.erase = Emit.binding w) rest :=
  reads_variable ctx .binding hw h

theorem reads_labelName (hw : isName w.toList = true) (h : endsName rest = true) :
    Reads labelName (w.toList ++ rest) (fun n => n.erase = .leaf (.label w) .synthetic) rest := by
  have hlexes := lexes_word hw h
  refine .bind (reads_current hlexes) fun t ht => ?_
  simp only [ht.kind_eq]
  refine (reads_takeLeaf .label hlexes).mono fun n hn => ?_
  obtain ⟨span, rfl⟩ := hn
  rw [String.ofList_toList]
  rfl

end

theorem reads_atFunction {a : Atom} {rest : List Char} (h : a.EndsBefore rest) :
    Reads atFunction (a.chars ++ rest) (fun b => b = false) (a.chars ++ rest) := by
  refine .bind (reads_head h) fun t ht => ?_
  simp only [Atom.isWord_eq ht (show "function" ∈ reservedWords ++ contextualWords by decide),
    Atom.isWord_eq ht (show "async" ∈ reservedWords ++ contextualWords by decide)]
  exact reads_pure rfl

theorem reads_primary (rules : Rules) (ctx : Context) {a : Atom} {rest : List Char}
    (h : a.EndsBefore rest) :
    Reads (primary rules ctx) (a.chars ++ rest) (fun n => n.erase = a.node) rest := by
  refine .bind (reads_head h) fun t ht => ?_
  simp only [ht.kind_eq]
  cases a with
  | text value => exact reads_takeLeaf_atom h .string
  | nought => exact reads_takeLeaf_atom h .number
  | name w hw =>
      have htext : t.text = w := ht.text_eq.trans String.ofList_toList
      have hne : ∀ v ∈ reservedWords, (t.text == v) = false := fun v hv =>
        beq_false_of_ne (htext ▸ hw.ne (List.mem_append_left _ hv))
      simp only [Atom.kind, ht.plain, hne "this" (by decide), hne "super" (by decide),
        hne "null" (by decide), hne "true" (by decide), hne "false" (by decide), Bool.or_self,
        Bool.false_eq_true, if_false]
      refine .bind (reads_atFunction h) fun b hb => ?_
      subst hb
      simp only [hne "class" (by decide), hne "new" (by decide), hne "import" (by decide),
        Bool.false_eq_true, if_false]
      exact reads_referenceName ctx hw h

/-- Rules that read single tokens, as an argument is read and as a key is. -/
structure ReadsAtoms (rules : Rules) : Prop where
  argument : ∀ (ctx : Context) (a : Atom) {rest : List Char} {m : String}, Stop rest m → m ≠ "=" →
    Reads (rules ctx .assignment) (a.chars ++ rest) (fun n => n.erase = a.node) rest
  key : ∀ (ctx : Context) (a : Atom) {rest : List Char} {m : String}, Stop rest m → m ≠ "=" →
    m ≠ "," →
    Reads (rules ctx .expression) (a.chars ++ rest) (fun n => n.erase = a.node) rest

theorem stop_following (as : List Atom) (rest : List Char) :
    ∃ m, Stop (following Atom.chars as (')' :: rest)) m ∧ m ≠ "=" := by
  cases as with
  | nil => exact ⟨_, .parenthesis rest, by decide⟩
  | cons a as => exact ⟨_, .comma _, by decide⟩

theorem Atom.startsItem {a : Atom} {rest : List Char} (h : a.EndsBefore rest) :
    StartsItem (a.chars ++ rest) := by
  refine ⟨a.kind, _, _, lexes h, ?_, ?_, ?_⟩
  all_goals cases a <;> simp [kind]

theorem reads_arguments {rules : Rules} (hrules : ReadsAtoms rules) (ctx : Context) (as : List Atom)
    (rest : List Char) :
    Reads (arguments rules ctx)
      ('(' :: ([',', ' '].intercalate (as.map Atom.chars) ++ ')' :: rest))
      (fun ns => Node.eraseList ns = as.map Atom.node) rest := by
  have hclose : Lexes (')' :: rest) .punctuator [')'] rest := lexes_mark (by decide) rest
  have hitems : Reads (commaItems ")" (argument rules { ctx with allowIn := true }))
      ([',', ' '].intercalate (as.map Atom.chars) ++ ')' :: rest)
      (fun ns => List.Forall₂ (fun a n => n.erase = a.node) as ns) (')' :: rest) := by
    refine reads_commaItems (by decide) hclose rfl ?_
    rintro before a after rfl
    obtain ⟨m, hstop, hm⟩ := stop_following after rest
    have hends := a.endsBefore_of_stop hstop
    refine ⟨Atom.startsItem hends, ?_⟩
    refine .bind (reads_atMark (Atom.lexes hends) _) fun b hb => ?_
    have hspread : b = false := by
      rw [hb]
      cases a <;> rfl
    subst hspread
    exact hrules.argument _ a hstop hm
  refine .bind (reads_expectMark (lexes_mark (by decide) _) rfl) fun _ _ => ?_
  refine .bind hitems fun ns hns => .bind (reads_expectMark hclose rfl) fun _ _ => reads_pure ?_
  exact eraseList_of_forall₂ hns

/-- The text behind a suffix does not go on with it. -/
def Suffix.EndsBefore (rest : List Char) : Suffix → Prop
  | member _ _ => endsName rest = true
  | _ => True

theorem reads_suffix {rules : Rules} (hrules : ReadsAtoms rules) (ctx : Context) (start : Nat)
    (object : Node) {s : Suffix} {rest : List Char} (h : s.EndsBefore rest) :
    Reads (suffix? rules ctx true start object) (s.chars ++ rest)
      (fun answer => ∃ n, answer = some n ∧ n.erase = s.apply object.erase ∧
        hasOptionalLink n = hasOptionalLink object) rest := by
  cases s with
  | member property hproperty =>
      have hlexes := lexes_word hproperty h
      refine .bind (reads_current (lexes_point hproperty)) fun t ht => ?_
      have htext : t.text = "." := ht.text_eq
      simp only [ht.kind_eq, htext]
      refine .bind (reads_advance (lexes_point hproperty)) fun _ _ => ?_
      refine .bind (reads_current hlexes) fun t' ht' => ?_
      simp only [ht'.kind_eq]
      refine .bind (reads_labelName hproperty h) fun name hname => ?_
      refine .bind (reads_finish _ _ _) fun n hn => reads_pure ⟨n, rfl, ?_⟩
      obtain ⟨span, rfl⟩ := hn
      rw [Node.erase, Node.eraseList, Node.eraseList, hname]
      exact ⟨rfl, rfl⟩
  | index key =>
      have hopen : Lexes ((Suffix.index key).chars ++ rest) .punctuator ['[']
          ((Quoted.moduleText key).toList ++ ']' :: rest) := by
        simp only [Suffix.chars, List.cons_append, List.append_assoc]
        exact lexes_mark (by decide) _
      refine .bind (reads_current hopen) fun t ht => ?_
      have htext : t.text = "[" := ht.text_eq
      simp only [ht.kind_eq, htext]
      refine .bind (reads_advance hopen) fun _ _ => ?_
      refine .bind (hrules.key _ (.text key) (.bracket rest) (by decide) (by decide)) fun k hk => ?_
      refine .bind (reads_expectMark (lexes_mark (by decide) rest) rfl) fun _ _ => ?_
      refine .bind (reads_finish _ _ _) fun n hn => reads_pure ⟨n, rfl, ?_⟩
      obtain ⟨span, rfl⟩ := hn
      rw [Node.erase, Node.eraseList, Node.eraseList, hk]
      exact ⟨rfl, rfl⟩
  | call as =>
      have htail : (Suffix.call as).chars ++ rest =
          '(' :: ([',', ' '].intercalate (as.map Atom.chars) ++ ')' :: rest) := by
        simp [Suffix.chars]
      rw [htail]
      refine .bind (reads_current (lexes_mark (by decide) _)) fun t ht => ?_
      have htext : t.text = "(" := ht.text_eq
      simp only [ht.kind_eq, htext]
      refine .bind (reads_arguments hrules ctx as rest) fun ns hns => ?_
      refine .bind (reads_finish _ _ _) fun n hn => reads_pure ⟨n, rfl, ?_⟩
      obtain ⟨span, rfl⟩ := hn
      rw [Node.erase, Node.eraseList, Node.eraseList, hns]
      exact ⟨rfl, rfl⟩

theorem reads_suffix_stop (rules : Rules) (ctx : Context) (start : Nat) (object : Node)
    {rest : List Char} {m : String} (h : Stop rest m) :
    Reads (suffix? rules ctx true start object) rest (fun answer => answer = none) rest := by
  refine .bind (reads_stop h) fun t ht => ?_
  have hmem := ht.mem
  simp only [ht.kind_eq, ht.text_eq]
  simp only [List.mem_cons, List.not_mem_nil, or_false] at hmem
  rcases hmem with rfl | rfl | rfl | rfl | rfl | rfl
  all_goals exact reads_pure rfl

theorem Suffix.lexes (s : Suffix) (rest : List Char) :
    ∃ c r, s.chars ++ rest = c :: r ∧ isNamePart c = false ∧ c ≠ '\\' ∧
      Lexes (s.chars ++ rest) .punctuator [c] r := by
  cases s with
  | member property hproperty => exact ⟨'.', _, rfl, by decide, by decide, lexes_point hproperty⟩
  | index key => exact ⟨'[', _, rfl, by decide, by decide, lexes_mark (by decide) _⟩
  | call as => exact ⟨'(', _, rfl, by decide, by decide, lexes_mark (by decide) _⟩

theorem endsName_suffixes (suffixes : List Suffix) {rest : List Char} {m : String}
    (h : Stop rest m) :
    endsName (suffixes.flatMap Suffix.chars ++ rest) = true := by
  cases suffixes with
  | nil => exact h.endsName
  | cons s suffixes =>
      obtain ⟨c, r, heq, hpart, hslash, -⟩ := s.lexes (suffixes.flatMap Suffix.chars ++ rest)
      rw [List.flatMap_cons, List.append_assoc, heq]
      simp [endsName, hpart, hslash]

theorem Suffix.endsBefore {rest : List Char} (h : endsName rest = true) (s : Suffix) :
    s.EndsBefore rest := by
  cases s with
  | member property hproperty => exact h
  | index key => trivial
  | call as => trivial

theorem Suffix.two_le_length (s : Suffix) : 2 ≤ s.chars.length := by
  cases s with
  | member property hproperty =>
      cases hchars : property.toList with
      | nil => simp [hchars, isName] at hproperty
      | cons c cs => simp [chars, hchars]
  | index key => simp [chars]
  | call as => simp [chars]

theorem length_suffixes (suffixes : List Suffix) :
    2 * suffixes.length ≤ (suffixes.flatMap Suffix.chars).length := by
  induction suffixes with
  | nil => simp
  | cons s suffixes ih =>
      have hs := s.two_le_length
      simp only [List.flatMap_cons, List.length_append, List.length_cons]
      omega

theorem reads_stepLimit_suffixes {suffixes : List Suffix} {rest : List Char} {m : String}
    (h : Stop rest m) :
    Reads stepLimit (suffixes.flatMap Suffix.chars ++ rest) (fun limit => suffixes.length < limit)
      (suffixes.flatMap Suffix.chars ++ rest) := by
  cases suffixes with
  | nil =>
      obtain ⟨text, rest', hlexes, -⟩ := h.lexes
      exact (reads_stepLimit hlexes).mono fun limit hlimit => Nat.zero_lt_of_lt hlimit
  | cons s suffixes =>
      obtain ⟨c, r, heq, -, -, hlexes⟩ := s.lexes (suffixes.flatMap Suffix.chars ++ rest)
      have hlength := length_suffixes suffixes
      have hs := s.two_le_length
      have hr := congrArg List.length heq
      rw [List.flatMap_cons, List.append_assoc]
      refine (reads_stepLimit hlexes).mono fun limit hlimit => ?_
      simp only [List.length_append, List.length_cons] at hr ⊢
      omega

theorem reads_extendFor_suffixes {rules : Rules} (ctx : Context) (start : Nat) {rest : List Char}
    {m : String} (hstop : Stop rest m) :
    ∀ (suffixes : List Suffix) (limit : Nat) (object : Node), (suffixes ≠ [] → ReadsAtoms rules) →
      suffixes.length < limit →
      Reads (extendFor (suffix? rules ctx true start) limit object)
        (suffixes.flatMap Suffix.chars ++ rest)
        (fun n => n.erase = suffixes.foldl Suffix.apply object.erase ∧
          hasOptionalLink n = hasOptionalLink object) rest := by
  intro suffixes
  induction suffixes with
  | nil =>
      rintro (_ | limit) object - hlimit
      · cases hlimit
      · refine .bind (reads_suffix_stop rules ctx start object hstop) fun answer hanswer => ?_
        subst hanswer
        exact reads_pure ⟨rfl, rfl⟩
  | cons s suffixes ih =>
      rintro (_ | limit) object hrules hlimit
      · cases hlimit
      · have hatoms := hrules (List.cons_ne_nil s suffixes)
        rw [List.flatMap_cons, List.append_assoc]
        have hends := s.endsBefore (endsName_suffixes suffixes hstop)
        refine .bind (reads_suffix hatoms ctx start object hends) fun answer hanswer => ?_
        obtain ⟨next, rfl, hnext, hlink⟩ := hanswer
        refine (ih limit next (fun _ => hatoms) (Nat.lt_of_succ_lt_succ hlimit)).mono fun n hn => ?_
        rw [hn.1, hn.2, hnext, hlink, List.foldl_cons]
        exact ⟨rfl, rfl⟩

theorem hasOptionalLink_of_erase {n : Node} {a : Atom} (h : n.erase = a.node) :
    hasOptionalLink n = false := by
  obtain ⟨form, span, children⟩ := n
  have hform : form = a.node.form := congrArg Node.form h
  subst hform
  cases a <;> rfl

/-- The forms of operands. No rule behind one asks for more than that it is none of the others. -/
def isOperandForm : Form → Bool
  | .reference _ => true
  | .string _ => true
  | .number _ => true
  | .member _ => true
  | .index _ => true
  | .call _ _ => true
  | _ => false

theorem isOperandForm_foldl {object : Node} (h : isOperandForm object.form = true)
    (suffixes : List Suffix) : isOperandForm (suffixes.foldl Suffix.apply object).form = true := by
  induction suffixes generalizing object with
  | nil => exact h
  | cons s suffixes ih =>
      apply ih
      cases s <;> rfl

theorem Operand.isOperandForm_of_erase {o : Operand} {n : Node} (h : n.erase = o.node) :
    isOperandForm n.form = true := by
  have hform : n.form = o.node.form := by
    rw [← h]
    cases n
    rfl
  rw [hform]
  apply isOperandForm_foldl
  cases o.head <;> rfl

section

variable {rules : Rules} {ctx : Context} {o : Operand} {rest : List Char} {m : String}

theorem Operand.endsBefore (o : Operand) (hstop : Stop rest m) :
    o.head.EndsBefore (o.suffixes.flatMap Suffix.chars ++ rest) := by
  have hends := endsName_suffixes o.suffixes hstop
  cases hatom : o.head with
  | name w hw => exact hends
  | text value => trivial
  | nought =>
      have hnone : o.suffixes = [] := by
        by_contra hne
        exact o.head_ne hne hatom
      rw [hnone]
      exact ⟨m, hstop⟩

theorem reads_operand_head (o : Operand) (hstop : Stop rest m) :
    Reads current (o.chars ++ rest) (fun t => Matches t o.head.kind o.head.content.toList)
      (o.chars ++ rest) := by
  rw [Operand.chars, List.append_assoc]
  exact reads_head (o.endsBefore hstop)

theorem reads_leftHand (hrules : o.suffixes ≠ [] → ReadsAtoms rules) (hstop : Stop rest m) :
    Reads (leftHand rules ctx) (o.chars ++ rest) (fun n => n.erase = o.node) rest := by
  rw [Operand.chars, List.append_assoc]
  refine .bind reads_position fun start _ => ?_
  refine .bind (reads_primary rules ctx (o.endsBefore hstop)) fun base hbase => ?_
  have hextend : Reads (extend (suffix? rules ctx true start) base)
      (o.suffixes.flatMap Suffix.chars ++ rest)
      (fun n => n.erase = o.node ∧ hasOptionalLink n = false) rest := by
    refine .bind (reads_stepLimit_suffixes hstop) fun limit hlimit => ?_
    have hread := reads_extendFor_suffixes ctx start hstop o.suffixes limit base hrules hlimit
    rw [hbase, hasOptionalLink_of_erase hbase] at hread
    exact hread
  refine .bind hextend fun n hn => ?_
  rw [hn.2]
  exact reads_pure hn.1

theorem reads_updateRule (hrules : o.suffixes ≠ [] → ReadsAtoms rules) (hstop : Stop rest m) :
    Reads (updateRule rules ctx) (o.chars ++ rest) (fun n => n.erase = o.node) rest := by
  refine .bind reads_position fun start _ => .bind (reads_operand_head o hstop) fun t ht => ?_
  simp only [Atom.isMark_eq ht, Bool.or_self, Bool.and_false, Bool.false_eq_true, if_false,
    ht.unmarked]
  refine .bind (reads_leftHand hrules hstop) fun n hn =>
    .bind (reads_stop hstop) fun sign hsign => ?_
  have hplus : sign.isMark "++" = false := hsign.isMark_eq_false (by decide)
  have hminus : sign.isMark "--" = false := hsign.isMark_eq_false (by decide)
  simp only [hplus, hminus, Bool.or_self, Bool.false_and, Bool.false_eq_true, if_false]
  exact reads_pure hn

theorem isUnaryWord_content {a : Atom} {t : Token} (ht : Matches t a.kind a.content.toList) :
    (t.kind == .punctuator && isUnaryMark t.text ||
      t.kind == .word && !t.isEscaped && isUnaryWord t.text) = false := by
  rw [ht.kind_eq, ht.text_eq, String.ofList_toList]
  cases a with
  | name w hw =>
      have htypeof : w ≠ "typeof" := hw.ne (by decide)
      have hvoid : w ≠ "void" := hw.ne (by decide)
      have hdelete : w ≠ "delete" := hw.ne (by decide)
      simp [Atom.kind, Atom.content, isUnaryWord, htypeof, hvoid, hdelete]
  | text value => rfl
  | nought => rfl

theorem reads_unaryRule (hrules : o.suffixes ≠ [] → ReadsAtoms rules) (hstop : Stop rest m) :
    Reads (unaryRule rules ctx) (o.chars ++ rest) (fun n => n.erase = o.node) rest := by
  refine .bind reads_position fun start _ => .bind (reads_operand_head o hstop) fun t ht => ?_
  simp only [isUnaryWord_content ht, Bool.false_eq_true, if_false]
  have hword : Reads (atWord "await") (o.chars ++ rest) (fun b => b = false) (o.chars ++ rest) :=
    .bind (reads_operand_head o hstop) fun t ht => reads_pure (Atom.isWord_eq ht (by decide))
  have hawait : Reads (atAwait ctx) (o.chars ++ rest) (fun b => b = false) (o.chars ++ rest) := by
    refine .bind hword fun b hb => ?_
    subst hb
    exact reads_pure rfl
  refine .bind hawait fun b hb => ?_
  subst hb
  exact reads_updateRule hrules hstop

theorem reads_firstOperand (hrules : o.suffixes ≠ [] → ReadsAtoms rules) (hstop : Stop rest m) :
    Reads (firstOperand rules ctx) (o.chars ++ rest) (fun n => n.erase = o.node) rest := by
  refine .bind reads_position fun start _ => .bind (reads_operand_head o hstop) fun t ht => ?_
  have hkind : (t.kind == .privateName) = false := by
    rw [ht.kind_eq]
    cases o.head <;> rfl
  simp only [hkind, Bool.and_false, Bool.false_eq_true, if_false]
  refine .bind (reads_unaryRule hrules hstop) fun n hn => ?_
  have hform := Operand.isOperandForm_of_erase hn
  split
  · cases hform
  · cases hform
  · exact reads_pure hn

theorem reads_operation_stop (level start : Nat) (left : Node) (hstop : Stop rest m) :
    Reads (operation? rules ctx level start left) rest (fun answer => answer = none) rest := by
  refine .bind (reads_atMark_stop_other hstop (by decide)) fun b hb => ?_
  subst hb
  refine .bind (reads_stop hstop) fun t ht => ?_
  have hlevel : bindingLevel? t = none := by
    have hmem := ht.mem
    simp only [bindingLevel?, ht.kind_eq, ht.text_eq]
    simp only [List.mem_cons, List.not_mem_nil, or_false] at hmem
    rcases hmem with rfl | rfl | rfl | rfl | rfl | rfl <;> rfl
  simp only [hlevel]
  exact reads_pure rfl

theorem reads_binaryRule (level : Nat) (hrules : o.suffixes ≠ [] → ReadsAtoms rules)
    (hstop : Stop rest m) :
    Reads (binaryRule rules ctx level) (o.chars ++ rest) (fun n => n.erase = o.node) rest := by
  refine .bind reads_position fun start _ => .bind (reads_firstOperand hrules hstop) fun n hn => ?_
  obtain ⟨text, rest', hlexes, -⟩ := hstop.lexes
  refine .bind (reads_stepLimit hlexes) fun limit hlimit => ?_
  obtain ⟨limit, rfl⟩ : ∃ k, limit = k + 1 := ⟨limit - 1, by omega⟩
  refine .bind (reads_operation_stop level start n hstop) fun answer hanswer => ?_
  subst hanswer
  exact reads_pure hn

theorem reads_asyncSimpleArrow_operand (o : Operand) (hstop : Stop rest m) :
    Reads (asyncSimpleArrow? rules ctx) (o.chars ++ rest) (fun answer => answer = none)
      (o.chars ++ rest) := by
  refine .bind (reads_operand_head o hstop) fun t ht => ?_
  rw [Atom.isWord_eq ht (by decide)]
  exact reads_pure rfl

theorem reads_arrow_operand (o : Operand) (allowResult : Bool) (hstop : Stop rest m) :
    Reads (arrow? rules ctx allowResult) (o.chars ++ rest) (fun answer => answer = none)
      (o.chars ++ rest) := by
  have hguess : Reads (guessArrow ctx) (o.chars ++ rest) (fun guess => guess = .no)
      (o.chars ++ rest) := by
    refine .bind (reads_operand_head o hstop) fun t ht => ?_
    rw [Atom.isMark_eq ht, Atom.isMark_eq ht, Atom.isWord_eq ht (by decide)]
    exact reads_pure rfl
  refine .bind reads_position fun start _ => .bind hguess fun guess hguess => ?_
  subst hguess
  exact reads_pure rfl

theorem reads_conditionalRest_stop (start : Nat) (goal : Goal) (test : Node) (hstop : Stop rest m) :
    Reads (conditionalRest rules ctx start goal test) rest (fun n => n = test) rest := by
  refine .bind (reads_eatMark_stop_other hstop (by decide)) fun b hb => ?_
  subst hb
  exact reads_pure rfl

theorem isAssignmentOperator_of_stops {t : Token} (h : Stops t m) :
    (t.kind == .punctuator && isAssignmentOperator t.text) = (m == "=") := by
  have hmem := h.mem
  rw [h.kind_eq, h.text_eq]
  simp only [List.mem_cons, List.not_mem_nil, or_false] at hmem
  rcases hmem with rfl | rfl | rfl | rfl | rfl | rfl <;> rfl

/-- What is read behind an operand, by the mark that follows it: the value that is assigned to it,
or else the branches of a conditional. -/
def assignmentRest (rules : Rules) (ctx : Context) (start : Nat) (mark : String) (left : Node) :
    Parser Node := do
  if mark == "=" then
    let place ← asTarget false left
    advance
    let value ← rules ctx .assignment
    finish (.assignment "=") start [place, value]
  else conditionalRest rules ctx start .assignment left

theorem reads_assignmentRule {good : Node → Prop} {rest' : List Char}
    (hbinary : Reads (rules ctx (.binary 0)) (o.chars ++ rest) (fun n => n.erase = o.node) rest)
    (hstop : Stop rest m)
    (hrest : ∀ start left, left.erase = o.node →
      Reads (assignmentRest rules ctx start m left) rest good rest') :
    Reads (assignmentRule rules ctx true) (o.chars ++ rest) good rest' := by
  refine .bind reads_position fun start _ => .bind (reads_operand_head o hstop) fun t ht => ?_
  refine .bind quiet_peek.reads fun _ _ => ?_
  rw [Atom.isWord_eq ht (by decide)]
  refine .bind (reads_asyncSimpleArrow_operand o hstop) fun answer hanswer => ?_
  subst hanswer
  refine .bind (reads_arrow_operand o true hstop) fun answer hanswer => ?_
  subst hanswer
  refine .bind hbinary fun left hleft => .bind (reads_stop hstop) fun next hnext => ?_
  have harrow : next.isMark "=>" = false := hnext.isMark_eq_false (by decide)
  have hread := hrest start left hleft
  unfold assignmentRest at hread
  simp only [harrow, isAssignmentOperator_of_stops hnext, ht.silent, ht.unmarked,
    Bool.false_eq_true, if_false]
  rw [hnext.text_eq]
  by_cases hm : m = "="
  · subst hm
    split
    · exact hread
    · exact hread
  · simp only [beq_false_of_ne hm, Bool.false_eq_true, if_false] at hread ⊢
    have hsame : Reads (conditionalRest rules ctx start .assignment left >>=
        pure) rest good rest' := by
      rw [bind_pure]
      exact hread
    split
    · exact hsame
    · exact hsame

theorem reads_assignmentRule_operand
    (hbinary : Reads (rules ctx (.binary 0)) (o.chars ++ rest) (fun n => n.erase = o.node) rest)
    (hstop : Stop rest m) (hm : m ≠ "=") :
    Reads (assignmentRule rules ctx true) (o.chars ++ rest) (fun n => n.erase = o.node) rest := by
  refine reads_assignmentRule hbinary hstop fun start left hleft => ?_
  rw [assignmentRest, beq_false_of_ne hm]
  exact (reads_conditionalRest_stop start .assignment left hstop).mono fun n hn => hn ▸ hleft

theorem reads_expressionRule_operand
    (hassignment : Reads (rules ctx .assignment) (o.chars ++ rest) (fun n => n.erase = o.node) rest)
    (hstop : Stop rest m) (hm : m ≠ ",") :
    Reads (expressionRule rules ctx) (o.chars ++ rest) (fun n => n.erase = o.node) rest := by
  refine .bind reads_position fun start _ => .bind hassignment fun n hn => ?_
  refine .bind (reads_atMark_stop hstop "," (by decide)) fun b hb => ?_
  rw [beq_false_of_ne hm] at hb
  subst hb
  exact reads_pure hn

theorem readsAtoms_rulesTo (depth : Nat) : ReadsAtoms (rulesTo (depth + 3)) := by
  have hassignment : ∀ (depth : Nat) (ctx : Context) (a : Atom) {rest : List Char} {m : String},
      Stop rest m → m ≠ "=" → Reads (assignmentRule (rulesTo (depth + 1)) ctx true)
        (a.operand.chars ++ rest) (fun n => n.erase = a.node) rest := by
    intro depth ctx a rest m hstop hm
    have hbinary : Reads (binaryRule (rulesTo depth) ctx 0) (a.operand.chars ++ rest)
        (fun n => n.erase = a.operand.node) rest := reads_binaryRule 0 (fun h => absurd rfl h) hstop
    exact reads_assignmentRule_operand hbinary hstop hm
  constructor
  · intro ctx a rest m hstop hm
    rw [← a.chars_operand]
    exact hassignment (depth + 1) ctx a hstop hm
  · intro ctx a rest m hstop hm hcomma
    rw [← a.chars_operand]
    exact reads_expressionRule_operand (hassignment depth ctx a hstop hm) hstop hcomma

theorem reads_operand_assignment (depth : Nat) (ctx : Context) (o : Operand) (hstop : Stop rest m)
    (hm : m ≠ "=") :
    Reads (rulesTo (depth + 5) ctx .assignment) (o.chars ++ rest) (fun n => n.erase = o.node)
      rest :=
  reads_assignmentRule_operand
    (reads_binaryRule 0 (fun _ => readsAtoms_rulesTo depth) hstop) hstop hm

theorem reads_operand_expression (depth : Nat) (ctx : Context) (o : Operand) (hstop : Stop rest m)
    (hm : m ≠ "=") (hcomma : m ≠ ",") :
    Reads (rulesTo (depth + 6) ctx .expression) (o.chars ++ rest) (fun n => n.erase = o.node)
      rest :=
  reads_expressionRule_operand (reads_operand_assignment depth ctx o hstop hm) hstop hcomma

/-- A place that can be assigned to: the operand ends with a member or a string in brackets. -/
def Operand.isPlace (o : Operand) : Bool :=
  match o.node.form with
  | .member false => true
  | .index false => true
  | _ => false

theorem target_of_isPlace {n : Node} (h : n.erase = o.node) (hplace : o.isPlace = true) :
    target n = .ok n := by
  obtain ⟨form, span, children⟩ := n
  have hform : form = o.node.form := congrArg Node.form h
  rw [Operand.isPlace, ← hform] at hplace
  split at hplace
  · simp [target, simpleTarget]
  · simp [target, simpleTarget]
  · cases hplace

theorem reads_asTarget {n : Node} (h : target n = .ok n) (hstop : Stop rest m) :
    Reads (asTarget false n) rest (fun place => place = n) rest := by
  intro s hs
  obtain ⟨text, rest', hlexes, -⟩ := hstop.lexes
  have hdefaults := (hs.facing hlexes).openDefaults
  refine ⟨n, s, ?_, hs, rfl⟩
  unfold asTarget
  simp only [Bool.false_eq_true, if_false, h]
  obtain ⟨_, _, _, _, _, _, _, _, defaults⟩ := s
  cases hdefaults
  rfl

theorem reads_assignmentRule_place {value : Node} {rest' : List Char} (hplace : o.isPlace = true)
    (hbinary : Reads (rules ctx (.binary 0)) (o.chars ++ ' ' :: '=' :: ' ' :: rest)
      (fun n => n.erase = o.node) (' ' :: '=' :: ' ' :: rest))
    (hvalue : Reads (rules ctx .assignment) rest (fun n => n.erase = value) rest') :
    Reads (assignmentRule rules ctx true) (o.chars ++ ' ' :: '=' :: ' ' :: rest)
      (fun n => n.erase = Emit.made (.assignment "=") [o.node, value]) rest' := by
  have hstop := Stop.equals rest
  refine reads_assignmentRule hbinary hstop fun start left hleft => ?_
  refine .bind (reads_asTarget (target_of_isPlace hleft hplace) hstop) fun place hplace => ?_
  subst hplace
  refine .bind (reads_advance (lexes_blank (lexes_equals rest))) fun _ _ => ?_
  refine .bind hvalue.blank fun v hv => (reads_finish _ _ _).mono fun n hn => ?_
  obtain ⟨span, rfl⟩ := hn
  simp only [Node.erase, Node.eraseList, hleft, hv]
  rfl

theorem reads_place_assignment (depth : Nat) (ctx : Context) {o : Operand}
    (hplace : o.isPlace = true) (a : Atom) (hstop : Stop rest m) (hm : m ≠ "=") :
    Reads (rulesTo (depth + 5) ctx .assignment) (o.chars ++ ' ' :: '=' :: ' ' :: (a.chars ++ rest))
      (fun n => n.erase = Emit.made (.assignment "=") [o.node, a.node]) rest :=
  reads_assignmentRule_place hplace
    (reads_binaryRule 0 (fun _ => readsAtoms_rulesTo depth) (.equals _))
    ((readsAtoms_rulesTo (depth + 1)).argument ctx a hstop hm)

end

end TemplateCompiler.Grammar
