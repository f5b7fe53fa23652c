import Mathlib.Data.List.Forall2
import TemplateCompiler.Grammar.Statement
import TemplateCompiler.Proofs.Syntax.Lexing

/-!
Rules of the grammar that read a known text. A rule is run from a state in front of a text, gives a
result with a property, and leaves a state in front of the rest. Nothing is reported on the way.
-/

namespace TemplateCompiler.Grammar

open Scanner

/-- A state in which the text comes next and nothing has been reported. -/
def Before (s : State) (cs : List Char) : Prop :=
  ∃ s₀ offset, s = State.read s₀ lexeme cs offset ∧ s₀.lexical = [] ∧ s₀.reported = [] ∧
    s₀.openDefaults = [] ∧ s₀.notArrows = [] ∧ offset + byteLength cs = s₀.total

/-- What is known of a token from its kind and text. -/
structure Matches (t : Token) (kind : TokenKind) (text : List Char) : Prop where
  kind_eq : t.kind = kind
  text_eq : t.text = String.ofList text
  plain : t.isEscaped = false
  silent : t.isEffectFree = false
  unmarked : t.isPure = false

/-- A state with a known token in front. -/
structure Facing (s : State) (kind : TokenKind) (text rest : List Char) : Prop where
  token : Matches s.token kind text
  after : s.after = rest
  lexical : s.lexical = []
  reported : s.reported = []
  openDefaults : s.openDefaults = []
  notArrows : s.notArrows = []
  total : s.token.stop + byteLength rest = s.total
  start_le : s.token.start ≤ s.token.stop

theorem facing_read {s₀ : State} {cs text rest : List Char} {kind : TokenKind} {offset : Nat}
    (h : Lexes cs kind text rest) (hlexical : s₀.lexical = []) (hreported : s₀.reported = [])
    (hdefaults : s₀.openDefaults = []) (harrows : s₀.notArrows = [])
    (htotal : offset + byteLength cs = s₀.total) :
    Facing (State.read s₀ lexeme cs offset) kind text rest := by
  obtain ⟨start, stop, newline, hgap, hkind, htext, hrest, hplain, hsound, hwidth⟩ := h offset false
  have hread : State.read s₀ lexeme cs offset =
      { s₀ with
        token := ((lexeme start).toToken { rest := start, offset := stop, newline }).1
        here := start, after := (lexeme start).rest
        lexical := ((lexeme start).toToken { rest := start, offset := stop, newline }).2.reverse ++
          s₀.lexical } := by
    unfold State.read
    rw [hgap]
  rw [hread]
  refine ⟨⟨hkind, ?_, hplain, rfl, rfl⟩, hrest, ?_, hreported, hdefaults, harrows, ?_,
    Nat.le_add_right _ _⟩
  · simp [Lexeme.toToken, htext]
  · simp [Lexeme.toToken, hsound, hlexical]
  · exact hwidth.trans htotal

theorem Before.facing {s : State} {cs text rest : List Char} {kind : TokenKind}
    (h : Before s cs) (hlexes : Lexes cs kind text rest) : Facing s kind text rest := by
  obtain ⟨s₀, offset, rfl, hlexical, hreported, hdefaults, harrows, htotal⟩ := h
  exact facing_read hlexes hlexical hreported hdefaults harrows htotal

theorem Facing.before_read {s : State} {text rest : List Char} {kind : TokenKind}
    (h : Facing s kind text rest) :
    Before (State.read { s with previousStop := s.token.stop } lexeme s.after s.token.stop)
      rest := by
  refine ⟨{ s with previousStop := s.token.stop }, s.token.stop, ?_, h.lexical, h.reported,
    h.openDefaults, h.notArrows, h.total⟩
  rw [← h.after]

theorem before_start (cs : List Char) (offset : Nat) : Before (State.start cs offset) cs :=
  ⟨_, _, rfl, rfl, rfl, rfl, rfl, rfl⟩

theorem Before.of_blank {s : State} {cs : List Char} (h : Before s (' ' :: cs)) : Before s cs := by
  obtain ⟨s₀, offset, rfl, hlexical, hreported, hdefaults, harrows, htotal⟩ := h
  refine ⟨s₀, offset + 1, ?_, hlexical, hreported, hdefaults, harrows, ?_⟩
  · unfold State.read
    rw [skipGap_blank]
  · simp only [byteLength, show Char.utf8Size ' ' = 1 from rfl] at htotal
    omega

/-- A rule that reads a text up to a rest. -/
def Reads {α : Type} (p : Parser α) (cs : List Char) (good : α → Prop) (rest : List Char) : Prop :=
  ∀ s, Before s cs → ∃ a s', p.run s = .ok (a, s') ∧ Before s' rest ∧ good a

section

variable {α β : Type} {cs text rest rest' : List Char} {kind : TokenKind}

theorem reads_pure {a : α} {good : α → Prop} (h : good a) : Reads (pure a) cs good cs :=
  fun s hs => ⟨a, s, rfl, hs, h⟩

theorem Reads.bind {p : Parser α} {f : α → Parser β} {good : α → Prop} {good' : β → Prop}
    (h : Reads p cs good rest) (h' : ∀ a, good a → Reads (f a) rest good' rest') :
    Reads (p >>= f) cs good' rest' := by
  intro s hs
  obtain ⟨a, s₁, hrun, hs₁, ha⟩ := h s hs
  obtain ⟨b, s₂, hrun', hs₂, hb⟩ := h' a ha s₁ hs₁
  refine ⟨b, s₂, ?_, hs₂, hb⟩
  rw [StateT.run_bind, hrun]
  exact hrun'

theorem Reads.mono {p : Parser α} {good good' : α → Prop} (h : Reads p cs good rest)
    (himp : ∀ a, good a → good' a) : Reads p cs good' rest := by
  intro s hs
  obtain ⟨a, s', hrun, hs', ha⟩ := h s hs
  exact ⟨a, s', hrun, hs', himp a ha⟩

theorem Reads.and {p : Parser α} {good good' : α → Prop} (h : Reads p cs good rest)
    (h' : Reads p cs good' rest') : Reads p cs (fun a => good a ∧ good' a) rest := by
  intro s hs
  obtain ⟨a, s₁, hrun, hs₁, ha⟩ := h s hs
  obtain ⟨a', s₂, hrun', -, ha'⟩ := h' s hs
  rw [hrun] at hrun'
  cases hrun'
  exact ⟨a, s₁, hrun, hs₁, ha, ha'⟩

theorem Reads.blank {p : Parser α} {good : α → Prop} (h : Reads p cs good rest) :
    Reads p (' ' :: cs) good rest :=
  fun s hs => h s hs.of_blank

theorem reads_current (h : Lexes cs kind text rest) :
    Reads current cs (fun t => Matches t kind text) cs :=
  fun s hs => ⟨s.token, s, rfl, hs, (hs.facing h).token⟩

theorem reads_sameLine (h : SameLine cs) :
    Reads current cs (fun t => t.newlineBefore = false) cs := by
  rintro s ⟨s₀, offset, rfl, hquiet⟩
  refine ⟨_, _, rfl, ⟨s₀, offset, rfl, hquiet⟩, ?_⟩
  have hline := h offset
  simp only [State.read]
  split
  · exact hline
  · exact hline

theorem reads_get (h : Lexes cs kind text rest) :
    Reads (get : Parser State) cs (fun s => Matches s.token kind text) cs :=
  fun s hs => ⟨s, s, rfl, hs, (hs.facing h).token⟩

theorem reads_notArrows (h : Lexes cs kind text rest) :
    Reads (get : Parser State) cs (fun s => s.notArrows = []) cs :=
  fun s hs => ⟨s, s, rfl, hs, (hs.facing h).notArrows⟩

theorem reads_advance (h : Lexes cs kind text rest) : Reads advance cs (fun _ => True) rest :=
  fun _ hs => ⟨(), _, rfl, (hs.facing h).before_read, trivial⟩

theorem reads_position : Reads position cs (fun _ => True) cs :=
  fun s hs => ⟨s.token.start, s, rfl, hs, trivial⟩

theorem reads_peek (h : Lexes cs kind text rest) {kind' : TokenKind} {text' : List Char}
    (h' : Lexes rest kind' text' rest') : Reads peek cs (fun t => Matches t kind' text') cs := by
  intro s hs
  have hfacing := hs.facing h
  refine ⟨_, s, rfl, hs, ?_⟩
  rw [hfacing.after]
  exact (facing_read h' hfacing.lexical hfacing.reported hfacing.openDefaults hfacing.notArrows
    hfacing.total).token

theorem Reads.attempt {p : Parser α} {good : α → Prop} (h : Reads p cs good rest) :
    Reads (attempt p) cs (fun answer => ∃ a, answer = some a ∧ good a) rest := by
  intro s hs
  obtain ⟨a, s', hrun, hs', ha⟩ := h s hs
  refine ⟨some a, s', ?_, hs', a, rfl, ha⟩
  rw [StateT.run] at hrun ⊢
  unfold Grammar.attempt
  rw [hrun]

theorem Reads.lookahead {p : Parser α} {good : α → Prop} (h : Reads p cs good rest) :
    Reads (lookahead p) cs (fun answer => ∃ a, answer = some a ∧ good a) cs := by
  intro s hs
  obtain ⟨a, s', hrun, -, ha⟩ := h s hs
  refine ⟨some a, s, ?_, hs, a, rfl, ha⟩
  rw [StateT.run] at hrun ⊢
  unfold Grammar.lookahead
  rw [hrun]

theorem reads_finish (form : Form) (start : Nat) (children : List Node) :
    Reads (finish form start children) cs (fun n => ∃ span, n = .node form span children) cs :=
  fun s hs => ⟨_, s, rfl, hs, _, rfl⟩

theorem reads_takeLeaf (form : String → Form) (h : Lexes cs kind text rest) :
    Reads (takeLeaf form) cs (fun n => ∃ span,
      n = .leaf (form (String.ofList text)) span) rest := by
  unfold takeLeaf
  refine .bind (reads_current h) fun t ht => .bind (reads_advance h) fun _ _ => reads_pure ?_
  exact ⟨⟨t.start, t.stop⟩, by rw [ht.text_eq]⟩

theorem reads_atMark (h : Lexes cs kind text rest) (m : String) :
    Reads (atMark m) cs (fun b => b = (kind == .punctuator && String.ofList text == m)) cs := by
  refine .bind (reads_current h) fun t ht => reads_pure ?_
  rw [Token.isMark, ht.kind_eq, ht.text_eq]

theorem reads_atWord (h : Lexes cs kind text rest) (w : String) :
    Reads (atWord w) cs (fun b => b = (kind == .word && String.ofList text == w)) cs := by
  refine .bind (reads_current h) fun t ht => reads_pure ?_
  simp [Token.isWord, ht.kind_eq, ht.text_eq, ht.plain]

theorem reads_expectMark {m : String} (h : Lexes cs .punctuator text rest)
    (hm : String.ofList text = m) : Reads (expectMark m) cs (fun _ => True) rest := by
  refine .bind (reads_atMark h m) fun b hb => ?_
  simpa [hb, hm] using reads_advance h

theorem reads_expectWord {w : String} (h : Lexes cs .word text rest)
    (hw : String.ofList text = w) : Reads (expectWord w) cs (fun _ => True) rest := by
  refine .bind (reads_atWord h w) fun b hb => ?_
  simpa [hb, hw] using reads_advance h

theorem reads_eatMark {m : String} (h : Lexes cs .punctuator text rest)
    (hm : String.ofList text = m) : Reads (eatMark m) cs (fun b => b = true) rest := by
  refine .bind (reads_atMark h m) fun b hb => ?_
  have htaken : b = true := by simpa [hm] using hb
  subst htaken
  exact .bind (reads_advance h) fun _ _ => reads_pure rfl

theorem reads_eatMark_other {m : String} (h : Lexes cs kind text rest)
    (hm : (kind == .punctuator && String.ofList text == m) = false) :
    Reads (eatMark m) cs (fun b => b = false) cs := by
  refine .bind (reads_atMark h m) fun b hb => ?_
  rw [hm] at hb
  subst hb
  exact reads_pure rfl

theorem reads_eatWord {w : String} (h : Lexes cs .word text rest)
    (hw : String.ofList text = w) : Reads (eatWord w) cs (fun b => b = true) rest := by
  refine .bind (reads_atWord h w) fun b hb => ?_
  have htaken : b = true := by simpa [hw] using hb
  subst htaken
  exact .bind (reads_advance h) fun _ _ => reads_pure rfl

theorem reads_eatWord_other {w : String} (h : Lexes cs kind text rest)
    (hw : (kind == .word && String.ofList text == w) = false) :
    Reads (eatWord w) cs (fun b => b = false) cs := by
  refine .bind (reads_atWord h w) fun b hb => ?_
  rw [hw] at hb
  subst hb
  exact reads_pure rfl

theorem reads_stringLiteral (h : Lexes cs .string text rest) :
    Reads stringLiteral cs (fun n => ∃ span, n = .leaf (.string (String.ofList text)) span)
      rest := by
  refine .bind (reads_current h) fun t ht => ?_
  simpa [ht.kind_eq] using reads_takeLeaf .string h

theorem reads_moduleName (h : Lexes cs .word text rest) :
    Reads moduleName cs (fun n => ∃ span, n = .leaf (.label (String.ofList text)) span) rest := by
  refine .bind (reads_current h) fun t ht => ?_
  simp only [ht.kind_eq]
  refine .bind (reads_current h) fun t' ht' => ?_
  simpa [ht'.kind_eq] using reads_takeLeaf .label h

theorem reads_endStatement (h : Lexes cs .punctuator [';'] rest) :
    Reads endStatement cs (fun _ => True) rest := by
  have hinsert : Reads canInsertSemicolon cs (fun b => b = true) cs := by
    refine .bind (reads_current h) fun t ht => reads_pure ?_
    simp [Token.isMark, ht.kind_eq, ht.text_eq]
  refine .bind hinsert fun b hb => ?_
  subst hb
  exact .bind (reads_eatMark h rfl) fun _ _ => reads_pure trivial

theorem reads_stepLimit (h : Lexes cs kind text rest) :
    Reads stepLimit cs (fun n => rest.length < n) cs := by
  intro s hs
  have hfacing := hs.facing h
  refine ⟨_, s, rfl, hs, ?_⟩
  have htotal := hfacing.total
  have hstart := hfacing.start_le
  have hlength := length_le_byteLength rest
  omega

theorem reads_collect {ι : Type} {step : Parser (Option Node)} {good : ι → Node → Prop}
    (write : ι → List Char → List Char) {items : List ι}
    (hend : Reads step rest (fun answer => answer = none) rest)
    (hitem : ∀ before i after, items = before ++ i :: after →
      Reads step (write i (after.foldr write rest)) (fun answer => ∃ n, answer = some n ∧ good i n)
        (after.foldr write rest)) :
    ∀ limit, items.length < limit →
      Reads (collect step limit) (items.foldr write rest)
        (fun ns => List.Forall₂ good items ns) rest := by
  induction items with
  | nil =>
      rintro (_ | limit) hlimit
      · cases hlimit
      · refine .bind hend fun answer hanswer => ?_
        subst hanswer
        exact reads_pure .nil
  | cons i items ih =>
      rintro (_ | limit) hlimit
      · cases hlimit
      · refine .bind (hitem [] i items rfl) fun answer hanswer => ?_
        obtain ⟨n, rfl, hn⟩ := hanswer
        have hrest :=
          ih (fun before j after heq => hitem (i :: before) j after (by rw [heq]; rfl)) limit
          (Nat.lt_of_succ_lt_succ hlimit)
        exact .bind hrest fun ns hns => reads_pure (.cons hn hns)

theorem reads_many_none {step : Parser (Option Node)} (h : Lexes cs kind text rest)
    (hstep : Reads step cs (fun answer => answer = none) cs) :
    Reads (many step) cs (fun ns => ns = []) cs := by
  refine .bind (reads_stepLimit h) fun limit hlimit => ?_
  obtain ⟨limit, rfl⟩ : ∃ k, limit = k + 1 := ⟨limit - 1, by omega⟩
  refine .bind hstep fun answer hanswer => ?_
  subst hanswer
  exact reads_pure rfl

/-- The text of items behind the first one of a list. -/
def following {ι : Type} (text : ι → List Char) (items : List ι) (rest : List Char) : List Char :=
  items.foldr (fun i r => ',' :: ' ' :: (text i ++ r)) rest

theorem intercalate_cons {ι : Type} (text : ι → List Char) (i : ι) (items : List ι)
    (rest : List Char) :
    [',', ' '].intercalate ((i :: items).map text) ++ rest =
      text i ++ following text items rest := by
  induction items generalizing i with
  | nil => simp [following]
  | cons j items ih =>
      have htail := ih j
      simp only [List.map_cons, following, List.foldr_cons] at htail ⊢
      rw [List.intercalate_cons_cons, List.append_assoc, List.append_assoc, htail]
      simp

theorem length_following {ι : Type} (text : ι → List Char) (items : List ι) (rest : List Char) :
    2 * items.length + rest.length ≤ (following text items rest).length := by
  induction items with
  | nil => simp [following]
  | cons i items ih =>
      simp only [following, List.foldr_cons, List.length_cons, List.length_append] at ih ⊢
      omega

/-- A text that an item of a list starts with: no mark, and not the end. -/
def StartsItem (cs : List Char) : Prop :=
  ∃ kind text rest, Lexes cs kind text rest ∧ kind ≠ .punctuator ∧ kind ≠ .eof ∧ kind ≠ .invalid

theorem StartsItem.blank (h : StartsItem cs) : StartsItem (' ' :: cs) := by
  obtain ⟨kind, text, rest, hlexes, hkind⟩ := h
  exact ⟨kind, text, rest, lexes_blank hlexes, hkind⟩

theorem reads_commaItem_end {mark : String} {item : Parser Node}
    (h : Lexes cs .punctuator text rest) (hmark : String.ofList text = mark) :
    Reads (commaItem mark item) cs (fun answer => answer = none) cs := by
  refine .bind (reads_current h) fun t ht => ?_
  have hends : endsList mark t = true := by
    simp [endsList, Token.isMark, ht.kind_eq, ht.text_eq, hmark]
  rw [if_pos hends]
  exact reads_pure rfl

theorem reads_commaItem {mark : String} {item : Parser Node} {good : Node → Prop}
    (hmark : mark ≠ ",") (hstart : StartsItem cs) (hitem : Reads item cs good rest) :
    Reads (commaItem mark item) (',' :: cs) (fun answer => ∃ n, answer = some n ∧ good n) rest := by
  have hcomma : Lexes (',' :: cs) .punctuator [','] cs := lexes_mark (by decide) cs
  obtain ⟨kind, text, rest', hlexes, hkind, -, -⟩ := hstart
  refine .bind (reads_current hcomma) fun t ht => ?_
  have htext : t.text = "," := ht.text_eq
  have hends : endsList mark t = false := by
    simp [endsList, Token.isMark, ht.kind_eq, htext, Ne.symm hmark]
  have htaken : t.isMark "," = true := by
    simp [Token.isMark, ht.kind_eq, htext]
  simp only [hends, htaken, Bool.false_eq_true, if_false, Bool.not_true]
  refine .bind (reads_advance hcomma) fun _ _ => .bind (reads_atMark hlexes _) fun b hb => ?_
  have hopen : b = false := by simp [hb, hkind]
  subst hopen
  exact .bind hitem fun n hn => reads_pure ⟨n, rfl, hn⟩

section

variable {ι : Type} {write : ι → List Char} {item : Parser Node} {good : ι → Node → Prop}
  {items : List ι} {mark : String}

theorem reads_many_commaItem (hmark : mark ≠ ",") (hclose : Lexes rest .punctuator text rest')
    (htext : String.ofList text = mark)
    (hitem : ∀ before i after, items = before ++ i :: after →
      StartsItem (write i ++ following write after rest) ∧
        Reads item (write i ++ following write after rest) (good i) (following write after rest)) :
    Reads (many (commaItem mark item)) (following write items rest)
      (fun ns => List.Forall₂ good items ns) rest := by
  -- Every item takes at least a comma and a blank, so the limit is not met.
  have hlimit : Reads stepLimit (following write items rest) (fun limit => items.length < limit)
      (following write items rest) := by
    cases items with
    | nil => exact (reads_stepLimit hclose).mono fun limit h => by simp; omega
    | cons i items =>
        have hlength := length_following write items rest
        refine (reads_stepLimit (lexes_mark (by decide) _)).mono fun limit h => ?_
        simp only [following, List.length_cons, List.length_append] at h hlength ⊢
        omega
  refine .bind hlimit fun limit hlimit => ?_
  refine reads_collect _ (reads_commaItem_end hclose htext) ?_ limit hlimit
  rintro before i after heq
  obtain ⟨hstart, hread⟩ := hitem before i after heq
  exact reads_commaItem hmark hstart.blank hread.blank

theorem reads_commaItems (hmark : mark ≠ ",") (hclose : Lexes rest .punctuator text rest')
    (htext : String.ofList text = mark)
    (hitem : ∀ before i after, items = before ++ i :: after →
      StartsItem (write i ++ following write after rest) ∧
        Reads item (write i ++ following write after rest) (good i) (following write after rest)) :
    Reads (commaItems mark item) ([',', ' '].intercalate (items.map write) ++ rest)
      (fun ns => List.Forall₂ good items ns) rest := by
  cases items with
  | nil =>
      refine .bind (reads_current hclose) fun t ht => ?_
      have hends : endsList mark t = true := by
        simp [endsList, Token.isMark, ht.kind_eq, ht.text_eq, htext]
      rw [if_pos hends]
      exact reads_pure .nil
  | cons i items =>
      rw [intercalate_cons]
      obtain ⟨⟨kind, w, r, hlexes, hpunctuator, heof, hinvalid⟩, hread⟩ := hitem [] i items rfl
      refine .bind (reads_current hlexes) fun t ht => ?_
      have hends : endsList mark t = false := by
        simp [endsList, Token.isMark, ht.kind_eq, hpunctuator, heof, hinvalid]
      simp only [hends, Bool.false_eq_true, if_false]
      refine .bind hread fun first hfirst => ?_
      refine .bind (reads_many_commaItem hmark hclose htext ?_) fun more hmore =>
        reads_pure (.cons hfirst hmore)
      rintro before j after rfl
      exact hitem (i :: before) j after rfl

end

theorem eraseList_of_forall₂ {ι : Type} {f : ι → Node} {items : List ι} {ns : List Node}
    (h : List.Forall₂ (fun i n => n.erase = f i) items ns) : Node.eraseList ns = items.map f := by
  induction h with
  | nil => rfl
  | cons hn _ ih =>
      rw [Node.eraseList, hn, ih, List.map_cons]

theorem directive?_eq_none {n : Node} (h : n.form ≠ .expressionStatement) (raw : String) :
    directive? raw n = none := by
  unfold directive?
  split
  · exact absurd rfl h
  · rfl

/-- Statements one behind the other. `starts` says of a text that some statements come next in it,
and each of them starts with a word and leaves a text in which the others come next. -/
theorem reads_bodyItems {ι : Type} (rules : Rules) (ctx : Context) (close : Option String)
    {node : ι → Node} (starts : List Char → List ι → Prop)
    (hform : ∀ i, (node i).form ≠ .expressionStatement)
    (hend : ∀ cs, starts cs [] →
      Reads (get : Parser State) cs
        (fun s => (s.token.kind == .eof || (close.map s.token.isMark).getD false) = true) cs)
    (hitem : ∀ cs i items, starts cs (i :: items) →
      (∃ text rest, Lexes cs .word text rest) ∧ ∃ rest, starts rest items ∧
        Reads (rules ctx .statement) cs (fun n => n.erase = node i) rest) :
    ∀ (items : List ι) (cs : List Char) (isPrologue : Bool) (limit : Nat), starts cs items →
      items.length < limit → ∃ rest, starts rest [] ∧
        Reads (bodyItems rules ctx close isPrologue limit) cs
          (fun ns => Node.eraseList ns = items.map node) rest := by
  intro items
  induction items with
  | nil =>
      rintro cs isPrologue (_ | limit) hcs hlimit
      · cases hlimit
      · refine ⟨cs, hcs, .bind (hend cs hcs) fun s hs => ?_⟩
        simp only [hs]
        exact reads_pure rfl
  | cons i items ih =>
      rintro cs isPrologue (_ | limit) hcs hlimit
      · cases hlimit
      · obtain ⟨⟨text, after, hlexes⟩, cs', hcs', hread⟩ := hitem cs i items hcs
        obtain ⟨rest, hrest, hreads⟩ := ih cs' false limit hcs' (Nat.lt_of_succ_lt_succ hlimit)
        refine ⟨rest, hrest, .bind (reads_get hlexes) fun s hs => ?_⟩
        have hopen : (s.token.kind == .eof || (close.map s.token.isMark).getD false) = false := by
          cases close <;> simp [Token.isMark, hs.kind_eq]
        simp only [hopen, Bool.false_eq_true, if_false]
        refine .bind hread fun n hn => ?_
        have hn' : n.form ≠ .expressionStatement := by
          rw [show n.form = n.erase.form by cases n; rfl, hn]
          exact hform i
        rw [directive?_eq_none hn', ite_self]
        refine .bind hreads fun ns hns => reads_pure ?_
        rw [Node.eraseList, hn, hns, List.map_cons]

/-- A rule that does not fail and leaves the state as it is. -/
def Quiet (p : Parser α) : Prop := ∀ s, ∃ a, p.run s = .ok (a, s)

theorem Quiet.reads {p : Parser α} (h : Quiet p) : Reads p cs (fun _ => True) cs := by
  intro s hs
  obtain ⟨a, hrun⟩ := h s
  exact ⟨a, s, hrun, hs, trivial⟩

theorem quiet_pure (a : α) : Quiet (pure a) := fun _ => ⟨a, rfl⟩

theorem Quiet.bind {p : Parser α} {f : α → Parser β} (h : Quiet p) (h' : ∀ a, Quiet (f a)) :
    Quiet (p >>= f) := by
  intro s
  obtain ⟨a, hrun⟩ := h s
  obtain ⟨b, hrun'⟩ := h' a s
  refine ⟨b, ?_⟩
  rw [StateT.run_bind, hrun]
  exact hrun'

theorem Quiet.ite {p q : Parser α} {c : Prop} [Decidable c] (h : Quiet p) (h' : Quiet q) :
    Quiet (if c then p else q) := by
  split
  · exact h
  · exact h'

theorem quiet_current : Quiet current := fun s => ⟨s.token, rfl⟩

theorem quiet_atWord (w : String) : Quiet (atWord w) := fun s => ⟨s.token.isWord w, rfl⟩

theorem quiet_atMark (m : String) : Quiet (atMark m) := fun s => ⟨s.token.isMark m, rfl⟩

theorem quiet_peek : Quiet peek := fun _ => ⟨_, rfl⟩

theorem quiet_peekSecond : Quiet peekSecond := fun _ => ⟨_, rfl⟩

theorem quiet_lookahead (p : Parser α) : Quiet (lookahead p) := by
  intro s
  unfold lookahead
  cases hrun : p s with
  | ok answer => exact ⟨some answer.1, by simp [StateT.run, hrun]⟩
  | error failure => exact ⟨none, by simp [StateT.run, hrun]⟩

theorem reads_statementRule {rules : Rules} {ctx : Context} {cs after rest : List Char}
    {kind : TokenKind} {text : List Char} {good : Node → Prop} (h : Lexes cs kind text after)
    (hplain : Reads (plainStatement rules ctx) cs good rest) :
    Reads (statementRule rules ctx) cs good rest := by
  refine .bind (reads_current h) fun t ht => .bind hplain fun n hn => ?_
  simp only [ht.silent, Bool.false_eq_true, if_false]
  exact reads_pure hn

end

end TemplateCompiler.Grammar
