import Mathlib.Data.Fintype.Basic
import Mathlib.Tactic.FinCases
import TemplateCompiler.Syntax.Scanner
import TemplateCompiler.Text.Quoted

namespace TemplateCompiler.Scanner

open Text

theorem byteLength_append (cs ds : List Char) :
    byteLength (cs ++ ds) = byteLength cs + byteLength ds := by
  induction cs with
  | nil => simp [byteLength]
  | cons c cs ih => simp [byteLength, ih, Nat.add_assoc]

theorem length_le_byteLength (cs : List Char) : cs.length ≤ byteLength cs := by
  induction cs with
  | nil => simp
  | cons c cs ih =>
      have hc := c.utf8Size_pos
      simp only [byteLength, List.length_cons]
      omega

/-- A text that starts with a token of the given kind and text, plainly spelt and without a fault.
Only blanks and line ends are skipped in front of it. -/
def Lexes (cs : List Char) (kind : TokenKind) (text rest : List Char) : Prop :=
  ∀ offset before, ∃ start stop newline,
    skipGap .between { offset, newline := before } cs = { rest := start, offset := stop, newline } ∧
    (lexeme start).kind = kind ∧ (lexeme start).text = text ∧ (lexeme start).rest = rest ∧
    (lexeme start).isEscaped = false ∧ (lexeme start).faults = [] ∧
    stop + (lexeme start).width + byteLength rest = offset + byteLength cs

def startsToken (c : Char) : Bool := !isLineEnd c && !isBlank c && c != '/'

theorem skipGap_of_startsToken {c : Char} (hc : startsToken c = true) (gap : Gap) (cs : List Char) :
    skipGap .between gap (c :: cs) = { gap with rest := c :: cs } := by
  simp only [startsToken, Bool.and_eq_true, Bool.not_eq_true', bne_iff_ne] at hc
  obtain ⟨⟨hline, hblank⟩, hslash⟩ := hc
  unfold skipGap
  simp [hline, hblank, hslash]

theorem skipGap_blank (gap : Gap) (cs : List Char) :
    skipGap .between gap (' ' :: cs) =
      skipGap .between { gap with offset := gap.offset + 1 } cs := by
  conv_lhs => unfold skipGap
  simp only [show isLineEnd ' ' = false from rfl, show isBlank ' ' = true from rfl]
  rfl

theorem skipGap_newline (gap : Gap) (cs : List Char) :
    skipGap .between gap ('\n' :: cs) =
      skipGap .between { gap with newline := true, offset := gap.offset + 1 } cs := by
  conv_lhs => unfold skipGap
  simp only [show isLineEnd '\n' = true from rfl]
  rfl

theorem lexes_of_lexeme {c : Char} {cs text rest : List Char} {kind : TokenKind}
    (hc : startsToken c = true) (hkind : (lexeme (c :: cs)).kind = kind)
    (htext : (lexeme (c :: cs)).text = text) (hrest : (lexeme (c :: cs)).rest = rest)
    (hplain : (lexeme (c :: cs)).isEscaped = false) (hsound : (lexeme (c :: cs)).faults = [])
    (hwidth : (lexeme (c :: cs)).width + byteLength rest = byteLength (c :: cs)) :
    Lexes (c :: cs) kind text rest := by
  intro offset before
  refine ⟨c :: cs, offset, before, ?_, hkind, htext, hrest, hplain, hsound, by omega⟩
  exact skipGap_of_startsToken hc _ cs

theorem lexes_blank {cs text rest : List Char} {kind : TokenKind} (h : Lexes cs kind text rest) :
    Lexes (' ' :: cs) kind text rest := by
  intro offset before
  obtain ⟨start, stop, newline, hgap, hkind, htext, hrest, hplain, hsound, hwidth⟩ :=
    h (offset + 1) before
  refine ⟨start, stop, newline, (skipGap_blank _ cs).trans hgap, hkind, htext, hrest, hplain,
    hsound, ?_⟩
  simp only [byteLength, show Char.utf8Size ' ' = 1 from rfl]
  omega

theorem lexes_newline {cs text rest : List Char} {kind : TokenKind} (h : Lexes cs kind text rest) :
    Lexes ('\n' :: cs) kind text rest := by
  intro offset before
  obtain ⟨start, stop, newline, hgap, hkind, htext, hrest, hplain, hsound, hwidth⟩ :=
    h (offset + 1) true
  refine ⟨start, stop, newline, (skipGap_newline _ cs).trans hgap, hkind, htext, hrest, hplain,
    hsound, ?_⟩
  simp only [byteLength, show Char.utf8Size '\n' = 1 from rfl]
  omega

theorem lexes_nil : Lexes [] .eof [] [] := by
  intro offset before
  exact ⟨[], offset, before, rfl, rfl, rfl, rfl, rfl, rfl, rfl⟩

/-- Marks of one character that no longer mark starts with. -/
def soloMarks : List Char := ['{', '}', '(', ')', '[', ']', ';', ',']

theorem lexes_mark {c : Char} (hc : c ∈ soloMarks) (rest : List Char) :
    Lexes (c :: rest) .punctuator [c] rest := by
  simp only [soloMarks, List.mem_cons, List.not_mem_nil, or_false] at hc
  rcases hc with rfl | rfl | rfl | rfl | rfl | rfl | rfl | rfl <;>
    exact lexes_of_lexeme rfl rfl rfl rfl rfl rfl rfl

theorem lexes_equals (rest : List Char) :
    Lexes ('=' :: ' ' :: rest) .punctuator ['='] (' ' :: rest) :=
  lexes_of_lexeme rfl rfl rfl rfl rfl rfl rfl

theorem lexes_arrow (rest : List Char) : Lexes ('=' :: '>' :: rest) .punctuator ['=', '>'] rest :=
  lexes_of_lexeme rfl rfl rfl rfl rfl rfl (Nat.add_assoc 1 1 (byteLength rest))

def endsName : List Char → Bool
  | [] => true
  | c :: _ => !isNamePart c && c != '\\'

theorem nameText_append {w rest : List Char} (hw : w.all isNamePart = true)
    (hrest : endsName rest = true) :
    nameText .plain (w ++ rest) = { letters := w, raw := w, rest } := by
  induction w with
  | nil =>
      cases rest with
      | nil => rfl
      | cons c rest =>
          simp only [endsName, Bool.and_eq_true, Bool.not_eq_true', bne_iff_ne] at hrest
          rw [List.nil_append]
          unfold nameText
          simp [hrest.1, hrest.2]
  | cons c w ih =>
      simp only [List.all_cons, Bool.and_eq_true] at hw
      rw [List.cons_append]
      unfold nameText
      simp [hw.1, ih hw.2, NameText.cons]

theorem isNamePart_of_isNameStart {c : Char} (h : isNameStart c = true) : isNamePart c = true := by
  unfold isNameStart at h
  unfold isNamePart
  split at h
  · rename_i hc
    simp only [Bool.or_eq_true] at h
    rcases h with (h | h) | h <;> simp [hc, Char.isAlphanum, h]
  · rename_i hc
    simp [hc, h]

theorem isNameStart_of_mem_blanks : ∀ c ∈ blanks, isNameStart c = false := by
  have hnone : blanks.any isNameStart = false := by decide +kernel
  simpa using hnone

theorem isNameStart_of_wide :
    ∀ n : Fin 12, isNameStart (Char.ofNat (0x2000 + n)) = false := by
  decide +kernel

theorem not_isNameStart_of_isBlank {c : Char} (h : isBlank c = true) : isNameStart c = false := by
  simp only [isBlank, Bool.or_eq_true, Bool.and_eq_true, decide_eq_true_eq] at h
  rcases h with h | ⟨hlow, hhigh⟩
  · exact isNameStart_of_mem_blanks c (by simpa using h)
  · have hlow : 0x2000 ≤ c.toNat := hlow
    have hhigh : c.toNat ≤ 0x200b := hhigh
    have hwide := isNameStart_of_wide ⟨c.toNat - 0x2000, by omega⟩
    rwa [show 0x2000 + (c.toNat - 0x2000) = c.toNat by omega, Char.ofNat_toNat] at hwide

theorem startsToken_of_isNameStart {c : Char} (h : isNameStart c = true) :
    startsToken c = true := by
  have hblank : isBlank c = false := by
    by_contra hc
    rw [not_isNameStart_of_isBlank (by simpa using hc)] at h
    cases h
  have hline : ∀ d ∈ ['\n', '\r', '\u2028', '\u2029', '/'], c ≠ d := by
    rintro d hd rfl
    have hnone : ['\n', '\r', '\u2028', '\u2029', '/'].any isNameStart = false := by decide +kernel
    rw [List.any_eq_false] at hnone
    exact hnone c hd h
  simp only [List.mem_cons, List.not_mem_nil, or_false, forall_eq_or_imp, forall_eq] at hline
  simp [startsToken, isLineEnd, hblank, hline]

theorem lexes_word {w rest : List Char} (hw : isName w = true) (hrest : endsName rest = true) :
    Lexes (w ++ rest) .word w rest := by
  cases w with
  | nil => cases hw
  | cons c w =>
      simp only [isName, Bool.and_eq_true] at hw
      have hpart := isNamePart_of_isNameStart hw.1
      have hname : nameText .plain (c :: (w ++ rest)) =
          { letters := c :: w, raw := c :: w, rest } :=
        nameText_append (w := c :: w) (by simp [hpart, hw.2]) hrest
      have hlexeme : lexeme (c :: (w ++ rest)) = wordLexeme c (w ++ rest) := by
        simp [lexeme, hw.1]
      rw [List.cons_append]
      apply lexes_of_lexeme (startsToken_of_isNameStart hw.1)
      all_goals
        rw [hlexeme]
        simp [wordLexeme, hname, hw.1, byteLength, byteLength_append, Nat.add_assoc]

theorem isNameStart_of_digit : ∀ n : Fin 10, isNameStart (Char.ofNat (48 + n)) = false := by
  decide

theorem not_isDigit_of_isNameStart {c : Char} (h : isNameStart c = true) : c.isDigit = false := by
  by_contra hdigit
  have hbounds : (decide (c.val ≥ '0'.val) && decide (c.val ≤ '9'.val)) = true :=
    eq_true_of_ne_false hdigit
  simp only [Bool.and_eq_true, decide_eq_true_eq] at hbounds
  have hlow : 48 ≤ c.toNat := hbounds.1
  have hhigh : c.toNat ≤ 57 := hbounds.2
  have hname := isNameStart_of_digit ⟨c.toNat - 48, by omega⟩
  rw [show 48 + (c.toNat - 48) = c.toNat by omega, Char.ofNat_toNat, h] at hname
  cases hname

theorem lexes_point {w rest : List Char} (hw : isName w = true) :
    Lexes ('.' :: (w ++ rest)) .punctuator ['.'] (w ++ rest) := by
  cases w with
  | nil => cases hw
  | cons c w =>
      simp only [isName, Bool.and_eq_true] at hw
      have hdigit : c.isDigit = false := not_isDigit_of_isNameStart hw.1
      have hpoint : ('.' == c) = false := by
        apply beq_false_of_ne
        rintro rfl
        exact absurd hw.1 (by decide)
      have hmark : mark? ('.' :: c :: (w ++ rest)) = some ['.'] := by
        rw [mark?, show marks = ['.', '.', '.'] :: marks.tail from rfl,
          List.find?_cons_of_neg (by simp [List.isPrefixOf, hpoint])]
        rfl
      have hlexeme : lexeme ('.' :: c :: (w ++ rest)) =
          markLexeme ['.'] ('.' :: c :: (w ++ rest)) := by
        simp [lexeme, hdigit, hmark, show isNameStart '.' = false from rfl]
      rw [List.cons_append]
      apply lexes_of_lexeme rfl
      all_goals rw [hlexeme]
      all_goals rfl

/-- No line ends before the token that a text starts with. -/
def SameLine (cs : List Char) : Prop := ∀ offset, (skipGap .between { offset } cs).newline = false

theorem sameLine_of_startsToken {c : Char} (hc : startsToken c = true) (cs : List Char) :
    SameLine (c :: cs) := by
  intro offset
  rw [skipGap_of_startsToken hc]

theorem sameLine_of_isName {w : List Char} (hw : isName w = true) (cs : List Char) :
    SameLine (w ++ cs) := by
  cases w with
  | nil => cases hw
  | cons c w =>
      simp only [isName, Bool.and_eq_true] at hw
      exact sameLine_of_startsToken (startsToken_of_isNameStart hw.1) _

theorem SameLine.blank {cs : List Char} (h : SameLine cs) : SameLine (' ' :: cs) := by
  intro offset
  rw [skipGap_blank]
  exact h (offset + 1)

/-- A character that stands for itself in a string. -/
def isPlain (c : Char) : Bool := c != '"' && c != '\\' && c != '\n' && c != '\r'

theorem stringContent_cons {c : Char} (hc : isPlain c = true) {rest content after : List Char}
    (h : stringContent '"' false rest = some (content, after)) :
    stringContent '"' false (c :: rest) = some (c :: content, after) := by
  simp only [isPlain, Bool.and_eq_true, bne_iff_ne] at hc
  obtain ⟨⟨⟨hquote, hslash⟩, hfeed⟩, hreturn⟩ := hc
  unfold stringContent
  simp [hquote, beq_false_of_ne hslash, hfeed, hreturn, h]

theorem stringContent_escape {c : Char} (hc : c ≠ '\r') {rest content after : List Char}
    (h : stringContent '"' false rest = some (content, after)) :
    stringContent '"' false ('\\' :: c :: rest) = some ('\\' :: c :: content, after) := by
  have hescaped : stringContent '"' true (c :: rest) = some (c :: content, after) := by
    unfold stringContent
    simp [hc, h]
  conv_lhs => unfold stringContent
  simp [hescaped]

theorem stringContent_append {w rest content after : List Char} (hw : w.all isPlain = true)
    (h : stringContent '"' false rest = some (content, after)) :
    stringContent '"' false (w ++ rest) = some (w ++ content, after) := by
  induction w with
  | nil => exact h
  | cons c w ih =>
      simp only [List.all_cons, Bool.and_eq_true] at hw
      exact stringContent_cons hw.1 (ih hw.2)

theorem unitEscape_eq (n : Fin 32) : ∃ digits : List Char,
    Quoted.unitEscape (Char.ofNat n) = '\\' :: 'u' :: digits ∧ digits.all isPlain = true ∧
      ∀ rest, stringValue .plain none ('\\' :: 'u' :: digits ++ rest) =
        Char.ofNat n :: stringValue .plain none rest := by
  fin_cases n <;> exact ⟨_, rfl, rfl, fun _ => rfl⟩

/-- Characters of a string that are read as the single character that they were written for. -/
def ReadsAs (written : List Char) (c : Char) : Prop :=
  (∀ rest content after, stringContent '"' false rest = some (content, after) →
    stringContent '"' false (written ++ rest) = some (written ++ content, after)) ∧
  ∀ rest, stringValue .plain none (written ++ rest) = c :: stringValue .plain none rest

def simpleEscapes : List Char := ['"', '\\', 'n', 'r', 't', 'b', 'f']

theorem stringValue_escape {e : Char} (he : e ∈ simpleEscapes) (rest : List Char) :
    stringValue .plain none ('\\' :: e :: rest) =
      simpleEscape e :: stringValue .plain none rest := by
  have hopen : stringValue .plain none ('\\' :: e :: rest) =
      stringValue .escape none (e :: rest) := by
    conv_lhs => unfold stringValue
    rfl
  rw [hopen]
  conv_lhs => unfold stringValue
  simp only [simpleEscapes, List.mem_cons, List.not_mem_nil, or_false] at he
  rcases he with rfl | rfl | rfl | rfl | rfl | rfl | rfl <;> rfl

theorem readsAs_escape {c e : Char} (he : e ∈ simpleEscapes) (hc : simpleEscape e = c) :
    ReadsAs ['\\', e] c := by
  have hreturn : e ≠ '\r' := by
    rintro rfl
    exact absurd he (by decide)
  refine ⟨fun rest content after h => stringContent_escape hreturn h, fun rest => ?_⟩
  rw [← hc]
  exact stringValue_escape he rest

theorem readsAs_moduleChar (c : Char) : ReadsAs (Quoted.moduleChar c) c := by
  have hsimple : ∀ d e : Char, e ∈ simpleEscapes → simpleEscape e = d → (c == d) = true →
      ReadsAs ['\\', e] c := by
    intro d e he hd hc
    exact readsAs_escape he (hd.trans (beq_iff_eq.mp hc).symm)
  unfold Quoted.moduleChar
  split
  · exact hsimple _ _ (by decide) rfl ‹_›
  split
  · exact hsimple _ _ (by decide) rfl ‹_›
  split
  · exact hsimple _ _ (by decide) rfl ‹_›
  split
  · exact hsimple _ _ (by decide) rfl ‹_›
  split
  · exact hsimple _ _ (by decide) rfl ‹_›
  split
  · exact hsimple _ _ (by decide) rfl ‹_›
  split
  · exact hsimple _ _ (by decide) rfl ‹_›
  split
  · rename_i hcontrol
    obtain ⟨digits, hescape, hplain, hvalue⟩ := unitEscape_eq ⟨c.toNat, hcontrol⟩
    rw [Char.ofNat_toNat] at hescape hvalue
    rw [hescape]
    refine ⟨fun rest content after h => ?_, hvalue⟩
    exact stringContent_escape (by decide) (stringContent_append hplain h)
  · rename_i hquote hslash hfeed hreturn _ _ _ _
    have hplain : isPlain c = true := by simp_all [isPlain]
    refine ⟨fun rest content after h => stringContent_cons hplain h, fun rest => ?_⟩
    conv_lhs => unfold stringValue
    simp only [List.singleton_append, hslash]
    rfl

theorem readsAs_flatMap (value : List Char) :
    (∀ rest content after, stringContent '"' false rest = some (content, after) →
      stringContent '"' false (value.flatMap Quoted.moduleChar ++ rest) =
        some (value.flatMap Quoted.moduleChar ++ content, after)) ∧
    stringValue .plain none (value.flatMap Quoted.moduleChar) = value := by
  induction value with
  | nil => exact ⟨fun _ _ _ h => h, rfl⟩
  | cons c value ih =>
      obtain ⟨hcontent, hvalue⟩ := readsAs_moduleChar c
      refine ⟨fun rest content after h => ?_, ?_⟩
      · rw [List.flatMap_cons, List.append_assoc, List.append_assoc]
        exact hcontent _ _ _ (ih.1 rest content after h)
      · rw [List.flatMap_cons, hvalue, ih.2]

theorem lexes_moduleText (source : String) (rest : List Char) :
    Lexes ((Quoted.moduleText source).toList ++ rest) .string source.toList rest := by
  obtain ⟨hcontent, hvalue⟩ := readsAs_flatMap source.toList
  have hclose : stringContent '"' false ('"' :: rest) = some ([], rest) := by
    unfold stringContent
    rfl
  have hread := hcontent ('"' :: rest) [] rest hclose
  have htext : (Quoted.moduleText source).toList ++ rest =
      '"' :: (source.toList.flatMap Quoted.moduleChar ++ '"' :: rest) := by
    simp [Quoted.moduleText]
  rw [List.append_nil] at hread
  have hlexeme : lexeme ('"' :: (source.toList.flatMap Quoted.moduleChar ++ '"' :: rest)) =
      { kind := .string, text := source.toList, rest,
        width := byteLength (source.toList.flatMap Quoted.moduleChar) + 2 } := by
    have hstring : lexeme ('"' :: (source.toList.flatMap Quoted.moduleChar ++ '"' :: rest)) =
        stringLexeme '"' (source.toList.flatMap Quoted.moduleChar ++ '"' :: rest) := rfl
    rw [hstring, stringLexeme, hread]
    simp [hvalue]
  rw [htext]
  apply lexes_of_lexeme rfl
  all_goals rw [hlexeme]
  simp only [byteLength, byteLength_append, show Char.utf8Size '"' = 1 from rfl]
  omega

end TemplateCompiler.Scanner
