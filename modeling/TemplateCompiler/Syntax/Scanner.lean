import TemplateCompiler.Syntax.Token
import TemplateCompiler.Text.Name

/-!
Reading one token off a list of characters. Every scan is a recursion on the characters, so that
what is left is always a tail of what was given. Offsets count bytes.

The meaning of some characters hangs on where they stand: a `/` may open a regular expression, a `}`
may end a substitution, and between tags everything up to the next tag or brace is text. Such tokens
have scans of their own, and the grammar says which one it wants.
-/

namespace TemplateCompiler.Scanner

open Text

def byteLength : List Char → Nat
  | [] => 0
  | c :: cs => c.utf8Size + byteLength cs

def isLineEnd (c : Char) : Bool :=
  c == '\n' || c == '\r' || c == '\u2028' || c == '\u2029'

/-- Single characters that separate tokens. -/
def blanks : List Char :=
  [' ', '\t', '\x0b', '\x0c', '\u0085', '\u00a0', '\ufeff', '\u1680', '\u202f', '\u205f', '\u3000']

/-- The characters, other than line ends, that separate tokens. -/
def isBlank (c : Char) : Bool := blanks.contains c || ('\u2000' ≤ c && c ≤ '\u200b')

/-- What was skipped before a token. -/
structure Gap where
  rest : List Char := []
  offset : Nat
  newline : Bool := false
  isPure : Bool := false
  isEffectFree : Bool := false
  fault : Option Diagnostic := none

/-- Where a scan between tokens stands. The content of a comment is kept last character first. -/
inductive GapMode where
  | between
  | lineComment (content : List Char)
  | blockComment (start : Nat) (content : List Char)

/-- What a comment announces, by the word that it starts with. -/
def Gap.note (gap : Gap) (content : List Char) : Gap :=
  match content.dropWhile (fun c => isBlank c || isLineEnd c) with
  | c :: word =>
    if c == '@' || c == '#' then
      if "__PURE__".toList.isPrefixOf word then { gap with isPure := true }
      else if "__NO_SIDE_EFFECTS__".toList.isPrefixOf word then { gap with isEffectFree := true }
      else gap
    else gap
  | [] => gap

def skipGap : GapMode → Gap → List Char → Gap
  | .between, gap, [] => { gap with rest := [] }
  | .between, gap, c :: cs =>
    if isLineEnd c then
      skipGap .between { gap with newline := true, offset := gap.offset + c.utf8Size } cs
    else if isBlank c then
      skipGap .between { gap with offset := gap.offset + c.utf8Size } cs
    else if c == '/' then
      match cs with
      | '/' :: cs => skipGap (.lineComment []) { gap with offset := gap.offset + 2 } cs
      | '*' :: cs => skipGap (.blockComment gap.offset []) { gap with offset := gap.offset + 2 } cs
      | cs => { gap with rest := c :: cs }
    else { gap with rest := c :: cs }
  | .lineComment content, gap, [] => gap.note content.reverse
  | .lineComment content, gap, c :: cs =>
    let next := { gap with offset := gap.offset + c.utf8Size }
    if isLineEnd c then
      skipGap .between { next.note content.reverse with newline := true } cs
    else skipGap (.lineComment (c :: content)) next cs
  | .blockComment start _, gap, [] =>
    { gap with rest := [], fault := some ⟨.unterminatedComment, start⟩ }
  | .blockComment start content, gap, c :: cs =>
    let next := { gap with offset := gap.offset + c.utf8Size }
    if c == '*' then
      match cs with
      | '/' :: cs =>
        skipGap .between { next.note content.reverse with offset := next.offset + 1 } cs
      | cs => skipGap (.blockComment start (c :: content)) next cs
    else
      skipGap (.blockComment start (c :: content))
        (if isLineEnd c then { next with newline := true } else next) cs

def hexValue? (c : Char) : Option Nat :=
  if '0' ≤ c && c ≤ '9' then some (c.toNat - '0'.toNat)
  else if 'a' ≤ c && c ≤ 'f' then some (c.toNat - 'a'.toNat + 10)
  else if 'A' ≤ c && c ≤ 'F' then some (c.toNat - 'A'.toNat + 10)
  else none

/-- The character that two units of a surrogate pair stand for. -/
def pairedChar (high low : Nat) : Char :=
  Char.ofNat (0x10000 + (high - 0xD800) * 0x400 + (low - 0xDC00))

/-- Where the reading of a string's content stands. -/
inductive EscapeMode where
  | plain
  | escape
  /-- After a line end that is not part of the value, whose second half may follow. -/
  | lineFeed
  | braces (value : Nat)
  /-- Hexadecimal digits still to come, the value so far. -/
  | hex (count : Nat) (value : Nat) (isUnit : Bool)
  /-- Octal digits still allowed, the value so far. -/
  | octal (count : Nat) (value : Nat)

/-- The characters of a finished escape. A unit that opens a surrogate pair waits for its other
half. -/
def unitChars (high : Option Nat) (value : Nat) : Option Nat × List Char :=
  match high with
  | some h =>
    if 0xDC00 ≤ value && value ≤ 0xDFFF then (none, [pairedChar h value])
    else (none, [Char.ofNat 0xFFFD, Char.ofNat value])
  | none =>
    if 0xD800 ≤ value && value ≤ 0xDBFF then (some value, []) else (none, [Char.ofNat value])

def simpleEscape (c : Char) : Char :=
  if c == 'n' then '\n' else if c == 't' then '\t' else if c == 'r' then '\r'
  else if c == 'b' then '\x08' else if c == 'v' then '\x0b' else if c == 'f' then '\x0c'
  else c

/-- The value of what stands between the quotes of a string. -/
def stringValue (mode : EscapeMode) (high : Option Nat) : List Char → List Char
  | [] =>
    match mode with
    | .octal _ value => [Char.ofNat value]
    | _ => []
  | c :: cs =>
    match mode with
    | .plain => if c == '\\' then stringValue .escape high cs else c :: stringValue .plain none cs
    | .lineFeed =>
      if c == '\n' then stringValue .plain none cs
      else if c == '\\' then stringValue .escape none cs
      else c :: stringValue .plain none cs
    | .escape =>
      if c == 'x' then stringValue (.hex 2 0 false) none cs
      else if c == 'u' then
        match cs with
        | '{' :: cs => stringValue (.braces 0) none cs
        | cs => stringValue (.hex 4 0 true) high cs
      else if c == '\r' then stringValue .lineFeed none cs
      else if isLineEnd c then stringValue .plain none cs
      else if '0' ≤ c && c ≤ '3' then stringValue (.octal 2 (c.toNat - '0'.toNat)) none cs
      else if '4' ≤ c && c ≤ '7' then stringValue (.octal 1 (c.toNat - '0'.toNat)) none cs
      else simpleEscape c :: stringValue .plain none cs
    | .braces value =>
      if c == '}' then Char.ofNat value :: stringValue .plain none cs
      else stringValue (.braces (value * 16 + (hexValue? c).getD 0)) none cs
    | .hex count value isUnit =>
      let value := value * 16 + (hexValue? c).getD 0
      if count ≤ 1 then
        if isUnit then
          let (high, chars) := unitChars high value
          chars ++ stringValue .plain high cs
        else Char.ofNat value :: stringValue .plain none cs
      else stringValue (.hex (count - 1) value isUnit) high cs
    | .octal count value =>
      if count ≥ 1 && '0' ≤ c && c ≤ '7' then
        stringValue (.octal (count - 1) (value * 8 + (c.toNat - '0'.toNat))) none cs
      else if c == '\\' then Char.ofNat value :: stringValue .escape none cs
      else Char.ofNat value :: c :: stringValue .plain none cs

/-- The content of a string up to its closing quote, and what follows the quote. A line end inside a
string has to be escaped. -/
def stringContent (quote : Char) (escaped : Bool) : List Char → Option (List Char × List Char)
  | [] => none
  | c :: cs =>
    if escaped then
      if c == '\r' then
        match cs with
        | '\n' :: cs =>
          (stringContent quote false cs).map fun r => ('\r' :: '\n' :: r.1, r.2)
        | cs => (stringContent quote false cs).map fun r => (c :: r.1, r.2)
      else (stringContent quote false cs).map fun r => (c :: r.1, r.2)
    else if c == quote then some ([], cs)
    else if c == '\n' || c == '\r' then none
    else (stringContent quote (c == '\\') cs).map fun r => (c :: r.1, r.2)

/-- Where the reading of a name stands. -/
inductive NameMode where
  | plain
  | braces (value : Nat)
  | hex (count : Nat) (value : Nat)

/-- A name that has been read. -/
structure NameText where
  /-- Its letters, with escapes resolved. -/
  letters : List Char
  /-- What is written. -/
  raw : List Char
  rest : List Char
  /-- An escape in it stands for no letter of a name. -/
  isFaulty : Bool := false

namespace NameText

/-- The name with one more character in front of what is written, and letters that it stands for. -/
def cons (c : Char) (letters : List Char) (n : NameText) : NameText :=
  { n with letters := letters ++ n.letters, raw := c :: n.raw }

/-- A name that ends in the middle of an escape, before `rest`. -/
def broken (rest : List Char) : NameText := { letters := [], raw := [], rest, isFaulty := true }

/-- The name behind the last character of an escape with the given value. -/
def escaped (c : Char) (value : Nat) (n : NameText) : NameText :=
  if isNamePart (Char.ofNat value) then n.cons c [Char.ofNat value]
  else { n.cons c [] with isFaulty := true }

end NameText

def nameText (mode : NameMode) : List Char → NameText
  | [] =>
    match mode with
    | .plain => ⟨[], [], [], false⟩
    | _ => .broken []
  | c :: cs =>
    match mode with
    | .plain =>
      if isNamePart c then .cons c [c] (nameText .plain cs)
      else if c == '\\' then
        match cs with
        | 'u' :: '{' :: cs => .cons c [] (.cons 'u' [] (.cons '{' [] (nameText (.braces 0) cs)))
        | 'u' :: cs => .cons c [] (.cons 'u' [] (nameText (.hex 4 0) cs))
        | cs => ⟨[], [], c :: cs, false⟩
      else ⟨[], [], c :: cs, false⟩
    | .braces value =>
      if c == '}' then .escaped c value (nameText .plain cs)
      else
        match hexValue? c with
        | some digit => .cons c [] (nameText (.braces (value * 16 + digit)) cs)
        | none => .broken (c :: cs)
    | .hex count value =>
      match hexValue? c with
      | some digit =>
        if count ≤ 1 then .escaped c (value * 16 + digit) (nameText .plain cs)
        else .cons c [] (nameText (.hex (count - 1) (value * 16 + digit)) cs)
      | none => .broken (c :: cs)

theorem hexValue?_point : hexValue? '.' = none := by decide

theorem isNamePart_point : isNamePart '.' = false := by decide

theorem noPoint_raw_cons {c : Char} {n : NameText} (letters : List Char) (hc : c ≠ '.')
    (hn : '.' ∉ n.raw) : '.' ∉ (n.cons c letters).raw := by
  simp only [NameText.cons, List.mem_cons, not_or]
  exact ⟨hc.symm, hn⟩

theorem noPoint_raw_escaped {c : Char} {value : Nat} {n : NameText} (hc : c ≠ '.')
    (hn : '.' ∉ n.raw) : '.' ∉ (NameText.escaped c value n).raw := by
  unfold NameText.escaped
  split
  · exact noPoint_raw_cons [Char.ofNat value] hc hn
  · exact noPoint_raw_cons [] hc hn

/-- What is written of a name has no point in it, whatever stands in its escapes. -/
theorem noPoint_raw_nameText (mode : NameMode) (cs : List Char) : '.' ∉ (nameText mode cs).raw := by
  fun_induction nameText mode cs with
  | case1 => simp
  | case2 => simp [NameText.broken]
  | case3 c cs hpart ih =>
      refine noPoint_raw_cons [c] ?_ ih
      rintro rfl
      simp [isNamePart_point] at hpart
  | case4 c _ hc cs ih =>
      have hc : c = '\\' := by simpa using hc
      subst hc
      have hbrace := noPoint_raw_cons (c := '{') [] (by decide) ih
      have hletter := noPoint_raw_cons (c := 'u') [] (by decide) hbrace
      exact noPoint_raw_cons [] (by decide) hletter
  | case5 c _ hc cs _ ih =>
      have hc : c = '\\' := by simpa using hc
      subst hc
      have hletter := noPoint_raw_cons (c := 'u') [] (by decide) ih
      exact noPoint_raw_cons [] (by decide) hletter
  | case6 => simp
  | case7 => simp
  | case8 c cs value hc ih =>
      have hc : c = '}' := by simpa using hc
      subst hc
      exact noPoint_raw_escaped (by decide) ih
  | case9 c cs value _ digit hdigit ih =>
      refine noPoint_raw_cons [] ?_ ih
      rintro rfl
      simp [hexValue?_point] at hdigit
  | case10 => simp [NameText.broken]
  | case11 c cs count value digit hdigit _ ih =>
      refine noPoint_raw_escaped ?_ ih
      rintro rfl
      simp [hexValue?_point] at hdigit
  | case12 c cs count value digit hdigit _ ih =>
      refine noPoint_raw_cons [] ?_ ih
      rintro rfl
      simp [hexValue?_point] at hdigit
  | case13 => simp [NameText.broken]

/-- A number that is being read: its letters so far, the text behind them, and what is wrong with
it, each fault with the number of letters before it. -/
structure Numeral where
  text : List Char
  rest : List Char
  faults : List (Fault × Nat) := []

namespace Numeral

/-- What comes next does not belong here. -/
def refuse (n : Numeral) : Numeral :=
  let fault := match n.rest with
    | c :: _ => Fault.invalidCharacter c
    | [] => Fault.unexpectedEnd
  { n with faults := n.faults ++ [(fault, n.text.length)] }

def take (n : Numeral) : Numeral :=
  match n.rest with
  | c :: rest => { n with text := n.text ++ [c], rest }
  | [] => n

/-- Whether the next character is one of those with a property. -/
def sees (n : Numeral) (p : Char → Bool) : Bool := (n.rest.head?.map p).getD false

/-- Digits with single bars between them, what follows them, and whether a digit follows every
bar. -/
def digitRun (isDigit : Char → Bool) (afterBar : Bool) : List Char → List Char × List Char × Bool
  | [] => ([], [], !afterBar)
  | c :: cs =>
    if isDigit c then
      let (digits, rest, ok) := digitRun isDigit false cs
      (c :: digits, rest, ok)
    else if c == '_' && !afterBar then
      let (digits, rest, ok) := digitRun isDigit true cs
      (c :: digits, rest, ok)
    else ([], c :: cs, !afterBar)

/-- Takes digits behind one that has been taken. -/
def moreDigits (n : Numeral) (isDigit : Char → Bool) : Numeral :=
  let (digits, rest, ok) := digitRun isDigit false n.rest
  let n := { n with text := n.text ++ digits, rest }
  if ok then n else n.refuse

/-- Takes digits, of which there has to be one. -/
def someDigits (n : Numeral) (isDigit : Char → Bool) : Numeral :=
  if n.sees isDigit then n.moreDigits isDigit else n.refuse

def exponent (n : Numeral) : Numeral :=
  if n.sees fun c => c == 'e' || c == 'E' then
    let n := n.take
    let n := if n.sees fun c => c == '+' || c == '-' then n.take else n
    n.someDigits Char.isDigit
  else n

/-- Takes what may follow a decimal point, which has been taken. -/
def fraction (n : Numeral) : Numeral :=
  let n := if n.sees Char.isDigit then n.moreDigits Char.isDigit else n
  n.exponent

/-- No letter or digit may follow a number. -/
def close (n : Numeral) : Numeral :=
  if n.sees fun c => Text.isNameStart c || c.isDigit then
    { n with faults := n.faults ++ [(.afterNumber, n.text.length)] }
  else n

def bigMark (n : Numeral) : Numeral := if n.sees (· == 'n') then n.take else n

/-- A number that starts with a nought and another digit: octal if its digits allow it. -/
def legacy (n : Numeral) : Numeral :=
  let digits := n.rest.takeWhile Char.isDigit
  let rest := n.rest.dropWhile Char.isDigit
  let isOctal := digits.all (· < '8')
  let n := { n with text := n.text ++ digits, rest }
  if !isOctal && n.sees (· == '.') then n.take.fraction
  else if !isOctal && n.sees (· == 'e') then n.exponent
  else n

/-- The number that a text starts with. -/
def ofChars (cs : List Char) : Numeral :=
  let n : Numeral := { text := [], rest := cs }
  let read :=
    if n.sees (· == '.') then n.take.fraction
    else if n.sees (· == '0') then
      let n := n.take
      if n.sees fun c => c == 'x' || c == 'X' then
        (n.take.someDigits fun c => (hexValue? c).isSome).bigMark
      else if n.sees fun c => c == 'o' || c == 'O' then
        (n.take.someDigits fun c => '0' ≤ c && c ≤ '7').bigMark
      else if n.sees fun c => c == 'b' || c == 'B' then
        (n.take.someDigits fun c => c == '0' || c == '1').bigMark
      else if n.sees (· == '.') then n.take.fraction
      else if n.sees Char.isDigit then n.legacy
      else if n.sees (· == 'n') then n.take
      else n.exponent
    else
      let n := n.take.moreDigits Char.isDigit
      if n.sees (· == '.') then n.take.fraction
      else if n.sees (· == 'n') then n.take
      else n.exponent
  read.close

end Numeral

/-- The marks of the language, longer ones before those that they start with. Closing angles are
read one at a time, because two of them may close two lists of types. -/
def marks : List (List Char) :=
  [['.', '.', '.'], ['=', '=', '='], ['!', '=', '='], ['*', '*', '='], ['<', '<', '='],
   ['&', '&', '='], ['|', '|', '='], ['?', '?', '='],
   ['=', '>'], ['=', '='], ['!', '='], ['<', '='], ['<', '<'], ['&', '&'], ['|', '|'],
   ['?', '?'], ['?', '.'], ['+', '+'], ['-', '-'], ['+', '='], ['-', '='], ['*', '='],
   ['/', '='], ['%', '='], ['&', '='], ['|', '='], ['^', '='], ['*', '*'],
   ['{'], ['}'], ['('], [')'], ['['], [']'], [';'], [','], ['<'], ['>'], ['+'], ['-'], ['*'],
   ['/'], ['%'], ['&'], ['|'], ['^'], ['!'], ['~'], ['?'], [':'], ['='], ['.'], ['@']]

/-- A question mark, a point and a digit are a conditional with a number. -/
def isConditionalNumber : List Char → Bool
  | '?' :: '.' :: c :: _ => c.isDigit
  | _ => false

def mark? (cs : List Char) : Option (List Char) :=
  if isConditionalNumber cs then some ['?'] else marks.find? (·.isPrefixOf cs)

/-- A piece of text read as a token. -/
structure Lexeme where
  kind : TokenKind
  text : List Char
  rest : List Char
  /-- The number of bytes that it takes. -/
  width : Nat
  isEscaped : Bool := false
  /-- What is written of a word. -/
  written : Word := .empty
  /-- What is wrong with it, each fault with the number of bytes before it. -/
  faults : List (Fault × Nat) := []

/-- The content of a template up to its end or the next substitution; `true` if a substitution
follows. -/
def templateContent (escaped : Bool) : List Char → Option (List Char × Bool × List Char)
  | [] => none
  | c :: cs =>
    if escaped then (templateContent false cs).map fun r => (c :: r.1, r.2)
    else if c == '\x60' then some ([], false, cs)
    else if c == '$' then
      match cs with
      | '{' :: cs => some ([], true, cs)
      | cs => (templateContent false cs).map fun r => (c :: r.1, r.2)
    else (templateContent (c == '\\') cs).map fun r => (c :: r.1, r.2)

def Lexeme.ending : Lexeme := { kind := .eof, text := [], rest := [], width := 0 }

/-- A text that has no end of its own: all of it is taken. -/
def Lexeme.unterminated (fault : Fault) (cs : List Char) : Lexeme :=
  { kind := .invalid, text := [], rest := [], width := byteLength cs, faults := [(fault, 0)] }

/-- A character that starts no token. -/
def Lexeme.stray (fault : Fault) (c : Char) (rest : List Char) : Lexeme :=
  { kind := .invalid, text := [], rest, width := c.utf8Size, faults := [(fault, 0)] }

def wordLexeme (c : Char) (cs : List Char) : Lexeme :=
  let n := nameText .plain (c :: cs)
  if n.isFaulty || !(n.letters.head?.map isNameStart).getD false then .stray .unicodeEscape c cs
  else
    { kind := .word, text := n.letters, rest := n.rest, width := byteLength n.raw,
      isEscaped := n.letters != n.raw, written := ⟨n.raw, noPoint_raw_nameText .plain (c :: cs)⟩ }

def numberLexeme (cs : List Char) : Lexeme :=
  let n := Numeral.ofChars cs
  let kind :=
    if !n.faults.isEmpty then .invalid
    else if n.text.getLast? == some 'n' then .bigInteger
    else .number
  { kind, text := n.text, rest := n.rest, width := n.text.length, faults := n.faults }

def stringLexeme (quote : Char) (cs : List Char) : Lexeme :=
  match stringContent quote false cs with
  | some (content, rest) =>
    { kind := .string, text := stringValue .plain none content, rest,
      width := byteLength content + 2 }
  | none => .unterminated .unterminatedString (quote :: cs)

/-- A piece of a template, from the mark in front of it to the one behind it. `whole` is what it is
if the template ends with it, `part` if a substitution follows. -/
def chunkLexeme (whole part : TokenKind) : List Char → Lexeme
  | [] => .ending
  | c :: cs =>
    match templateContent false cs with
    | some (content, true, rest) =>
      { kind := part, text := content, rest, width := byteLength content + 3 }
    | some (content, false, rest) =>
      { kind := whole, text := content, rest, width := byteLength content + 2 }
    | none => .unterminated .unterminatedString (c :: cs)

/-- The rest of a template from the brace that closes a substitution. -/
def templateLexeme : List Char → Lexeme := chunkLexeme .templateTail .templateMiddle

def privateLexeme (cs : List Char) : Lexeme :=
  let n := nameText .plain cs
  if !n.isFaulty && (n.letters.head?.map isNameStart).getD false then
    { kind := .privateName, text := n.letters, rest := n.rest, width := byteLength n.raw + 1,
      isEscaped := n.letters != n.raw }
  else
    match cs with
    | c :: rest =>
      { kind := .invalid, text := [], rest, width := c.utf8Size + 1,
        faults := [(.invalidCharacter c, 1)] }
    | [] =>
      { kind := .invalid, text := [], rest := [], width := 1, faults := [(.unexpectedEnd, 1)] }

def markLexeme (m cs : List Char) : Lexeme :=
  { kind := .punctuator, text := m, rest := cs.drop m.length, width := m.length }

/-- The token at the start of a text that does not start with a gap. -/
def lexeme : List Char → Lexeme
  | [] => .ending
  | c :: cs =>
    if isNameStart c || c == '\\' then wordLexeme c cs
    else if c.isDigit || (c == '.' && (cs.head?.map Char.isDigit).getD false) then
      numberLexeme (c :: cs)
    else if c == '"' || c == '\'' then stringLexeme c cs
    else if c == '\x60' then chunkLexeme .templateWhole .templateHead (c :: cs)
    else if c == '#' then privateLexeme cs
    else
      match mark? (c :: cs) with
      | some m => markLexeme m (c :: cs)
      | none => .stray (.invalidCharacter c) c cs

/-- A regular expression up to the slash that closes it. -/
def regexContent (escaped inClass : Bool) : List Char → Option (List Char × List Char)
  | [] => none
  | c :: cs =>
    if isLineEnd c then none
    else if escaped then (regexContent false inClass cs).map fun r => (c :: r.1, r.2)
    else if c == '/' && !inClass then some (['/'], cs)
    else
      let inClass := if c == '[' then true else if c == ']' then false else inClass
      (regexContent (c == '\\') inClass cs).map
        fun r => (c :: r.1, r.2)

/-- A regular expression with its flags, from the slash that opens it. -/
def regexLexeme : List Char → Lexeme
  | [] => .ending
  | slash :: cs =>
    match regexContent false false cs with
    | some (content, rest) =>
      let text := slash :: content ++ rest.takeWhile isNamePart
      { kind := .regex, text, rest := rest.dropWhile isNamePart, width := byteLength text }
    | none => .unterminated .unterminatedRegex (slash :: cs)

/-- The longest operator that starts with a closing angle. -/
def angleLexeme (cs : List Char) : Lexeme :=
  let operators : List (List Char) :=
    [['>', '>', '>', '='], ['>', '>', '>'], ['>', '>', '='], ['>', '>'], ['>', '='], ['>']]
  match operators.find? (·.isPrefixOf cs) with
  | some m => markLexeme m cs
  | none => lexeme cs

/-- The characters of a tag or attribute name behind its first hyphen. -/
def isTagPart (c : Char) : Bool := isNamePart c || c == '-'

theorem isTagPart_point : isTagPart '.' = false := by decide

theorem noPoint_takeWhile (cs : List Char) : '.' ∉ cs.takeWhile isTagPart := by
  intro h
  have hpart := List.all_eq_true.mp List.all_takeWhile '.' h
  simp [isTagPart_point] at hpart

/-- The letters and hyphens that a tag or attribute name may go on with behind a word. -/
def tagLetters (cs : List Char) : Word × List Char :=
  match cs with
  | '-' :: _ =>
    (⟨cs.takeWhile isTagPart, noPoint_takeWhile cs⟩,
      cs.dropWhile isTagPart)
  | cs => (.empty, cs)

/-- The faults of a text between tags: closing marks that are not written as references. -/
def textFaults : Nat → List Char → List Diagnostic
  | _, [] => []
  | offset, c :: cs =>
    let rest := textFaults (offset + c.utf8Size) cs
    if c == '>' then ⟨.strayAngle, offset⟩ :: rest
    else if c == '}' then ⟨.strayBrace, offset⟩ :: rest
    else rest

/-- What stands between tags: a brace, an opening angle, or text up to the next of them. -/
def markupLexeme (cs : List Char) : Lexeme :=
  match cs with
  | [] => .ending
  | c :: _ =>
    if c == '{' || c == '<' then markLexeme [c] cs
    else
      let isText := fun c => c != '{' && c != '<'
      let text := cs.takeWhile isText
      { kind := .markupText, text, rest := cs.dropWhile isText, width := byteLength text }

/-- A quoted attribute value, which has no escapes; any other token is read as usual. -/
def attributeLexeme (cs : List Char) : Lexeme :=
  match cs with
  | [] => .ending
  | quote :: rest =>
    if quote == '"' || quote == '\'' then
      let value := rest.takeWhile (· != quote)
      match rest.dropWhile (· != quote) with
      | _ :: rest => { kind := .string, text := value, rest, width := byteLength value + 2 }
      | [] => .unterminated .unterminatedString cs
    else lexeme cs

/-- The token that a lexeme behind a gap is, and what is wrong with it. -/
def Lexeme.toToken (l : Lexeme) (gap : Gap) : Token × List Diagnostic :=
  let token : Token :=
    { kind := l.kind, text := String.ofList l.text, start := gap.offset,
      stop := gap.offset + l.width, newlineBefore := gap.newline, isEscaped := l.isEscaped,
      written := l.written,
      isPure := gap.isPure, isEffectFree := gap.isEffectFree }
  (token, l.faults.map fun (fault, lead) => ⟨fault, gap.offset + lead⟩)

end TemplateCompiler.Scanner
