import TemplateCompiler.Syntax.Word

namespace TemplateCompiler

/-- What can be wrong with a source text. -/
inductive Fault where
  | unexpected
  | expected (wanted found : String)
  | expectedEither (wanted other found : String)
  | missingSemicolon
  | closingTag (name : String)
  | strayAngle
  | strayBrace
  | emptyAttribute
  | hyphenatedMember
  | unterminatedString
  | unterminatedComment
  | unterminatedRegex
  | afterNumber
  | invalidCharacter (c : Char)
  | unicodeEscape
  | unexpectedEnd
  | invalidTarget
  | missingInitializer
  | missingPatternInitializer
  | mixedCoalesce
  | exponentiation
  | returnOutside
  | functionName
  | functionBody
  | awaitIdentifier
  | yieldIdentifier
  | awaitOutside
  | yieldOutside
  | missingHandler
  | newlineBeforeArrow
  | newlineAfterThrow
  | defaultOutsidePattern
  | typeAssertionOutside
  | lastRest
deriving DecidableEq, Repr, Inhabited

def Fault.message : Fault → String
  | .unexpected => "Unexpected token"
  | .expected wanted found =>
    "Expected \x60" ++ wanted ++ "\x60 but found \x60" ++ found ++ "\x60"
  | .expectedEither wanted other found =>
    "Expected \x60" ++ wanted ++ "\x60 or \x60" ++ other ++ "\x60 but found \x60" ++ found ++ "\x60"
  | .missingSemicolon =>
    "Expected a semicolon or an implicit semicolon after a statement, but found none"
  | .closingTag name => "Expected corresponding JSX closing tag for '" ++ name ++ "'."
  | .strayAngle => "Unexpected token. Did you mean \x60\x7b'>'\x7d\x60 or \x60&gt;\x60?"
  | .strayBrace => "Unexpected token. Did you mean \x60\x7b'\x7d'\x7d\x60 or \x60&rbrace;\x60?"
  | .emptyAttribute => "JSX attributes must only be assigned a non-empty 'expression'."
  | .hyphenatedMember => "Identifiers in JSX cannot contain hyphens"
  | .unterminatedString => "Unterminated string"
  | .unterminatedComment => "Unterminated multiline comment"
  | .unterminatedRegex => "Unterminated regular expression"
  | .afterNumber => "Invalid characters after number"
  | .invalidCharacter c => "Invalid Character \x60" ++ c.toString ++ "\x60"
  | .unicodeEscape => "Invalid Unicode escape sequence"
  | .unexpectedEnd => "Unexpected end of file"
  | .invalidTarget => "Cannot assign to this expression"
  | .missingInitializer => "Missing initializer in const declaration"
  | .missingPatternInitializer => "Missing initializer in destructuring declaration"
  | .mixedCoalesce => "Logical expressions and coalesce expressions cannot be mixed"
  | .exponentiation => "Unexpected exponentiation expression"
  | .returnOutside => "A 'return' statement can only be used within a function body."
  | .functionName => "Expected function name"
  | .functionBody => "Expected function body"
  | .awaitIdentifier => "Cannot use \x60await\x60 as an identifier in an async context"
  | .yieldIdentifier => "Cannot use \x60yield\x60 as an identifier in a generator context"
  | .awaitOutside =>
    "\x60await\x60 is only allowed within async functions and at the top levels of modules"
  | .yieldOutside => "A 'yield' expression is only allowed in a generator body."
  | .missingHandler => "Missing catch or finally clause"
  | .newlineBeforeArrow => "Line terminator not permitted before arrow"
  | .newlineAfterThrow => "Illegal newline after throw"
  | .defaultOutsidePattern => "Invalid assignment in object literal"
  | .typeAssertionOutside => "Type assertion expressions can only be used in TypeScript files."
  | .lastRest => "A rest parameter must be last in a parameter list"

/-- A fault and the byte at which it shows. -/
structure Diagnostic where
  fault : Fault
  offset : Nat
deriving DecidableEq, Repr, Inhabited

/-- The classes of tokens. -/
inductive TokenKind where
  | eof
  /-- Text that is no token; what is wrong with it has been reported. -/
  | invalid
  | word
  | punctuator
  | string
  | number
  | bigInteger
  | regex
  /-- A template without substitutions. -/
  | templateWhole
  | templateHead
  | templateMiddle
  | templateTail
  | privateName
  | markupText
deriving DecidableEq, Repr, Inhabited

/-- A token. Its `text` is a word's name, a string's value, and otherwise what is written. -/
structure Token where
  kind : TokenKind
  text : String
  start : Nat
  stop : Nat
  /-- A line ends between the token before and this one. -/
  newlineBefore : Bool := false
  /-- A word that is spelt with escapes is no keyword. -/
  isEscaped : Bool := false
  /-- What is written of a word. -/
  written : Word := .empty
  /-- A comment right before the token says that the call which starts here has no effects. -/
  isPure : Bool := false
  /-- A comment right before the token says that the function which starts here has no effects. -/
  isEffectFree : Bool := false
deriving DecidableEq, Repr, Inhabited

/-- Words that are never variables. -/
def reservedWords : List String :=
  ["break", "case", "catch", "class", "const", "continue", "debugger", "default", "delete", "do",
   "else", "enum", "export", "extends", "finally", "for", "function", "if", "import", "in",
   "instanceof", "new", "return", "super", "switch", "this", "throw", "try", "typeof", "var",
   "void", "while", "with", "null", "true", "false"]

/-- Words that mean something special in some places and are names in others. -/
def contextualWords : List String :=
  ["await", "yield", "let", "static", "implements", "interface", "package", "private", "protected",
   "public", "async", "from", "get", "meta", "of", "set", "target", "accessor", "abstract", "as",
   "asserts", "assert", "any", "bigint", "boolean", "constructor", "declare", "global", "infer",
   "intrinsic", "is", "keyof", "module", "namespace", "never", "out", "readonly", "require",
   "number", "object", "override", "satisfies", "string", "symbol", "type", "undefined", "unique",
   "using", "unknown", "defer", "source"]

namespace Token

def isMark (t : Token) (text : String) : Bool := t.kind == .punctuator && t.text == text

/-- The token is the given word, plainly spelt. -/
def isWord (t : Token) (text : String) : Bool :=
  t.kind == .word && !t.isEscaped && t.text == text

/-- The token is one of the given words, plainly spelt. -/
def isWordOf (t : Token) (texts : List String) : Bool :=
  t.kind == .word && !t.isEscaped && texts.contains t.text

def isVariable (t : Token) : Bool := t.kind == .word && !reservedWords.contains t.text

/-- The name of the token's class in messages: marks and keywords stand for themselves. -/
def describe (t : Token) : String :=
  match t.kind with
  | .eof => "EOF"
  | .invalid => "Unknown"
  | .word =>
    if reservedWords.contains t.text || contextualWords.contains t.text then t.text
    else "Identifier"
  | .punctuator => t.text
  | .string => "string"
  | .number =>
    if t.text.startsWith "0x" || t.text.startsWith "0X" then "hex"
    else if t.text.startsWith "0o" || t.text.startsWith "0O" then "octal"
    else if t.text.startsWith "0b" || t.text.startsWith "0B" then "binary"
    else if t.text.toList.any (fun c => c == '.' || c == 'e' || c == 'E') then "float"
    else "decimal"
  | .bigInteger => "decimal"
  | .regex => "/regexp/"
  | .templateWhole => "$\x7b\x7d"
  | .templateHead => "$\x7b"
  | .templateMiddle => "$\x7bexpr\x7d"
  | .templateTail => "\x7d"
  | .privateName => "#identifier"
  | .markupText => "jsx"

end Token

end TemplateCompiler
