namespace TemplateCompiler.Text.Quoted

/-- A closing script tag would end the page that a program is part of. -/
def startsScriptTag (cs : List Char) : Bool :=
  "/script".toList.isPrefixOf ((cs.take 7).map Char.toLower)

/-- The characters that a character of a string is written as in a program; `rest` follows it. -/
def literalChar (c : Char) (rest : List Char) : List Char :=
  if c == '\x00' then
    if (rest.head?.map Char.isDigit).getD false then ['\\', 'x', '0', '0'] else ['\\', '0']
  else if c == '\x07' then ['\\', 'x', '0', '7']
  else if c == '\x08' then ['\\', 'b']
  else if c == '\x0b' then ['\\', 'v']
  else if c == '\x0c' then ['\\', 'f']
  else if c == '\n' then ['\\', 'n']
  else if c == '\r' then ['\\', 'r']
  else if c == '\x1b' then ['\\', 'x', '1', 'B']
  else if c == '\\' then ['\\', '\\']
  else if c == '"' then ['\\', '"']
  else if c.toNat == 0x2028 then ['\\', 'u', '2', '0', '2', '8']
  else if c.toNat == 0x2029 then ['\\', 'u', '2', '0', '2', '9']
  else if c.toNat == 0xA0 then ['\\', 'x', 'A', '0']
  else if c == '<' && startsScriptTag rest then ['<', '\\']
  else [c]

/-- The characters of a string as they are written in a program. -/
def literalChars : List Char → List Char
  | [] => []
  | c :: rest => literalChar c rest ++ literalChars rest

def literal (value : String) : String :=
  "\"" ++ String.ofList (literalChars value.toList) ++ "\""

/-- Raw text of a program in which no script tag may be closed. -/
def rawChars : List Char → List Char
  | [] => []
  | c :: rest => (if c == '<' && startsScriptTag rest then ['<', '\\'] else [c]) ++ rawChars rest

/-- Four hexadecimal digits of a control character. -/
def unitEscape (c : Char) : List Char :=
  let digit := fun d => if d < 10 then Char.ofNat (48 + d) else Char.ofNat (87 + d)
  ['\\', 'u', '0', '0', digit (c.toNat / 16), digit (c.toNat % 16)]

/-- The characters that a character of a module's name is written as. -/
def moduleChar (c : Char) : List Char :=
  if c == '"' then ['\\', '"']
  else if c == '\\' then ['\\', '\\']
  else if c == '\n' then ['\\', 'n']
  else if c == '\r' then ['\\', 'r']
  else if c == '\t' then ['\\', 't']
  else if c == '\x08' then ['\\', 'b']
  else if c == '\x0c' then ['\\', 'f']
  else if c.toNat < 0x20 then unitEscape c
  else [c]

def moduleText (value : String) : String :=
  "\"" ++ String.ofList (value.toList.flatMap moduleChar) ++ "\""

end TemplateCompiler.Text.Quoted
