import TemplateCompiler.Syntax.Scanner

namespace TemplateCompiler.Text

/-- The line and column behind the characters that lie before `offset`, when `line` and `column` are
those of the first of them, which lies at `index`. Only a line feed starts a line. -/
def lineColumnFrom (offset index line column : Nat) : List Char → Nat × Nat
  | [] => (line, column)
  | c :: cs =>
    if offset ≤ index then (line, column)
    else if c == '\n' then lineColumnFrom offset (index + c.utf8Size) (line + 1) 1 cs
    else lineColumnFrom offset (index + c.utf8Size) line (column + 1) cs

/-- The line and column of a byte offset, counted from one. -/
def lineColumn (source : String) (offset : Nat) : Nat × Nat :=
  lineColumnFrom offset 0 1 1 source.toList

def unitCount (c : Char) : Nat := if c.toNat < 0x10000 then 1 else 2

/-- The line and column of a byte offset, counted from zero, columns in UTF-16 units. A carriage
return with the line feed behind it ends one line. -/
def unitPositionFrom (offset index line column : Nat) : List Char → Nat × Nat
  | [] => (line, column)
  | c :: cs =>
    if offset ≤ index then (line, column)
    else
      let next := index + c.utf8Size
      if Scanner.isLineEnd c && !(c == '\r' && cs.head? == some '\n') then
        unitPositionFrom offset next (line + 1) 0 cs
      else unitPositionFrom offset next line (column + unitCount c) cs

/-- The line and column of a byte offset as source maps count them. -/
def unitPosition (source : List Char) (offset : Nat) : Nat × Nat :=
  unitPositionFrom offset 0 0 0 source

end TemplateCompiler.Text
