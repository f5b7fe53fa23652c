import TemplateCompiler.Printer.Program
import TemplateCompiler.Text.Position

namespace TemplateCompiler.SourceMap

def digits : List Char := "ABCDEFGHIJKLMNOPQRSTUVWXYZabcdefghijklmnopqrstuvwxyz0123456789+/".toList

def digit (n : Nat) : Char := digits.getD n 'A'

/-- A natural number in groups of five bits, the lowest first; every group but the last is
flagged. -/
def groups : Nat → Nat → List Char
  | 0, _ => []
  | limit + 1, n =>
    if n < 32 then [digit n] else digit (n % 32 + 32) :: groups limit (n / 32)

/-- A number with its sign in the lowest bit. -/
def encode (n : Int) : List Char :=
  let value := n.natAbs * 2 + (if n < 0 then 1 else 0)
  groups (value.log2 + 1) value

/-- Where the last segment was: columns and lines are written as differences. -/
structure Cursor where
  line : Nat := 0
  column : Nat := 0
  sourceLine : Nat := 0
  sourceColumn : Nat := 0
  isFirst : Bool := true

/-- The segments of the marks, with a semicolon for each line end and a comma between two on a
line. -/
def segments (source : List Char) (here : Cursor) : List Printer.Mark → List Char
  | [] => []
  | m :: rest =>
    let breaks := List.replicate (m.line - here.line) ';'
    let isSameLine := m.line == here.line
    let column := if isSameLine then here.column else 0
    let (sourceLine, sourceColumn) := Text.unitPosition source m.offset
    let segment :=
      encode ((m.column : Int) - column) ++ encode 0 ++
        encode ((sourceLine : Int) - here.sourceLine) ++
        encode ((sourceColumn : Int) - here.sourceColumn)
    let comma := if isSameLine && !here.isFirst then [','] else []
    breaks ++ comma ++ segment ++
      segments source
        { line := m.line, column := m.column, sourceLine, sourceColumn, isFirst := false } rest

def mappings (source : String) (marks : List Printer.Mark) : String :=
  String.ofList (segments source.toList {} marks)

end TemplateCompiler.SourceMap
