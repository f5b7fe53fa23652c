namespace TemplateCompiler

/-- How text between tags is kept. -/
inductive SpaceMode where
  /-- As it is written. -/
  | preserve
  /-- Runs of white space become single spaces, and none are left at the ends. -/
  | collapse
  /-- Line ends first lose the indentation around them; then as `collapse`. -/
  | smart
deriving DecidableEq, Repr, Inhabited

namespace Text

/-- The characters with the property `White_Space`. -/
def isSpace (c : Char) : Bool :=
  (0x09 ≤ c.toNat && c.toNat ≤ 0x0D) || c.toNat == 0x20 || c.toNat == 0x85 || c.toNat == 0xA0 ||
  c.toNat == 0x1680 || (0x2000 ≤ c.toNat && c.toNat ≤ 0x200A) || c.toNat == 0x2028 ||
  c.toNat == 0x2029 || c.toNat == 0x202F || c.toNat == 0x205F || c.toNat == 0x3000

/-- Writes each run of white space as one space; `inRun` if the run that goes on here has been
written. -/
def squeeze (inRun : Bool) : List Char → List Char
  | [] => []
  | c :: cs =>
    if isSpace c then
      if inRun then squeeze true cs else ' ' :: squeeze true cs
    else c :: squeeze false cs

def trim (cs : List Char) : List Char :=
  ((cs.dropWhile isSpace).reverse.dropWhile isSpace).reverse

/-- The characters that indent a line. -/
def isIndent (c : Char) : Bool := c == ' ' || c == '\t'

/-- Where a scan for line ends stands: behind indentation that a line end may follow, held with the
last character first, or behind a line end. -/
inductive IndentMode where
  | before (held : List Char)
  | behind

/-- Writes each line end with the indentation around it as one space. -/
def foldIndents (mode : IndentMode) : List Char → List Char
  | [] =>
    match mode with
    | .before held => held.reverse
    | .behind => []
  | c :: cs =>
    if c == '\n' then ' ' :: foldIndents .behind cs
    else
      match mode with
      | .before held =>
        if isIndent c then foldIndents (.before (c :: held)) cs
        else held.reverse ++ c :: foldIndents (.before []) cs
      | .behind =>
        if isIndent c then foldIndents .behind cs else c :: foldIndents (.before []) cs

/-- Runs of white space become single spaces, and none are left at the ends. -/
def collapse (cs : List Char) : List Char := trim (squeeze false cs)

def normalize (mode : SpaceMode) (text : String) : String :=
  match mode with
  | .preserve => text
  | .collapse => String.ofList (collapse text.toList)
  | .smart => String.ofList (collapse (foldIndents (.before []) text.toList))

end Text

end TemplateCompiler
