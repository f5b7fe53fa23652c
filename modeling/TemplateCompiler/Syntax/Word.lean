namespace TemplateCompiler

/-- The characters of a word in a tag. Points stand between the segments of a tag, so a word has
none. -/
structure Word where
  chars : List Char := []
  noPoint : '.' ∉ chars := by decide
deriving DecidableEq, Repr

namespace Word

def empty : Word := {}

instance : Inhabited Word := ⟨empty⟩

def text (w : Word) : String := String.ofList w.chars

def append (w v : Word) : Word :=
  ⟨w.chars ++ v.chars, by simpa using ⟨w.noPoint, v.noPoint⟩⟩

/-- Whether a tag that is this word alone is a use of a variable: it has no hyphen and does not
start with a small letter. -/
def isReference (w : Word) : Bool :=
  match w.chars with
  | [] => false
  | c :: cs => !('a' ≤ c && c ≤ 'z') && !(c :: cs).contains '-'

end Word

/-- A tag that is a single word and no use of a variable. -/
structure PlainTag where
  word : Word
  notReference : word.isReference = false
deriving DecidableEq, Repr

namespace PlainTag

instance : Inhabited PlainTag := ⟨.empty, rfl⟩

def text (t : PlainTag) : String := t.word.text

end PlainTag

end TemplateCompiler
