namespace TemplateCompiler

/-- The stretch of source that a piece of syntax was read from. -/
structure Span where
  start : Nat
  stop : Nat
deriving DecidableEq, Repr, Inhabited

namespace Span

/-- The span of what was not read from any source. -/
def synthetic : Span := ⟨0, 0⟩

/-- A span that covers nothing points nowhere. -/
def isEmpty (s : Span) : Bool := s.start == s.stop

@[simp] theorem isEmpty_synthetic : synthetic.isEmpty = true := rfl

end Span

end TemplateCompiler
