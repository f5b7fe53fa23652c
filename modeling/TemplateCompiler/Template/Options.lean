import TemplateCompiler.Text.Space

namespace TemplateCompiler

/-- Instructions to the compiler that a tag gives; one that it does not give comes from the tag
around it. -/
structure TextOptions where
  spaceMode : Option SpaceMode := none
deriving DecidableEq, Repr, Inhabited

namespace TextOptions

/-- What every template starts from. -/
def root : TextOptions := ⟨some .preserve⟩

/-- The options inside a tag that gives some of its own. -/
def merge (outer inner : TextOptions) : TextOptions := ⟨inner.spaceMode.or outer.spaceMode⟩

def mode (o : TextOptions) : SpaceMode := o.spaceMode.getD .collapse

end TextOptions

end TemplateCompiler
