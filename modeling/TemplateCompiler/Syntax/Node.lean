import TemplateCompiler.Syntax.Form

namespace TemplateCompiler

/-- A syntax tree. -/
inductive Node where
  | node (form : Form) (span : Span) (children : List Node)
deriving Inhabited, Repr

namespace Node

-- A tree holds lists of trees, which `deriving` does not compare.
mutual

def decEq : (n m : Node) → Decidable (n = m)
  | node f s cs, node f' s' cs' =>
    if h : f = f' ∧ s = s' then
      match decEqOfList cs cs' with
      | isTrue hcs => isTrue (by rw [h.1, h.2, hcs])
      | isFalse hcs => isFalse fun heq => hcs (node.inj heq).2.2
    else isFalse fun heq => h ⟨(node.inj heq).1, (node.inj heq).2.1⟩

def decEqOfList : (ns ms : List Node) → Decidable (ns = ms)
  | [], [] => isTrue rfl
  | [], _ :: _ => isFalse (List.cons_ne_nil _ _).symm
  | _ :: _, [] => isFalse (List.cons_ne_nil _ _)
  | n :: ns, m :: ms =>
    match decEq n m, decEqOfList ns ms with
    | isTrue hn, isTrue hns => isTrue (by rw [hn, hns])
    | isFalse hn, _ => isFalse fun heq => hn (List.cons.inj heq).1
    | _, isFalse hns => isFalse fun heq => hns (List.cons.inj heq).2

end

instance : DecidableEq Node := decEq

def form : Node → Form
  | node f _ _ => f

def span : Node → Span
  | node _ s _ => s

/-- The parts of the node, in the order in which they are written. -/
def children : Node → List Node
  | node _ _ cs => cs

def start (n : Node) : Nat := n.span.start

def stop (n : Node) : Nat := n.span.stop

@[match_pattern] abbrev leaf (form : Form) (span : Span) : Node := node form span []

/-- An optional part that is not written. -/
def absent : Node := leaf .absent .synthetic

/-- Whether the node stands for an optional part that is not there. -/
def isAbsent (n : Node) : Bool := n.form == .absent

def withSpan (span : Span) : Node → Node
  | node f _ cs => node f span cs

/-- The expression inside any number of parentheses. -/
def withoutParentheses : Node → Node
  | node .parenthesized _ [inner] => withoutParentheses inner
  | n => n

mutual

/-- The names used or introduced anywhere in the tree, from left to right. -/
def usedNames : Node → List String
  | node f _ cs => f.identifier?.toList ++ usedNamesOfList cs

def usedNamesOfList : List Node → List String
  | [] => []
  | n :: ns => usedNames n ++ usedNamesOfList ns

end

mutual

/-- The tree without any trace of the source that it was read from. -/
def erase : Node → Node
  | node f _ cs => node f .synthetic (eraseList cs)

def eraseList : List Node → List Node
  | [] => []
  | n :: ns => erase n :: eraseList ns

end

mutual

/-- How deep markup literals are nested in one another. -/
def markupDepth : Node → Nat
  | node f _ cs => (if f.isMarkup then 1 else 0) + markupDepthOfList cs

def markupDepthOfList : List Node → Nat
  | [] => 0
  | n :: ns => max (markupDepth n) (markupDepthOfList ns)

end

mutual

def depth : Node → Nat
  | node _ _ cs => depthOfList cs + 1

def depthOfList : List Node → Nat
  | [] => 0
  | n :: ns => max (depth n) (depthOfList ns)

end

@[match_pattern] abbrev reference (name : String) (span : Span) : Node :=
  leaf (.reference name) span

@[match_pattern] abbrev member (object : Node) (name : String) (nameSpan span : Span) : Node :=
  node (.member false) span [object, leaf (.label name) nameSpan]

@[match_pattern] abbrev string (value : String) (span : Span) : Node := leaf (.string value) span

end Node

end TemplateCompiler
