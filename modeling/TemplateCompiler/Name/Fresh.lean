import TemplateCompiler.Syntax.Node

namespace TemplateCompiler

/-- The names that are taken, and for each base how many of its spellings have been tried. -/
structure FreshNames where
  used : List String := []
  counters : List (String × Nat) := []
deriving Repr, Inhabited

namespace FreshNames

/-- The names that a program uses or introduces are taken. -/
def ofProgram (program : Node) : FreshNames := { used := program.usedNames }

def isUsed (s : FreshNames) (name : String) : Bool := s.used.contains name

def stripUnderscores (cs : List Char) : List Char :=
  ((cs.dropWhile (· == '_')).reverse.dropWhile (· == '_')).reverse

/-- What the spellings of a name are made from. -/
def base (name : String) : String :=
  match stripUnderscores name.toList with
  | [] => "temp"
  | cs => String.ofList cs

/-- The spelling of a base with an index; the first one shows no index. -/
def spelling (base : String) (index : Nat) : String :=
  if index == 1 then "_" ++ base else "_" ++ base ++ Nat.repr index

def counter (s : FreshNames) (base : String) : Nat :=
  (s.counters.lookup base).getD 0

def setCounter (counters : List (String × Nat)) (base : String) (index : Nat) :
    List (String × Nat) :=
  match counters with
  | [] => [(base, index)]
  | (b, i) :: rest => if b == base then (b, index) :: rest else (b, i) :: setCounter rest base index

/-- The first index from `index` on whose spelling is not taken. One more spelling than there are
taken names is enough to find it. -/
def search (used : List String) (base : String) (index : Nat) : Nat → Nat
  | 0 => index
  | limit + 1 =>
    if used.contains (spelling base index) then search used base (index + 1) limit else index

/-- A fresh name made from a given one. It is taken from then on. -/
def generate (s : FreshNames) (name : String) : String × FreshNames :=
  let b := base name
  let index := search s.used b (s.counter b + 1) s.used.length
  let fresh := spelling b index
  (fresh, { used := fresh :: s.used, counters := setCounter s.counters b index })

end FreshNames

end TemplateCompiler
