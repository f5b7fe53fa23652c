import TemplateCompiler.Syntax.Token

namespace TemplateCompiler

/-- How tightly a binary operator binds when it is read; `none` for what is no binary operator. -/
def bindingLevel? (t : Token) : Option Nat :=
  match t.kind with
  | .punctuator => ofMark t.text
  | .word =>
    if t.isWordOf ["instanceof", "in", "as", "satisfies"] then some 8 else none
  | _ => none
where
  ofMark (text : String) : Option Nat :=
    if text == "??" then some 1
    else if text == "||" then some 2
    else if text == "&&" then some 3
    else if text == "|" then some 4
    else if text == "^" then some 5
    else if text == "&" then some 6
    else if ["==", "!=", "===", "!=="].contains text then some 7
    else if ["<", ">", "<=", ">="].contains text then some 8
    else if ["<<", ">>", ">>>"].contains text then some 9
    else if ["+", "-"].contains text then some 10
    else if ["*", "/", "%"].contains text then some 11
    else if text == "**" then some 12
    else none

/-- The operators that may leave their right operand unevaluated. -/
def isLogicalOperator (text : String) : Bool := ["??", "||", "&&"].contains text

def isAssignmentOperator (text : String) : Bool :=
  ["=", "+=", "-=", "*=", "/=", "%=", "**=", "<<=", ">>=", ">>>=", "&=", "|=", "^=", "&&=", "||=",
   "??="].contains text

/-- The operators in front of an operand that are marks. -/
def isUnaryMark (text : String) : Bool := ["+", "-", "!", "~"].contains text

/-- The operators in front of an operand that are words. -/
def isUnaryWord (text : String) : Bool := ["typeof", "void", "delete"].contains text

end TemplateCompiler
