import TemplateCompiler.Json.Basic

/-!
Reading records out of values: the ways in which it can fail, and the readers that others are made
of.

A record may be given as an object, whose members are read in the order of their keys and of which
unknown ones do not count, or as an array of its fields in the order in which they are declared.
-/

namespace TemplateCompiler.Json

/-- Why a value cannot be read. -/
inductive DecodeError where
  | missingField (name : String)
  | invalidType (found wanted : String)
  | invalidValue (found wanted : String)
  | unknownVariant (found wanted : String)
  | invalidLength (length : Nat) (wanted : String)
deriving DecidableEq, Repr, Inhabited

def DecodeError.message : DecodeError → String
  | missingField name => "missing field \x60" ++ name ++ "\x60"
  | invalidType found wanted => "invalid type: " ++ found ++ ", expected " ++ wanted
  | invalidValue found wanted => "invalid value: " ++ found ++ ", expected " ++ wanted
  | unknownVariant found wanted => "unknown variant \x60" ++ found ++ "\x60, expected " ++ wanted
  | invalidLength length wanted => "invalid length " ++ Nat.repr length ++ ", expected " ++ wanted

/-- The result of reading a value. -/
abbrev Decode := Except DecodeError

def wrongType {α : Type} (v : Json) (wanted : String) : Decode α :=
  .error (.invalidType v.describe wanted)

def toText : Json → Decode String
  | string s => .ok s
  | v => wrongType v "a string"

def toBool : Json → Decode Bool
  | bool b => .ok b
  | v => wrongType v "a boolean"

def toWord : Json → Decode UInt32
  | v@(number n 0) =>
    if 0 ≤ n && n < Int.pow 2 32 then .ok (.ofNat n.toNat)
    else if isWord n then .error (.invalidValue v.describe "u32")
    else wrongType v "u32"
  | v => wrongType v "u32"

def toItems {α : Type} (read : Json → Decode α) : List Json → Decode (List α)
  | [] => .ok []
  | v :: vs => do
    let first ← read v
    let rest ← toItems read vs
    return first :: rest

def toList {α : Type} (read : Json → Decode α) : Json → Decode (List α)
  | array items => toItems read items
  | v => wrongType v "a sequence"

def readMember {α : Type} (members : List (String × Json)) (key : String) (read : Json → Decode α) :
    Decode (Option α) :=
  match member? members key with
  | some v => return some (← read v)
  | none => return none

def demand {α : Type} (key : String) : Option α → Decode α
  | some a => .ok a
  | none => .error (.missingField key)

/-- The name of a record given as an array that is too short. -/
def recordText (name : String) (count : Nat) : String :=
  name ++ " with " ++ Nat.repr count ++ " elements"

/-- An item of a record given as an array. -/
def readItem {α : Type} (record : String) (items : List Json) (index : Nat)
    (read : Json → Decode α) : Decode α :=
  match items[index]? with
  | some v => read v
  | none => .error (.invalidLength index record)

/-- An item of a record given as an array, which may be left out at the end. -/
def readItemOr {α : Type} (fallback : α) (items : List Json) (index : Nat)
    (read : Json → Decode α) : Decode α :=
  match items[index]? with
  | some v => read v
  | none => .ok fallback

/-- A record given as an array has no more items than fields. -/
def checkLength (items : List Json) (count : Nat) : Decode Unit :=
  if items.length ≤ count then .ok ()
  else .error (.invalidLength items.length "fewer elements in array")

end TemplateCompiler.Json
