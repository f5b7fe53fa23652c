import TemplateCompiler.Text.Numeral

namespace TemplateCompiler

/-- A value. A number is `mantissa / 10 ^ places`; one that is written with a point has places. The
members of an object are sorted by their keys. -/
inductive Json where
  | null
  | bool (value : Bool)
  | number (mantissa : Int) (places : Nat)
  | string (value : String)
  | array (items : List Json)
  | object (members : List (String × Json))
deriving Repr, Inhabited

namespace Json

@[match_pattern] abbrev integer (n : Int) : Json := number n 0

def member? (members : List (String × Json)) (key : String) : Option Json :=
  members.lookup key

/-- Whether a whole number is one that fits into 64 bits; larger ones count as fractions. -/
def isWord (n : Int) : Bool := decide (-Int.pow 2 63 ≤ n) && decide (n < Int.pow 2 64)

/-- A fraction in the fewest digits, with a point or an exponent. -/
def fractionText (mantissa : Int) (places : Nat) : String :=
  let sign := if mantissa < 0 then "-" else ""
  match Text.Numeral.nearest mantissa.natAbs (Nat.pow 10 places) with
  | none => sign ++ "inf"
  | some b =>
    let (digits, power) := b.shortest
    let text := (Nat.repr digits).toList
    let count := text.length
    let point : Int := count + power
    let zeros := fun (n : Int) => List.replicate n.toNat '0'
    let body :=
      if digits == 0 then "0.0".toList
      else if 0 ≤ power && point ≤ 16 then text ++ zeros power ++ ['.', '0']
      else if 0 < point && point ≤ 16 then text.take point.toNat ++ '.' :: text.drop point.toNat
      else if -5 < point && point ≤ 0 then '0' :: '.' :: zeros (-point) ++ text
      else
        let lead := match text with
          | [d] => [d]
          | d :: rest => d :: '.' :: rest
          | [] => []
        lead ++ 'e' :: (toString (point - 1)).toList
    sign ++ String.ofList body

def quotedText (value : String) : String :=
  let escape := fun (c : Char) =>
    if c == '"' then ['\\', '"']
    else if c == '\\' then ['\\', '\\']
    else if c == '\n' then ['\\', 'n']
    else if c == '\r' then ['\\', 'r']
    else if c == '\t' then ['\\', 't']
    else if c == '\x00' then ['\\', '0']
    else if c.toNat < 0x20 || c.toNat == 0x7F then
      "\\u\x7b".toList ++ Nat.toDigits 16 c.toNat ++ ['\x7d']
    else [c]
  "\"" ++ String.ofList (value.toList.flatMap escape) ++ "\""

/-- What a value is, as messages name it. -/
def describe : Json → String
  | null => "null"
  | bool b => "boolean \x60" ++ (if b then "true" else "false") ++ "\x60"
  | number n 0 =>
    if isWord n then "integer \x60" ++ toString n ++ "\x60"
    else "floating point \x60" ++ fractionText n 0 ++ "\x60"
  | number m places => "floating point \x60" ++ fractionText m places ++ "\x60"
  | string s => "string " ++ quotedText s
  | array _ => "sequence"
  | object _ => "map"

end Json

end TemplateCompiler
