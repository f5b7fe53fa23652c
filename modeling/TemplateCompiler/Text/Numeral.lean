/-!
Numbers of the source language: what a spelling denotes, and the shortest spelling of a value.

A value is a binary floating-point number with 53 significant bits. It is computed from the exact
rational that a spelling stands for, and its decimal digits are the fewest that denote it again; all
of it is arithmetic on natural numbers.
-/

namespace TemplateCompiler.Text.Numeral

def digitValue (c : Char) : Nat :=
  if '0' ≤ c && c ≤ '9' then c.toNat - '0'.toNat
  else if 'a' ≤ c && c ≤ 'f' then c.toNat - 'a'.toNat + 10
  else if 'A' ≤ c && c ≤ 'F' then c.toNat - 'A'.toNat + 10
  else 0

def ofDigits (base : Nat) (digits : List Char) : Nat :=
  digits.foldl (fun n c => n * base + digitValue c) 0

/-- The exact value of a decimal spelling, as a numerator and a denominator. An exponent that is too
large or small for any floating-point value is cut to one that still is. -/
def decimalValue (cs : List Char) : Nat × Nat :=
  let isExponent := fun c => c == 'e' || c == 'E'
  let mantissa := cs.takeWhile fun c => !isExponent c
  let power := (cs.dropWhile fun c => !isExponent c).drop 1
  let whole := mantissa.takeWhile (· != '.')
  let part := (mantissa.dropWhile (· != '.')).drop 1
  let digits := ofDigits 10 (whole ++ part)
  let isNegative := power.head? == some '-'
  let size := min (ofDigits 10 (power.filter Char.isDigit)) (2000 + digits.log2 + part.length)
  if isNegative then (digits, Nat.pow 10 (part.length + size))
  else if part.length ≤ size then (digits * Nat.pow 10 (size - part.length), 1)
  else (digits, Nat.pow 10 (part.length - size))

/-- The exact value of a spelling, as a numerator and a denominator. -/
def exactValue (raw : String) : Nat × Nat :=
  match raw.toList.filter (· != '_') with
  | '0' :: x :: rest =>
    if x == 'x' || x == 'X' then (ofDigits 16 rest, 1)
    else if x == 'o' || x == 'O' then (ofDigits 8 rest, 1)
    else if x == 'b' || x == 'B' then (ofDigits 2 rest, 1)
    else if (x :: rest).all fun c => '0' ≤ c && c ≤ '7' then (ofDigits 8 (x :: rest), 1)
    else decimalValue ('0' :: x :: rest)
  | cs => decimalValue cs

def integerSpelling (raw : String) : String :=
  Nat.repr (exactValue (String.ofList (raw.toList.filter (· != 'n')))).1 ++ "n"

/-- A quotient rounded to the nearest integer, a half to the even one. -/
def roundDiv (num den : Nat) : Nat :=
  let q := num / den
  let r := num % den
  if 2 * r < den then q
  else if den < 2 * r then q + 1
  else if q % 2 == 0 then q else q + 1

def scale (num den : Nat) (e : Int) : Nat × Nat :=
  if 0 ≤ e then (num * Nat.pow 2 e.toNat, den) else (num, den * Nat.pow 2 (-e).toNat)

/-- A floating-point value `significand * 2 ^ exponent`. -/
structure Binary where
  significand : Nat
  exponent : Int

/-- The floating-point value nearest to a rational; `none` if it is too large for one. -/
def nearest (num den : Nat) : Option Binary :=
  if num == 0 then some ⟨0, -1074⟩ else
  let guess : Int := (num.log2 : Int) - (den.log2 : Int)
  let (n, d) := scale num den (-guess)
  let top := if d ≤ n then guess else guess - 1
  let e := max (-1074) (top - 52)
  let (n, d) := scale num den (-e)
  let m := roundDiv n d
  let value : Binary := if m == Nat.pow 2 53 then ⟨Nat.pow 2 52, e + 1⟩ else ⟨m, e⟩
  if value.exponent > 971 then none else some value

/-- The value scaled to an integer together with the ends of the interval that rounds to it. All are
numerators over `den`. -/
structure Interval where
  low : Nat
  value : Nat
  high : Nat
  den : Nat
  isClosed : Bool

/-- The interval of reals that round to a positive floating-point value. -/
def Binary.interval (b : Binary) : Interval :=
  let m := b.significand
  let narrow := m == Nat.pow 2 52 && b.exponent > -1074
  let (unit, den) := scale 1 1 (b.exponent - 2)
  { value := 4 * m * unit
    low := (4 * m - (if narrow then 1 else 2)) * unit
    high := (4 * m + 2) * unit
    den
    isClosed := m % 2 == 0 }

/-- Whether `digits * 10 ^ power` lies in the interval. -/
def Interval.holds (i : Interval) (digits : Nat) (power : Int) : Bool :=
  let (n, d) :=
    if 0 ≤ power then (digits * Nat.pow 10 power.toNat, 1)
    else (digits, Nat.pow 10 (-power).toNat)
  let n := n * i.den
  if i.isClosed then decide (i.low * d ≤ n) && decide (n ≤ i.high * d)
  else decide (i.low * d < n) && decide (n < i.high * d)

def digitCount (n : Nat) : Nat := (Nat.toDigits 10 n).length

/-- The exponent of the first decimal digit of the value, plus one. -/
def Interval.magnitude (i : Interval) : Int :=
  if i.den ≤ i.value then digitCount (i.value / i.den)
  else
    -- the first power of ten that lifts the value to one or more
    let lift := digitCount (i.den / (max i.value 1))
    if i.den ≤ i.value * Nat.pow 10 (lift - 1) then 1 - ((lift : Int) - 1)
    else 1 - (lift : Int)

/-- The shortest digits among those of at least `count` figures, trying `fuel` lengths. -/
def Interval.shortestFrom (i : Interval) (count : Nat) : Nat → Nat × Int
  | 0 => (i.value / i.den, 0)
  | fuel + 1 =>
    let power := i.magnitude - count
    let (n, d) :=
      if 0 ≤ power then (i.value, i.den * Nat.pow 10 power.toNat)
      else (i.value * Nat.pow 10 (-power).toNat, i.den)
    let below := n / d
    let isBelow := i.holds below power
    let isAbove := i.holds (below + 1) power
    if isBelow && isAbove then
      (if 2 * (n % d) ≤ d then below else below + 1, power)
    else if isBelow then (below, power)
    else if isAbove then (below + 1, power)
    else i.shortestFrom (count + 1) fuel

/-- The fewest digits that denote the value, and the power of ten that they are multiplied by. -/
def Binary.shortest (b : Binary) : Nat × Int :=
  if b.significand == 0 then (0, 0) else
  let (digits, power) := b.interval.shortestFrom 1 17
  trim 400 digits power
where
  /-- Moves zeros at the end of the digits into the power. -/
  trim : Nat → Nat → Int → Nat × Int
    | 0, digits, power => (digits, power)
    | fuel + 1, digits, power =>
      if digits != 0 && digits % 10 == 0 then trim fuel (digits / 10) (power + 1)
      else (digits, power)

/-- A decimal text: positional from a millionth up to 21 digits, otherwise with an exponent. -/
def positional (digits : Nat) (power : Int) : String :=
  let text := (Nat.repr digits).toList
  let count := text.length
  let point : Int := count + power
  let zeros := fun (n : Int) => List.replicate n.toNat '0'
  if digits == 0 then "0"
  else if 0 ≤ power && point ≤ 21 then String.ofList (text ++ zeros power)
  else if 0 < point && point ≤ 21 then
    String.ofList (text.take point.toNat ++ '.' :: text.drop point.toNat)
  else if -6 < point && point ≤ 0 then String.ofList ('0' :: '.' :: zeros (-point) ++ text)
  else
    let mantissa := match text with
      | [d] => [d]
      | d :: rest => d :: '.' :: rest
      | [] => []
    let power := point - 1
    let sign := if power < 0 then "e-" else "e+"
    String.ofList mantissa ++ sign ++ Nat.repr power.natAbs

/-- The shorter of a text and another way to write it. -/
def shorter (text other : List Char) : List Char :=
  if other.length < text.length then other else text

/-- A small fraction with its zeros counted in an exponent. -/
def countLeadingZeros (text : List Char) : List Char :=
  match text with
  | '.' :: '0' :: rest =>
    let digits := rest.dropWhile (· == '0')
    let power := text.length - 1
    if digits.isEmpty then text
    else shorter text (digits ++ 'e' :: '-' :: (Nat.repr power).toList)
  | text => text

/-- A text that ends in zeros with the zeros counted in an exponent. -/
def countTrailingZeros (text : List Char) : List Char :=
  let zeros := text.reverse.takeWhile (· == '0')
  if zeros.isEmpty || zeros.length == text.length then text
  else
    shorter text (text.take (text.length - zeros.length) ++ 'e' :: (Nat.repr zeros.length).toList)

/-- A mantissa with a point and an exponent, with the point moved into the exponent. -/
def movePoint (text : List Char) : List Char :=
  let whole := text.takeWhile (· != '.')
  let rest := (text.dropWhile (· != '.')).drop 1
  let part := rest.takeWhile (· != 'e')
  let power := (rest.dropWhile (· != 'e')).drop 1
  if power.isEmpty then text
  else
    let size : Int := ofDigits 10 (power.filter Char.isDigit)
    let size := (if power.head? == some '-' then -size else size) - part.length
    shorter text (whole ++ part ++ 'e' :: (toString size).toList)

def Binary.spelling (b : Binary) : String :=
  let (digits, power) := b.shortest
  let plain := positional digits power
  let isInteger := decide (0 ≤ power) || digits == 0
  if isInteger && (power ≤ 3 && digits * Nat.pow 10 power.toNat < 1000) then plain
  else
    let text := plain.toList
    let text := match text with
      | '0' :: '.' :: rest => '.' :: rest
      | text => text
    let text := text.filter (· != '+')
    if isInteger then
      let value := b.significand * Nat.pow 2 b.exponent.toNat / Nat.pow 2 (-b.exponent).toNat
      let hex := "0x".toList ++ Nat.toDigits 16 value
      if hex.length < text.length then String.ofList hex
      else String.ofList (movePoint (countTrailingZeros text))
    else String.ofList (movePoint (countTrailingZeros (countLeadingZeros text)))

/-- The shortest spelling of the number that a text spells. -/
def shortestSpelling (raw : String) : String :=
  let (num, den) := exactValue raw
  match nearest num den with
  | some b => b.spelling
  | none => "Infinity"

end TemplateCompiler.Text.Numeral
