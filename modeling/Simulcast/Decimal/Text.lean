import Simulcast.Decimal.Shortest

/-!
# Numbers as text

Numbers are written in full, without an exponent: a floating point number with the
fewest digits that identify it, and without a point if it is whole. They are read
with a sign, a point and an exponent; whole numbers with a sign only.
-/

namespace Simulcast.Decimal

/-! ## Writing -/

/-- The digits of a number. -/
def digitsOf (n : Nat) : List Char := Nat.toDigits 10 n

/-- Digits without the zeros at their end. -/
def trimZeros (ds : List Char) : List Char := (ds.reverse.dropWhile (· = '0')).reverse

/-- A decimal in full. -/
def Scaled.text (d : Scaled) : String :=
  if 0 ≤ d.exponent then
    String.ofList (digitsOf d.digits ++ List.replicate d.exponent.toNat '0')
  else
    let places := (-d.exponent).toNat
    let digits := digitsOf d.digits
    let padded := List.replicate (places + 1 - digits.length) '0' ++ digits
    let whole := padded.take (padded.length - places)
    let fraction := trimZeros (padded.drop (padded.length - places))
    String.ofList (if fraction.isEmpty then whole else whole ++ '.' :: fraction)

/-- A floating point number in full. -/
def floatText (x : Float) : String :=
  if x.isNaN then "NaN"
  else
    let bits := x.toBits.toNat
    let sign := if 0x8000000000000000 ≤ bits then "-" else ""
    let magnitude := bits % 0x8000000000000000
    sign ++
      (if x.isInf then "inf"
      else if magnitude = 0 then "0"
      else (Spread.ofBits magnitude).shortest.text)

/-! ## Reading -/

/-- Splits off a sign; whether it is a minus. -/
def splitSign : List Char → Bool × List Char
  | '-' :: cs => (true, cs)
  | '+' :: cs => (false, cs)
  | cs => (false, cs)

/-- The value of a text of digits only, of which there is at least one. -/
def naturalOf? (cs : List Char) : Option Nat :=
  if cs.isEmpty || !cs.all Char.isDigit then none
  else some (cs.foldl (fun n c => n * 10 + (c.toNat - '0'.toNat)) 0)

/-- Reads a natural number, which may have a plus in front. -/
def natural? (text : String) : Option Nat :=
  match text.toList with
  | '+' :: cs => naturalOf? cs
  | cs => naturalOf? cs

/-- Reads a whole number, which may have a sign. -/
def integer? (text : String) : Option Int :=
  let (negative, cs) := splitSign text.toList
  (naturalOf? cs).map fun n => if negative then -(n : Int) else n

/-- The infinite floating point number. -/
def infinity : Float := 1.0 / 0.0

/-- The floating point number nearest to `digits * 10 ^ exponent`. Far beyond the
largest one it is infinite, and far below the least one zero. -/
def nearest (digits : Nat) (exponent : Int) : Float :=
  let magnitude := exponent + (digitsOf digits).length
  if digits = 0 then 0.0
  else if 400 < magnitude then infinity
  else if magnitude < -400 then 0.0
  else if 0 ≤ exponent then Float.ofScientific digits false exponent.toNat
  else Float.ofScientific digits true (-exponent).toNat

/-- The value of the exponent, if there is one: nothing, or a letter with a whole
number behind it. -/
def exponentOf? (cs : List Char) : Option Int :=
  match cs with
  | [] => some 0
  | c :: cs => if c = 'e' ∨ c = 'E' then integer? (String.ofList cs) else none

/-- The value of digits with a point among them or not, and an exponent or not. -/
def decimalOf? (cs : List Char) : Option Float := do
  let whole := cs.takeWhile Char.isDigit
  let (fraction, rest) := match cs.dropWhile Char.isDigit with
    | '.' :: rest => (rest.takeWhile Char.isDigit, rest.dropWhile Char.isDigit)
    | rest => ([], rest)
  let exponent ← exponentOf? rest
  let digits ← naturalOf? (whole ++ fraction)
  return nearest digits (exponent - fraction.length)

/-- Reads a floating point number, also an infinite one or none at all. -/
def float? (text : String) : Option Float :=
  let (negative, cs) := splitSign text.toList
  let magnitude := match String.ofList (cs.map Char.toLower) with
    | "inf" => some infinity
    | "infinity" => some infinity
    | "nan" => some (0.0 / 0.0)
    | _ => decimalOf? cs
  magnitude.map fun x => if negative then -x else x

end Simulcast.Decimal
