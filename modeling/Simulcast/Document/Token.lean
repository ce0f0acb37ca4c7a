/-!
# Tokens of JSON

JSON text is cut into tokens before it is read. Numbers come out as an integer if
they fit a machine word and are written without fraction and exponent, and as a
floating point number otherwise; a number beyond the largest of these is refused.

Escaped characters beyond the first plane are written as two units, which have to
come together.
-/

namespace Simulcast

/-- A token. -/
inductive Token where
  | openList
  | closeList
  | openTable
  | closeTable
  | colon
  | comma
  | null
  | bool (value : Bool)
  | int (value : Int)
  | float (value : Float)
  | text (value : String)
  deriving Repr

namespace Token

/-- Blank space between tokens. -/
def isBlank (c : Char) : Bool := c = ' ' || c = '\t' || c = '\n' || c = '\r'

/-- The value of a decimal digit. -/
def digit (c : Char) : Nat := c.toNat - '0'.toNat

/-- The value of a hexadecimal digit. -/
def hexDigit? (c : Char) : Option Nat :=
  if c.isDigit then some (digit c)
  else if 'a' ≤ c ∧ c ≤ 'f' then some (c.toNat - 'a'.toNat + 10)
  else if 'A' ≤ c ∧ c ≤ 'F' then some (c.toNat - 'A'.toNat + 10)
  else none

/-! ## Texts -/

/-- A part of a text: a character, or a unit of sixteen bits given by an escape. -/
inductive Piece where
  | char (c : Char)
  | unit (n : Nat)
  deriving DecidableEq, Repr

/-- The unit of four hexadecimal digits. -/
def unit? (a b c d : Char) : Option Piece := do
  return .unit ((((← hexDigit? a) * 16 + (← hexDigit? b)) * 16 + (← hexDigit? c)) * 16
    + (← hexDigit? d))

/-- The character that a letter stands for after a backslash. -/
def escaped? : Char → Option Char
  | '"' => some '"'
  | '\\' => some '\\'
  | '/' => some '/'
  | 'b' => some '\x08'
  | 'f' => some '\x0c'
  | 'n' => some '\n'
  | 'r' => some '\r'
  | 't' => some '\t'
  | _ => none

/-- The pieces of a text up to the closing quote, and what comes after it. Control
characters have to be escaped. -/
def pieces : List Char → Option (List Piece × List Char)
  | [] => none
  | '"' :: rest => some ([], rest)
  | '\\' :: 'u' :: a :: b :: c :: d :: rest => do
    let unit ← unit? a b c d
    let (ps, rest) ← pieces rest
    return (unit :: ps, rest)
  | '\\' :: c :: rest => do
    let c ← escaped? c
    let (ps, rest) ← pieces rest
    return (.char c :: ps, rest)
  | c :: rest =>
    if c < ' ' then none
    else (pieces rest).map fun (ps, rest) => (.char c :: ps, rest)

/-- Whether a unit is the first of two. -/
def isLeading (n : Nat) : Bool := 0xD800 ≤ n && n < 0xDC00

/-- Whether a unit is the second of two. -/
def isTrailing (n : Nat) : Bool := 0xDC00 ≤ n && n < 0xE000

/-- Puts pieces together. A unit that needs another one is refused alone. -/
def join : List Piece → Option (List Char)
  | [] => some []
  | .char c :: ps => (join ps).map (c :: ·)
  | .unit m :: .unit n :: ps =>
    if isLeading m then
      if isTrailing n then
        (join ps).map (Char.ofNat (0x10000 + (m - 0xD800) * 0x400 + (n - 0xDC00)) :: ·)
      else none
    else if isTrailing m then none
    else (join (.unit n :: ps)).map (Char.ofNat m :: ·)
  | .unit m :: ps =>
    if isLeading m || isTrailing m then none else (join ps).map (Char.ofNat m :: ·)

/-! ## Numbers -/

/-- A number as it is written: its digits, and how many of them stand behind the
point. -/
structure Numeral where
  negative : Bool
  whole : List Char
  /-- The digits behind a point, if there is one. -/
  fraction : Option (List Char)
  /-- Whether the exponent is negative, and its digits, if there is one. -/
  exponent : Option (Bool × List Char)
  deriving DecidableEq, Repr

/-- The digits at the front, of which there has to be one, and the rest. -/
def digits (cs : List Char) : Option (List Char × List Char) :=
  match cs.takeWhile Char.isDigit with
  | [] => none
  | ds => some (ds, cs.dropWhile Char.isDigit)

/-- The exponent at the front, if there is one, and the rest. -/
def exponent (cs : List Char) : Option (Option (Bool × List Char) × List Char) :=
  match cs with
  | c :: rest =>
    if c = 'e' ∨ c = 'E' then
      let (negative, rest) := match rest with
        | '-' :: rest => (true, rest)
        | '+' :: rest => (false, rest)
        | rest => (false, rest)
      (digits rest).map fun (ds, rest) => (some (negative, ds), rest)
    else some (none, cs)
  | [] => some (none, [])

/-- The numeral at the front, and the rest. A whole part does not start with a zero
unless that is all of it. -/
def numeral (negative : Bool) (cs : List Char) : Option (Numeral × List Char) := do
  let (whole, rest) ← digits cs
  guard (whole.length = 1 || whole.head? != some '0')
  let (fraction, rest) ← match rest with
    | '.' :: rest => (digits rest).map fun (ds, rest) => (some ds, rest)
    | rest => some (none, rest)
  let (exponent, rest) ← exponent rest
  return ({ negative, whole, fraction, exponent }, rest)

/-- The value of decimal digits. -/
def valueOf (ds : List Char) : Nat := ds.foldl (fun n c => n * 10 + digit c) 0

/-- The value of the digits at the front as far as it fits 64 bits, and how many
digits are left. -/
def leadingValue : Nat → List Char → Nat × Nat
  | n, [] => (n, 0)
  | n, c :: cs =>
    if 0x10000000000000000 ≤ n * 10 + digit c then (n, (c :: cs).length)
    else leadingValue (n * 10 + digit c) cs

/-- The number with a power of ten applied to it, unless it is too large. Small ones
are scaled down in steps, as far as powers of ten reach. -/
def scale (steps : Nat) (x : Float) (exponent : Int) : Option Float :=
  if exponent.natAbs ≤ 308 then
    let power := Float.ofScientific 1 false exponent.natAbs
    let y := if 0 ≤ exponent then x * power else x / power
    if y.isInf then none else some y
  else if x == 0.0 then some x
  else if 0 ≤ exponent then none
  else match steps with
    | 0 => some 0.0
    | steps + 1 => scale steps (x / 1e308) (exponent + 308)

namespace Numeral

/-- The digits before the exponent, as far as they fit 64 bits, and the power of ten
that goes with them. Digits that do not fit only count before the point. -/
def significand (n : Numeral) : Nat × Int :=
  match leadingValue 0 n.whole with
  | (value, 0) =>
    let fraction := n.fraction.getD []
    let (value, left) := leadingValue value fraction
    (value, (left : Int) - fraction.length)
  | (value, left) => (value, left)

/-- The value of the exponent. -/
def power (n : Numeral) : Int :=
  match n.exponent with
  | some (true, ds) => -(valueOf ds : Int)
  | some (false, ds) => valueOf ds
  | none => 0

/-- The floating point number next to a numeral, within a last place or so. -/
def toFloat? (n : Numeral) : Option Float :=
  let (value, shift) := n.significand
  (scale 4 (Float.ofNat value) (shift + n.power)).map fun x => if n.negative then -x else x

/-- The token of a numeral. Minus zero is no integer. -/
def token? (n : Numeral) : Option Token :=
  let value := valueOf n.whole
  if n.fraction.isNone && n.exponent.isNone then
    if n.negative then
      if 0 < value && value ≤ 0x8000000000000000 then some (.int (-value)) else n.toFloat?.map .float
    else if value < 0x8000000000000000 then some (.int value)
    else n.toFloat?.map .float
  else n.toFloat?.map .float

end Numeral

/-! ## Cutting -/

/-- What comes after a word at the front. -/
def afterWord (word : String) (cs : List Char) : Option (List Char) :=
  if word.toList.isPrefixOf cs then some (cs.drop word.length) else none

/-- The token that starts with a character, and what comes after it. -/
def next (c : Char) (cs : List Char) : Option (Token × List Char) :=
  match c with
  | '[' => some (.openList, cs)
  | ']' => some (.closeList, cs)
  | '{' => some (.openTable, cs)
  | '}' => some (.closeTable, cs)
  | ':' => some (.colon, cs)
  | ',' => some (.comma, cs)
  | 'n' => (afterWord "ull" cs).map fun rest => (.null, rest)
  | 't' => (afterWord "rue" cs).map fun rest => (.bool true, rest)
  | 'f' => (afterWord "alse" cs).map fun rest => (.bool false, rest)
  | '"' => do
    let (ps, rest) ← pieces cs
    return (.text (String.ofList (← join ps)), rest)
  | '-' => do
    let (n, rest) ← numeral true cs
    return (← n.token?, rest)
  | c => do
    let (n, rest) ← numeral false (c :: cs)
    return (← n.token?, rest)

/-- Cuts a number of characters at most. -/
def cut : Nat → List Char → Option (List Token)
  | _, [] => some []
  | 0, _ => none
  | n + 1, c :: cs =>
    if isBlank c then cut n cs
    else do
      let (token, rest) ← next c cs
      return token :: (← cut n rest)

/-- The tokens of a text. -/
def ofText (text : String) : Option (List Token) := cut text.length text.toList

end Token
end Simulcast
