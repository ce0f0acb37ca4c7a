/-!
# The shortest decimal

Many decimals are nearest to the same floating point number. `shortest` picks one
with the fewest digits, and of these the one closest to the number. All of it is done
on whole numbers: every floating point number is a multiple of the least one, and a
quarter of that is the unit here, so that the ends of the interval of numbers that
round to it are whole too.
-/

namespace Simulcast.Decimal

/-- A decimal: `digits * 10 ^ exponent`. -/
structure Scaled where
  digits : Nat
  exponent : Int
  deriving DecidableEq, Repr

/-- How many units make one. -/
def unitsPerOne : Nat := Nat.pow 2 1076

/-- A positive floating point number, and what rounds to it, in units. -/
structure Spread where
  value : Nat
  /-- Half the gap to the number below. -/
  below : Nat
  /-- Half the gap to the number above. -/
  above : Nat
  /-- Whether the ends themselves round to the number. -/
  closed : Bool
  deriving DecidableEq, Repr

namespace Spread

/-- The spread of a finite number with given bits. The gap below a power of two is
half of that above. -/
def ofBits (bits : Nat) : Spread :=
  let field := bits / 0x10000000000000 % 0x800
  let fraction := bits % 0x10000000000000
  let significand := if field = 0 then fraction else 0x10000000000000 + fraction
  let step := Nat.pow 2 (field - 1)
  { value := 4 * significand * step
    below := if fraction = 0 ∧ 1 < field then step else 2 * step
    above := 2 * step
    closed := fraction % 2 = 0 }

/-- Whether a decimal rounds to the number. -/
def holds (s : Spread) (d : Scaled) : Bool :=
  let x := d.digits * Nat.pow 10 d.exponent.toNat * unitsPerOne
  let scale := Nat.pow 10 (-d.exponent).toNat
  let low := (s.value - s.below) * scale
  let high := (s.value + s.above) * scale
  if s.closed then low ≤ x && x ≤ high else low < x && x < high

/-- The number divided by a power of ten, as a fraction. -/
def quotient (s : Spread) (exponent : Int) : Nat × Nat :=
  (s.value * Nat.pow 10 (-exponent).toNat, unitsPerOne * Nat.pow 10 exponent.toNat)

/-- The closer of the decimals just below and just above the number, among those that
round to it. The upper one is taken if both are as close. -/
def closest? (s : Spread) (exponent : Int) : Option Scaled :=
  let (num, den) := s.quotient exponent
  let lower : Scaled := ⟨num / den, exponent⟩
  let upper : Scaled := ⟨num / den + 1, exponent⟩
  let ranked := if 2 * (num % den) < den then [lower, upper] else [upper, lower]
  ranked.find? s.holds

/-- Whether the number lies below a power of ten. -/
def isBelow (s : Spread) (exponent : Int) : Bool :=
  let (num, den) := s.quotient exponent
  num < den

/-- The least power of ten above the number. -/
def magnitude (s : Spread) : Int :=
  let log : Int := (Nat.log2 s.value : Int) - 1076
  let guess := (log * 1233).fdiv 4096
  (([guess, guess + 1, guess + 2] : List Int).find? s.isBelow).getD (guess + 3)

/-- The shortest decimal that rounds to the number. Seventeen digits are enough. -/
def shortest (s : Spread) : Scaled :=
  let k := s.magnitude
  let candidates := (List.range 17).filterMap fun n => s.closest? (k - (n + 1 : Nat))
  match candidates with
  | d :: _ => d
  | [] => ⟨s.value * Nat.pow 5 1076, -1076⟩

end Spread
end Simulcast.Decimal
