/-!
# The quality of a connection

A connection is scored, up to a hundred, and the score is put into one of three
grades. `Score` says what grading needs of a number, so that the same rules hold for
floating point and for exact numbers.
-/

namespace Simulcast

/-- The grade of a connection. -/
inductive Quality where
  | poor
  | good
  | excellent
  deriving DecidableEq, Repr

namespace Quality

/-- The place of a grade among the others. -/
def rank : Quality → Nat
  | poor => 0
  | good => 1
  | excellent => 2

instance : LT Quality := ⟨fun a b => a.rank < b.rank⟩

instance (a b : Quality) : Decidable (a < b) := inferInstanceAs (Decidable (a.rank < b.rank))

/-- The name of a grade in a document. -/
def key : Quality → String
  | poor => "poor"
  | good => "good"
  | excellent => "excellent"

/-- The name of a grade in a report: its key in capitals. -/
def label (q : Quality) : String := q.key.toUpper

end Quality

/-- Numbers that serve as scores. -/
class Score (α : Type) where
  /-- A hundred. -/
  full : α
  /-- What a window without packets is worth: fifty. -/
  missing : α
  /-- Whether a score is above a whole number. -/
  isAbove : α → Nat → Bool
  /-- The order in which scores are sorted. -/
  atMost : α → α → Bool

namespace Score

variable {α : Type} [Score α]

/-- The grade of a score. -/
def quality (s : α) : Quality :=
  if isAbove s 80 then .excellent else if isAbove s 60 then .good else .poor

end Score

/-- The place of a floating point number in a total order, in which the numbers are
sorted as usual and minus zero comes before zero. -/
def floatRank (x : Float) : Nat :=
  let bits := x.toBits.toNat
  if bits < 0x8000000000000000 then 0x8000000000000000 + bits else 0xffffffffffffffff - bits

instance : Score Float where
  full := 100.0
  missing := 50.0
  isAbove s n := Float.ofNat n < s
  atMost a b := floatRank a ≤ floatRank b

/-- The mean opinion that a score stands for, from 1 to 4.5. -/
def meanOpinion (score : Float) : Float32 :=
  if score ≤ 0.0 then 1.0
  else if 100.0 ≤ score then 4.5
  else
    (1.0 + 0.035 * score + 0.000007 * score * (score - 60.0) * (100.0 - score)).toFloat32

end Simulcast
