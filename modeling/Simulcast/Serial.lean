/-!
# Serial numbers

Sequence numbers count modulo `2^16`. A number is *ahead* of another if it is
one to `2^15 - 1` steps on from it. `lead` is the signed number of steps, which
lies in `[-2^15, 2^15)` (`lead_bounds`), so that a position counted without wrapping
can be recovered from a nearby one.
-/

namespace Simulcast.Serial

/-- Whether `a` is newer than `b`. -/
def isAhead (a b : UInt16) : Bool :=
  a - b != 0 && a - b < 0x8000

/-- The signed number of steps from `b` to `a`. -/
def lead (a b : UInt16) : Int :=
  let d := (a - b).toNat
  if d < 0x8000 then d else d - 0x10000

theorem lead_bounds (a b : UInt16) : -0x8000 ≤ lead a b ∧ lead a b < 0x8000 := by
  have := (a - b).toNat_lt
  simp only [lead]
  split <;> omega

end Simulcast.Serial
