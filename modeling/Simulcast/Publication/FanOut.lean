/-!
# Fan-out

A packet is handed to all subscribers one after the other, or, from a number of
subscribers on, by several workers that take a stretch of slots at a time until the
slots are used up. Either way each slot is served once.
-/

namespace Simulcast.FanOut

/-- The slots that a worker takes at a time. -/
def stretchLength : Nat := 2

/-- The stretches in the order in which they are taken. -/
def stretches {α : Type} : Nat → List α → List (List α)
  | 0, _ => []
  | _ + 1, [] => []
  | n + 1, slots => slots.take stretchLength :: stretches n (slots.drop stretchLength)

/-- Whether the work is shared among workers. A threshold of zero never asks for
that. -/
def isShared (threshold subscribers : Nat) : Bool :=
  threshold != 0 && threshold ≤ subscribers

/-- The slots in the order in which they are served. -/
def order {α : Type} (threshold subscribers : Nat) (slots : List α) : List α :=
  if isShared threshold subscribers then (stretches slots.length slots).flatten else slots

end Simulcast.FanOut
