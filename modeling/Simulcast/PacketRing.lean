import Simulcast.Serial

/-!
# Packet rings

A ring keeps what was stored under the newest sequence numbers. Numbers are
counted on without wrapping, from the newest one: its *position* is known, and
another number stands at the position nearest to it. A position has one slot, and
shares it with every position a whole number of rings away.

`unwrap` places a number, `slotOf` finds the slot of a position.
-/

namespace Simulcast

/-- The newest number and its position. -/
structure Newest where
  number : UInt16
  position : Nat
  deriving DecidableEq, Repr

namespace Newest

/-- The position of a first number: one whole cycle in, so that numbers before it
have a position too. -/
def ofFirst (number : UInt16) : Newest := ⟨number, 0x10000 + number.toNat⟩

/-- The position of a number near the newest one, unless it would lie before the
start. -/
def unwrap (n : Newest) (number : UInt16) : Option Nat :=
  let p := (n.position : Int) + Serial.lead number n.number
  if 0 ≤ p then some p.toNat else none

/-- Whether a position is among the newest `size` ones. -/
def covers (n : Newest) (size position : Nat) : Bool :=
  position ≤ n.position && n.position - position < size

end Newest

/-- Slots for what is stored under a number, at least one. -/
structure PacketRing (α : Type) where
  slots : Array (Option (UInt16 × α))
  newest : Option Newest := none
  deriving Repr

namespace PacketRing

variable {α : Type}

/-- An empty ring. -/
def ofCapacity (capacity : Nat) : PacketRing α :=
  { slots := Array.replicate (max capacity 1) none }

/-- The number of slots. -/
def capacity (r : PacketRing α) : Nat := r.slots.size

/-- The slot of a position. -/
def slotOf (r : PacketRing α) (position : Nat) : Nat := position % r.capacity

/-- The position at which a number is stored, and the newest one from then on. A
number that has no position starts the ring over. -/
def place (r : PacketRing α) (number : UInt16) : Nat × Newest :=
  match r.newest with
  | none => (0x10000 + number.toNat, Newest.ofFirst number)
  | some n =>
    match n.unwrap number with
    | none => (0x10000 + number.toNat, Newest.ofFirst number)
    | some p => if n.position < p then (p, ⟨number, p⟩) else (p, n)

/-- Stores under a number. What is older than the ring reaches is not stored. -/
def add (r : PacketRing α) (number : UInt16) (a : α) : PacketRing α :=
  let (p, n) := r.place number
  if n.covers r.capacity p then
    { slots := r.slots.setIfInBounds (r.slotOf p) (some (number, a)), newest := some n }
  else { r with newest := some n }

/-- What is stored under a number that the ring reaches. -/
def get? (r : PacketRing α) (number : UInt16) : Option α := do
  let n ← r.newest
  let p ← n.unwrap number
  if n.covers r.capacity p then
    let (stored, a) ← (← r.slots[r.slotOf p]?)
    if stored = number then return a else none
  else none

/-- Puts something else in the place of what is stored under a number. -/
def replace (r : PacketRing α) (number : UInt16) (a : α) : PacketRing α :=
  match r.newest.bind fun n => n.unwrap number with
  | none => r
  | some p => { r with slots := r.slots.setIfInBounds (r.slotOf p) (some (number, a)) }

end PacketRing
end Simulcast
