import Simulcast.Intake.Arrival
import Simulcast.Layers

/-!
# Bitrate meters

A meter counts the octets of each temporal layer over windows of a given length.
Each time a window is over, however late that is noticed, the counts are turned
into rates over the time since its start. Rates are read cumulatively, since a
layer needs those below it; a layer without traffic of its own stays at zero.
-/

namespace Simulcast

/-- The octets counted in the window, and the rates of the last one. -/
structure BitrateMeter where
  interval : Nat
  windowStart : Option Time := none
  octets : Vector Nat 4 := Vector.replicate 4 0
  rates : LayerRates := Vector.replicate 4 0
  deriving Repr

namespace BitrateMeter

/-- The length of a span in seconds: whole ones, and the rest as a fraction. -/
def seconds (nanos : Nat) : Float :=
  Float.ofNat (nanos / 1000000000) + Float.ofNat (nanos % 1000000000) / 1000000000.0

/-- The rate, in whole bits per second, of so many octets in a span. -/
def rateOf (octets nanos : Nat) : Int :=
  (Float.ofNat octets * 8.0 / seconds nanos).toInt64.toInt

/-- Ends the window if it has lasted long enough. -/
def roll (m : BitrateMeter) (now : Time) : BitrateMeter :=
  match m.windowStart with
  | none => m
  | some start =>
    let elapsed := now - start
    if elapsed < m.interval then m
    else { m with
      windowStart := some now
      octets := Vector.replicate 4 0
      rates := m.octets.map fun n => rateOf n elapsed }

/-- Counts a packet of a temporal layer. The first one opens a window. -/
def add (m : BitrateMeter) (now : Time) (temporal size : Nat) : BitrateMeter :=
  let m := { m with windowStart := m.windowStart <|> some now }.roll now
  { m with octets := m.octets.setIfInBounds temporal (m.octets[temporal]?.getD 0 + size) }

/-- Each rate with those of the layers below it, and zero where there is none. -/
def cumulative (rates : LayerRates) : LayerRates :=
  let below (i : Nat) : Int := (rates.toList.take i).foldr (· + ·) 0
  rates.mapIdx fun i r => if r = 0 then 0 else r + below i

end BitrateMeter
end Simulcast
