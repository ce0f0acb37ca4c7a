/-!
# Layers and their bitrates

A publisher sends a video in up to three spatial layers, each of up to four
temporal layers. A pair of layers points into that grid; `Layers.none` points
nowhere and stands for sending nothing. Pairs are ordered by their spatial layer
first.
-/

namespace Simulcast

/-- A spatial and a temporal layer. -/
structure Layers where
  spatial : Int
  temporal : Int
  deriving DecidableEq, Repr

namespace Layers

/-- The highest spatial layer. -/
def maxSpatial : Int := 2

/-- The highest temporal layer. -/
def maxTemporal : Int := 3

/-- Nothing is sent. -/
def none : Layers := ⟨-1, -1⟩

/-- The layers of the highest quality. -/
def full : Layers := ⟨maxSpatial, maxTemporal⟩

instance : Inhabited Layers := ⟨none⟩

/-- Whether a pair points into the grid, or beyond it on the high side. -/
def isValid (l : Layers) : Bool := 0 ≤ l.spatial && 0 ≤ l.temporal

/-- Whether neither layer exceeds that of `bound`. -/
def within (l bound : Layers) : Bool :=
  l.spatial ≤ bound.spatial && l.temporal ≤ bound.temporal

/-- The order of pairs: by spatial layer, then by temporal layer. -/
def lt (a b : Layers) : Bool :=
  a.spatial < b.spatial || (a.spatial == b.spatial && a.temporal < b.temporal)

/-- A pair in words. -/
def describe (l : Layers) : String :=
  "VideoLayers\x7bs: " ++ toString l.spatial ++ ", t: " ++ toString l.temporal ++ "\x7d"

end Layers

/-- A bitrate for each temporal layer of a spatial layer. -/
abbrev LayerRates := Vector Int 4

/-- A bitrate for each pair of layers, in bits per second; zero where none is
measured. -/
abbrev Bitrates := Vector LayerRates 3

namespace Bitrates

/-- Nothing measured. -/
def zero : Bitrates := Vector.replicate 3 (Vector.replicate 4 0)

/-- The bitrate of a pair; zero outside the grid. -/
def rate (brs : Bitrates) (l : Layers) : Int :=
  if l.isValid then
    match brs[l.spatial.toNat]? with
    | some row => row[l.temporal.toNat]?.getD 0
    | none => 0
  else 0

end Bitrates

/-- The capacity of a channel without limit. -/
def unlimited : Int := 0x7fffffffffffffff

/-- The layers from `low` to `high`, from the bottom. -/
def layerRange (low high : Int) : List Int :=
  (List.range (high + 1 - low).toNat).map fun (i : Nat) => low + i

end Simulcast
