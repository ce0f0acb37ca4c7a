import Simulcast.Layers

/-!
# Allocation of bandwidth

An allocator divides the capacity toward a subscriber among its tracks. For each
it picks the pair of layers to be sent, out of those with a measured bitrate:

* `bestWithin`: the highest measured pair within a bound, with its bitrate;
* `highestFitting`, `lowestFitting`: the first pair that fits a capacity, from the
  top and from the bottom.
-/

namespace Simulcast

/-- How an allocation came out. -/
inductive AllocationState where
  | none
  | muted
  /-- Nothing flows. -/
  | feedDry
  /-- Layers flow, but none is measured yet. -/
  | awaitingMeasurement
  /-- The best measured pair is sent. -/
  | optimal
  | deficient
  deriving DecidableEq, Repr

namespace AllocationState

/-- The name of a state in a document. -/
def key : AllocationState → String
  | none => "none"
  | muted => "muted"
  | feedDry => "feed_dry"
  | awaitingMeasurement => "awaiting_measurement"
  | optimal => "optimal"
  | deficient => "deficient"

/-- The name of a state in a report: its key in capitals. -/
def label (s : AllocationState) : String := s.key.toUpper

end AllocationState

/-- Whether an allocation stopped or started the stream. -/
inductive StreamingChange where
  | none
  | pausing
  | resuming
  deriving DecidableEq, Repr

/-- How much of what a subscriber asked for is sent. -/
inductive ForwardingStatus where
  | off
  | partly
  | optimal
  deriving DecidableEq, Repr

/-- The name of a status. -/
def ForwardingStatus.name : ForwardingStatus → String
  | off => "off"
  | partly => "partial"
  | optimal => "optimal"

/-- The answer to an allocator. -/
structure Allocation where
  state : AllocationState := .none
  /-- The bandwidth asked for. -/
  requested : Int := 0
  /-- How much that is above what was asked for last. -/
  delta : Int := 0
  layersChanged : Bool := false
  deriving DecidableEq, Repr

namespace Bitrates

/-- The pairs of a rectangle of layers, from the bottom. -/
def pairs (low high : Layers) : List Layers :=
  (layerRange (max low.spatial 0) high.spatial).flatMap fun s =>
    (layerRange (max low.temporal 0) high.temporal).map fun t => ⟨s, t⟩

/-- Whether a pair is measured and stays below a capacity. -/
def fits (brs : Bitrates) (capacity : Int) (l : Layers) : Bool :=
  brs.rate l != 0 && brs.rate l < capacity

/-- The lowest pair of a rectangle that fits. -/
def lowestFitting (brs : Bitrates) (low high : Layers) (capacity : Int) : Option Layers :=
  (pairs low high).find? (brs.fits capacity)

/-- The highest pair of a rectangle that fits. -/
def highestFitting (brs : Bitrates) (low high : Layers) (capacity : Int) : Option Layers :=
  (pairs low high).reverse.find? (brs.fits capacity)

/-- The bitrate of the highest measured pair within a bound; zero if there is
none. -/
def bestWithin (brs : Bitrates) (bound : Layers) : Int :=
  if bound.isValid then
    match (pairs ⟨0, 0⟩ bound).reverse.find? fun l => brs.rate l != 0 with
    | some l => brs.rate l
    | none => 0
  else 0

end Bitrates
end Simulcast
