import Simulcast.Vp8.PictureNumbering
import Simulcast.Forwarding.Allocation
import Simulcast.Media

/-!
# Forwarders

A forwarder stands between one published track and one subscriber. Allocation sets
the pair of layers it aims for; a packet of the aimed-for spatial layer that starts
a key frame makes that layer the current one. Packets of the current layer are
forwarded, everything else is left out.
-/

namespace Simulcast

/-- The state between a published track and a subscriber. -/
structure Forwarder where
  codec : Codec
  kind : MediaKind
  muted : Bool := false
  /-- A first source has been taken up. -/
  started : Bool := false
  lastSsrc : UInt32 := 0
  lastArrival : Option Time := none
  /-- The highest layers the subscriber wants. -/
  bound : Layers
  /-- The layers that are sent. -/
  current : Layers := .none
  /-- The layers that allocation wants to be sent. -/
  target : Layers := .none
  /-- The spatial layer for which a key frame has been asked. -/
  keyFrameAsked : Option Int := none
  state : AllocationState := .none
  /-- The bandwidth of the last allocation. -/
  requested : Int := 0
  change : StreamingChange := .none
  /-- The spatial layers that the publisher sends. -/
  available : List Int := []
  numbering : Numbering := {}
  pictures : Option Vp8.PictureNumbering := none
  deriving Repr

namespace Forwarder

/-- A forwarder for a codec. Audio has no layers. -/
def forCodec (codec : Codec) (kind : MediaKind) : Forwarder :=
  { codec, kind
    bound := match kind with
      | .video => .full
      | .audio => .none
    pictures := if codec.format = .vp8 then some {} else none }

/-- Mutes or unmutes, and tells whether that is news. -/
def mute (f : Forwarder) (on : Bool) : Forwarder × Bool :=
  ({ f with muted := on }, f.muted != on)

/-- A layer brought between zero and the highest one. -/
def clampLayer (layer top : Int) : Int := min (max layer 0) top

/-- Bounds the spatial layer, and returns the new bound if it is another one. -/
def boundSpatial (f : Forwarder) (layer : Int) : Forwarder × Option Layers :=
  let layer := clampLayer layer Layers.maxSpatial
  if f.kind = .audio ∨ f.bound.spatial = layer then (f, none)
  else
    let bound := { f.bound with spatial := layer }
    ({ f with bound }, some bound)

/-- Bounds the temporal layer, and returns the new bound if it is another one. -/
def boundTemporal (f : Forwarder) (layer : Int) : Forwarder × Option Layers :=
  let layer := clampLayer layer Layers.maxTemporal
  if f.kind = .audio ∨ f.bound.temporal = layer then (f, none)
  else
    let bound := { f.bound with temporal := layer }
    ({ f with bound }, some bound)

/-- Takes note of the spatial layers that the publisher sends. -/
def setAvailable (f : Forwarder) (layers : List Int) : Forwarder :=
  { f with available := layers }

/-- How much of what the subscriber wants is aimed for. -/
def status (f : Forwarder) : ForwardingStatus :=
  if f.target = .none then .off
  else if f.target.spatial < f.bound.spatial then .partly
  else .optimal

/-- Whether the last allocation was short of the best. -/
def isDeficient (f : Forwarder) : Bool := f.state == .deficient

/-- The bandwidth of the best measured pair that the subscriber wants. -/
def bandwidthNeeded (f : Forwarder) (brs : Bitrates) : Int := brs.bestWithin f.bound

/-! ## Allocation -/

/-- Aims for other layers. They need a key frame of their own, whatever was asked
for before. -/
def aimFor (f : Forwarder) (target : Layers) : Forwarder :=
  if f.target = target then f else { f with target, keyFrameAsked := none }

/-- Stops sending. -/
def pause (f : Forwarder) : Forwarder :=
  { f with current := .none }.aimFor .none

/-- Records an allocation as the last one, and completes it by its delta. -/
def commit (f : Forwarder) (a : Allocation) : Forwarder × Allocation :=
  ({ f with state := a.state, requested := a.requested },
    { a with delta := a.requested - f.requested })

/-- Notes whether aiming for `target` starts or stops the stream. -/
def noteChange (f : Forwarder) (target : Layers) : Forwarder :=
  if f.target ≠ .none ∧ target = .none then { f with change := .pausing }
  else if f.target = .none ∧ target ≠ .none then { f with change := .resuming }
  else f

/-- The bandwidth of what is aimed for. -/
def rateOf (brs : Bitrates) (target : Layers) : Int :=
  if target = .none then 0 else brs.rate target

/-- Settles on the layers found, or on none. Unless the stream may be paused, it
goes on as before when none were found. -/
def settle (f : Forwarder) (brs : Bitrates) (optimal : Int) (found : Option Layers)
    (canPause : Bool) : Forwarder × Allocation :=
  let target := found.getD .none
  if target = .none ∧ !canPause then
    f.commit { state := f.state, requested := f.requested }
  else
    let requested := rateOf brs target
    let (g, a) := (f.noteChange target).commit {
      state := if requested = optimal then .optimal else .deficient
      requested
      layersChanged := f.target != target }
    (g.aimFor target, a)

/-- Settles without measurements, when there are layers to be had. Without limit
the highest of them is aimed for unseen; otherwise a stream of unknown size is
paused, or left as it is if that may not be. -/
def settleUnmeasured (f : Forwarder) (capacity : Int) (canPause : Bool) (highest : Int) :
    Forwarder × Allocation :=
  if capacity = unlimited then
    let target : Layers := ⟨min highest f.bound.spatial, max f.bound.temporal 0⟩
    let g := if f.target = .none then { f with change := .resuming } else f
    (g.aimFor target).commit {
      state := .awaitingMeasurement
      layersChanged := target != f.target }
  else if f.target = .none then f.commit { state := .awaitingMeasurement }
  else if canPause then
    ({ f with change := .pausing }.pause).commit { state := .deficient, layersChanged := true }
  else f.commit { state := .awaitingMeasurement, requested := f.requested }

/-- Allocates within a capacity, pausing the stream only if that is allowed. -/
def allocateWithin (f : Forwarder) (capacity : Int) (canPause : Bool) (brs : Bitrates) :
    Forwarder × Allocation :=
  if f.kind = .audio then (f, {})
  else if f.muted then f.commit { state := .muted }
  else
    let optimal := f.bandwidthNeeded brs
    if optimal ≠ 0 then
      f.settle brs optimal (brs.highestFitting ⟨0, 0⟩ f.bound capacity) canPause
    else match f.available.getLast? with
      | none => f.commit { state := .feedDry }
      | some highest => f.settleUnmeasured capacity canPause highest

/-- Allocates within a capacity. -/
def allocate (f : Forwarder) (capacity : Int) (brs : Bitrates) : Forwarder × Allocation :=
  f.allocateWithin capacity true brs

/-- A sum that stays within 64 signed bits. -/
def saturatingAdd (a b : Int) : Int :=
  max (-0x8000000000000000) (min 0x7fffffffffffffff (a + b))

/-- Allocates within what is in use and so much more, and never pauses. -/
def tryAllocate (f : Forwarder) (extra : Int) (brs : Bitrates) : Forwarder × Allocation :=
  f.allocateWithin (saturatingAdd f.requested extra) false brs

/-- Settles an allocation that was waiting for measurements. -/
def finalize (f : Forwarder) (brs : Bitrates) : Forwarder :=
  if f.state ≠ .awaitingMeasurement then f
  else
    let optimal := f.bandwidthNeeded brs
    if optimal = 0 then
      if f.available.isEmpty then { f with state := .feedDry, requested := 0 } else f
    else
      (f.settle brs optimal (brs.highestFitting ⟨0, 0⟩ f.bound unlimited) false).1

/-- The pair above what is aimed for: in the same spatial layer if there is one
there, and else in those above it. -/
def higherTemporal (f : Forwarder) (brs : Bitrates) : Option Layers :=
  if f.target = .none then none
  else brs.lowestFitting ⟨f.target.spatial, f.target.temporal + 1⟩
    ⟨f.target.spatial, f.bound.temporal⟩ unlimited

/-- The lowest pair in the spatial layers above that aimed for. -/
def higherSpatial (f : Forwarder) (brs : Bitrates) : Option Layers :=
  brs.lowestFitting ⟨f.target.spatial + 1, 0⟩ f.bound unlimited

/-- Takes a deficient stream one step up, if no switch is under way. Whether the
bandwidth can be afforded is for the caller to decide. -/
def allocateNextHigher (f : Forwarder) (brs : Bitrates) : Forwarder × Allocation :=
  if f.kind = .audio ∨ f.state ≠ .deficient then (f, {})
  else if f.target ≠ .none ∧ f.target ≠ f.current then (f, {})
  else
    let optimal := f.bandwidthNeeded brs
    if optimal = 0 then (f, {})
    else
      let (g, a) := f.settle brs optimal (f.higherTemporal brs) false
      if a.layersChanged then (g, a)
      else g.settle brs optimal (g.higherSpatial brs) false

end Forwarder
end Simulcast
