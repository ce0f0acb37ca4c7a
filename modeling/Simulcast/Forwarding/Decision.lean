import Simulcast.Forwarding.Forwarder

/-!
# Forwarding of packets

`Forwarder.forward` decides on one packet: it is left out, or it gets a place in
the subscriber's stream and, for VP8, a descriptor. On the way to a new target
layer it tells when the publisher has to be asked for a key frame. `padding` and
`blankFrames` give places to packets that the relay makes up itself.
-/

namespace Simulcast

/-- What becomes of a packet. -/
structure Decision where
  /-- The packet is left out. -/
  drop : Bool := false
  /-- The publisher is to be asked for a key frame of the packet's layer. -/
  askKeyFrame : Bool := false
  place : Option Placement := none
  descriptor : Option Vp8.Descriptor := none
  deriving DecidableEq, Repr

namespace Decision

/-- Leave the packet out. -/
def leaveOut : Decision := { drop := true }

end Decision

namespace Forwarder

/-- How many blank frames end a stream. -/
def blankFrameCount : Nat := 6

/-- The rate of blank frames, per second. -/
def blankFrameRate : UInt32 := 30

/-- The ticks of a clock in a span of time: at least one, at most a whole cycle. -/
def ticksIn (clockRate : UInt32) (nanos : Nat) : UInt32 :=
  let ticks := nanos / nanosPerMilli * clockRate.toNat / 1000
  UInt32.ofNat (max 1 (min ticks 0xffffffff))

/-- The ticks from the last packet of the layer gate to this one. -/
def ticksSince (f : Forwarder) (a : Arrival) : UInt32 :=
  match f.lastArrival with
  | none => 1
  | some last => ticksIn f.codec.clockRate (a.time - last)

/-- Takes up the source of a packet that is the first one, or a new one, which is
to go on so many ticks later. -/
def takeSource (f : Forwarder) (a : Arrival) (ticks : UInt32) : Forwarder :=
  if f.lastSsrc = a.ssrc then f
  else
    { f with
      started := true
      lastSsrc := a.ssrc
      numbering :=
        if f.started then f.numbering.changeSource a 1 ticks else f.numbering.start a }

/-- Takes up the pictures of such a source. -/
def takePictures (f : Forwarder) (a : Arrival) : Forwarder :=
  if f.lastSsrc = a.ssrc then f
  else
    { f with
      pictures := f.pictures.map fun p => if f.started then p.changeSource a else p.start a }

/-- Passes a fault on, unless it only means that the packet is left out. -/
def leaveOutOr (d : Decision) (e : Fault) : Except Fault Decision :=
  if e.isTransient then .ok { d with drop := true } else .error e

/-- Forwards an audio packet. How a new source counts is unknown, so that it goes
on by one tick. -/
def forwardAudio (f : Forwarder) (a : Arrival) : Forwarder × Except Fault Decision :=
  let f := f.takeSource a 1
  let (numbering, result) := f.numbering.place a
  ({ f with numbering }, match result with
    | .ok place => .ok { place := some place }
    | .error e => leaveOutOr {} e)

/-- Makes the layer of a packet the current one if it is aimed for and a key frame
starts; otherwise asks for a key frame, once for each time that it is aimed for. -/
def approachTarget (f : Forwarder) (a : Arrival) (layer : Int) : Forwarder × Bool :=
  if f.target.spatial ≠ f.current.spatial ∧ f.target.spatial = layer then
    if a.keyFrame then
      ({ f with
          current := { f.current with spatial := f.target.spatial }
          keyFrameAsked := none }, false)
    else if f.keyFrameAsked ≠ some layer then ({ f with keyFrameAsked := some layer }, true)
    else (f, false)
  else (f, false)

/-- Whether packets of a layer pass: it is the current one, and not one that has
been given up for a lower one to save bandwidth. -/
def passes (f : Forwarder) (layer : Int) : Bool :=
  f.current.spatial == layer &&
    !(f.target.spatial < f.current.spatial && f.target.spatial < f.bound.spatial)

/-- Whether a packet can be the first with the temporal layers that are aimed for. -/
def switchesTemporal (f : Forwarder) (a : Arrival) : Bool :=
  a.vp8.any fun d => !d.hasTid || (d.tid.toNat : Int) ≤ f.target.temporal

/-- Takes over the temporal layer that is aimed for. -/
def takeTemporal (f : Forwarder) : Forwarder :=
  { f with current := { f.current with temporal := f.target.temporal } }

/-- Gives a placed packet its descriptor. A picture that is filtered out gives its
place back. -/
def describePicture (f : Forwarder) (p : Vp8.PictureNumbering) (a : Arrival) (place : Placement)
    (d : Decision) : Forwarder × Except Fault Decision :=
  let f := if f.switchesTemporal a then f.takeTemporal else f
  let (pictures, result) := p.describe a place.standing f.current.temporal
  let f := { f with pictures := some pictures }
  match result with
  | .ok descriptor => (f, .ok { d with place := some place, descriptor := some descriptor })
  | .error .filteredTemporalLayer =>
    ({ f with numbering := f.numbering.drop a }, .ok { d with drop := true })
  | .error .latePicture => (f, .ok { d with drop := true })
  | .error e => (f, .error e)

/-- Places a packet that passes the layer gate. -/
def placePacket (f : Forwarder) (a : Arrival) (d : Decision) : Forwarder × Except Fault Decision :=
  let f := { (f.takePictures a).takeSource a (f.ticksSince a) with lastArrival := some a.time }
  let (numbering, result) := f.numbering.place a
  let f := { f with numbering }
  match result with
  | .error e => (f, leaveOutOr d e)
  | .ok place => match f.pictures with
    | none => (f.takeTemporal, .ok { d with place := some place })
    | some p => f.describePicture p a place d

/-- Decides on a video packet of a spatial layer. -/
def forwardVideo (f : Forwarder) (a : Arrival) (layer : Int) : Forwarder × Except Fault Decision :=
  if f.target = .none then (f, .ok .leaveOut)
  else
    let (f, askKeyFrame) := f.approachTarget a layer
    if f.passes layer then f.placePacket a { askKeyFrame }
    else (f, .ok { drop := true, askKeyFrame })

/-- Decides on a packet of a spatial layer. -/
def forward (f : Forwarder) (a : Arrival) (layer : Int) : Forwarder × Except Fault Decision :=
  if f.muted then (f, .ok .leaveOut)
  else match f.kind with
    | .audio => f.forwardAudio a
    | .video => f.forwardVideo a layer

/-- Places for padding packets. A paused stream may end its frame by force, as it
starts again with a key frame. -/
def padding (f : Forwarder) (count : Nat) : Forwarder × Except Fault (List Place) :=
  let (numbering, result) := f.numbering.generate count 0 0 (f.target = .none)
  ({ f with numbering }, result)

/-- Places for blank frames, and whether the first of them has to end the frame in
flight. -/
def blankFrames (f : Forwarder) : Forwarder × Except Fault (List Place × Bool) :=
  let endsFrame := !f.numbering.isOnFrameBoundary
  let count := blankFrameCount + if endsFrame then 1 else 0
  let (numbering, result) :=
    f.numbering.generate count f.codec.clockRate blankFrameRate endsFrame
  ({ f with numbering }, result.map fun places => (places, endsFrame))

/-- The descriptor of a generated VP8 frame. -/
def blankDescriptor (f : Forwarder) (endsFrame : Bool) : Forwarder × Option Vp8.Descriptor :=
  match f.pictures with
  | none => (f, none)
  | some p =>
    let (pictures, d) := p.generate (!endsFrame)
    ({ f with pictures := some pictures }, some d)

end Forwarder
end Simulcast
