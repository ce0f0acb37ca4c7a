import Simulcast.Forwarding.Decision
import Simulcast.H264
import Simulcast.Rtcp.Message
import Simulcast.SendLog
import Simulcast.Transmission

/-!
# Subscriptions

A subscription is what one subscriber gets of one published track. It numbers
packets anew by its forwarder, puts them into the queue toward the subscriber, and
keeps count of what becomes of them. Nothing is sent before a transport has bound
it to a codec. What others have to hear of is told in notices, in order.
-/

namespace Simulcast

/-- A moment: the time of the relay, and that of the day in nanoseconds since the
Unix epoch. -/
structure Moment where
  time : Time
  unixNanos : Int
  deriving DecidableEq, Repr

namespace Moment

/-- Milliseconds since the Unix epoch, zero before it. -/
def unixMillis (m : Moment) : Nat := m.unixNanos.toNat / nanosPerMilli

end Moment

/-- A header extension that a transport agreed on. -/
structure AgreedExtension where
  uri : String
  id : UInt8
  deriving DecidableEq, Repr

/-- What a transport agreed on for a subscription. -/
structure BindOffer where
  ssrc : UInt32
  codecs : List NegotiatedCodec := []
  extensions : List AgreedExtension := []
  mid : Option String := none
  deriving DecidableEq, Repr

/-- What the packets of a bound subscription look like. -/
structure Binding where
  ssrc : UInt32
  payloadType : UInt8
  format : PayloadFormat
  mid : Option String
  sendTimeId : UInt8
  deriving DecidableEq, Repr

/-- What has become of the packets of a subscription. -/
structure SendStats where
  packets : Nat := 0
  octets : Nat := 0
  dropped : Nat := 0
  paddingPackets : Nat := 0
  paddingOctets : Nat := 0
  /-- The share of packets lost, as last reported, in units of 1/256. -/
  lossFraction : UInt8 := 0
  deriving DecidableEq, Repr

/-- What a subscription makes known. -/
inductive Notice where
  | bound
  | closed
  /-- A compound of messages arrived. -/
  | rtcp (messages : List Rtcp.Message)
  | bandwidthEstimate (estimate : Rtcp.BandwidthEstimate)
  /-- A receiver report, reduced to what it says of this subscription. -/
  | receiverReport (report : Rtcp.ReceiverReport)
  | availableLayersChanged
  | subscribedLayersChanged (layers : Layers)
  | subscriptionChanged
  /-- The publisher is asked for a key frame. -/
  | askKeyFrame (layer : Int)
  /-- The publisher is to end the subscription of a peer. -/
  | leave (peer : String)
  /-- A packet was handed to the link. -/
  | transmitted (t : Transmission)
  /-- The link took a packet. -/
  | sent (isPadding : Bool) (size : Nat)
  deriving DecidableEq, Repr

/-- How much a subscription remembers, and how much one padding packet counts for. -/
structure SubscriptionSettings where
  logCapacity : Nat := 500
  maxPadding : Nat := 255
  deriving DecidableEq, Repr

/-- The name of a published track, and that of the stream it belongs to. -/
structure TrackName where
  track : String
  stream : String
  deriving DecidableEq, Repr

/-- One subscriber's part in a published track. -/
structure Subscription where
  name : TrackName
  peer : String
  forwarder : Forwarder
  maxPadding : Nat
  /-- What was sent, for video. -/
  log : Option SendLog
  queue : SendQueue Outgoing := {}
  /-- Copies that the subscriber asked for and that are still to be made. -/
  copies : List SentPacket := []
  bound : Bool := false
  binding : Option Binding := none
  simulcast : Bool := false
  /-- Media has been forwarded. Packets of the relay's own wait for that. -/
  written : Bool := false
  closed : Bool := false
  /-- When a key frame was asked for last, in milliseconds since the Unix epoch. -/
  lastKeyFrameRequest : Nat := 0
  /-- When a packet came last, in milliseconds since the Unix epoch. -/
  lastPacket : Nat := 0
  stats : SendStats := {}
  deriving Repr

namespace Subscription

/-- A subscription that is not bound. The codec has to name a kind of media. -/
def create (name : TrackName) (peer : String) (codec : Codec)
    (settings : SubscriptionSettings) : Except Fault Subscription :=
  codec.kind.map fun kind =>
    { name, peer
      forwarder := Forwarder.forCodec codec kind
      maxPadding := settings.maxPadding
      log := match kind with
        | .video => some (SendLog.ofCapacity settings.logCapacity)
        | .audio => none }

/-- The codec of the track. -/
def codec (s : Subscription) : Codec := s.forwarder.codec

/-- The kind of media. -/
def kind (s : Subscription) : MediaKind := s.forwarder.kind

/-! ## Binding -/

/-- The name of the send time extension. -/
def sendTimeUri : String := "http://www.webrtc.org/experiments/rtp-hdrext/abs-send-time"

/-- The identifier agreed on for the send time; zero if there is none. -/
def sendTimeIdOf (extensions : List AgreedExtension) : UInt8 :=
  match extensions.find? fun e => e.uri == sendTimeUri with
  | some e => e.id
  | none => 0

/-- Binds a subscription to what a transport agreed on, and returns the codec
chosen of those offered. -/
def bind (s : Subscription) (offer : BindOffer) :
    Subscription × List Notice × Except Fault NegotiatedCodec :=
  match s.codec.bestOffer offer.codecs with
  | none => (s, [], .error (.unsupportedCodec s.codec.mime))
  | some chosen =>
    ({ s with
        bound := true
        binding := some {
          ssrc := offer.ssrc
          payloadType := chosen.payloadType
          format := chosen.codec.format
          mid := offer.mid
          sendTimeId := sendTimeIdOf offer.extensions } }, [.bound], .ok chosen)

/-- Stops sending, and leaves the publisher. -/
def unbind (s : Subscription) : Subscription × List Notice :=
  ({ s with bound := false }, [.leave s.peer])

/-- The binding in force. -/
def activeBinding (s : Subscription) : Option Binding :=
  if s.bound then s.binding else none

/-! ## Sending -/

/-- Counts a packet that is left out. -/
def countDrop (s : Subscription) : Subscription :=
  { s with stats := { s.stats with dropped := s.stats.dropped + 1 } }

/-- Puts a packet into the queue. -/
def send (s : Subscription) (b : Binding) (packet : Rtp.Packet) (isPadding : Bool) :
    Subscription :=
  { s with queue := s.queue.enqueue { packet, sendTimeId := b.sendTimeId, isPadding } }

/-- A header of the publisher as the subscriber gets it. -/
def readdress (b : Binding) (place : Place) (h : Rtp.Header) : Rtp.Header :=
  { h with
    payloadType := b.payloadType
    number := place.number
    timestamp := place.timestamp
    ssrc := b.ssrc }.withoutExtensions

/-- The payload of a packet, with its descriptor replaced where it has a new one. -/
def payloadFor (a : Arrival) (d : Decision) : Attempt Octets :=
  match d.descriptor, a.vp8 with
  | some outgoing, some incoming => Vp8.replaceDescriptor a.packet.payload incoming outgoing
  | _, _ => .ok a.packet.payload

/-- The number by which a spatial layer is logged. -/
def loggedLayer (layer : Int) : UInt8 :=
  if 0 ≤ layer ∧ layer < 256 then UInt8.ofNat layer.toNat else 0

/-- Logs a packet that was given a place. -/
def logPacket (s : Subscription) (a : Arrival) (layer : Int) (place : Placement)
    (descriptor : Option Vp8.Descriptor) : Subscription :=
  { s with log := s.log.map fun l => l.record {
      source := a.number
      target := place.number
      timestamp := place.timestamp
      layer := loggedLayer layer
      descriptor } }

/-- Queues a packet that is forwarded. -/
def sendMedia (s : Subscription) (b : Binding) (a : Arrival) (layer : Int) (place : Placement)
    (d : Decision) : Attempt Subscription :=
  (payloadFor a d).map fun payload =>
    { s.logPacket a layer place d.descriptor with written := true }.send b
      { header := readdress b place.toPlace a.packet.header, payload } false

/-- Acts on the decision about a packet. -/
def carryOut (s : Subscription) (b : Binding) (a : Arrival) (layer : Int) (d : Decision) :
    Attempt (Subscription × Except Fault Unit) :=
  match d.drop, d.place with
  | false, some place =>
    match s.sendMedia b a layer place d with
    | .ok s => .ok (s, .ok ())
    | .error (.fault e) => .ok (s.countDrop, .error e)
    | .error .overrun => .error .overrun
  | _, _ => .ok (s.countDrop, .ok ())

/-- Takes note of a request for a key frame, and passes it on. -/
def requestKeyFrame (s : Subscription) (now : Moment) (layer : Int) :
    Subscription × List Notice :=
  ({ s with lastKeyFrameRequest := now.unixMillis }, [.askKeyFrame layer])

/-- Takes a packet of a spatial layer. -/
def write (s : Subscription) (now : Moment) (a : Arrival) (layer : Int) :
    Attempt (Subscription × List Notice × Except Fault Unit) :=
  let s := { s with lastPacket := now.unixMillis }
  match s.activeBinding with
  | none => .ok (s, [], .ok ())
  | some b =>
    let (forwarder, decision) := s.forwarder.forward a layer
    let s := { s with forwarder }
    match decision with
    | .error e => .ok (s.countDrop, [], .error e)
    | .ok d =>
      let (s, notices) := if d.askKeyFrame then s.requestKeyFrame now layer else (s, [])
      (s.carryOut b a layer d).map fun (s, r) => (s, notices, r)

/-! ## Packets of the relay's own -/

/-- The octets that a padding packet is taken to have beside its padding. -/
def paddingOverhead : Nat := 20

/-- Whether there is anything to which packets of the relay's own could be added. -/
def canGenerate (s : Subscription) : Option Binding :=
  if s.kind = .audio ∨ !s.written then none else s.activeBinding

/-- A packet that holds padding alone. -/
def paddingPacket (b : Binding) (place : Place) : Rtp.Packet :=
  { header := {
      padding := true
      payloadType := b.payloadType
      number := place.number
      timestamp := place.timestamp
      ssrc := b.ssrc }
    payload := [] }

/-- The packets that a budget of octets buys. -/
def paddingCount (s : Subscription) (budget : Nat) : Nat :=
  let each := s.maxPadding + paddingOverhead
  (budget + each - 1) / each

/-- Queues padding for a budget of octets, and returns the octets queued. -/
def writePadding (s : Subscription) (budget : Nat) : Subscription × Nat :=
  match if s.forwarder.muted then none else s.canGenerate with
  | none => (s, 0)
  | some b =>
    let count := s.paddingCount budget
    if count = 0 then (s, 0)
    else
      let (forwarder, places) := s.forwarder.padding count
      let s := { s with forwarder }
      match places with
      | .error _ => (s, 0)
      | .ok places =>
        let packets := places.map (paddingPacket b)
        (packets.foldl (fun s p => s.send b p true) s, packets.foldr (fun p n => p.size + n) 0)

/-- A VP8 key frame of one pixel, which a decoder shows as a blank picture. -/
def vp8BlankFrame : Octets :=
  [0x10, 0x02, 0x00, 0x9d, 0x01, 0x2a, 0x01, 0x00, 0x01, 0x00, 0x0b, 0xc7, 0x08, 0x85, 0x85,
    0x88, 0x85, 0x84, 0x88, 0x3f, 0x82, 0x00, 0x0c, 0x0d, 0x60, 0x00, 0xfe, 0xe6, 0xb5, 0x00]

/-- The units of an H.264 key frame of two by two pixels: parameters of sequence and
picture, and the picture. -/
def h264BlankUnits : List Octets :=
  [[0x67, 0x42, 0xc0, 0x1f, 0x0f, 0xd9, 0x1f, 0x88, 0x88, 0x84, 0x00, 0x00, 0x03, 0x00, 0x04,
      0x00, 0x00, 0x03, 0x00, 0xc8, 0x3c, 0x60, 0xc9, 0x20],
    [0x68, 0x87, 0xcb, 0x83, 0xcb, 0x20],
    [0x65, 0x88, 0x84, 0x0a, 0xf2, 0x62, 0x80, 0x00, 0xa7, 0xbe]]

/-- An aggregate of H.264 units, each behind its length. -/
def h264BlankFrame : Octets :=
  H264.aggregate :: h264BlankUnits.flatMap fun u => Octets.ofWord16 (UInt16.ofNat u.length) ++ u

/-- The payload of a blank frame. -/
def blankPayload (s : Subscription) (format : PayloadFormat) (endsFrame : Bool) :
    Subscription × Attempt Octets :=
  if format = .vp8 then
    let (forwarder, descriptor) := s.forwarder.blankDescriptor endsFrame
    ({ s with forwarder }, match descriptor with
      | none => .error (.fault .notVp8)
      | some d => (d.writeInto (Octets.zeros d.size)).map fun (_, bs) => bs ++ vp8BlankFrame)
  else (s, .ok h264BlankFrame)

/-- Queues blank frames at the given places. Only the first may end the frame in
flight. -/
def sendBlankFrames (b : Binding) : Subscription → List Place → Bool →
    Subscription × Attempt Unit
  | s, [], _ => (s, .ok ())
  | s, place :: places, endsFrame =>
    let (s, payload) := s.blankPayload b.format endsFrame
    match payload with
    | .error e => (s, .error e)
    | .ok payload =>
      let header : Rtp.Header := {
        marker := true
        payloadType := b.payloadType
        number := place.number
        timestamp := place.timestamp
        ssrc := b.ssrc }
      sendBlankFrames b (s.send b { header, payload } false) places false

/-- Queues blank key frames, so that the last picture does not freeze, and returns
their number. -/
def writeBlankFrames (s : Subscription) : Subscription × Attempt Nat :=
  match s.canGenerate with
  | none => (s, .ok 0)
  | some b =>
    if b.format = .other then (s, .ok 0)
    else
      let (forwarder, places) := s.forwarder.blankFrames
      let s := { s with forwarder }
      match places with
      | .error e => (s, .error (.fault e))
      | .ok (places, endsFrame) =>
        let (s, r) := sendBlankFrames b s places endsFrame
        (s, r.map fun _ => places.length)

/-! ## What the subscriber wants -/

/-- Ends the subscription: nothing more is forwarded, blank frames are sent, and the
end is made known. Only the first call does anything. -/
def close (s : Subscription) : Subscription × List Notice :=
  if s.closed then (s, [])
  else
    let s := { s with closed := true, forwarder := (s.forwarder.mute true).1 }
    (s.writeBlankFrames.1, [.closed])

/-- Mutes or unmutes. Loss from before a mute says nothing about what follows. -/
def mute (s : Subscription) (on : Bool) : Subscription × List Notice :=
  let (forwarder, changed) := s.forwarder.mute on
  if changed then
    ({ s with
        forwarder
        stats := { s.stats with lossFraction := if on then 0 else s.stats.lossFraction } },
      [.subscriptionChanged])
  else (s, [])

/-- The notice of a new bound. -/
def boundNotice : Option Layers → List Notice
  | some layers => [.subscribedLayersChanged layers]
  | none => []

/-- Bounds the spatial layer. -/
def boundSpatial (s : Subscription) (layer : Int) : Subscription × List Notice :=
  let (forwarder, bound) := s.forwarder.boundSpatial layer
  ({ s with forwarder }, boundNotice bound)

/-- Bounds the temporal layer. -/
def boundTemporal (s : Subscription) (layer : Int) : Subscription × List Notice :=
  let (forwarder, bound) := s.forwarder.boundTemporal layer
  ({ s with forwarder }, boundNotice bound)

/-- Takes note of the layers that the publisher sends. -/
def setAvailable (s : Subscription) (layers : List Int) : Subscription × List Notice :=
  ({ s with forwarder := s.forwarder.setAvailable layers }, [.availableLayersChanged])

/-- Tells whether the track comes in several sizes. -/
def setSimulcast (s : Subscription) (on : Bool) : Subscription := { s with simulcast := on }

/-! ## Allocation -/

/-- Applies an allocation to the forwarder. -/
def withForwarder {α : Type} (s : Subscription) (change : Forwarder → Forwarder × α) :
    Subscription × α :=
  let (forwarder, r) := change s.forwarder
  ({ s with forwarder }, r)

/-- Allocates within a capacity. -/
def allocate (s : Subscription) (capacity : Int) (brs : Bitrates) : Subscription × Allocation :=
  s.withForwarder fun f => f.allocate capacity brs

/-- Allocates within what is in use and so much more. -/
def tryAllocate (s : Subscription) (extra : Int) (brs : Bitrates) : Subscription × Allocation :=
  s.withForwarder fun f => f.tryAllocate extra brs

/-- Settles an allocation that was waiting for measurements. -/
def finalize (s : Subscription) (brs : Bitrates) : Subscription :=
  { s with forwarder := s.forwarder.finalize brs }

/-- Takes a deficient stream one step up. -/
def allocateNextHigher (s : Subscription) (brs : Bitrates) : Subscription × Allocation :=
  s.withForwarder fun f => f.allocateNextHigher brs

end Subscription
end Simulcast
