import Simulcast.Subscription.Basic
import Simulcast.Intake.Basic

/-!
# Feedback of a subscriber

RTCP that comes back from a subscriber asks for key frames and for lost packets, and
reports on the link. Lost packets are read again from the publisher and numbered
as they were the first time. In the other direction go sender reports, which map the
publisher's clock onto the subscriber's timestamps.
-/

namespace Simulcast.Subscription

/-- What is left to be done with a compound, and what it led to so far. -/
structure FeedbackState where
  subscription : Subscription
  /-- A key frame has been asked for on behalf of this compound. -/
  asked : Bool := false
  notices : List Notice := []

namespace FeedbackState

/-- Asks the publisher for a key frame, once for a compound, unless nothing is aimed
for. -/
def askKeyFrame (f : FeedbackState) (now : Moment) : FeedbackState :=
  let layer := f.subscription.forwarder.target.spatial
  if f.asked ∨ layer < 0 then f
  else
    let (subscription, notices) := f.subscription.requestKeyFrame now layer
    { subscription, asked := true, notices := f.notices ++ notices }

/-- Takes note of a report, as far as it is about this subscription. -/
def report (f : FeedbackState) (r : Rtcp.ReceiverReport) : FeedbackState :=
  let s := f.subscription
  let ssrc := (s.binding.map Binding.ssrc).getD 0
  let reports := r.reports.filter fun b => b.ssrc == ssrc
  match (reports.map Rtcp.ReceptionReport.fractionLost).max? with
  | none => f
  | some loss =>
    { f with
      subscription := { s with stats := { s.stats with lossFraction := loss } }
      notices := f.notices ++ [.receiverReport { r with reports }] }

/-- Looks up lost packets, and has copies made of them. -/
def nack (f : FeedbackState) (now : Moment) (numbers : List UInt16) : FeedbackState :=
  let s := f.subscription
  match s.log with
  | none => f
  | some log =>
    let (log, found) := log.requestAll now.time numbers
    { f with subscription := { s with log := some log, copies := s.copies ++ found } }

/-- Acts on a message. -/
def handle (now : Moment) (f : FeedbackState) (m : Rtcp.Message) : FeedbackState :=
  match m with
  | .pictureLoss | .fullIntraRequest => f.askKeyFrame now
  | .bandwidthEstimate e => { f with notices := f.notices ++ [.bandwidthEstimate e] }
  | .receiverReport r => f.report r
  | .nack losses => f.nack now (losses.flatMap Rtcp.LossPair.numbers)
  | .other => f

end FeedbackState

/-- Acts on the messages of a compound. -/
def handleMessages (s : Subscription) (now : Moment) (ms : List Rtcp.Message) :
    Subscription × List Notice :=
  let f := ms.foldl (FeedbackState.handle now) { subscription := s, notices := [.rtcp ms] }
  (f.subscription, f.notices)

/-- Acts on a compound. One that cannot be read is dropped. -/
def handleRtcp (s : Subscription) (now : Moment) (raw : Octets) :
    Attempt (Subscription × List Notice) :=
  match Rtcp.parseCompound raw with
  | .ok ms => .ok (s.handleMessages now ms)
  | .error .malformed => .ok (s, [])
  | .error .overrun => .error .overrun

/-! ## Copies -/

/-- What a subscription asks its publisher. -/
structure PublisherView where
  /-- The packet kept for a layer under a number, for a reader with so much room. -/
  packet : UInt8 → UInt16 → Nat → Except Fault Octets
  /-- The clock of the publisher on a layer. -/
  clock : Int → Option PublisherClock

/-- The longest packet that is sent again. -/
def copyRoom : Nat := 1500

/-- Puts the logged descriptor in front of the frame data again. -/
def restoreDescriptor (payload : Octets) : Option Vp8.Descriptor → Attempt Octets
  | none => .ok payload
  | some outgoing => match Vp8.Descriptor.parse payload with
    | .error t => .error (.fault (.invalidVp8 t))
    | .ok incoming => Vp8.replaceDescriptor payload incoming outgoing

/-- A sent packet, made again from what the publisher sent. -/
def copyOf (v : PublisherView) (b : Binding) (p : SentPacket) : Attempt Rtp.Packet :=
  match v.packet p.layer p.source copyRoom with
  | .error e => .error (.fault e)
  | .ok raw => do
    let packet ← Rtp.Packet.parse raw
    let payload ← restoreDescriptor packet.payload p.descriptor
    return { header := readdress b ⟨p.target, p.timestamp⟩ packet.header, payload }

/-- Queues copies of sent packets. One that cannot be made again is left out; one
that runs over its buffer ends the work. -/
def sendCopies (v : PublisherView) (b : Binding) : Subscription → List SentPacket → Subscription
  | s, [] => s
  | s, p :: ps => match copyOf v b p with
    | .ok packet => sendCopies v b (s.send b packet false) ps
    | .error (.fault _) => sendCopies v b s ps
    | .error .overrun => s

/-- Makes the copies that were asked for. -/
def makeCopies (s : Subscription) (v : PublisherView) : Subscription :=
  let copies := s.copies
  let s := { s with copies := [] }
  match s.binding with
  | none => s
  | some b => sendCopies v b s copies

/-! ## Sending what is queued -/

/-- Counts a packet that was handed to the link. -/
def account (s : Subscription) (t : Transmission) : Subscription × List Notice :=
  let n := s.stats
  if t.succeeded then
    let padding := if t.isPadding then 1 else 0
    ({ s with stats := { n with
        packets := n.packets + 1
        octets := n.octets + t.size
        paddingPackets := n.paddingPackets + padding
        paddingOctets := n.paddingOctets + padding * t.size } },
      [.transmitted t, .sent t.isPadding t.size])
  else ({ s with stats := { n with dropped := n.dropped + 1 } }, [.transmitted t])

/-- Counts packets in turn. -/
def accountAll : Subscription → List Transmission → Subscription × List Notice
  | s, [] => (s, [])
  | s, t :: ts =>
    let (s, first) := s.account t
    let (s, rest) := accountAll s ts
    (s, first ++ rest)

/-- Makes the copies that were asked for, and sends all that is queued. -/
def flush (s : Subscription) (v : PublisherView) (now : Moment) (link : Link) :
    Subscription × List Notice :=
  let s := s.makeCopies v
  let (queue, packets) := s.queue.drain
  accountAll { s with queue } (packets.map fun o => o.transmit now.unixNanos link)

/-! ## Reports -/

/-- A report on what was sent. -/
structure SenderReport where
  ssrc : UInt32
  ntp : UInt64
  timestamp : UInt32
  packets : UInt32
  octets : UInt32
  deriving DecidableEq, Repr

/-- The ticks of a clock in a span of time. -/
def ticksOf (clockRate : UInt32) (nanos : Nat) : UInt32 :=
  UInt32.ofNat (nanos * clockRate.toNat / Rtp.nanosPerSecond)

/-- The layer whose clock counts. -/
def clockLayer (s : Subscription) : Int :=
  match s.kind with
  | .audio => 0
  | .video => s.forwarder.current.spatial

/-- The report on what was sent, once the subscription is bound and the publisher
has told its clock. -/
def senderReport (s : Subscription) (v : PublisherView) (now : Moment) : Option SenderReport := do
  let b ← s.activeBinding
  let clock ← v.clock s.clockLayer
  return {
    ssrc := b.ssrc
    ntp := Rtp.ntpOfUnix now.unixNanos
    timestamp := clock.timestamp - s.forwarder.numbering.timestampOffset +
      ticksOf s.codec.clockRate (now.time - clock.time)
    packets := UInt32.ofNat s.stats.packets
    octets := UInt32.ofNat s.stats.octets }

/-- The canonical name under which the source of a bound subscription is announced. -/
def canonicalName (s : Subscription) : Option (UInt32 × String) :=
  s.activeBinding.map fun b => (b.ssrc, s.name.stream)

end Simulcast.Subscription
