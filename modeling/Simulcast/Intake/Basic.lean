import Simulcast.PacketRing
import Simulcast.Intake.BitrateMeter
import Simulcast.H264
import Simulcast.Media

/-!
# Intakes

An intake takes in the packets of one layer of a publisher: it reads them, queues
them for the forwarding path, keeps them for retransmission and measures their
bitrate. Once it is closed it takes nothing more in, and its reader comes to an
end when the queue is empty.
-/

namespace Simulcast

/-- The clock of a publisher, as it last reported it. -/
structure PublisherClock where
  timestamp : UInt32
  ntp : UInt64
  time : Time
  deriving DecidableEq, Repr

/-- How much an intake keeps, and how often it measures. -/
structure IntakeSettings where
  capacity : Nat := 500
  bitrateInterval : Nat := 1000 * nanosPerMilli
  deriving DecidableEq, Repr

/-- The intake of one layer. -/
structure Intake where
  ssrc : UInt32
  codec : Codec
  ring : PacketRing Octets
  queue : List Arrival := []
  newest : Option UInt16 := none
  meter : BitrateMeter
  clock : Option PublisherClock := none
  closed : Bool := false
  deriving Repr

/-- What a reader gets. -/
inductive ReadResult where
  | packet (a : Arrival)
  /-- Nothing yet. -/
  | pending
  /-- Closed, and nothing left. -/
  | ended
  deriving Repr

namespace Intake

/-- An empty intake. -/
def empty (ssrc : UInt32) (codec : Codec) (settings : IntakeSettings) : Intake :=
  { ssrc, codec
    ring := PacketRing.ofCapacity settings.capacity
    meter := { interval := settings.bitrateInterval } }

/-- The payload descriptor of a packet, where the format has one and there is a
payload. -/
def descriptorOf (format : PayloadFormat) (payload : Octets) :
    Attempt (Option Vp8.Descriptor) :=
  if format = .vp8 ∧ payload ≠ [] then
    match Vp8.Descriptor.parse payload with
    | .ok d => .ok (some d)
    | .error t => .error (.fault (.invalidVp8 t))
  else .ok none

/-- Whether a packet starts or carries a key frame. -/
def isKeyFrame (format : PayloadFormat) (vp8 : Option Vp8.Descriptor) (payload : Octets) : Bool :=
  match format with
  | .vp8 => vp8.any Vp8.Descriptor.keyFrame
  | .h264 => H264.isKeyFrame payload
  | .other => false

/-- Whether a number is the newest one so far. -/
def isHead (newest : Option UInt16) (number : UInt16) : Bool :=
  match newest with
  | none => true
  | some n => Serial.isAhead number n

/-- Reads a packet, with everything but whether it is the newest one. -/
def readArrival (format : PayloadFormat) (now : Time) (raw : Octets) : Attempt Arrival := do
  let packet ← Rtp.Packet.parse raw
  let vp8 ← descriptorOf format packet.payload
  return { head := false, time := now, packet, vp8
           keyFrame := isKeyFrame format vp8 packet.payload, raw }

/-- Takes in a packet that was read. -/
def accept (i : Intake) (a : Arrival) : Intake :=
  if i.closed then i
  else
    let a := { a with head := isHead i.newest a.number }
    { i with
      newest := if a.head then some a.number else i.newest
      ring := i.ring.add a.number a.raw
      meter := i.meter.add a.time a.temporal a.raw.length
      queue := i.queue ++ [a] }

/-- Takes in the octets of a packet. What cannot be read changes nothing. -/
def write (i : Intake) (now : Time) (raw : Octets) : Attempt Intake :=
  (readArrival i.codec.format now raw).map i.accept

/-- Takes the next packet off the queue. -/
def read (i : Intake) : Intake × ReadResult :=
  match i.queue with
  | a :: rest => ({ i with queue := rest }, .packet a)
  | [] => (i, if i.closed then .ended else .pending)

/-- The octets kept under a number, for a reader with so much room. -/
def stored (i : Intake) (number : UInt16) (room : Nat) : Except Fault Octets :=
  match i.ring.get? number with
  | none => .error (.packetNotFound number)
  | some raw => if room < raw.length then .error (.shortBuffer raw.length room) else .ok raw

/-- Brings the meter up to date. -/
def measure (i : Intake) (now : Time) : Intake := { i with meter := i.meter.roll now }

/-- The bitrates as last measured, each with those of the layers below it. -/
def rates (i : Intake) : LayerRates := BitrateMeter.cumulative i.meter.rates

/-- Remembers the publisher's clock. -/
def setClock (i : Intake) (now : Time) (timestamp : UInt32) (ntp : UInt64) : Intake :=
  { i with clock := some { timestamp, ntp, time := now } }

/-- Takes nothing more in. -/
def close (i : Intake) : Intake := { i with closed := true }

end Intake
end Simulcast
