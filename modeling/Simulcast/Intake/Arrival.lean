import Simulcast.Rtp.Packet
import Simulcast.Vp8.Descriptor

/-!
# Arrivals

A packet as it came in, with what the forwarding path wants to know about it.
Times are nanoseconds since the relay started.
-/

namespace Simulcast

/-- A moment, in nanoseconds since the start of the relay. -/
abbrev Time := Nat

/-- Nanoseconds in a millisecond. -/
def nanosPerMilli : Nat := 1000000

/-- A received packet. -/
structure Arrival where
  /-- The newest packet so far of its layer. -/
  head : Bool
  time : Time
  packet : Rtp.Packet
  /-- The payload descriptor, for VP8. -/
  vp8 : Option Vp8.Descriptor := none
  keyFrame : Bool := false
  /-- The octets it came in as. -/
  raw : Octets := []
  deriving DecidableEq, Repr

namespace Arrival

/-- The sequence number. -/
def number (a : Arrival) : UInt16 := a.packet.header.number

/-- The timestamp. -/
def timestamp (a : Arrival) : UInt32 := a.packet.header.timestamp

/-- The source. -/
def ssrc (a : Arrival) : UInt32 := a.packet.header.ssrc

/-- Whether there is any media in the packet. -/
def carriesMedia (a : Arrival) : Bool := !a.packet.payload.isEmpty

/-- The highest temporal layer that is told apart. -/
def topTemporal : Nat := 3

/-- The temporal layer; a packet that does not name one belongs to the base. -/
def temporal (a : Arrival) : Nat :=
  match a.vp8 with
  | some d => if d.hasTid then min d.tid.toNat topTemporal else 0
  | none => 0

end Arrival
end Simulcast
