import Simulcast.Rtp.SendTime
import Simulcast.SendQueue

/-!
# Transmission

What a send queue holds is an `Outgoing` packet. When its turn comes it is stamped
with the time and handed to the link toward the subscriber; the `Transmission` says
what left, or that nothing did.
-/

namespace Simulcast

/-- A packet ready to be sent. -/
structure Outgoing where
  packet : Rtp.Packet
  /-- The identifier of the send time extension; zero where none is agreed on. -/
  sendTimeId : UInt8 := 0
  isPadding : Bool := false
  deriving DecidableEq, Repr

/-- The way toward a subscriber. -/
inductive Link where
  | up
  | down (reason : String)
  deriving DecidableEq, Repr

/-- A packet whose turn came. -/
structure Transmission where
  /-- The packet as stamped. -/
  packet : Rtp.Packet
  isPadding : Bool
  link : Link
  deriving DecidableEq, Repr

namespace Outgoing

/-- Stamps a packet and hands it to the link. -/
def transmit (o : Outgoing) (unixNanos : Int) (link : Link) : Transmission :=
  { packet := { o.packet with
      header := o.packet.header.stampSendTime o.sendTimeId unixNanos }
    isPadding := o.isPadding
    link }

end Outgoing

namespace Transmission

/-- The size that the link reports, or why it took nothing. -/
def result (t : Transmission) : Except Fault Nat :=
  match t.link with
  | .up => .ok t.packet.size
  | .down reason => .error (.transport reason)

/-- Whether the link took the packet. -/
def succeeded (t : Transmission) : Bool := t.link == .up

/-- The octets of header and payload. -/
def size (t : Transmission) : Nat := t.packet.header.size + t.packet.payload.length

end Transmission
end Simulcast
