import Simulcast.PacketRing
import Simulcast.Vp8.Descriptor
import Simulcast.Intake.Arrival

/-!
# Send logs

A send log remembers what was sent under each of a subscriber's newest sequence
numbers: which packet of which layer it was, and what was put into it. Packets that
the subscriber lost are looked up in it. Each is handed out a few times only, and
not again before the last copy had time to arrive.
-/

namespace Simulcast

/-- Where a sent packet came from, and what was put into it. -/
structure SentPacket where
  /-- Its number in the publisher's stream. -/
  source : UInt16
  /-- Its number in the subscriber's stream. -/
  target : UInt16
  /-- Its timestamp in the subscriber's stream. -/
  timestamp : UInt32
  layer : UInt8
  descriptor : Option Vp8.Descriptor := none
  deriving DecidableEq, Repr

/-- A sent packet, with the copies handed out so far. -/
structure SendLogEntry where
  packet : SentPacket
  copies : Nat := 0
  lastCopy : Option Time := none
  deriving DecidableEq, Repr

/-- What was sent under the newest numbers. -/
abbrev SendLog := PacketRing SendLogEntry

namespace SendLogEntry

/-- How often a packet is handed out at most. -/
def copyLimit : Nat := 3

/-- How much time has to go by before it is handed out again. -/
def copyInterval : Nat := 100 * nanosPerMilli

/-- Whether a packet may be handed out. -/
def isDue (e : SendLogEntry) (now : Time) : Bool :=
  e.copies < copyLimit &&
    match e.lastCopy with
    | none => true
    | some last => copyInterval < now - last

/-- The entry after one more copy. -/
def copied (e : SendLogEntry) (now : Time) : SendLogEntry :=
  { e with copies := e.copies + 1, lastCopy := some now }

end SendLogEntry

namespace SendLog

/-- An empty log for the given number of packets. -/
def ofCapacity (capacity : Nat) : SendLog := PacketRing.ofCapacity capacity

/-- Remembers a packet that is sent. -/
def record (l : SendLog) (p : SentPacket) : SendLog :=
  PacketRing.add l p.target { packet := p }

/-- Hands out the packet with a number, if it may be. -/
def request (l : SendLog) (now : Time) (number : UInt16) : SendLog × Option SentPacket :=
  match PacketRing.get? l number with
  | none => (l, none)
  | some e =>
    if e.isDue now then (PacketRing.replace l number (e.copied now), some e.packet)
    else (l, none)

/-- Hands out the packets with some numbers, in turn, as far as they may be. -/
def requestAll (l : SendLog) (now : Time) : List UInt16 → SendLog × List SentPacket
  | [] => (l, [])
  | n :: ns =>
    let (l, p) := SendLog.request l now n
    let (l, ps) := SendLog.requestAll l now ns
    (l, p.toList ++ ps)

end SendLog
end Simulcast
