import Simulcast.Backlog
import Simulcast.Intake.Arrival

/-!
# Numbering

A subscriber sees one stream of RTP packets, whatever sources it is put together
from and whatever is left out. A `Numbering` turns the sequence numbers and
timestamps of the current source into those of the subscriber, by offsets that
grow when a packet is left out, shrink when one is added, and are set anew when
the source changes.

A number that was lost on the way in is remembered with the offset it would have
been given, so that the packet can still come in late.
-/

namespace Simulcast

/-- How a packet stands to those of its source before it. -/
inductive Standing where
  | contiguous
  /-- A packet that was missing so far. -/
  | late
  /-- Some packets before it are missing. -/
  | gap
  | duplicate
  deriving DecidableEq, Repr

/-- The place of a packet in the subscriber's stream. -/
structure Place where
  number : UInt16
  timestamp : UInt32
  deriving DecidableEq, Repr

/-- The place of a forwarded packet, with its standing in the source. -/
structure Placement extends Place where
  standing : Standing
  deriving DecidableEq, Repr

/-- The state of a mapping of numbers and timestamps. -/
structure Numbering where
  /-- The newest number of the source. -/
  highest : UInt16 := 0
  /-- The last number and timestamp sent. -/
  last : Place := ⟨0, 0⟩
  /-- What is taken off the numbers of the source. -/
  offset : UInt16 := 0
  /-- What is taken off the timestamps of the source. -/
  timestampOffset : UInt32 := 0
  /-- The last packet sent ended a frame. -/
  lastMarker : Bool := false
  /-- Missing numbers of the source with the offset in force for them. -/
  missing : Backlog UInt16 UInt16 := {}
  deriving Repr

namespace Numbering

/-- How far behind the newest number a packet may be missing. -/
def window : UInt16 := 100

/-- Starts with a packet, which keeps its number and timestamp. -/
def start (n : Numbering) (a : Arrival) : Numbering :=
  { n with highest := a.number - 1, last := ⟨a.number, a.timestamp⟩ }

/-- Changes the source to that of a packet, which is to come so many numbers and
ticks after the last one sent. Nothing of the old source is missing any more. -/
def changeSource (n : Numbering) (a : Arrival) (numbers : UInt16) (ticks : UInt32) : Numbering :=
  { n with
    highest := a.number - 1
    offset := a.number - n.last.number - numbers
    timestampOffset := a.timestamp - n.last.timestamp - ticks
    missing := .empty }

/-- Forgets the missing numbers that are too far behind, so that none is taken for
a number of a later cycle. -/
def prune (n : Numbering) : Numbering :=
  { n with missing := n.missing.dropOldestWhile fun number => window < n.highest - number }

/-- Leaves out the newest packet: the next one takes its number. -/
def leaveOut (n : Numbering) (a : Arrival) : Numbering :=
  { n with highest := a.number, offset := n.offset + 1 }.prune

/-- A packet will not be forwarded after all. Only the newest one leaves a number
to be taken. -/
def drop (n : Numbering) (a : Arrival) : Numbering :=
  if a.head then n.leaveOut a else n

/-- The numbers before `number` that have gone missing since the newest one, as far
as the window reaches. -/
def lost (n : Numbering) (number : UInt16) : List UInt16 :=
  let count := min (number - n.highest - 1) window
  (List.range count.toNat).map fun i => number - count + UInt16.ofNat i

/-- Remembers the numbers lost before a packet. -/
def noteLost (n : Numbering) (a : Arrival) : Numbering :=
  { n with missing := n.missing.insertEach (n.lost a.number) n.offset }

/-- The place that the offsets give a packet. -/
def placeOf (n : Numbering) (a : Arrival) : Place :=
  ⟨a.number - n.offset, a.timestamp - n.timestampOffset⟩

/-- Sends the newest packet of the source. -/
def advance (n : Numbering) (a : Arrival) : Numbering :=
  { { n with highest := a.number }.prune with
    last := n.placeOf a
    lastMarker := a.packet.header.marker }

/-- The place of a packet that comes late, if it was missing. -/
def placeLate (n : Numbering) (a : Arrival) : Numbering × Except Fault Placement :=
  match n.missing.find? a.number with
  | none => (n, .error .lateSequence)
  | some offset =>
    ({ n with missing := n.missing.erase a.number },
      .ok { number := a.number - offset
            timestamp := a.timestamp - n.timestampOffset
            standing := .late })

/-- The place of the newest packet. One without media that follows directly is
absorbed; after a gap every packet is sent, since it is not known whether the lost
ones would have been left out. -/
def placeHead (n : Numbering) (a : Arrival) : Numbering × Except Fault Placement :=
  let step := a.number - n.highest
  if 1 < step then
    ((n.noteLost a).advance a, .ok { n.placeOf a with standing := .gap })
  else if step = 0 then (n, .error .duplicate)
  else if a.carriesMedia then
    (n.advance a, .ok { n.placeOf a with standing := .contiguous })
  else (n.leaveOut a, .error .paddingOnly)

/-- The place of a packet in the subscriber's stream, or why it has none. -/
def place (n : Numbering) (a : Arrival) : Numbering × Except Fault Placement :=
  if a.head then n.placeHead a else n.placeLate a

/-- The timestamps between two generated frames. -/
def tickStep (clockRate frameRate : UInt32) : UInt32 :=
  if frameRate = 0 then 0 else clockRate / frameRate

/-- The places of `count` generated packets. If the frame in flight has to be
closed, the first packet does so and keeps its timestamp. -/
def generatedPlaces (n : Numbering) (count : Nat) (step : UInt32) (closesFrame : Bool) :
    List Place :=
  (List.range count).map fun i =>
    let frames := if closesFrame then i else i + 1
    { number := n.last.number + UInt16.ofNat (i + 1)
      timestamp := n.last.timestamp + UInt32.ofNat frames * step }

/-- Moves the offsets past generated packets. -/
def skip (n : Numbering) (count : Nat) (last : Place) : Numbering :=
  { n with
    offset := n.offset - UInt16.ofNat count
    timestampOffset := n.timestampOffset - (last.timestamp - n.last.timestamp)
    last }

/-- Places `count` generated packets behind the last one sent. In the middle of a
frame this is refused, unless the frame may be closed by force. -/
def generate (n : Numbering) (count : Nat) (clockRate frameRate : UInt32) (force : Bool) :
    Numbering × Except Fault (List Place) :=
  if !n.lastMarker && !force then (n, .error .notOnFrameBoundary)
  else
    let places := n.generatedPlaces count (tickStep clockRate frameRate) (!n.lastMarker)
    match places.getLast? with
    | none => (n, .ok [])
    | some last =>
      let n := n.skip count last
      ({ n with lastMarker := n.lastMarker || force }, .ok places)

/-- Whether the last packet sent ended a frame. -/
def isOnFrameBoundary (n : Numbering) : Bool := n.lastMarker

end Numbering
end Simulcast
