import Simulcast.Intake.Arrival

/-!
# Liveness of a layer

A tracker watches the sequence numbers of one layer. The first packet declares the
layer active and starts detection: at the end of each cycle the packets counted in
it are compared with what is required. One cycle short of packets declares the layer
stopped; it takes a number of good cycles in a row to declare it active again.

Detection belongs to a generation, which ends with a reset or a stop: the end of a
cycle of an older generation does nothing. Changes of the status are queued as
notices, in order. A stop ends detection and then shuts the queue, which takes no more
notices.

What a call does while it holds the lock of the tracker is a definition of its own
(`arm` and `declareActive` of a first packet, `endDetection` and `shut` of a stop,
`judgeCycle` of the end of a cycle), since other calls can come between.
-/

namespace Simulcast

/-- Whether a layer flows. -/
inductive LayerStatus where
  | stopped
  | active
  deriving DecidableEq, Repr

/-- The name of a status. -/
def LayerStatus.name : LayerStatus → String
  | stopped => "stopped"
  | active => "active"

/-- What it takes for a layer to be declared active. -/
structure Thresholds where
  /-- Packets in a good cycle. -/
  samples : Nat
  /-- Good cycles in a row. -/
  cycles : Nat
  deriving DecidableEq, Repr

/-- How far a tracker has come to its end. -/
inductive TrackerStage where
  | running
  /-- Detection has ended for good. -/
  | ended
  /-- The queue takes no more notices. -/
  | shut
  deriving DecidableEq, Repr

/-- The tracker of one layer. -/
structure Tracker where
  thresholds : Thresholds
  paused : Bool := false
  /-- A first packet has been seen. -/
  armed : Bool := false
  /-- Packets counted in this cycle, which are fewer than 2 ^ 32: beyond that a count of
  32 bits would start again at 0. -/
  count : Nat := 0
  lastNumber : UInt16 := 0
  generation : Nat := 0
  status : LayerStatus := .stopped
  goodCycles : Nat := 0
  stage : TrackerStage := .running
  /-- Changes of the status that have not been delivered. -/
  notices : List LayerStatus := []
  deriving DecidableEq, Repr

namespace Tracker

/-- Detection has ended for good. -/
def ended (t : Tracker) : Bool := t.stage != .running

/-- How far behind the last number a packet is too old to count. -/
def tooOld : UInt16 := 0x8000

/-- Queues a notice, if the queue still takes it. -/
def enqueue (t : Tracker) (status : LayerStatus) : Tracker :=
  if t.stage = .shut then t else { t with notices := t.notices ++ [status] }

/-- Changes the status, with a notice if it is another one. -/
def setStatus (t : Tracker) (status : LayerStatus) : Tracker :=
  if t.status = status then t else { t with status }.enqueue status

/-- Detection ends for good. -/
def endDetection (t : Tracker) : Tracker :=
  { t with stage := .ended, generation := t.generation + 1 }

/-- The queue takes no more notices. Those that are in it are still delivered. -/
def shut (t : Tracker) : Tracker := { t with stage := .shut }

/-- Ends detection and the delivery of notices for good. -/
def stop (t : Tracker) : Tracker := if t.ended then t else t.endDetection.shut

/-- Forgets what was seen. The next packet starts over. -/
def reset (t : Tracker) : Tracker :=
  if t.ended then t
  else
    { t with
      generation := t.generation + 1
      armed := false
      count := 0
      goodCycles := 0 }.setStatus .stopped

/-- Stops or resumes counting and judging. A count from before the pause does not
carry over. -/
def setPaused (t : Tracker) (paused : Bool) : Tracker :=
  if paused then { t with paused }
  else { t with paused, count := 0, goodCycles := 0 }

/-- Counts a packet, unless it is an old one. -/
def countPacket (t : Tracker) (number : UInt16) : Tracker :=
  if tooOld < number - t.lastNumber then t
  else { t with lastNumber := number, count := t.count + 1 }

/-- Starts with a first packet. -/
def arm (t : Tracker) (number : UInt16) : Tracker :=
  { t with lastNumber := number, armed := true }

/-- The layer flows, by its first packet. Nothing asks again whether detection has ended
since the packet armed the tracker. -/
def declareActive (t : Tracker) : Tracker := t.setStatus .active

/-- Whether a packet starts detection. -/
def starts (t : Tracker) : Bool := !t.paused && !t.armed && !t.ended

/-- Takes note of a packet. -/
def observe (t : Tracker) (number : UInt16) : Tracker :=
  if t.paused then t
  else if t.armed then t.countPacket number
  else if t.ended then t
  else (t.arm number).declareActive

/-- The good cycles in a row, this one included. -/
def judge (t : Tracker) : Nat :=
  if t.thresholds.samples ≤ t.count then t.goodCycles + 1 else 0

/-- Judges the cycle that ends. -/
def endCycle (t : Tracker) : Tracker :=
  let good := t.judge
  let t := { t with count := 0, goodCycles := good }
  if good = 0 then t.setStatus .stopped
  else if t.thresholds.cycles ≤ good then t.setStatus .active
  else t

/-- Whether detection of a generation goes on. -/
def isCurrent (t : Tracker) (generation : Nat) : Bool := t.generation == generation

/-- Judges the cycle that ends, unless its generation is over. -/
def judgeCycle (t : Tracker) (generation : Nat) : Tracker :=
  if t.isCurrent generation && !t.ended then t.endCycle else t

/-- The end of a cycle of a generation. -/
def cycleEnd (t : Tracker) (generation : Nat) : Tracker :=
  if t.paused then t else t.judgeCycle generation

/-- Delivers the queued notices. -/
def deliver (t : Tracker) : Tracker × List LayerStatus :=
  ({ t with notices := [] }, t.notices)

end Tracker
end Simulcast
